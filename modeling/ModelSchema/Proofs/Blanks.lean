import ModelSchema.Proofs.Quotation
import ModelSchema.Proofs.Seam

namespace ModelSchema

namespace Text

/-- The text of a line that declares a field. -/
structure IsField (t : Text) : Prop where
  notDefinition : ¬"def ".toList <+: t
  notModel : ¬"model ".toList <+: t
  notClose : ¬['\x7d'] <+: t
  notTag : ¬['@'] <+: t
  notComment : ¬"//".toList <+: t

/-- The texts of two lines that differ at most in the blanks after the words of a header, or around
the colon of a field. -/
inductive Respaced : Text → Text → Prop
  | same (t : Text) : Respaced t t
  | definition {gap gap' inner inner' name tail : Text} {shape : Shape}
      (hspace : gap.head? = some ' ') (hgap : IsRun isBlank gap) (hgap' : IsRun isBlank gap')
      (hname : IsRun isWord name) (hinner : IsRun isBlank inner) (hinner' : IsRun isBlank inner')
      (hshape : shape ≠ .model) (htail : EndsWord tail) :
      Respaced ("def".toList ++ (gap ++ (name ++ (inner ++ (shape.name ++ tail)))))
        ("def".toList ++ (gap' ++ (name ++ (inner' ++ (shape.name ++ tail)))))
  | model {gap gap' name tail : Text} (hspace : gap.head? = some ' ') (hgap : IsRun isBlank gap)
      (hgap' : IsRun isBlank gap') (hname : IsRun isWord name) (htail : EndsWord tail) :
      Respaced ("model".toList ++ (gap ++ (name ++ tail)))
        ("model".toList ++ (gap' ++ (name ++ tail)))
  | field {name before before' after after' rest : Text} (hname : name ≠ []) (hcolon : ':' ∉ name)
      (hend : ∀ c ∈ name.getLast?, isBlank c = false) (hbefore : ∀ c ∈ before, isBlank c = true)
      (hbefore' : ∀ c ∈ before', isBlank c = true) (hafter : ∀ c ∈ after, isBlank c = true)
      (hafter' : ∀ c ∈ after', isBlank c = true)
      (hfield : IsField (name ++ (before ++ ':' :: (after ++ rest)))) :
      Respaced (name ++ (before ++ ':' :: (after ++ rest)))
        (name ++ (before' ++ ':' :: (after' ++ rest)))

/-- Both texts start with the word for a header and a space, or neither does. -/
structure SameOpening (t t' : Text) : Prop where
  definition : "def ".toList <+: t ↔ "def ".toList <+: t'
  model : "model ".toList <+: t ↔ "model ".toList <+: t'

theorem SameOpening.refl (t : Text) : SameOpening t t := ⟨Iff.rfl, Iff.rfl⟩

instance (t t' : Text) : Decidable (SameOpening t t') :=
  decidable_of_iff (("def ".toList <+: t ↔ "def ".toList <+: t') ∧
      ("model ".toList <+: t ↔ "model ".toList <+: t'))
    ⟨fun h => ⟨h.1, h.2⟩, fun h => ⟨h.definition, h.model⟩⟩

theorem not_starts {start t : Text} (h : startsWith start t = false) : ¬start <+: t := by
  rw [← startsWith_iff, h]
  exact Bool.false_ne_true

/-- A start without the character that the second part begins with lies in the first part. -/
theorem starts_append_iff {start a b : Text} (h : ∀ c ∈ b.head?, c ∉ start) :
    start <+: a ++ b ↔ start <+: a := by
  constructor
  · intro hstart
    obtain ⟨rest, hrest⟩ := hstart
    obtain ⟨more, ha, -⟩ | ⟨more, hmore, hb⟩ := List.append_eq_append_iff.mp hrest
    · exact ⟨more, ha.symm⟩
    · cases more with
      | nil => exact ⟨[], by simp [hmore]⟩
      | cons c more =>
        have hmem : c ∈ start := by simp [hmore]
        exact absurd hmem (h c (by simp [hb]))
  · intro hstart
    exact hstart.trans (List.prefix_append a b)

/-- What follows the name of a field begins with a blank or the colon. -/
theorem head?_after_name {gap rest : Text} (hgap : ∀ c ∈ gap, isBlank c = true) :
    ∀ c ∈ (gap ++ ':' :: rest).head?, isBlank c = true ∨ c = ':' := by
  intro c hc
  cases gap with
  | nil => exact .inr (by simpa using hc.symm)
  | cons d gap =>
    have hdc : d = c := by simpa using hc
    exact .inl (hdc ▸ hgap d (by simp))

theorem starts_name_iff {start name gap rest : Text} (hgap : ∀ c ∈ gap, isBlank c = true)
    (hblank : ∀ c ∈ start, isBlank c = false) (hcolon : ':' ∉ start) :
    start <+: name ++ (gap ++ ':' :: rest) ↔ start <+: name := by
  apply starts_append_iff
  intro c hc hmem
  obtain hyes | rfl := head?_after_name hgap c hc
  · cases hyes.symm.trans (hblank c hmem)
  · exact hcolon hmem

theorem starts_space {word gap rest : Text} (h : gap.head? = some ' ') :
    word ++ [' '] <+: word ++ (gap ++ rest) := by
  obtain ⟨more, rfl⟩ := List.head?_eq_some_iff.mp h
  exact ⟨more ++ rest, by simp⟩

theorem starts_definition {gap rest : Text} (h : gap.head? = some ' ') :
    "def ".toList <+: "def".toList ++ (gap ++ rest) := by
  have hword : "def ".toList = "def".toList ++ [' '] := by decide
  rw [hword]
  exact starts_space h

theorem starts_model {gap rest : Text} (h : gap.head? = some ' ') :
    "model ".toList <+: "model".toList ++ (gap ++ rest) := by
  have hword : "model ".toList = "model".toList ++ [' '] := by decide
  rw [hword]
  exact starts_space h

/-- A word and a space that start a field lie in its name, or the word is its name. -/
theorem name_of_starts {word name gap rest : Text} (hgap : ∀ c ∈ gap, isBlank c = true)
    (hword : ∀ c ∈ word, isWord c = true)
    (h : word ++ [' '] <+: name ++ (gap ++ ':' :: rest)) :
    word ++ [' '] <+: name ∨ name = word := by
  obtain ⟨further, hfurther⟩ := h
  obtain ⟨more, hname, -⟩ | ⟨more, hmore, hrest⟩ := List.append_eq_append_iff.mp hfurther
  · exact .inl ⟨more, hname.symm⟩
  · cases more with
    | nil => exact .inl ⟨[], by rw [hmore, List.append_nil, List.append_nil]⟩
    | cons c more =>
      -- The first character after the name is none of a word, so it is the space.
      have hc : c ∉ word := by
        intro hmem
        obtain hblank | rfl := head?_after_name hgap c (by rw [hrest]; rfl)
        · cases (isBlank_eq_false_of_isWord (hword c hmem)).symm.trans hblank
        · exact absurd (hword _ hmem) (by decide)
      have hinit : word = name ++ (c :: more).dropLast := by
        have hdrop := congrArg List.dropLast hmore
        rwa [List.dropLast_concat, List.dropLast_append_of_ne_nil (by simp)] at hdrop
      cases more with
      | nil => exact .inr (by simpa using hinit.symm)
      | cons d more => exact absurd (by simp [hinit]) hc

/-- Blanks and a colon hold no word. -/
theorem nextWord?_colon {gap : Text} (hgap : ∀ c ∈ gap, isBlank c = true) (rest : Text) :
    Header.nextWord? (gap ++ ':' :: rest) = none := by
  have hcolon : isBlank ':' = false := by decide
  have hword : isWord ':' = false := by decide
  have hsplit := span_append (b := ':' :: rest) hgap (by simpa using hcolon)
  simp [Header.nextWord?, hsplit.2, hword]

/-- A field that starts with a word and a space, and did not with other blanks, has no second
word. -/
theorem nextWord?_of_field {word name gap gap' rest rest' after : Text}
    (hgap' : ∀ c ∈ gap', isBlank c = true) (hword : ∀ c ∈ word, isWord c = true)
    (hnot : ¬word ++ [' '] <+: name ++ (gap ++ ':' :: rest))
    (hstart : word ++ [' '] <+: name ++ (gap' ++ ':' :: rest'))
    (hafter : name ++ (gap' ++ ':' :: rest') = word ++ after) :
    Header.nextWord? after = none := by
  obtain hinside | rfl := name_of_starts hgap' hword hstart
  · exact absurd (hinside.trans (List.prefix_append _ _)) hnot
  · rw [← List.append_cancel_left hafter]
    exact nextWord?_colon hgap' rest'

/-- A start that has no blank and no colon is kept by other blanks. -/
theorem not_starts_respaced {start name gap gap' rest rest' : Text}
    (hgap : ∀ c ∈ gap, isBlank c = true) (hgap' : ∀ c ∈ gap', isBlank c = true)
    (hblank : start.all (!isBlank ·) = true) (hcolon : ':' ∉ start)
    (h : ¬start <+: name ++ (gap ++ ':' :: rest)) : ¬start <+: name ++ (gap' ++ ':' :: rest') := by
  have hstart : ∀ c ∈ start, isBlank c = false := by simpa using hblank
  rw [starts_name_iff hgap hstart hcolon] at h
  rwa [starts_name_iff hgap' hstart hcolon]

/-- Other blanks make no line empty, and none a comment. -/
theorem Respaced.kept {t t' : Text} (h : Respaced t t') : t = t' ∨
    (t ≠ [] ∧ SourceLine.isComment t = false) ∧ t' ≠ [] ∧ SourceLine.isComment t' = false := by
  cases h with
  | same => exact .inl rfl
  | definition => exact .inr ⟨⟨by simp, rfl⟩, by simp, rfl⟩
  | model => exact .inr ⟨⟨by simp, rfl⟩, by simp, rfl⟩
  | field hname hcolon hend hbefore hbefore' hafter hafter' hfield =>
    refine .inr ⟨⟨by simp, ?_⟩, by simp, ?_⟩
    · rw [SourceLine.isComment, Bool.eq_false_iff, ne_eq, startsWith_iff]
      exact hfield.notComment
    · rw [SourceLine.isComment, Bool.eq_false_iff, ne_eq, startsWith_iff]
      exact not_starts_respaced hbefore hbefore' (by decide) (by decide) hfield.notComment

/-- Other blanks make no line the end of a block. -/
theorem Respaced.eq_or_not_close {t t' : Text} (h : Respaced t t') :
    t = t' ∨ ¬['\x7d'] <+: t ∧ ¬['\x7d'] <+: t' := by
  cases h with
  | same => exact .inl rfl
  | definition => exact .inr ⟨not_starts rfl, not_starts rfl⟩
  | model => exact .inr ⟨not_starts rfl, not_starts rfl⟩
  | field hname hcolon hend hbefore hbefore' hafter hafter' hfield =>
    refine .inr ⟨hfield.notClose, ?_⟩
    exact not_starts_respaced hbefore hbefore' (by decide) (by decide) hfield.notClose

end Text

namespace SourceLine

/-- Two lines with one number, and a relation between their texts. -/
def Paired (R : Text → Text → Prop) (line line' : SourceLine) : Prop :=
  line.number = line'.number ∧ R line.text line'.text

theorem Paired.eq {R : Text → Text → Prop} {line line' : SourceLine} (h : line.Paired R line')
    (htext : line.text = line'.text) : line = line' := by
  obtain ⟨n, t⟩ := line
  obtain ⟨n', t'⟩ := line'
  exact congr (congrArg SourceLine.mk h.1) htext

theorem Paired.eq_of_isClose {line line' : SourceLine} (h : line.Paired Text.Respaced line')
    (hclose : line.IsClose) : line = line' := by
  obtain hsame | ⟨hnot, -⟩ := h.2.eq_or_not_close
  · exact h.eq hsame
  · exact absurd hclose hnot

theorem IsStatement.respaced {line line' : SourceLine} (hline : line.IsStatement)
    (h : line.Paired Text.Respaced line') (hopening : Text.SameOpening line.text line'.text) :
    line'.IsStatement := by
  refine ⟨fun hdef => hline.notDefinition (hopening.definition.mpr hdef),
    fun hmodel => hline.notModel (hopening.model.mpr hmodel), ?_⟩
  obtain hsame | ⟨-, hnot⟩ := h.2.eq_or_not_close
  · exact hsame ▸ hline.notClose
  · exact hnot

theorem ofRaw?_of_kept {raw : Text} (hne : Text.strip raw ≠ [])
    (hcomment : isComment (Text.strip raw) = false) (n : Nat) :
    ofRaw? n raw = some ⟨n, Text.strip raw⟩ := by
  simp [ofRaw?, hne, hcomment]

/-- The statements of respaced lines pair up as the lines do. -/
theorem forall₂_readFrom {R : Text → Text → Prop} (hrefl : ∀ t, R t t) {raws raws' : List Text}
    (h : List.Forall₂ (fun raw raw' => Text.Respaced (Text.strip raw) (Text.strip raw')) raws raws')
    (n : Nat) :
    List.Forall₂ (Paired R) (readFrom n raws) (readFrom n raws') ↔
      List.Forall₂ (fun raw raw' => R (Text.strip raw) (Text.strip raw')) raws raws' := by
  induction h generalizing n with
  | nil => exact ⟨fun _ => .nil, fun _ => .nil⟩
  | @cons raw raw' raws raws' hraw hraws ih =>
    rw [List.forall₂_cons, readFrom, readFrom, ← ih (n + 1)]
    obtain hsame | ⟨⟨hne, hcomment⟩, hne', hcomment'⟩ := hraw.kept
    · have hof : ofRaw? n raw' = ofRaw? n raw := by simp only [ofRaw?, hsame]
      have hR : R (Text.strip raw) (Text.strip raw') := hsame ▸ hrefl _
      rw [hof]
      cases hread : ofRaw? n raw with
      | none => exact ⟨fun hrest => ⟨hR, hrest⟩, And.right⟩
      | some line =>
        simp only [Option.toList_some, List.singleton_append, List.forall₂_cons, hR, true_and]
        exact and_iff_right ⟨rfl, hrefl line.text⟩
    · rw [ofRaw?_of_kept hne hcomment, ofRaw?_of_kept hne' hcomment']
      simp only [Option.toList_some, List.singleton_append, List.forall₂_cons, Paired, true_and]

end SourceLine

theorem Text.cut?_append {sep : Char} {front : Text} (h : sep ∉ front) (t : Text) :
    cut? sep (front ++ t) = (cut? sep t).map fun p => (front ++ p.1, p.2) := by
  induction front with
  | nil => simp
  | cons c front ih =>
    rw [List.mem_cons, not_or] at h
    have hc : (c == sep) = false := by simpa using Ne.symm h.1
    rw [List.cons_append, cut?, hc, ih h.2]
    cases cut? sep t <;> rfl

theorem Header.hasBody_append {front : Text} (h : '\x7b' ∉ front) (t : Text) :
    hasBody (front ++ t) = hasBody t := by
  rw [hasBody, hasBody, Text.cut?_append h]
  cases Text.cut? '\x7b' t <;> rfl

theorem Text.IsRun.brace_not_mem {gap : Text} (h : IsRun isBlank gap) : '\x7b' ∉ gap :=
  fun hmem => absurd (h.2 _ hmem) (by decide)

namespace Header

open Text (IsRun)

variable {gap name tail : Text}

/-- Whether a header has a body is told from what follows its words. -/
theorem hasBody_model (hgap : IsRun Text.isBlank gap) (hname : IsRun Text.isWord name) :
    hasBody ("model".toList ++ (gap ++ (name ++ tail))) = hasBody tail := by
  have hword : '\x7b' ∉ name := Text.not_mem_words hname.2 (by decide)
  rw [hasBody_append (by decide), hasBody_append hgap.brace_not_mem, hasBody_append hword]

theorem hasBody_definition {inner : Text} (hgap : IsRun Text.isBlank gap)
    (hname : IsRun Text.isWord name) (hinner : IsRun Text.isBlank inner) (shape : Shape) :
    hasBody ("def".toList ++ (gap ++ (name ++ (inner ++ (shape.name ++ tail))))) =
      hasBody tail := by
  have hword : '\x7b' ∉ name := Text.not_mem_words hname.2 (by decide)
  have hshape : '\x7b' ∉ shape.name := by cases shape <;> decide
  rw [hasBody_append (by decide), hasBody_append hgap.brace_not_mem, hasBody_append hword,
    hasBody_append hinner.brace_not_mem, hasBody_append hshape]

end Header

namespace Heading

open Text (Respaced SameOpening)

variable {h : Heading} {line' : SourceLine}

/-- A header with other blanks has the same name and the same shape, as long as it starts as a
header. -/
theorem IsDefinition.respaced (hdef : h.IsDefinition) (hpair : h.line.Paired Respaced line')
    (hopening : SameOpening h.line.text line'.text) : IsDefinition ⟨line', h.name, h.shape⟩ := by
  have htext := hpair.2
  have hstart' := hopening.definition.mp hdef.start
  generalize ht : h.line.text = t at htext
  generalize ht' : line'.text = t' at htext
  cases htext with
  | same =>
    rw [← hpair.eq (ht.trans ht'.symm)]
    exact hdef
  | @definition gap gap' inner inner' name tail shape _ hgap hgap' hname hinner hinner' hshape
      htail =>
    have hread : IsDefinition ⟨h.line, name, shape⟩ :=
      ⟨hdef.start, ⟨gap, inner, tail, ht, hgap, hname, hinner, htail⟩, hshape, hdef.brace⟩
    have hsame := hdef.ext hread rfl
    have hnameEq : h.name = name := congrArg Heading.name hsame
    have hshapeEq : h.shape = shape := congrArg Heading.shape hsame
    rw [hnameEq, hshapeEq]
    refine ⟨hstart', ⟨gap', inner', tail, ht', hgap', hname, hinner', htail⟩, hshape, ?_⟩
    rw [← Header.hasBody_eq_false, ht', Header.hasBody_definition hgap' hname hinner',
      ← Header.hasBody_definition hgap hname hinner shape, ← ht]
    exact Header.hasBody_eq_false.mpr hdef.brace
  | model hspace =>
    have hmodel := LineKind.of_eq_model.mpr (ht ▸ Text.starts_model hspace)
    cases (LineKind.of_eq_definition.mpr hdef.start).symm.trans hmodel
  | field _ _ _ _ _ _ _ hfield => exact absurd (ht ▸ hdef.start) hfield.notDefinition

theorem IsModel.respaced (hmodel : h.IsModel) (hpair : h.line.Paired Respaced line')
    (hopening : SameOpening h.line.text line'.text) : IsModel ⟨line', h.name, h.shape⟩ := by
  have htext := hpair.2
  have hstart' := hopening.model.mp hmodel.start
  generalize ht : h.line.text = t at htext
  generalize ht' : line'.text = t' at htext
  cases htext with
  | same =>
    rw [← hpair.eq (ht.trans ht'.symm)]
    exact hmodel
  | definition hspace =>
    have hdef := LineKind.of_eq_definition.mpr (ht ▸ Text.starts_definition hspace)
    cases (LineKind.of_eq_model.mpr hmodel.start).symm.trans hdef
  | @model gap gap' name tail _ hgap hgap' hname htail =>
    have hread : IsModel ⟨h.line, name, .model⟩ :=
      ⟨hmodel.start, ⟨gap, tail, ht, hgap, hname, htail⟩, rfl, hmodel.brace⟩
    have hnameEq : h.name = name := congrArg Heading.name (hmodel.ext hread rfl)
    rw [hnameEq]
    refine ⟨hstart', ⟨gap', tail, ht', hgap', hname, htail⟩, hmodel.shape, ?_⟩
    rw [← Header.hasBody_eq_false, ht', Header.hasBody_model hgap' hname,
      ← Header.hasBody_model hgap hname, ← ht]
    exact Header.hasBody_eq_false.mpr hmodel.brace
  | field _ _ _ _ _ _ _ hfield => exact absurd (ht ▸ hmodel.start) hfield.notModel

end Heading

namespace Tag

/-- The tags of a text stand further to the right behind a longer beginning. -/
theorem scan_of_offset {offset : Int} {t : Text} {tags : List Tag} (h : scan offset t = .ok tags)
    (offset' : Int) : scan offset' t = .ok (tags.map (shift (offset' - offset))) := by
  have hinit : Scanner.init offset' = (Scanner.init offset).behind (offset' - offset) [] := by
    simp only [Scanner.init, Scanner.behind, ScanMode.shift, List.map_nil, List.append_nil,
      Scanner.mk.injEq, and_true]
    omega
  change (t.foldl Scanner.step (Scanner.init offset)).finish = .ok tags at h
  change (t.foldl Scanner.step (Scanner.init offset')).finish = _
  rw [hinit, Scanner.foldl_behind, Scanner.finish_behind, h]
  rfl

end Tag

theorem FieldType.resolve_shift {field rawType : Text} {found tags : List Tag}
    {schema : Fields Value} (h : resolve field rawType found = .ok (schema, tags)) (n : Int) :
    resolve field rawType (found.map (Tag.shift n)) = .ok (schema, tags.map (Tag.shift n)) := by
  have hdrop (i : Item) : dropItemTag i (found.map (Tag.shift n)) =
      (dropItemTag i found).map (Tag.shift n) := by
    cases i with
    | primitive name => rfl
    | reference name =>
      rw [dropItemTag, dropItemTag, List.eraseP_map]
      rfl
  unfold resolve at h ⊢
  split at h
  · rename_i harray
    rw [if_pos harray]
    unfold resolveArray at h ⊢
    split at h
    · rename_i i hitem
      cases h
      rw [hdrop]
    · cases h
  · rename_i hplain
    rw [if_neg hplain]
    cases h
    rfl

namespace Effect

theorem needArgument_shift {tag : Tag} {a : Text} (h : needArgument tag = .ok a) (n : Int) :
    needArgument (tag.shift n) = .ok a := by
  rw [needArgument_eq_ok] at h ⊢
  exact h

/-- The effect of a tag does not depend on where it stands. -/
theorem ofTag_shift {o : Options} {d : Declaration} {tag : Tag} {e : Effect}
    (h : ofTag o d tag = .ok e) (n : Int) : ofTag o d (tag.shift n) = .ok e := by
  have hkind : (tag.shift n).kind? = tag.kind? := rfl
  -- Four kinds of tags need an argument, and a report that it is missing shows the column.
  have hneed {g : Text → Except Failure Effect} (hg : needArgument tag >>= g = .ok e) :
      needArgument (tag.shift n) >>= g = .ok e := by
    obtain ⟨a, ha, hrest⟩ := Attempt.bind_eq_ok.mp hg
    exact Attempt.bind_eq_ok.mpr ⟨a, needArgument_shift ha n, hrest⟩
  unfold ofTag at h ⊢
  rw [hkind]
  cases hk : tag.kind? with
  | none =>
    rw [hk] at h
    exact h
  | some k =>
    rw [hk] at h
    cases k with
    | ui => exact hneed h
    | limit l => exact hneed h
    | format => exact hneed h
    | pattern =>
      obtain ⟨a, ha, he⟩ := Attempt.map_eq_ok.mp h
      exact Attempt.map_eq_ok.mpr ⟨a, needArgument_shift ha n, he⟩
    | _ => exact h

theorem ofTags_shift {o : Options} {d : Declaration} {tags : List Tag}
    (h : ∀ tag ∈ tags, ∃ e, ofTag o d tag = .ok e) (n : Int) :
    ofTags o d (tags.map (Tag.shift n)) = ofTags o d tags := by
  rw [ofTags, ofTags, List.filterMap_map]
  apply List.filterMap_congr
  intro tag htag
  obtain ⟨e, he⟩ := h tag htag
  simp only [Function.comp_apply, he, ofTag_shift he n]

end Effect

/-- The name of a field and its type are read without the blanks around them. -/
theorem Declaration.read?_of_blanks {name before after : Text} (hcolon : ':' ∉ name)
    (hend : ∀ c ∈ name.getLast?, Text.isBlank c = false) (hname : name ≠ [])
    (hbefore : ∀ c ∈ before, Text.isBlank c = true) (hafter : ∀ c ∈ after, Text.isBlank c = true)
    (rest : Text) : ∃ offset, read? (name ++ (before ++ ':' :: (after ++ rest))) =
      some (⟨Text.strip name, Text.strip rest⟩, offset) := by
  have hcut : Text.cut? ':' (name ++ (before ++ ':' :: (after ++ rest))) =
      some (name ++ before, after ++ rest) := by
    refine Text.cut?_eq_some.mpr ⟨by rw [List.append_assoc], ?_⟩
    rw [List.mem_append, not_or]
    refine ⟨hcolon, fun hmem => ?_⟩
    cases hbefore ':' hmem
  have hblank : Text.isBlankText (name ++ before) = false := by
    obtain ⟨c, hc⟩ := Option.isSome_iff_exists.mp (List.getLast?_isSome.mpr hname)
    have hlast := hend c hc
    rw [Text.isBlankText, List.all_eq_false]
    exact ⟨c, List.mem_append_left _ (List.mem_of_getLast? hc), by simp [hlast]⟩
  have hfield : Text.strip (name ++ before) = Text.strip name := Text.trim_append_right hbefore name
  have htype : Text.strip (after ++ rest) = Text.strip rest := Text.trim_append_left hafter rest
  simp only [read?, hcut, hblank, hfield, htype]
  exact ⟨_, rfl⟩

namespace Block

variable {env : Setting} {line line' : SourceLine} {b b' : Block}

/-- A field that is read alike is taken alike, wherever its tags stand. -/
theorem addStatement_of_read? {d : Declaration} {offset offset' : Nat}
    (hfield : isTag line.text = false) (hfield' : isTag line'.text = false)
    (hread : Declaration.read? line.text = some (d, offset))
    (hread' : Declaration.read? line'.text = some (d, offset'))
    (hok : (b.addStatement env line).failure = none) :
    (b'.addStatement env line').failure = none ∧
      line'.contribution env = line.contribution env := by
  obtain ⟨c, events, htakes, -, -⟩ := takes_of_ok hok
  cases htakes with
  | tag htag => cases hfield.symm.trans htag
  | skipped htag => cases hfield.symm.trans htag
  | @field d schema tags ignored _ hprepare heffects _ =>
    obtain ⟨offset, found, hread₀, hscan, hresolve⟩ := prepare_eq_ok.mp hprepare
    cases hread.symm.trans hread₀
    let n : Int := offset' - offset
    have hprepare' : prepare env line' = .ok (d, schema, tags.map (Tag.shift n)) :=
      prepare_eq_ok.mpr ⟨offset', _, hread', Tag.scan_of_offset hscan offset',
        FieldType.resolve_shift hresolve n⟩
    have heffects' : ∀ tag ∈ tags.map (Tag.shift n),
        ∃ e, Effect.ofTag env.options d tag = .ok e := by
      intro tag htag
      obtain ⟨old, hold, rfl⟩ := List.mem_map.mp htag
      obtain ⟨e, he⟩ := heffects old hold
      exact ⟨e, Effect.ofTag_shift he n⟩
    refine ⟨addStatement_of_prepare hfield' hprepare' heffects', ?_⟩
    simp only [SourceLine.contribution, hfield, hfield', hprepare, hprepare', Contribution.ofField,
      Effect.ofTags_shift heffects n, Bool.false_eq_true, if_false]

theorem isTag_eq_false {t : Text} (h : ¬['@'] <+: t) : isTag t = false := by
  rw [isTag, beq_eq_false_iff_ne]
  intro hhead
  obtain ⟨rest, rfl⟩ := List.head?_eq_some_iff.mp hhead
  exact h ⟨rest, rfl⟩

/-- Other blanks around the colon of a field do not change what its block takes. -/
theorem addStatement_respaced (h : line.Paired Text.Respaced line') (hline : line.IsStatement)
    (hok : (b.addStatement env line).failure = none) (b' : Block) :
    (b'.addStatement env line').failure = none ∧
      line'.contribution env = line.contribution env := by
  have htext := h.2
  generalize ht : line.text = t at htext
  generalize ht' : line'.text = t' at htext
  cases htext with
  | same =>
    rw [← h.eq (ht.trans ht'.symm), addStatement_failure env line b' b]
    exact ⟨hok, rfl⟩
  | definition hspace => exact absurd (ht ▸ Text.starts_definition hspace) hline.notDefinition
  | model hspace => exact absurd (ht ▸ Text.starts_model hspace) hline.notModel
  | @field name before before' after after' rest hname hcolon hend hbefore hbefore' hafter hafter'
      hfield =>
    obtain ⟨offset, hread⟩ := Declaration.read?_of_blanks hcolon hend hname hbefore hafter rest
    obtain ⟨offset', hread'⟩ := Declaration.read?_of_blanks hcolon hend hname hbefore' hafter' rest
    rw [← ht] at hread hfield
    rw [← ht'] at hread'
    have htag' : isTag line'.text = false := by
      rw [ht']
      exact isTag_eq_false (Text.not_starts_respaced hbefore hbefore' (by decide) (by decide)
        (ht ▸ hfield.notTag))
    exact addStatement_of_read? (isTag_eq_false hfield.notTag) htag' hread hread' hok

end Block

end ModelSchema
