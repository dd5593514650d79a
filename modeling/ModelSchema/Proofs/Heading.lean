import ModelSchema.Proofs.Text
import ModelSchema.Source.Header

namespace ModelSchema

namespace SourceLine

theorem ofRaw?_eq_some {n : Nat} {raw : Text} {line : SourceLine} (h : ofRaw? n raw = some line) :
    line.number = n ∧ line.text ≠ [] ∧ Text.strip line.text = line.text := by
  simp only [ofRaw?] at h
  split at h
  · cases h
  · rename_i hkeep
    cases h
    refine ⟨rfl, fun hnil => hkeep ?_, Text.strip_strip raw⟩
    change Text.strip raw = [] at hnil
    simp [hnil]

theorem mem_readFrom {n : Nat} {raws : List Text} {line : SourceLine} (h : line ∈ readFrom n raws) :
    n ≤ line.number ∧ line.text ≠ [] ∧ Text.strip line.text = line.text := by
  induction raws generalizing n with
  | nil => simp [readFrom] at h
  | cons raw raws ih =>
    rw [readFrom, List.mem_append, Option.mem_toList] at h
    rcases h with h | h
    · obtain ⟨hn, ht⟩ := ofRaw?_eq_some h
      exact ⟨by omega, ht⟩
    · obtain ⟨hn, ht⟩ := ih h
      exact ⟨by omega, ht⟩

theorem readFrom_pairwise (n : Nat) (raws : List Text) :
    (readFrom n raws).Pairwise (fun a b => a.number < b.number) := by
  induction raws generalizing n with
  | nil => exact List.Pairwise.nil
  | cons raw raws ih =>
    rw [readFrom, List.pairwise_append]
    refine ⟨?_, ih (n + 1), ?_⟩
    · cases ofRaw? n raw <;> simp
    · intro a ha b hb
      have hn := (ofRaw?_eq_some (Option.mem_toList.mp ha)).1
      have hlow := (mem_readFrom hb).1
      omega

theorem number_pos_of_mem_read {t : Text} {line : SourceLine} (h : line ∈ read t) :
    1 ≤ line.number := (mem_readFrom h).1

theorem text_ne_nil_of_mem_read {t : Text} {line : SourceLine} (h : line ∈ read t) :
    line.text ≠ [] := (mem_readFrom h).2.1

theorem strip_text_of_mem_read {t : Text} {line : SourceLine} (h : line ∈ read t) :
    Text.strip line.text = line.text := (mem_readFrom h).2.2

theorem read_pairwise (t : Text) : (read t).Pairwise (fun a b => a.number < b.number) :=
  readFrom_pairwise 1 _

theorem nodup_numbers (t : Text) : ((read t).map number).Nodup :=
  List.pairwise_map.mpr ((read_pairwise t).imp Nat.ne_of_lt)

/-- The line starts as the header of a model. -/
def isModel (line : SourceLine) : Bool := LineKind.of line.text = .model

/-- The end of a block. -/
def IsClose (line : SourceLine) : Prop := ['\x7d'] <+: line.text

/-- Neither a header nor the end of a block. -/
structure IsStatement (line : SourceLine) : Prop where
  notDefinition : ¬"def ".toList <+: line.text
  notModel : ¬"model ".toList <+: line.text
  notClose : ¬['\x7d'] <+: line.text

end SourceLine

namespace LineKind

theorem of_eq_definition {t : Text} : of t = .definition ↔ "def ".toList <+: t := by
  rw [← Text.startsWith_iff, of]
  split
  · simp_all
  · split
    · simp_all
    · split <;> simp_all

/-- Two starts of one text begin with the same character. -/
private theorem head?_eq_of_starts {a b t : Text} (ha : a <+: t) (hb : b <+: t) (hne : a ≠ [])
    (hne' : b ≠ []) : a.head? = b.head? := by
  obtain ⟨rest, rfl⟩ := ha
  obtain ⟨rest', hb⟩ := hb
  cases a with
  | nil => exact absurd rfl hne
  | cons c a =>
    cases b with
    | nil => exact absurd rfl hne'
    | cons d b => simp_all

theorem of_eq_model {t : Text} : of t = .model ↔ "model ".toList <+: t := by
  constructor
  · intro h
    rw [← Text.startsWith_iff]
    simp only [of] at h
    split at h
    · cases h
    · split at h
      · assumption
      · split at h <;> cases h
  · intro h
    have hdef : ¬"def ".toList <+: t := fun hd =>
      absurd (head?_eq_of_starts hd h (by decide) (by decide)) (by decide)
    rw [← Text.startsWith_iff] at h hdef
    rw [of, if_neg hdef, if_pos h]

theorem of_eq_close {t : Text} : of t = .close ↔ ['\x7d'] <+: t := by
  constructor
  · intro h
    rw [← Text.startsWith_iff]
    simp only [of] at h
    split at h
    · cases h
    · split at h
      · cases h
      · split at h
        · assumption
        · cases h
  · intro h
    have hdef : ¬"def ".toList <+: t := fun hd =>
      absurd (head?_eq_of_starts hd h (by decide) (by decide)) (by decide)
    have hmodel : ¬"model ".toList <+: t := fun hm =>
      absurd (head?_eq_of_starts hm h (by decide) (by decide)) (by decide)
    rw [← Text.startsWith_iff] at h hdef hmodel
    rw [of, if_neg hdef, if_neg hmodel, if_pos h]

theorem of_eq_statement {line : SourceLine} :
    of line.text = .statement ↔ line.IsStatement := by
  constructor
  · intro h
    refine ⟨fun hd => ?_, fun hm => ?_, fun hc => ?_⟩
    · rw [of_eq_definition.mpr hd] at h
      cases h
    · rw [of_eq_model.mpr hm] at h
      cases h
    · rw [of_eq_close.mpr hc] at h
      cases h
  · rintro ⟨hd, hm, hc⟩
    rw [← Text.startsWith_iff] at hd hm hc
    rw [of, if_neg hd, if_neg hm, if_neg hc]

end LineKind

/-- At least one character, and all of them in `p`. -/
def Text.IsRun (p : Char → Bool) (t : Text) : Prop := t ≠ [] ∧ ∀ c ∈ t, p c = true

/-- A text that cannot go on a word before it. -/
def Text.EndsWord (t : Text) : Prop := ∀ c ∈ t.head?, Text.isWord c = false

/-- Nothing but blanks stands after the first opening brace, where there is one. -/
def Text.BlankAfterBrace (t : Text) : Prop :=
  ∀ before after, t = before ++ '\x7b' :: after → '\x7b' ∉ before →
    ∀ c ∈ after, Text.isBlank c = true

/-- The first line of a block, with the name and the shape of the block. -/
structure Heading where
  line : SourceLine
  name : Text
  shape : Shape

namespace Header

open Text (IsRun EndsWord BlankAfterBrace)

theorem nextWord?_eq_some {t word rest : Text} : nextWord? t = some (word, rest) ↔
    ∃ gap, t = gap ++ (word ++ rest) ∧ IsRun Text.isBlank gap ∧ IsRun Text.isWord word ∧
      EndsWord rest := by
  constructor
  · intro h
    simp only [nextWord?] at h
    split at h
    · cases h
    · rename_i hfull
      simp only [Bool.or_eq_true, List.isEmpty_iff, not_or] at hfull
      simp only [Option.some.injEq, Prod.mk.injEq] at h
      obtain ⟨rfl, rfl⟩ := h
      refine ⟨t.takeWhile Text.isBlank, ?_, ⟨hfull.1, Text.takeWhile_all t⟩,
        ⟨hfull.2, Text.takeWhile_all _⟩, Text.head?_dropWhile _⟩
      rw [List.takeWhile_append_dropWhile, List.takeWhile_append_dropWhile]
  · rintro ⟨gap, rfl, hgap, hword, hrest⟩
    have hfirst : ∀ c ∈ (word ++ rest).head?, Text.isBlank c = false := by
      intro c hc
      cases word with
      | nil => exact absurd rfl hword.1
      | cons d word =>
        have hd : d = c := by simpa using hc
        exact Text.isBlank_eq_false_of_isWord (hd ▸ hword.2 d (by simp))
    have hsplit := Text.span_append hgap.2 hfirst
    have hspan := Text.span_append hword.2 hrest
    simp [nextWord?, hsplit.1, hsplit.2, hspan.1, hspan.2, hgap.1, hword.1]

theorem shape?_eq_some {word : Text} {shape : Shape} :
    shape? word = some shape ↔ word = shape.name ∧ shape ≠ .model := by
  constructor
  · intro h
    unfold shape? at h
    split at h
    · cases h
      exact ⟨by assumption, by decide⟩
    · split at h
      · cases h
        exact ⟨by assumption, by decide⟩
      · cases h
  · rintro ⟨rfl, hshape⟩
    cases shape with
    | model => exact absurd rfl hshape
    | object => decide
    | array => decide

theorem definition?_eq_some {t name : Text} {shape : Shape} :
    definition? t = some (name, shape) ↔
      ∃ rest after, t = "def".toList ++ rest ∧
        (∃ word, nextWord? rest = some (name, after) ∧
          (∃ tail, nextWord? after = some (word, tail)) ∧ shape? word = some shape) := by
  simp only [definition?, Option.bind_eq_bind, Option.bind_eq_some_iff, Text.after?_eq_some,
    Option.pure_def, Option.some.injEq, Prod.exists, Prod.mk.injEq]
  constructor
  · rintro ⟨rest, hrest, n, after, hname, word, tail, hword, s, hs, rfl, rfl⟩
    exact ⟨rest, after, hrest, word, hname, ⟨tail, hword⟩, hs⟩
  · rintro ⟨rest, after, hrest, word, hname, ⟨tail, hword⟩, hs⟩
    exact ⟨rest, hrest, name, after, hname, word, tail, hword, shape, hs, rfl, rfl⟩

theorem hasBody_eq_false {t : Text} : hasBody t = false ↔ BlankAfterBrace t := by
  unfold hasBody
  cases hcut : Text.cut? '\x7b' t with
  | none =>
    have hno := Text.cut?_eq_none.mp hcut
    simp only [Option.any_none, true_iff]
    intro before after ht
    exact absurd (by simp [ht]) hno
  | some p =>
    obtain ⟨before, after⟩ := p
    obtain ⟨ht, hbefore⟩ := Text.cut?_eq_some.mp hcut
    simp only [Option.any_some, Bool.not_eq_eq_eq_not, Bool.not_false, Text.isBlankText,
      List.all_eq_true]
    constructor
    · intro hblank b a hba hb
      have hsame := hcut.symm.trans (Text.cut?_eq_some.mpr ⟨hba, hb⟩)
      simp only [Option.some.injEq, Prod.mk.injEq] at hsame
      rw [← hsame.2]
      exact hblank
    · intro hbrace
      exact hbrace before after ht hbefore

end Header

namespace Heading

open Text (IsRun EndsWord BlankAfterBrace)

/-- `def Name object` or `def Name array`, and no body on the line. -/
structure IsDefinition (h : Heading) : Prop where
  start : "def ".toList <+: h.line.text
  form : ∃ gap gap' tail,
    h.line.text = "def".toList ++ (gap ++ (h.name ++ (gap' ++ (h.shape.name ++ tail)))) ∧
      IsRun Text.isBlank gap ∧ IsRun Text.isWord h.name ∧ IsRun Text.isBlank gap' ∧ EndsWord tail
  shape : h.shape ≠ .model
  brace : BlankAfterBrace h.line.text

/-- `model Name`, and no body on the line. -/
structure IsModel (h : Heading) : Prop where
  start : "model ".toList <+: h.line.text
  form : ∃ gap tail, h.line.text = "model".toList ++ (gap ++ (h.name ++ tail)) ∧
    IsRun Text.isBlank gap ∧ IsRun Text.isWord h.name ∧ EndsWord tail
  shape : h.shape = .model
  brace : BlankAfterBrace h.line.text

private theorem isRun_shapeName (s : Shape) : IsRun Text.isWord s.name := by
  have hne : s.name ≠ [] := by cases s <;> decide
  have hall : s.name.all Text.isWord = true := by cases s <;> decide
  exact ⟨hne, List.all_eq_true.mp hall⟩

private theorem endsWord_gap {gap rest : Text} (h : IsRun Text.isBlank gap) :
    EndsWord (gap ++ rest) := by
  intro c hc
  cases gap with
  | nil => exact absurd rfl h.1
  | cons d gap =>
    have hd : d = c := by simpa using hc
    exact Text.isWord_eq_false_of_isBlank (hd ▸ h.2 d (by simp))

theorem isDefinition_iff {h : Heading} : h.IsDefinition ↔
    LineKind.of h.line.text = .definition ∧
      Header.definition? h.line.text = some (h.name, h.shape) ∧
      Header.hasBody h.line.text = false := by
  rw [LineKind.of_eq_definition, Header.definition?_eq_some, Header.hasBody_eq_false]
  constructor
  · rintro ⟨hstart, ⟨gap, gap', tail, ht, hgap, hname, hgap', htail⟩, hshape, hbrace⟩
    refine ⟨hstart, ⟨_, gap' ++ (h.shape.name ++ tail), ht, h.shape.name, ?_, ⟨tail, ?_⟩, ?_⟩,
      hbrace⟩
    · exact Header.nextWord?_eq_some.mpr ⟨gap, rfl, hgap, hname, endsWord_gap hgap'⟩
    · exact Header.nextWord?_eq_some.mpr ⟨gap', rfl, hgap', isRun_shapeName h.shape, htail⟩
    · exact Header.shape?_eq_some.mpr ⟨rfl, hshape⟩
  · rintro ⟨hstart, ⟨rest, after, ht, word, hname, ⟨tail, hword⟩, hs⟩, hbrace⟩
    obtain ⟨gap, rfl, hgap, hn, -⟩ := Header.nextWord?_eq_some.mp hname
    obtain ⟨gap', rfl, hgap', -, htail⟩ := Header.nextWord?_eq_some.mp hword
    obtain ⟨rfl, hshape⟩ := Header.shape?_eq_some.mp hs
    exact ⟨hstart, ⟨gap, gap', tail, ht, hgap, hn, hgap', htail⟩, hshape, hbrace⟩

theorem isModel_iff {h : Heading} : h.IsModel ↔
    LineKind.of h.line.text = .model ∧ Header.model? h.line.text = some h.name ∧
      h.shape = .model ∧ Header.hasBody h.line.text = false := by
  rw [LineKind.of_eq_model, Header.hasBody_eq_false]
  simp only [Header.model?, Option.bind_eq_bind, Option.bind_eq_some_iff, Text.after?_eq_some,
    Option.pure_def, Option.some.injEq, Prod.exists]
  constructor
  · rintro ⟨hstart, ⟨gap, tail, ht, hgap, hname, htail⟩, hshape, hbrace⟩
    refine ⟨hstart, ⟨_, ht, h.name, tail, ?_, rfl⟩, hshape, hbrace⟩
    exact Header.nextWord?_eq_some.mpr ⟨gap, rfl, hgap, hname, htail⟩
  · rintro ⟨hstart, ⟨rest, ht, name, tail, hname, rfl⟩, hshape, hbrace⟩
    obtain ⟨gap, rfl, hgap, hn, htail⟩ := Header.nextWord?_eq_some.mp hname
    exact ⟨hstart, ⟨gap, tail, ht, hgap, hn, htail⟩, hshape, hbrace⟩

/-- A line is the header of one block only. -/
theorem IsDefinition.ext {h k : Heading} (hh : h.IsDefinition) (hk : k.IsDefinition)
    (hline : h.line = k.line) : h = k := by
  have hread := (isDefinition_iff.mp hh).2.1
  have kread := (isDefinition_iff.mp hk).2.1
  rw [hline, kread] at hread
  cases h
  cases k
  simp_all

theorem IsModel.ext {h k : Heading} (hh : h.IsModel) (hk : k.IsModel) (hline : h.line = k.line) :
    h = k := by
  have hread := (isModel_iff.mp hh).2.1
  have kread := (isModel_iff.mp hk).2.1
  have hshape := hh.shape.trans hk.shape.symm
  rw [hline, kread] at hread
  cases h
  cases k
  simp_all

end Heading

end ModelSchema
