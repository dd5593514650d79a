import ModelSchema.Proofs.Reference
import ModelSchema.Proofs.Rule
import ModelSchema.Proofs.Splitting

namespace ModelSchema

/-- `inner` stands between the first `head` in the text and the next `)`. -/
def Text.FirstCall (head t inner : Text) : Prop :=
  ∃ before after, t = before ++ (head ++ (inner ++ ')' :: after)) ∧ ')' ∉ inner ∧
    ∀ front back, t = front ++ (head ++ back) → before.length ≤ front.length

theorem Text.FirstCall.unique {head t inner inner' : Text} (h : FirstCall head t inner)
    (h' : FirstCall head t inner') : inner = inner' := by
  obtain ⟨before, after, ht, hinner, hleast⟩ := h
  obtain ⟨before', after', ht', hinner', hleast'⟩ := h'
  have hlength : before.length = before'.length :=
    Nat.le_antisymm (hleast _ _ ht') (hleast' _ _ ht)
  obtain ⟨-, hrest⟩ := List.append_inj (ht.symm.trans ht') hlength
  have hclose := List.append_cancel_left hrest
  have hcut : cut? ')' (inner ++ ')' :: after) = some (inner, after) :=
    cut?_eq_some.mpr ⟨rfl, hinner⟩
  rw [hclose, cut?_eq_some.mpr ⟨rfl, hinner'⟩] at hcut
  exact (Prod.mk.inj (Option.some.inj hcut)).1.symm

theorem Text.after?_append_close {head : Text} (hhead : ')' ∉ head) (a t : Text) :
    after? head (a ++ ')' :: t) = (after? head a).map (· ++ ')' :: t) := by
  induction head generalizing a with
  | nil => rfl
  | cons h head ih =>
    obtain ⟨hne, hrest⟩ := not_or.mp (mt List.mem_cons.mpr hhead)
    cases a with
    | nil => simp [after?, Ne.symm hne]
    | cons c a =>
      simp only [List.cons_append, after?, ih hrest]
      split <;> rfl

namespace Effect

theorem upToClose?_append {a : Text} (hline : '\n' ∉ a) (t : Text) :
    upToClose? (a ++ ')' :: t) = some (a.takeWhile (· != ')')) := by
  induction a with
  | nil => rfl
  | cons c a ih =>
    obtain ⟨hne, hrest⟩ := not_or.mp (mt List.mem_cons.mpr hline)
    rw [List.cons_append, upToClose?, ih hrest, List.takeWhile_cons]
    by_cases hc : c = ')'
    · simp [hc]
    · simp [hc, Ne.symm hne]

variable {head : Text}

/-- What is found before a `)` does not depend on what follows it. -/
theorem searchCall?_append_close (hne : head ≠ []) (hhead : ')' ∉ head) {a : Text}
    (hline : '\n' ∉ a) (t : Text) :
    searchCall? head (a ++ ')' :: t) =
      (searchCall? head (a ++ [')'])).or (searchCall? head t) := by
  induction a with
  | nil =>
    have hnone (t : Text) : Text.after? head (')' :: t) = none := by
      have happend := Text.after?_append_close hhead [] t
      obtain ⟨c, rest, rfl⟩ := List.exists_cons_of_ne_nil hne
      simpa [Text.after?] using happend
    simp [searchCall?, hnone]
  | cons c a ih =>
    obtain ⟨-, hrest⟩ := not_or.mp (mt List.mem_cons.mpr hline)
    -- Whether a call begins here is decided before the `)`, and so is its end.
    have hfirst (t : Text) : (Text.after? head (c :: (a ++ ')' :: t))).bind upToClose? =
        (Text.after? head (c :: a)).map (List.takeWhile (· != ')')) := by
      rw [← List.cons_append, Text.after?_append_close hhead]
      cases hafter : Text.after? head (c :: a) with
      | none => rfl
      | some rest =>
        have hsuffix : rest <:+ c :: a := ⟨head, (Text.after?_eq_some.mp hafter).symm⟩
        exact upToClose?_append (fun h => hline (hsuffix.subset h)) t
    rw [List.cons_append, List.cons_append, searchCall?, searchCall?, hfirst, hfirst, ih hrest]
    cases Text.after? head (c :: a) with
    | none => rfl
    | some rest => rfl

/-- What is found in one line is the first call. -/
theorem searchCall?_first (hhead : ')' ∉ head) {t inner : Text} (hline : '\n' ∉ t)
    (h : searchCall? head t = some inner) : Text.FirstCall head t inner := by
  induction t with
  | nil => cases h
  | cons c t ih =>
    simp only [searchCall?] at h
    split at h
    · rename_i found hfound
      cases h
      obtain ⟨rest, hrest, hclose⟩ := Option.bind_eq_some_iff.mp hfound
      obtain ⟨after, rfl, hnot⟩ := upToClose?_eq_some hclose
      have hstart := Text.after?_eq_some.mp hrest
      exact ⟨[], after, hstart, hnot, fun _ _ _ => Nat.zero_le _⟩
    · rename_i hnone
      obtain ⟨hc, hrest⟩ := not_or.mp (mt List.mem_cons.mpr hline)
      obtain ⟨before, after, ht, hnot, hleast⟩ := ih hrest h
      refine ⟨c :: before, after, by rw [ht]; rfl, hnot, ?_⟩
      intro front back hsplit
      cases front with
      | cons c' front =>
        injection hsplit with _ hsplit
        exact Nat.succ_le_succ (hleast front back hsplit)
      | nil =>
        -- A call at the start has a `)` after it, and would have been found.
        have hmem : ')' ∈ head ++ back := by
          rw [← List.nil_append (head ++ back), ← hsplit, ht]
          simp
        obtain ⟨a, t', rfl⟩ := List.append_of_mem ((List.mem_append.mp hmem).resolve_left hhead)
        have ha : '\n' ∉ a := by
          intro h'
          apply hline
          rw [hsplit]
          simp [h']
        rw [hsplit, List.nil_append, Text.after?_eq_some.mpr rfl] at hnone
        cases (upToClose?_append ha t').symm.trans hnone

theorem searchCall?_skip {a : Text} (ha : '@' ∉ a) (hs t : Text) :
    searchCall? ('@' :: hs) (a ++ t) = searchCall? ('@' :: hs) t := by
  induction a with
  | nil => rfl
  | cons c a ih =>
    obtain ⟨hne, hrest⟩ := not_or.mp (mt List.mem_cons.mpr ha)
    simp [searchCall?, Text.after?, hne, ih hrest]

end Effect

/-- What a text looks like where a tag of this name begins its argument. -/
def Tag.callHead (name : Text) : Text := '@' :: (name ++ ['('])

namespace Tag

open Effect

variable {name : Text}

theorem close_not_mem_callHead (hname : ∀ c ∈ name, Text.isWord c = true) :
    ')' ∉ callHead name := by
  have hword : ')' ∉ name := Text.not_mem_words hname (by decide)
  simp [callHead, hword]

/-- A tag without an argument is not the start of a call. -/
theorem after?_callHead_bare (hname : ∀ c ∈ name, Text.isWord c = true) {word t : Text}
    (hword : ∀ c ∈ word, Text.isWord c = true)
    (hend : ∀ c, t.head? = some c → Text.isWord c = false ∧ c ≠ '(') :
    Text.after? (callHead name) ('@' :: (word ++ t)) = none := by
  rw [Option.eq_none_iff_forall_not_mem]
  intro rest hrest
  have heq : word ++ t = name ++ '(' :: rest := by
    have hsplit := Text.after?_eq_some.mp hrest
    simpa [callHead] using hsplit
  have hopen : Text.isWord '(' = false := by decide
  have hname' := (Text.span_append (b := '(' :: rest) hname (by simp [hopen])).2
  have hword' := (Text.span_append (b := t) hword (fun c hc => (hend c hc).1)).2
  rw [← heq, hword'] at hname'
  subst hname'
  exact (hend '(' rfl).2 rfl

/-- The search in a row of tags finds what it finds in the first of them where it finds anything. -/
theorem Reading.searchCall?_eq (hname : ∀ c ∈ name, Text.isWord c = true) {column : Int} {t : Text}
    {tags : List Tag} (h : Reading column t tags) (hline : '\n' ∉ t) :
    searchCall? (callHead name) t =
      tags.findSome? fun tag => searchCall? (callHead name) tag.raw := by
  have hat {word : Text} (hword : ∀ c ∈ word, Text.isWord c = true) : '@' ∉ word :=
    Text.not_mem_words hword (by decide)
  induction h with
  | nil => rfl
  | @gap column c t tags hc hrest ih =>
    obtain ⟨-, hline⟩ := not_or.mp (mt List.mem_cons.mpr hline)
    have hskip : '@' ∉ [c] := by simpa using Ne.symm hc
    rw [← ih hline]
    exact searchCall?_skip hskip _ t
  | @bare column word t tags hword hend hrest ih =>
    have hline : '\n' ∉ t := fun h => hline (by simp [h])
    have hraw : searchCall? (callHead name) ('@' :: word) = none := by
      have hbare := after?_callHead_bare hname (t := []) hword (by simp)
      have hnone := searchCall?_skip (hat hword) (name ++ ['(']) []
      rw [List.append_nil] at hbare hnone
      rw [searchCall?, hbare, Option.bind_none]
      exact hnone
    have hall : searchCall? (callHead name) ('@' :: (word ++ t)) =
        searchCall? (callHead name) t := by
      rw [searchCall?, after?_callHead_bare hname hword hend, Option.bind_none]
      exact searchCall?_skip (hat hword) _ t
    rw [hall, ih hline, List.findSome?_cons]
    simp only [raw, List.append_nil, hraw]
  | @call column word argument t tags hword hargument hrest ih =>
    have hargument : '\n' ∉ '@' :: (word ++ '(' :: argument) := by
      intro h
      apply hline
      have hsub : '@' :: (word ++ '(' :: (argument ++ ')' :: t)) =
          ('@' :: (word ++ '(' :: argument)) ++ ')' :: t := by simp
      rw [hsub]
      exact List.mem_append_left _ h
    have hline : '\n' ∉ t := fun h => hline (by simp [h])
    have hne : callHead name ≠ [] := List.cons_ne_nil _ _
    have hclose := searchCall?_append_close hne (close_not_mem_callHead hname) hargument t
    have hraw : raw ⟨word, some argument, column⟩ = '@' :: (word ++ '(' :: argument) ++ [')'] := by
      simp [raw]
    rw [List.findSome?_cons, hraw, ← ih hline]
    rw [show '@' :: (word ++ '(' :: (argument ++ ')' :: t)) =
      '@' :: (word ++ '(' :: argument) ++ ')' :: t by simp, hclose]
    cases searchCall? (callHead name) ('@' :: (word ++ '(' :: argument) ++ [')']) <;> rfl

theorem Reading.raw_infix {column : Int} {t : Text} {tags : List Tag} (h : Reading column t tags) :
    ∀ tag ∈ tags, tag.raw <:+: t := by
  induction h with
  | nil => simp
  | gap hc hrest ih => exact fun tag htag => (ih tag htag).trans (List.suffix_cons _ _).isInfix
  | @bare column word t tags hword hend hrest ih =>
    refine List.forall_mem_cons.mpr ⟨⟨[], t, by simp [raw]⟩, ?_⟩
    intro tag htag
    exact (ih tag htag).trans ⟨'@' :: word, [], by simp⟩
  | @call column word argument t tags hword hargument hrest ih =>
    refine List.forall_mem_cons.mpr ⟨⟨[], t, by simp [raw]⟩, ?_⟩
    intro tag htag
    exact (ih tag htag).trans ⟨'@' :: (word ++ '(' :: (argument ++ [')'])), [], by simp⟩

/-- A tag takes its own argument, unless a tag before it mentions its name with a parenthesis. -/
theorem Reading.searchCall?_own {column : Int} {t argument : Text} {before after : List Tag}
    {tag : Tag} (h : Reading column t (before ++ tag :: after)) (hline : '\n' ∉ t)
    (hname : ∀ c ∈ tag.name, Text.isWord c = true) (hargument : tag.argument = some argument)
    (hbefore : ∀ other ∈ before, ¬callHead tag.name <:+: other.raw) :
    searchCall? (callHead tag.name) t = some (argument.takeWhile (· != ')')) := by
  have hraw : tag.raw = callHead tag.name ++ (argument ++ [')']) := by
    simp [raw, hargument, callHead]
  have hnone :
      before.findSome? (fun other => searchCall? (callHead tag.name) other.raw) = none := by
    rw [List.findSome?_eq_none_iff]
    intro other hother
    rw [Option.eq_none_iff_forall_not_mem]
    intro inner hinner
    obtain ⟨front, back, heq, -⟩ := searchCall?_eq_some hinner
    exact hbefore other hother ⟨front, inner ++ ')' :: back, by rw [heq, List.append_assoc]⟩
  have hargumentLine : '\n' ∉ argument := by
    intro hmem
    apply hline
    have hinfix := h.raw_infix tag (by simp)
    rw [hraw] at hinfix
    exact hinfix.subset (by simp [hmem])
  have hfound : searchCall? (callHead tag.name) tag.raw = some (argument.takeWhile (· != ')')) := by
    rw [hraw]
    have hafter : Text.after? (callHead tag.name) (callHead tag.name ++ (argument ++ [')'])) =
        some (argument ++ [')']) := Text.after?_eq_some.mpr rfl
    have hclose := upToClose?_append hargumentLine []
    unfold callHead at hafter ⊢
    rw [List.cons_append] at hafter ⊢
    rw [searchCall?, hafter, Option.bind_some, hclose]
  rw [h.searchCall?_eq hname hline, List.findSome?_append, hnone, List.findSome?_cons, hfound]
  rfl

theorem name_of_kind? {tag : Tag} {k : Kind} {n : String}
    (hnames : ∀ p ∈ Kind.names, p.2 = k → p.1 = n) (h : tag.kind? = some k) :
    tag.name = n.toList := by
  have hn : Text.str tag.name = n := hnames _ (Kind.mem_names h) rfl
  rw [← hn, Text.str, String.toList_ofList]

/-- What a tag among `found` takes: the first call of its name in the type. That is its own
argument, up to the first `)` in it, if no tag before mentions such a call. -/
structure Takes (rawType : Text) (found : List Tag) (tag : Tag) (inner : Text) : Prop where
  first : Text.FirstCall (callHead tag.name) rawType inner
  own : ∀ before after argument, found = before ++ tag :: after → tag.argument = some argument →
    (∀ other ∈ before, ¬callHead tag.name <:+: other.raw) →
      inner = argument.takeWhile (· != ')')

theorem takes_of_searchCall? {offset : Nat} {rawType inner : Text} {found : List Tag} {tag : Tag}
    (hscan : scan offset rawType = .ok found) (hline : '\n' ∉ rawType)
    (hname : ∀ c ∈ tag.name, Text.isWord c = true)
    (h : searchCall? (callHead tag.name) rawType = some inner) : tag.Takes rawType found inner where
  first := searchCall?_first (close_not_mem_callHead hname) hline h
  own := by
    intro before after argument hfound hargument hbefore
    subst hfound
    have hown := (scan_eq_ok.mp hscan).searchCall?_own hline hname hargument hbefore
    exact Option.some.inj (h.symm.trans hown)

end Tag

theorem Text.not_mem_of_mem_splitOn {sep : Char} {t piece : Text} (h : piece ∈ splitOn sep t) :
    sep ∉ piece := by
  induction t generalizing piece with
  | nil => simp_all [splitOn]
  | cons c t ih =>
    simp only [splitOn] at h
    split at h
    · rcases List.mem_cons.mp h with rfl | h
      · simp
      · exact ih h
    · rename_i hc
      have hne : sep ≠ c := fun h => hc (by simp [h])
      cases hsplit : splitOn sep t with
      | nil => exact absurd hsplit (splitOn_ne_nil sep t)
      | cons p ps =>
        rw [hsplit] at h ih
        rcases List.mem_cons.mp h with rfl | h
        · simp [hne, ih List.mem_cons_self]
        · exact ih (List.mem_cons_of_mem p h)

namespace SourceLine

theorem exists_raw_of_mem_readFrom {n : Nat} {raws : List Text} {line : SourceLine}
    (h : line ∈ readFrom n raws) : ∃ raw ∈ raws, line.text = Text.strip raw := by
  induction raws generalizing n with
  | nil => cases h
  | cons raw raws ih =>
    rw [readFrom, List.mem_append, Option.mem_toList] at h
    rcases h with h | h
    · simp only [ofRaw?] at h
      split at h
      · cases h
      · cases h
        exact ⟨raw, List.mem_cons_self, rfl⟩
    · obtain ⟨raw', hmem, htext⟩ := ih h
      exact ⟨raw', List.mem_cons_of_mem raw hmem, htext⟩

theorem newline_not_mem_of_mem_read {t : Text} {line : SourceLine} (h : line ∈ read t) :
    '\n' ∉ line.text := by
  obtain ⟨raw, hraw, htext⟩ := exists_raw_of_mem_readFrom h
  obtain ⟨before, after, hsplit, -⟩ := Text.trim_eq Text.isBlank raw
  intro hmem
  apply Text.not_mem_of_mem_splitOn hraw
  rw [htext] at hmem
  rw [hsplit]
  simp only [List.mem_append]
  exact .inl (.inr hmem)

end SourceLine

namespace Effect

variable {o : Options} {d : Declaration} {tag : Tag} {e : Effect}

theorem ofTag_enum (hkind : tag.kind? = some .enum) (h : ofTag o d tag = .ok e) :
    ∃ inner, searchCall? "@enum(".toList d.rawType = some inner ∧
      e = .keyword "enum"
        (.array ((Text.splitOn ',' inner).map fun m => .ofText (Text.strip m))) := by
  simp only [ofTag, hkind, ofEnum] at h
  split at h
  · cases h
  · rename_i inner hinner
    cases h
    exact ⟨inner, hinner, rfl⟩

/-- The keyword of tags that look for the first call of their name. -/
theorem get?_of_call {k : Kind} {w key : String} {value : Text → Value} {schema : Fields Value}
    {found tags : List Tag} {offset : Nat} (hwriter : (k, key) ∈ Kind.writers)
    (hnames : ∀ p ∈ Kind.names, p.2 = k → p.1 = w)
    (hword : w.toList.all Text.isWord = true)
    (hcall : ∀ {tag e}, tag.kind? = some k → ofTag o d tag = .ok e →
      ∃ inner, searchCall? (Tag.callHead w.toList) d.rawType = some inner ∧
        e = .keyword key (value inner))
    (hscan : Tag.scan offset d.rawType = .ok found) (hline : '\n' ∉ d.rawType)
    (hschema : schema.get? key = none) (heffects : ∀ tag ∈ tags, ∃ e, ofTag o d tag = .ok e)
    (htag : tag ∈ tags) (hkind : tag.kind? = some k) :
    ∃ inner, tag.Takes d.rawType found inner ∧
      ((ofTags o d tags).foldl onSchema schema).get? key = some (value inner) := by
  obtain ⟨e, he⟩ := heffects tag htag
  obtain ⟨inner, hinner, rfl⟩ := hcall hkind he
  have hname : tag.name = w.toList := Tag.name_of_kind? hnames hkind
  refine ⟨inner, Tag.takes_of_searchCall? hscan hline ?_ (by rw [hname]; exact hinner), ?_⟩
  · rw [hname]
    exact List.all_eq_true.mp hword
  · apply get?_of_writers hwriter hschema htag he
    intro other hother hkind'
    obtain ⟨e', he'⟩ := heffects other hother
    obtain ⟨inner', hinner', rfl⟩ := hcall hkind' he'
    obtain rfl := Option.some.inj (hinner.symm.trans hinner')
    rw [he, he']

end Effect

namespace Block

variable {env : Setting} {line : SourceLine} {b : Block}

/-- The choices of a field are those of the first `@enum(` in its type, and it refers to the name
after the first `@ref(`, if the field has a tag of that name; without such a tag it does not
refer. -/
theorem addStatement_takes_first_call {text : Text} (hline : line ∈ SourceLine.read text)
    (hfield : isTag line.text = false) (hok : (b.addStatement env line).failure = none) :
    ∃ d offset found schema tags, ∃ fragment : Fields Value,
      Declaration.read? line.text = some (d, offset) ∧
      Tag.Reading (offset + 1) d.rawType found ∧
      FieldType.resolve d.field d.rawType found = .ok (schema, tags) ∧
      (b.addStatement env line).state.properties.get? (Text.str d.field) =
        some (.object fragment) ∧
      (∀ tag ∈ tags, tag.kind? = some .enum → ∃ inner, tag.Takes d.rawType found inner ∧
        fragment.get? "enum" =
          some (.array ((Text.splitOn ',' inner).map fun m => .ofText (Text.strip m)))) ∧
      (∀ tag ∈ tags, tag.kind? = some .ref → ∃ inner, tag.Takes d.rawType found inner ∧
        fragment.get? "$ref" =
          some (.text ("#/$defs/" ++ Text.str (Text.lower (Text.strip inner))))) ∧
      ((∀ tag ∈ tags, tag.kind? ≠ some .ref) → fragment.get? "$ref" = none) := by
  obtain ⟨d, offset, found, schema, tags, hread, hscan, hresolve, heffects, hproperty⟩ :=
    get?_addStatement hfield hok
  have hraw : '\n' ∉ d.rawType := by
    intro hmem
    obtain ⟨before, after, htext⟩ := Declaration.read?_text hread
    apply SourceLine.newline_not_mem_of_mem_read hline
    rw [htext]
    simp [hmem]
  have hnone {key : String} (h : key ∉ Kind.common) : schema.get? key = none :=
    FieldType.get?_resolve h hresolve
  refine ⟨d, offset, found, schema, tags, _, hread, Tag.scan_eq_ok.mp hscan, hresolve, hproperty,
    ?_, ?_, ?_⟩
  · intro tag htag hkind
    exact Effect.get?_of_call (w := "enum") (by decide) (by decide) (by decide) Effect.ofTag_enum
      hscan hraw (hnone (by decide)) heffects htag hkind
  · intro tag htag hkind
    exact Effect.get?_of_call (w := "ref") (by decide) (by decide) (by decide) Effect.ofTag_ref
      hscan hraw (hnone (by decide)) heffects htag hkind
  · intro hno
    rw [Option.eq_none_iff_forall_not_mem]
    intro v hv
    obtain ⟨tag, htag, hkind, -⟩ :=
      Effect.writer_of_get? (k := .ref) (by decide) (hnone (by decide)) hv
    exact hno tag htag hkind

/-- The model of one field, before its line. -/
def openModel : Block where
  header := ⟨1, "model M object \x7b".toList⟩
  name := "M".toList
  shape := .object

/-- An array of one definition, with choices and a second reference. -/
def twiceReferring : SourceLine := ⟨2, "f: array(@ref(Item)) @enum(a , b) @ref(Other)".toList⟩

theorem addStatement_takes_first_call_twice :
    twiceReferring ∈ SourceLine.read ("model M object \x7b\n".toList ++ twiceReferring.text) ∧
      isTag twiceReferring.text = false ∧
      (openModel.addStatement {} twiceReferring).failure = none ∧
      ∃ fragment : Fields Value,
        (openModel.addStatement {} twiceReferring).state.properties.get? "f" =
          some (.object fragment) ∧
        fragment.get? "enum" = some (.array [.text "a", .text "b"]) ∧
        fragment.get? "$ref" = some (.text "#/$defs/item") := by
  have hline : twiceReferring ∈
      SourceLine.read ("model M object \x7b\n".toList ++ twiceReferring.text) := by
    decide +kernel
  have hfield : isTag twiceReferring.text = false := by decide
  have hok : (openModel.addStatement {} twiceReferring).failure = none := by decide +kernel
  refine ⟨hline, hfield, hok, ?_⟩
  obtain ⟨d, offset, found, schema, tags, fragment, hread, hreading, hresolve, hproperty, henum,
    href, -⟩ := addStatement_takes_first_call hline hfield hok
  have hread' : Declaration.read? twiceReferring.text =
      some (⟨"f".toList, "array(@ref(Item)) @enum(a , b) @ref(Other)".toList⟩, 3) := by
    decide +kernel
  cases hread.symm.trans hread'
  let item : Tag := ⟨"ref".toList, some "Item".toList, 10⟩
  let choices : Tag := ⟨"enum".toList, some "a , b".toList, 22⟩
  let other : Tag := ⟨"ref".toList, some "Other".toList, 35⟩
  have hfound : Tag.scan 3 "array(@ref(Item)) @enum(a , b) @ref(Other)".toList =
      .ok [item, choices, other] := by
    decide +kernel
  cases (Tag.scan_eq_ok.mpr hreading).symm.trans hfound
  have htags : (FieldType.resolve "f".toList "array(@ref(Item)) @enum(a , b) @ref(Other)".toList
      [item, choices, other]).toOption.map Prod.snd = some [choices, other] := by
    decide +kernel
  rw [hresolve] at htags
  cases htags
  refine ⟨fragment, hproperty, ?_, ?_⟩
  · obtain ⟨inner, htakes, hchoices⟩ := henum choices (by decide) (by decide)
    rw [hchoices, htakes.own [item] [other] _ rfl rfl (by decide)]
    rfl
  · obtain ⟨inner, htakes, hpointer⟩ := href other (by decide) (by decide)
    have hitem : Effect.searchCall? "@ref(".toList
        "array(@ref(Item)) @enum(a , b) @ref(Other)".toList = some "Item".toList := by
      decide +kernel
    have hfirst := Effect.searchCall?_first (by decide) (by decide) hitem
    rw [hpointer, htakes.first.unique hfirst]
    rfl

/-- Parentheses inside a list of choices. -/
def nestedChoices : SourceLine := ⟨2, "f: string @enum(a(b),c)".toList⟩

theorem addStatement_cuts_nested_choices :
    nestedChoices ∈ SourceLine.read ("model M object \x7b\n".toList ++ nestedChoices.text) ∧
      (openModel.addStatement {} nestedChoices).failure = none ∧
      Tag.scan 3 "string @enum(a(b),c)".toList =
        .ok [⟨"enum".toList, some "a(b),c".toList, 11⟩] ∧
      ∃ fragment : Fields Value,
        (openModel.addStatement {} nestedChoices).state.properties.get? "f" =
          some (.object fragment) ∧
        fragment.get? "enum" = some (.array [.text "a(b"]) ∧
        fragment.get? "enum" ≠ some (.array
          ((Text.splitOn ',' "a(b),c".toList).map fun m => .ofText (Text.strip m))) := by
  have hown : (Text.splitOn ',' "a(b),c".toList).map (fun m => Value.ofText (Text.strip m)) =
      [.text "a(b)", .text "c"] := rfl
  refine ⟨by decide +kernel, by decide +kernel, by decide +kernel,
    [("type", .text "string"), ("enum", .array [.text "a(b"])], rfl, rfl, ?_⟩
  rw [hown]
  simp [Fields.get?]

end Block

end ModelSchema
