import ModelSchema.Proofs.Caret
import ModelSchema.Proofs.Default
import ModelSchema.Proofs.Mention

namespace ModelSchema

/-- The text between double quotes. -/
def Text.doubleQuoted (s : Text) : Text := doubleQuote :: (s ++ [doubleQuote])

namespace Text

theorem ofText_inj {s t : Text} (h : Value.ofText s = Value.ofText t) : s = t := by
  injection h with h
  have hlist := congrArg String.toList h
  rwa [str, str, String.toList_ofList, String.toList_ofList] at hlist

theorem strip_doubleQuoted (s : Text) : strip (doubleQuoted s) = doubleQuoted s := by
  have hquote : isBlank doubleQuote = false := by decide
  apply trim_of_ends
  · simp [doubleQuoted, hquote]
  · intro c hc
    rw [doubleQuoted, ← List.cons_append, List.getLast?_concat] at hc
    cases hc
    exact hquote

theorem count_strip {c : Char} (hc : isBlank c = false) (t : Text) :
    (strip t).count c = t.count c := by
  obtain ⟨before, after, ht, hbefore, hafter⟩ := trim_eq isBlank t
  have hnone {b : Text} (hb : ∀ d ∈ b, isBlank d = true) : b.count c = 0 := by
    apply List.count_eq_zero.mpr
    intro hmem
    rw [hb c hmem] at hc
    cases hc
  have hbefore : before.count c = 0 := hnone (hbefore ▸ takeWhile_all t)
  have hcount := congrArg (List.count c) ht
  simp only [List.count_append, hbefore, hnone hafter] at hcount
  change (trim isBlank t).count c = _
  omega

theorem length_strip_le (t : Text) : (strip t).length ≤ t.length := by
  obtain ⟨before, after, ht, -⟩ := trim_eq isBlank t
  have hlength := congrArg List.length ht
  simp only [List.length_append] at hlength
  change (trim isBlank t).length ≤ _
  omega

end Text

namespace Literal

theorem between?_eq_some {quote : Char} {t inner : Text} :
    between? quote t = some inner ↔ t = quote :: (inner ++ [quote]) := by
  cases t with
  | nil => simp [between?]
  | cons c t =>
    simp only [between?]
    cases hsplit : Text.splitLast? t with
    | none =>
      have hnot : t ≠ inner ++ [quote] := by
        intro ht
        cases hsplit.symm.trans (Text.splitLast?_eq_some.mpr ht)
      simp [hnot]
    | some p =>
      obtain rfl := Text.splitLast?_eq_some.mp hsplit
      by_cases hc : c = quote
      · by_cases hlast : p.2 = quote
        · simp [hc, hlast]
        · simp [hc, hlast]
      · simp [hc]

theorem coerce_doubleQuoted (hint : Option Text) (s : Text) :
    coerce hint (Text.doubleQuoted s) = .ok (.ofText s) := by
  have hbetween : between? Text.doubleQuote (Text.doubleQuoted s) = some s :=
    between?_eq_some.mpr rfl
  simp only [coerce, Text.strip_doubleQuoted, hbetween]

/-- A literal becomes a text if it is that text, or that text in quotes. -/
theorem coerce_eq_text {hint : Option Text} {raw s : Text}
    (h : coerce hint raw = .ok (.ofText s)) :
    Text.strip raw = Text.doubleQuoted s ∨ Text.strip raw = s := by
  simp only [coerce] at h
  split at h
  · rename_i inner hinner
    have hs := Text.ofText_inj (Except.ok.inj h)
    rw [between?_eq_some.mp hinner, hs]
    exact .inl rfl
  · split at h
    · cases h
    · split at h
      · cases hparse : Number.parse (Text.strip raw) with
        | error f => simp [hparse, Except.map] at h
        | ok n => simp [hparse, Except.map, Value.ofText] at h
      · exact .inr (Text.ofText_inj (Except.ok.inj h))

theorem length_le_of_coerce {hint : Option Text} {raw s : Text}
    (h : coerce hint raw = .ok (.ofText s)) : s.length ≤ raw.length := by
  have hstrip := Text.length_strip_le raw
  rcases coerce_eq_text h with hquoted | hsame
  · rw [hquoted] at hstrip
    simp only [Text.doubleQuoted, List.length_cons, List.length_append] at hstrip
    omega
  · rwa [hsame] at hstrip

/-- A quote without its partner stays in the text. -/
theorem coerce_ne_of_quote {hint : Option Text} {raw s : Text}
    (hraw : raw.count Text.doubleQuote = 1) (hs : Text.doubleQuote ∉ s) :
    coerce hint raw ≠ .ok (.ofText s) := by
  intro h
  have hcount := Text.count_strip (c := Text.doubleQuote) (by decide) raw
  have hnone : s.count Text.doubleQuote = 0 := List.count_eq_zero.mpr hs
  rcases coerce_eq_text h with hquoted | hsame
  · rw [hquoted, hraw] at hcount
    simp [Text.doubleQuoted, hnone] at hcount
  · rw [hsame, hraw, hnone] at hcount
    cases hcount

end Literal

namespace Text

theorem balanced_doubleQuoted {s : Text} (hs : Balanced s) : Balanced (doubleQuoted s) := by
  have hquote : Balanced [doubleQuote] := by decide
  exact balanced_append hquote (balanced_append hs hquote)

theorem unclosed_doubleQuoted {s : Text} (hs : Unclosed s) : Unclosed (doubleQuoted s) := by
  have hquote : Unclosed [doubleQuote] := by decide
  exact unclosed_append hquote (unclosed_append hs hquote)

/-- One more `)` does not close what the text has left open. -/
theorem unclosed_doubleQuoted_close {s : Text} (hs : Unclosed s) (hnot : ¬Balanced s) :
    Unclosed (doubleQuoted s ++ [')']) := by
  intro p hp
  rcases List.prefix_concat_iff.mp hp with rfl | hp
  · have hle := hs s (List.prefix_refl s)
    have hne : s.count ')' ≠ s.count '(' := fun h => hnot ⟨hs, h⟩
    have hclose : (doubleQuoted s ++ [')']).count ')' = s.count ')' + 1 := by
      simp [doubleQuoted, show doubleQuote ≠ ')' by decide]
    have hopen : (doubleQuoted s ++ [')']).count '(' = s.count '(' := by
      simp [doubleQuoted, show doubleQuote ≠ '(' by decide]
    omega
  · exact unclosed_doubleQuoted hs p hp

/-- A text that closes one parenthesis too many does so before its end. -/
theorem closes_inside {s argument after : Text} (hs : ¬Unclosed s) (hargument : Balanced argument)
    (h : doubleQuoted s ++ [')'] = argument ++ ')' :: after) :
    ∃ front back, argument = doubleQuote :: front ∧ s = front ++ ')' :: back ∧
      after = back ++ [doubleQuote, ')'] := by
  have hsplit : (doubleQuote :: s) ++ [doubleQuote, ')'] = argument ++ ')' :: after := by
    rw [← h]
    simp [doubleQuoted]
  rcases List.append_eq_append_iff.mp hsplit with ⟨rest, hargument', -⟩ | ⟨rest, hquoted, hafter⟩
  · -- The argument would hold all of `s`.
    exfalso
    apply hs
    intro p hp
    have hprefix : doubleQuote :: p <+: argument := by
      rw [hargument']
      exact List.IsPrefix.trans (by simpa using hp) (List.prefix_append _ rest)
    have hle := hargument.1 _ hprefix
    simpa [show doubleQuote ≠ ')' by decide, show doubleQuote ≠ '(' by decide] using hle
  · cases rest with
    | nil =>
      injection hafter with hc
      exact absurd hc (by decide)
    | cons c rest =>
      injection hafter with hc hafter
      subst hc
      cases argument with
      | nil =>
        injection hquoted with hc
        exact absurd hc (by decide)
      | cons c front =>
        injection hquoted with hc hs
        exact ⟨front, rest, by rw [hc], hs, hafter⟩

end Text

/-- A type, and one tag with a text in quotes. -/
def Literal.quotedType (key : String) (type s : Text) : Text :=
  type ++ ' ' :: '@' :: (key.toList ++ '(' :: (Text.doubleQuoted s ++ [')']))

/-- The declaration of a field with such a type. -/
def Literal.quotedField (key : String) (type s : Text) : Text :=
  "f: ".toList ++ Literal.quotedType key type s

example : Literal.quotedField "default" "string".toList "a (b)".toList =
    "f: string @default(\"a (b)\")".toList := by decide

namespace Tag

variable {column : Int} {t : Text} {tags : List Tag}

theorem Reading.of_gaps {g : Text} (hg : '@' ∉ g) (h : Reading column (g ++ t) tags) :
    Reading (column + g.length) t tags := by
  induction g generalizing column with
  | nil => simpa using h
  | cons c g ih =>
    obtain ⟨hc, hg⟩ : '@' ≠ c ∧ '@' ∉ g := by simpa using hg
    have hnext : column + (c :: g).length = column + 1 + g.length := by
      rw [List.length_cons]
      omega
    rw [hnext]
    generalize htext : (c :: g) ++ t = u at h
    cases h with
    | nil => cases htext
    | gap _ hrest =>
      injection htext with _ htext
      subst htext
      exact ih hg hrest
    | bare | call =>
      injection htext with hat
      exact absurd hat.symm hc

/-- Where a name is followed by a parenthesis, the tag has an argument. -/
theorem Reading.of_call {name rest : Text} (hname : ∀ c ∈ name, Text.isWord c = true)
    (h : Reading column ('@' :: (name ++ '(' :: rest)) tags) :
    ∃ argument after tags', rest = argument ++ ')' :: after ∧ Text.Balanced argument ∧
      tags = ⟨name, some argument, column⟩ :: tags' ∧
      Reading (column + name.length + argument.length + 3) after tags' := by
  have hopen : Text.isWord '(' = false := by decide
  have hspan := Text.span_append (b := '(' :: rest) hname (by simp [hopen])
  generalize htext : '@' :: (name ++ '(' :: rest) = u at h
  cases h with
  | nil => cases htext
  | gap hc =>
    injection htext with hat
    exact absurd hat.symm hc
  | @bare _ word t tags hword hend =>
    injection htext with _ htext
    have hspan' := Text.span_append (b := t) hword (fun c hc => (hend c hc).1)
    rw [← htext, hspan.2] at hspan'
    exact absurd rfl (hend '(' (by rw [← hspan'.2]; rfl)).2
  | @call _ word argument t tags hword hargument hrest =>
    injection htext with _ htext
    have hspan' := Text.span_append (b := '(' :: (argument ++ ')' :: t)) hword (by simp [hopen])
    rw [← htext, hspan.1, hspan.2] at hspan'
    obtain ⟨rfl, hrest'⟩ := hspan'
    injection hrest' with _ hrest'
    exact ⟨argument, t, _, hrest', hargument, rfl, hrest⟩

end Tag

namespace Literal

variable {key : String} {type s : Text}

theorem at_not_mem_gap (htype : ∀ c ∈ type, Text.isWord c = true) : '@' ∉ type ++ [' '] := by
  have hword : '@' ∉ type := Text.not_mem_words htype (by decide)
  simp [hword]

theorem quotedType_eq (key : String) (type s : Text) : quotedType key type s =
    (type ++ [' ']) ++ '@' :: (key.toList ++ '(' :: (Text.doubleQuoted s ++ [')'])) := by
  simp [quotedType]

/-- The tag of a quoted text whose parentheses match. -/
theorem scan_of_balanced (htype : ∀ c ∈ type, Text.isWord c = true)
    (hkey : ∀ c ∈ key.toList, Text.isWord c = true) (hs : Text.Balanced s) (offset : Int) :
    ∃ column, Tag.scan offset (quotedType key type s) =
      .ok [⟨key.toList, some (Text.doubleQuoted s), column⟩] := by
  have hcall := @Tag.Reading.call (offset + 1 + (type ++ [' ']).length) key.toList _ [] [] hkey
    (Text.balanced_doubleQuoted hs) .nil
  have hreading := Tag.Reading.gaps (at_not_mem_gap htype) hcall
  rw [← quotedType_eq] at hreading
  exact ⟨_, Tag.scan_eq_ok.mpr hreading⟩

/-- A quoted text that leaves a parenthesis open leaves its tag open. -/
theorem leavesOpen_of_unclosed (htype : ∀ c ∈ type, Text.isWord c = true)
    (hkey : ∀ c ∈ key.toList, Text.isWord c = true) (hs : Text.Unclosed s)
    (hnot : ¬Text.Balanced s) (offset : Int) :
    Row.LeavesOpen offset (quotedType key type s) ⟨type ++ [' '], []⟩ key.toList where
  row := Row.reads_nil.mpr ⟨by simp [Row.text, Row.restText], at_not_mem_gap htype⟩
  word := hkey
  argument := by
    refine ⟨Text.doubleQuoted s ++ [')'], ?_, Text.unclosed_doubleQuoted_close hs hnot⟩
    simp [quotedType, Row.text, Row.restText]

/-- Where a quoted text closes a parenthesis too many, no tag of the line has it as a literal. -/
theorem coerce_ne_of_closes (htype : ∀ c ∈ type, Text.isWord c = true)
    (hkey : ∀ c ∈ key.toList, Text.isWord c = true) (hs : ¬Text.Unclosed s)
    (hquote : Text.doubleQuote ∉ s) {offset : Int} {tags : List Tag}
    (hscan : Tag.scan offset (quotedType key type s) = .ok tags) {tag : Tag} (htag : tag ∈ tags)
    {argument : Text} (hargument : tag.argument = some argument) (hint : Option Text) :
    coerce hint argument ≠ .ok (.ofText s) := by
  have hreading := Tag.scan_eq_ok.mp hscan
  rw [quotedType_eq] at hreading
  obtain ⟨first, after, rest, hsplit, hbalanced, rfl, hrest⟩ :=
    (hreading.of_gaps (at_not_mem_gap htype)).of_call hkey
  obtain ⟨front, back, rfl, rfl, rfl⟩ := Text.closes_inside hs hbalanced hsplit
  rcases List.mem_cons.mp htag with rfl | htag
  · -- The first argument has the quote that begins the text, and not the other one.
    cases hargument
    have hfront : front.count Text.doubleQuote = 0 := by
      apply List.count_eq_zero.mpr
      intro hmem
      exact hquote (by simp [hmem])
    exact coerce_ne_of_quote (by simp [hfront]) hquote
  · -- The argument of a later tag is too short.
    intro h
    have hshort := length_le_of_coerce h
    have hraw := (hrest.raw_infix tag htag).length_le
    simp only [Tag.raw, hargument, List.length_append, List.length_cons, List.length_nil] at hraw
    simp only [List.length_append, List.length_cons] at hshort
    omega

theorem read?_quotedField (htype : Text.IsRun Text.isWord type) (key : String) (s : Text) :
    Declaration.read? (quotedField key type s) = some (⟨['f'], quotedType key type s⟩, 3) := by
  obtain ⟨c, rest, rfl⟩ := List.exists_cons_of_ne_nil htype.1
  have hc : Text.isBlank c = false := Text.isBlank_eq_false_of_isWord (htype.2 c (by simp))
  have hcut : Text.cut? ':' (quotedField key (c :: rest) s) =
      some (['f'], ' ' :: quotedType key (c :: rest) s) :=
    Text.cut?_eq_some.mpr ⟨rfl, by decide⟩
  have hstrip : Text.strip (' ' :: quotedType key (c :: rest) s) =
      quotedType key (c :: rest) s := by
    have hblank : ∀ d ∈ [' '], Text.isBlank d = true := List.all_eq_true.mp (by decide)
    have hend : quotedType key (c :: rest) s =
        (c :: rest ++ ' ' :: '@' :: (key.toList ++ '(' :: Text.doubleQuoted s)) ++ [')'] := by
      simp [quotedType]
    change Text.trim Text.isBlank ([' '] ++ quotedType key (c :: rest) s) = _
    rw [Text.trim_append_left hblank, hend]
    apply Text.trim_of_ends
    · intro d hd
      cases hd
      exact hc
    · intro d hd
      rw [List.getLast?_concat] at hd
      cases hd
      decide
  have hname : Text.strip ['f'] = ['f'] := by decide
  have hspace : Text.isBlank ' ' = true := by decide
  have hblank : Text.isBlankText ['f'] = false := by decide
  have hgap : (' ' :: quotedType key (c :: rest) s).takeWhile Text.isBlank = [' '] := by
    simp [quotedType, hspace, hc]
  rw [Declaration.read?, hcut]
  simp only [hblank, Bool.false_eq_true, if_false, hname, hstrip, hgap, List.length_singleton]

/-- A word before a blank is not the start of an array type. -/
theorem isArray_quotedType (htype : ∀ c ∈ type, Text.isWord c = true) (key : String) (s : Text) :
    FieldType.isArray (quotedType key type s) = false := by
  by_contra hnot
  have harray : FieldType.isArray (quotedType key type s) = true := by simpa using hnot
  obtain ⟨rest, hrest⟩ := Text.startsWith_iff.mp harray
  have hword : ∀ c ∈ "array".toList, Text.isWord c = true := List.all_eq_true.mp (by decide)
  have hopen : Text.isWord '(' = false := by decide
  have hspace : Text.isWord ' ' = false := by decide
  have hspan := (Text.span_append (b := '(' :: rest) hword (by simp [hopen])).2
  have hspan' := (Text.span_append (b := ' ' :: '@' :: (key.toList ++ '(' ::
    (Text.doubleQuoted s ++ [')']))) htype (by simp [hspace])).2
  have hsame : "array".toList ++ '(' :: rest = quotedType key type s := hrest
  rw [hsame] at hspan
  cases hspan.symm.trans hspan'

end Literal

/-- The kinds of tags that take a literal, each with its keyword. -/
def Kind.literals : List (Kind × String) := [(.default, "default"), (.const, "const")]

theorem Kind.literals_spec : ∀ p ∈ literals, p ∈ writers ∧ ofName? p.2.toList = some p.1 ∧
    p.2.toList.all Text.isWord = true := by decide

theorem Effect.ofTag_literal {o : Options} {d : Declaration} {tag : Tag} {k : Kind} {key : String}
    (hliteral : (k, key) ∈ Kind.literals) (hkind : tag.kind? = some k) :
    ∃ hint, ∀ v, ofTag o d tag = .ok (.keyword key v) ↔
      ∃ raw, tag.argument = some raw ∧ Literal.coerce hint raw = .ok v := by
  simp only [Kind.literals, List.mem_cons, Prod.mk.injEq, List.not_mem_nil, or_false] at hliteral
  rcases hliteral with ⟨rfl, rfl⟩ | ⟨rfl, rfl⟩
  · refine ⟨defaultHint o d, fun v => ?_⟩
    simp only [ofTag, hkind, ofDefault]
    cases tag.argument with
    | none => simp
    | some raw => simp [literalKeyword_eq_ok]
  · refine ⟨none, fun v => ?_⟩
    simp only [ofTag, hkind, ofConst]
    cases tag.argument with
    | none => simp
    | some raw => simp [literalKeyword_eq_ok]

namespace Block

variable {env : Setting} {b : Block} {n : Nat} {k : Kind} {key : String} {type s : Text}

theorem addStatement_of_prepare {line : SourceLine} {d : Declaration} {schema : Fields Value}
    {tags : List Tag} (hfield : isTag line.text = false)
    (hprepare : prepare env line = .ok (d, schema, tags))
    (heffects : ∀ tag ∈ tags, ∃ e, Effect.ofTag env.options d tag = .ok e) :
    (b.addStatement env line).failure = none := by
  have happly : (FieldState.applyTags env.options d tags ⟨schema, b.gathered⟩).failure = none := by
    rw [Option.eq_none_iff_forall_not_mem]
    intro f hf
    obtain ⟨before, tag, after, rfl, -, herror⟩ := FieldState.applyTags_eq_some.mp hf
    obtain ⟨e, he⟩ := heffects tag (by simp)
    cases herror.symm.trans he
  simp only [addStatement, hfield, Bool.false_eq_true, if_false, addField, hprepare]
  cases ho : FieldState.applyTags env.options d tags ⟨schema, b.gathered⟩ with
  | mk s events failure =>
    rw [ho] at happly
    cases happly
    rfl

theorem prepare_quotedField (htype : Text.IsRun Text.isWord type) {tags : List Tag}
    (hscan : Tag.scan (3 : Nat) (Literal.quotedType key type s) = .ok tags) :
    ∃ schema, prepare env ⟨n, Literal.quotedField key type s⟩ =
      .ok (⟨['f'], Literal.quotedType key type s⟩, schema, tags) := by
  have hplain := Literal.isArray_quotedType htype.2 key s
  exact ⟨_, prepare_eq_ok.mpr ⟨3, tags, Literal.read?_quotedField htype key s, hscan,
    FieldType.resolve_eq_ok.mpr (.inr ⟨hplain, rfl, rfl⟩)⟩⟩

/-- The value of the keyword is written by a tag that the scan of the type finds. -/
theorem get?_quotedField (hcommon : key ∉ Kind.common) (htype : Text.IsRun Text.isWord type)
    (hok : (b.addStatement env ⟨n, Literal.quotedField key type s⟩).failure = none) :
    ∃ tags, ∃ schema : Fields Value,
      Tag.scan (3 : Nat) (Literal.quotedType key type s) = .ok tags ∧ schema.get? key = none ∧
      (b.addStatement env ⟨n, Literal.quotedField key type s⟩).state.properties.get? "f" =
        some (.object ((Effect.ofTags env.options ⟨['f'], Literal.quotedType key type s⟩
          tags).foldl Effect.onSchema schema)) := by
  obtain ⟨d, offset, found, schema, tags, hread, hscan, hresolve, -, hproperty⟩ :=
    get?_addStatement rfl hok
  have hnone := FieldType.get?_resolve hcommon hresolve
  cases hread.symm.trans (Literal.read?_quotedField htype key s)
  rcases FieldType.resolve_eq_ok.mp hresolve with ⟨harray, -⟩ | ⟨-, -, rfl⟩
  · rw [Literal.isArray_quotedType htype.2] at harray
    cases harray
  · exact ⟨found, schema, hscan, hnone, hproperty⟩

theorem addStatement_of_balanced (hliteral : (k, key) ∈ Kind.literals)
    (htype : Text.IsRun Text.isWord type) (hs : Text.Balanced s) :
    (b.addStatement env ⟨n, Literal.quotedField key type s⟩).failure = none ∧
      ∃ fragment : Fields Value,
        (b.addStatement env ⟨n, Literal.quotedField key type s⟩).state.properties.get? "f" =
          some (.object fragment) ∧
        fragment.get? key = some (.ofText s) := by
  obtain ⟨hwriter, hname, hword⟩ := Kind.literals_spec _ hliteral
  obtain ⟨column, hscan⟩ :=
    Literal.scan_of_balanced htype.2 (List.all_eq_true.mp hword) hs (3 : Nat)
  have hof : Effect.ofTag env.options ⟨['f'], Literal.quotedType key type s⟩
      ⟨key.toList, some (Text.doubleQuoted s), column⟩ = .ok (.keyword key (.ofText s)) := by
    have hkind : Tag.kind? ⟨key.toList, some (Text.doubleQuoted s), column⟩ = some k := hname
    obtain ⟨hint, hiff⟩ := Effect.ofTag_literal hliteral hkind
    exact (hiff _).mpr ⟨_, rfl, Literal.coerce_doubleQuoted hint s⟩
  obtain ⟨schema, hprepare⟩ := prepare_quotedField htype hscan
  have hok : (b.addStatement env ⟨n, Literal.quotedField key type s⟩).failure = none := by
    apply addStatement_of_prepare rfl hprepare
    intro tag htag
    obtain rfl := List.mem_singleton.mp htag
    exact ⟨_, hof⟩
  obtain ⟨tags, schema, hscan', hnone, hproperty⟩ :=
    get?_quotedField (Kind.writers_not_common _ hwriter) htype hok
  cases hscan.symm.trans hscan'
  refine ⟨hok, _, hproperty, ?_⟩
  apply Effect.get?_of_writers hwriter hnone (List.mem_singleton_self _) hof
  intro other hother _
  rw [List.mem_singleton.mp hother]

theorem addStatement_of_unclosed (hliteral : (k, key) ∈ Kind.literals)
    (htype : Text.IsRun Text.isWord type) (hs : Text.Unclosed s) (hnot : ¬Text.Balanced s) :
    ∃ r, (b.addStatement env ⟨n, Literal.quotedField key type s⟩).failure =
      some (.reported r) ∧ r.cause = .unterminated key.toList := by
  obtain ⟨-, -, hword⟩ := Kind.literals_spec _ hliteral
  have hopen := Literal.leavesOpen_of_unclosed htype.2 (List.all_eq_true.mp hword) hs hnot (3 : Nat)
  have hprepare : prepare env ⟨n, Literal.quotedField key type s⟩ = .error (.located
      ⟨env.source, n, (3 : Nat) + (Row.text ⟨type ++ [' '], []⟩).length + 1, none⟩
        (.unterminated key.toList)) := by
    unfold prepare
    rw [Literal.read?_quotedField htype key s]
    exact Attempt.bind_eq_error.mpr
      (.inl (Tag.scanAt_eq_error_iff_row.mpr ⟨_, key.toList, hopen, rfl⟩))
  have hfield : isTag (Literal.quotedField key type s) = false := rfl
  simp only [addStatement, hfield, Bool.false_eq_true, if_false, addField, hprepare]
  exact ⟨_, rfl, rfl⟩

theorem addStatement_of_closes (hliteral : (k, key) ∈ Kind.literals)
    (htype : Text.IsRun Text.isWord type) (hs : ¬Text.Unclosed s) (hquote : Text.doubleQuote ∉ s)
    (hok : (b.addStatement env ⟨n, Literal.quotedField key type s⟩).failure = none)
    {fragment : Fields Value}
    (hfragment : (b.addStatement env ⟨n, Literal.quotedField key type s⟩).state.properties.get?
      "f" = some (.object fragment)) : fragment.get? key ≠ some (.ofText s) := by
  obtain ⟨hwriter, -, hword⟩ := Kind.literals_spec _ hliteral
  obtain ⟨tags, schema, hscan, hnone, hproperty⟩ :=
    get?_quotedField (Kind.writers_not_common _ hwriter) htype hok
  cases hfragment.symm.trans hproperty
  intro hvalue
  obtain ⟨tag, htag, hkind, hof⟩ := Effect.writer_of_get? hwriter hnone hvalue
  obtain ⟨hint, hiff⟩ := Effect.ofTag_literal hliteral hkind
  obtain ⟨raw, hraw, hcoerce⟩ := (hiff _).mp hof
  exact Literal.coerce_ne_of_closes htype.2 (List.all_eq_true.mp hword) hs hquote hscan htag hraw
    hint hcoerce

end Block

/-- The value under a keyword of a field of the model. -/
def Value.keywordOf? (field key : String) (v : Value) : Option Value :=
  ((((v.fields?.bind (Fields.get? "properties")).bind fields?).bind (Fields.get? field)).bind
    fields?).bind (Fields.get? key)

/-- A document of one model with one statement does what the statement does. -/
theorem compile_single_statement (env : Setting) {text : Text} {h : Heading}
    {line close : SourceLine} (hread : SourceLine.read text = [h.line, line, close])
    (hmodel : h.IsModel) (hline : line.IsStatement) (hclose : close.IsClose) :
    (compile env text).failure = (h.block.addStatement env line).failure ∧
      ((compile env text).failure = none → ∀ field key,
        (compile env text).state.keywordOf? field key =
          (((h.block.addStatement env line).state.properties.get? field).bind Value.fields?).bind
            (Fields.get? key)) := by
  cases hstatement : (h.block.addStatement env line).failure with
  | some f =>
    have hheader : Machine.Reaches env [h.line] {}
        (Machine.enter h { modelLine := some h.line.number }) :=
      .cons (.model h rfl hmodel rfl rfl) .nil
    have hstep : ((Machine.feed env [h.line] {}).state.step env line).failure = some f := by
      rw [hheader.2, Machine.step_of_statement rfl hline]
      exact hstatement
    have hfailure : (compile env text).failure = some f :=
      Machine.run_failure_eq_some.mpr (.inl ⟨[h.line], line, [close], hread, hheader.1, hstep⟩)
    refine ⟨hfailure, ?_⟩
    intro hnone
    cases hnone.symm.trans hfailure
  | none =>
    let F : Forest := [⟨h, .statement line .nil, close⟩]
    have hlines : F.lines = SourceLine.read text := hread.symm
    have hF : F.WellFormed := by
      intro t ht
      obtain rfl := List.mem_singleton.mp ht
      exact ⟨.inr hmodel, ⟨hline, trivial⟩, hclose⟩
    have hcompiles : F.Compiles env := by
      intro t ht
      obtain rfl := List.mem_singleton.mp ht
      exact ⟨hstatement, trivial⟩
    have hmodels : F.models ≤ 1 := List.countP_le_length
    have hnodup : (F.lines.map SourceLine.number).Nodup := hlines ▸ SourceLine.nodup_numbers text
    obtain ⟨hfailure, hdocument⟩ := Machine.run_forest hF hcompiles hmodels hnodup
    rw [hlines] at hfailure hdocument
    have hschema : (compile env text).state = F.schema env := by
      change (Machine.run env (SourceLine.read text) {}).state.document.toValue = _
      rw [hdocument, Forest.toValue_placeAll hF hmodels]
    refine ⟨hfailure, ?_⟩
    intro _ field key
    have hroot : F.root env =
        ("title", .text (Section.key ⟨h, [line]⟩)) :: Section.object env ⟨h, [line]⟩ := by
      have hdefinition : Section.isDefinition ⟨h, [line]⟩ = false := by
        simp [Section.isDefinition, hmodel.shape]
      simp [Forest.root, Forest.model?, Forest.sections, Tree.sections, Body.own, Body.sections,
        F, hdefinition]
    rw [hschema, Forest.schema, hroot]
    rfl

/-- A quoted text comes back as it was written if and only if its parentheses match. If it only
leaves some of them open, the line is refused. -/
theorem compile_quoted_literal (env : Setting) {text type s : Text} {h : Heading} {n : Nat}
    {close : SourceLine} {key : String}
    (hread : SourceLine.read text = [h.line, ⟨n, Literal.quotedField key type s⟩, close])
    (hmodel : h.IsModel) (hclose : close.IsClose) (hkey : key = "default" ∨ key = "const")
    (htype : Text.IsRun Text.isWord type) (hquote : Text.doubleQuote ∉ s) :
    ((compile env text).failure = none ∧
        (compile env text).state.keywordOf? "f" key = some (.ofText s) ↔ Text.Balanced s) ∧
      (Text.Unclosed s → ¬Text.Balanced s →
        ∃ r, (compile env text).failure = some (.reported r) ∧ r.cause.category = .parse) := by
  obtain ⟨k, hliteral⟩ : ∃ k, (k, key) ∈ Kind.literals := by
    rcases hkey with rfl | rfl
    · exact ⟨.default, by decide⟩
    · exact ⟨.const, by decide⟩
  have hline : SourceLine.IsStatement ⟨n, Literal.quotedField key type s⟩ :=
    LineKind.of_eq_statement.mp rfl
  obtain ⟨hfailure, hvalue⟩ := compile_single_statement env hread hmodel hline hclose
  have hrefused : Text.Unclosed s → ¬Text.Balanced s →
      ∃ r, (compile env text).failure = some (.reported r) ∧ r.cause.category = .parse := by
    intro hs hnot
    obtain ⟨r, hr, hcause⟩ := Block.addStatement_of_unclosed hliteral htype hs hnot
    exact ⟨r, hfailure.trans hr, by rw [hcause]; rfl⟩
  refine ⟨⟨?_, ?_⟩, hrefused⟩
  · intro hresult
    obtain ⟨hok, hs⟩ := hresult
    by_contra hnot
    by_cases hunclosed : Text.Unclosed s
    · obtain ⟨r, hr, -⟩ := hrefused hunclosed hnot
      cases hok.symm.trans hr
    · have hstatement := hfailure.symm.trans hok
      obtain ⟨tags, schema, -, -, hfragment⟩ := Block.get?_quotedField
        (Kind.writers_not_common _ (Kind.literals_spec _ hliteral).1) htype hstatement
      apply Block.addStatement_of_closes hliteral htype hunclosed hquote hstatement hfragment
      rw [hvalue hok, hfragment] at hs
      exact hs
  · intro hs
    obtain ⟨hok, fragment, hfragment, hliteral'⟩ :=
      Block.addStatement_of_balanced (b := h.block) (n := n) hliteral htype hs
    have hcompiles := hfailure.trans hok
    refine ⟨hcompiles, ?_⟩
    rw [hvalue hcompiles, hfragment]
    exact hliteral'

/-- A number field with a text that other parts of the language could take for theirs. -/
def disguisedText : Text :=
  "// note\nmodel M object \x7b\n  f: number @const(\"a: (b, ((c))) // @x \")\n\x7d".toList

theorem compile_quoted_literal_disguised :
    let env : Setting := { options := { coercion := .legacy } }
    let s : Text := "a: (b, ((c))) // @x ".toList
    (Text.Balanced s ∧ Text.doubleQuote ∉ s) ∧ (compile env disguisedText).failure = none ∧
      (compile env disguisedText).state.keywordOf? "f" "const" = some (.ofText s) := by
  intro env s
  let h : Heading := ⟨⟨2, "model M object \x7b".toList⟩, "M".toList, .model⟩
  have hread : SourceLine.read disguisedText =
      [h.line, ⟨3, Literal.quotedField "const" "number".toList s⟩, ⟨4, ['\x7d']⟩] := by
    decide +kernel
  have hmodel : h.IsModel := Heading.isModel_iff.mpr (by decide +kernel)
  have htype : Text.IsRun Text.isWord "number".toList := by decide
  have hs : Text.Balanced s := by decide +kernel
  have hquote : Text.doubleQuote ∉ s := by decide
  obtain ⟨hiff, -⟩ := compile_quoted_literal env hread hmodel (List.prefix_refl _) (.inr rfl)
    htype hquote
  exact ⟨⟨hs, hquote⟩, hiff.mpr hs⟩

/-- A text in quotes with a parenthesis that it does not open. -/
def strayCloseText : Text := "model M object \x7b\nf: string @default(\"a)b\")\n\x7d".toList

theorem compile_cuts_stray_close :
    SourceLine.read strayCloseText = [⟨1, "model M object \x7b".toList⟩,
        ⟨2, Literal.quotedField "default" "string".toList "a)b".toList⟩, ⟨3, ['\x7d']⟩] ∧
      (compile {} strayCloseText).failure = none ∧
      (compile {} strayCloseText).state.keywordOf? "f" "default" =
        some (.ofText (Text.doubleQuote :: "a".toList)) ∧
      (compile {} strayCloseText).state.keywordOf? "f" "default" ≠
        some (.ofText "a)b".toList) := by
  have hvalue : (compile {} strayCloseText).state.keywordOf? "f" "default" =
      some (.ofText (Text.doubleQuote :: "a".toList)) := rfl
  refine ⟨by decide +kernel, by decide +kernel, hvalue, ?_⟩
  rw [hvalue]
  intro h
  have hsame := Text.ofText_inj (Option.some.inj h)
  exact absurd hsame (by decide)

end ModelSchema
