import ModelSchema.Json.Reader
import ModelSchema.Proofs.JsonNumber

namespace ModelSchema

namespace Value

mutual

/-- The numbers in a value. -/
def numbers : Value → List Number
  | .number x => [x]
  | .array vs => numbersItems vs
  | .object fs => numbersFields fs
  | _ => []

def numbersItems : List Value → List Number
  | [] => []
  | v :: vs => numbers v ++ numbersItems vs

def numbersFields : List (String × Value) → List Number
  | [] => []
  | (_, v) :: fs => numbers v ++ numbersFields fs

end

end Value

namespace Json

def isHex (c : Char) : Bool := (Text.hexDigit? c).isSome

/-- What stands between two quotes. -/
inductive Quotable : Text → Prop
  | nil : Quotable []
  | plain {c : Char} {t : Text} (hcode : 32 ≤ c.toNat) (hquote : c ≠ '"') (hslash : c ≠ '\\')
      (ht : Quotable t) : Quotable (c :: t)
  | escaped {c : Char} {t : Text} (hc : c ∈ ['"', '\\', '/', 'b', 'f', 'n', 'r', 't'])
      (ht : Quotable t) : Quotable ('\\' :: c :: t)
  | code {digits t : Text} (hlength : digits.length = 4) (hdigits : ∀ c ∈ digits, isHex c = true)
      (ht : Quotable t) : Quotable ('\\' :: 'u' :: (digits ++ t))

inductive IsText : Text → Prop
  | intro {t : Text} (h : Quotable t) : IsText ('"' :: (t ++ ['"']))

def Spaces (t : Text) : Prop := ∀ c ∈ t, isSpace c = true

/-- The kinds of phrases. -/
inductive Phrase where
  | value | item | items | entry | entries

/-- The text is a phrase of this kind. -/
inductive Derives : Phrase → Text → Prop
  | word {t : Text} (h : t ∈ ["null".toList, "true".toList, "false".toList]) : Derives .value t
  | number {t : Text} (h : IsNumber t) : Derives .value t
  | text {t : Text} (h : IsText t) : Derives .value t
  | noItems {a : Text} (ha : Spaces a) : Derives .value ('[' :: (a ++ [']']))
  | array {t : Text} (h : Derives .items t) : Derives .value ('[' :: (t ++ [']']))
  | noEntries {a : Text} (ha : Spaces a) : Derives .value ('\x7b' :: (a ++ ['\x7d']))
  | object {t : Text} (h : Derives .entries t) : Derives .value ('\x7b' :: (t ++ ['\x7d']))
  | item {a t b : Text} (ha : Spaces a) (ht : Derives .value t) (hb : Spaces b) :
      Derives .item (a ++ (t ++ b))
  | lastItem {t : Text} (h : Derives .item t) : Derives .items t
  | items {t ts : Text} (h : Derives .item t) (hs : Derives .items ts) :
      Derives .items (t ++ ',' :: ts)
  | entry {a k b t : Text} (ha : Spaces a) (hk : IsText k) (hb : Spaces b) (ht : Derives .item t) :
      Derives .entry (a ++ (k ++ (b ++ ':' :: t)))
  | lastEntry {t : Text} (h : Derives .entry t) : Derives .entries t
  | entries {t ts : Text} (h : Derives .entry t) (hs : Derives .entries ts) :
      Derives .entries (t ++ ',' :: ts)

/-- A value with spaces around it. -/
def IsJson (t : Text) : Prop := Derives .item t

theorem Quotable.append {s t : Text} (hs : Quotable s) (ht : Quotable t) : Quotable (s ++ t) := by
  induction hs with
  | nil => exact ht
  | plain hcode hquote hslash _ ih => exact .plain hcode hquote hslash ih
  | escaped hc _ ih => exact .escaped hc ih
  | @code digits s hlength hdigits _ ih =>
    have happend := Quotable.code hlength hdigits ih
    rwa [← List.append_assoc] at happend

theorem length_hex (width n : Nat) : (Text.hex width n).length = width := by
  induction width generalizing n with
  | zero => rfl
  | succ width ih => rw [Text.hex, List.length_append, ih]; rfl

theorem isHex_hex {width n : Nat} : ∀ c ∈ Text.hex width n, isHex c = true := by
  have hdigit : ∀ k < 16, isHex k.digitChar = true := by decide
  induction width generalizing n with
  | zero => simp [Text.hex]
  | succ width ih =>
    intro c hc
    rcases List.mem_append.mp hc with hc | hc
    · exact ih c hc
    · rw [List.mem_singleton.mp hc]
      exact hdigit (n % 16) (Nat.mod_lt n (by decide))

theorem quotable_code (n : Nat) : Quotable ('\\' :: 'u' :: Text.hex 4 n) := by
  have hcode := Quotable.code (length_hex 4 n) isHex_hex .nil
  rwa [List.append_nil] at hcode

theorem quotable_escapeCode (n : Nat) : Quotable (escapeCode n) := by
  unfold escapeCode
  split
  · exact quotable_code n
  · exact (quotable_code _).append (quotable_code _)

theorem quotable_escape (c : Char) : Quotable (escape c) := by
  unfold escape
  split
  · rename_i hc
    have hmem : c = '\\' ∨ c = Text.doubleQuote := by simpa using hc
    apply Quotable.escaped _ .nil
    rcases hmem with rfl | rfl
    · decide
    · decide
  · rename_i hc
    have hmem : ¬c = '\\' ∧ ¬c = Text.doubleQuote := by simpa using hc
    repeat' split
    · exact .escaped (by decide) .nil
    · exact .escaped (by decide) .nil
    · exact .escaped (by decide) .nil
    · exact .escaped (by decide) .nil
    · exact .escaped (by decide) .nil
    · rename_i hcode
      exact .plain hcode.1 hmem.2 hmem.1 .nil
    · exact quotable_escapeCode c.toNat

theorem isText_writeText (s : String) : IsText (writeText s) := by
  apply IsText.intro
  induction s.toList with
  | nil => exact .nil
  | cons c t ih => exact (quotable_escape c).append ih

theorem spaces_nil : Spaces [] := by
  intro c hc
  cases hc

theorem spaces_blank : Spaces [' '] := List.all_eq_true.mp rfl

theorem spaces_newline (indent : Option Nat) (level : Nat) : Spaces (newline indent level) := by
  cases indent with
  | none => exact spaces_nil
  | some n =>
    intro c hc
    rcases List.mem_cons.mp hc with rfl | hc
    · rfl
    · rw [List.eq_of_mem_replicate hc]
      rfl

theorem comma_eq (indent : Option Nat) (level : Nat) :
    ∃ a, Spaces a ∧ comma indent level = ',' :: a := by
  cases indent with
  | none => exact ⟨[' '], spaces_blank, rfl⟩
  | some n => exact ⟨_, spaces_newline (some n) level, rfl⟩

mutual

theorem derives_write (indent : Option Nat) (level : Nat) (v : Value)
    (h : ∀ x ∈ v.numbers, x.isFinite = true) : Derives .value (write indent level v) := by
  match v with
  | .null => exact .word (by simp [write])
  | .bool true => exact .word (by simp [write])
  | .bool false => exact .word (by simp [write])
  | .number x => exact .number (isNumber_writeNumber (h x (by simp [Value.numbers])))
  | .text s => exact .text (isText_writeText s)
  | .array [] => exact .noItems spaces_nil
  | .array (v :: vs) =>
    rw [Value.numbers, Value.numbersItems, List.forall_mem_append] at h
    have hvalue := derives_write indent (level + 1) v h.1
    have harray := Derives.array (derives_writeItems indent (level + 1) vs h.2
      (spaces_newline indent (level + 1)) hvalue (spaces_newline indent level))
    simpa [write] using harray
  | .object [] => exact .noEntries spaces_nil
  | .object ((k, v) :: fs) =>
    rw [Value.numbers, Value.numbersFields, List.forall_mem_append] at h
    have hvalue := derives_write indent (level + 1) v h.1
    have hobject := Derives.object (derives_writeFields indent (level + 1) fs h.2
      (spaces_newline indent (level + 1)) (isText_writeText k) hvalue (spaces_newline indent level))
    simpa [write] using hobject

theorem derives_writeItems (indent : Option Nat) (level : Nat) (vs : List Value)
    (h : ∀ x ∈ Value.numbersItems vs, x.isFinite = true) {a t b : Text} (ha : Spaces a)
    (ht : Derives .value t) (hb : Spaces b) :
    Derives .items (a ++ (t ++ (writeItems indent level vs ++ b))) := by
  match vs with
  | [] => exact .lastItem (.item ha ht hb)
  | v :: vs =>
    rw [Value.numbersItems, List.forall_mem_append] at h
    obtain ⟨c, hc, hcomma⟩ := comma_eq indent level
    have hvalue := derives_write indent level v h.1
    have hitems := Derives.items (.item ha ht spaces_nil)
      (derives_writeItems indent level vs h.2 hc hvalue hb)
    simpa [writeItems, hcomma] using hitems

theorem derives_writeFields (indent : Option Nat) (level : Nat) (fs : List (String × Value))
    (h : ∀ x ∈ Value.numbersFields fs, x.isFinite = true) {a k t b : Text} (ha : Spaces a)
    (hk : IsText k) (ht : Derives .value t) (hb : Spaces b) :
    Derives .entries (a ++ (k ++ ':' :: ' ' :: (t ++ (writeFields indent level fs ++ b)))) := by
  match fs with
  | [] => exact .lastEntry (.entry ha hk spaces_nil (.item spaces_blank ht hb))
  | (k', v) :: fs =>
    rw [Value.numbersFields, List.forall_mem_append] at h
    obtain ⟨c, hc, hcomma⟩ := comma_eq indent level
    have hvalue := derives_write indent level v h.1
    have hentries := Derives.entries (.entry ha hk spaces_nil (.item spaces_blank ht spaces_nil))
      (derives_writeFields indent level fs h.2 hc (isText_writeText k') hvalue hb)
    simpa [writeFields, hcomma] using hentries

end

/-- Where a character stands: outside of quotes, between two, or after a backslash there. -/
inductive Quoting where
  | outside | inside | escaped

/-- The characters outside of quotes. -/
def unquoted : Quoting → Text → Text
  | _, [] => []
  | .outside, c :: t => if c = '"' then unquoted .inside t else c :: unquoted .outside t
  | .inside, c :: t =>
    if c = '"' then unquoted .outside t
    else if c = '\\' then unquoted .escaped t
    else unquoted .inside t
  | .escaped, _ :: t => unquoted .inside t

/-- Of the text there stays `u` outside of quotes, whatever follows. -/
def Leaves (t u : Text) : Prop :=
  ∀ rest, unquoted .outside (t ++ rest) = u ++ unquoted .outside rest

theorem Leaves.eq {t u : Text} (h : Leaves t u) : unquoted .outside t = u := by
  have hend := h []
  rwa [List.append_nil, unquoted, List.append_nil] at hend

theorem Leaves.append {s t u v : Text} (hs : Leaves s u) (ht : Leaves t v) :
    Leaves (s ++ t) (u ++ v) := by
  intro rest
  rw [List.append_assoc, hs, ht, List.append_assoc]

theorem leaves_of_not_mem {t : Text} (h : '"' ∉ t) : Leaves t t := by
  intro rest
  induction t with
  | nil => rfl
  | cons c t ih =>
    obtain ⟨hc, ht⟩ := List.ne_and_not_mem_of_not_mem_cons h
    rw [List.cons_append, unquoted, if_neg (Ne.symm hc), ih ht, List.cons_append]

theorem unquoted_hex {digits : Text} (h : ∀ c ∈ digits, isHex c = true) (rest : Text) :
    unquoted .inside (digits ++ rest) = unquoted .inside rest := by
  induction digits with
  | nil => rfl
  | cons c digits ih =>
    obtain ⟨hc, hdigits⟩ := List.forall_mem_cons.mp h
    have hquote : c ≠ '"' := by
      intro he
      rw [he] at hc
      exact absurd hc (by decide)
    have hslash : c ≠ '\\' := by
      intro he
      rw [he] at hc
      exact absurd hc (by decide)
    rw [List.cons_append, unquoted, if_neg hquote, if_neg hslash, ih hdigits]

theorem Quotable.unquoted {t : Text} (h : Quotable t) (rest : Text) :
    Json.unquoted .inside (t ++ '"' :: rest) = Json.unquoted .outside rest := by
  induction h with
  | nil => rfl
  | plain hcode hquote hslash _ ih =>
    rw [List.cons_append, Json.unquoted, if_neg hquote, if_neg hslash, ih]
  | escaped hc _ ih => exact ih
  | @code digits t hlength hdigits _ ih =>
    have hcode := unquoted_hex hdigits (t ++ '"' :: rest)
    rw [← ih, ← hcode, ← List.append_assoc]
    rfl

theorem IsText.leaves {t : Text} (h : IsText t) : Leaves t [] := by
  cases h with
  | intro h =>
    intro rest
    have hbody := h.unquoted rest
    simpa [unquoted] using hbody

/-- The characters that the grammar has outside of quotes. -/
def isStandard (c : Char) : Bool :=
  isSpace c || isMark c || isNumberCharacter c || "nulltruefalse".toList.contains c

/-- Outside of quotes stand the numbers `xs` and otherwise characters of the grammar only. -/
def Shows (t : Text) (xs : List Number) : Prop :=
  ∃ u, Leaves t u ∧ (∀ c ∈ u, isStandard c = true ∨ ∃ x ∈ xs, c ∈ writeNumber x) ∧
    ∀ x ∈ xs, writeNumber x <:+: u

theorem Shows.append {s t : Text} {xs ys : List Number} (hs : Shows s xs) (ht : Shows t ys) :
    Shows (s ++ t) (xs ++ ys) := by
  obtain ⟨u, hu, hchars, hnumbers⟩ := hs
  obtain ⟨v, hv, hchars', hnumbers'⟩ := ht
  refine ⟨u ++ v, hu.append hv, ?_, ?_⟩
  · intro c hc
    rcases List.mem_append.mp hc with hc | hc
    · rcases hchars c hc with hstandard | ⟨x, hx, hmem⟩
      · exact .inl hstandard
      · exact .inr ⟨x, List.mem_append_left ys hx, hmem⟩
    · rcases hchars' c hc with hstandard | ⟨x, hx, hmem⟩
      · exact .inl hstandard
      · exact .inr ⟨x, List.mem_append_right xs hx, hmem⟩
  · intro x hx
    rcases List.mem_append.mp hx with hx | hx
    · exact (hnumbers x hx).trans (List.prefix_append u v).isInfix
    · exact (hnumbers' x hx).trans (List.suffix_append u v).isInfix

theorem shows_of_standard {t : Text} (h : ∀ c ∈ t, isStandard c = true) : Shows t [] := by
  refine ⟨t, leaves_of_not_mem ?_, fun c hc => .inl (h c hc), by simp⟩
  intro hquote
  exact absurd (h _ hquote) (by decide)

theorem IsText.shows {t : Text} (h : IsText t) : Shows t [] := ⟨[], h.leaves, by simp, by simp⟩

theorem Spaces.shows {t : Text} (h : Spaces t) : Shows t [] := by
  apply shows_of_standard
  intro c hc
  simp [isStandard, h c hc]

theorem IsNumber.shows {t : Text} (h : IsNumber t) : Shows t [] := by
  apply shows_of_standard
  intro c hc
  simp [isStandard, h.all c hc]

/-- A text between two brackets. -/
theorem Shows.enclosed {t : Text} {xs : List Number} (h : Shows t xs) {a b : Char}
    (ha : isMark a = true) (hb : isMark b = true) : Shows (a :: (t ++ [b])) xs := by
  have hleft : Shows [a] [] := shows_of_standard (by simp [isStandard, ha])
  have hright : Shows [b] [] := shows_of_standard (by simp [isStandard, hb])
  have hall := hleft.append (h.append hright)
  rwa [List.append_nil] at hall

theorem shows_word {t : Text} (h : t ∈ ["null".toList, "true".toList, "false".toList]) :
    Shows t [] := by
  have hwords : ["null".toList, "true".toList, "false".toList].all (·.all isStandard) = true := by
    decide
  exact shows_of_standard (List.all_eq_true.mp (List.all_eq_true.mp hwords t h))

theorem shows_comma : Shows [','] [] := shows_of_standard (by simp [isStandard, isMark])

theorem shows_colon : Shows [':'] [] := shows_of_standard (by simp [isStandard, isMark])

theorem Derives.shows {p : Phrase} {t : Text} (h : Derives p t) : Shows t [] := by
  induction h with
  | word h => exact shows_word h
  | number h => exact h.shows
  | text h => exact h.shows
  | noItems ha => exact ha.shows.enclosed rfl rfl
  | array _ ih => exact ih.enclosed rfl rfl
  | noEntries ha => exact ha.shows.enclosed rfl rfl
  | object _ ih => exact ih.enclosed rfl rfl
  | item ha _ hb ih => exact ha.shows.append (ih.append hb.shows)
  | lastItem _ ih => exact ih
  | items _ _ ih ihs => exact ih.append (shows_comma.append ihs)
  | entry ha hk hb _ ih =>
    exact ha.shows.append (hk.shows.append (hb.shows.append (shows_colon.append ih)))
  | lastEntry _ ih => exact ih
  | entries _ _ ih ihs => exact ih.append (shows_comma.append ihs)

theorem shows_separator (indent : Option Nat) (level : Nat) : Shows (comma indent level) [] := by
  obtain ⟨a, ha, hcomma⟩ := comma_eq indent level
  rw [hcomma]
  exact shows_comma.append ha.shows

theorem writeNumber_cases (x : Number) :
    x.isFinite = true ∧ IsNumber (writeNumber x) ∨
      (∃ negative, x = .float (.infinite negative) ∧
        writeNumber x = if negative then "-Infinity".toList else "Infinity".toList) ∨
      x = .float .nan ∧ writeNumber x = "NaN".toList := by
  cases x with
  | int n => exact .inl ⟨rfl, isNumber_writeNumber rfl⟩
  | float d =>
    cases d with
    | finite negative m e => exact .inl ⟨rfl, isNumber_writeNumber rfl⟩
    | infinite negative => exact .inr (.inl ⟨negative, rfl, rfl⟩)
    | nan => exact .inr (.inr ⟨rfl, rfl⟩)

theorem quote_not_mem_writeNumber (x : Number) : '"' ∉ writeNumber x := by
  intro hmem
  rcases writeNumber_cases x with ⟨-, hnumber⟩ | ⟨negative, -, htext⟩ | ⟨-, htext⟩
  · exact absurd (hnumber.all _ hmem) (by decide)
  · rw [htext] at hmem
    cases negative with
    | false => exact absurd hmem (by decide)
    | true => exact absurd hmem (by decide)
  · rw [htext] at hmem
    exact absurd hmem (by decide)

theorem shows_writeNumber (x : Number) : Shows (writeNumber x) [x] := by
  refine ⟨writeNumber x, leaves_of_not_mem (quote_not_mem_writeNumber x), ?_, ?_⟩
  · intro c hc
    exact .inr ⟨x, List.mem_singleton_self x, hc⟩
  · intro y hy
    obtain rfl := List.mem_singleton.mp hy
    exact List.infix_refl _

mutual

theorem shows_write (indent : Option Nat) (level : Nat) (v : Value) :
    Shows (write indent level v) v.numbers := by
  match v with
  | .null => exact shows_word (by simp [write])
  | .bool true => exact shows_word (by simp [write])
  | .bool false => exact shows_word (by simp [write])
  | .number x => exact shows_writeNumber x
  | .text s => exact (isText_writeText s).shows
  | .array [] => exact spaces_nil.shows.enclosed rfl rfl
  | .array (v :: vs) =>
    have hitems := (shows_write indent (level + 1) v).append
      ((shows_writeItems indent (level + 1) vs).append (spaces_newline indent level).shows)
    have harray := ((spaces_newline indent (level + 1)).shows.append hitems).enclosed
      (a := '[') (b := ']') rfl rfl
    simpa [write, Value.numbers, Value.numbersItems] using harray
  | .object [] => exact spaces_nil.shows.enclosed rfl rfl
  | .object ((k, v) :: fs) =>
    have hfields := (shows_write indent (level + 1) v).append
      ((shows_writeFields indent (level + 1) fs).append (spaces_newline indent level).shows)
    have hentries := (isText_writeText k).shows.append
      (shows_colon.append (spaces_blank.shows.append hfields))
    have hobject := ((spaces_newline indent (level + 1)).shows.append hentries).enclosed
      (a := '\x7b') (b := '\x7d') rfl rfl
    simpa [write, Value.numbers, Value.numbersFields] using hobject

theorem shows_writeItems (indent : Option Nat) (level : Nat) (vs : List Value) :
    Shows (writeItems indent level vs) (Value.numbersItems vs) := by
  match vs with
  | [] => exact spaces_nil.shows
  | v :: vs =>
    have hcomma := shows_separator indent level
    have hitems :=
      hcomma.append ((shows_write indent level v).append (shows_writeItems indent level vs))
    simpa [writeItems, Value.numbersItems] using hitems

theorem shows_writeFields (indent : Option Nat) (level : Nat) (fs : List (String × Value)) :
    Shows (writeFields indent level fs) (Value.numbersFields fs) := by
  match fs with
  | [] => exact spaces_nil.shows
  | (k, v) :: fs =>
    have hfields := (shows_write indent level v).append (shows_writeFields indent level fs)
    have hentries := (shows_separator indent level).append ((isText_writeText k).shows.append
      (shows_colon.append (spaces_blank.shows.append hfields)))
    simpa [writeFields, Value.numbersFields] using hentries

end

variable {t : Text} {xs : List Number}

/-- A letter outside of the grammar is part of a number. -/
theorem Shows.exists_of_mem (h : Shows t xs) {c : Char} (hc : c ∈ unquoted .outside t)
    (hstandard : isStandard c = false) : ∃ x ∈ xs, c ∈ writeNumber x := by
  obtain ⟨u, hu, hchars, -⟩ := h
  rw [hu.eq] at hc
  rcases hchars c hc with htrue | hnumber
  · rw [hstandard] at htrue
    cases htrue
  · exact hnumber

theorem Shows.contains (h : Shows t xs) {x : Number} (hx : x ∈ xs) :
    writeNumber x <:+: unquoted .outside t := by
  obtain ⟨u, hu, -, hnumbers⟩ := h
  rw [hu.eq]
  exact hnumbers x hx

theorem isInfinite_of_mem {x : Number} (h : 'I' ∈ writeNumber x) :
    ∃ negative, x = .float (.infinite negative) := by
  rcases writeNumber_cases x with ⟨-, hnumber⟩ | ⟨negative, hx, -⟩ | ⟨-, htext⟩
  · exact absurd (hnumber.all _ h) (by decide)
  · exact ⟨negative, hx⟩
  · rw [htext] at h
    exact absurd h (by decide)

theorem isNan_of_mem {x : Number} (h : 'N' ∈ writeNumber x) : x = .float .nan := by
  rcases writeNumber_cases x with ⟨-, hnumber⟩ | ⟨negative, -, htext⟩ | ⟨hx, -⟩
  · exact absurd (hnumber.all _ h) (by decide)
  · rw [htext] at h
    cases negative with
    | false => exact absurd h (by decide)
    | true => exact absurd h (by decide)
  · exact hx

theorem Shows.infinity_iff (h : Shows t xs) :
    "Infinity".toList <:+: unquoted .outside t ↔
      ∃ x ∈ xs, ∃ negative, x = .float (.infinite negative) := by
  constructor
  · intro htoken
    obtain ⟨x, hx, hmem⟩ := h.exists_of_mem (c := 'I') (htoken.subset (by decide)) (by decide)
    exact ⟨x, hx, isInfinite_of_mem hmem⟩
  · intro hinfinite
    obtain ⟨x, hx, negative, rfl⟩ := hinfinite
    apply List.IsInfix.trans _ (h.contains hx)
    cases negative with
    | false => exact List.infix_refl _
    | true => exact (List.suffix_cons '-' _).isInfix

theorem Shows.nan_iff (h : Shows t xs) :
    "NaN".toList <:+: unquoted .outside t ↔ .float .nan ∈ xs := by
  constructor
  · intro htoken
    obtain ⟨x, hx, hmem⟩ := h.exists_of_mem (c := 'N') (htoken.subset (by decide)) (by decide)
    rwa [isNan_of_mem hmem] at hx
  · intro hnan
    exact h.contains hnan

/-- Nothing that is not finite stands in a text of the grammar. -/
theorem IsJson.isFinite (h : IsJson t) (hshows : Shows t xs) {x : Number} (hx : x ∈ xs) :
    x.isFinite = true := by
  have hinfinity : ¬"Infinity".toList <:+: unquoted .outside t := by
    rw [(Derives.shows h).infinity_iff]
    simp
  have hnan : ¬"NaN".toList <:+: unquoted .outside t := by
    rw [(Derives.shows h).nan_iff]
    simp
  rw [hshows.infinity_iff] at hinfinity
  rw [hshows.nan_iff] at hnan
  rcases writeNumber_cases x with ⟨hfinite, -⟩ | ⟨negative, hinfinite, -⟩ | ⟨hxnan, -⟩
  · exact hfinite
  · exact absurd ⟨x, hx, negative, hinfinite⟩ hinfinity
  · rw [hxnan] at hx
    exact absurd hx hnan

theorem shows_line (indent : Option Nat) (v : Value) :
    Shows (write indent 0 v ++ ['\n']) v.numbers := by
  have hend : Spaces ['\n'] := List.all_eq_true.mp rfl
  have hline := (shows_write indent 0 v).append hend.shows
  rwa [List.append_nil] at hline

/-- The line of a value is JSON exactly if its numbers are finite. -/
theorem isJson_line_iff (indent : Option Nat) (v : Value) :
    IsJson (write indent 0 v ++ ['\n']) ↔ ∀ x ∈ v.numbers, x.isFinite = true := by
  constructor
  · intro h x hx
    exact h.isFinite (shows_line indent v) hx
  · intro h
    exact .item spaces_nil (derives_write indent 0 v h) (List.all_eq_true.mp rfl)

end Json

end ModelSchema
