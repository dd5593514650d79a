import Mathlib.Data.Nat.Digits.Defs
import ModelSchema.Proofs.Numeral

namespace ModelSchema

namespace Numeral

/-- One digit or more. -/
def IsDigits (t : Text) : Prop := t ≠ [] ∧ ∀ c ∈ t, Text.isDigit c = true

/-- A sign, with whether it is a minus. -/
inductive Sign : Bool → Text → Prop
  | absent : Sign false []
  | plus : Sign false ['+']
  | minus : Sign true ['-']

/-- Digits with a point among, before or after them, with the digits on its two sides. -/
inductive Mantissa : Text → Option Text → Text → Prop
  | whole {w : Text} (hw : IsDigits w) : Mantissa w none w
  | pointed {w f : Text} (hw : IsDigits w) (hf : ∀ c ∈ f, Text.isDigit c = true) :
      Mantissa w (some f) (w ++ '.' :: f)
  | fraction {f : Text} (hf : IsDigits f) : Mantissa [] (some f) ('.' :: f)

inductive Exponent : Option (Bool × Text) → Text → Prop
  | absent : Exponent none []
  | present {letter : Char} {negative : Bool} {sign digits : Text}
      (hletter : letter = 'e' ∨ letter = 'E') (hsign : Sign negative sign)
      (hdigits : IsDigits digits) : Exponent (some (negative, digits)) (letter :: (sign ++ digits))

/-- The text spells the numeral. -/
inductive Spells (n : Numeral) : Text → Prop
  | intro {sign mantissa exponent : Text} (hsign : Sign n.negative sign)
      (hmantissa : Mantissa n.whole n.fraction mantissa)
      (hexponent : Exponent n.exponent exponent) :
      Spells n (sign ++ (mantissa ++ exponent))

variable {n : Numeral} {t sign : Text} {negative : Bool} {e : Option (Bool × Text)}

theorem readSign_sign (t : Text) :
    ∃ sign, t = sign ++ (readSign t).2 ∧ Sign (readSign t).1 sign := by
  unfold readSign
  split
  · exact ⟨['+'], rfl, .plus⟩
  · exact ⟨['-'], rfl, .minus⟩
  · exact ⟨[], rfl, .absent⟩

theorem Sign.readSign_append (hsign : Sign negative sign)
    (ht : ∀ c ∈ t.head?, c ≠ '+' ∧ c ≠ '-') : readSign (sign ++ t) = (negative, t) := by
  cases hsign with
  | plus => rfl
  | minus => rfl
  | absent =>
    cases t with
    | nil => rfl
    | cons c t =>
      obtain ⟨hplus, hminus⟩ := ht c rfl
      rw [List.nil_append]
      unfold readSign
      split <;> simp_all

theorem ne_sign_of_isDigit {c : Char} (h : Text.isDigit c = true) : c ≠ '+' ∧ c ≠ '-' := by
  constructor
  · intro hc
    rw [hc] at h
    exact absurd h (by decide)
  · intro hc
    rw [hc] at h
    exact absurd h (by decide)

theorem IsDigits.ne_sign (h : IsDigits t) : ∀ c ∈ t.head?, c ≠ '+' ∧ c ≠ '-' := by
  intro c hc
  exact ne_sign_of_isDigit (h.2 c (List.mem_of_mem_head? hc))

theorem readExponent?_eq_some : readExponent? t = some e ↔ Exponent e t := by
  constructor
  · intro h
    cases t with
    | nil =>
      cases h
      exact .absent
    | cons c t =>
      simp only [readExponent?] at h
      split at h
      · rename_i hexponent
        simp only [Bool.and_eq_true, Bool.or_eq_true, beq_iff_eq, List.all_eq_true,
          Bool.not_eq_true', List.isEmpty_eq_false_iff] at hexponent
        obtain ⟨⟨hletter, hne⟩, hdigits⟩ := hexponent
        cases h
        obtain ⟨sign, ht, hsign⟩ := readSign_sign t
        have hspelled := Exponent.present hletter hsign ⟨hne, hdigits⟩
        rwa [← ht] at hspelled
      · cases h
  · intro h
    cases h with
    | absent => rfl
    | @present letter negative sign digits hletter hsign hdigits =>
      have hletter' : (letter == 'e' || letter == 'E') = true := by simpa using hletter
      have hempty : digits.isEmpty = false := by simpa using hdigits.1
      have hall : digits.all Text.isDigit = true := List.all_eq_true.mpr hdigits.2
      simp [readExponent?, hsign.readSign_append hdigits.ne_sign, hletter', hempty, hall]

theorem Exponent.head? (h : Exponent e t) : ∀ c ∈ t.head?, c = 'e' ∨ c = 'E' := by
  cases h with
  | absent => simp
  | present hletter => simpa using hletter

theorem Exponent.not_isDigit (h : Exponent e t) : ∀ c ∈ t.head?, Text.isDigit c = false := by
  intro c hc
  rcases h.head? c hc with rfl | rfl
  · decide
  · decide

/-- Without a digit on one side at least a point is no mantissa. -/
theorem mantissa_of_digits {w f : Text} (hw : ∀ c ∈ w, Text.isDigit c = true)
    (hf : ∀ c ∈ f, Text.isDigit c = true) (hne : ¬(w = [] ∧ f = [])) :
    Mantissa w (some f) (w ++ '.' :: f) := by
  by_cases hnil : w = []
  · rw [hnil] at hne ⊢
    exact .fraction ⟨fun h => hne ⟨rfl, h⟩, hf⟩
  · exact .pointed ⟨hnil, hw⟩ hf

theorem mantissa_of_readUnsigned? (h : readUnsigned? negative t = some n) :
    n.negative = negative ∧ ∃ mantissa exponent, t = mantissa ++ exponent ∧
      Mantissa n.whole n.fraction mantissa ∧ Exponent n.exponent exponent := by
  have ht := List.takeWhile_append_dropWhile (p := Text.isDigit) (l := t)
  have hwhole := Text.takeWhile_all (p := Text.isDigit) t
  simp only [readUnsigned?] at h
  split at h
  · rename_i rest hrest
    have hafter := List.takeWhile_append_dropWhile (p := Text.isDigit) (l := rest)
    split at h
    · cases h
    · rename_i hne
      obtain ⟨e, he, rfl⟩ := Option.map_eq_some_iff.mp h
      have hmantissa := mantissa_of_digits hwhole (Text.takeWhile_all rest) (by simpa using hne)
      refine ⟨rfl, _, _, ?_, hmantissa, readExponent?_eq_some.mp he⟩
      rw [List.append_assoc, List.cons_append, hafter, ← hrest, ht]
  · split at h
    · cases h
    · rename_i hne
      obtain ⟨e, he, rfl⟩ := Option.map_eq_some_iff.mp h
      exact ⟨rfl, _, _, ht.symm, .whole ⟨by simpa using hne, hwhole⟩, readExponent?_eq_some.mp he⟩

theorem readUnsigned?_of_mantissa {whole mantissa exponent : Text} {fraction : Option Text}
    (hmantissa : Mantissa whole fraction mantissa) (hexponent : Exponent e exponent) :
    readUnsigned? negative (mantissa ++ exponent) = some ⟨negative, whole, fraction, e⟩ := by
  have hread := readExponent?_eq_some.mpr hexponent
  cases hmantissa with
  | whole hw =>
    have hspan := Text.span_append hw.2 hexponent.not_isDigit
    have hempty : whole.isEmpty = false := by simpa using hw.1
    simp only [readUnsigned?, hspan.1, hspan.2, hempty]
    split
    · rename_i rest
      rcases hexponent.head? '.' rfl with h | h
      · cases h
      · cases h
    · simp [hread]
  | @pointed w f hw hf =>
    have hspan := Text.span_append (b := '.' :: (f ++ exponent)) hw.2 (by simp; decide)
    have hafter := Text.span_append hf hexponent.not_isDigit
    have hempty : whole.isEmpty = false := by simpa using hw.1
    rw [List.append_assoc, List.cons_append]
    simp [readUnsigned?, hspan.1, hspan.2, hafter.1, hafter.2, hempty, hread]
  | @fraction f hf =>
    have hafter := Text.span_append hf.2 hexponent.not_isDigit
    have hempty : f.isEmpty = false := by simpa using hf.1
    have hpoint : Text.isDigit '.' = false := by decide
    simp [readUnsigned?, hpoint, hafter.1, hafter.2, hempty, hread]

theorem Mantissa.ne_sign {whole mantissa : Text} {fraction : Option Text}
    (h : Mantissa whole fraction mantissa) (exponent : Text) :
    ∀ c ∈ (mantissa ++ exponent).head?, c ≠ '+' ∧ c ≠ '-' := by
  have hdigits {w : Text} (hw : IsDigits w) (rest : Text) :
      ∀ c ∈ (w ++ rest).head?, c ≠ '+' ∧ c ≠ '-' := by
    cases w with
    | nil => exact absurd rfl hw.1
    | cons d w => exact hw.ne_sign
  cases h with
  | whole hw => exact hdigits hw exponent
  | pointed hw hf =>
    rw [List.append_assoc]
    exact hdigits hw _
  | fraction hf => simp

/-- The reader takes exactly the spellings of numerals. -/
theorem read?_eq_some : read? t = some n ↔ n.Spells t := by
  constructor
  · intro h
    obtain ⟨sign, ht, hsign⟩ := readSign_sign t
    have hunsigned : readUnsigned? (readSign t).1 (readSign t).2 = some n := h
    obtain ⟨hnegative, mantissa, exponent, hrest, hmantissa, hexponent⟩ :=
      mantissa_of_readUnsigned? hunsigned
    rw [ht, hrest]
    rw [← hnegative] at hsign
    exact .intro hsign hmantissa hexponent
  · intro h
    cases h with
    | intro hsign hmantissa hexponent =>
      rw [read?, hsign.readSign_append (hmantissa.ne_sign _)]
      exact readUnsigned?_of_mantissa hmantissa hexponent

theorem Spells.chars (h : n.Spells t) : ∀ c ∈ t, Text.isDigit c = true ∨ c ∈ marks :=
  read?_chars (read?_eq_some.mpr h)

theorem Spells.not_mem (h : n.Spells t) {c : Char} (hdigit : Text.isDigit c = false)
    (hmark : c ∉ marks) : c ∉ t :=
  not_mem_of_chars h.chars hdigit hmark

/-- An integer is spelled by a sign, if any, and its digits. -/
theorem spells_integer {digits : Text} :
    (⟨negative, digits, none, none⟩ : Numeral).Spells t ↔
      ∃ sign, Sign negative sign ∧ IsDigits digits ∧ t = sign ++ digits := by
  constructor
  · intro h
    cases h with
    | @intro sign mantissa exponent hsign hmantissa hexponent =>
      cases hmantissa with
      | whole hw =>
        cases hexponent with
        | absent => exact ⟨sign, hsign, hw, by rw [List.append_nil]⟩
  · intro h
    obtain ⟨sign, hsign, hdigits, rfl⟩ := h
    have hspelled :=
      Spells.intro (n := ⟨negative, digits, none, none⟩) hsign (.whole hdigits) .absent
    rwa [List.append_nil] at hspelled

end Numeral

namespace Text

/-- The decimal digits of all scripts. -/
def digitRanges : Ranges := (0x30, 0x39) :: zeros.map fun z => (z, z + 9)

theorem digitRanges_has {c : Char} (h : isDigit c = true) : digitRanges.has c = true := by
  unfold isDigit digit? at h
  split at h
  · split at h
    · rename_i hdigit
      obtain ⟨hlow, hhigh⟩ := Char.isDigit_iff_toNat.mp hdigit
      change 48 ≤ c.toNat at hlow
      change c.toNat ≤ 57 at hhigh
      simp [digitRanges, Ranges.has, hlow, hhigh]
    · cases h
  · rw [Option.isSome_map, Option.isSome_iff_exists] at h
    obtain ⟨z, hz⟩ := h
    have hmem := List.mem_of_find?_eq_some hz
    have hrange : z ≤ c.toNat ∧ c.toNat < z + 10 := by simpa using List.find?_some hz
    rw [Ranges.has, List.any_eq_true]
    refine ⟨(z, z + 9), List.mem_cons_of_mem _ (List.mem_map.mpr ⟨z, hmem, rfl⟩), ?_⟩
    simp only [Bool.and_eq_true, decide_eq_true_eq]
    omega

theorem isBlank_eq_false_of_isDigit {c : Char} (h : isDigit c = true) : isBlank c = false := by
  have hapart : digitRanges.apart blankRanges = true := by decide
  exact Ranges.not_has_of_apart hapart (digitRanges_has h)

/-- The capital letters of ASCII. -/
def capitalRanges : Ranges := [(0x41, 0x5a)]

theorem toLower_of_isDigit {c : Char} (h : isDigit c = true) : c.toLower = c := by
  have hapart : digitRanges.apart capitalRanges = true := by decide
  have hno := Ranges.not_has_of_apart hapart (digitRanges_has h)
  unfold Char.toLower
  rw [dif_neg]
  intro hcapital
  obtain ⟨hlow, hhigh⟩ := hcapital
  rw [ge_iff_le, UInt32.le_iff_toNat_le] at hlow
  rw [UInt32.le_iff_toNat_le] at hhigh
  change 65 ≤ c.toNat at hlow
  change c.toNat ≤ 90 at hhigh
  simp [capitalRanges, Ranges.has, hlow] at hno
  omega

/-- The number that digits stand for, by the values of their places. -/
def decimal (digits : Text) : Nat := Nat.ofDigits 10 (digits.reverse.map fun c => (digit? c).getD 0)

theorem digitsValue_eq (acc : Nat) (t : Text) :
    digitsValue acc t = 10 ^ t.length * acc + decimal t := by
  induction t generalizing acc with
  | nil => simp [digitsValue, decimal]
  | cons c t ih =>
    have hcons : decimal (c :: t) = decimal t + 10 ^ t.length * (digit? c).getD 0 := by
      simp [decimal, Nat.ofDigits_append]
    rw [digitsValue, ih, hcons, List.length_cons, Nat.pow_succ]
    ring

theorem digit?_of_ascii {c : Char} (h : c.isDigit = true) : digit? c = some (c.toNat - 48) := by
  obtain ⟨-, hhigh⟩ := Char.isDigit_iff_toNat.mp h
  change c.toNat ≤ 57 at hhigh
  have hascii : c.toNat < 128 := by omega
  rw [digit?, if_pos hascii, if_pos h]

theorem digitsValue_of_ascii {t : Text} (h : ∀ c ∈ t, c.isDigit = true) (acc : Nat) :
    digitsValue acc t = Nat.ofDigitChars 10 t acc := by
  induction t generalizing acc with
  | nil => rfl
  | cons c t ih =>
    obtain ⟨hc, ht⟩ := List.forall_mem_cons.mp h
    rw [digitsValue, digit?_of_ascii hc, ih ht, Nat.ofDigitChars_cons]
    rfl

theorem isDigit_ofNat {k : Nat} {c : Char} (h : c ∈ ofNat k) : c.isDigit = true :=
  Nat.isDigit_of_mem_toDigits (by decide) (by decide) h

theorem digitsValue_zero (t : Text) : digitsValue 0 t = decimal t := by
  rw [digitsValue_eq, Nat.mul_zero, Nat.zero_add]

theorem decimal_ofNat (k : Nat) : decimal (ofNat k) = k := by
  rw [← digitsValue_zero, digitsValue_of_ascii fun c => isDigit_ofNat]
  exact Nat.ofDigitChars_ten_toDigits

/-- The text is the body, perhaps with a newline after it. -/
def MayEndLine (body t : Text) : Prop := t = body ∨ t = body ++ ['\n']

theorem mayEndLine_dropFinalNewline (t : Text) : MayEndLine (dropFinalNewline t) t := by
  unfold dropFinalNewline
  split
  · rename_i front hlast
    exact .inr (splitLast?_eq_some.mp hlast)
  · exact .inl rfl

theorem dropFinalNewline_of_mayEndLine {body t : Text} (hstrip : strip body = body)
    (h : MayEndLine body t) : dropFinalNewline t = body := by
  rcases h with rfl | rfl
  · exact Number.dropFinalNewline_of_strip hstrip
  · simp only [dropFinalNewline, splitLast?_eq_some.mpr rfl]

end Text

namespace Numeral

theorem Sign.isSign {negative : Bool} {sign : Text} (h : Sign negative sign) : IsSign sign := by
  cases h with
  | absent => exact .inl rfl
  | plus => exact .inr (.inl rfl)
  | minus => exact .inr (.inr rfl)

theorem IsSign.sign {sign : Text} (h : IsSign sign) : ∃ negative, Sign negative sign := by
  rcases h with rfl | rfl | rfl
  · exact ⟨false, .absent⟩
  · exact ⟨false, .plus⟩
  · exact ⟨true, .minus⟩

variable {n : Numeral} {t body : Text}

theorem Spells.not_blank (h : n.Spells t) : ∀ c ∈ t, Text.isBlank c = false := by
  intro c hc
  rcases h.chars c hc with hdigit | hmark
  · exact Text.isBlank_eq_false_of_isDigit hdigit
  · have hmarks : marks.all (fun c => !Text.isBlank c) = true := by decide
    simpa using List.all_eq_true.mp hmarks c hmark

theorem Spells.strip (h : n.Spells t) : Text.strip t = t :=
  Text.trim_of_ends (fun c hc => h.not_blank c (List.mem_of_mem_head? hc))
    (fun c hc => h.not_blank c (List.mem_of_getLast? hc))

/-- The decimal text of an integer. -/
theorem spells_ofInt (i : Int) :
    (⟨decide (i < 0), Text.ofNat i.natAbs, none, none⟩ : Numeral).Spells (Text.ofInt i) := by
  have hdigits : IsDigits (Text.ofNat i.natAbs) := by
    refine ⟨Nat.toDigits_ne_nil, fun c hc => ?_⟩
    rw [Text.isDigit, Text.digit?_of_ascii (Text.isDigit_ofNat hc)]
    rfl
  rw [spells_integer]
  by_cases hneg : i < 0
  · refine ⟨['-'], ?_, hdigits, by simp [Text.ofInt, hneg]⟩
    simpa [hneg] using Sign.minus
  · refine ⟨[], ?_, hdigits, by simp [Text.ofInt, hneg]⟩
    simpa [hneg] using Sign.absent

theorem signed_decimal_ofNat (i : Int) :
    signed (decide (i < 0)) (Text.decimal (Text.ofNat i.natAbs)) = i := by
  simp only [signed, Text.decimal_ofNat, decide_eq_true_eq, Int.natCast_natAbs]
  split
  · rename_i hneg
    rw [abs_of_neg hneg, Int.neg_neg]
  · rename_i hneg
    exact abs_of_nonneg (Int.not_lt.mp hneg)

end Numeral

namespace Double

open Numeral

variable {n : Numeral} {t body : Text}

theorem named?_of_head {c : Char} (hlower : c.toLower = c) (hi : c ≠ 'i') (hn : c ≠ 'n')
    (negative : Bool) (rest : Text) : named? negative (c :: rest) = none := by
  have hword (word : Text) (hhead : word.head? ≠ some c) :
      Text.str ((c :: rest).map Char.toLower) ≠ Text.str word := by
    intro heq
    apply hhead
    rw [← String.ofList_injective heq, List.map_cons, hlower]
    rfl
  unfold named?
  split
  · rename_i heq
    exact absurd heq (hword "inf".toList (by simpa using Ne.symm hi))
  · rename_i heq
    exact absurd heq (hword "infinity".toList (by simpa using Ne.symm hi))
  · rename_i heq
    exact absurd heq (hword "nan".toList (by simpa using Ne.symm hn))
  · rfl

theorem named?_of_digit {c : Char} (h : Text.isDigit c = true) (negative : Bool) (rest : Text) :
    named? negative (c :: rest) = none := by
  apply named?_of_head (Text.toLower_of_isDigit h)
  · intro hc
    rw [hc] at h
    exact absurd h (by decide)
  · intro hc
    rw [hc] at h
    exact absurd h (by decide)

/-- A mantissa starts with a digit or a point, no name of a double does. -/
theorem named?_of_mantissa {whole mantissa : Text} {fraction : Option Text}
    (h : Mantissa whole fraction mantissa) (negative : Bool) (exponent : Text) :
    named? negative (mantissa ++ exponent) = none := by
  cases h with
  | whole hw =>
    cases whole with
    | nil => exact absurd rfl hw.1
    | cons c w => exact named?_of_digit (hw.2 c (List.mem_cons_self ..)) negative _
  | pointed hw hf =>
    cases whole with
    | nil => exact absurd rfl hw.1
    | cons c w => exact named?_of_digit (hw.2 c (List.mem_cons_self ..)) negative _
  | fraction hf => exact named?_of_head (by decide) (by decide) (by decide) negative _

theorem trim_isPadding_of_spells (h : n.Spells body) (ht : Text.MayEndLine body t) :
    Text.trim isPadding t = body := by
  rcases ht with rfl | rfl
  · exact trim_isPadding h.strip
  · rw [Text.trim_append_right (List.all_eq_true.mp (by decide)), trim_isPadding h.strip]

theorem parse?_of_spells (h : n.Spells body) (ht : Text.MayEndLine body t) :
    parse? t = some n.toDouble := by
  have hplain : '_' ∉ body := h.not_mem (by decide) (by decide)
  have hread := read?_eq_some.mpr h
  simp only [parse?, trim_isPadding_of_spells h ht, ungroup?_of_not_mem hplain]
  cases h with
  | intro hsign hmantissa hexponent =>
    rw [hsign.readSign_append (hmantissa.ne_sign _)]
    simp [named?_of_mantissa hmantissa, hread]

end Double

namespace Number

open Numeral Text

variable {n : Numeral} {t body : Text}

theorem isNumeral_iff : isNumeral t = true ↔ ∃ n body, MayEndLine body t ∧ Spells n body := by
  rw [isNumeral, Option.isSome_iff_exists]
  constructor
  · intro h
    obtain ⟨n, hn⟩ := h
    exact ⟨n, dropFinalNewline t, mayEndLine_dropFinalNewline t, read?_eq_some.mp hn⟩
  · intro h
    obtain ⟨n, body, ht, hn⟩ := h
    rw [dropFinalNewline_of_mayEndLine hn.strip ht]
    exact ⟨n, read?_eq_some.mpr hn⟩

theorem integer?_of_spells (h : n.Spells body) (ht : MayEndLine body t) :
    integer? t = if n.isInteger then some n else none := by
  rw [integer?, dropFinalNewline_of_mayEndLine h.strip ht, read?_eq_some.mpr h, Option.filter_some]

theorem parse_of_not_isInteger (h : n.Spells body) (ht : MayEndLine body t)
    (hint : n.isInteger = false) : parse t = .ok (.float n.toDouble) := by
  simp [parse, integer?_of_spells h ht, hint, Double.parse?_of_spells h ht]

theorem digits_of_isInteger (h : n.Spells body) (hint : n.isInteger = true) :
    ∃ sign, Sign n.negative sign ∧ IsDigits n.whole ∧ body = sign ++ n.whole := by
  obtain ⟨negative, whole, fraction, exponent⟩ := n
  simp only [isInteger, Bool.and_eq_true, Option.isNone_iff_eq_none] at hint
  obtain ⟨rfl, rfl⟩ := hint
  exact spells_integer.mp h

theorem parse_of_digits {negative : Bool} {sign digits : Text} (hsign : Sign negative sign)
    (hdigits : IsDigits digits) (ht : MayEndLine (sign ++ digits) t)
    (hshort : digits.length ≤ maxDigits) :
    parse t = .ok (.int (signed negative (decimal digits))) := by
  have hspells : (⟨negative, digits, none, none⟩ : Numeral).Spells (sign ++ digits) :=
    spells_integer.mpr ⟨sign, hsign, hdigits, rfl⟩
  simp [parse, integer?_of_spells hspells ht, isInteger, ofIntegerNumeral, Nat.not_lt.mpr hshort,
    toInt, digitsValue_zero, Except.map]

end Number

namespace Literal

open Numeral Text

theorem allowsNumber_iff {hint : Option Text} : allowsNumber hint = true ↔
    hint ∈ [none, some "number".toList, some "integer".toList, some "decimal".toList] := by
  cases hint with
  | none => simp [allowsNumber]
  | some type => simp [allowsNumber, numericTypes]

theorem switch?_of_spells {n : Numeral} {t : Text} (h : n.Spells t) : switch? t = none := by
  have htrue : t ≠ "true".toList := by
    intro he
    apply h.not_mem (c := 't') (by decide) (by decide)
    simp [he]
  have hfalse : t ≠ "false".toList := by
    intro he
    apply h.not_mem (c := 'f') (by decide) (by decide)
    simp [he]
  rw [switch?, if_neg htrue, if_neg hfalse]

theorem coerce_ofInt {before after : Text} (hbefore : ∀ c ∈ before, isBlank c = true)
    (hafter : ∀ c ∈ after, isBlank c = true) {i : Int}
    (hshort : (ofNat i.natAbs).length ≤ Number.maxDigits) (hint : Option Text) :
    coerce hint (before ++ ofInt i ++ after) =
      .ok (if allowsNumber hint then .number (.int i) else .ofText (ofInt i)) := by
  have hspells := spells_ofInt i
  have hstrip : strip (before ++ ofInt i ++ after) = ofInt i := by
    rw [strip, trim_append_right hafter, trim_append_left hbefore]
    exact hspells.strip
  have hquote : between? doubleQuote (ofInt i) = none :=
    between?_of_not_mem (hspells.not_mem (by decide) (by decide))
  have hnumeral : Number.isNumeral (ofInt i) = true :=
    Number.isNumeral_iff.mpr ⟨_, _, .inl rfl, hspells⟩
  have hparse : Number.parse (ofInt i) = .ok (.int i) := by
    obtain ⟨sign, hsign, hdigits, hbody⟩ := spells_integer.mp hspells
    rw [Number.parse_of_digits hsign hdigits (.inl hbody) hshort, signed_decimal_ofNat]
  simp only [coerce, hstrip, hquote, switch?_of_spells hspells, hnumeral, hparse, Bool.true_and]
  split
  · rfl
  · rfl

/-- A text passes the test for numerals exactly if it is spelled by the grammar, up to a final
newline; all such texts but the integers of too many digits are read, as an integer exactly if
they are a sign and digits; and a literal that is the decimal text of an integer is that integer
where a number is allowed, and elsewhere its text. -/
theorem numerals_are_read :
    (∀ t, Number.isNumeral t = true ↔ ∃ n body, MayEndLine body t ∧ Spells n body) ∧
    (∀ t, Number.isNumeral t = true → (∀ body, MayEndLine body t → ¬LongInteger body) →
      ∃ x, Number.parse t = .ok x ∧
        ((∃ i, x = .int i) ↔
          ∃ sign digits, IsSign sign ∧ IsDigits digits ∧ MayEndLine (sign ++ digits) t) ∧
        (∀ negative sign digits, Sign negative sign → IsDigits digits →
          MayEndLine (sign ++ digits) t → x = .int (signed negative (decimal digits))) ∧
        ∀ n body, MayEndLine body t → Spells n body → n.isInteger = false →
          x = .float n.toDouble) ∧
    ∀ (i : Int) (before after : Text) (hint : Option Text), (ofNat i.natAbs).length ≤ 4300 →
      (∀ c ∈ before, isBlank c = true) → (∀ c ∈ after, isBlank c = true) →
      coerce hint (before ++ ofInt i ++ after) =
        .ok (if hint ∈ [none, some "number".toList, some "integer".toList, some "decimal".toList]
          then .number (.int i) else .ofText (ofInt i)) := by
  refine ⟨fun t => Number.isNumeral_iff, ?_, ?_⟩
  · intro t hnumeral hlong
    obtain ⟨n, body, ht, hn⟩ := Number.isNumeral_iff.mp hnumeral
    have hshort {sign digits : Text} (hsign : IsSign sign) (hdigits : IsDigits digits)
        (hline : MayEndLine (sign ++ digits) t) : digits.length ≤ Number.maxDigits := by
      apply Nat.not_lt.mp
      intro hlength
      exact hlong _ hline ⟨sign, digits, rfl, hsign, hdigits.2, hlength⟩
    obtain ⟨x, hx, hkind⟩ : ∃ x, Number.parse t = .ok x ∧
        ((∃ i, x = .int i) → n.isInteger = true) := by
      cases hint : n.isInteger with
      | false => exact ⟨_, Number.parse_of_not_isInteger hn ht hint, by simp⟩
      | true =>
        obtain ⟨sign, hsign, hdigits, rfl⟩ := Number.digits_of_isInteger hn hint
        have hlength := hshort hsign.isSign hdigits ht
        exact ⟨_, Number.parse_of_digits hsign hdigits ht hlength, fun _ => rfl⟩
    have hint (negative : Bool) (sign digits : Text) (hsign : Sign negative sign)
        (hdigits : IsDigits digits) (hline : MayEndLine (sign ++ digits) t) :
        x = .int (signed negative (decimal digits)) := by
      have hread := Number.parse_of_digits hsign hdigits hline (hshort hsign.isSign hdigits hline)
      rw [hx] at hread
      exact Except.ok.inj hread
    refine ⟨x, hx, ⟨?_, ?_⟩, hint, ?_⟩
    · intro hxint
      obtain ⟨sign, hsign, hdigits, rfl⟩ := Number.digits_of_isInteger hn (hkind hxint)
      exact ⟨sign, n.whole, hsign.isSign, hdigits, ht⟩
    · intro hxint
      obtain ⟨sign, digits, hsign, hdigits, hline⟩ := hxint
      obtain ⟨negative, hminus⟩ := hsign.sign
      exact ⟨_, hint negative sign digits hminus hdigits hline⟩
    · intro m body' hline hm hfloat
      have hread := Number.parse_of_not_isInteger hm hline hfloat
      rw [hx] at hread
      exact Except.ok.inj hread
  · intro i before after hint hlength hbefore hafter
    rw [coerce_ofInt hbefore hafter hlength]
    simp only [allowsNumber_iff]

/-- Digits of another script with a newline after them, and a literal that stays a text. -/
theorem numerals_are_read_at_line_end :
    Number.parse "-٤٢\n".toList = .ok (.int (-42)) ∧
      coerce (some "string".toList) " -42\t".toList = .ok (.ofText "-42".toList) := by
  obtain ⟨-, hread, hliteral⟩ := numerals_are_read
  constructor
  · have hdigits : IsDigits "٤٢".toList :=
      ⟨by decide, List.all_eq_true.mp (by decide : "٤٢".toList.all isDigit = true)⟩
    have hshort (body : Text) (hbody : MayEndLine body "-٤٢\n".toList) : ¬LongInteger body := by
      intro hlong
      obtain ⟨sign, digits, rfl, -, -, hlength⟩ := hlong
      have hline : (sign ++ digits).length ≤ 4 := by
        rcases hbody with h | h
        · exact (congrArg List.length h).ge
        · have heq := congrArg List.length h
          rw [List.length_append] at heq
          exact le_trans (Nat.le_add_right _ _) heq.ge
      rw [List.length_append] at hline
      rw [Number.maxDigits] at hlength
      omega
    obtain ⟨x, hx, -, hint, -⟩ := hread "-٤٢\n".toList (by decide) hshort
    rw [hx, hint true "-".toList "٤٢".toList .minus hdigits (.inr rfl)]
    rfl
  · exact hliteral (-42) [' '] ['\t'] (some "string".toList) (by decide)
      (List.all_eq_true.mp (by decide)) (List.all_eq_true.mp (by decide))

end Literal

end ModelSchema
