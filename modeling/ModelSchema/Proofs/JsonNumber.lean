import ModelSchema.Json.Writer
import ModelSchema.Proofs.Numeral

namespace ModelSchema

def Number.isFinite : Number → Bool
  | .int _ => true
  | .float x => x.isFinite

namespace Json

/-- One decimal digit or more. -/
def Digits (t : Text) : Prop := t ≠ [] ∧ ∀ c ∈ t, c.isDigit = true

/-- Digits without a zero in front of others. -/
inductive Whole : Text → Prop
  | zero : Whole ['0']
  | positive {c : Char} {t : Text} (hc : c.isDigit = true) (hne : c ≠ '0')
      (ht : ∀ d ∈ t, d.isDigit = true) : Whole (c :: t)

inductive Fraction : Text → Prop
  | absent : Fraction []
  | present {t : Text} (ht : Digits t) : Fraction ('.' :: t)

inductive Exponent : Text → Prop
  | absent : Exponent []
  | present {letter : Char} {sign t : Text} (hletter : letter = 'e' ∨ letter = 'E')
      (hsign : Numeral.IsSign sign) (ht : Digits t) : Exponent (letter :: (sign ++ t))

/-- A number without a sign. -/
inductive Magnitude : Text → Prop
  | intro {whole fraction exponent : Text} (hwhole : Whole whole) (hfraction : Fraction fraction)
      (hexponent : Exponent exponent) : Magnitude (whole ++ (fraction ++ exponent))

inductive IsNumber : Text → Prop
  | positive {t : Text} (h : Magnitude t) : IsNumber t
  | negative {t : Text} (h : Magnitude t) : IsNumber ('-' :: t)

/-- The characters of numbers. -/
def isNumberCharacter (c : Char) : Bool := c.isDigit || Numeral.marks.contains c

theorem Digits.all {t : Text} (h : Digits t) : ∀ c ∈ t, isNumberCharacter c = true := by
  intro c hc
  simp [isNumberCharacter, h.2 c hc]

theorem isNumberCharacter_of_mark {c : Char} (h : c ∈ Numeral.marks) :
    isNumberCharacter c = true := by
  simp [isNumberCharacter, h]

theorem Whole.all {t : Text} (h : Whole t) : ∀ c ∈ t, isNumberCharacter c = true := by
  intro c hc
  cases h with
  | zero => simp_all [isNumberCharacter]
  | positive hfirst hne ht =>
    rcases List.mem_cons.mp hc with rfl | hmem
    · simp [isNumberCharacter, hfirst]
    · simp [isNumberCharacter, ht c hmem]

theorem Fraction.all {t : Text} (h : Fraction t) : ∀ c ∈ t, isNumberCharacter c = true := by
  intro c hc
  cases h with
  | absent => cases hc
  | present ht =>
    rcases List.mem_cons.mp hc with rfl | hmem
    · rfl
    · exact ht.all c hmem

theorem Exponent.all {t : Text} (h : Exponent t) : ∀ c ∈ t, isNumberCharacter c = true := by
  intro c hc
  cases h with
  | absent => cases hc
  | present hletter hsign ht =>
    rcases List.mem_cons.mp hc with rfl | hmem
    · rcases hletter with rfl | rfl
      · rfl
      · rfl
    · rcases List.mem_append.mp hmem with hmem | hmem
      · exact isNumberCharacter_of_mark (hsign.mem_marks c hmem)
      · exact ht.all c hmem

theorem Magnitude.all {t : Text} (h : Magnitude t) : ∀ c ∈ t, isNumberCharacter c = true := by
  cases h with
  | intro hwhole hfraction hexponent =>
    intro c hc
    rcases List.mem_append.mp hc with hc | hc
    · exact hwhole.all c hc
    · rcases List.mem_append.mp hc with hc | hc
      · exact hfraction.all c hc
      · exact hexponent.all c hc

theorem IsNumber.all {t : Text} (h : IsNumber t) : ∀ c ∈ t, isNumberCharacter c = true := by
  intro c hc
  cases h with
  | positive h => exact h.all c hc
  | negative h =>
    rcases List.mem_cons.mp hc with rfl | hmem
    · rfl
    · exact h.all c hmem

theorem digits_ofNat (n : Nat) : Digits (Text.ofNat n) :=
  ⟨Nat.toDigits_ne_nil, fun _ => Nat.isDigit_of_mem_toDigits (by decide) (by decide)⟩

/-- A positive number does not start with a zero. -/
theorem ofNat_of_pos {n : Nat} (h : 0 < n) : ∃ c t, Text.ofNat n = c :: t ∧ c ≠ '0' := by
  induction n using Nat.strongRecOn with
  | ind n ih =>
    by_cases hsmall : n < 10
    · refine ⟨n.digitChar, [], Nat.toDigits_of_lt_base hsmall, ?_⟩
      have hnonzero : ∀ k < 10, 0 < k → k.digitChar ≠ '0' := by decide
      exact hnonzero n hsmall h
    · obtain ⟨c, t, hfront, hc⟩ := ih (n / 10) (by omega) (by omega)
      refine ⟨c, t ++ [(n % 10).digitChar], ?_, hc⟩
      rw [Text.ofNat] at hfront ⊢
      rw [Nat.toDigits_of_base_le (by decide) (by omega), hfront]
      rfl

theorem whole_ofNat (n : Nat) : Whole (Text.ofNat n) := by
  rcases Nat.eq_zero_or_pos n with rfl | hpos
  · exact .zero
  · obtain ⟨c, t, hdigits, hc⟩ := ofNat_of_pos hpos
    have hall := (digits_ofNat n).2
    rw [hdigits] at hall ⊢
    obtain ⟨hfirst, hrest⟩ := List.forall_mem_cons.mp hall
    exact .positive hfirst hc hrest

theorem isNumber_ofInt (n : Int) : IsNumber (Text.ofInt n) := by
  have hwhole := Magnitude.intro (whole_ofNat n.natAbs) .absent .absent
  rw [List.append_nil, List.append_nil] at hwhole
  unfold Text.ofInt
  split
  · exact .negative hwhole
  · exact .positive hwhole

theorem zeros_isDigit (n : Nat) : ∀ c ∈ List.replicate n '0', c.isDigit = true := by
  intro c hc
  rw [List.eq_of_mem_replicate hc]
  rfl

theorem digits_append {s t : Text} (hs : ∀ c ∈ s, c.isDigit = true) (ht : Digits t) :
    Digits (s ++ t) := by
  refine ⟨List.append_ne_nil_of_right_ne_nil s ht.1, fun c hc => ?_⟩
  rcases List.mem_append.mp hc with hc | hc
  · exact hs c hc
  · exact ht.2 c hc

/-- The first digit stays, since it is not zero. -/
theorem significantDigits_of_pos {n : Nat} (h : 0 < n) :
    ∃ c t, Double.significantDigits n = c :: t ∧ c.isDigit = true ∧ c ≠ '0' ∧
      ∀ d ∈ t, d.isDigit = true := by
  obtain ⟨c, t, hdigits, hc⟩ := ofNat_of_pos h
  have hall := (digits_ofNat n).2
  rw [hdigits] at hall
  obtain ⟨hfirst, hrest⟩ := List.forall_mem_cons.mp hall
  have hlast : [c].dropWhile (· == '0') = [c] := by simp [hc]
  refine ⟨c, (t.reverse.dropWhile (· == '0')).reverse, ?_, hfirst, hc, ?_⟩
  · rw [Double.significantDigits, hdigits, List.reverse_cons, List.dropWhile_append, hlast]
    split
    · rename_i hempty
      rw [List.isEmpty_iff.mp hempty]
      rfl
    · simp
  · intro d hd
    apply hrest d
    exact List.mem_reverse.mp ((List.dropWhile_sublist _).subset (List.mem_reverse.mp hd))

theorem exponent_exponentText (e : Int) : Exponent ('e' :: Double.exponentText e) := by
  have hdigits := digits_append (zeros_isDigit (2 - (Text.ofNat e.natAbs).length))
    (digits_ofNat e.natAbs)
  unfold Double.exponentText
  split
  · exact .present (.inl rfl) (.inr (.inr rfl)) hdigits
  · exact .present (.inl rfl) (.inr (.inl rfl)) hdigits

section

variable {c : Char} {t : Text} (hc : c.isDigit = true) (ht : ∀ d ∈ t, d.isDigit = true)

include hc ht

theorem magnitude_layDigits_scientific (hne : c ≠ '0') {e : Int} (he : e < -4 ∨ 16 ≤ e) :
    Magnitude (Double.layDigits (c :: t) e) := by
  have hfirst : Whole [c] := .positive hc hne (by simp)
  unfold Double.layDigits
  rw [if_pos he]
  cases t with
  | nil => exact .intro hfirst .absent (exponent_exponentText e)
  | cons d rest => exact .intro hfirst (.present ⟨by simp, ht⟩) (exponent_exponentText e)

theorem magnitude_layDigits_small {e : Int} (he : ¬(e < -4 ∨ 16 ≤ e)) (hneg : e < 0) :
    Magnitude (Double.layDigits (c :: t) e) := by
  have hdigits : Digits (c :: t) := ⟨by simp, List.forall_mem_cons.mpr ⟨hc, ht⟩⟩
  have hfraction := Fraction.present (digits_append (zeros_isDigit (e.natAbs - 1)) hdigits)
  have hnumber := Magnitude.intro .zero hfraction .absent
  unfold Double.layDigits
  rw [if_neg he, if_pos hneg]
  rwa [List.append_nil] at hnumber

theorem magnitude_layDigits_large (hne : c ≠ '0') {e : Int} (he : ¬(e < -4 ∨ 16 ≤ e))
    (hneg : ¬e < 0) :
    Magnitude (Double.layDigits (c :: t) e) := by
  have hwhole (n : Nat) : Whole (c :: t.take e.natAbs ++ List.replicate n '0') := by
    apply Whole.positive hc hne
    intro d hd
    rcases List.mem_append.mp hd with hd | hd
    · exact ht d (List.mem_of_mem_take hd)
    · exact zeros_isDigit n d hd
  have hfraction : Digits (if (t.drop e.natAbs).isEmpty then ['0'] else t.drop e.natAbs) := by
    split
    · exact ⟨by simp, by simp⟩
    · rename_i hrest
      exact ⟨by simpa using hrest, fun d hd => ht d (List.mem_of_mem_drop hd)⟩
  have hnumber := Magnitude.intro (hwhole (e.natAbs + 1 - (c :: t.take e.natAbs).length))
    (.present hfraction) .absent
  unfold Double.layDigits
  rw [if_neg he, if_neg hneg]
  rwa [List.append_nil] at hnumber

theorem magnitude_layDigits (hne : c ≠ '0') (e : Int) :
    Magnitude (Double.layDigits (c :: t) e) := by
  by_cases he : e < -4 ∨ 16 ≤ e
  · exact magnitude_layDigits_scientific hc ht hne he
  · by_cases hneg : e < 0
    · exact magnitude_layDigits_small hc ht he hneg
    · exact magnitude_layDigits_large hc ht hne he hneg

end

/-- Where no decimal reads back the text is that of zero. -/
theorem shortest_digits {m : Nat} (hm : m ≠ 0) (e : Int) :
    0 < (Double.shortest m e).digits ∨ Double.shortest m e = ⟨0, 0⟩ := by
  unfold Double.shortest
  dsimp only
  generalize hfound : List.findSome? _ (List.range 17) = found
  cases found with
  | none => exact .inr rfl
  | some d =>
    left
    obtain ⟨i, -, hi⟩ := List.exists_of_findSome?_eq_some hfound
    have hback : d.toDouble = .finite false m e := by simpa using List.find?_some hi
    apply Nat.pos_of_ne_zero
    intro hdigits
    have hzero : d.digits = 0 := hdigits
    apply hm
    rw [Double.Decimal.toDouble, Double.ofDecimal, if_pos hzero, Double.zero] at hback
    injection hback with _ hsignificand
    exact hsignificand.symm

theorem magnitude_magnitudeText (m : Nat) (e : Int) : Magnitude (Double.magnitudeText m e) := by
  have hzero : Magnitude ['0', '.', '0'] :=
    .intro .zero (.present (t := ['0']) ⟨by simp, by simp⟩) .absent
  unfold Double.magnitudeText
  split
  · exact hzero
  · rename_i hm
    dsimp only
    rcases shortest_digits hm e with hpos | hnone
    · obtain ⟨c, t, hdigits, hc, hne, ht⟩ := significantDigits_of_pos hpos
      rw [hdigits]
      exact magnitude_layDigits hc ht hne _
    · rw [hnone]
      exact hzero

/-- A finite number is written in the grammar. -/
theorem isNumber_writeNumber {x : Number} (h : x.isFinite = true) : IsNumber (writeNumber x) := by
  cases x with
  | int n => exact isNumber_ofInt n
  | float d =>
    cases d with
    | finite negative m e =>
      simp only [writeNumber, Double.write]
      split
      · exact .negative (magnitude_magnitudeText m e)
      · exact .positive (magnitude_magnitudeText m e)
    | infinite negative => cases h
    | nan => cases h

end Json

end ModelSchema
