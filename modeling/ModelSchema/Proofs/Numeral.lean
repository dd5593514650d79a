import ModelSchema.Proofs.Attempt
import ModelSchema.Proofs.Text

namespace ModelSchema

/-- The sign in front of a numeral, if there is one. -/
def Numeral.IsSign (sign : Text) : Prop := sign = [] ∨ sign = ['+'] ∨ sign = ['-']

/-- An integer of more digits than can be read. -/
def LongInteger (t : Text) : Prop :=
  ∃ sign digits, t = sign ++ digits ∧ Numeral.IsSign sign ∧
    (∀ c ∈ digits, Text.isDigit c = true) ∧ Number.maxDigits < digits.length

namespace Numeral

/-- The characters of a numeral beside its digits. -/
def marks : List Char := ['+', '-', '.', 'e', 'E']

theorem IsSign.mem_marks {sign : Text} (h : IsSign sign) : ∀ c ∈ sign, c ∈ marks := by
  rcases h with rfl | rfl | rfl <;> simp [marks]

theorem readSign_eq (t : Text) : ∃ sign, t = sign ++ (readSign t).2 ∧ IsSign sign := by
  unfold readSign
  split
  · exact ⟨['+'], rfl, .inr (.inl rfl)⟩
  · exact ⟨['-'], rfl, .inr (.inr rfl)⟩
  · exact ⟨[], rfl, .inl rfl⟩

theorem readSign_append {sign rest : Text} (hsign : IsSign sign)
    (hrest : ∀ c ∈ rest.head?, c ≠ '+' ∧ c ≠ '-') : (readSign (sign ++ rest)).2 = rest := by
  rcases hsign with rfl | rfl | rfl
  · cases rest with
    | nil => rfl
    | cons c rest =>
      obtain ⟨hplus, hminus⟩ := hrest c rfl
      simp only [List.nil_append]
      unfold readSign
      split <;> simp_all
  · rfl
  · rfl

theorem readExponent?_chars {t : Text} {e : Option (Bool × Text)} (h : readExponent? t = some e) :
    ∀ c ∈ t, Text.isDigit c = true ∨ c ∈ marks := by
  cases t with
  | nil => simp
  | cons c t =>
    simp only [readExponent?] at h
    split at h
    · rename_i hexponent
      simp only [Bool.and_eq_true, Bool.or_eq_true, beq_iff_eq, List.all_eq_true] at hexponent
      obtain ⟨⟨hletter, -⟩, hdigits⟩ := hexponent
      obtain ⟨sign, ht, hsign⟩ := readSign_eq t
      intro d hd
      rw [ht, List.mem_cons, List.mem_append] at hd
      rcases hd with rfl | hd | hd
      · rcases hletter with rfl | rfl <;> simp [marks]
      · exact .inr (hsign.mem_marks d hd)
      · exact .inl (hdigits d hd)
    · cases h

theorem readUnsigned?_chars {negative : Bool} {t : Text} {n : Numeral}
    (h : readUnsigned? negative t = some n) : ∀ c ∈ t, Text.isDigit c = true ∨ c ∈ marks := by
  intro c hc
  rw [← List.takeWhile_append_dropWhile (p := Text.isDigit) (l := t), List.mem_append] at hc
  rcases hc with hc | hc
  · exact .inl (Text.takeWhile_all t c hc)
  · simp only [readUnsigned?] at h
    split at h
    · rename_i rest hrest
      split at h
      · cases h
      · obtain ⟨e, he, -⟩ := Option.map_eq_some_iff.mp h
        rw [hrest, List.mem_cons,
          ← List.takeWhile_append_dropWhile (p := Text.isDigit) (l := rest), List.mem_append] at hc
        rcases hc with rfl | hc | hc
        · exact .inr (by simp [marks])
        · exact .inl (Text.takeWhile_all rest c hc)
        · exact readExponent?_chars he c hc
    · split at h
      · cases h
      · obtain ⟨e, he, -⟩ := Option.map_eq_some_iff.mp h
        exact readExponent?_chars he c hc

theorem read?_chars {t : Text} {n : Numeral} (h : read? t = some n) :
    ∀ c ∈ t, Text.isDigit c = true ∨ c ∈ marks := by
  obtain ⟨sign, ht, hsign⟩ := readSign_eq t
  intro c hc
  rw [ht, List.mem_append] at hc
  rcases hc with hc | hc
  · exact .inr (hsign.mem_marks c hc)
  · exact readUnsigned?_chars h c hc

/-- Digits and the marks of numerals leave out all other characters. -/
theorem not_mem_of_chars {t : Text} (h : ∀ c ∈ t, Text.isDigit c = true ∨ c ∈ marks) {c : Char}
    (hdigit : Text.isDigit c = false) (hmark : c ∉ marks) : c ∉ t := by
  intro hc
  rcases h c hc with hd | hm
  · rw [hdigit] at hd
    cases hd
  · exact hmark hm

/-- An integer numeral is a sign, if any, and the digits of its whole part. -/
theorem read?_integer {t : Text} {n : Numeral} (h : read? t = some n) (hint : n.isInteger = true) :
    ∃ sign, t = sign ++ n.whole ∧ IsSign sign ∧ ∀ c ∈ n.whole, Text.isDigit c = true := by
  obtain ⟨sign, ht, hsign⟩ := readSign_eq t
  simp only [read?, readUnsigned?] at h
  split at h
  · split at h
    · cases h
    · obtain ⟨e, -, rfl⟩ := Option.map_eq_some_iff.mp h
      simp [isInteger] at hint
  · split at h
    · cases h
    · obtain ⟨e, he, rfl⟩ := Option.map_eq_some_iff.mp h
      refine ⟨sign, ?_, hsign, Text.takeWhile_all _⟩
      -- Anything after the digits would be an exponent.
      have hrest : (readSign t).2.dropWhile Text.isDigit = [] := by
        cases hdrop : (readSign t).2.dropWhile Text.isDigit with
        | nil => rfl
        | cons c rest =>
          rw [hdrop] at he
          simp only [readExponent?] at he
          split at he
          · cases he
            simp [isInteger] at hint
          · cases he
      have hwhole := List.takeWhile_append_dropWhile (p := Text.isDigit) (l := (readSign t).2)
      rw [hrest, List.append_nil] at hwhole
      simp only [hwhole]
      exact ht

theorem read?_of_digits {sign digits : Text} (hsign : IsSign sign)
    (hdigits : ∀ c ∈ digits, Text.isDigit c = true) (hne : digits ≠ []) :
    ∃ negative, read? (sign ++ digits) = some ⟨negative, digits, none, none⟩ := by
  have hhead : ∀ c ∈ digits.head?, c ≠ '+' ∧ c ≠ '-' := by
    intro c hc
    have hdigit := hdigits c (List.mem_of_mem_head? hc)
    constructor
    · rintro rfl
      exact absurd hdigit (by decide)
    · rintro rfl
      exact absurd hdigit (by decide)
  have hrest := readSign_append hsign hhead
  have hspan := Text.span_append (b := []) hdigits (by simp)
  rw [List.append_nil] at hspan
  refine ⟨(readSign (sign ++ digits)).1, ?_⟩
  simp [read?, readUnsigned?, hrest, hspan.1, hspan.2, hne, readExponent?]

end Numeral

namespace Double

theorem ungroup?_of_not_mem {t : Text} (h : '_' ∉ t) (before : Bool) :
    ungroup? before t = some t := by
  induction t generalizing before with
  | nil => rfl
  | cons c t ih =>
    have hc : ¬c = '_' := fun e => h (by simp [e])
    have ht : '_' ∉ t := fun hmem => h (by simp [hmem])
    have hstep : ungroup? before (c :: t) = (ungroup? (Text.isDigit c) t).map (c :: ·) := by
      cases t <;> simp [ungroup?, hc]
    rw [hstep, ih ht]
    rfl

theorem trim_isPadding {t : Text} (hstrip : Text.strip t = t) : Text.trim isPadding t = t := by
  have hblank (c : Char) (hc : Text.isBlank c = false) : isPadding c = false := by
    simp [isPadding, hc]
  refine Text.trim_of_ends (fun c hc => hblank c ?_) (fun c hc => hblank c ?_)
  · rw [← hstrip] at hc
    exact Text.head?_trim _ _ c hc
  · rw [← hstrip] at hc
    exact Text.getLast?_trim _ _ c hc

theorem parse?_of_numeral {t : Text} {n : Numeral} (hstrip : Text.strip t = t)
    (h : Numeral.read? t = some n) : ∃ x, parse? t = some x := by
  have hplain : '_' ∉ t :=
    Numeral.not_mem_of_chars (Numeral.read?_chars h) (by decide) (by decide)
  simp only [parse?, trim_isPadding hstrip, ungroup?_of_not_mem hplain, Option.bind_some, h,
    Option.map_some]
  split
  · exact ⟨_, rfl⟩
  · exact ⟨_, rfl⟩

end Double

namespace LongInteger

variable {t : Text}

theorem chars (h : LongInteger t) : ∀ c ∈ t, Text.isDigit c = true ∨ c ∈ Numeral.marks := by
  obtain ⟨sign, digits, rfl, hsign, hdigits, -⟩ := h
  intro c hc
  rcases List.mem_append.mp hc with hc | hc
  · exact .inr (hsign.mem_marks c hc)
  · exact .inl (hdigits c hc)

theorem not_mem (h : LongInteger t) {c : Char} (hdigit : Text.isDigit c = false)
    (hmark : c ∉ Numeral.marks) : c ∉ t :=
  Numeral.not_mem_of_chars h.chars hdigit hmark

end LongInteger

namespace Number

variable {t : Text}

theorem dropFinalNewline_of_strip (hstrip : Text.strip t = t) : Text.dropFinalNewline t = t := by
  unfold Text.dropFinalNewline
  split
  · rename_i front hlast
    have ht := Text.splitLast?_eq_some.mp hlast
    have hblank : Text.isBlank '\n' = false := by
      apply Text.getLast?_trim Text.isBlank t
      change '\n' ∈ (Text.strip t).getLast?
      rw [hstrip, ht]
      simp
    cases hblank
  · rfl

theorem integer?_long (hstrip : Text.strip t = t) :
    (∃ n, integer? t = some n ∧ maxDigits < n.whole.length) ↔ LongInteger t := by
  simp only [integer?, dropFinalNewline_of_strip hstrip]
  constructor
  · rintro ⟨n, hn, hlong⟩
    obtain ⟨hread, hint⟩ := Option.filter_eq_some_iff.mp hn
    obtain ⟨sign, ht, hsign, hdigits⟩ := Numeral.read?_integer hread hint
    exact ⟨sign, n.whole, ht, hsign, hdigits, hlong⟩
  · rintro ⟨sign, digits, rfl, hsign, hdigits, hlong⟩
    have hne : digits ≠ [] := by
      rintro rfl
      simp at hlong
    obtain ⟨negative, hread⟩ := Numeral.read?_of_digits hsign hdigits hne
    exact ⟨_, Option.filter_eq_some_iff.mpr ⟨hread, rfl⟩, hlong⟩

theorem ofIntegerNumeral_eq_error {n : Numeral} :
    (∃ f, ofIntegerNumeral n = .error f) ↔ maxDigits < n.whole.length := by
  unfold ofIntegerNumeral
  split <;> simp_all

/-- A numeral is refused exactly if it is a long integer. -/
theorem parse_eq_error (hstrip : Text.strip t = t) :
    (isNumeral t = true ∧ ∃ f, parse t = .error f) ↔ LongInteger t := by
  rw [← integer?_long hstrip]
  unfold parse
  cases hint : integer? t with
  | some n =>
    have hnumeral : isNumeral t = true := by
      obtain ⟨hread, -⟩ := Option.filter_eq_some_iff.mp hint
      simp [isNumeral, hread]
    simp only [Attempt.map_eq_error, ofIntegerNumeral_eq_error, hnumeral, true_and,
      Option.some.injEq, exists_eq_left']
  | none =>
    simp only [reduceCtorEq, false_and, exists_false, iff_false, not_and]
    intro hnumeral
    rw [isNumeral, dropFinalNewline_of_strip hstrip, Option.isSome_iff_exists] at hnumeral
    obtain ⟨n, hread⟩ := hnumeral
    obtain ⟨x, hx⟩ := Double.parse?_of_numeral hstrip hread
    simp [hx]

end Number

namespace Literal

theorem between?_of_not_mem {quote : Char} {t : Text} (h : quote ∉ t) :
    between? quote t = none := by
  cases t with
  | nil => rfl
  | cons c t =>
    have hne : ¬c = quote := fun e => h (by simp [e])
    simp only [between?]
    split
    · simp [hne]
    · rfl

/-- A literal is refused exactly if it is a long integer and a number is allowed. -/
theorem coerce_eq_error {hint : Option Text} {raw : Text} :
    (∃ f, coerce hint raw = .error f) ↔
      allowsNumber hint = true ∧ LongInteger (Text.strip raw) := by
  have hparse := Number.parse_eq_error (Text.strip_strip raw)
  unfold coerce
  dsimp only
  constructor
  · rintro ⟨f, hf⟩
    split at hf
    · cases hf
    · split at hf
      · cases hf
      · split at hf
        · rename_i hnumber
          obtain ⟨hnumeral, hallowed⟩ := Bool.and_eq_true_iff.mp hnumber
          exact ⟨hallowed, hparse.mp ⟨hnumeral, f, Attempt.map_eq_error.mp hf⟩⟩
        · cases hf
  · -- A long integer is neither quoted nor a switch.
    rintro ⟨hallowed, hlong⟩
    have hquote : between? Text.doubleQuote _ = none :=
      between?_of_not_mem (hlong.not_mem (by decide) (by decide))
    have hswitch : switch? (Text.strip raw) = none := by
      have htrue : Text.strip raw ≠ "true".toList := fun e =>
        hlong.not_mem (c := 't') (by decide) (by decide) (by simp [e])
      have hfalse : Text.strip raw ≠ "false".toList := fun e =>
        hlong.not_mem (c := 'f') (by decide) (by decide) (by simp [e])
      rw [switch?, if_neg htrue, if_neg hfalse]
    obtain ⟨hnumeral, f, hf⟩ := hparse.mpr hlong
    refine ⟨f, ?_⟩
    simp only [hquote, hswitch, hnumeral, hallowed, Bool.and_self, if_true]
    exact Attempt.map_eq_error.mpr hf

end Literal

end ModelSchema
