import ModelSchema.Text.Blank
import ModelSchema.Text.Word

namespace ModelSchema.Text

theorem after?_eq_some {head t rest : Text} : after? head t = some rest ↔ t = head ++ rest := by
  induction head generalizing t with
  | nil => simp [after?]
  | cons h hs ih =>
    cases t with
    | nil => simp [after?]
    | cons c t =>
      by_cases hc : h = c
      · subst hc
        simp [after?, ih]
      · have hne : ¬c = h := fun e => hc e.symm
        simp [after?, hc, hne]

theorem startsWith_iff {head t : Text} : startsWith head t = true ↔ head <+: t := by
  simp only [startsWith, Option.isSome_iff_exists, after?_eq_some]
  constructor
  · rintro ⟨rest, rfl⟩
    exact List.prefix_append head rest
  · rintro ⟨rest, rfl⟩
    exact ⟨rest, rfl⟩

theorem cut?_eq_some {sep : Char} {t a b : Text} :
    cut? sep t = some (a, b) ↔ t = a ++ sep :: b ∧ sep ∉ a := by
  induction t generalizing a with
  | nil => simp [cut?]
  | cons c t ih =>
    by_cases hc : c = sep
    · subst hc
      cases a with
      | nil => simp [cut?]
      | cons d a =>
        simp only [cut?, beq_self_eq_true, if_true, Option.some.injEq, Prod.mk.injEq,
          List.cons_append, List.cons.injEq, List.mem_cons, not_or]
        constructor
        · rintro ⟨h, -⟩
          cases h
        · rintro ⟨⟨h, -⟩, hne, -⟩
          exact absurd h hne
    · have hne : ¬sep = c := fun e => hc e.symm
      cases a with
      | nil => simp [cut?, hc]
      | cons d a =>
        have hstep : cut? sep (c :: t) = some (d :: a, b) ↔ c = d ∧ cut? sep t = some (a, b) := by
          simp only [cut?, beq_iff_eq, hc, if_false, Option.map_eq_some_iff, Prod.exists,
            Prod.mk.injEq, List.cons.injEq]
          constructor
          · rintro ⟨x, y, hxy, ⟨rfl, rfl⟩, rfl⟩
            exact ⟨rfl, hxy⟩
          · rintro ⟨rfl, h⟩
            exact ⟨a, b, h, ⟨rfl, rfl⟩, rfl⟩
        rw [hstep, ih]
        constructor
        · rintro ⟨rfl, rfl, h⟩
          simp [hne, h]
        · rintro ⟨h, hs⟩
          simp only [List.cons_append, List.cons.injEq] at h
          simp only [List.mem_cons, not_or] at hs
          exact ⟨h.1, h.2, hs.2⟩

theorem cut?_eq_none {sep : Char} {t : Text} : cut? sep t = none ↔ sep ∉ t := by
  induction t with
  | nil => simp [cut?]
  | cons c t ih =>
    by_cases hc : c = sep
    · simp [cut?, hc]
    · have hne : ¬sep = c := fun e => hc e.symm
      simp [cut?, hc, ih, hne]

theorem splitOn_ne_nil (sep : Char) (t : Text) : splitOn sep t ≠ [] := by
  cases t with
  | nil => simp [splitOn]
  | cons c t =>
    simp only [splitOn]
    split
    · simp
    · cases splitOn sep t <;> simp [consFirst]

theorem splitOn_append (sep : Char) (a b : Text) :
    splitOn sep (a ++ sep :: b) = splitOn sep a ++ splitOn sep b := by
  induction a with
  | nil => simp [splitOn]
  | cons c a ih =>
    simp only [List.cons_append, splitOn, ih]
    split
    · rfl
    · cases h : splitOn sep a with
      | nil => exact absurd h (splitOn_ne_nil sep a)
      | cons p ps => rfl

theorem splitLast?_eq_some {t front : Text} {last : Char} :
    splitLast? t = some (front, last) ↔ t = front ++ [last] := by
  induction t generalizing front last with
  | nil => simp [splitLast?]
  | cons c t ih =>
    simp only [splitLast?]
    cases hsplit : splitLast? t with
    | none =>
      have hnil : t = [] := by
        cases t with
        | nil => rfl
        | cons d t =>
          simp only [splitLast?] at hsplit
          split at hsplit <;> cases hsplit
      cases front with
      | nil => simp [hnil]
      | cons d front => simp [hnil]
    | some p =>
      have ht : t = p.1 ++ [p.2] := ih.mp hsplit
      cases front with
      | nil => simp [ht]
      | cons d front =>
        simp only [Option.some.injEq, Prod.mk.injEq, List.cons.injEq, List.cons_append, ht]
        constructor
        · rintro ⟨⟨hc, hfront⟩, hlast⟩
          exact ⟨hc, by rw [hfront, hlast]⟩
        · rintro ⟨hc, hrest⟩
          obtain ⟨hfront, hlast⟩ := List.append_inj' hrest rfl
          exact ⟨⟨hc, hfront⟩, by simpa using hlast⟩

theorem enclosed?_eq_some {head t inner : Text} (h : enclosed? head t = some inner) :
    t = head ++ (inner ++ [')']) := by
  unfold enclosed? at h
  split at h
  · rename_i body hbody
    cases h
    obtain ⟨rest, hafter, hlast⟩ := Option.bind_eq_some_iff.mp hbody
    rw [after?_eq_some.mp hafter, splitLast?_eq_some.mp hlast]
  · cases h

theorem enclosed?_append (head inner : Text) :
    enclosed? head (head ++ (inner ++ [')'])) = some inner := by
  have hafter : after? head (head ++ (inner ++ [')'])) = some (inner ++ [')']) :=
    after?_eq_some.mpr rfl
  have hlast : splitLast? (inner ++ [')']) = some (inner, ')') := splitLast?_eq_some.mpr rfl
  simp [enclosed?, hafter, hlast]

/-- A run of characters of `p` ends where the first other character stands. -/
theorem span_append {p : Char → Bool} {a b : Text} (ha : ∀ c ∈ a, p c = true)
    (hb : ∀ c ∈ b.head?, p c = false) :
    (a ++ b).takeWhile p = a ∧ (a ++ b).dropWhile p = b := by
  rw [List.takeWhile_append_of_pos ha, List.dropWhile_append_of_pos ha]
  cases b with
  | nil => simp
  | cons c b =>
    have hc : p c = false := hb c rfl
    simp [hc]

/-- The first character after a run is not of the run. -/
theorem head?_dropWhile {p : Char → Bool} (t : Text) :
    ∀ c ∈ (t.dropWhile p).head?, p c = false := by
  induction t with
  | nil => simp
  | cons c t ih =>
    cases hc : p c with
    | true => simpa [hc] using ih
    | false => simp [hc]

theorem takeWhile_all {p : Char → Bool} (t : Text) : ∀ c ∈ t.takeWhile p, p c = true := by
  intro c hc
  exact List.all_eq_true.mp (List.all_takeWhile) c hc

theorem trim_eq (p : Char → Bool) (t : Text) : ∃ before after,
    t = before ++ trim p t ++ after ∧ before = t.takeWhile p ∧ (∀ c ∈ after, p c = true) := by
  let rest := t.dropWhile p
  refine ⟨t.takeWhile p, (rest.reverse.takeWhile p).reverse, ?_, rfl, ?_⟩
  · have hrest : trim p t ++ (rest.reverse.takeWhile p).reverse = rest := by
      rw [trim, ← List.reverse_append, List.takeWhile_append_dropWhile, List.reverse_reverse]
    rw [List.append_assoc, hrest, List.takeWhile_append_dropWhile]
  · intro c hc
    exact takeWhile_all _ c (List.mem_reverse.mp hc)

/-- A trimmed text does not end with a trimmed character. -/
theorem getLast?_trim (p : Char → Bool) (t : Text) : ∀ c ∈ (trim p t).getLast?, p c = false := by
  intro c hc
  rw [trim, List.getLast?_reverse] at hc
  exact head?_dropWhile _ c hc

/-- A trimmed text does not start with a trimmed character. -/
theorem head?_trim (p : Char → Bool) (t : Text) : ∀ c ∈ (trim p t).head?, p c = false := by
  intro c hc
  obtain ⟨before, after, ht, hbefore, -⟩ := trim_eq p t
  have hrest : t.dropWhile p = trim p t ++ after := by
    have hsplit : t.takeWhile p ++ t.dropWhile p = t.takeWhile p ++ (trim p t ++ after) := by
      rw [List.takeWhile_append_dropWhile, ← hbefore, ← List.append_assoc]
      exact ht
    exact List.append_cancel_left hsplit
  apply head?_dropWhile t c
  rw [hrest]
  cases htrim : trim p t with
  | nil => simp [htrim] at hc
  | cons d s => simpa [htrim] using hc

theorem trim_of_ends {p : Char → Bool} {t : Text} (hhead : ∀ c ∈ t.head?, p c = false)
    (hlast : ∀ c ∈ t.getLast?, p c = false) : trim p t = t := by
  have hfront : t.dropWhile p = t := by
    cases t with
    | nil => rfl
    | cons c t => simp [hhead c rfl]
  have hback : t.reverse.dropWhile p = t.reverse := by
    cases hrev : t.reverse with
    | nil => rfl
    | cons c s =>
      have hc : p c = false := by
        apply hlast
        rw [← List.head?_reverse, hrev]
        rfl
      simp [hc]
  rw [trim, hfront, hback, List.reverse_reverse]

theorem trim_trim (p : Char → Bool) (t : Text) : trim p (trim p t) = trim p t :=
  trim_of_ends (head?_trim p t) (getLast?_trim p t)

theorem strip_strip (t : Text) : strip (strip t) = strip t := trim_trim isBlank t

theorem trim_append_left {p : Char → Bool} {a : Text} (ha : ∀ c ∈ a, p c = true) (t : Text) :
    trim p (a ++ t) = trim p t := by
  rw [trim, trim, List.dropWhile_append_of_pos ha]

theorem trim_append_right {p : Char → Bool} {a : Text} (ha : ∀ c ∈ a, p c = true) (t : Text) :
    trim p (t ++ a) = trim p t := by
  have hback : ∀ c ∈ a.reverse, p c = true := fun c hc => ha c (List.mem_reverse.mp hc)
  rw [trim, trim, List.dropWhile_append]
  cases hrest : t.dropWhile p with
  | nil =>
    have hnone := (span_append (b := []) ha (by simp)).2
    rw [List.append_nil] at hnone
    simp [hnone]
  | cons c rest =>
    simp only [List.isEmpty_cons, Bool.false_eq_true, if_false]
    rw [List.reverse_append, List.dropWhile_append_of_pos hback]

/-- No range of one list meets a range of the other. -/
def Ranges.apart (rs ss : Ranges) : Bool :=
  rs.all fun r => ss.all fun s => decide (r.2 < s.1 ∨ s.2 < r.1)

theorem Ranges.not_has_of_apart {rs ss : Ranges} {c : Char} (hapart : rs.apart ss = true)
    (hr : rs.has c = true) : ss.has c = false := by
  simp only [has, List.any_eq_true, Bool.and_eq_true, decide_eq_true_eq] at hr
  obtain ⟨r, hmem, hlow, hhigh⟩ := hr
  rw [has, List.any_eq_false]
  intro s hs
  have hsides : r.2 < s.1 ∨ s.2 < r.1 := by
    have h := List.all_eq_true.mp (List.all_eq_true.mp hapart r hmem) s hs
    simpa using h
  simp only [Bool.and_eq_true, decide_eq_true_eq]
  omega

/-- The word characters of ASCII. -/
def asciiWordRanges : Ranges := [(0x30, 0x39), (0x41, 0x5a), (0x5f, 0x5f), (0x61, 0x7a)]

theorem asciiWordRanges_has {c : Char} (h : isWordAscii c = true) :
    asciiWordRanges.has c = true := by
  change ((decide ('A'.val ≤ c.val ∧ c.val ≤ 'Z'.val) ||
    (decide ('a'.val ≤ c.val) && decide (c.val ≤ 'z'.val)) ||
    (decide ('0'.val ≤ c.val) && decide (c.val ≤ '9'.val))) || c == '_') = true at h
  simp only [Bool.or_eq_true, Bool.and_eq_true, decide_eq_true_eq, beq_iff_eq,
    UInt32.le_iff_toNat_le] at h
  change (((65 ≤ c.toNat ∧ c.toNat ≤ 90) ∨ (97 ≤ c.toNat ∧ c.toNat ≤ 122)) ∨
    (48 ≤ c.toNat ∧ c.toNat ≤ 57)) ∨ c = '_' at h
  rcases h with h | rfl
  · simp only [asciiWordRanges, Ranges.has, List.any_cons, List.any_nil, Bool.or_eq_true,
      Bool.and_eq_true, decide_eq_true_eq, Bool.or_false]
    omega
  · decide

theorem isWord_eq_false_of_isBlank {c : Char} (h : isBlank c = true) : isWord c = false := by
  unfold isWord
  split
  · cases hword : isWordAscii c with
    | false => rfl
    | true =>
      have hapart : blankRanges.apart asciiWordRanges = true := by decide
      have hno := Ranges.not_has_of_apart hapart h
      rw [asciiWordRanges_has hword] at hno
      cases hno
  · have hapart : blankRanges.apart wordRanges = true := by decide +kernel
    exact Ranges.not_has_of_apart hapart h

theorem isBlank_eq_false_of_isWord {c : Char} (h : isWord c = true) : isBlank c = false := by
  cases hblank : isBlank c with
  | false => rfl
  | true =>
    rw [isWord_eq_false_of_isBlank hblank] at h
    cases h

end ModelSchema.Text
