import Mathlib.Data.List.Range
import ModelSchema.Proofs.Splitting

namespace ModelSchema.Text

/-- The positions of the separators before which as many parentheses are opened as closed. -/
def divisions (sep : Char) (t : Text) : List Nat :=
  (List.range t.length).filter fun i =>
    t[i]? = some sep ∧ (t.take i).count '(' = (t.take i).count ')'

/-- The positions, in the whole, of what was taken out between the parts. -/
def cuts : List Text → List Nat
  | p :: q :: ps => p.length :: (cuts (q :: ps)).map (· + (p.length + 1))
  | _ => []

/-- How many cuts a limit allows; a negative limit allows all. -/
def budget : Int → Option Nat
  | .ofNat n => some n
  | .negSucc _ => none

/-- The first of a list, as many as a limit allows. -/
def upTo (limit : Option Nat) (is : List Nat) : List Nat :=
  match limit with
  | none => is
  | some n => is.take n

variable {sep c : Char} {depth : Int} {limit : Option Nat} {t : Text} {ps : List Text}

/-- A character is cut out, or it goes on with the part that it stands in. -/
theorem splitOutside_cons (sep : Char → Bool) (depth : Int) (limit : Option Nat) (c : Char)
    (t : Text) :
    (sep c = true ∧ c ≠ '(' ∧ c ≠ ')' ∧ depth = 0 ∧ limit ≠ some 0 ∧
        splitOutside sep depth limit (c :: t) = [] :: splitOutside sep 0 (limit.map (· - 1)) t) ∨
      ((sep c = true → c ≠ '(' → c ≠ ')' → depth = 0 → limit = some 0) ∧
        splitOutside sep depth limit (c :: t) =
          consFirst c (splitOutside sep (depth + [c].count '(' - [c].count ')') limit t)) := by
  by_cases hopen : c = '('
  · subst hopen
    exact .inr ⟨fun _ h => absurd rfl h, by simp [splitOutside]⟩
  · by_cases hclose : c = ')'
    · subst hclose
      exact .inr ⟨fun _ _ h => absurd rfl h, by simp [splitOutside]⟩
    · by_cases hcut : sep c = true ∧ depth = 0 ∧ limit ≠ some 0
      · obtain ⟨hsep, rfl, hlimit⟩ := hcut
        exact .inl ⟨hsep, hopen, hclose, rfl, hlimit, by
          simp [splitOutside, hopen, hclose, hsep, hlimit]⟩
      · have hkeep : sep c = true → depth = 0 → limit = some 0 := by
          intro hsep hdepth
          by_contra hlimit
          exact hcut ⟨hsep, hdepth, hlimit⟩
        have hno : (sep c && depth == 0 && limit != some 0) = false := by
          rw [Bool.eq_false_iff]
          intro h
          simp only [Bool.and_eq_true, beq_iff_eq, bne_iff_ne] at h
          exact h.2 (hkeep h.1.1 h.1.2)
        have hplain : depth + [c].count '(' - [c].count ')' = depth := by simp [hopen, hclose]
        refine .inr ⟨fun hsep _ _ => hkeep hsep, ?_⟩
        rw [hplain]
        simp [splitOutside, hopen, hclose, hno]

theorem intercalate_consFirst (hps : ps ≠ []) :
    List.intercalate [sep] (consFirst c ps) = c :: List.intercalate [sep] ps := by
  obtain ⟨p, ps, rfl⟩ := List.exists_cons_of_ne_nil hps
  cases ps with
  | nil => simp [consFirst]
  | cons q ps => simp [consFirst, List.intercalate_cons_cons]

/-- The parts with the separators between them are the text. -/
theorem intercalate_splitOutside (sep : Char) (depth : Int) (limit : Option Nat) (t : Text) :
    List.intercalate [sep] (splitOutside (· == sep) depth limit t) = t := by
  induction t generalizing depth limit with
  | nil => simp [splitOutside]
  | cons c t ih =>
    rcases splitOutside_cons (· == sep) depth limit c t with
      ⟨hsep, -, -, -, -, hsplit⟩ | ⟨-, hsplit⟩
    · obtain rfl : c = sep := by simpa using hsep
      have hne : splitOutside (· == c) 0 (limit.map (· - 1)) t ≠ [] := splitOutside_ne_nil t
      obtain ⟨p, ps, hrest⟩ := List.exists_cons_of_ne_nil hne
      rw [hsplit, hrest, List.intercalate_cons_cons, ← hrest, ih]
      rfl
    · rw [hsplit, intercalate_consFirst (splitOutside_ne_nil t), ih]

/-- The text closes the `depth` parentheses that are open before it, and closes no others but its
own. -/
def Closes (depth : Int) (t : Text) : Prop :=
  (∀ p, p <+: t → (p.count ')' : Int) ≤ depth + p.count '(') ∧
    (t.count ')' : Int) = depth + t.count '('

theorem closes_zero : Closes 0 t ↔ Balanced t := by
  simp only [Closes, Balanced, Unclosed]
  constructor
  · rintro ⟨hopen, hcount⟩
    exact ⟨fun p hp => by have := hopen p hp; omega, by omega⟩
  · rintro ⟨hopen, hcount⟩
    exact ⟨fun p hp => by have := hopen p hp; omega, by omega⟩

theorem closes_nil : Closes depth [] ↔ depth = 0 := by
  simp only [Closes, List.prefix_nil, forall_eq, List.count_nil]
  omega

theorem closes_cons : Closes depth (c :: t) ↔
    0 ≤ depth ∧ Closes (depth + [c].count '(' - [c].count ')') t := by
  have hcount (x : Char) (p : Text) : (c :: p).count x = [c].count x + p.count x := by
    rw [← List.singleton_append, List.count_append]
  have hwhole := hcount '(' t
  have hwhole' := hcount ')' t
  constructor
  · rintro ⟨hopen, htotal⟩
    refine ⟨by simpa using hopen [] List.nil_prefix, fun p hp => ?_, by omega⟩
    have hcons := hopen (c :: p) (List.cons_prefix_cons.mpr ⟨rfl, hp⟩)
    have hpart := hcount '(' p
    have hpart' := hcount ')' p
    omega
  · rintro ⟨hdepth, hopen, htotal⟩
    refine ⟨fun p hp => ?_, by omega⟩
    cases p with
    | nil => simpa using hdepth
    | cons d p =>
      obtain ⟨rfl, hrest⟩ := List.cons_prefix_cons.mp hp
      have htail := hopen p hrest
      have hpart := hcount '(' p
      have hpart' := hcount ')' p
      omega

/-- Of a text that closes what is open, the first part does so, and the others are balanced. -/
theorem closes_splitOutside (sep : Char → Bool) (limit : Option Nat) (h : Closes depth t) :
    ∃ p ps, splitOutside sep depth limit t = p :: ps ∧ Closes depth p ∧
      ∀ q ∈ ps, Balanced q := by
  induction t generalizing depth limit with
  | nil => exact ⟨[], [], rfl, h, by simp⟩
  | cons c t ih =>
    obtain ⟨hdepth, hrest⟩ := closes_cons.mp h
    rcases splitOutside_cons sep depth limit c t with
      ⟨-, hopen, hclose, rfl, -, hsplit⟩ | ⟨-, hsplit⟩
    · have hplain : (0 : Int) + [c].count '(' - [c].count ')' = 0 := by simp [hopen, hclose]
      rw [hplain] at hrest
      obtain ⟨p, ps, htail, hp, hps⟩ := ih (limit.map (· - 1)) hrest
      refine ⟨[], p :: ps, by rw [hsplit, htail], closes_nil.mpr rfl, ?_⟩
      exact List.forall_mem_cons.mpr ⟨closes_zero.mp hp, hps⟩
    · obtain ⟨p, ps, htail, hp, hps⟩ := ih limit hrest
      exact ⟨c :: p, ps, by rw [hsplit, htail]; rfl, closes_cons.mpr ⟨hdepth, hp⟩, hps⟩

theorem cuts_consFirst (hps : ps ≠ []) : cuts (consFirst c ps) = (cuts ps).map (· + 1) := by
  obtain ⟨p, ps, rfl⟩ := List.exists_cons_of_ne_nil hps
  cases ps with
  | nil => rfl
  | cons q ps =>
    simp only [consFirst, cuts, List.length_cons, List.map_cons, List.map_map]
    congr 1

theorem cuts_nil_cons (hps : ps ≠ []) : cuts ([] :: ps) = 0 :: (cuts ps).map (· + 1) := by
  obtain ⟨p, ps, rfl⟩ := List.exists_cons_of_ne_nil hps
  rfl

theorem upTo_map (limit : Option Nat) (f : Nat → Nat) (is : List Nat) :
    upTo limit (is.map f) = (upTo limit is).map f := by
  cases limit with
  | none => rfl
  | some n => exact List.map_take.symm

theorem upTo_cons (hlimit : limit ≠ some 0) (i : Nat) (is : List Nat) :
    upTo limit (i :: is) = i :: upTo (limit.map (· - 1)) is := by
  cases limit with
  | none => rfl
  | some n =>
    cases n with
    | zero => exact absurd rfl hlimit
    | succ n => rfl

/-- The positions of the separators before which as many parentheses are opened as closed, if
`depth` of them are open before the text. -/
def divisionsFrom (depth : Int) (sep : Char) (t : Text) : List Nat :=
  (List.range t.length).filter fun i =>
    t[i]? = some sep ∧ depth + (t.take i).count '(' = (t.take i).count ')'

theorem divisionsFrom_zero (sep : Char) (t : Text) : divisionsFrom 0 sep t = divisions sep t := by
  have hdepth (p : Text) : (0 : Int) + p.count '(' = p.count ')' ↔ p.count '(' = p.count ')' := by
    omega
  simp only [divisionsFrom, divisions, hdepth]

theorem divisionsFrom_cons (depth : Int) (sep c : Char) (t : Text) :
    divisionsFrom depth sep (c :: t) =
      (if c = sep ∧ depth = 0 then [0] else []) ++
        (divisionsFrom (depth + [c].count '(' - [c].count ')') sep t).map (· + 1) := by
  have hdepth (i : Nat) : depth + ((c :: t).take (i + 1)).count '(' =
      ((c :: t).take (i + 1)).count ')' ↔ depth + [c].count '(' - [c].count ')' +
        (t.take i).count '(' = (t.take i).count ')' := by
    rw [List.take_succ_cons, ← List.singleton_append, List.count_append, List.count_append]
    omega
  have hfirst : (c :: t)[0]? = some sep ∧ depth + ((c :: t).take 0).count '(' =
      ((c :: t).take 0).count ')' ↔ c = sep ∧ depth = 0 := by simp
  rw [divisionsFrom, List.length_cons, List.range_succ_eq_map, List.filter_cons, List.filter_map]
  simp only [decide_eq_true_eq, hfirst, Function.comp_def, List.getElem?_cons_succ, hdepth]
  split
  · rfl
  · rfl

/-- The split cuts where the text is divided, as often as the limit allows. -/
theorem cuts_splitOutside (hopen : sep ≠ '(') (hclose : sep ≠ ')') (depth : Int)
    (limit : Option Nat) (t : Text) :
    cuts (splitOutside (· == sep) depth limit t) = upTo limit (divisionsFrom depth sep t) := by
  induction t generalizing depth limit with
  | nil => cases limit <;> simp [splitOutside, cuts, divisionsFrom, upTo]
  | cons c t ih =>
    rw [divisionsFrom_cons]
    rcases splitOutside_cons (· == sep) depth limit c t with
      ⟨hsep, -, -, rfl, hlimit, hsplit⟩ | ⟨hkeep, hsplit⟩
    · obtain rfl : c = sep := by simpa using hsep
      have hplain : (0 : Int) + [c].count '(' - [c].count ')' = 0 := by simp [hopen, hclose]
      rw [hsplit, cuts_nil_cons (splitOutside_ne_nil t), ih, hplain, if_pos ⟨rfl, rfl⟩,
        List.singleton_append, upTo_cons hlimit, upTo_map]
    · rw [hsplit, cuts_consFirst (splitOutside_ne_nil t), ih, ← upTo_map]
      by_cases hdivides : c = sep ∧ depth = 0
      · -- The budget is used up.
        obtain ⟨rfl, rfl⟩ := hdivides
        obtain rfl := hkeep (by simp) hopen hclose rfl
        rfl
      · rw [if_neg hdivides, List.nil_append]

/-- The parts of a text, joined again, are the text; they end at the first divisions of the text,
and each of them is balanced if the text is. -/
theorem splitTopLevel_at_divisions (sep : Char) (hopen : sep ≠ '(') (hclose : sep ≠ ')')
    (maxsplit : Int) (t : Text) :
    splitTopLevel (· == sep) (budget maxsplit) t ≠ [] ∧
      List.intercalate [sep] (splitTopLevel (· == sep) (budget maxsplit) t) = t ∧
      cuts (splitTopLevel (· == sep) (budget maxsplit) t) =
        (if maxsplit < 0 then divisions sep t else (divisions sep t).take maxsplit.toNat) ∧
      (Balanced t → ∀ p ∈ splitTopLevel (· == sep) (budget maxsplit) t, Balanced p) := by
  refine ⟨splitOutside_ne_nil t, intercalate_splitOutside sep 0 _ t, ?_, ?_⟩
  · rw [splitTopLevel, cuts_splitOutside hopen hclose, divisionsFrom_zero]
    cases maxsplit with
    | ofNat n => rfl
    | negSucc n => rw [if_pos (Int.negSucc_lt_zero n)]; rfl
  · intro hbalanced
    obtain ⟨p, ps, hsplit, hp, hps⟩ :=
      closes_splitOutside (· == sep) (budget maxsplit) (closes_zero.mpr hbalanced)
    rw [splitTopLevel, hsplit]
    exact List.forall_mem_cons.mpr ⟨closes_zero.mp hp, hps⟩

/-- Two of its commas divide it; one cut leaves the second of them. -/
def nestedList : Text := "(a,b),c,(d)".toList

/-- The first comma stands below depth zero, the second one at depth zero again. -/
def strayList : Text := "x),(y,z".toList

theorem splitTopLevel_at_divisions_stray :
    ',' ≠ '(' ∧ ',' ≠ ')' ∧ Balanced nestedList ∧
      cuts (splitTopLevel (· == ',') (budget 1) nestedList) = [5] ∧
      (∀ p ∈ splitTopLevel (· == ',') (budget 1) nestedList, Balanced p) ∧
      List.intercalate [','] (splitTopLevel (· == ',') (budget (-1)) strayList) = strayList ∧
      cuts (splitTopLevel (· == ',') (budget (-1)) strayList) = [5] := by
  have hopen : ',' ≠ '(' := by decide
  have hclose : ',' ≠ ')' := by decide
  have hbalanced : Balanced nestedList := by decide
  obtain ⟨-, -, hcuts, hparts⟩ := splitTopLevel_at_divisions ',' hopen hclose 1 nestedList
  obtain ⟨-, hjoin, hstray, -⟩ := splitTopLevel_at_divisions ',' hopen hclose (-1) strayList
  exact ⟨hopen, hclose, hbalanced, hcuts, hparts hbalanced, hjoin, hstray⟩

end ModelSchema.Text
