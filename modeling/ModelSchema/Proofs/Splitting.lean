import ModelSchema.Literal
import ModelSchema.Proofs.Heading
import ModelSchema.Proofs.Tokens

namespace ModelSchema.Text

theorem splitOn_of_not_mem {sep : Char} {t : Text} (h : sep ∉ t) : splitOn sep t = [t] := by
  induction t with
  | nil => rfl
  | cons c t ih =>
    obtain ⟨hc, ht⟩ : ¬sep = c ∧ sep ∉ t := by simpa using h
    have hne : ¬c = sep := Ne.symm hc
    simp [splitOn, hne, ih ht, consFirst]

theorem splitOn_intercalate {sep : Char} {pieces : List Text} (hne : pieces ≠ [])
    (h : ∀ p ∈ pieces, sep ∉ p) : splitOn sep (List.intercalate [sep] pieces) = pieces := by
  induction pieces with
  | nil => exact absurd rfl hne
  | cons p pieces ih =>
    have hp := splitOn_of_not_mem (h p (by simp))
    cases pieces with
    | nil => simpa using hp
    | cons q pieces =>
      have hrest := ih (by simp) fun x hx => h x (by simp [hx])
      rw [List.intercalate_cons_cons, List.append_assoc, List.singleton_append, splitOn_append, hp,
        hrest]
      rfl

private theorem not_mem_blanks {sep : Char} (hsep : isBlank sep = false) {a : Text}
    (ha : ∀ c ∈ a, isBlank c = true) : sep ∉ a := by
  intro hmem
  rw [ha sep hmem] at hsep
  cases hsep

theorem map_strip_splitOn_append_left {sep : Char} (hsep : isBlank sep = false) {a : Text}
    (ha : ∀ c ∈ a, isBlank c = true) (t : Text) :
    (splitOn sep (a ++ t)).map strip = (splitOn sep t).map strip := by
  have hnot := not_mem_blanks hsep ha
  cases hcut : cut? sep t with
  | none =>
    have ht := cut?_eq_none.mp hcut
    have hat : sep ∉ a ++ t := by simp [hnot, ht]
    simp [splitOn_of_not_mem ht, splitOn_of_not_mem hat, strip, trim_append_left ha]
  | some p =>
    obtain ⟨rfl, hp⟩ := cut?_eq_some.mp hcut
    have hap : sep ∉ a ++ p.1 := by simp [hnot, hp]
    rw [← List.append_assoc, splitOn_append, splitOn_append, splitOn_of_not_mem hp,
      splitOn_of_not_mem hap]
    simp [strip, trim_append_left ha]

theorem map_strip_splitOn_append_right {sep : Char} (hsep : isBlank sep = false) {a : Text}
    (ha : ∀ c ∈ a, isBlank c = true) (t : Text) :
    (splitOn sep (t ++ a)).map strip = (splitOn sep t).map strip := by
  have hnot := not_mem_blanks hsep ha
  -- Only the last piece changes, so the induction goes from one separator to the next.
  induction hlength : t.length using Nat.strongRecOn generalizing t with
  | ind n ih =>
    cases hcut : cut? sep t with
    | none =>
      have ht := cut?_eq_none.mp hcut
      have hta : sep ∉ t ++ a := by simp [hnot, ht]
      simp [splitOn_of_not_mem ht, splitOn_of_not_mem hta, strip, trim_append_right ha]
    | some p =>
      obtain ⟨rfl, -⟩ := cut?_eq_some.mp hcut
      have hshort : p.2.length < n := by
        rw [← hlength, List.length_append, List.length_cons]
        omega
      rw [List.append_assoc, List.cons_append, splitOn_append, splitOn_append, List.map_append,
        List.map_append, ih p.2.length hshort p.2 rfl]

/-- Blanks around a text are blanks around its first and its last piece. -/
theorem map_strip_splitOn_strip {sep : Char} (hsep : isBlank sep = false) (t : Text) :
    (splitOn sep (strip t)).map strip = (splitOn sep t).map strip := by
  obtain ⟨before, after, ht, hbefore, hafter⟩ := trim_eq isBlank t
  have hblank : ∀ c ∈ before, isBlank c = true := hbefore ▸ takeWhile_all t
  calc (splitOn sep (strip t)).map strip
      = (splitOn sep (before ++ strip t)).map strip :=
        (map_strip_splitOn_append_left hsep hblank _).symm
    _ = (splitOn sep (before ++ strip t ++ after)).map strip :=
        (map_strip_splitOn_append_right hsep hafter _).symm
    _ = (splitOn sep t).map strip := by rw [strip, ← ht]

/-- Every separator of the text stands inside parentheses, of which `depth` are open already. -/
def Shields (sep : Char → Bool) (depth : Int) (t : Text) : Prop :=
  ∀ p c, p ++ [c] <+: t → sep c = true → depth + p.count '(' - p.count ')' ≠ 0

variable {sep : Char → Bool} {depth : Int} {budget : Option Nat} {a b t : Text} {c : Char}

theorem shields_nil : Shields sep depth [] := by
  intro p c hp
  simp at hp

theorem shields_cons : Shields sep depth (c :: t) ↔
    (sep c = true → depth ≠ 0) ∧ Shields sep (depth + [c].count '(' - [c].count ')') t := by
  constructor
  · intro h
    refine ⟨fun hc => by simpa using h [] c (by simp) hc, fun p d hp hd => ?_⟩
    have hcons := h (c :: p) d (List.cons_prefix_cons.mpr ⟨rfl, hp⟩) hd
    rw [← List.singleton_append, List.count_append, List.count_append] at hcons
    omega
  · rintro ⟨hc, h⟩ p d hp hd
    cases p with
    | nil =>
      obtain ⟨rfl, -⟩ := List.cons_prefix_cons.mp hp
      simpa using hc hd
    | cons e p =>
      obtain ⟨rfl, hrest⟩ := List.cons_prefix_cons.mp hp
      have htail := h p d hrest hd
      rw [← List.singleton_append, List.count_append, List.count_append]
      omega

theorem shields_append : Shields sep depth (a ++ b) ↔
    Shields sep depth a ∧ Shields sep (depth + a.count '(' - a.count ')') b := by
  induction a generalizing depth with
  | nil => simp [shields_nil]
  | cons c a ih =>
    have hdepth : depth + [c].count '(' - [c].count ')' + a.count '(' - a.count ')' =
        depth + (c :: a).count '(' - (c :: a).count ')' := by
      rw [← List.singleton_append (l := a), List.count_append, List.count_append]
      omega
    rw [List.cons_append, shields_cons, shields_cons, ih, hdepth, and_assoc]

theorem shields_of_forall (h : ∀ c ∈ t, sep c = false) : Shields sep depth t := by
  intro p c hp hc
  have hmem : c ∈ t := hp.subset (by simp)
  rw [h c hmem] at hc
  cases hc

/-- Inside an open parenthesis everything is shielded that does not close it. -/
theorem shields_of_unclosed (h : Unclosed t) (hdepth : 0 < depth) : Shields sep depth t := by
  intro p c hp _
  have hcount := h p ((List.prefix_append p [c]).trans hp)
  omega

theorem balanced_of_not_mem (hopen : '(' ∉ t) (hclose : ')' ∉ t) : Balanced t := by
  refine ⟨fun p hp => ?_, ?_⟩
  · rw [List.count_eq_zero_of_not_mem fun h => hclose (hp.subset h)]
    exact Nat.zero_le _
  · rw [List.count_eq_zero_of_not_mem hopen, List.count_eq_zero_of_not_mem hclose]

theorem unclosed_append (ha : Unclosed a) (hb : Unclosed b) : Unclosed (a ++ b) := by
  intro p hp
  rcases List.prefix_or_prefix_of_prefix hp (List.prefix_append a b) with hfirst | ⟨q, rfl⟩
  · exact ha p hfirst
  · have hcount := ha a (List.prefix_refl a)
    have hq := hb q ((List.prefix_append_right_inj a).mp hp)
    rw [List.count_append, List.count_append]
    omega

theorem balanced_append (ha : Balanced a) (hb : Balanced b) : Balanced (a ++ b) := by
  have hcount := ha.2
  have hcount' := hb.2
  refine ⟨unclosed_append ha.1 hb.1, ?_⟩
  rw [List.count_append, List.count_append]
  omega

theorem unclosed_iff_take :
    Unclosed t ↔ ∀ n < t.length + 1, (t.take n).count ')' ≤ (t.take n).count '(' := by
  constructor
  · intro h n _
    exact h _ (List.take_prefix n t)
  · intro h p hp
    have hlength : p.length < t.length + 1 := by
      have hle := hp.length_le
      omega
    rw [List.prefix_iff_eq_take.mp hp]
    exact h p.length hlength

instance (t : Text) : Decidable (Unclosed t) := decidable_of_iff _ unclosed_iff_take.symm

instance (t : Text) : Decidable (Balanced t) := inferInstanceAs (Decidable (_ ∧ _))

instance decidableShields (sep : Char → Bool) (depth : Int) : (t : Text) →
    Decidable (Shields sep depth t)
  | [] => isTrue shields_nil
  | c :: t =>
    have := decidableShields sep (depth + [c].count '(' - [c].count ')') t
    decidable_of_iff _ shields_cons.symm

instance (p : Char → Bool) (t : Text) : Decidable (IsRun p t) :=
  decidable_of_iff (t ≠ [] ∧ t.all p = true) (and_congr Iff.rfl List.all_eq_true)

/-- Puts a text in front of the first piece. -/
def prependFirst (a : Text) : List Text → List Text
  | [] => [a]
  | p :: ps => (a ++ p) :: ps

theorem consFirst_prependFirst (c : Char) (a : Text) (ps : List Text) :
    consFirst c (prependFirst a ps) = prependFirst (c :: a) ps := by
  cases ps <;> rfl

theorem splitOutside_ne_nil (t : Text) : splitOutside sep depth budget t ≠ [] := by
  have hcons (c : Char) (ps : List Text) : consFirst c ps ≠ [] := by
    cases ps <;> simp [consFirst]
  cases t with
  | nil => simp [splitOutside]
  | cons c t =>
    simp only [splitOutside]
    repeat' split
    all_goals simp [hcons]

/-- A shielded text is part of one piece. -/
theorem splitOutside_append (h : Shields sep depth a) (b : Text) :
    splitOutside sep depth budget (a ++ b) =
      prependFirst a (splitOutside sep (depth + a.count '(' - a.count ')') budget b) := by
  induction a generalizing depth with
  | nil =>
    have hne : splitOutside sep depth budget b ≠ [] := splitOutside_ne_nil b
    obtain ⟨p, ps, hsplit⟩ := List.exists_cons_of_ne_nil hne
    simp [hsplit, prependFirst]
  | cons c a ih =>
    obtain ⟨hc, ha⟩ := shields_cons.mp h
    have hnext := ih ha
    rw [← List.singleton_append (x := c) (l := a), List.count_append, List.count_append,
      List.singleton_append, List.cons_append, ← consFirst_prependFirst]
    have hdepth : depth + [c].count '(' - [c].count ')' + a.count '(' - a.count ')' =
        depth + ([c].count '(' + a.count '(' : Nat) - ([c].count ')' + a.count ')' : Nat) := by
      omega
    rw [hdepth] at hnext
    rw [← hnext]
    by_cases hopen : c = '('
    · subst hopen
      simp [splitOutside]
    · by_cases hclose : c = ')'
      · subst hclose
        simp [splitOutside]
      · have hplain : depth + [c].count '(' - [c].count ')' = depth := by
          simp [hopen, hclose]
        have hkeep : (sep c && depth == 0 && budget != some 0) = false := by
          cases hsep : sep c with
          | false => rfl
          | true => simp [hc hsep]
        rw [hplain]
        simp [splitOutside, hopen, hclose, hkeep]

/-- Without a budget nothing is divided. -/
theorem splitOutside_zero (t : Text) : splitOutside sep depth (some 0) t = [t] := by
  induction t generalizing depth with
  | nil => rfl
  | cons c t ih => simp [splitOutside, ih, consFirst]

theorem splitTopLevel_of_shields (h : Shields sep 0 t) : splitTopLevel sep budget t = [t] := by
  have hsplit : splitOutside sep 0 budget (t ++ []) = _ := splitOutside_append h []
  simpa [splitTopLevel, splitOutside, prependFirst] using hsplit

/-- The first division stands after a text that is shielded and closes all its parentheses. -/
theorem splitTopLevel_first (ha : Shields sep 0 a) (hcount : a.count ')' = a.count '(')
    (hsep : sep c = true) (hopen : c ≠ '(') (hclose : c ≠ ')') (b : Text) :
    splitTopLevel sep (some 1) (a ++ c :: b) = [a, b] := by
  have hdepth : (0 : Int) + a.count '(' - a.count ')' = 0 := by omega
  rw [splitTopLevel, splitOutside_append ha, hdepth]
  simp [splitOutside, hopen, hclose, hsep, splitOutside_zero, prependFirst]

theorem isWordText_iff {t : Text} : isWordText t = true ↔ IsRun isWord t := by
  simp [isWordText, IsRun]

theorem strip_of_words {t : Text} (h : ∀ c ∈ t, isWord c = true) : strip t = t := by
  refine trim_of_ends (fun c hc => ?_) (fun c hc => ?_)
  · exact isBlank_eq_false_of_isWord (h c (List.mem_of_mem_head? hc))
  · exact isBlank_eq_false_of_isWord (h c (List.mem_of_mem_getLast? hc))

theorem not_mem_words {t : Text} (h : ∀ c ∈ t, isWord c = true) {c : Char}
    (hc : isWord c = false) : c ∉ t := by
  intro hmem
  rw [h c hmem] at hc
  cases hc

end ModelSchema.Text

/-- The choices of a list do not depend on blanks around it. -/
theorem ModelSchema.Literal.choices_strip (raw : Text) :
    choices (Text.strip raw) = choices raw := by
  have hcomma : Text.isBlank ',' = false := by decide
  have hpieces := Text.map_strip_splitOn_strip hcomma raw
  simp only [choices, ← List.map_map (f := Text.strip) (g := unquote), ← Function.comp_def]
  rw [hpieces]
