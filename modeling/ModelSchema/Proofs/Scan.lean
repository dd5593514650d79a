import Mathlib.Data.List.Induction
import ModelSchema.Tag.Scanner

namespace ModelSchema

/-- Nothing in the text closes a parenthesis that stands before the text. -/
def Text.Unclosed (t : Text) : Prop := ∀ p, p <+: t → p.count ')' ≤ p.count '('

/-- The tag `u` begins after `before`, and no tag is left open there. -/
structure Unterminated.Begins (offset : Int) (before : Text) (u : Unterminated) : Prop where
  column : u.column = offset + before.length + 1
  word : ∀ c ∈ u.name, Text.isWord c = true
  settled : ∃ tags, Tag.scan offset before = .ok tags

/-- The text, which starts after column `offset`, holds the tag `u` without its end. -/
def Unterminated.OpenIn (offset : Int) (t : Text) (u : Unterminated) : Prop :=
  ∃ before argument, t = before ++ '@' :: (u.name ++ '(' :: argument) ∧ u.Begins offset before ∧
    Text.Unclosed argument

namespace Scanner

/-- The scanner after a text. -/
def after (offset : Int) (t : Text) : Scanner := t.foldl step (init offset)

theorem after_snoc (offset : Int) (t : Text) (c : Char) :
    after offset (t ++ [c]) = (after offset t).step c := by
  simp [after]

/-- What the mode says about the text that has been read. -/
def Reads (offset : Int) (t : Text) : ScanMode → Prop
  | .gap => True
  | .name start read => ∃ before, t = before ++ '@' :: read.reverse ∧
      Unterminated.Begins offset before ⟨read.reverse, start⟩
  | .argument start name depth read => ∃ before,
      t = before ++ '@' :: (name ++ '(' :: read.reverse) ∧
      Unterminated.Begins offset before ⟨name, start⟩ ∧ Text.Unclosed read.reverse ∧
      depth + read.count ')' = read.count '('

theorem reads_gapStep {offset column : Int} {t : Text} (hcolumn : column = offset + t.length + 1)
    (hsettled : ∃ tags, Tag.scan offset t = .ok tags) (found : List Tag) (c : Char) :
    Reads offset (t ++ [c]) (gapStep column found c).mode := by
  by_cases hc : c = '@'
  · subst hc
    exact ⟨t, rfl, ⟨hcolumn, by simp, hsettled⟩⟩
  · simp [gapStep, hc, Reads]

theorem unclosed_cons {read : Text} {c : Char} (hread : Text.Unclosed read.reverse)
    (hc : c = ')' → read.count ')' < read.count '(') : Text.Unclosed (c :: read).reverse := by
  intro p hp
  rw [List.reverse_cons] at hp
  rcases List.prefix_concat_iff.mp hp with rfl | hp
  · have hwhole := hread read.reverse (List.prefix_refl _)
    simp only [List.count_reverse] at hwhole
    rw [← List.reverse_cons, List.count_reverse, List.count_reverse, List.count_cons,
      List.count_cons]
    by_cases hclose : c = ')'
    · have hlt := hc hclose
      subst hclose
      simp only [beq_self_eq_true, if_true]
      omega
    · simp only [beq_iff_eq, hclose, if_false]
      omega
  · exact hread p hp

/-- One more character keeps what the mode says. -/
theorem reads_step {offset : Int} {t : Text} {s : Scanner} (hs : after offset t = s)
    (hcolumn : s.column = offset + t.length + 1) (hreads : Reads offset t s.mode) (c : Char) :
    Reads offset (t ++ [c]) (s.step c).mode := by
  obtain ⟨column, mode, found⟩ := s
  cases mode with
  | gap =>
    have hsettled : ∃ tags, Tag.scan offset t = .ok tags := ⟨_, congrArg finish hs⟩
    exact reads_gapStep hcolumn hsettled found c
  | name start read =>
    obtain ⟨before, ht, hbegins⟩ := hreads
    simp only [step]
    split
    · rename_i hword
      refine ⟨before, by simp [ht], hbegins.column, ?_, hbegins.settled⟩
      intro d hd
      simp only [List.reverse_cons, List.mem_append, List.mem_singleton] at hd
      rcases hd with hd | rfl
      · exact hbegins.word d hd
      · exact hword
    · split
      · rename_i hopen
        obtain rfl : c = '(' := by simpa using hopen
        refine ⟨before, by simp [ht], hbegins, ?_, rfl⟩
        intro p hp
        rw [List.prefix_nil.mp hp]
        exact Nat.le_refl 0
      · -- The character ends the name, and may begin the next tag at once.
        have hsettled : ∃ tags, Tag.scan offset t = .ok tags := ⟨_, congrArg finish hs⟩
        exact reads_gapStep hcolumn hsettled _ c
  | argument start name depth read =>
    obtain ⟨before, ht, hbegins, hunclosed, hdepth⟩ := hreads
    simp only [step]
    split
    · rename_i hopen
      obtain rfl : c = '(' := by simpa using hopen
      refine ⟨before, by simp [ht], hbegins, unclosed_cons hunclosed (by simp), ?_⟩
      simp only [List.count_cons, beq_iff_eq, Char.reduceEq, if_true, if_false]
      omega
    · rename_i hopen
      split
      · rename_i hclose
        obtain rfl : c = ')' := by simpa using hclose
        cases depth with
        | zero => trivial -- the argument ends here
        | succ d =>
          refine ⟨before, by simp [ht], hbegins, unclosed_cons hunclosed fun _ => by omega, ?_⟩
          simp only [List.count_cons, beq_iff_eq, Char.reduceEq, if_true, if_false]
          omega
      · rename_i hclose
        have hne : ¬c = '(' := by simpa using hopen
        have hne' : ¬c = ')' := by simpa using hclose
        refine ⟨before, by simp [ht], hbegins, ?_, ?_⟩
        · exact unclosed_cons hunclosed fun h => absurd h hne'
        · simpa [List.count_cons, hne, hne'] using hdepth

theorem step_column (s : Scanner) (c : Char) : (s.step c).column = s.column + 1 := by
  unfold step
  repeat' split
  all_goals rfl

theorem reads_after (offset : Int) (t : Text) :
    (after offset t).column = offset + t.length + 1 ∧ Reads offset t (after offset t).mode := by
  induction t using List.reverseRecOn with
  | nil => exact ⟨by simp [after, init], trivial⟩
  | append_singleton t c ih =>
    rw [after_snoc]
    refine ⟨?_, reads_step rfl ih.1 ih.2 c⟩
    rw [step_column, ih.1, List.length_append, List.length_singleton]
    omega

/-- Outside of arguments, an `@` begins a tag. -/
theorem mode_step_at {s : Scanner} (h : ∃ tags, s.finish = .ok tags) :
    (s.step '@').mode = .name s.column [] := by
  obtain ⟨tags, h⟩ := h
  have hword : Text.isWord '@' = false := by decide
  unfold step
  split
  · rfl
  · simp [hword, gapStep]
  · rename_i hmode
    simp [finish, hmode] at h

theorem foldl_name {s : Scanner} {start : Int} {read name : Text}
    (hname : ∀ c ∈ name, Text.isWord c = true) (hs : s.mode = .name start read) :
    name.foldl step s = ⟨s.column + name.length, .name start (name.reverse ++ read), s.found⟩ := by
  induction name generalizing s read with
  | nil => simp [← hs]
  | cons c name ih =>
    have hc := hname c (by simp)
    have hstep : s.step c = ⟨s.column + 1, .name start (c :: read), s.found⟩ := by
      simp [step, hs, hc]
    rw [List.foldl_cons, hstep, ih (fun d hd => hname d (by simp [hd])) rfl]
    simp only [List.length_cons, List.reverse_cons, List.append_assoc, List.singleton_append,
      mk.injEq, and_true]
    omega

theorem mode_step_open {s : Scanner} {start : Int} {read : Text} (hs : s.mode = .name start read) :
    (s.step '(').mode = .argument start read.reverse 0 [] := by
  have hword : Text.isWord '(' = false := by decide
  simp [step, hs, hword]

/-- An argument goes on as long as it is not closed; `depth` parentheses are open inside it. -/
theorem foldl_argument {s : Scanner} {start : Int} {name read t : Text} {depth : Nat}
    (ht : ∀ p, p <+: t → p.count ')' ≤ depth + p.count '(')
    (hs : s.mode = .argument start name depth read) :
    t.foldl step s = ⟨s.column + t.length,
      .argument start name (depth + t.count '(' - t.count ')') (t.reverse ++ read), s.found⟩ := by
  induction t generalizing s read depth with
  | nil => simp [← hs]
  | cons c t ih =>
    have htail (p : Text) (hp : p <+: t) := ht (c :: p) (List.cons_prefix_cons.mpr ⟨rfl, hp⟩)
    -- One character that leaves `d` parentheses open, and then the rest.
    have hnext {d : Nat} (hstep : s.step c = ⟨s.column + 1, .argument start name d (c :: read),
        s.found⟩) (hd : d + (c :: t).count ')' + t.count '(' =
          depth + t.count ')' + (c :: t).count '(')
        (hrest : ∀ p, p <+: t → p.count ')' ≤ d + p.count '(') :
        (c :: t).foldl step s = ⟨s.column + (c :: t).length, .argument start name
          (depth + (c :: t).count '(' - (c :: t).count ')') ((c :: t).reverse ++ read),
          s.found⟩ := by
      have hdepth : d + t.count '(' - t.count ')' =
          depth + (c :: t).count '(' - (c :: t).count ')' := by omega
      rw [List.foldl_cons, hstep, ih hrest rfl, hdepth]
      simp only [List.length_cons, List.reverse_cons, List.append_assoc, List.singleton_append,
        mk.injEq, and_true]
      omega
    by_cases hopen : c = '('
    · subst hopen
      refine hnext (d := depth + 1) (by simp [step, hs]) ?_ ?_
      · simp only [List.count_cons, beq_iff_eq, Char.reduceEq, if_true, if_false]
        omega
      · intro p hp
        have hcount := htail p hp
        simp only [List.count_cons, beq_iff_eq, Char.reduceEq, if_true, if_false] at hcount
        omega
    · by_cases hclose : c = ')'
      · subst hclose
        have hdepth := htail [] List.nil_prefix
        cases depth with
        | zero => simp at hdepth
        | succ d =>
          refine hnext (d := d) (by simp [step, hs]) ?_ ?_
          · simp only [List.count_cons, beq_iff_eq, Char.reduceEq, if_true, if_false]
            omega
          · intro p hp
            have hcount := htail p hp
            simp only [List.count_cons, beq_iff_eq, Char.reduceEq, if_true, if_false] at hcount
            omega
      · refine hnext (d := depth) (by simp [step, hs, hopen, hclose]) ?_ ?_
        · simp only [List.count_cons, beq_iff_eq, hopen, hclose, if_false]
          omega
        · intro p hp
          have hcount := htail p hp
          simpa [List.count_cons, hopen, hclose] using hcount

end Scanner

namespace Tag

/-- Finding tags fails at the first tag that has no end, and only there. -/
theorem scan_eq_error {offset : Int} {t : Text} {u : Unterminated} :
    scan offset t = .error u ↔ u.OpenIn offset t := by
  constructor
  · intro h
    have hreads := (Scanner.reads_after offset t).2
    change (Scanner.after offset t).finish = _ at h
    generalize Scanner.after offset t = s at h hreads
    obtain ⟨column, mode, found⟩ := s
    cases mode with
    | gap => cases h
    | name start read => cases h
    | argument start name depth read =>
      cases h
      obtain ⟨before, ht, hbegins, hunclosed, -⟩ := hreads
      exact ⟨before, read.reverse, ht, hbegins, hunclosed⟩
  · rintro ⟨before, argument, rfl, hbegins, hunclosed⟩
    have hcolumn := (Scanner.reads_after offset before).1
    have hat := Scanner.mode_step_at hbegins.settled
    have hname := Scanner.foldl_name hbegins.word hat
    have hopen := Scanner.mode_step_open (congrArg Scanner.mode hname)
    have hargument := Scanner.foldl_argument (t := argument)
      (fun p hp => by simpa using hunclosed p hp) hopen
    have hstart : (before.foldl Scanner.step (.init offset)).column = u.column :=
      hcolumn.trans hbegins.column.symm
    simp only [scan, List.foldl_append, List.foldl_cons, hargument, Scanner.finish, hstart,
      List.append_nil, List.reverse_reverse]

end Tag

theorem Unterminated.OpenIn.column_bounds {offset : Int} {t : Text} {u : Unterminated}
    (h : u.OpenIn offset t) : offset + 1 ≤ u.column ∧ u.column ≤ offset + t.length := by
  obtain ⟨before, argument, rfl, hbegins, -⟩ := h
  rw [hbegins.column, List.length_append, List.length_cons]
  omega

end ModelSchema
