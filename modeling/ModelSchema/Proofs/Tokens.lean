import ModelSchema.Proofs.Scan

namespace ModelSchema

/-- The parentheses of the text match each other. -/
def Text.Balanced (t : Text) : Prop := Text.Unclosed t ∧ t.count ')' = t.count '('

/-- The text, whose first character stands at `column`, holds exactly these tags. What stands in
the argument of a tag is not looked at. -/
inductive Tag.Reading : Int → Text → List Tag → Prop
  | nil {column : Int} : Reading column [] []
  | gap {column : Int} {c : Char} {t : Text} {tags : List Tag} (hc : c ≠ '@')
      (hrest : Reading (column + 1) t tags) : Reading column (c :: t) tags
  | bare {column : Int} {name t : Text} {tags : List Tag}
      (hname : ∀ c ∈ name, Text.isWord c = true)
      (hend : ∀ c, t.head? = some c → Text.isWord c = false ∧ c ≠ '(')
      (hrest : Reading (column + name.length + 1) t tags) :
      Reading column ('@' :: (name ++ t)) (⟨name, none, column⟩ :: tags)
  | call {column : Int} {name argument t : Text} {tags : List Tag}
      (hname : ∀ c ∈ name, Text.isWord c = true) (hargument : Text.Balanced argument)
      (hrest : Reading (column + name.length + argument.length + 3) t tags) :
      Reading column ('@' :: (name ++ '(' :: (argument ++ ')' :: t)))
        (⟨name, some argument, column⟩ :: tags)

namespace Scanner

/-- What has been read of a tag that is not complete. -/
def pending (s : Scanner) : Text :=
  match s.mode with
  | .gap => []
  | .name _ read => '@' :: read.reverse
  | .argument _ name _ read => '@' :: (name ++ '(' :: read.reverse)

/-- The column at which the pending part begins. -/
def start (s : Scanner) : Int :=
  match s.mode with
  | .gap => s.column
  | .name start _ => start
  | .argument start _ _ _ => start

theorem reading_gapStep {column : Int} {found : List Tag} {c : Char} {t : Text} {tags : List Tag}
    (h : Tag.Reading (gapStep column found c).start ((gapStep column found c).pending ++ t) tags) :
    Tag.Reading column (c :: t) tags := by
  by_cases hc : c = '@'
  · subst hc
    exact h
  · have hgap : gapStep column found c = ⟨column + 1, .gap, found⟩ := by simp [gapStep, hc]
    rw [hgap] at h
    exact .gap hc h

/-- What the scanner finds from some point on is a reading of what is pending and the rest. -/
theorem reading_of_finish {offset : Int} {before t : Text} {tags : List Tag}
    (h : (t.foldl step (after offset before)).finish = .ok tags) :
    ∃ new, tags = (after offset before).found.reverse ++ new ∧
      Tag.Reading (after offset before).start ((after offset before).pending ++ t) new := by
  induction t generalizing before with
  | nil =>
    obtain ⟨hcolumn, hreads⟩ := reads_after offset before
    generalize after offset before = s at h hcolumn hreads ⊢
    obtain ⟨column, mode, found⟩ := s
    cases mode with
    | gap =>
      cases h
      exact ⟨[], by simp, .nil⟩
    | name start read =>
      cases h
      obtain ⟨before, -, hbegins⟩ := hreads
      exact ⟨[⟨read.reverse, none, start⟩], by simp, .bare hbegins.word (by simp) .nil⟩
    | argument start name depth read => cases h
  | cons c t ih =>
    have hnext := @ih (before ++ [c]) (by rw [after_snoc]; exact h)
    rw [after_snoc] at hnext
    obtain ⟨hcolumn, hreads⟩ := reads_after offset before
    generalize after offset before = s at hcolumn hreads hnext ⊢
    obtain ⟨column, mode, found⟩ := s
    obtain ⟨new, hnew, hreading⟩ := hnext
    cases mode with
    | gap =>
      have hfound : ((⟨column, .gap, found⟩ : Scanner).step c).found = found := rfl
      exact ⟨new, by rw [hnew, hfound], reading_gapStep hreading⟩
    | name start read =>
      obtain ⟨prior, hbefore, hbegins⟩ := hreads
      simp only [step] at hnew hreading
      split at hreading
      · rename_i hword
        simp only [hword, if_true] at hnew
        exact ⟨new, hnew, by simpa [pending, Scanner.start] using hreading⟩
      · rename_i hword
        split at hreading
        · rename_i hopen
          obtain rfl : c = '(' := by simpa using hopen
          simp only [hword, Bool.false_eq_true, if_false, beq_self_eq_true, if_true] at hnew
          exact ⟨new, hnew, by simpa [pending, Scanner.start] using hreading⟩
        · -- The name ends before this character.
          rename_i hopen
          simp only [hword, hopen, Bool.false_eq_true, if_false] at hnew
          refine ⟨⟨read.reverse, none, start⟩ :: new, by simpa [gapStep] using hnew, ?_⟩
          have hstart : column = start + read.reverse.length + 1 := by
            have hbegin : start = offset + prior.length + 1 := hbegins.column
            change column = _ at hcolumn
            simp only [hbefore, List.length_append, List.length_cons] at hcolumn
            omega
          refine .bare hbegins.word ?_ (hstart ▸ reading_gapStep hreading)
          intro d hd
          obtain rfl : c = d := by simpa using hd
          exact ⟨by simpa using hword, by simpa using hopen⟩
    | argument start name depth read =>
      obtain ⟨prior, hbefore, hbegins, hunclosed, hdepth⟩ := hreads
      simp only [step] at hnew hreading
      split at hreading
      · rename_i hopen
        simp only [hopen, if_true] at hnew
        exact ⟨new, hnew, by simpa [pending, Scanner.start] using hreading⟩
      · rename_i hopen
        split at hreading
        · rename_i hclose
          obtain rfl : c = ')' := by simpa using hclose
          simp only [hopen, Bool.false_eq_true, if_false, beq_self_eq_true, if_true] at hnew
          cases depth with
          | succ d => exact ⟨new, hnew, by simpa [pending, Scanner.start] using hreading⟩
          | zero =>
            refine ⟨⟨name, some read.reverse, start⟩ :: new, by simpa using hnew, ?_⟩
            have hbalanced : Text.Balanced read.reverse := by
              refine ⟨hunclosed, ?_⟩
              simp only [List.count_reverse]
              omega
            have hstart : column + 1 = start + name.length + read.reverse.length + 3 := by
              have hbegin : start = offset + prior.length + 1 := hbegins.column
              change column = _ at hcolumn
              simp only [hbefore, List.length_append, List.length_cons] at hcolumn
              simp only [List.length_reverse] at hcolumn ⊢
              omega
            have hcall := Tag.Reading.call hbegins.word hbalanced (hstart ▸ hreading)
            simpa [pending, Scanner.start] using hcall
        · rename_i hclose
          simp only [hopen, hclose, Bool.false_eq_true, if_false] at hnew
          exact ⟨new, hnew, by simpa [pending, Scanner.start] using hreading⟩

theorem finish_of_reading {column : Int} {t : Text} {tags : List Tag}
    (h : Tag.Reading column t tags) (found : List Tag) :
    (t.foldl step ⟨column, .gap, found⟩).finish = .ok (found.reverse ++ tags) := by
  induction h generalizing found with
  | nil => simp [finish]
  | gap hc hrest ih =>
    rw [List.foldl_cons, ← ih found]
    simp [step, gapStep, hc]
  | @bare column name t tags hname hend hrest ih =>
    have hat : (⟨column, .gap, found⟩ : Scanner).step '@' =
        ⟨column + 1, .name column [], found⟩ := rfl
    rw [List.foldl_cons, hat, List.foldl_append, foldl_name hname rfl]
    have hih := ih (⟨name, none, column⟩ :: found)
    cases t with
    | nil => simpa [finish] using hih
    | cons c t =>
      obtain ⟨hword, hopen⟩ := hend c rfl
      have hcolumn : column + 1 + name.length = column + name.length + 1 := by omega
      rw [List.foldl_cons] at hih ⊢
      simpa [step, hword, hopen, hcolumn] using hih
  | @call column name argument t tags hname hargument hrest ih =>
    have hat : (⟨column, .gap, found⟩ : Scanner).step '@' =
        ⟨column + 1, .name column [], found⟩ := rfl
    have hword : Text.isWord '(' = false := by decide
    have hopen : (⟨column + 1 + name.length, .name column (name.reverse ++ []), found⟩ :
        Scanner).step '(' = ⟨column + 1 + name.length + 1, .argument column name 0 [], found⟩ := by
      simp [step, hword]
    have hdepth : 0 + argument.count '(' - argument.count ')' = 0 := by
      have hequal := hargument.2
      omega
    have hcolumn : column + 1 + name.length + 1 + argument.length + 1 =
        column + name.length + argument.length + 3 := by omega
    have hunclosed : ∀ p, p <+: argument → p.count ')' ≤ 0 + p.count '(' := fun p hp => by
      simpa using hargument.1 p hp
    rw [List.foldl_cons, hat, List.foldl_append, foldl_name hname rfl, List.foldl_cons, hopen,
      List.foldl_append, foldl_argument hunclosed rfl, hdepth, List.foldl_cons]
    have hih := ih (⟨name, some argument, column⟩ :: found)
    simpa [step, hcolumn] using hih

end Scanner

namespace Tag

/-- The scanner finds the tags of the reading of a text. -/
theorem scan_eq_ok {offset : Int} {t : Text} {tags : List Tag} :
    scan offset t = .ok tags ↔ Reading (offset + 1) t tags := by
  constructor
  · intro h
    obtain ⟨new, hnew, hreading⟩ := @Scanner.reading_of_finish offset [] t tags h
    obtain rfl : tags = new := by simpa [Scanner.after, Scanner.init] using hnew
    exact hreading
  · intro h
    exact Scanner.finish_of_reading h []

end Tag

end ModelSchema
