import ModelSchema.Proofs.Run

namespace ModelSchema

namespace Machine

variable {env : Setting} {lines : List SourceLine} {f : Failure}

/-- The lines fail with `f` at an index: that of the first line that fails, or that of the end. -/
inductive FailsAt (env : Setting) (lines : List SourceLine) : Nat → Failure → Prop
  | line {i : Nat} {line : SourceLine} {m : Machine} {f : Failure} (hline : lines[i]? = some line)
      (hbefore : Reaches env (lines.take i) {} m) (hfail : (m.step env line).failure = some f) :
      FailsAt env lines i f
  | unclosed {m : Machine} {f : Failure} (hall : Reaches env lines {} m)
      (hopen : m.unclosed? env = some f) : FailsAt env lines lines.length f

private theorem split_of_getElem? {i : Nat} {line : SourceLine} (h : lines[i]? = some line) :
    lines = lines.take i ++ line :: lines.drop (i + 1) := by
  obtain ⟨hlt, hget⟩ := List.getElem?_eq_some_iff.mp h
  rw [← hget, ← List.drop_eq_getElem_cons hlt, List.take_append_drop]

theorem run_failure_iff_failsAt :
    (run env lines {}).failure = some f ↔ ∃ i, FailsAt env lines i f := by
  rw [run_failure_eq_some]
  constructor
  · intro h
    rcases h with ⟨before, line, after, hlines, hok, hfail⟩ | ⟨hok, hopen⟩
    · have hline : lines[before.length]? = some line := by simp [hlines]
      have hbefore : lines.take before.length = before := by simp [hlines]
      exact ⟨before.length, .line hline (by rw [hbefore]; exact ⟨hok, rfl⟩) hfail⟩
    · exact ⟨lines.length, .unclosed ⟨hok, rfl⟩ hopen⟩
  · intro h
    obtain ⟨i, hi⟩ := h
    cases hi with
    | line hline hbefore hfail =>
      obtain ⟨hok, hstate⟩ := hbefore
      refine .inl ⟨_, _, _, split_of_getElem? hline, hok, ?_⟩
      rw [hstate]
      exact hfail
    | unclosed hall hopen =>
      obtain ⟨hok, hstate⟩ := hall
      rw [← hstate] at hopen
      exact .inr ⟨hok, hopen⟩

theorem feed_failure_of_line {i : Nat} {line : SourceLine} (hline : lines[i]? = some line)
    {m : Machine} (hbefore : Reaches env (lines.take i) {} m)
    (hfail : (m.step env line).failure = some f) : (feed env lines {}).failure = some f := by
  obtain ⟨hok, hstate⟩ := hbefore
  rw [split_of_getElem? hline, feed_append]
  apply Outcome.andThen_failure_eq_some.mpr
  refine .inr ⟨hok, ?_⟩
  rw [hstate, feed]
  exact Outcome.andThen_failure_eq_some.mpr (.inl hfail)

/-- Lines after a failure are not looked at. -/
theorem run_append_of_failure (h : (feed env lines {}).failure = some f)
    (further : List SourceLine) : run env (lines ++ further) {} = feed env lines {} := by
  rw [run_eq_feed, feed_append, Outcome.andThen_of_fail h, Outcome.andThen_of_fail h]

end Machine

namespace SourceLine

theorem readFrom_append (n : Nat) (raws further : List Text) :
    readFrom n (raws ++ further) = readFrom n raws ++ readFrom (n + raws.length) further := by
  induction raws generalizing n with
  | nil => rfl
  | cons raw raws ih =>
    have hnext : n + 1 + raws.length = n + (raws.length + 1) := by omega
    simp only [List.cons_append, readFrom, ih, List.append_assoc, List.length_cons, hnext]

/-- The statements on the first `n` lines of a document. -/
def readFirst (n : Nat) (text : Text) : List SourceLine :=
  readFrom 1 ((Text.splitOn '\n' text).take n)

theorem read_eq_readFirst (n : Nat) (text : Text) :
    ∃ further, read text = readFirst n text ++ further ∧ ∀ line ∈ further, n < line.number := by
  let raws := Text.splitOn '\n' text
  refine ⟨readFrom (1 + (raws.take n).length) (raws.drop n), ?_, ?_⟩
  · rw [readFirst, ← readFrom_append, List.take_append_drop]
    rfl
  · intro line hline
    by_cases hn : n ≤ raws.length
    · have hlow := (mem_readFrom hline).1
      rw [List.length_take, Nat.min_eq_left hn] at hlow
      omega
    · have hnil : raws.drop n = [] := List.drop_eq_nil_of_le (by omega)
      rw [hnil] at hline
      cases hline

end SourceLine

/-- The document fails with `f` while the statement on its line `n` is compiled. -/
def FailsOnLine (env : Setting) (text : Text) (n : Nat) (f : Failure) : Prop :=
  ∃ i line, (SourceLine.read text)[i]? = some line ∧ line.number = n ∧
    Machine.FailsAt env (SourceLine.read text) i f

namespace FailsOnLine

variable {env : Setting} {text : Text} {n : Nat} {f : Failure}

theorem of_failure (hfail : (compile env text).failure = some f)
    (hclosed : ∀ l name, f ≠ .located l (.unclosed name)) : ∃ n, FailsOnLine env text n f := by
  obtain ⟨i, hi⟩ := Machine.run_failure_iff_failsAt.mp hfail
  cases hi with
  | line hline hbefore hstep => exact ⟨_, i, _, hline, rfl, .line hline hbefore hstep⟩
  | unclosed hall hopen =>
    obtain ⟨b, -, hb⟩ := Option.map_eq_some_iff.mp hopen
    exact absurd hb.symm (hclosed _ _)

theorem failure (h : FailsOnLine env text n f) : (compile env text).failure = some f := by
  obtain ⟨i, line, -, -, hi⟩ := h
  exact Machine.run_failure_iff_failsAt.mpr ⟨i, hi⟩

/-- The failure comes from the first `n` lines alone. -/
theorem feed_readFirst (h : FailsOnLine env text n f) :
    (Machine.feed env (SourceLine.readFirst n text) {}).failure = some f := by
  obtain ⟨i, line, hline, hnumber, hi⟩ := h
  obtain ⟨further, hread, hfurther⟩ := SourceLine.read_eq_readFirst n text
  have hlt : i < (SourceLine.readFirst n text).length := by
    apply Nat.lt_of_not_le
    intro hle
    rw [hread, List.getElem?_append_right hle] at hline
    have hafter := hfurther line (List.mem_of_getElem? hline)
    omega
  have hfirst : (SourceLine.readFirst n text)[i]? = some line := by
    rwa [hread, List.getElem?_append_left hlt] at hline
  cases hi with
  | line hline' hbefore hstep =>
    obtain rfl := Option.some.inj (hline.symm.trans hline')
    rw [hread, List.take_append_of_le_length (Nat.le_of_lt hlt)] at hbefore
    exact Machine.feed_failure_of_line hfirst hbefore hstep
  | unclosed hall hopen =>
    -- No statement stands at the end.
    rw [List.getElem?_eq_none (Nat.le_refl _)] at hline
    cases hline

end FailsOnLine

/-- Every failure but that of a block without an end belongs to a statement, and is settled by the
lines up to it: all documents that begin with the same lines have the same outcome, with the same
report and the same events. -/
theorem compile_eq_of_same_beginning (env : Setting) (text : Text) (f : Failure) :
    ((compile env text).failure = some f → (∀ l name, f ≠ .located l (.unclosed name)) →
        ∃ n, FailsOnLine env text n f) ∧
      ∀ n, FailsOnLine env text n f → (compile env text).failure = some f ∧
        ∀ text' : Text, (Text.splitOn '\n' text').take n = (Text.splitOn '\n' text).take n →
          compile env text' = compile env text := by
  refine ⟨FailsOnLine.of_failure, ?_⟩
  intro n h
  refine ⟨h.failure, ?_⟩
  intro text' hsame
  have hfirst : SourceLine.readFirst n text' = SourceLine.readFirst n text :=
    congrArg (SourceLine.readFrom 1) hsame
  have hfeed := h.feed_readFirst
  obtain ⟨further, hread, -⟩ := SourceLine.read_eq_readFirst n text
  obtain ⟨further', hread', -⟩ := SourceLine.read_eq_readFirst n text'
  have hrun := Machine.run_append_of_failure hfeed further
  have hrun' := Machine.run_append_of_failure hfeed further'
  simp only [compile, hread, hread', hfirst, hrun, hrun']

/-- A definition that is redefined, and a statement in it that is no field. -/
def stumbleText : Text :=
  "def a object \x7b\n\x7d\ndef A object \x7b\n  // note\n  b\n  c: string\n\x7d".toList

/-- The same up to that statement, and then no document. -/
def stumbleText' : Text :=
  "def a object \x7b\n\x7d\ndef A object \x7b\n  // note\n  b\n\x7d \x7d\nmodel".toList

def stumble : Failure := .located ⟨"<string>", 5, 1, some "b".toList⟩ .notAField

theorem compile_eq_of_same_beginning_stumble :
    (∃ n, FailsOnLine {} stumbleText n stumble) ∧ FailsOnLine {} stumbleText 5 stumble ∧
      (Text.splitOn '\n' stumbleText').take 5 = (Text.splitOn '\n' stumbleText).take 5 ∧
      (compile {} stumbleText').failure = some stumble ∧
      compile {} stumbleText' = compile {} stumbleText := by
  have hfail : (compile {} stumbleText).failure = some stumble := by decide +kernel
  have hopen : ∀ l name, stumble ≠ .located l (.unclosed name) := by
    intro l name h
    cases h
  have hget : (SourceLine.read stumbleText)[3]? = some ⟨5, "b".toList⟩ := by decide +kernel
  have hline : FailsOnLine {} stumbleText 5 stumble :=
    ⟨3, _, hget, rfl, .line hget ⟨by decide +kernel, rfl⟩ (by decide +kernel)⟩
  have hsame : (Text.splitOn '\n' stumbleText').take 5 =
      (Text.splitOn '\n' stumbleText).take 5 := by decide +kernel
  obtain ⟨hexists, hall⟩ := compile_eq_of_same_beginning {} stumbleText stumble
  have heq := (hall 5 hline).2 stumbleText' hsame
  refine ⟨hexists hfail hopen, hline, hsame, ?_, heq⟩
  rw [heq]
  exact hfail

end ModelSchema
