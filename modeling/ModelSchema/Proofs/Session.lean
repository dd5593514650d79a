import ModelSchema.Proofs.Breakdown
import ModelSchema.Proofs.Ending

namespace ModelSchema

namespace SourceLine

variable {line : SourceLine}

theorem countP_isModel (h : LineKind.of line.text = .model) : [line].countP isModel = 1 := by
  simp [isModel, h]

theorem countP_isModel_other (h : LineKind.of line.text ≠ .model) :
    [line].countP isModel = 0 := by
  simp [isModel, h]

end SourceLine

namespace Machine

open SourceLine (openHeaders rise)

variable {env : Setting} {line : SourceLine} {lines : List SourceLine} {m m' : Machine}
  {f : Failure}

/-- Whether a model has been seen, as a number. -/
def models (m : Machine) : Nat := m.modelLine.toList.length

theorem models_le_one (m : Machine) : m.models ≤ 1 := by
  unfold models
  cases m.modelLine <;> simp

theorem Moves.models (h : Moves env line m m') :
    m'.models = m.models + [line].countP SourceLine.isModel := by
  cases h with
  | definition h hline hdef =>
    have hkind := LineKind.of_eq_definition.mpr hdef.start
    rw [hline] at hkind
    rw [SourceLine.countP_isModel_other (by simp [hkind])]
    rfl
  | model h hline hmodel hdepth hfirst =>
    have hkind := LineKind.of_eq_model.mpr hmodel.start
    rw [hline] at hkind
    rw [SourceLine.countP_isModel hkind, Machine.models, Machine.models, hfirst]
    rfl
  | close b stack hstack hclose =>
    rw [SourceLine.countP_isModel_other (by simp [LineKind.of_eq_close.mpr hclose])]
    rfl
  | statement b stack hstack hline hok =>
    rw [SourceLine.countP_isModel_other (by simp [LineKind.of_eq_statement.mpr hline])]
    rfl

theorem Reaches.models (h : Reaches env lines m m') :
    m'.models = m.models + lines.countP SourceLine.isModel := by
  refine Reaches.rec_moves (P := fun lines m m' =>
    m'.models = m.models + lines.countP SourceLine.isModel) ?_ ?_ h
  · intro m
    rfl
  · intro line lines m next m' hmove hrest
    have hsum : ([line] ++ lines).countP SourceLine.isModel =
        [line].countP SourceLine.isModel + lines.countP SourceLine.isModel := List.countP_append
    rw [List.singleton_append] at hsum
    rw [hrest, hmove.models, hsum, Nat.add_assoc]

/-- Lines that lead somewhere also do so in part. -/
theorem Reaches.part (h : Reaches env lines m m') (n : Nat) :
    ∃ between, Reaches env (lines.take n) m between := by
  have hok := h.1
  rw [← List.take_append_drop n lines, feed_append] at hok
  exact ⟨_, (Outcome.andThen_failure_eq_none.mp hok).1, rfl⟩

/-- From `m`, which is outside of all blocks, the lines are taken and the state becomes `m'`. The
last of them may be a header with a body. -/
structure Takes (env : Setting) (m : Machine) (taken : List SourceLine) (m' : Machine) : Prop where
  pos : m'.pos = m.pos + taken.length
  opened : m'.depth = m.depth + (openHeaders taken).length
  depth : (m'.depth : Int) = m.depth + rise taken
  models : m'.models = m.models + taken.countP SourceLine.isModel
  passed : ∀ n < taken.length, ∃ between, Reaches env (taken.take n) m between

theorem depth_of_outside (hstack : m.stack = []) : m.depth = m.base := by
  rw [Machine.depth, hstack]
  rfl

theorem takes_of_reaches (hstack : m.stack = []) (h : Reaches env lines m m') :
    Takes env m lines m' where
  pos := h.pos
  opened := by rw [depth_of_outside hstack, h.depth_eq_open hstack]
  depth := h.depth
  models := h.models
  passed := fun n _ => h.part n

namespace Spills

variable {between : Machine}

theorem pos (h : Spills env m line m' f) : m'.pos = m.pos + 1 := by
  cases h <;> rfl

theorem depth (h : Spills env m line m' f) : m'.depth = m.depth := by
  cases h <;> rfl

theorem opens (h : Spills env m line m' f) : line.opens = false := by
  cases h with
  | definition h hline hkind hread hbody => simp [SourceLine.opens, hkind, hbody]
  | model h hline hkind hread hshape hbody => simp [SourceLine.opens, hkind, hbody]

theorem closes (h : Spills env m line m' f) : line.closes = false := by
  cases h with
  | definition h hline hkind hread hbody => simp [SourceLine.closes, hkind]
  | model h hline hkind hread hshape hbody => simp [SourceLine.closes, hkind]

theorem models (h : Spills env m line m' f) :
    m'.models = m.models + [line].countP SourceLine.isModel := by
  cases h with
  | definition h hline hkind hread hbody =>
    rw [SourceLine.countP_isModel_other (by simp [hkind])]
    rfl
  | model h hline hkind hread hshape hbody hdepth hfirst =>
    rw [SourceLine.countP_isModel hkind, Machine.models, Machine.models, hfirst]
    rfl

/-- A header with a body is taken after the lines before it, and opens nothing. -/
theorem takes (hstack : m.stack = []) (h : Reaches env lines m between)
    (hspills : Spills env between line m' f) : Takes env m (lines ++ [line]) m' := by
  have hbefore := takes_of_reaches hstack h
  have hopen : openHeaders (lines ++ [line]) = openHeaders lines := by
    rw [openHeaders, List.foldl_append]
    exact SourceLine.track_of_neither _ hspills.opens hspills.closes
  have hrise : rise (lines ++ [line]) = rise lines := by
    rw [SourceLine.rise_append, SourceLine.rise_of_neither hspills.opens hspills.closes,
      Int.add_zero]
  refine ⟨?_, ?_, ?_, ?_, ?_⟩
  · rw [hspills.pos, hbefore.pos, List.length_append, Nat.add_assoc]
    rfl
  · rw [hspills.depth, hbefore.opened, hopen]
  · rw [hspills.depth, hbefore.depth, hrise]
  · rw [hspills.models, hbefore.models, List.countP_append, Nat.add_assoc]
  · intro n hn
    rw [List.length_append, List.length_singleton] at hn
    rw [List.take_append_of_le_length (by omega)]
    exact h.part n

end Spills

/-- A run takes some of the lines, and all of them if it does not fail. -/
theorem run_takes (env : Setting) (lines : List SourceLine) (hstack : m.stack = []) :
    ∃ taken rest, lines = taken ++ rest ∧ Takes env m taken (run env lines m).state ∧
      ((run env lines m).failure = none →
        rest = [] ∧ (run env lines m).state.depth = m.depth) := by
  obtain ⟨before, rest, between, hlines, hreaches, hends⟩ := run_ends env lines m
  have hbefore := takes_of_reaches hstack hreaches
  -- The lines that are passed are taken; a header with a body is taken on top of them.
  generalize (run env lines m).state = last at hends ⊢
  generalize (run env lines m).failure = failure at hends ⊢
  cases hends with
  | closed hclosed =>
    refine ⟨before, [], hlines, hbefore, fun _ => ⟨rfl, ?_⟩⟩
    rw [depth_of_outside hclosed, hreaches.base, depth_of_outside hstack]
  | unclosed hopen =>
    refine ⟨before, [], hlines, hbefore, fun h => ?_⟩
    cases h
  | refused hrefused after =>
    refine ⟨before, _, hlines, hbefore, fun h => ?_⟩
    cases h
  | spilled hspills after =>
    refine ⟨_, after, ?_, hspills.takes hstack hreaches, fun h => ?_⟩
    · rw [hlines, List.append_assoc]
      rfl
    · cases h

end Machine

theorem Block.StatementBreaks.cases {env : Setting} {line : SourceLine} {c : Breakdown}
    (h : StatementBreaks env line c) : c = .tooManyDigits ∨ c = .propertiesReplaced := by
  rcases h with ⟨path, conditionText, actionText, conditions, actions, -, -, -, -, -, h⟩ | h
  · rcases h with ⟨hc, -⟩ | ⟨-, before, tag, after, -, -, value, -, h⟩
    · exact .inl hc
    · rcases h with ⟨hc, -⟩ | ⟨hc, -, -⟩
      · exact .inl hc
      · exact .inr hc
  · exact .inl h.2.1

/-- The ways in which work on a document can fail. -/
def Failure.Expected (f : Failure) : Prop :=
  (∃ r, f = .reported r ∧ Category.parse ∈ r.cause.category.lineage) ∨
    f = .broken .tooManyDigits ∨ f = .broken .propertiesReplaced

theorem Failure.expected_failAt (env : Setting) (line : SourceLine) (c : Cause) :
    (env.failAt line c).Expected := .inl ⟨_, rfl, c.parse_mem_lineage⟩

theorem Machine.run_expected {env : Setting} {lines : List SourceLine} {m : Machine} {f : Failure}
    (hlines : ∀ line ∈ lines, Text.strip line.text = line.text)
    (hfail : (run env lines m).failure = some f) : f.Expected := by
  rcases run_failure_eq_some.mp hfail with
    ⟨before, line, after, hsplit, -, hstep⟩ | ⟨-, hopen⟩
  · rcases step_failure hstep with ⟨c, rfl⟩ | ⟨b, stack, -, -, hstatement⟩
    · exact Failure.expected_failAt env line c
    · cases f with
      | reported r => exact .inl ⟨r, rfl, r.cause.parse_mem_lineage⟩
      | broken c =>
        have hstrip := hlines line (by simp [hsplit])
        rcases ((Block.addStatement_eq_broken hstrip).mp hstatement).cases with rfl | rfl
        · exact .inr (.inl rfl)
        · exact .inr (.inr rfl)
  · obtain ⟨b, -, rfl⟩ := Option.map_eq_some_iff.mp hopen
    exact Failure.expected_failAt env b.header _

namespace Session

open SourceLine (openHeaders rise)

/-- What can be asked of a session. -/
inductive Call where
  | current
  | advance
  | compile

/-- The session after a call, whether the call fails or not. -/
def perform (s : Session) : Call → Session
  | .current => s
  | .advance => (s.advance?.map Prod.snd).getD s
  | .compile => s.compile.state

def after (s : Session) (calls : List Call) : Session := calls.foldl perform s

/-- The lines that a call of `compile` takes. -/
def taken (s : Session) : List SourceLine :=
  (s.lines.drop s.machine.pos).take (s.compile.state.machine.pos - s.machine.pos)

/-- The lines that all calls of `compile` take. -/
def compiled (s : Session) : List Call → List SourceLine
  | [] => []
  | .compile :: calls => s.taken ++ compiled (s.perform .compile) calls
  | call :: calls => compiled (s.perform call) calls

variable {s : Session}

theorem advance?_eq_none (s : Session) : s.advance? = none ↔ s.lines.length ≤ s.machine.pos := by
  simp [advance?, current?]

theorem perform_advance (s : Session) : (s.perform .advance).machine.pos =
    if s.machine.pos < s.lines.length then s.machine.pos + 1 else s.machine.pos := by
  by_cases h : s.machine.pos < s.lines.length
  · simp [perform, advance?, current?, h, Machine.advance]
  · simp [perform, advance?, current?, h]

/-- Stepping over a line moves the position only. -/
theorem perform_advance_keeps (s : Session) : (s.perform .advance).env = s.env ∧
    (s.perform .advance).lines = s.lines ∧
    (s.perform .advance).machine.depth = s.machine.depth ∧
    (s.perform .advance).machine.models = s.machine.models := by
  by_cases h : s.machine.pos < s.lines.length
  · simp [perform, advance?, current?, h, Machine.advance, Machine.depth, Machine.models]
  · simp [perform, advance?, current?, h]

/-- Compiling takes lines from the position on, and it takes them all if it returns. -/
theorem compile_takes (s : Session) (hpos : s.machine.pos ≤ s.lines.length) :
    Machine.Takes s.env s.machine.resume s.taken s.compile.state.machine ∧
      s.machine.pos + s.taken.length ≤ s.lines.length ∧
      (∀ n < s.taken.length, s.lines[s.machine.pos + n]? = s.taken[n]?) ∧
      (s.compile.failure = none → s.machine.pos + s.taken.length = s.lines.length ∧
        s.compile.state.machine.depth = s.machine.depth) := by
  obtain ⟨taken, rest, hlines, htakes, hreturned⟩ :=
    Machine.run_takes (m := s.machine.resume) s.env (s.lines.drop s.machine.pos) rfl
  have hstate : s.compile.state.machine.pos = s.machine.pos + taken.length := htakes.pos
  have htaken : s.taken = taken := by
    rw [Session.taken, hstate, Nat.add_sub_cancel_left, hlines, List.take_left]
  have hlength : s.lines.length - s.machine.pos = taken.length + rest.length := by
    rw [← List.length_drop, hlines, List.length_append]
  rw [htaken]
  refine ⟨htakes, by omega, ?_, ?_⟩
  · intro n hn
    rw [← List.getElem?_drop, hlines, List.getElem?_append_left hn]
  · intro hok
    obtain ⟨hrest, hdepth⟩ := hreturned hok
    rw [hrest, List.length_nil] at hlength
    exact ⟨by omega, hdepth⟩

/-- What holds of a call of `compile`, made at this state: where it ends, how deep, and how it can
fail; and that before each line that it takes it stands at that line, no less deep than at the
call. -/
structure Steady (s : Session) : Prop where
  forward : s.machine.pos ≤ s.compile.state.machine.pos
  inside : s.compile.state.machine.pos ≤ s.lines.length
  returned : s.compile.failure = none → s.compile.state.machine.pos = s.lines.length ∧
    s.compile.state.machine.depth = s.machine.depth
  failed : ∀ f, s.compile.failure = some f → f.Expected ∧
    s.compile.state.machine.depth = s.machine.depth + (openHeaders s.taken).length
  counted : (s.compile.state.machine.depth : Int) = s.machine.depth + rise s.taken
  passed : ∀ n < s.taken.length, ∃ m : Machine,
    Machine.Reaches s.env (s.taken.take n) s.machine.resume m ∧ m.pos = s.machine.pos + n ∧
      s.lines[m.pos]? = s.taken[n]? ∧ (m.depth : Int) = s.machine.depth + rise (s.taken.take n) ∧
      s.machine.depth ≤ m.depth

theorem steady (hpos : s.machine.pos ≤ s.lines.length)
    (hlines : ∀ line ∈ s.lines, Text.strip line.text = line.text) : Steady s := by
  obtain ⟨htakes, hinside, hget, hreturned⟩ := compile_takes s hpos
  have hpos' : s.compile.state.machine.pos = s.machine.pos + s.taken.length := htakes.pos
  have hdepth : s.machine.resume.depth = s.machine.depth := rfl
  refine ⟨by omega, by omega, ?_, ?_, htakes.depth, ?_⟩
  · intro hok
    obtain ⟨hend, hsame⟩ := hreturned hok
    exact ⟨by omega, hsame⟩
  · intro f hfail
    refine ⟨Machine.run_expected ?_ hfail, htakes.opened⟩
    intro line hline
    exact hlines line (List.mem_of_mem_drop hline)
  · intro n hn
    obtain ⟨m, hm⟩ := htakes.passed n hn
    have hat : m.pos = s.machine.pos + n := by
      have h := hm.pos
      rw [List.length_take, Nat.min_eq_left (Nat.le_of_lt hn)] at h
      exact h
    -- A run closes only blocks of its own, so it stays above the depth that it starts from.
    have hopen := hm.depth_eq_open rfl
    have hbase : s.machine.resume.base = s.machine.depth := rfl
    refine ⟨m, hm, hat, ?_, hm.depth, by omega⟩
    rw [hat]
    exact hget n hn

/-- What every state of a session over a text has in common. -/
structure Over (env : Setting) (text : Text) (s : Session) : Prop where
  env : s.env = env
  lines : s.lines = SourceLine.read text
  inside : s.machine.pos ≤ s.lines.length

variable {env : Setting} {text : Text}

theorem Over.steady (h : Over env text s) : Steady s := by
  apply Session.steady h.inside
  intro line hline
  rw [h.lines] at hline
  exact SourceLine.strip_text_of_mem_read hline

theorem Over.perform (h : Over env text s) (call : Call) : Over env text (s.perform call) := by
  cases call with
  | current => exact h
  | advance =>
    obtain ⟨henv, hlines, -, -⟩ := s.perform_advance_keeps
    refine ⟨henv.trans h.env, hlines.trans h.lines, ?_⟩
    have hinside := h.inside
    rw [hlines, perform_advance]
    split <;> omega
  | compile => exact ⟨h.env, h.lines, h.steady.inside⟩

theorem Over.pos_le_perform (h : Over env text s) (call : Call) :
    s.machine.pos ≤ (s.perform call).machine.pos := by
  cases call with
  | current => exact Nat.le_refl _
  | advance =>
    rw [perform_advance]
    split <;> omega
  | compile => exact h.steady.forward

theorem Over.after (h : Over env text s) (calls : List Call) : Over env text (s.after calls) := by
  induction calls generalizing s with
  | nil => exact h
  | cons call calls ih => exact ih (h.perform call)

theorem Over.pos_le_after (h : Over env text s) (calls : List Call) :
    s.machine.pos ≤ (s.after calls).machine.pos := by
  induction calls generalizing s with
  | nil => exact Nat.le_refl _
  | cons call calls ih => exact Nat.le_trans (h.pos_le_perform call) (ih (h.perform call))

/-- Over a session the depth counts the blocks that its lines open and close, and the models add
up. -/
theorem Over.counts (h : Over env text s) (calls : List Call) :
    ((s.after calls).machine.depth : Int) = s.machine.depth + rise (s.compiled calls) ∧
      (s.after calls).machine.models =
        s.machine.models + (s.compiled calls).countP SourceLine.isModel := by
  induction calls generalizing s with
  | nil => exact ⟨(Int.add_zero _).symm, rfl⟩
  | cons call calls ih =>
    obtain ⟨hdepth, hmodels⟩ := ih (h.perform call)
    cases call with
    | current => exact ⟨hdepth, hmodels⟩
    | advance =>
      obtain ⟨-, -, hsame, hseen⟩ := s.perform_advance_keeps
      rw [hsame] at hdepth
      rw [hseen] at hmodels
      exact ⟨hdepth, hmodels⟩
    | compile =>
      have htakes := (compile_takes s h.inside).1
      have hfirst : ((s.perform .compile).machine.depth : Int) = s.machine.depth + rise s.taken :=
        htakes.depth
      have hseen : (s.perform .compile).machine.models =
          s.machine.models + s.taken.countP SourceLine.isModel := htakes.models
      have hcompiled : s.compiled (.compile :: calls) =
          s.taken ++ (s.perform .compile).compiled calls := rfl
      rw [hcompiled, SourceLine.rise_append, List.countP_append]
      constructor
      · change ((((s.perform .compile).after calls).machine.depth : Nat) : Int) = _
        omega
      · change ((s.perform .compile).after calls).machine.models = _
        omega

theorem over_start (env : Setting) (text : Text) : Over env text (start env text) :=
  ⟨rfl, rfl, Nat.zero_le _⟩

/-- However a session has come to where it is, its position is among the lines and does not go
back, its depth is what the lines have opened and not closed, at most one model header has been
taken, a line is stepped over unless none is left, and compiling is steady. -/
theorem after_calls_consistent (env : Setting) (text : Text) (calls : List Call) :
    let s := (start env text).after calls
    s.lines = SourceLine.read text ∧ s.machine.pos ≤ s.lines.length ∧
      (∀ further, s.machine.pos ≤ (s.after further).machine.pos) ∧
      (s.machine.depth : Int) = rise ((start env text).compiled calls) ∧
      ((start env text).compiled calls).countP SourceLine.isModel ≤ 1 ∧
      (s.advance? = none ↔ s.machine.pos = s.lines.length) ∧
      (s.perform .advance).machine.depth = s.machine.depth ∧ s.Steady := by
  intro s
  have hstart := over_start env text
  have hs : Over env text s := hstart.after calls
  obtain ⟨hdepth, hmodels⟩ := hstart.counts calls
  have hzero : (start env text).machine.depth = 0 := rfl
  have hnone : (start env text).machine.models = 0 := rfl
  have hinside := hs.inside
  refine ⟨hs.lines, hinside, hs.pos_le_after, ?_, ?_, ?_, s.perform_advance_keeps.2.2.1, hs.steady⟩
  · rw [hdepth, hzero]
    exact Int.zero_add _
  · have hle := ((start env text).after calls).machine.models_le_one
    rw [hnone] at hmodels
    omega
  · rw [advance?_eq_none]
    omega

/-- A model and a definition inside it that fails, and a definition after both. -/
def resumedText : Text :=
  ("model M object \x7b\n  def a object \x7b\n    b\n  \x7d\n\x7d\n".toList ++
    "def c array \x7b\n  d: string\n\x7d".toList)

/-- Fails in the inner block and then at its end, and steps over the rest of the model. -/
def resumedCalls : List Call := [.compile, .advance, .compile, .advance, .advance]

theorem after_calls_consistent_resumed :
    let first := start {} resumedText
    let s := first.after resumedCalls
    first.compile.failure = some (.located ⟨"<string>", 3, 1, some "b".toList⟩ .notAField) ∧
      first.compile.state.machine.pos = 2 ∧ first.compile.state.machine.depth = 2 ∧
      s.machine.pos = 5 ∧ s.machine.depth = 2 ∧ s.compile.failure = none ∧
      s.compile.state.machine.pos = 8 ∧ s.compile.state.machine.depth = 2 ∧
      ((first.compiled (resumedCalls ++ [.compile])).filter SourceLine.isModel) =
        [⟨1, "model M object \x7b".toList⟩] := by
  intro first s
  have hfail : first.compile.failure =
      some (.located ⟨"<string>", 3, 1, some "b".toList⟩ .notAField) := by decide +kernel
  have hok : s.compile.failure = none := by decide +kernel
  have hfirst : first.Steady := (after_calls_consistent {} resumedText []).2.2.2.2.2.2.2
  have hlast : s.Steady := (after_calls_consistent {} resumedText resumedCalls).2.2.2.2.2.2.2
  have hopen : (openHeaders first.taken).length = 2 := by decide +kernel
  have hlength : s.lines.length = 8 := by decide +kernel
  have hdepth : s.machine.depth = 2 := by decide +kernel
  obtain ⟨hend, hsame⟩ := hlast.returned hok
  refine ⟨hfail, by decide +kernel, ?_, by decide +kernel, hdepth, hok, ?_, ?_, by decide +kernel⟩
  · rw [(hfirst.failed _ hfail).2, hopen]
    rfl
  · rw [hend, hlength]
  · rw [hsame, hdepth]

end Session

end ModelSchema
