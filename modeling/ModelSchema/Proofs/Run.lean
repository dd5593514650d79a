import Mathlib.Data.List.Nodup
import ModelSchema.Compiler
import ModelSchema.Proofs.Heading

namespace ModelSchema

namespace Outcome

variable {σ : Type}

/-- More work on the state, unless the work before it has failed. -/
def andThen (o : Outcome σ) (next : σ → Outcome σ) : Outcome σ :=
  match o.failure with
  | none => (next o.state).after o.events
  | some _ => o

theorem andThen_of_ok {o : Outcome σ} (h : o.failure = none) (next : σ → Outcome σ) :
    o.andThen next = (next o.state).after o.events := by
  simp [andThen, h]

theorem andThen_of_fail {o : Outcome σ} {f : Failure} (h : o.failure = some f)
    (next : σ → Outcome σ) : o.andThen next = o := by
  simp [andThen, h]

theorem andThen_failure_eq_none {o : Outcome σ} {next : σ → Outcome σ} :
    (o.andThen next).failure = none ↔ o.failure = none ∧ (next o.state).failure = none := by
  cases h : o.failure with
  | none => simp [andThen_of_ok h, after]
  | some f => simp [andThen_of_fail h, h]

theorem andThen_failure_eq_some {o : Outcome σ} {next : σ → Outcome σ} {f : Failure} :
    (o.andThen next).failure = some f ↔
      o.failure = some f ∨ (o.failure = none ∧ (next o.state).failure = some f) := by
  cases h : o.failure with
  | none => simp [andThen_of_ok h, after]
  | some g => simp [andThen_of_fail h, h]

theorem andThen_state {o : Outcome σ} (h : o.failure = none) (next : σ → Outcome σ) :
    (o.andThen next).state = (next o.state).state := by
  simp [andThen_of_ok h, after]

theorem andThen_assoc (o : Outcome σ) (next further : σ → Outcome σ) :
    (o.andThen next).andThen further = o.andThen fun s => (next s).andThen further := by
  cases h : o.failure with
  | some f => simp [andThen, h]
  | none =>
    cases hn : (next o.state).failure with
    | some f => simp [andThen, h, hn, after]
    | none => simp [andThen, h, hn, after, List.append_assoc]

end Outcome

theorem FieldState.applyTags_failure (o : Options) (d : Declaration) (tags : List Tag)
    (s s' : FieldState) : (applyTags o d tags s).failure = (applyTags o d tags s').failure := by
  induction tags generalizing s s' with
  | nil => rfl
  | cons tag tags ih =>
    simp only [applyTags]
    cases Effect.ofTag o d tag with
    | error f => rfl
    | ok e => exact ih _ _

/-- The empty block under a heading. -/
def Heading.block (h : Heading) : Block := ⟨h.line, h.name, h.shape, [], {}⟩

namespace Block

def heading (b : Block) : Heading := ⟨b.header, b.name, b.shape⟩

theorem addStatement_heading (env : Setting) (line : SourceLine) (b : Block) :
    (b.addStatement env line).state.heading = b.heading := by
  simp only [addStatement]
  split
  · simp only [addTag]
    split <;> rfl
  · simp only [addField]
    split
    · rfl
    · split <;> rfl

/-- Whether a statement fails does not depend on what its block holds. -/
theorem addStatement_failure (env : Setting) (line : SourceLine) (b c : Block) :
    (b.addStatement env line).failure = (c.addStatement env line).failure := by
  simp only [addStatement]
  split
  · simp only [addTag]
    split <;> rfl
  · simp only [addField]
    split
    · rfl
    · rename_i d schema tags _
      have h := FieldState.applyTags_failure env.options d tags ⟨schema, b.gathered⟩
        ⟨schema, c.gathered⟩
      split <;> split <;> simp_all [Outcome.ok, Outcome.fail]

end Block

namespace Machine

/-- A new block stands on top of the open ones. -/
def enter (h : Heading) (m : Machine) : Machine :=
  { m with pos := m.pos + 1, stack := h.block :: m.stack
           document := m.document.register h.block }

/-- The innermost block `b` ends, and `stack` is left. -/
def leave (b : Block) (stack : List Block) (m : Machine) : Machine :=
  { m with pos := m.pos + 1, stack, document := m.document.publish b b.closedSchema }

/-- The innermost block has become `b`, above `stack`. -/
def hold (b : Block) (stack : List Block) (m : Machine) : Machine :=
  { m with pos := m.pos + 1, stack := b :: stack, document := m.document.publish b b.openSchema }

/-- What a line can do without failing. A fact about whole runs is an induction on the lines, with a
case for each kind of move. -/
inductive Moves (env : Setting) (line : SourceLine) (m : Machine) : Machine → Prop
  | definition (h : Heading) (hline : h.line = line) (hdef : h.IsDefinition) :
      Moves env line m (m.enter h)
  | model (h : Heading) (hline : h.line = line) (hmodel : h.IsModel) (hdepth : m.depth = 0)
      (hfirst : m.modelLine = none) :
      Moves env line m (enter h { m with modelLine := some line.number })
  | close (b : Block) (stack : List Block) (hstack : m.stack = b :: stack)
      (hclose : line.IsClose) : Moves env line m (m.leave b stack)
  | statement (b : Block) (stack : List Block) (hstack : m.stack = b :: stack)
      (hline : line.IsStatement) (hok : (b.addStatement env line).failure = none) :
      Moves env line m (m.hold (b.addStatement env line).state stack)

variable {env : Setting} {line : SourceLine} {m m' : Machine}

theorem openBlock_ok (env : Setting) (m : Machine) {h : Heading}
    (hbody : Header.hasBody h.line.text = false) (events : List Event) :
    (m.openBlock env h.block events).failure = none ∧
      (m.openBlock env h.block events).state = m.enter h := by
  have hheader : h.block.header = h.line := rfl
  simp [openBlock, hheader, hbody, Outcome.ok, enter, advance]

theorem openBlock_failure_eq_none {b : Block} {events : List Event}
    (h : (m.openBlock env b events).failure = none) : Header.hasBody b.header.text = false := by
  cases hbody : Header.hasBody b.header.text with
  | false => rfl
  | true => simp [openBlock, hbody, Outcome.fail] at h

theorem step_of_moves (h : Moves env line m m') :
    (m.step env line).failure = none ∧ (m.step env line).state = m' := by
  cases h with
  | definition h hline hdef =>
    subst hline
    obtain ⟨hkind, hread, hbody⟩ := Heading.isDefinition_iff.mp hdef
    simp only [step, hkind, openDefinition, hread]
    exact openBlock_ok env m hbody _
  | model h hline hmodel hdepth hfirst =>
    subst hline
    obtain ⟨hkind, hread, hshape, hbody⟩ := Heading.isModel_iff.mp hmodel
    have hblock : (⟨h.line, h.name, .model, [], {}⟩ : Block) = h.block := by
      rw [Heading.block, hshape]
    simp only [step, hkind, openModel, hdepth, hfirst, hread, hblock, Nat.lt_irrefl, if_false]
    exact openBlock_ok env _ hbody _
  | close b stack hstack hclose =>
    simp [step, LineKind.of_eq_close.mpr hclose, closeBlock, hstack, Outcome.ok, advance, leave]
  | statement b stack hstack hline hok =>
    have hkind := LineKind.of_eq_statement.mpr hline
    cases ho : b.addStatement env line with
    | mk state events failure =>
      rw [ho] at hok
      simp only at hok
      subst hok
      simp [step, hkind, addStatement, hstack, ho, Outcome.ok, advance, hold]

theorem moves_of_step (hok : (m.step env line).failure = none) :
    Moves env line m (m.step env line).state := by
  cases hkind : LineKind.of line.text with
  | definition =>
    simp only [step, hkind, openDefinition] at hok ⊢
    cases hread : Header.definition? line.text with
    | none => simp [hread, failAt, Outcome.fail] at hok
    | some p =>
      obtain ⟨name, shape⟩ := p
      simp only [hread] at hok ⊢
      have hbody := openBlock_failure_eq_none hok
      let h : Heading := ⟨line, name, shape⟩
      have hstate := fun events => (openBlock_ok (h := h) env m hbody events).2
      rw [show (⟨line, name, shape, [], {}⟩ : Block) = h.block from rfl, hstate]
      exact .definition h rfl (Heading.isDefinition_iff.mpr ⟨hkind, hread, hbody⟩)
  | model =>
    simp only [step, hkind, openModel] at hok ⊢
    by_cases hdepth : 0 < m.depth
    · simp [hdepth, failAt, Outcome.fail] at hok
    · simp only [hdepth, if_false] at hok ⊢
      cases hfirst : m.modelLine with
      | some first => simp [hfirst, failAt, Outcome.fail] at hok
      | none =>
        cases hread : Header.model? line.text with
        | none => simp [hfirst, hread, failAt, Outcome.fail] at hok
        | some name =>
          simp only [hfirst, hread] at hok ⊢
          have hbody := openBlock_failure_eq_none hok
          let h : Heading := ⟨line, name, .model⟩
          have hstate := (openBlock_ok (h := h) env { m with modelLine := some line.number }
            hbody []).2
          rw [show (⟨line, name, .model, [], {}⟩ : Block) = h.block from rfl, hstate]
          exact .model h rfl (Heading.isModel_iff.mpr ⟨hkind, hread, rfl, hbody⟩)
            (by omega) hfirst
  | close =>
    simp only [step, hkind, closeBlock] at hok ⊢
    cases hstack : m.stack with
    | nil => simp [hstack, failAt, Outcome.fail] at hok
    | cons b stack => exact .close b stack hstack (LineKind.of_eq_close.mp hkind)
  | statement =>
    simp only [step, hkind, addStatement] at hok ⊢
    cases hstack : m.stack with
    | nil => simp [hstack, failAt, Outcome.fail] at hok
    | cons b stack =>
      simp only [hstack] at hok ⊢
      have hline := LineKind.of_eq_statement.mp hkind
      cases ho : b.addStatement env line with
      | mk state events failure =>
        cases failure with
        | some f => simp [ho, Outcome.fail] at hok
        | none =>
          have hmove := Moves.statement (m := m) b stack hstack hline (by rw [ho])
          rw [ho] at hmove
          exact hmove

/-- A line fails at its start, or as a statement of the innermost block. -/
theorem step_failure {f : Failure} (hfail : (m.step env line).failure = some f) :
    (∃ c, f = env.failAt line c) ∨ ∃ b stack, m.stack = b :: stack ∧ line.IsStatement ∧
      (b.addStatement env line).failure = some f := by
  -- A header that is in order up to its brace can still have a body on its line.
  have hopen (m : Machine) (b : Block) (events : List Event) (hb : b.header = line)
      (h : (m.openBlock env b events).failure = some f) : ∃ c, f = env.failAt line c := by
    simp only [openBlock] at h
    split at h
    · cases h
      exact ⟨_, by rw [hb]⟩
    · cases h
  cases hkind : LineKind.of line.text with
  | definition =>
    simp only [step, hkind, openDefinition] at hfail
    split at hfail
    · cases hfail
      exact .inl ⟨_, rfl⟩
    · exact .inl (hopen _ _ _ rfl hfail)
  | model =>
    simp only [step, hkind, openModel] at hfail
    split at hfail
    · cases hfail
      exact .inl ⟨_, rfl⟩
    · split at hfail
      · cases hfail
        exact .inl ⟨_, rfl⟩
      · split at hfail
        · cases hfail
          exact .inl ⟨_, rfl⟩
        · exact .inl (hopen _ _ _ rfl hfail)
  | close =>
    simp only [step, hkind, closeBlock] at hfail
    split at hfail
    · cases hfail
      exact .inl ⟨_, rfl⟩
    · cases hfail
  | statement =>
    simp only [step, hkind, addStatement] at hfail
    split at hfail
    · cases hfail
      exact .inl ⟨_, rfl⟩
    · rename_i b stack hstack
      refine .inr ⟨b, stack, hstack, LineKind.of_eq_statement.mp hkind, ?_⟩
      cases ho : b.addStatement env line with
      | mk state events failure =>
        cases failure with
        | none => simp [ho, Outcome.ok] at hfail
        | some g => simpa [ho, Outcome.fail] using hfail

theorem step_of_statement {b : Block} {stack : List Block} (hstack : m.stack = b :: stack)
    (hline : line.IsStatement) :
    (m.step env line).failure = (b.addStatement env line).failure := by
  have hkind := LineKind.of_eq_statement.mpr hline
  cases ho : b.addStatement env line with
  | mk state events failure =>
    cases failure <;> simp [step, hkind, addStatement, hstack, ho, Outcome.ok, Outcome.fail]

/-- Takes lines, up to the first that fails. Blocks may be open at the end. -/
def feed (env : Setting) : List SourceLine → Machine → Outcome Machine
  | [], m => .ok m []
  | line :: lines, m => (m.step env line).andThen (feed env lines)

theorem feed_append (a b : List SourceLine) (m : Machine) :
    feed env (a ++ b) m = (feed env a m).andThen (feed env b) := by
  induction a generalizing m with
  | nil => simp [feed, Outcome.ok, Outcome.andThen, Outcome.after]
  | cons line a ih =>
    change (m.step env line).andThen (feed env (a ++ b)) = _
    rw [feed, Outcome.andThen_assoc]
    congr 1
    funext m
    exact ih m

/-- A run takes all lines and then looks for open blocks. -/
theorem run_eq_feed (lines : List SourceLine) (m : Machine) :
    run env lines m = (feed env lines m).andThen fun m => ⟨m, [], m.unclosed? env⟩ := by
  induction lines generalizing m with
  | nil => simp [run, feed, Outcome.ok, Outcome.andThen, Outcome.after]
  | cons line lines ih =>
    rw [feed, Outcome.andThen_assoc, run]
    cases ho : m.step env line with
    | mk state events failure =>
      cases failure with
      | some f => rfl
      | none =>
        change (run env lines state).after events = _
        rw [ih]
        rfl

theorem run_failure_eq_none {lines : List SourceLine} :
    (run env lines m).failure = none ↔
      (feed env lines m).failure = none ∧ (feed env lines m).state.stack = [] := by
  rw [run_eq_feed, Outcome.andThen_failure_eq_none]
  simp [unclosed?]

theorem run_state {lines : List SourceLine} (h : (feed env lines m).failure = none) :
    (run env lines m).state = (feed env lines m).state := by
  rw [run_eq_feed, Outcome.andThen_state h]

/-- A failing run fails at its first line that does, or at the end. -/
theorem run_failure_eq_some {lines : List SourceLine} {f : Failure} :
    (run env lines m).failure = some f ↔
      (∃ before line after, lines = before ++ line :: after ∧
        (feed env before m).failure = none ∧
        ((feed env before m).state.step env line).failure = some f) ∨
      ((feed env lines m).failure = none ∧
        (feed env lines m).state.unclosed? env = some f) := by
  induction lines generalizing m with
  | nil => simp [run, feed, Outcome.ok]
  | cons line lines ih =>
    rw [run_eq_feed, feed, Outcome.andThen_assoc, Outcome.andThen_failure_eq_some]
    rw [← run_eq_feed, ih, Outcome.andThen_failure_eq_none]
    constructor
    · rintro (hfail | ⟨hok, ⟨before, next, after, rfl, hbefore, hfail⟩ | ⟨hrest, hopen⟩⟩)
      · exact .inl ⟨[], line, lines, rfl, rfl, hfail⟩
      · refine .inl ⟨line :: before, next, after, rfl, ?_, ?_⟩
        · exact Outcome.andThen_failure_eq_none.mpr ⟨hok, hbefore⟩
        · rw [feed, Outcome.andThen_state hok]
          exact hfail
      · refine .inr ⟨⟨hok, hrest⟩, ?_⟩
        rw [Outcome.andThen_state hok]
        exact hopen
    · rintro (⟨before, next, after, hlines, hbefore, hfail⟩ | ⟨⟨hok, hrest⟩, hopen⟩)
      · cases before with
        | nil =>
          obtain ⟨rfl, rfl⟩ := List.cons.inj hlines
          exact .inl hfail
        | cons first before =>
          obtain ⟨rfl, rfl⟩ := List.cons.inj hlines
          obtain ⟨hok, hbefore⟩ := Outcome.andThen_failure_eq_none.mp hbefore
          rw [feed, Outcome.andThen_state hok] at hfail
          exact .inr ⟨hok, .inl ⟨before, next, after, rfl, hbefore, hfail⟩⟩
      · rw [Outcome.andThen_state hok] at hopen
        exact .inr ⟨hok, .inr ⟨hrest, hopen⟩⟩

/-- What every move keeps, lines without failure keep. -/
theorem feed_invariant {P : Machine → Prop} {lines : List SourceLine}
    (hmove : ∀ line ∈ lines, ∀ m m', P m → Moves env line m m' → P m') (hm : P m)
    (hok : (feed env lines m).failure = none) : P (feed env lines m).state := by
  induction lines generalizing m with
  | nil => exact hm
  | cons line lines ih =>
    obtain ⟨hstep, hrest⟩ := Outcome.andThen_failure_eq_none.mp hok
    rw [feed, Outcome.andThen_state hstep]
    have hnext := hmove line (by simp) m _ hm (moves_of_step hstep)
    exact ih (fun l hl => hmove l (by simp [hl])) hnext hrest

/-- The lines lead from one state to another without failure. -/
def Reaches (env : Setting) (lines : List SourceLine) (m m' : Machine) : Prop :=
  (feed env lines m).failure = none ∧ (feed env lines m).state = m'

namespace Reaches

variable {m'' : Machine} {a b lines : List SourceLine}

theorem nil : Reaches env [] m m := ⟨rfl, rfl⟩

theorem cons (hmove : Moves env line m m') (h : Reaches env lines m' m'') :
    Reaches env (line :: lines) m m'' := by
  obtain ⟨hok, rfl⟩ := step_of_moves hmove
  exact ⟨Outcome.andThen_failure_eq_none.mpr ⟨hok, h.1⟩, (Outcome.andThen_state hok _).trans h.2⟩

theorem append (h : Reaches env a m m') (h' : Reaches env b m' m'') :
    Reaches env (a ++ b) m m'' := by
  obtain ⟨hok, rfl⟩ := h
  rw [Reaches, feed_append]
  exact ⟨Outcome.andThen_failure_eq_none.mpr ⟨hok, h'.1⟩, (Outcome.andThen_state hok _).trans h'.2⟩

end Reaches

end Machine

end ModelSchema
