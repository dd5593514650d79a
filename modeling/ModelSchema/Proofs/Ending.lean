import ModelSchema.Proofs.Grammar

namespace ModelSchema

namespace SourceLine

/-- A header with nothing after its brace. -/
def opens (line : SourceLine) : Bool :=
  match LineKind.of line.text with
  | .definition | .model => !Header.hasBody line.text
  | .close | .statement => false

def closes (line : SourceLine) : Bool := LineKind.of line.text == .close

/-- The headers of the open blocks after one more line. -/
def track (headers : List SourceLine) (line : SourceLine) : List SourceLine :=
  if line.opens then line :: headers
  else if line.closes then headers.tail
  else headers

/-- The headers of the blocks that the lines leave open, the innermost first. -/
def openHeaders (lines : List SourceLine) : List SourceLine := lines.foldl track []

/-- How much deeper the lines lead: the blocks that they open less those that they close. -/
def rise (lines : List SourceLine) : Int := lines.countP opens - lines.countP closes

theorem rise_nil : rise [] = 0 := rfl

theorem rise_append (a b : List SourceLine) : rise (a ++ b) = rise a + rise b := by
  simp only [rise, List.countP_append]
  omega

variable {line : SourceLine}

theorem opens_of_definition {h : Heading} (hdef : h.IsDefinition) : h.line.opens = true := by
  obtain ⟨hkind, -, hbody⟩ := Heading.isDefinition_iff.mp hdef
  simp [opens, hkind, hbody]

theorem opens_of_model {h : Heading} (hmodel : h.IsModel) : h.line.opens = true := by
  obtain ⟨hkind, -, -, hbody⟩ := Heading.isModel_iff.mp hmodel
  simp [opens, hkind, hbody]

theorem closes_of_opens (h : line.opens = true) : line.closes = false := by
  cases hkind : LineKind.of line.text <;> simp_all [opens, closes]

theorem opens_of_isClose (h : line.IsClose) : line.opens = false := by
  simp [opens, LineKind.of_eq_close.mpr h]

theorem closes_of_isClose (h : line.IsClose) : line.closes = true := by
  simp [closes, LineKind.of_eq_close.mpr h]

theorem opens_of_isStatement (h : line.IsStatement) : line.opens = false := by
  simp [opens, LineKind.of_eq_statement.mpr h]

theorem closes_of_isStatement (h : line.IsStatement) : line.closes = false := by
  simp [closes, LineKind.of_eq_statement.mpr h]

theorem track_of_opens (headers : List SourceLine) (h : line.opens = true) :
    track headers line = line :: headers := by
  simp [track, h]

theorem track_of_isClose (headers : List SourceLine) (h : line.IsClose) :
    track headers line = headers.tail := by
  simp [track, opens_of_isClose h, closes_of_isClose h]

/-- A line that neither opens nor closes a block. -/
theorem track_of_neither (headers : List SourceLine) (ho : line.opens = false)
    (hc : line.closes = false) : track headers line = headers := by
  simp [track, ho, hc]

theorem rise_of_opens (h : line.opens = true) : rise [line] = 1 := by
  simp [rise, h, closes_of_opens h]

theorem rise_of_isClose (h : line.IsClose) : rise [line] = -1 := by
  simp [rise, opens_of_isClose h, closes_of_isClose h]

theorem rise_of_neither (ho : line.opens = false) (hc : line.closes = false) :
    rise [line] = 0 := by
  simp [rise, ho, hc]

end SourceLine

namespace Machine

open SourceLine (track openHeaders rise)

variable {env : Setting} {line : SourceLine} {lines : List SourceLine} {m m' : Machine}

theorem Moves.base (h : Moves env line m m') : m'.base = m.base := by
  cases h <;> rfl

/-- One line moves the stack as it moves the headers. -/
theorem Moves.headers (h : Moves env line m m') :
    m'.stack.map Block.header = track (m.stack.map Block.header) line := by
  cases h with
  | definition h hline hdef =>
    rw [← hline, SourceLine.track_of_opens _ (SourceLine.opens_of_definition hdef)]
    rfl
  | model h hline hmodel hdepth hfirst =>
    rw [← hline, SourceLine.track_of_opens _ (SourceLine.opens_of_model hmodel)]
    rfl
  | close b stack hstack hclose =>
    rw [hstack, SourceLine.track_of_isClose _ hclose]
    rfl
  | statement b stack hstack hline hok =>
    have hheader : (b.addStatement env line).state.header = b.header :=
      congrArg Heading.line (Block.addStatement_heading env line b)
    rw [hstack, SourceLine.track_of_neither _ (SourceLine.opens_of_isStatement hline)
      (SourceLine.closes_of_isStatement hline)]
    change (b.addStatement env line).state.header :: stack.map Block.header = _
    rw [hheader]
    rfl

theorem Moves.depth (h : Moves env line m m') : (m'.depth : Int) = m.depth + rise [line] := by
  cases h with
  | definition h hline hdef =>
    rw [← hline, SourceLine.rise_of_opens (SourceLine.opens_of_definition hdef)]
    simp only [Machine.depth, enter, List.length_cons]
    omega
  | model h hline hmodel hdepth hfirst =>
    rw [← hline, SourceLine.rise_of_opens (SourceLine.opens_of_model hmodel)]
    simp only [Machine.depth, enter, List.length_cons]
    omega
  | close b stack hstack hclose =>
    rw [SourceLine.rise_of_isClose hclose]
    simp only [Machine.depth, leave, hstack, List.length_cons]
    omega
  | statement b stack hstack hline hok =>
    rw [SourceLine.rise_of_neither (SourceLine.opens_of_isStatement hline)
      (SourceLine.closes_of_isStatement hline)]
    simp only [Machine.depth, hold, hstack, List.length_cons]
    omega

namespace Reaches

/-- Lines that lead from one state to another do so move by move. -/
theorem rec_moves {P : List SourceLine → Machine → Machine → Prop}
    (hnil : ∀ m, P [] m m)
    (hcons : ∀ line lines m next m', Moves env line m next → P lines next m' →
      P (line :: lines) m m')
    (h : Reaches env lines m m') : P lines m m' := by
  induction lines generalizing m with
  | nil =>
    obtain ⟨-, rfl⟩ := h
    exact hnil m
  | cons line lines ih =>
    obtain ⟨hok, hstate⟩ := h
    obtain ⟨hstep, hrest⟩ := Outcome.andThen_failure_eq_none.mp hok
    refine hcons line lines m _ m' (moves_of_step hstep) (ih ⟨hrest, ?_⟩)
    rw [← hstate, feed, Outcome.andThen_state hstep]

theorem base (h : Reaches env lines m m') : m'.base = m.base := by
  refine rec_moves (P := fun _ m m' => m'.base = m.base) ?_ ?_ h
  · intro m
    rfl
  · intro line lines m next m' hmove hrest
    rw [hrest, hmove.base]

theorem pos (h : Reaches env lines m m') : m'.pos = m.pos + lines.length := by
  obtain ⟨hok, rfl⟩ := h
  exact feed_pos hok

theorem headers (h : Reaches env lines m m') :
    m'.stack.map Block.header = lines.foldl track (m.stack.map Block.header) := by
  refine rec_moves (P := fun lines m m' =>
    m'.stack.map Block.header = lines.foldl track (m.stack.map Block.header)) ?_ ?_ h
  · intro m
    rfl
  · intro line lines m next m' hmove hrest
    rw [hrest, hmove.headers]
    rfl

theorem depth (h : Reaches env lines m m') : (m'.depth : Int) = m.depth + rise lines := by
  refine rec_moves (P := fun lines m m' => (m'.depth : Int) = m.depth + rise lines) ?_ ?_ h
  · intro m
    rw [SourceLine.rise_nil, Int.add_zero]
  · intro line lines m next m' hmove hrest
    have hsum := SourceLine.rise_append [line] lines
    have hfirst := hmove.depth
    rw [List.singleton_append] at hsum
    omega

/-- From outside of all blocks, the lines alone tell how many blocks are open. -/
theorem depth_eq_open (h : Reaches env lines m m') (hstack : m.stack = []) :
    m'.depth = m.base + (openHeaders lines).length := by
  have hheaders := h.headers
  rw [hstack, List.map_nil] at hheaders
  rw [Machine.depth, h.base, openHeaders, ← hheaders, List.length_map]

end Reaches

/-- Why a line is refused at the state before it: a statement that does not compile, a line that
needs an open block, a malformed header, or a model that is not alone. -/
inductive Refuses (env : Setting) (m : Machine) (line : SourceLine) : Failure → Prop
  | statement {b : Block} {stack : List Block} {f : Failure} (hstack : m.stack = b :: stack)
      (hline : line.IsStatement) (hfail : (b.addStatement env line).failure = some f) :
      Refuses env m line f
  | unmatchedClose (hstack : m.stack = []) (hline : line.IsClose) :
      Refuses env m line (env.failAt line .unmatchedClose)
  | outsideBlock (hstack : m.stack = []) (hline : line.IsStatement) :
      Refuses env m line (env.failAt line .outsideBlock)
  | definitionHeader (hstart : "def ".toList <+: line.text)
      (hform : Header.definition? line.text = none) :
      Refuses env m line (env.failAt line .definitionHeader)
  | nestedModel (hstart : "model ".toList <+: line.text) (hdepth : 0 < m.depth) :
      Refuses env m line (env.failAt line .nestedModel)
  | secondModel {first : Nat} (hstart : "model ".toList <+: line.text) (hdepth : m.depth = 0)
      (hfirst : m.modelLine = some first) :
      Refuses env m line (env.failAt line (.secondModel first))
  | modelHeader (hstart : "model ".toList <+: line.text) (hdepth : m.depth = 0)
      (hfirst : m.modelLine = none) (hform : Header.model? line.text = none) :
      Refuses env m line (env.failAt line .modelHeader)

/-- The header of a block is taken, and the block is not entered. -/
def skip (h : Heading) (m : Machine) : Machine :=
  { m with pos := m.pos + 1, document := m.document.register h.block }

/-- A header in order up to its brace, with a body on its line. -/
inductive Spills (env : Setting) (m : Machine) (line : SourceLine) : Machine → Failure → Prop
  | definition (h : Heading) (hline : h.line = line)
      (hkind : LineKind.of line.text = .definition)
      (hread : Header.definition? line.text = some (h.name, h.shape))
      (hbody : Header.hasBody line.text = true) :
      Spills env m line (m.skip h) (env.failAt line (.oneLineBlock h.name))
  | model (h : Heading) (hline : h.line = line) (hkind : LineKind.of line.text = .model)
      (hread : Header.model? line.text = some h.name) (hshape : h.shape = .model)
      (hbody : Header.hasBody line.text = true) (hdepth : m.depth = 0)
      (hfirst : m.modelLine = none) :
      Spills env m line (skip h { m with modelLine := some line.number })
        (env.failAt line (.oneLineBlock h.name))

variable {f : Failure}

theorem step_of_refuses (h : Refuses env m line f) :
    (m.step env line).failure = some f ∧ (m.step env line).state = m := by
  cases h with
  | statement hstack hline hfail =>
    rename_i b stack
    have hkind := LineKind.of_eq_statement.mpr hline
    cases ho : b.addStatement env line with
    | mk state events failure =>
      rw [ho] at hfail
      simp only at hfail
      subst hfail
      simp [step, hkind, addStatement, hstack, ho, Outcome.fail]
  | unmatchedClose hstack hline =>
    simp [step, LineKind.of_eq_close.mpr hline, closeBlock, hstack, failAt, Outcome.fail]
  | outsideBlock hstack hline =>
    simp [step, LineKind.of_eq_statement.mpr hline, addStatement, hstack, failAt, Outcome.fail]
  | definitionHeader hstart hform =>
    simp [step, LineKind.of_eq_definition.mpr hstart, openDefinition, hform, failAt, Outcome.fail]
  | nestedModel hstart hdepth =>
    simp [step, LineKind.of_eq_model.mpr hstart, openModel, hdepth, failAt, Outcome.fail]
  | secondModel hstart hdepth hfirst =>
    simp [step, LineKind.of_eq_model.mpr hstart, openModel, hdepth, hfirst, failAt, Outcome.fail]
  | modelHeader hstart hdepth hfirst hform =>
    simp [step, LineKind.of_eq_model.mpr hstart, openModel, hdepth, hfirst, hform, failAt,
      Outcome.fail]

theorem openBlock_failure_eq_some {h : Heading} {events : List Event}
    (hfail : (m.openBlock env h.block events).failure = some f) :
    Header.hasBody h.line.text = true ∧ f = env.failAt h.line (.oneLineBlock h.name) ∧
      (m.openBlock env h.block events).state = m.skip h := by
  have hheader : h.block.header = h.line := rfl
  have hname : h.block.name = h.name := rfl
  cases hbody : Header.hasBody h.line.text with
  | false => simp [openBlock, hheader, hbody, Outcome.ok] at hfail
  | true =>
    simp only [openBlock, hheader, hname, hbody, if_true, Outcome.fail] at hfail ⊢
    exact ⟨trivial, (Option.some.inj hfail).symm, rfl⟩

/-- The failing lines are those that are refused and the headers with a body. -/
theorem refuses_or_spills (hfail : (m.step env line).failure = some f) :
    (Refuses env m line f ∧ (m.step env line).state = m) ∨
      Spills env m line (m.step env line).state f := by
  have hrefused {g : Failure} (h : Refuses env m line g) :
      Refuses env m line f ∧ (m.step env line).state = m := by
    obtain ⟨hg, hstate⟩ := step_of_refuses h
    obtain rfl : g = f := Option.some.inj (hg.symm.trans hfail)
    exact ⟨h, hstate⟩
  cases hkind : LineKind.of line.text with
  | definition =>
    cases hread : Header.definition? line.text with
    | none => exact .inl (hrefused (.definitionHeader (LineKind.of_eq_definition.mp hkind) hread))
    | some p =>
      obtain ⟨name, shape⟩ := p
      let h : Heading := ⟨line, name, shape⟩
      simp only [step, hkind, openDefinition, hread] at hfail ⊢
      obtain ⟨hbody, rfl, hstate⟩ := openBlock_failure_eq_some (h := h) hfail
      exact .inr (hstate ▸ .definition h rfl hkind hread hbody)
  | model =>
    have hstart := LineKind.of_eq_model.mp hkind
    by_cases hdepth : 0 < m.depth
    · exact .inl (hrefused (.nestedModel hstart hdepth))
    · have hzero : m.depth = 0 := by omega
      cases hfirst : m.modelLine with
      | some first => exact .inl (hrefused (.secondModel hstart hzero hfirst))
      | none =>
        cases hread : Header.model? line.text with
        | none => exact .inl (hrefused (.modelHeader hstart hzero hfirst hread))
        | some name =>
          let h : Heading := ⟨line, name, .model⟩
          simp only [step, hkind, openModel, hdepth, if_false, hfirst, hread] at hfail ⊢
          obtain ⟨hbody, rfl, hstate⟩ := openBlock_failure_eq_some (h := h) hfail
          exact .inr (hstate ▸ .model h rfl hkind hread rfl hbody hzero hfirst)
  | close =>
    have hline := LineKind.of_eq_close.mp hkind
    cases hstack : m.stack with
    | nil => exact .inl (hrefused (.unmatchedClose hstack hline))
    | cons b stack =>
      have hmove : Moves env line m (m.leave b stack) := .close b stack hstack hline
      rw [(step_of_moves hmove).1] at hfail
      cases hfail
  | statement =>
    have hline := LineKind.of_eq_statement.mp hkind
    cases hstack : m.stack with
    | nil => exact .inl (hrefused (.outsideBlock hstack hline))
    | cons b stack =>
      rw [step_of_statement hstack hline] at hfail
      exact .inl (hrefused (.statement hstack hline hfail))

/-- A report that a line gives for another reason than a statement in its block is neither about a
tag nor about the end of the document. -/
theorem step_reported {r : Report Cause} (hfail : (m.step env line).failure = some (.reported r)) :
    (∃ b stack, m.stack = b :: stack ∧ line.IsStatement ∧
      (b.addStatement env line).failure = some (.reported r)) ∨
    ∀ name, r.cause ≠ .unterminated name ∧ r.cause ≠ .unclosed name := by
  rcases refuses_or_spills hfail with ⟨hrefused, -⟩ | hspilled
  · generalize hf : Failure.reported r = f at hrefused
    cases hrefused with
    | statement hstack hline hstatement => exact .inl ⟨_, _, hstack, hline, hf ▸ hstatement⟩
    | _ =>
      cases hf
      exact .inr fun name => ⟨Cause.noConfusion, Cause.noConfusion⟩
  · generalize hf : Failure.reported r = f at hspilled
    generalize (m.step env line).state = m' at hspilled
    cases hspilled with
    | _ =>
      cases hf
      exact .inr fun name => ⟨Cause.noConfusion, Cause.noConfusion⟩

/-- How a run ends at the lines that it does not pass: with all blocks closed or with one open
when no line is left, and at the first line otherwise. -/
inductive Ends (env : Setting) (m : Machine) : List SourceLine → Machine → Option Failure → Prop
  | closed (hstack : m.stack = []) : Ends env m [] m none
  | unclosed {f : Failure} (hopen : m.unclosed? env = some f) : Ends env m [] m (some f)
  | refused {line : SourceLine} {f : Failure} (h : Refuses env m line f)
      (after : List SourceLine) : Ends env m (line :: after) m (some f)
  | spilled {line : SourceLine} {m' : Machine} {f : Failure} (h : Spills env m line m' f)
      (after : List SourceLine) : Ends env m (line :: after) m' (some f)

theorem run_cons (line : SourceLine) (lines : List SourceLine) (m : Machine) :
    run env (line :: lines) m = (m.step env line).andThen (run env lines) := by
  rw [run]
  cases ho : m.step env line with
  | mk state events failure => cases failure <;> rfl

theorem run_ends (env : Setting) (lines : List SourceLine) (m : Machine) :
    ∃ before rest m', lines = before ++ rest ∧ Reaches env before m m' ∧
      Ends env m' rest (run env lines m).state (run env lines m).failure := by
  induction lines generalizing m with
  | nil =>
    refine ⟨[], [], m, rfl, .nil, ?_⟩
    change Ends env m [] m (m.unclosed? env)
    cases hopen : m.unclosed? env with
    | some f => exact .unclosed hopen
    | none => exact .closed (by simpa [unclosed?] using hopen)
  | cons line lines ih =>
    rw [run_cons]
    cases hfail : (m.step env line).failure with
    | none =>
      -- The line is passed, and the run ends where the rest of it does.
      obtain ⟨before, rest, m', hlines, hreaches, hends⟩ := ih (m.step env line).state
      refine ⟨line :: before, rest, m', by rw [hlines]; rfl, ?_, ?_⟩
      · exact .cons (moves_of_step hfail) hreaches
      · rw [Outcome.andThen_of_ok hfail]
        exact hends
    | some f =>
      refine ⟨[], line :: lines, m, rfl, .nil, ?_⟩
      rw [Outcome.andThen_of_fail hfail, hfail]
      rcases refuses_or_spills hfail with ⟨hrefused, hstate⟩ | hspilled
      · rw [hstate]
        exact .refused hrefused lines
      · exact .spilled hspilled lines

/-- A run ends at the first line that is refused, in the state before it. -/
theorem run_of_refuses {before : List SourceLine} (hbefore : Reaches env before m m')
    (h : Refuses env m' line f) (after : List SourceLine) :
    (run env (before ++ line :: after) m).failure = some f ∧
      (run env (before ++ line :: after) m).state = m' := by
  obtain ⟨hok, hreached⟩ := hbefore
  obtain ⟨hfail, hstate⟩ := step_of_refuses h
  have hfeed : feed env (line :: after) m' = m'.step env line := Outcome.andThen_of_fail hfail _
  have hall : (feed env (before ++ line :: after) m).failure = some f ∧
      (feed env (before ++ line :: after) m).state = m' := by
    rw [feed_append, Outcome.andThen_of_ok hok, hreached, hfeed]
    exact ⟨hfail, hstate⟩
  rw [run_eq_feed, Outcome.andThen_of_fail hall.1]
  exact hall

end Machine

end ModelSchema
