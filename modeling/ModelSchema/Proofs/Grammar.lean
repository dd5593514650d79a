import ModelSchema.Proofs.Outline

namespace ModelSchema

namespace Grammar

/-- Lines that can stand between the header `h` and the end of its block. -/
inductive Items (env : Setting) : Heading → List SourceLine → Prop
  | nil (h : Heading) : Items env h []
  | statement {h : Heading} {line : SourceLine} {lines : List SourceLine}
      (hline : line.IsStatement) (hok : (h.block.addStatement env line).failure = none)
      (hrest : Items env h lines) : Items env h (line :: lines)
  | definition {h k : Heading} {inner lines : List SourceLine} {close : SourceLine}
      (hdef : k.IsDefinition) (hinner : Items env k inner) (hclose : close.IsClose)
      (hrest : Items env h lines) : Items env h (k.line :: (inner ++ close :: lines))

/-- The lines of a document with `n` models. -/
inductive Doc (env : Setting) : Nat → List SourceLine → Prop
  | nil : Doc env 0 []
  | definition {k : Heading} {n : Nat} {inner lines : List SourceLine} {close : SourceLine}
      (hdef : k.IsDefinition) (hinner : Items env k inner) (hclose : close.IsClose)
      (hrest : Doc env n lines) : Doc env n (k.line :: (inner ++ close :: lines))
  | model {k : Heading} {n : Nat} {inner lines : List SourceLine} {close : SourceLine}
      (hmodel : k.IsModel) (hinner : Items env k inner) (hclose : close.IsClose)
      (hrest : Doc env n lines) : Doc env (n + 1) (k.line :: (inner ++ close :: lines))

variable {env : Setting}

theorem items_of_body {F : Body} {h : Heading} (hF : F.WellFormed) (hc : F.Compiles env h) :
    Items env h F.lines := by
  induction F generalizing h with
  | nil => exact .nil h
  | statement line rest ih => exact .statement hF.1 hc.1 (ih hF.2 hc.2)
  | block heading inner close rest ihInner ihRest =>
    obtain ⟨hdef, hinner, hclose, hrest⟩ := hF
    exact .definition hdef (ihInner hinner hc.1) hclose (ihRest hrest hc.2)

theorem body_of_items {h : Heading} {lines : List SourceLine} (hi : Items env h lines) :
    ∃ F : Body, F.lines = lines ∧ F.WellFormed ∧ F.Compiles env h := by
  induction hi with
  | nil h => exact ⟨.nil, rfl, trivial, trivial⟩
  | statement hline hok hrest ih =>
    obtain ⟨F, rfl, hF, hc⟩ := ih
    exact ⟨.statement _ F, rfl, ⟨hline, hF⟩, ⟨hok, hc⟩⟩
  | definition hdef hinner hclose hrest ihInner ihRest =>
    obtain ⟨I, rfl, hI, hcI⟩ := ihInner
    obtain ⟨F, rfl, hF, hcF⟩ := ihRest
    exact ⟨.block _ I _ F, rfl, ⟨hdef, hI, hclose, hF⟩, ⟨hcI, hcF⟩⟩

theorem doc_of_forest {F : Forest} (hF : F.WellFormed) (hc : F.Compiles env) :
    Doc env F.models F.lines := by
  induction F with
  | nil => exact .nil
  | cons t F ih =>
    have ht := hF t (by simp)
    have hitems := items_of_body ht.body (hc t (by simp))
    have hrest := ih (fun u hu => hF u (by simp [hu])) (fun u hu => hc u (by simp [hu]))
    rw [Forest.lines_cons]
    rcases ht.heading with hdef | hmodel
    · rw [Forest.models_cons_definition hdef]
      exact .definition hdef hitems ht.close hrest
    · rw [Forest.models_cons_model hmodel]
      exact .model hmodel hitems ht.close hrest

theorem forest_of_doc {n : Nat} {lines : List SourceLine} (hd : Doc env n lines) :
    ∃ F : Forest, F.lines = lines ∧ F.WellFormed ∧ F.Compiles env ∧ F.models = n := by
  induction hd with
  | nil => exact ⟨[], rfl, by simp [Forest.WellFormed], by simp [Forest.Compiles], rfl⟩
  | definition hdef hinner hclose hrest ih =>
    obtain ⟨I, rfl, hI, hcI⟩ := body_of_items hinner
    obtain ⟨F, rfl, hF, hcF, rfl⟩ := ih
    refine ⟨⟨_, I, _⟩ :: F, Forest.lines_cons _ F, ?_, ?_, Forest.models_cons_definition hdef F⟩
    · exact List.forall_mem_cons.mpr ⟨⟨.inl hdef, hI, hclose⟩, hF⟩
    · exact List.forall_mem_cons.mpr ⟨hcI, hcF⟩
  | model hmodel hinner hclose hrest ih =>
    obtain ⟨I, rfl, hI, hcI⟩ := body_of_items hinner
    obtain ⟨F, rfl, hF, hcF, rfl⟩ := ih
    refine ⟨⟨_, I, _⟩ :: F, Forest.lines_cons _ F, ?_, ?_, Forest.models_cons_model hmodel F⟩
    · exact List.forall_mem_cons.mpr ⟨⟨.inr hmodel, hI, hclose⟩, hF⟩
    · exact List.forall_mem_cons.mpr ⟨hcI, hcF⟩

end Grammar

namespace Machine

variable {env : Setting} {lines : List SourceLine} {m m' : Machine}

theorem Moves.pos {line : SourceLine} (h : Moves env line m m') : m'.pos = m.pos + 1 := by
  cases h <;> rfl

theorem feed_pos (hok : (feed env lines m).failure = none) :
    (feed env lines m).state.pos = m.pos + lines.length := by
  induction lines generalizing m with
  | nil => rfl
  | cons line lines ih =>
    obtain ⟨hstep, hrest⟩ := Outcome.andThen_failure_eq_none.mp hok
    have hpos := (moves_of_step hstep).pos
    rw [feed, Outcome.andThen_state hstep, ih hrest, hpos, List.length_cons]
    omega

/-- A machine at line `i`, after the lines before it, takes that line and comes to the next. -/
def TakesAt (env : Setting) (lines : List SourceLine) (i : Nat) (line : SourceLine) : Prop :=
  ∃ m m' : Machine, Reaches env (lines.take i) {} m ∧ m.pos = i ∧
    Reaches env [line] m m' ∧ m'.pos = i + 1

theorem takesAt_of_feed (hok : (feed env lines {}).failure = none) {i : Nat} {line : SourceLine}
    (hi : lines[i]? = some line) : TakesAt env lines i line := by
  obtain ⟨hlt, hget⟩ := List.getElem?_eq_some_iff.mp hi
  have hsplit : lines = lines.take i ++ line :: lines.drop (i + 1) := by
    rw [← hget, ← List.drop_eq_getElem_cons hlt, List.take_append_drop]
  rw [hsplit, feed_append, Outcome.andThen_failure_eq_none] at hok
  obtain ⟨hbefore, hafter⟩ := hok
  have hstep := (Outcome.andThen_failure_eq_none.mp hafter).1
  have hpos := feed_pos hbefore
  rw [List.length_take, Nat.min_eq_left (Nat.le_of_lt hlt), Nat.zero_add] at hpos
  refine ⟨_, _, ⟨hbefore, rfl⟩, hpos, Reaches.cons (moves_of_step hstep) Reaches.nil, ?_⟩
  rw [(moves_of_step hstep).pos, hpos]

theorem run_failure_eq_none_iff_doc :
    (run env lines {}).failure = none ↔ ∃ n ≤ 1, Grammar.Doc env n lines := by
  rw [run_failure_eq_none]
  constructor
  · rintro ⟨hok, hstack⟩
    obtain ⟨F, rfl, hF, hc, hmodels⟩ := pending_of_feed rfl hok hstack
    exact ⟨F.models, hmodels, Grammar.doc_of_forest hF hc⟩
  · rintro ⟨n, hn, hd⟩
    obtain ⟨F, rfl, hF, hc, rfl⟩ := Grammar.forest_of_doc hd
    obtain ⟨modelLine, hok, hstate⟩ := reaches_forest hF hc (m := {}) rfl rfl hn
    exact ⟨hok, by rw [hstate]⟩

end Machine

namespace Session

theorem start_compile (env : Setting) (text : Text) :
    (start env text).compile =
      let o := Machine.run env (SourceLine.read text) {}
      ⟨{ start env text with machine := o.state }, o.events, o.failure⟩ := rfl

/-- A fresh session compiles exactly the documents of the grammar. It ends past the last line,
outside of all blocks, and has taken each line once. -/
theorem start_compile_iff_doc (env : Setting) (text : Text) :
    ((start env text).compile.failure = none ↔
        ∃ n ≤ 1, Grammar.Doc env n (SourceLine.read text)) ∧
      ((start env text).compile.failure = none →
        let s := (start env text).compile.state
        s.lines = SourceLine.read text ∧ s.machine.pos = s.lines.length ∧ s.machine.depth = 0 ∧
          Machine.Reaches env s.lines {} s.machine ∧
          ∀ i line, s.lines[i]? = some line → Machine.TakesAt env s.lines i line) := by
  rw [start_compile]
  refine ⟨Machine.run_failure_eq_none_iff_doc, ?_⟩
  intro hok
  obtain ⟨hfeed, hstack⟩ := Machine.run_failure_eq_none.mp hok
  have hstate := Machine.run_state hfeed
  refine ⟨rfl, ?_, ?_, ⟨hfeed, hstate.symm⟩, ?_⟩
  · change (Machine.run env (SourceLine.read text) {}).state.pos = _
    rw [hstate, Machine.feed_pos hfeed]
    exact Nat.zero_add _
  · have hbase : (Machine.feed env (SourceLine.read text) {}).state.base = 0 := by
      refine Machine.feed_invariant (P := fun m => m.base = 0) ?_ rfl hfeed
      intro line _ m m' hm hmove
      cases hmove <;> exact hm
    change (Machine.run env (SourceLine.read text) {}).state.depth = 0
    rw [hstate, Machine.depth, hbase, hstack]
    rfl
  · intro i line hi
    exact Machine.takesAt_of_feed hfeed hi

/-- A definition inside the model, with a statement on either side of it, and one after the
model. -/
def nestedText : Text :=
  "model M object \x7b\na: b\ndef b object\nc: number\n\x7d\nd: b\n\x7d\n".toList ++
    "def e array \x7b \n\x7d end".toList

theorem start_compile_iff_doc_nested :
    (start {} nestedText).compile.failure = none ∧
      (∃ n ≤ 1, Grammar.Doc {} n (SourceLine.read nestedText)) ∧
      (start {} nestedText).compile.state.machine.pos =
        (start {} nestedText).compile.state.lines.length ∧
      (start {} nestedText).compile.state.machine.depth = 0 := by
  have hok : (start {} nestedText).compile.failure = none := by decide +kernel
  obtain ⟨-, hpos, hdepth, -⟩ := (start_compile_iff_doc {} nestedText).2 hok
  exact ⟨hok, (start_compile_iff_doc {} nestedText).1.mp hok, hpos, hdepth⟩

end Session

end ModelSchema
