import ModelSchema.Proofs.Document
import ModelSchema.Proofs.Ending

namespace ModelSchema

namespace Block

/-- What the block has gathered after a statement, or up to where the statement fails. -/
def gatheredBy (env : Setting) (line : SourceLine) (b : Block) : Gathered :=
  if isTag line.text then (b.addTag env line).state.gathered
  else match prepare env line with
    | .error _ => b.gathered
    | .ok (d, schema, tags) =>
      (FieldState.applyTags env.options d tags ⟨schema, b.gathered⟩).state.gathered

theorem addStatement_gathered {env : Setting} {line : SourceLine} {b : Block}
    (hok : (b.addStatement env line).failure = none) :
    (b.addStatement env line).state.gathered = b.gatheredBy env line := by
  simp only [addStatement, gatheredBy] at hok ⊢
  cases htag : isTag line.text with
  | true => simp
  | false =>
    simp only [htag, Bool.false_eq_true, if_false, addField] at hok ⊢
    cases hprepare : prepare env line with
    | error f => rfl
    | ok p =>
      obtain ⟨d, schema, tags⟩ := p
      simp only [hprepare] at hok ⊢
      cases happly : FieldState.applyTags env.options d tags ⟨schema, b.gathered⟩ with
      | mk s events failure =>
        cases failure with
        | none => rfl
        | some f => simp [happly, Outcome.fail] at hok

theorem addStatement_state_of_fail {env : Setting} {line : SourceLine} {b : Block} {f : Failure}
    (hfail : (b.addStatement env line).failure = some f) :
    (b.addStatement env line).state = b := by
  simp only [addStatement] at hfail ⊢
  split
  · simp only [addTag] at hfail ⊢
    split <;> simp_all [Outcome.ok, Outcome.fail]
  · simp only [addField] at hfail ⊢
    split
    · rfl
    · split <;> simp_all [Outcome.ok, Outcome.fail]

/-- A statement that acts on the block itself. Its tags act one by one, and a field is stored after
the last of them. -/
def addStatementInPlace (env : Setting) (line : SourceLine) (b : Block) : Outcome Block :=
  let o := b.addStatement env line
  ⟨{ b with properties := o.state.properties, gathered := b.gatheredBy env line }, o.events,
    o.failure⟩

theorem addStatementInPlace_of_ok {env : Setting} {line : SourceLine} {b : Block}
    (hok : (b.addStatement env line).failure = none) :
    b.addStatementInPlace env line = b.addStatement env line := by
  have hheading := addStatement_heading env line b
  have hgathered := addStatement_gathered hok
  cases ho : b.addStatement env line with
  | mk state events failure =>
    rw [ho] at hheading hgathered
    simp only [addStatementInPlace, ho, ← hgathered, Outcome.mk.injEq, and_true]
    simp only [heading, Heading.mk.injEq] at hheading
    rw [← hheading.1, ← hheading.2.1, ← hheading.2.2]

/-- What a failing statement has gathered is not in the schema of its block. -/
theorem addStatementInPlace_of_fail {env : Setting} {line : SourceLine} {b : Block} {f : Failure}
    (hfail : (b.addStatement env line).failure = some f) :
    (b.addStatementInPlace env line).state.heading = b.heading ∧
      (b.addStatementInPlace env line).state.openSchema = b.openSchema := by
  have hsame : (b.addStatementInPlace env line).state =
      { b with gathered := b.gatheredBy env line } := by
    simp only [addStatementInPlace, addStatement_state_of_fail hfail]
  rw [hsame]
  exact ⟨rfl, rfl⟩

end Block

namespace Machine

/-- A line that acts on the innermost block itself, where it is a statement. The document shows the
block as it is, also when the statement fails. -/
def stepInPlace (env : Setting) (m : Machine) (line : SourceLine) : Outcome Machine :=
  match LineKind.of line.text, m.stack with
  | .statement, b :: stack =>
    let o := b.addStatementInPlace env line
    let document := m.document.publish o.state o.state.openSchema
    let next := { m with stack := o.state :: stack, document }
    match o.failure with
    | none => .ok next.advance o.events
    | some f => .fail next o.events f
  | _, _ => m.step env line

/-- A run in which the tags of a field act on the open block itself. A field that fails half-way has
gathered something by then, but it becomes a property only after its last tag. -/
def runInPlace (env : Setting) : List SourceLine → Machine → Outcome Machine
  | [], m => ⟨m, [], m.unclosed? env⟩
  | line :: lines, m => (m.stepInPlace env line).andThen (runInPlace env lines)

variable {env : Setting} {line : SourceLine} {lines : List SourceLine} {m m' : Machine}

theorem stepInPlace_of_other (h : line.IsStatement → m.stack = []) :
    m.stepInPlace env line = m.step env line := by
  cases hkind : LineKind.of line.text with
  | statement => simp only [stepInPlace, hkind, h (LineKind.of_eq_statement.mp hkind)]
  | definition => simp only [stepInPlace, hkind]
  | model => simp only [stepInPlace, hkind]
  | close => simp only [stepInPlace, hkind]

theorem stepInPlace_of_moves (h : Moves env line m m') :
    m.stepInPlace env line = m.step env line := by
  cases h with
  | definition h hline hdef =>
    apply stepInPlace_of_other
    intro hstatement
    exact absurd (hline ▸ hdef.start) hstatement.notDefinition
  | model h hline hmodel hdepth hfirst =>
    apply stepInPlace_of_other
    intro hstatement
    exact absurd (hline ▸ hmodel.start) hstatement.notModel
  | close b stack hstack hclose =>
    apply stepInPlace_of_other
    intro hstatement
    exact absurd hclose hstatement.notClose
  | statement b stack hstack hline hok =>
    have hkind := LineKind.of_eq_statement.mpr hline
    have hsame := Block.addStatementInPlace_of_ok hok
    cases ho : b.addStatement env line with
    | mk state events failure =>
      rw [ho] at hok hsame
      simp only at hok
      subst hok
      simp only [stepInPlace, step, addStatement, hkind, hstack, hsame, ho]

/-- Lines that do not fail do the same in place. -/
theorem runInPlace_of_reaches (h : Reaches env lines m m') (rest : List SourceLine) :
    (runInPlace env (lines ++ rest) m).failure = (runInPlace env rest m').failure ∧
      (runInPlace env (lines ++ rest) m).state = (runInPlace env rest m').state := by
  refine Reaches.rec_moves (P := fun lines m m' =>
    (runInPlace env (lines ++ rest) m).failure = (runInPlace env rest m').failure ∧
      (runInPlace env (lines ++ rest) m).state = (runInPlace env rest m').state) ?_ ?_ h
  · intro m
    exact ⟨rfl, rfl⟩
  · intro line lines m next m' hmove hrest
    obtain ⟨hok, hnext⟩ := step_of_moves hmove
    rw [List.cons_append, runInPlace, stepInPlace_of_moves hmove, Outcome.andThen_of_ok hok, hnext]
    exact hrest

end Machine

namespace Document

variable {b c : Block} {s t : Fields Value} {d : Document}

/-- Another block that is registered, or shown anew, takes nothing from one that is shown. -/
theorem publish_register_of_shown (hne : c.header.number ≠ b.header.number)
    (hc : c.shape ≠ .model) (hshown : d.publish b t = d) :
    (d.register c).publish b t = d.register c := by
  rw [register_eq_place, publish_place hne hc, hshown]

theorem publish_publish_of_shown (hne : c.header.number ≠ b.header.number)
    (hc : c.shape ≠ .model) (hshown : d.publish b t = d) :
    (d.publish c s).publish b t = d.publish c s := by
  cases howns : d.owns c with
  | false => rw [publish_of_other hc howns, hshown]
  | true => rw [publish_of_owner hc howns, ← place_of_definition hc, publish_place hne hc, hshown]

end Document

namespace SourceLine

/-- The headers of the open blocks, from the outermost on, and then the lines to come. -/
def Ordered (headers lines : List SourceLine) : Prop :=
  (headers.reverse ++ lines).Pairwise fun a b => a.number < b.number

variable {line : SourceLine} {headers lines : List SourceLine}

theorem Ordered.track (h : Ordered headers (line :: lines)) :
    Ordered (track headers line) lines := by
  have hskip : Ordered headers lines :=
    h.sublist ((List.Sublist.refl _).append (List.sublist_cons_self line lines))
  cases hopens : line.opens with
  | true =>
    rw [track_of_opens headers hopens, Ordered, List.reverse_cons, List.append_assoc]
    exact h
  | false =>
    cases hcloses : line.closes with
    | false =>
      rw [track_of_neither headers hopens hcloses]
      exact hskip
    | true =>
      have hkind : line.IsClose := LineKind.of_eq_close.mp (by simpa [closes] using hcloses)
      rw [track_of_isClose headers hkind]
      exact hskip.sublist ((List.tail_sublist headers).reverse.append (List.Sublist.refl lines))

theorem Ordered.fresh (h : Ordered headers (line :: lines)) {header : SourceLine}
    (hmem : header ∈ headers) : header.number < line.number :=
  (List.pairwise_append.mp h).2.2 header (List.mem_reverse.mpr hmem) line (by simp)

theorem Ordered.inner {inner : SourceLine} (h : Ordered (inner :: headers) lines)
    {header : SourceLine} (hmem : header ∈ headers) : header.number < inner.number := by
  rw [Ordered, List.reverse_cons, List.append_assoc] at h
  exact (List.pairwise_append.mp h).2.2 header (List.mem_reverse.mpr hmem) inner (by simp)

end SourceLine

namespace Machine

open SourceLine (Ordered)

variable {env : Setting} {line : SourceLine} {lines : List SourceLine} {m m' : Machine}

/-- The document shows every open block as it is, and only the outermost one may be the model. -/
structure Shows (m : Machine) : Prop where
  outermost : m.stack.Pairwise fun inner _ => inner.shape ≠ .model
  shown : ∀ b ∈ m.stack, m.document.publish b b.openSchema = m.document

theorem Shows.enter {h : Heading} (hm : Shows m) (hshape : h.shape ≠ .model)
    (hfresh : ∀ b ∈ m.stack, b.header.number < h.line.number) : Shows (m.enter h) := by
  refine ⟨List.pairwise_cons.mpr ⟨fun _ _ => hshape, hm.outermost⟩, ?_⟩
  intro b hb
  rcases List.mem_cons.mp hb with rfl | hb
  · change (m.document.register h.block).publish h.block _ = m.document.register h.block
    rw [Document.register_eq_place, Document.publish_place_self]
  · have hlt : b.header.number < h.block.header.number := hfresh b hb
    exact Document.publish_register_of_shown (by omega) hshape (hm.shown b hb)

theorem Shows.enter_first {h : Heading} (hstack : m.stack = []) : Shows (m.enter h) := by
  have hsingle : (m.enter h).stack = [h.block] := by rw [Machine.enter, hstack]
  refine ⟨by rw [hsingle]; exact List.pairwise_singleton .., ?_⟩
  intro b hb
  rw [hsingle, List.mem_singleton] at hb
  rw [hb]
  change (m.document.register h.block).publish h.block _ = m.document.register h.block
  rw [Document.register_eq_place, Document.publish_place_self]

/-- The innermost block shows another schema; those around it stay as they are. -/
theorem Shows.publish {b c : Block} {stack : List Block} {schema : Fields Value} (hm : Shows m)
    (hstack : m.stack = b :: stack) (hheading : c.heading = b.heading)
    (hinner : ∀ a ∈ stack, a.header.number < b.header.number) :
    ∀ a ∈ stack, (m.document.publish c schema).publish a a.openSchema =
      m.document.publish c schema := by
  intro a ha
  have houtermost := hm.outermost
  rw [hstack] at houtermost
  have hshape := (List.pairwise_cons.mp houtermost).1 a ha
  have hne : b.header.number ≠ a.header.number := by
    have hlt := hinner a ha
    omega
  rw [Document.publish_congr hheading]
  exact Document.publish_publish_of_shown hne hshape (hm.shown a (by simp [hstack, ha]))

theorem Shows.moves (hm : Shows m) (hordered : Ordered (m.stack.map Block.header) (line :: lines))
    (h : Moves env line m m') : Shows m' := by
  have hfresh : ∀ b ∈ m.stack, b.header.number < line.number := fun b hb =>
    hordered.fresh (List.mem_map_of_mem hb)
  have hinner {b : Block} {stack : List Block} (hstack : m.stack = b :: stack) :
      ∀ a ∈ stack, a.header.number < b.header.number := by
    intro a ha
    rw [hstack] at hordered
    exact Ordered.inner hordered (List.mem_map_of_mem ha)
  have houter {b : Block} {stack : List Block} (hstack : m.stack = b :: stack) :
      (∀ a ∈ stack, b.shape ≠ .model) ∧ stack.Pairwise fun inner _ => inner.shape ≠ .model := by
    have h := hm.outermost
    rw [hstack] at h
    exact List.pairwise_cons.mp h
  cases h with
  | definition h hline hdef => exact hm.enter hdef.shape (by rw [hline]; exact hfresh)
  | model h hline hmodel hdepth hfirst =>
    -- At depth zero no block is open that the model could take its place from.
    have hlength : m.stack.length = 0 := by
      rw [Machine.depth] at hdepth
      omega
    exact Shows.enter_first (List.length_eq_zero_iff.mp hlength)
  | close b stack hstack hclose =>
    exact ⟨(houter hstack).2, hm.publish hstack rfl (hinner hstack)⟩
  | statement b stack hstack hline hok =>
    have hheading := Block.addStatement_heading env line b
    have hshape : (b.addStatement env line).state.shape = b.shape :=
      congrArg Heading.shape hheading
    refine ⟨List.pairwise_cons.mpr ⟨?_, (houter hstack).2⟩, ?_⟩
    · intro a ha
      rw [hshape]
      exact (houter hstack).1 a ha
    · intro a ha
      rcases List.mem_cons.mp ha with rfl | ha
      · exact Document.publish_publish
      · exact hm.publish hstack hheading (hinner hstack) a ha

/-- Lines in order keep the open blocks shown. -/
theorem Shows.reaches (h : Reaches env lines m m') (hm : Shows m)
    (hordered : Ordered (m.stack.map Block.header) lines) : Shows m' := by
  refine Reaches.rec_moves (P := fun lines m m' => Shows m →
    Ordered (m.stack.map Block.header) lines → Shows m') ?_ ?_ h hm hordered
  · intro m hm _
    exact hm
  · intro line lines m next m' hmove hrest hm hordered
    apply hrest (hm.moves hordered hmove)
    rw [hmove.headers]
    exact hordered.track

theorem shows_of_read {text : Text} {before after : List SourceLine}
    (hread : SourceLine.read text = before ++ after) (h : Reaches env before {} m) : Shows m := by
  have hpairwise := SourceLine.read_pairwise text
  rw [hread] at hpairwise
  have hstart : Shows {} := ⟨List.Pairwise.nil, fun b hb => absurd hb List.not_mem_nil⟩
  exact hstart.reaches h (List.pairwise_append.mp hpairwise).1

/-- The outcome is a failure, and nothing that can be seen has changed since `m`. -/
structure HaltsAt (m : Machine) (f : Failure) (o : Outcome Machine) : Prop where
  failure : o.failure = some f
  schema : o.state.schema = m.schema
  pos : o.state.pos = m.pos
  depth : o.state.depth = m.depth

variable {f : Failure}

theorem haltsAt_of_state {o : Outcome Machine} (hfail : o.failure = some f) (hstate : o.state = m) :
    HaltsAt m f o := by
  subst hstate
  exact ⟨hfail, rfl, rfl, rfl⟩

/-- A refused line fails in place as well, and the document does not show what it has done. -/
theorem Shows.stepInPlace_of_refuses (hm : Shows m) (h : Refuses env m line f) :
    HaltsAt m f (m.stepInPlace env line) := by
  have hother (hno : line.IsStatement → m.stack = []) : HaltsAt m f (m.stepInPlace env line) := by
    obtain ⟨hfail, hstate⟩ := step_of_refuses h
    rw [stepInPlace_of_other hno]
    exact haltsAt_of_state hfail hstate
  cases h with
  | statement hstack hline hfail =>
    rename_i b stack
    obtain ⟨hheading, hopen⟩ := Block.addStatementInPlace_of_fail hfail
    have hfails : (b.addStatementInPlace env line).failure = some f := hfail
    have hshown := hm.shown b (by simp [hstack])
    -- Shown again with what it has gathered since, the block shows the same.
    rw [← hopen, ← Document.publish_congr hheading] at hshown
    simp only [stepInPlace, LineKind.of_eq_statement.mpr hline, hstack, hfails, hshown]
    refine ⟨rfl, rfl, rfl, ?_⟩
    simp only [Outcome.fail, Machine.depth, hstack, List.length_cons]
  | unmatchedClose hstack hline => exact hother fun _ => hstack
  | outsideBlock hstack hline => exact hother fun _ => hstack
  | definitionHeader hstart hform => exact hother fun hno => absurd hstart hno.notDefinition
  | nestedModel hstart hdepth => exact hother fun hno => absurd hstart hno.notModel
  | secondModel hstart hdepth hfirst => exact hother fun hno => absurd hstart hno.notModel
  | modelHeader hstart hdepth hfirst hform => exact hother fun hno => absurd hstart hno.notModel

theorem Shows.runInPlace_of_refuses {before : List SourceLine} (hm : Shows m')
    (hbefore : Reaches env before m m') (h : Refuses env m' line f) (after : List SourceLine) :
    HaltsAt m' f (runInPlace env (before ++ line :: after) m) := by
  have hstep := hm.stepInPlace_of_refuses h
  have hline : runInPlace env (line :: after) m' = m'.stepInPlace env line :=
    Outcome.andThen_of_fail hstep.failure _
  rw [← hline] at hstep
  obtain ⟨hfailure, hstate⟩ := runInPlace_of_reaches hbefore (line :: after)
  exact ⟨hfailure.trans hstep.failure, hstate ▸ hstep.schema, hstate ▸ hstep.pos,
    hstate ▸ hstep.depth⟩

end Machine

namespace Session

open SourceLine (openHeaders)

/-- At the first line that is refused compilation ends: on that line, as deep as the lines before
it lead, and with the schema that those lines have made. All this is so as well when the tags of
each line act on the open block itself, and the failing line has done a part of its work. -/
theorem compile_of_refused_line (env : Setting) {text : Text} {before after : List SourceLine}
    {line : SourceLine} {m : Machine} {f : Failure}
    (hread : SourceLine.read text = before ++ line :: after)
    (hbefore : Machine.Reaches env before {} m) (hrefused : Machine.Refuses env m line f) :
    let s := (start env text).compile.state
    let p := Machine.runInPlace env (SourceLine.read text) {}
    ((start env text).compile.failure = some f ∧ s.machine.schema = m.schema ∧
        s.machine.pos = before.length ∧ s.current? = some line ∧
        s.machine.depth = (openHeaders before).length) ∧
      p.failure = some f ∧ p.state.schema = m.schema ∧ p.state.pos = before.length ∧
      p.state.depth = (openHeaders before).length := by
  intro s p
  obtain ⟨hfail, hstate⟩ := Machine.run_of_refuses hbefore hrefused after
  rw [← hread] at hfail hstate
  have hpos : m.pos = before.length := by
    rw [hbefore.pos]
    exact Nat.zero_add _
  have hdepth : m.depth = (openHeaders before).length := by
    rw [hbefore.depth_eq_open rfl]
    exact Nat.zero_add _
  have hmachine : s.machine = m := hstate
  have hlines : s.lines = before ++ line :: after := hread
  have hcurrent : s.current? = some line := by
    rw [current?, hmachine, hlines, hpos]
    simp
  have hshows := Machine.shows_of_read hread hbefore
  have hplace : Machine.HaltsAt m f p := by
    have h := hshows.runInPlace_of_refuses hbefore hrefused after
    rwa [← hread] at h
  refine ⟨⟨hfail, by rw [hmachine], by rw [hmachine, hpos], hcurrent, by rw [hmachine, hdepth]⟩, ?_⟩
  exact ⟨hplace.failure, hplace.schema, hplace.pos.trans hpos, hplace.depth.trans hdepth⟩

/-- A field inside two blocks, whose last tag fails when the others have acted. -/
def halfwayText : Text :=
  ("model M object \x7b\n  a: string @required\n  def b array \x7b\n".toList ++
    "    c: number @required @can(view: \"x\") @minimum(y)\n  \x7d\n\x7d".toList)

def halfwayLine : SourceLine := ⟨4, "c: number @required @can(view: \"x\") @minimum(y)".toList⟩

def halfwayMachine : Machine :=
  (Machine.feed {} ((SourceLine.read halfwayText).take 3) {}).state

theorem compile_of_refused_line_halfway :
    let f := Failure.located ⟨"<string>", 4, 1, some halfwayLine.text⟩
      (.notANumber "minimum".toList "y".toList)
    let schema : Value := .object
      [("$defs", .object [("b", .object [("type", .text "array"), ("items", .object
          [("type", .text "object"), ("properties", .object [])])])]),
        ("title", .text "m"), ("type", .text "object"),
        ("properties", .object [("a", .object [("type", .text "string")])])]
    let s := (start {} halfwayText).compile.state
    let p := Machine.runInPlace {} (SourceLine.read halfwayText) {}
    Machine.Reaches {} ((SourceLine.read halfwayText).take 3) {} halfwayMachine ∧
      Machine.Refuses {} halfwayMachine halfwayLine f ∧
      (start {} halfwayText).compile.failure = some f ∧ s.machine.schema = schema ∧
      s.machine.pos = 3 ∧ s.current? = some halfwayLine ∧ s.machine.depth = 2 ∧
      p.state.stack.map (·.gathered.required) = [["c"], ["a"]] ∧ p.failure = some f ∧
      p.state.schema = schema := by
  intro f schema s p
  have hread : SourceLine.read halfwayText =
      (SourceLine.read halfwayText).take 3 ++
        halfwayLine :: (SourceLine.read halfwayText).drop 4 := by decide +kernel
  have hbefore : Machine.Reaches {} ((SourceLine.read halfwayText).take 3) {} halfwayMachine :=
    ⟨by decide +kernel, rfl⟩
  have hfail : (halfwayMachine.step {} halfwayLine).failure = some f := by decide +kernel
  have hrefused : Machine.Refuses {} halfwayMachine halfwayLine f := by
    rcases Machine.refuses_or_spills hfail with ⟨hrefused, -⟩ | hspills
    · exact hrefused
    · cases hspills
  have hschema : halfwayMachine.schema = schema := rfl
  obtain ⟨⟨hfails, hsame, hpos, hcurrent, hdepth⟩, hplace, hsame', -, -⟩ :=
    compile_of_refused_line {} hread hbefore hrefused
  exact ⟨hbefore, hrefused, hfails, hsame.trans hschema, hpos, hcurrent, hdepth,
    by decide +kernel, hplace, hsame'.trans hschema⟩

end Session

end ModelSchema
