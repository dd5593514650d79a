import ModelSchema.Proofs.Run

namespace ModelSchema

/-- What stands between the header of a block and its end: statements, and whole blocks. -/
inductive Body where
  | nil
  | statement (line : SourceLine) (rest : Body)
  | block (heading : Heading) (inner : Body) (close : SourceLine) (rest : Body)

/-- A block without the blocks inside it. -/
structure Section where
  heading : Heading
  own : List SourceLine

namespace Body

def lines : Body → List SourceLine
  | nil => []
  | statement line rest => line :: rest.lines
  | block heading inner close rest => heading.line :: (inner.lines ++ close :: rest.lines)

/-- The statements that are not inside another block. -/
def own : Body → List SourceLine
  | nil => []
  | statement line rest => line :: rest.own
  | block _ _ _ rest => rest.own

/-- The blocks at all depths, in the order of their headers. -/
def sections : Body → List Section
  | nil => []
  | statement _ rest => rest.sections
  | block heading inner _ rest => ⟨heading, inner.own⟩ :: (inner.sections ++ rest.sections)

/-- Every line is of the kind that its place asks for. -/
def WellFormed : Body → Prop
  | nil => True
  | statement line rest => line.IsStatement ∧ rest.WellFormed
  | block heading inner close rest =>
    heading.IsDefinition ∧ inner.WellFormed ∧ close.IsClose ∧ rest.WellFormed

/-- Every statement compiles by itself, in the block that it stands in. -/
def Compiles (env : Setting) : Body → Heading → Prop
  | nil, _ => True
  | statement line rest, h =>
    (h.block.addStatement env line).failure = none ∧ rest.Compiles env h
  | block heading inner _ rest, h => inner.Compiles env heading ∧ rest.Compiles env h

theorem sections_definition {F : Body} (hF : F.WellFormed) :
    ∀ s ∈ F.sections, s.heading.IsDefinition := by
  induction F with
  | nil => simp [sections]
  | statement line rest ih => exact ih hF.2
  | block heading inner close rest ihInner ihRest =>
    obtain ⟨hdef, hinner, -, hrest⟩ := hF
    intro s hs
    simp only [sections, List.mem_cons, List.mem_append] at hs
    rcases hs with rfl | hs | hs
    · exact hdef
    · exact ihInner hinner s hs
    · exact ihRest hrest s hs

theorem sections_shape {F : Body} (hF : F.WellFormed) :
    ∀ s ∈ F.sections, s.heading.shape ≠ .model :=
  fun s hs => (sections_definition hF s hs).shape

theorem Compiles.own {env : Setting} {F : Body} {h : Heading} (hc : F.Compiles env h) :
    ∀ line ∈ F.own, (h.block.addStatement env line).failure = none := by
  induction F with
  | nil => simp [Body.own]
  | statement line rest ih => exact List.forall_mem_cons.mpr ⟨hc.1, ih hc.2⟩
  | block heading inner close rest ihInner ihRest => exact ihRest hc.2

theorem Compiles.sections {env : Setting} {F : Body} {h : Heading} (hc : F.Compiles env h) :
    ∀ s ∈ F.sections, ∀ line ∈ s.own, (s.heading.block.addStatement env line).failure = none := by
  induction F generalizing h with
  | nil => simp [Body.sections]
  | statement line rest ih => exact ih hc.2
  | block heading inner close rest ihInner ihRest =>
    intro s hs
    simp only [Body.sections, List.mem_cons, List.mem_append] at hs
    rcases hs with rfl | hs | hs
    · exact Compiles.own hc.1
    · exact ihInner hc.1 s hs
    · exact ihRest hc.2 s hs

/-- Headers stand in the lines in the order of the blocks. -/
theorem sections_sublist (F : Body) : (F.sections.map fun s => s.heading.line).Sublist F.lines := by
  induction F with
  | nil => exact List.Sublist.slnil
  | statement line rest ih => exact ih.cons line
  | block heading inner close rest ihInner ihRest =>
    simp only [sections, lines, List.map_cons, List.map_append]
    exact (ihInner.append (ihRest.cons close)).cons_cons heading.line

/-- The lines of a body, with the end of its block, are read in one way only. -/
theorem lines_inj {F G : Body} (hF : F.WellFormed) (hG : G.WellFormed) {c c' : SourceLine}
    {r r' : List SourceLine} (hc : c.IsClose) (hc' : c'.IsClose)
    (h : F.lines ++ c :: r = G.lines ++ c' :: r') : F = G ∧ c = c' ∧ r = r' := by
  -- The first line tells which constructor made either body, so only equal ones can meet.
  induction F generalizing G c c' r r' with
  | nil =>
    cases G with
    | nil => simpa [lines] using h
    | statement line rest =>
      obtain ⟨rfl, -⟩ := List.cons.inj h
      exact absurd hc hG.1.notClose
    | block heading inner close rest =>
      obtain ⟨rfl, -⟩ := List.cons.inj h
      have hk := LineKind.of_eq_definition.mpr hG.1.start
      rw [LineKind.of_eq_close.mpr hc] at hk
      cases hk
  | statement line rest ih =>
    cases G with
    | nil =>
      obtain ⟨rfl, -⟩ := List.cons.inj h
      exact absurd hc' hF.1.notClose
    | statement line' rest' =>
      obtain ⟨rfl, hrest⟩ := List.cons.inj h
      obtain ⟨rfl, hends⟩ := ih hF.2 hG.2 hc hc' hrest
      exact ⟨rfl, hends⟩
    | block heading inner close rest' =>
      obtain ⟨rfl, -⟩ := List.cons.inj h
      exact absurd hG.1.start hF.1.notDefinition
  | block heading inner close rest ihInner ihRest =>
    cases G with
    | nil =>
      obtain ⟨rfl, -⟩ := List.cons.inj h
      have hk := LineKind.of_eq_definition.mpr hF.1.start
      rw [LineKind.of_eq_close.mpr hc'] at hk
      cases hk
    | statement line rest' =>
      obtain ⟨rfl, -⟩ := List.cons.inj h
      exact absurd hF.1.start hG.1.notDefinition
    | block heading' inner' close' rest' =>
      simp only [lines, List.cons_append, List.append_assoc, List.cons.injEq] at h
      obtain rfl := hF.1.ext hG.1 h.1
      obtain ⟨rfl, rfl, hrest⟩ := ihInner hF.2.1 hG.2.1 hF.2.2.1 hG.2.2.1 h.2
      obtain ⟨rfl, hends⟩ := ihRest hF.2.2.2 hG.2.2.2 hc hc' hrest
      exact ⟨rfl, hends⟩

end Body

/-- A block with everything inside it. -/
structure Tree where
  heading : Heading
  body : Body
  close : SourceLine

namespace Tree

def lines (t : Tree) : List SourceLine := t.heading.line :: (t.body.lines ++ [t.close])

def sections (t : Tree) : List Section := ⟨t.heading, t.body.own⟩ :: t.body.sections

structure WellFormed (t : Tree) : Prop where
  heading : t.heading.IsDefinition ∨ t.heading.IsModel
  body : t.body.WellFormed
  close : t.close.IsClose

theorem lines_of_body (heading : Heading) (inner : Body) (close : SourceLine) (rest : Body) :
    (Body.block heading inner close rest).lines = lines ⟨heading, inner, close⟩ ++ rest.lines := by
  simp [Body.lines, lines]

theorem lines_inj {t u : Tree} (ht : t.WellFormed) (hu : u.WellFormed) {r r' : List SourceLine}
    (h : t.lines ++ r = u.lines ++ r') : t = u ∧ r = r' := by
  simp only [lines, List.cons_append, List.append_assoc, List.cons.injEq, List.nil_append] at h
  have hheading : t.heading = u.heading := by
    rcases ht.heading with htd | htm
    · rcases hu.heading with hud | hum
      · exact htd.ext hud h.1
      · have hk := LineKind.of_eq_definition.mpr htd.start
        rw [h.1, LineKind.of_eq_model.mpr hum.start] at hk
        cases hk
    · rcases hu.heading with hud | hum
      · have hk := LineKind.of_eq_definition.mpr hud.start
        rw [← h.1, LineKind.of_eq_model.mpr htm.start] at hk
        cases hk
      · exact htm.ext hum h.1
  obtain ⟨hbody, hclose, hrest⟩ := Body.lines_inj ht.body hu.body ht.close hu.close h.2
  cases t
  cases u
  simp_all

end Tree

/-- The blocks of a document. -/
abbrev Forest := List Tree

namespace Forest

def lines (F : Forest) : List SourceLine := F.flatMap Tree.lines

/-- The blocks at all depths, in the order of their headers. -/
def sections (F : Forest) : List Section := F.flatMap Tree.sections

def WellFormed (F : Forest) : Prop := ∀ t ∈ F, t.WellFormed

def Compiles (env : Setting) (F : Forest) : Prop := ∀ t ∈ F, t.body.Compiles env t.heading

/-- How many of the blocks are models. -/
def models (F : Forest) : Nat := F.countP fun t => t.heading.shape = .model

theorem lines_cons (t : Tree) (F : Forest) :
    lines (t :: F) = t.heading.line :: (t.body.lines ++ t.close :: lines F) := by
  simp [lines, Tree.lines]

theorem sections_sublist (F : Forest) :
    (F.sections.map fun s => s.heading.line).Sublist F.lines := by
  induction F with
  | nil => exact List.Sublist.slnil
  | cons t F ih =>
    have hbody := t.body.sections_sublist.trans (List.sublist_append_left t.body.lines [t.close])
    have htree : (t.sections.map fun s => s.heading.line).Sublist t.lines :=
      hbody.cons_cons t.heading.line
    change ((t.sections ++ sections F).map fun s => s.heading.line).Sublist (t.lines ++ lines F)
    rw [List.map_append]
    exact htree.append ih

/-- Every statement compiles in its own block. -/
theorem Compiles.sections {env : Setting} {F : Forest} (hc : F.Compiles env) :
    ∀ s ∈ F.sections, ∀ line ∈ s.own, (s.heading.block.addStatement env line).failure = none := by
  intro s hs
  obtain ⟨t, ht, hs⟩ := List.mem_flatMap.mp hs
  rcases List.mem_cons.mp hs with rfl | hs
  · exact Body.Compiles.own (hc t ht)
  · exact Body.Compiles.sections (hc t ht) s hs

theorem models_cons_definition {t : Tree} (h : t.heading.IsDefinition) (F : Forest) :
    models (t :: F) = models F := by
  simp [models, h.shape]

theorem models_cons_model {t : Tree} (h : t.heading.IsModel) (F : Forest) :
    models (t :: F) = models F + 1 := by
  simp [models, h.shape]

theorem lines_inj {F G : Forest} (hF : F.WellFormed) (hG : G.WellFormed)
    (h : F.lines = G.lines) : F = G := by
  induction F generalizing G with
  | nil =>
    cases G with
    | nil => rfl
    | cons u G => simp [lines, Tree.lines] at h
  | cons t F ih =>
    cases G with
    | nil => simp [lines, Tree.lines] at h
    | cons u G =>
      have hsplit : t.lines ++ lines F = u.lines ++ lines G := h
      obtain ⟨rfl, hrest⟩ := Tree.lines_inj (hF t (by simp)) (hG u (by simp)) hsplit
      have htail := ih (fun t ht => hF t (by simp [ht])) (fun u hu => hG u (by simp [hu])) hrest
      rw [htail]

end Forest

/-- The lines end the blocks under these headings one after the other, the first heading first, and
then form whole blocks. Of the models, `seen` came before. -/
def Pending (env : Setting) (seen : Nat) : List Heading → List SourceLine → Prop
  | [], lines => ∃ F : Forest, F.lines = lines ∧ F.WellFormed ∧ F.Compiles env ∧
      F.models + seen ≤ 1
  | h :: hs, lines => ∃ (F : Body) (close : SourceLine) (rest : List SourceLine),
      lines = F.lines ++ close :: rest ∧ F.WellFormed ∧ F.Compiles env h ∧ close.IsClose ∧
        Pending env seen hs rest

namespace Pending

variable {env : Setting} {seen : Nat} {h : Heading} {hs : List Heading} {line : SourceLine}
  {lines : List SourceLine}

theorem close (hclose : line.IsClose) (hp : Pending env seen hs lines) :
    Pending env seen (h :: hs) (line :: lines) :=
  ⟨.nil, line, lines, rfl, trivial, trivial, hclose, hp⟩

theorem statement (hline : line.IsStatement)
    (hok : (h.block.addStatement env line).failure = none)
    (hp : Pending env seen (h :: hs) lines) : Pending env seen (h :: hs) (line :: lines) := by
  obtain ⟨F, close, rest, rfl, hF, hc, hclose, hrest⟩ := hp
  exact ⟨.statement line F, close, rest, rfl, ⟨hline, hF⟩, ⟨hok, hc⟩, hclose, hrest⟩

theorem definition (hdef : h.IsDefinition) (hp : Pending env seen (h :: hs) lines) :
    Pending env seen hs (h.line :: lines) := by
  obtain ⟨F, close, rest, rfl, hF, hc, hclose, hrest⟩ := hp
  cases hs with
  | nil =>
    obtain ⟨G, rfl, hG, hcG, hmodels⟩ := hrest
    refine ⟨⟨h, F, close⟩ :: G, Forest.lines_cons _ G, ?_, ?_, ?_⟩
    · exact List.forall_mem_cons.mpr ⟨⟨.inl hdef, hF, hclose⟩, hG⟩
    · exact List.forall_mem_cons.mpr ⟨hc, hcG⟩
    · rw [Forest.models_cons_definition hdef]
      exact hmodels
  | cons k ks =>
    obtain ⟨G, close', rest', rfl, hG, hcG, hclose', hrest'⟩ := hrest
    refine ⟨.block h F close G, close', rest', ?_, ⟨hdef, hF, hclose, hG⟩, ⟨hc, hcG⟩, hclose',
      hrest'⟩
    simp [Body.lines]

theorem model (hmodel : h.IsModel) (hp : Pending env 1 [h] lines) :
    Pending env 0 [] (h.line :: lines) := by
  obtain ⟨F, close, rest, rfl, hF, hc, hclose, G, rfl, hG, hcG, hmodels⟩ := hp
  refine ⟨⟨h, F, close⟩ :: G, Forest.lines_cons _ G, ?_, ?_, ?_⟩
  · exact List.forall_mem_cons.mpr ⟨⟨.inr hmodel, hF, hclose⟩, hG⟩
  · exact List.forall_mem_cons.mpr ⟨hc, hcG⟩
  · rw [Forest.models_cons_model hmodel]
    exact hmodels

end Pending

namespace Machine

variable {env : Setting}

/-- How many model headers the machine has taken. -/
def modelsSeen (m : Machine) : Nat := if m.modelLine.isSome then 1 else 0

/-- Lines that the machine takes to the end close its open blocks and form a forest. -/
theorem pending_of_feed {lines : List SourceLine} {m : Machine} (hbase : m.base = 0)
    (hok : (feed env lines m).failure = none) (hend : (feed env lines m).state.stack = []) :
    Pending env m.modelsSeen (m.stack.map Block.heading) lines := by
  -- The lines are read from the front while blocks are open, so what is pending is part of the
  -- statement: one heading for each open block.
  induction lines generalizing m with
  | nil =>
    have hstack : m.stack = [] := hend
    rw [hstack]
    refine ⟨[], rfl, by simp [Forest.WellFormed], by simp [Forest.Compiles], ?_⟩
    simp only [Forest.models, List.countP_nil, modelsSeen]
    split <;> omega
  | cons line lines ih =>
    obtain ⟨hstep, hrest⟩ := Outcome.andThen_failure_eq_none.mp hok
    rw [feed, Outcome.andThen_state hstep] at hend
    have hmove := moves_of_step hstep
    generalize (m.step env line).state = m' at hmove hrest hend
    cases hmove with
    | definition h hline hdef =>
      subst hline
      exact Pending.definition hdef (ih (m := m.enter h) hbase hrest hend)
    | model h hline hmodel hdepth hfirst =>
      subst hline
      have hstack : m.stack = [] := by
        have hlen : m.base + m.stack.length = 0 := hdepth
        exact List.eq_nil_of_length_eq_zero (by omega)
      have hp := ih (m := enter h { m with modelLine := some h.line.number }) hbase hrest hend
      simp only [enter, hstack, modelsSeen, Option.isSome_some, if_true, List.map_cons,
        List.map_nil] at hp
      simp only [modelsSeen, hfirst, hstack, List.map_nil, Option.isSome_none]
      exact Pending.model hmodel hp
    | close b stack hstack hclose =>
      rw [hstack]
      exact Pending.close hclose (ih (m := m.leave b stack) hbase hrest hend)
    | statement b stack hstack hline hok =>
      have hp := ih (m := m.hold _ stack) hbase hrest hend
      simp only [hold, List.map_cons, Block.addStatement_heading] at hp
      rw [hstack]
      exact Pending.statement hline ((Block.addStatement_failure env line _ b).trans hok) hp

end Machine

/-- The block after these statements. -/
def Block.addAll (env : Setting) (lines : List SourceLine) (b : Block) : Block :=
  lines.foldl (fun b line => (b.addStatement env line).state) b

/-- Statements compile in a block whatever else was added to it. -/
theorem Body.Compiles.addStatement {env : Setting} {F : Body} {b : Block}
    (hc : F.Compiles env b.heading) (line : SourceLine) :
    F.Compiles env (b.addStatement env line).state.heading := by
  rw [Block.addStatement_heading]
  exact hc

theorem Block.addAll_heading (env : Setting) (lines : List SourceLine) (b : Block) :
    (b.addAll env lines).heading = b.heading := by
  induction lines generalizing b with
  | nil => rfl
  | cons line lines ih => exact (ih _).trans (addStatement_heading env line b)

/-- What the lines of a body do to the document, while they fill the block `b`. -/
def Body.write (env : Setting) : Body → Block → Document → Document
  | nil, _, d => d
  | statement line rest, b, d =>
    let b := (b.addStatement env line).state
    rest.write env b (d.publish b b.openSchema)
  | block heading inner _ rest, b, d =>
    let done := heading.block.addAll env inner.own
    let d := inner.write env heading.block (d.register heading.block)
    rest.write env b (d.publish done done.closedSchema)

def Tree.write (env : Setting) (t : Tree) (d : Document) : Document :=
  let done := t.heading.block.addAll env t.body.own
  let d := t.body.write env t.heading.block (d.register t.heading.block)
  d.publish done done.closedSchema

def Forest.write (env : Setting) (F : Forest) (d : Document) : Document :=
  F.foldl (fun d t => t.write env d) d

namespace Machine

variable {env : Setting}

theorem reaches_body {F : Body} (hF : F.WellFormed) {m : Machine} {b : Block}
    {stack : List Block} (hstack : m.stack = b :: stack) (hc : F.Compiles env b.heading) :
    Reaches env F.lines m
      { m with pos := m.pos + F.lines.length, stack := b.addAll env F.own :: stack
               document := F.write env b m.document } := by
  induction F generalizing m b stack with
  | nil =>
    cases m
    subst hstack
    exact Reaches.nil
  | statement line rest ih =>
    have hok := (Block.addStatement_failure env line b _).trans hc.1
    have hnext := ih hF.2 (m := m.hold (b.addStatement env line).state stack) rfl
      (hc.2.addStatement line)
    have hpos : m.pos + (rest.lines.length + 1) = m.pos + 1 + rest.lines.length := by omega
    simp only [Body.lines, List.length_cons, hpos]
    exact Reaches.cons (.statement b stack hstack hF.1 hok) hnext
  | block heading inner close rest ihInner ihRest =>
    -- The inner body runs on top of the stack, and its end brings the stack of `m` back.
    have hinner := ihInner hF.2.1 (m := m.enter heading) rfl hc.1
    let done := heading.block.addAll env inner.own
    let opened : Machine :=
      { m.enter heading with
        pos := m.pos + 1 + inner.lines.length, stack := done :: m.stack
        document := inner.write env heading.block (m.enter heading).document }
    have hleave : Moves env close opened (opened.leave done m.stack) :=
      .close done m.stack rfl hF.2.2.1
    have hrest := ihRest hF.2.2.2 (m := opened.leave done m.stack) hstack hc.2
    have hpos : m.pos + (inner.lines.length + (rest.lines.length + 1) + 1) =
        m.pos + 1 + inner.lines.length + 1 + rest.lines.length := by omega
    simp only [Body.lines, List.length_cons, List.length_append, hpos]
    exact Reaches.cons (.definition heading rfl hF.1) (hinner.append (Reaches.cons hleave hrest))

/-- A block whose header has been taken goes on to its end. -/
theorem reaches_rest {t : Tree} (ht : t.WellFormed) (hc : t.body.Compiles env t.heading)
    (m : Machine) :
    Reaches env (t.body.lines ++ [t.close]) (m.enter t.heading)
      { m with pos := m.pos + t.lines.length, document := t.write env m.document } := by
  have hbody := reaches_body ht.body (m := m.enter t.heading) rfl hc
  let done := t.heading.block.addAll env t.body.own
  have hpos : m.pos + (t.body.lines.length + 1 + 1) = m.pos + 1 + t.body.lines.length + 1 := by
    omega
  simp only [Tree.lines, List.length_cons, List.length_append, List.length_nil, Nat.zero_add, hpos]
  exact hbody.append (Reaches.cons (.close done m.stack rfl ht.close) Reaches.nil)

/-- A definition leaves the open blocks as they are. -/
theorem reaches_definition {t : Tree} (ht : t.WellFormed) (hdef : t.heading.IsDefinition)
    (hc : t.body.Compiles env t.heading) (m : Machine) :
    Reaches env t.lines m
      { m with pos := m.pos + t.lines.length, document := t.write env m.document } :=
  Reaches.cons (.definition t.heading rfl hdef) (reaches_rest ht hc m)

theorem reaches_nested {heading : Heading} {inner rest : Body} {close : SourceLine}
    (hF : (Body.block heading inner close rest).WellFormed) (hc : inner.Compiles env heading)
    (m : Machine) :
    ∃ m', Reaches env (Tree.lines ⟨heading, inner, close⟩) m m' ∧ m'.stack = m.stack := by
  have htree : Tree.WellFormed ⟨heading, inner, close⟩ := ⟨.inl hF.1, hF.2.1, hF.2.2.1⟩
  exact ⟨_, reaches_definition htree hF.1 hc m, rfl⟩

theorem reaches_forest {F : Forest} (hF : F.WellFormed) (hc : F.Compiles env) {m : Machine}
    (hbase : m.base = 0) (hstack : m.stack = []) (hmodels : F.models + m.modelsSeen ≤ 1) :
    ∃ modelLine, Reaches env F.lines m
      { m with pos := m.pos + F.lines.length, document := F.write env m.document, modelLine } := by
  induction F generalizing m with
  | nil => exact ⟨m.modelLine, Reaches.nil⟩
  | cons t F ih =>
    have ht := hF t (by simp)
    have htail : Forest.WellFormed F := fun u hu => hF u (by simp [hu])
    have hctail : Forest.Compiles env F := fun u hu => hc u (by simp [hu])
    have hlines : Forest.lines (t :: F) = t.heading.line :: (t.body.lines ++ [t.close]) ++
        Forest.lines F := rfl
    have hlength (n : Nat) : n + (Forest.lines (t :: F)).length =
        n + t.lines.length + (Forest.lines F).length := by
      have hsplit : (Forest.lines (t :: F)).length = t.lines.length + (Forest.lines F).length := by
        rw [hlines, List.length_append]
        rfl
      omega
    rw [hlength, hlines]
    rcases ht.heading with hdef | hmodel
    · have hcount : Forest.models F + m.modelsSeen ≤ 1 := by
        rwa [Forest.models_cons_definition hdef] at hmodels
      have hblock := reaches_definition ht hdef (hc t (by simp)) m
      obtain ⟨modelLine, hrest⟩ := ih htail hctail
        (m := { m with pos := m.pos + t.lines.length, document := t.write env m.document })
        hbase hstack hcount
      exact ⟨modelLine, Reaches.append hblock hrest⟩
    · have hcount : Forest.models F + 1 + m.modelsSeen ≤ 1 := by
        rwa [Forest.models_cons_model hmodel] at hmodels
      have hfirst : m.modelLine = none := by
        cases hline : m.modelLine with
        | none => rfl
        | some k =>
          simp only [modelsSeen, hline, Option.isSome_some, if_true] at hcount
          omega
      have hdepth : m.depth = 0 := by simp [depth, hbase, hstack]
      have hblock := reaches_rest ht (hc t (by simp))
        { m with modelLine := some t.heading.line.number }
      obtain ⟨modelLine, hrest⟩ := ih htail hctail
        (m := { m with pos := m.pos + t.lines.length, document := t.write env m.document
                       modelLine := some t.heading.line.number })
        hbase hstack (by simp only [modelsSeen, Option.isSome_some, if_true]; omega)
      exact ⟨modelLine, Reaches.append
        (Reaches.cons (.model t.heading rfl hmodel hdepth hfirst) hblock) hrest⟩

end Machine

end ModelSchema
