import ModelSchema.Proofs.Document

namespace ModelSchema

/-- New numbers for lines. Different lines keep different numbers, and zero stays no line. -/
structure Renumbering where
  apply : Nat → Nat
  apply_zero : apply 0 = 0
  injective : ∀ a b, apply a = apply b → a = b

namespace Renumbering

variable (σ : Renumbering)

def onInt : Int → Int
  | .ofNat n => .ofNat (σ.apply n)
  | .negSucc n => .negSucc n

/-- The same numbers. -/
def refl : Renumbering := ⟨id, rfl, fun _ _ h => h⟩

/-- What stands for the numbers from one on, and zero for zero. -/
def fromOne (f : Nat → Nat) : Nat → Nat
  | 0 => 0
  | i + 1 => f i

theorem fromOne_zero (f : Nat → Nat) : fromOne f 0 = 0 := rfl

theorem fromOne_injective {f : Nat → Nat} (hpos : ∀ i, 1 ≤ f i)
    (hinjective : ∀ i j, f i = f j → i = j) (a b : Nat) (h : fromOne f a = fromOne f b) :
    a = b := by
  cases a with
  | zero =>
    cases b with
    | zero => rfl
    | succ j =>
      have hj := hpos j
      change 0 = f j at h
      omega
  | succ i =>
    cases b with
    | zero =>
      have hi := hpos i
      change f i = 0 at h
      omega
    | succ j => rw [hinjective i j h]

theorem onInt_natCast (n : Nat) : σ.onInt n = σ.apply n := rfl

theorem onInt_zero : σ.onInt 0 = 0 := by
  change Int.ofNat (σ.apply 0) = 0
  rw [σ.apply_zero]
  rfl

theorem apply_inj {a b : Nat} : σ.apply a = σ.apply b ↔ a = b :=
  ⟨σ.injective a b, congrArg σ.apply⟩

theorem onInt_inj {a b : Int} : σ.onInt a = σ.onInt b ↔ a = b := by
  constructor
  · intro h
    cases a with
    | ofNat m =>
      cases b with
      | ofNat n => exact congrArg Int.ofNat (σ.injective m n (Int.ofNat.inj h))
      | negSucc n => cases h
    | negSucc m =>
      cases b with
      | ofNat n => cases h
      | negSucc n => exact h
  · intro h
    rw [h]

end Renumbering

section Renumber

variable (σ : Renumbering)

def SourceLine.renumber (line : SourceLine) : SourceLine := ⟨σ.apply line.number, line.text⟩

def Location.renumber (l : Location) : Location := { l with line := σ.onInt l.line }

/-- One cause names a line. -/
def Cause.renumber : Cause → Cause
  | .secondModel first => .secondModel (σ.apply first)
  | c => c

/-- A text that was in step with the report is so again. -/
def Report.renumber (r : Report Cause) : Report Cause :=
  let cause := r.cause.renumber σ
  let location := r.location.map (Location.renumber σ)
  ⟨cause, location, if r.InStep then words cause location else r.text⟩

def Failure.renumber : Failure → Failure
  | .reported r => .reported (r.renumber σ)
  | .broken b => .broken b

def Event.renumber : Event → Event
  | .opened shape name line depth => .opened shape name (σ.apply line) depth
  | .closed shape name line => .closed shape name (σ.apply line)
  | .redefined source line name => .redefined source (σ.apply line) name
  | .declaredTwice source line field block => .declaredTwice source (σ.apply line) field block
  | .skipped source line statement => .skipped source (σ.apply line) statement
  | e => e

/-- The outcome with its events and its failure numbered anew, and its state by `f`. -/
def Outcome.renumber {α : Type} (f : α → α) (o : Outcome α) : Outcome α :=
  ⟨f o.state, o.events.map (Event.renumber σ), o.failure.map (Failure.renumber σ)⟩

end Renumber

theorem Report.renumber_raised (σ : Renumbering) (c : Cause) (location : Option Location) :
    (Report.raised c location).renumber σ =
      .raised (c.renumber σ) (location.map (Location.renumber σ)) := by
  simp only [renumber, inStep_raised, if_true]
  rfl

theorem Failure.renumber_because (σ : Renumbering) (c : Cause) :
    (because c).renumber σ = because (c.renumber σ) :=
  congrArg reported (Report.renumber_raised σ c none)

theorem Failure.renumber_located (σ : Renumbering) (l : Location) (c : Cause) :
    (located l c).renumber σ = located (l.renumber σ) (c.renumber σ) :=
  congrArg reported (Report.renumber_raised σ c (some l))

theorem Setting.renumber_failAt (σ : Renumbering) (env : Setting) (line : SourceLine) (c : Cause) :
    (env.failAt line c).renumber σ = env.failAt (line.renumber σ) (c.renumber σ) :=
  Failure.renumber_located σ (env.lineStart line) c

theorem Failure.renumber_refl (f : Failure) : f.renumber .refl = f := by
  cases f with
  | broken b => rfl
  | reported r =>
    obtain ⟨cause, location, text⟩ := r
    have hcause : cause.renumber .refl = cause := by cases cause <;> rfl
    have hlocation : location.map (Location.renumber .refl) = location := by
      cases location with
      | none => rfl
      | some l =>
        obtain ⟨source, line, column, snippet⟩ := l
        cases line <;> rfl
    simp only [renumber, Report.renumber, hcause, hlocation]
    split
    · rename_i hstep
      rw [← hstep]
    · rfl

theorem Outcome.renumber_refl {α : Type} (f : α → α) (o : Outcome α) :
    o.renumber .refl f = ⟨f o.state, o.events, o.failure⟩ := by
  have hevents : Event.renumber .refl = id := by
    funext e
    cases e <;> rfl
  have hfailure : Failure.renumber .refl = id := funext Failure.renumber_refl
  simp [renumber, hevents, hfailure]

/-- A change of numbers, blocks and schemas. New blocks stay new, and the schema of a block changes
with the block. Headers and ends do not look at the statements inside a block, so the machine
carries the change along as long as statements do. -/
structure Transport where
  numbers : Renumbering
  block : Block → Block
  schema : Fields Value → Fields Value
  header_block : ∀ b, (block b).header = b.header.renumber numbers
  name_block : ∀ b, (block b).name = b.name
  shape_block : ∀ b, (block b).shape = b.shape
  block_new : ∀ line name shape, block ⟨line, name, shape, [], {}⟩ =
    ⟨line.renumber numbers, name, shape, [], {}⟩
  openSchema_block : ∀ b, (block b).openSchema = schema b.openSchema
  closedSchema_block : ∀ b, (block b).closedSchema = schema b.closedSchema

namespace Transport

variable (T : Transport)

def definition (d : Definition) : Definition := ⟨T.numbers.apply d.owner, T.schema d.schema⟩

def document (d : Document) : Document :=
  ⟨d.definitions.map fun e => (e.1, T.definition e.2), T.schema d.root⟩

def machine (m : Machine) : Machine :=
  { m with stack := m.stack.map T.block
           document := T.document m.document
           modelLine := m.modelLine.map T.numbers.apply }

def outcome (o : Outcome Machine) : Outcome Machine := o.renumber T.numbers T.machine

theorem key_block (b : Block) : (T.block b).key = b.key := by
  rw [Block.key, Block.key, T.name_block]

theorem define (b : Block) (s : Fields Value) (d : Document) :
    (T.document d).define (T.block b) (T.schema s) = T.document (d.define b s) := by
  simp only [Document.define, document, T.key_block, T.header_block]
  rw [Fields.map_put T.definition]
  rfl

theorem register (b : Block) (d : Document) :
    (T.document d).register (T.block b) = T.document (d.register b) := by
  by_cases hmodel : b.shape = .model
  · simp only [Document.register, T.shape_block, hmodel, T.openSchema_block]
    rfl
  · have hshape : (T.block b).shape ≠ .model := by rwa [T.shape_block]
    rw [Document.register_eq_place, Document.register_eq_place,
      Document.place_of_definition hshape, Document.place_of_definition hmodel,
      T.openSchema_block, T.define]

theorem owns (b : Block) (d : Document) : (T.document d).owns (T.block b) = d.owns b := by
  have hget := Fields.get?_mapValues T.definition b.key d.definitions
  simp only [Document.owns, document, T.key_block, T.header_block, hget]
  cases Fields.get? b.key d.definitions with
  | none => rfl
  | some e =>
    -- Owners are compared with the numbers of headers.
    by_cases howner : e.owner = b.header.number
    · simp [definition, SourceLine.renumber, howner]
    · have hne : T.numbers.apply e.owner ≠ T.numbers.apply b.header.number :=
        fun h => howner (T.numbers.apply_inj.mp h)
      simp [definition, SourceLine.renumber, howner, hne]

theorem publish (b : Block) (s : Fields Value) (d : Document) :
    (T.document d).publish (T.block b) (T.schema s) = T.document (d.publish b s) := by
  by_cases hmodel : b.shape = .model
  · have hshape : (T.block b).shape = .model := by rwa [T.shape_block]
    rw [Document.publish_of_model hmodel, Document.publish_of_model hshape]
    rfl
  · have hshape : (T.block b).shape ≠ .model := by rwa [T.shape_block]
    have howns := T.owns b d
    cases h : d.owns b with
    | true =>
      rw [Document.publish_of_owner hmodel h, Document.publish_of_owner hshape (howns.trans h),
        T.define]
    | false =>
      rw [Document.publish_of_other hmodel h, Document.publish_of_other hshape (howns.trans h)]

theorem failAt (env : Setting) (m : Machine) (line : SourceLine) (c : Cause) :
    (T.machine m).failAt env (line.renumber T.numbers) (c.renumber T.numbers) =
      T.outcome (m.failAt env line c) := by
  simp only [Machine.failAt, Outcome.fail, outcome, Outcome.renumber, Option.map_some,
    Setting.renumber_failAt]
  rfl

theorem openBlock (env : Setting) (m : Machine) (b : Block) (events : List Event) :
    (T.machine m).openBlock env (T.block b) (events.map (Event.renumber T.numbers)) =
      T.outcome (m.openBlock env b events) := by
  have hdocument := T.register b m.document
  have hbody : Header.hasBody (T.block b).header.text = Header.hasBody b.header.text := by
    rw [T.header_block]
    rfl
  simp only [Machine.openBlock, hbody]
  split
  · simp only [Outcome.fail, outcome, Outcome.renumber, machine, Machine.advance, hdocument,
      T.header_block, T.name_block, Option.map_some, Setting.renumber_failAt]
    rfl
  · simp only [Outcome.ok, outcome, Outcome.renumber, machine, Machine.advance, hdocument,
      List.map_append, Machine.depth, List.length_map, T.header_block, T.name_block,
      T.shape_block]
    rfl

theorem openDefinition (env : Setting) (m : Machine) (line : SourceLine) :
    (T.machine m).openDefinition env (line.renumber T.numbers) =
      T.outcome (m.openDefinition env line) := by
  have htext : (line.renumber T.numbers).text = line.text := rfl
  simp only [Machine.openDefinition, htext]
  cases Header.definition? line.text with
  | none => exact T.failAt env m line .definitionHeader
  | some p =>
    obtain ⟨name, shape⟩ := p
    have hknown : (T.machine m).document.definitions.has (FieldType.definitionKey name) =
        m.document.definitions.has (FieldType.definitionKey name) := by
      simp only [Fields.has, machine, document, Fields.get?_mapValues, Option.isSome_map]
    simp only [hknown]
    rw [← T.openBlock, T.block_new]
    congr 1
    split <;> rfl

theorem openModel (env : Setting) (m : Machine) (line : SourceLine) :
    (T.machine m).openModel env (line.renumber T.numbers) = T.outcome (m.openModel env line) := by
  have htext : (line.renumber T.numbers).text = line.text := rfl
  have hdepth : (T.machine m).depth = m.depth := by simp [Machine.depth, machine]
  simp only [Machine.openModel, htext, hdepth]
  split
  · exact T.failAt env m line .nestedModel
  · cases hfirst : m.modelLine with
    | some first =>
      have hfirst' : (T.machine m).modelLine = some (T.numbers.apply first) := by
        simp [machine, hfirst]
      simp only [hfirst']
      exact T.failAt env m line (.secondModel first)
    | none =>
      have hfirst' : (T.machine m).modelLine = none := by simp [machine, hfirst]
      simp only [hfirst']
      cases Header.model? line.text with
      | none => exact T.failAt env m line .modelHeader
      | some name =>
        have hopen := T.openBlock env { m with modelLine := some line.number }
          ⟨line, name, .model, [], {}⟩ []
        rw [T.block_new] at hopen
        exact hopen

theorem closeBlock (env : Setting) (m : Machine) (line : SourceLine) :
    (T.machine m).closeBlock env (line.renumber T.numbers) =
      T.outcome (m.closeBlock env line) := by
  obtain ⟨pos, base, stack, document, modelLine⟩ := m
  cases stack with
  | nil => exact T.failAt env ⟨pos, base, [], document, modelLine⟩ line .unmatchedClose
  | cons b stack =>
    have hpublish := T.publish b b.closedSchema document
    simp only [Machine.closeBlock, machine, List.map_cons, Outcome.ok, outcome, Outcome.renumber,
      Machine.advance, T.closedSchema_block, hpublish, T.name_block, T.shape_block]
    rfl

end Transport

namespace Machine

/-- What is left to do when the innermost block has taken a statement. -/
def finish (m : Machine) (stack : List Block) (o : Outcome Block) : Outcome Machine :=
  match o.failure with
  | some f => .fail m o.events f
  | none =>
    .ok { m with stack := o.state :: stack
                 document := m.document.publish o.state o.state.openSchema }.advance o.events

theorem addStatement_cons {m : Machine} {b : Block} {stack : List Block}
    (hstack : m.stack = b :: stack) (env : Setting) (line : SourceLine) :
    m.addStatement env line = m.finish stack (b.addStatement env line) := by
  simp only [addStatement, hstack, finish]
  cases b.addStatement env line with
  | mk state events failure => cases failure <;> rfl

end Machine

theorem Transport.finish (T : Transport) (m : Machine) (stack : List Block) (o : Outcome Block) :
    (T.machine m).finish (stack.map T.block) (o.renumber T.numbers T.block) =
      T.outcome (m.finish stack o) := by
  obtain ⟨b, events, failure⟩ := o
  cases failure with
  | some f => rfl
  | none =>
    have hpublish := T.publish b b.openSchema m.document
    simp only [Machine.finish, Outcome.renumber, Option.map_none, Outcome.ok, outcome, machine,
      Machine.advance, List.map_cons, T.openSchema_block, hpublish]

namespace Outcome

variable {σ : Renumbering} {α : Type}

theorem after_renumber (f : α → α) (events : List Event) (o : Outcome α) :
    (o.after events).renumber σ f =
      (o.renumber σ f).after (events.map (Event.renumber σ)) := by
  simp only [after, renumber, List.map_append]

theorem andThen_renumber {f : α → α} {o : Outcome α} {next next' : α → Outcome α}
    (h : next' (f o.state) = (next o.state).renumber σ f) :
    (o.renumber σ f).andThen next' = (o.andThen next).renumber σ f := by
  obtain ⟨state, events, failure⟩ := o
  cases failure with
  | none =>
    have hnext : next' (f state) = (next state).renumber σ f := h
    change (next' (f state)).after _ = ((next state).after events).renumber σ f
    rw [hnext, after_renumber]
    rfl
  | some g => rfl

end Outcome

theorem Transport.unclosed? (T : Transport) (env : Setting) (m : Machine) :
    (T.machine m).unclosed? env = (m.unclosed? env).map (Failure.renumber T.numbers) := by
  obtain ⟨pos, base, stack, document, modelLine⟩ := m
  cases stack with
  | nil => rfl
  | cons b stack =>
    simp only [Machine.unclosed?, machine, List.map_cons, List.head?_cons, Option.map_some,
      T.header_block, T.name_block, Setting.renumber_failAt]
    rfl

end ModelSchema
