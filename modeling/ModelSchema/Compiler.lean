import ModelSchema.Block.Statement
import ModelSchema.Source.Header

namespace ModelSchema

/-- The state between two lines: how many lines are done, how many blocks were left open before
this run, the open blocks with the innermost first, the document so far, and the line of the
model header. -/
structure Machine where
  pos : Nat := 0
  base : Nat := 0
  stack : List Block := []
  document : Document := {}
  modelLine : Option Nat := none

namespace Machine

def depth (m : Machine) : Nat := m.base + m.stack.length

/-- One more line is done. -/
def advance (m : Machine) : Machine := { m with pos := m.pos + 1 }

def schema (m : Machine) : Value := m.document.toValue

def failAt (env : Setting) (m : Machine) (line : SourceLine) (c : Cause) : Outcome Machine :=
  .fail m [] (env.failAt line c)

/-- Opens a block whose header is in order up to its brace. -/
def openBlock (env : Setting) (m : Machine) (b : Block) (events : List Event) : Outcome Machine :=
  let m := { m with document := m.document.register b }.advance
  if Header.hasBody b.header.text then
    .fail m events (env.failAt b.header (.oneLineBlock b.name))
  else
    .ok { m with stack := b :: m.stack }
      (events ++ [.opened b.shape b.name b.header.number (m.depth + 1)])

def openDefinition (env : Setting) (m : Machine) (line : SourceLine) : Outcome Machine :=
  match Header.definition? line.text with
  | none => m.failAt env line .definitionHeader
  | some (name, shape) =>
    let known := m.document.definitions.has (FieldType.definitionKey name)
    m.openBlock env ⟨line, name, shape, [], {}⟩
      (if known then [.redefined env.source line.number name] else [])

def openModel (env : Setting) (m : Machine) (line : SourceLine) : Outcome Machine :=
  if 0 < m.depth then m.failAt env line .nestedModel
  else match m.modelLine with
    | some first => m.failAt env line (.secondModel first)
    | none => match Header.model? line.text with
      | none => m.failAt env line .modelHeader
      | some name =>
        { m with modelLine := some line.number }.openBlock env ⟨line, name, .model, [], {}⟩ []

def closeBlock (env : Setting) (m : Machine) (line : SourceLine) : Outcome Machine :=
  match m.stack with
  | [] => m.failAt env line .unmatchedClose
  | b :: stack =>
    let document := m.document.publish b b.closedSchema
    .ok { m with stack, document }.advance [.closed b.shape b.name line.number]

def addStatement (env : Setting) (m : Machine) (line : SourceLine) : Outcome Machine :=
  match m.stack with
  | [] => m.failAt env line .outsideBlock
  | b :: stack =>
    match b.addStatement env line with
    | ⟨_, events, some f⟩ => .fail m events f
    | ⟨b, events, none⟩ =>
      let document := m.document.publish b b.openSchema
      .ok { m with stack := b :: stack, document }.advance events

def step (env : Setting) (m : Machine) (line : SourceLine) : Outcome Machine :=
  match LineKind.of line.text with
  | .definition => m.openDefinition env line
  | .model => m.openModel env line
  | .close => m.closeBlock env line
  | .statement => m.addStatement env line

/-- At the end of the document the innermost open block is reported. -/
def unclosed? (env : Setting) (m : Machine) : Option Failure :=
  m.stack.head?.map fun b => env.failAt b.header (.unclosed b.name)

/-- Takes all lines, up to the first that fails. The document and the position then stay as they
were before that line, except that a header with a body on its line has been taken. -/
def run (env : Setting) : List SourceLine → Machine → Outcome Machine
  | [], m => ⟨m, [], m.unclosed? env⟩
  | line :: lines, m =>
    match m.step env line with
    | ⟨m, events, none⟩ => (run env lines m).after events
    | o => o

/-- A later run starts outside of all blocks, at the depth that an earlier one ended with. -/
def resume (m : Machine) : Machine := { m with base := m.depth, stack := [] }

end Machine

/-- The schema of a document as far as it was built, the events, and the failure if there is
one. -/
def compile (env : Setting) (text : Text) : Outcome Value :=
  let o := Machine.run env (SourceLine.read text) {}
  ⟨o.state.schema, o.events, o.failure⟩

/-- A document that can be taken line by line by hand, and compiled from where it stands. -/
structure Session where
  env : Setting
  lines : List SourceLine
  machine : Machine := {}

namespace Session

def start (env : Setting) (text : Text) : Session := { env, lines := SourceLine.read text }

def current? (s : Session) : Option SourceLine := s.lines[s.machine.pos]?

/-- Takes the current line without compiling it. -/
def advance? (s : Session) : Option (SourceLine × Session) :=
  s.current?.map fun line => (line, { s with machine := s.machine.advance })

/-- The statement on a line of the source. -/
def lineText? (s : Session) (number : Int) : Option Text :=
  (s.lines.find? fun line => (line.number : Int) = number).map SourceLine.text

def compile (s : Session) : Outcome Session :=
  let o := s.machine.resume.run s.env (s.lines.drop s.machine.pos)
  ⟨{ s with machine := o.state }, o.events, o.failure⟩

end Session

end ModelSchema
