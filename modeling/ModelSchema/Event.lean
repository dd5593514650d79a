import ModelSchema.Error.Cause
import ModelSchema.Options

namespace ModelSchema

/-- The three forms of a block. -/
inductive Shape where
  | model
  | object
  | array
  deriving DecidableEq, Repr

def Shape.name : Shape → Text
  | .model => "model".toList
  | .object => "object".toList
  | .array => "array".toList

/-- What the compiler takes note of on its way. Warnings are about declarations that have no effect
or replace an earlier one; the rest is for following the compiler's decisions. That a rule has been
compiled is not noted. -/
inductive Event where
  | optionsLoaded (path : String) (o : Options)
  | opened (shape : Shape) (name : Text) (line depth : Nat)
  | closed (shape : Shape) (name : Text) (line : Nat)
  | ignoredTag (tag field : Text)
  | redefined (source : String) (line : Nat) (name : Text)
  | declaredTwice (source : String) (line : Nat) (field block : Text)
  | skipped (source : String) (line : Nat) (statement : Text)
  deriving DecidableEq, Repr

namespace Event

def isWarning : Event → Bool
  | .redefined .. | .declaredTwice .. | .skipped .. => true
  | _ => false

def level (e : Event) : Text := if e.isWarning then "WARNING".toList else "DEBUG".toList

/-- The part of the compiler that an event comes from. -/
def origin : Event → Text
  | .optionsLoaded .. => "litespec.core.config".toList
  | .ignoredTag .. => "litespec.core.attributes".toList
  | _ => "litespec.core.compiler".toList

def coercionName : Coercion → Text
  | .typed => "typed".toList
  | .legacy => "legacy".toList

def switchName (b : Bool) : Text := if b then "True".toList else "False".toList

def quotedName (t : Text) : Text := " '".toList ++ t ++ "'".toList

def atLine (line : Nat) : Text := " at line ".toList ++ Text.ofNat line

/-- The start of a warning. -/
def place (source : String) (line : Nat) : Text :=
  source.toList ++ ':' :: Text.ofNat line ++ ": ".toList

def message : Event → Text
  | .optionsLoaded path o =>
    "Loaded compiler options from ".toList ++ path.toList ++ ": default_coercion='".toList ++
      coercionName o.coercion ++ "' require_condition_properties=".toList ++
      switchName o.requireConditionProperties
  | .opened shape name line depth =>
    "Opened ".toList ++ shape.name ++ quotedName name ++ atLine line ++ " (depth ".toList ++
      Text.ofNat depth ++ ")".toList
  | .closed shape name line => "Closed ".toList ++ shape.name ++ quotedName name ++ atLine line
  | .ignoredTag tag field => "Ignoring annotation ".toList ++ tag ++ " on field ".toList ++ field
  | .redefined source line name =>
    place source line ++ "definition".toList ++ quotedName name ++ " redefined".toList
  | .declaredTwice source line field block =>
    place source line ++ "field".toList ++ quotedName field ++ " declared twice in".toList ++
      quotedName block
  | .skipped source line statement =>
    place source line ++ "skipping unsupported block annotation: ".toList ++ statement

/-- The level and the message. -/
def entry (e : Event) : Text := e.level ++ ' ' :: e.message

/-- The level, the origin and the message. -/
def line (e : Event) : Text := e.level ++ ' ' :: e.origin ++ ": ".toList ++ e.message

end Event

/-- A state after some work, the events on the way, and the failure that ended the work, if one
did. The state is the one at the failure. -/
structure Outcome (σ : Type) where
  state : σ
  events : List Event
  failure : Option Failure

namespace Outcome

variable {σ : Type}

def ok (s : σ) (events : List Event) : Outcome σ := ⟨s, events, none⟩

def fail (s : σ) (events : List Event) (f : Failure) : Outcome σ := ⟨s, events, some f⟩

/-- The outcome of more work, after the events of earlier work. -/
def after (events : List Event) (o : Outcome σ) : Outcome σ :=
  ⟨o.state, events ++ o.events, o.failure⟩

end Outcome

end ModelSchema
