import ModelSchema.Options
import ModelSchema.Value.Basic

namespace ModelSchema

/-- What is wrong with one entry. -/
inductive OptionFault where
  | unknownKey
  | notAChoice
  | notASwitchName
  | notASwitch
  deriving DecidableEq, Repr

namespace Options

def coercionOf : Value → Except OptionFault Coercion
  | .text "typed" => .ok .typed
  | .text "legacy" => .ok .legacy
  | _ => .error .notAChoice

/-- The word for a switch, whatever the case of its letters. -/
def switchOfWord (s : String) : Except OptionFault Bool :=
  let word := String.ofList (s.toList.map Char.toLower)
  if ["1", "on", "t", "true", "y", "yes"].contains word then .ok true
  else if ["0", "off", "f", "false", "n", "no"].contains word then .ok false
  else .error .notASwitchName

/-- The bound on the integers that are tried as a switch, 2 to the power 63. -/
def switchBound : Int := 9223372036854775808

/-- Whether a number is tried as a switch: it is integral and within 64 bits. The lower bound
itself counts only as an integer. -/
def isSwitchNumber : Number → Bool
  | .int n => decide (-switchBound ≤ n ∧ n < switchBound)
  | .float x =>
    x.isIntegral && Number.lt (.int (-switchBound)) (.float x) &&
      Number.lt (.float x) (.int switchBound)

def switchOf : Value → Except OptionFault Bool
  | .bool b => .ok b
  | .number n =>
    if n.eq (.int 0) then .ok false
    else if n.eq (.int 1) then .ok true
    else if isSwitchNumber n then .error .notASwitchName
    else .error .notASwitch
  | .text s => switchOfWord s
  | _ => .error .notASwitch

/-- Reads one entry into the options, or notes what is wrong with it. -/
def readEntry (acc : Options × List (String × OptionFault)) (e : String × Value) :
    Options × List (String × OptionFault) :=
  let (o, faults) := acc
  match e.1 with
  | "default_coercion" => match coercionOf e.2 with
    | .ok coercion => ({ o with coercion }, faults)
    | .error f => (o, faults ++ [(e.1, f)])
  | "require_condition_properties" => match switchOf e.2 with
    | .ok b => ({ o with requireConditionProperties := b }, faults)
    | .error f => (o, faults ++ [(e.1, f)])
  | _ => (o, faults ++ [(e.1, .unknownKey)])

/-- The options in a table, or everything that is wrong with it. A table has no keys but the two. -/
def ofTable (table : Fields Value) : Except (List (String × OptionFault)) Options :=
  match table.foldl readEntry ({}, []) with
  | (o, []) => .ok o
  | (_, faults) => .error faults

end Options

end ModelSchema
