import ModelSchema.Error.Category
import ModelSchema.Error.Report
import ModelSchema.Number.Basic
import ModelSchema.Tag.Scanner
import ModelSchema.Text.Quoted

namespace ModelSchema

/-- The kinds of expressions that a block can hold. -/
inductive ExpressionKind where
  | condition
  | permission
  | sort
  | breadcrumb
  deriving DecidableEq, Repr

/-- What is wrong with the form of a conditional rule. -/
inductive ConditionFault where
  | notACall
  | noProperty
  | noSeparator
  | noConditions
  | noActions
  | conditionWithoutValue (tag : Tag)
  | actionWithoutArgument (tag : Tag)
  deriving DecidableEq, Repr

namespace ConditionFault

def reason : ConditionFault → Text
  | .notACall => "expected @if(...)".toList
  | .noProperty => "expected '<property>:' before the condition".toList
  | .noSeparator => "expected ', ' between condition and action".toList
  | .noConditions => "no condition annotations".toList
  | .noActions => "no action annotations".toList
  | .conditionWithoutValue tag => "condition ".toList ++ tag.raw ++ " has no value".toList
  | .actionWithoutArgument tag => "action ".toList ++ tag.raw ++ " has no argument".toList

end ConditionFault

/-- Why a document does not compile. -/
inductive Cause where
  | unterminated (name : Text)
  | notAField
  | definitionHeader
  | modelHeader
  | arrayType (field rawType : Text)
  | condition (fault : ConditionFault) (expression : Text)
  | permission (expression : Text)
  | sort (expression : Text)
  | breadcrumb (expression : Text)
  | noArgument (tag : Tag)
  | notANumber (name argument : Text)
  | noChoices (field : Text)
  | noReference (field : Text)
  | noDefault (field : Text)
  | noConst (field : Text)
  | unmatchedClose
  | outsideBlock
  | nestedModel
  | secondModel (firstLine : Nat)
  | oneLineBlock (name : Text)
  | unclosed (name : Text)
  deriving DecidableEq, Repr

namespace Cause

def category : Cause → Category
  | .unterminated _ | .notAField | .definitionHeader | .modelHeader | .arrayType .. => .parse
  | .condition .. | .permission _ | .sort _ | .breadcrumb _ => .expressionFormat
  | .noArgument _ | .notANumber .. | .noChoices _ | .noReference _ | .noDefault _ | .noConst _ =>
    .missingArgument
  | .unmatchedClose | .outsideBlock | .nestedModel | .secondModel _ | .oneLineBlock _
  | .unclosed _ => .structural

/-- Which expression has the wrong form. -/
def expressionKind? : Cause → Option ExpressionKind
  | .condition .. => some .condition
  | .permission _ => some .permission
  | .sort _ => some .sort
  | .breadcrumb _ => some .breadcrumb
  | _ => none

def onField (start : String) (field : Text) : Text :=
  start.toList ++ " on field '".toList ++ field ++ "'".toList

def message : Cause → Text
  | .unterminated name => "Unterminated argument for @".toList ++ name
  | .notAField => "Expected a field declaration '<name>: <type> [@annotations]'".toList
  | .definitionHeader => "Invalid def header (expected: def <Name> object|array \x7b)".toList
  | .modelHeader => "Invalid model header (expected: model <Name> object \x7b)".toList
  | .arrayType field rawType =>
    "Unsupported array type for field '".toList ++ field ++ "': ".toList ++
      rawType.takeWhile (· != ' ') ++ " (expected array(type) or array(@ref(Name)))".toList
  | .condition fault expression =>
    "Invalid IF expression format (".toList ++ fault.reason ++ "): ".toList ++ expression
  | .permission expression =>
    "Invalid permission expression format: ".toList ++ Text.quoted expression ++
      " (expected key: \"value\" pairs)".toList
  | .sort expression => "Invalid sort expression format: ".toList ++ Text.quoted expression
  | .breadcrumb expression =>
    "Invalid breadcrumb expression format: ".toList ++ Text.quoted expression
  | .noArgument tag => '@' :: tag.name ++ " needs an argument: ".toList ++ tag.raw
  | .notANumber name argument =>
    '@' :: name ++ " expects a number, got ".toList ++ Text.quoted argument
  | .noChoices field => onField "@enum needs a value list" field
  | .noReference field => onField "@ref needs a definition name" field
  | .noDefault field => onField "@default needs a value" field
  | .noConst field => onField "@const needs a value" field
  | .unmatchedClose => "Unmatched '\x7d' (no open block)".toList
  | .outsideBlock => "Statement outside of a def or model block".toList
  | .nestedModel => "A model block cannot be nested inside another block".toList
  | .secondModel firstLine =>
    "Only one model block is allowed (first one at line ".toList ++ Text.ofNat firstLine ++
      ")".toList
  | .oneLineBlock name =>
    "Block '".toList ++ name ++ "' has statements after '\x7b' on its header line ".toList ++
      "(one-line blocks are not supported; start the body on the next line)".toList
  | .unclosed name =>
    "Block '".toList ++ name ++ "' is never closed (missing '\x7d')".toList

end Cause

instance : HasMessage Cause := ⟨Cause.message⟩

/-- Conditions under which work on a document breaks off without a report. How deep blocks can be
nested, and the values of JSON and TOML that are read or written, has no limit here. -/
inductive Breakdown where
  /-- An integer numeral is too long to be read. -/
  | tooManyDigits
  /-- An action names a property after the properties were replaced by a text. -/
  | propertiesReplaced
  /-- A target holds something other than an object where entries are to be written. -/
  | notAnObject
  deriving DecidableEq, Repr

/-- How the compilation of a document or of a part of it fails. -/
inductive Failure where
  | reported (r : Report Cause)
  | broken (b : Breakdown)
  deriving DecidableEq, Repr

namespace Failure

def because (c : Cause) : Failure := .reported (.bare c)

def located (l : Location) (c : Cause) : Failure := .reported (.about l c)

def locate (l : Location) : Failure → Failure
  | .reported r => .reported (r.locate l)
  | .broken b => .broken b

/-- An unreadable number inside a statement is one with too many digits. -/
def ofNumberFault (_ : Number.Fault) : Failure := .broken .tooManyDigits

end Failure

end ModelSchema
