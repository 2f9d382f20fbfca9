import DocComments.Text.Lines
import DocComments.Text.Blank

/-! Definitions found in source text: functions, methods and classes with their parameters. -/
namespace DocComments

/-- One declared parameter, each part as it was written. -/
structure Parameter where
  name : String
  type : Option String := none
  default : Option String := none
  deriving DecidableEq, Repr

inductive DefinitionKind where
  | function
  | method
  | class_
  deriving DecidableEq, Repr

def DefinitionKind.name : DefinitionKind → String
  | function => "function"
  | method => "method"
  | class_ => "class"

/-- A definition located in source text. Lines count from one, and `code` is the text of the lines
from `startLine` to `endLine`, both included. -/
structure Definition where
  name : String
  kind : DefinitionKind
  parameters : List Parameter := []
  returnType : Option String := none
  existingDoc : Option String := none
  startLine : Nat
  endLine : Nat
  code : String
  generatedDoc : Option String := none
  isAsync : Bool := false
  decorators : List String := []
  deriving DecidableEq, Repr

namespace Definition

def lineCount (d : Definition) : Nat :=
  d.endLine - d.startLine + 1

def hasDocumentation (d : Definition) : Bool :=
  d.existingDoc.isSome

def signature (d : Definition) : String :=
  String.ofList (Text.trim ((Text.linesOf d.code).headD []))

end Definition

abbrev DocMap := String → Option String

/-- Gives every definition that has a text that text. -/
def attachDocs (docs : DocMap) (definitions : List Definition) : List Definition :=
  definitions.map fun d =>
    match docs d.name with
    | some text => { d with generatedDoc := some text }
    | none => d

def attachCount (docs : DocMap) (definitions : List Definition) : Nat :=
  definitions.countP fun d => (docs d.name).isSome

end DocComments
