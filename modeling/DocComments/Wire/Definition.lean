import DocComments.Json.Decode
import DocComments.Json.Writer
import DocComments.Request

/-! Definitions and requests as JSON. Absent parts are left out, never null. -/
namespace DocComments

/-- The names of languages, of which the first of each language is written. -/
def Language.wireNames : List (String × Language) := [
  ("python", .python), ("javascript", .javaScript), ("typescript", .javaScript),
  ("js", .javaScript), ("ts", .javaScript)]

def Language.decoder : Decoder Language :=
  Decoder.choice wireNames

def Style.wireNames : List (String × Style) := [
  ("google", .google), ("numpy", .numpy), ("sphinx", .sphinx), ("jsdoc", .jsdoc)]

def Style.decoder : Decoder Style :=
  Decoder.choice wireNames

def DefinitionKind.wireNames : List (String × DefinitionKind) := [
  ("function", .function), ("method", .method), ("class", .class_)]

def DefinitionKind.decoder : Decoder DefinitionKind :=
  Decoder.choice wireNames

namespace Parameter

def toJson (p : Parameter) : Json :=
  .obj ([("name", .str p.name)] ++ Json.optional "type" (p.type.map .str) ++
    Json.optional "defaultValue" (p.default.map .str))

structure Draft where
  name : Option String := none
  type : Option String := none
  default : Option String := none

def fields : List (Decoder.Field Draft) := [
  .of "name" .text fun d v => { d with name := some v },
  .of "type" (.option .text) fun d v => { d with type := v },
  .of "defaultValue" (.option .text) fun d v => { d with default := v }]

def Draft.finish (d : Draft) : Option Parameter :=
  d.name.map fun name => { name, type := d.type, default := d.default }

def decoder : Decoder Parameter :=
  Decoder.record fields {} Draft.finish

end Parameter

namespace Definition

def toJson (d : Definition) : Json :=
  .obj ([("name", .str d.name), ("kind", .str d.kind.name),
      ("parameters", .arr (d.parameters.map Parameter.toJson))] ++
    Json.optional "returnType" (d.returnType.map .str) ++
    Json.optional "existingDocumentation" (d.existingDoc.map .str) ++
    [("startLine", .nat d.startLine), ("endLine", .nat d.endLine),
      ("originalCode", .str d.code)] ++
    Json.optional "generatedDocumentation" (d.generatedDoc.map .str) ++
    [("isAsync", .bool d.isAsync)] ++
    if d.decorators.isEmpty then [] else [("decorators", Json.strings d.decorators)])

structure Draft where
  name : Option String := none
  kind : Option DefinitionKind := none
  parameters : List Parameter := []
  returnType : Option String := none
  existingDoc : Option String := none
  startLine : Option Nat := none
  endLine : Option Nat := none
  code : Option String := none
  generatedDoc : Option String := none
  isAsync : Bool := false
  decorators : List String := []

def fields : List (Decoder.Field Draft) := [
  .of "name" .text fun d v => { d with name := some v },
  .of "kind" DefinitionKind.decoder fun d v => { d with kind := some v },
  .of "parameters" (.list Parameter.decoder) fun d v => { d with parameters := v },
  .of "returnType" (.option .text) fun d v => { d with returnType := v },
  .of "existingDocumentation" (.option .text) fun d v => { d with existingDoc := v },
  .of "startLine" .word fun d v => { d with startLine := some v },
  .of "endLine" .word fun d v => { d with endLine := some v },
  .of "originalCode" .text fun d v => { d with code := some v },
  .of "generatedDocumentation" (.option .text) fun d v => { d with generatedDoc := v },
  .of "isAsync" .bool fun d v => { d with isAsync := v },
  .of "decorators" (.list .text) fun d v => { d with decorators := v }]

def Draft.finish (d : Draft) : Option Definition := do
  some {
    name := ← d.name
    kind := ← d.kind
    parameters := d.parameters
    returnType := d.returnType
    existingDoc := d.existingDoc
    startLine := ← d.startLine
    endLine := ← d.endLine
    code := ← d.code
    generatedDoc := d.generatedDoc
    isAsync := d.isAsync
    decorators := d.decorators }

def decoder : Decoder Definition :=
  Decoder.record fields {} Draft.finish

end Definition

namespace DocRequest

def toJson (r : DocRequest) : Json :=
  .obj ([("name", .str r.name), ("kind", .str r.kind.name), ("language", .str r.language.name),
      ("parameters", .arr (r.parameters.map Parameter.toJson))] ++
    Json.optional "returnType" (r.returnType.map .str) ++ [("body", .str r.body)])

structure Draft where
  name : Option String := none
  kind : Option DefinitionKind := none
  language : Option Language := none
  parameters : Option (List Parameter) := none
  returnType : Option String := none
  body : Option String := none

def fields : List (Decoder.Field Draft) := [
  .of "name" .text fun d v => { d with name := some v },
  .of "kind" DefinitionKind.decoder fun d v => { d with kind := some v },
  .of "language" Language.decoder fun d v => { d with language := some v },
  .of "parameters" (.list Parameter.decoder) fun d v => { d with parameters := some v },
  .of "returnType" (.option .text) fun d v => { d with returnType := v },
  .of "body" .text fun d v => { d with body := some v }]

def Draft.finish (d : Draft) : Option DocRequest := do
  some {
    name := ← d.name
    kind := ← d.kind
    language := ← d.language
    parameters := ← d.parameters
    returnType := d.returnType
    body := ← d.body }

def decoder : Decoder DocRequest :=
  Decoder.record fields {} Draft.finish

end DocRequest

def GeneratedDoc.toJson (g : GeneratedDoc) : Json :=
  .obj [("name", .str g.name), ("docstring", .str g.text)]

end DocComments
