import DocComments.Definition
import DocComments.Language

/-! What a generator of documentation is asked, and what it answers. -/
namespace DocComments

/-- What a generator is told about one definition. -/
structure DocRequest where
  name : String
  kind : DefinitionKind
  language : Language
  parameters : List Parameter
  returnType : Option String := none
  body : String
  deriving DecidableEq, Repr

def DocRequest.ofDefinition (language : Language) (d : Definition) : DocRequest where
  name := d.name
  kind := d.kind
  language := language
  parameters := d.parameters
  returnType := d.returnType
  body := d.code

structure GeneratedDoc where
  name : String
  text : String
  deriving DecidableEq, Repr

/-- The texts by name; of several for one name the last counts. -/
def docMap (docs : List GeneratedDoc) : DocMap := fun name =>
  (docs.reverse.find? (·.name == name)).map (·.text)

end DocComments
