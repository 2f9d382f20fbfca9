import DocComments.Text.Blank
import DocComments.Text.Case

/-! Source languages and documentation styles, and the names by which they are asked for. -/
namespace DocComments

/-- Typed sources of the brace family are read as `javaScript`. -/
inductive Language where
  | python
  | javaScript
  deriving DecidableEq, Repr

inductive Style where
  | google
  | numpy
  | sphinx
  | jsdoc
  deriving DecidableEq, Repr

/-- The form in which a name is looked up: trimmed and in lower case. -/
def lookupName (name : String) : String :=
  Text.lower (Text.trimmed name)

namespace Language

def name : Language → String
  | python => "python"
  | javaScript => "javascript"

/-- The language a user names, in any case and with blanks around it. -/
def ofName? (asked : String) : Option Language :=
  match lookupName asked with
  | "python" | "py" => some python
  | "javascript" | "js" | "typescript" | "ts" => some javaScript
  | _ => none

/-- The language of a file name extension, given without its dot. -/
def ofExtension? (extension : String) : Option Language :=
  match Text.lower extension with
  | "py" | "pyw" => some python
  | "js" | "jsx" | "mjs" | "cjs" | "ts" | "tsx" => some javaScript
  | _ => none

/-- The extensions of the language's files, each with its dot. -/
def extensions : Language → List String
  | python => [".py", ".pyw"]
  | javaScript => [".js", ".jsx", ".mjs", ".cjs", ".ts", ".tsx"]

def defaultStyle : Language → Style
  | python => .google
  | javaScript => .jsdoc

end Language

namespace Style

def name : Style → String
  | google => "google"
  | numpy => "numpy"
  | sphinx => "sphinx"
  | jsdoc => "jsdoc"

def ofName? (asked : String) : Option Style :=
  match lookupName asked with
  | "google" => some google
  | "numpy" => some numpy
  | "sphinx" => some sphinx
  | "jsdoc" => some jsdoc
  | _ => none

end Style

end DocComments
