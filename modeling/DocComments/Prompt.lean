import DocComments.Request

/-! The prompt sent to a language model for one definition. -/
namespace DocComments.Prompt

def system : String :=
  "You write documentation comments for source code. " ++
    "Reply with the documentation text only: no code fences, no comment markers, no surrounding quotes."

def guide : Style → String
  | .google =>
    "Google style: a one-line summary, a blank line, then `Args:`, `Returns:` and `Raises:` sections as needed."
  | .numpy =>
    "NumPy style: a one-line summary, a blank line, then `Parameters` and `Returns` sections underlined with dashes."
  | .sphinx =>
    "Sphinx style: a one-line summary followed by `:param name:`, `:type name:`, `:returns:` and `:rtype:` fields."
  | .jsdoc =>
    "JSDoc style: a one-line summary followed by `@param \x7btype\x7d name description` and `@returns \x7btype\x7d description` tags."

def declaration (p : Parameter) : String :=
  p.name ++ (match p.type with
    | some type => ": " ++ type
    | none => "") ++ match p.default with
    | some value => " = " ++ value
    | none => ""

def parameterList (ps : List Parameter) : String :=
  if ps.isEmpty then ""
  else "\nParameters:\n" ++ String.join (ps.map fun p => "- " ++ declaration p ++ "\n")

def returnLine : Option String → String
  | some type => "\nReturn type: " ++ type ++ "\n"
  | none => ""

def build (style : Style) (r : DocRequest) : String :=
  "Write documentation for the " ++ r.language.name ++ " " ++ r.kind.name ++ " `" ++ r.name ++ "`.\n" ++
    guide style ++ "\n" ++ parameterList r.parameters ++ returnLine r.returnType ++
    "\nSource:\n```" ++ r.language.name ++ "\n" ++ r.body ++ "\n```\n"

end DocComments.Prompt
