import DocComments.Request
import DocComments.Text.Case
import DocComments.Text.Find

/-! Skeleton documentation rendered from a signature alone: a summary made of the words of the name,
and an entry for each parameter and for the return value. -/
namespace DocComments.Template
open Text

def isSeparator (c : Char) : Bool :=
  c == '_' || c == '$'

/-- Whether a capital behind this character starts a word. -/
def endsWord (c : Char) : Bool :=
  isLower c || isAsciiDigit c

/-- A finished word in front of others. Empty words are none. -/
def consWord (word : List Char) (words : List (List Char)) : List (List Char) :=
  if word.isEmpty then words else word :: words

/-- The lower case words of a name, after the word `current` that ends in a character behind which a
capital starts a new one if `open_` says so. -/
def wordsAfter (current : List Char) (open_ : Bool) : List Char → List (List Char)
  | [] => consWord current []
  | c :: rest =>
    if isSeparator c then consWord current (wordsAfter [] false rest)
    else if isUpper c && open_ then consWord current (wordsAfter (lowerLetter c) (endsWord c) rest)
    else wordsAfter (current ++ lowerLetter c) (endsWord c) rest

def words (name : List Char) : List (List Char) :=
  wordsAfter [] false name

/-- The words as a sentence. A name without words is its own. -/
def summary (name : String) : String :=
  match [' '].intercalate (words name.toList) with
  | c :: rest => String.ofList (upperLetter c ++ rest ++ ['.'])
  | [] => name ++ "."

def bareName (p : Parameter) : String :=
  String.ofList (p.name.toList.dropWhile fun c => c == '*' || c == '.')

def describe (p : Parameter) : String :=
  "Description of " ++ bareName p ++ "."

def describeReturn : String :=
  "Description of return value."

def googleEntry (p : Parameter) : String :=
  let qualifiers := p.type.toList ++ if p.default.isSome then ["optional"] else []
  let head := if qualifiers.isEmpty then p.name else p.name ++ " (" ++ ", ".intercalate qualifiers ++ ")"
  let default := match p.default with
    | some value => " Defaults to " ++ value ++ "."
    | none => ""
  "    " ++ head ++ ": " ++ describe p ++ default

def google (ps : List Parameter) (returns : Option String) : List String :=
  (if ps.isEmpty then [] else "" :: "Args:" :: ps.map googleEntry) ++
    match returns with
    | some type => ["", "Returns:", "    " ++ type ++ ": " ++ describeReturn]
    | none => []

def numpyEntry (p : Parameter) : List String :=
  let head := match p.type, p.default with
    | some type, some _ => p.name ++ " : " ++ type ++ ", optional"
    | some type, none => p.name ++ " : " ++ type
    | none, some _ => p.name ++ " : optional"
    | none, none => p.name
  [head, "    " ++ describe p]

def numpy (ps : List Parameter) (returns : Option String) : List String :=
  (if ps.isEmpty then [] else "" :: "Parameters" :: "----------" :: ps.flatMap numpyEntry) ++
    match returns with
    | some type => ["", "Returns", "-------", type, "    " ++ describeReturn]
    | none => []

def sphinxEntry (p : Parameter) : List String :=
  (":param " ++ bareName p ++ ": " ++ describe p) ::
    match p.type with
    | some type => [":type " ++ bareName p ++ ": " ++ type]
    | none => []

def sphinx (ps : List Parameter) (returns : Option String) : List String :=
  let fields := ps.flatMap sphinxEntry ++
    match returns with
    | some type => [":returns: " ++ describeReturn, ":rtype: " ++ type]
    | none => []
  if fields.isEmpty then [] else "" :: fields

def jsdocEntry (p : Parameter) : String :=
  let slot := match p.default with
    | some value => "[" ++ bareName p ++ "=" ++ value ++ "]"
    | none => bareName p
  "@param \x7b" ++ p.type.getD "*" ++ "\x7d " ++ slot ++ " - " ++ describe p

def jsdoc (ps : List Parameter) (returns : Option String) : List String :=
  ps.map jsdocEntry ++
    match returns with
    | some type => ["@returns \x7b" ++ type ++ "\x7d " ++ describeReturn]
    | none => []

def sections : Style → List Parameter → Option String → List String
  | .google => google
  | .numpy => numpy
  | .sphinx => sphinx
  | .jsdoc => jsdoc

/-- The skeleton documentation of a definition. A class has neither parameters nor a return value. -/
def render (style : Style) (r : DocRequest) : String :=
  let below := match r.kind with
    | .class_ => sections style [] none
    | _ => sections style r.parameters r.returnType
  "\n".intercalate (summary r.name :: below)

end DocComments.Template
