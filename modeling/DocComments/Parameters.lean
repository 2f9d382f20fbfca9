import DocComments.Definition
import DocComments.Language
import DocComments.Text.Word
import DocComments.Text.Find

/-! Parameter lists. A list is cut at every comma, inside brackets too, and each segment that starts
with a name is one parameter. -/
namespace DocComments.Parameters

def isNameStart (c : Char) : Bool :=
  Text.isAsciiLetter c || c == '_'

def isDollarNameStart (c : Char) : Bool :=
  isNameStart c || c == '$'

def isDollarNamePart (c : Char) : Bool :=
  Text.isWord c || c == '$'

def name? (start part : Char → Bool) : List Char → Option (List Char × List Char)
  | [] => none
  | c :: rest => if start c then some (c :: rest.takeWhile part, rest.dropWhile part) else none

/-- A Python parameter name: up to two stars may stand in front. -/
def starredName? : List Char → Option (List Char × List Char)
  | '*' :: '*' :: rest => (name? isNameStart Text.isWord rest).map fun (n, r) => ('*' :: '*' :: n, r)
  | '*' :: rest => (name? isNameStart Text.isWord rest).map fun (n, r) => ('*' :: n, r)
  | s => name? isNameStart Text.isWord s

/-- A JavaScript parameter name: three dots may stand in front, and a question mark behind it is
passed over. -/
def restName? (s : List Char) : Option (List Char × List Char) :=
  let dots := if Text.startsWith ['.', '.', '.'] s then ['.', '.', '.'] else []
  (name? isDollarNameStart isDollarNamePart (s.drop dots.length)).map fun (n, r) =>
    (dots ++ n, Text.withoutPrefix ['?'] r)

/-- Cuts the text at its first equals sign that is not the start of an arrow. -/
def splitDefault : List Char → List Char × Option (List Char)
  | [] => ([], none)
  | c :: rest =>
    if c == '=' && rest.head? != some '>' then ([], some rest)
    else
      let (typePart, default) := splitDefault rest
      (c :: typePart, default)

def annotatedType? (typePart : List Char) : Option (List Char) :=
  match Text.trim typePart with
  | ':' :: type => Text.content? type
  | _ => none

def ofSegment? (language : Language) (segment : List Char) : Option Parameter :=
  let named := match language with
    | .python => starredName? segment
    | .javaScript => restName? segment
  named.map fun (name, rest) =>
    let (typePart, default) := splitDefault (Text.trim rest)
    { name := String.ofList name
      type := (annotatedType? typePart).map String.ofList
      default := (default.bind Text.content?).map String.ofList }

/-- The parameters of a raw list such as `a, b: int, c=5`. -/
def parse (language : Language) (raw : List Char) : List Parameter :=
  (Text.splitOnChar ',' raw).filterMap fun segment => ofSegment? language (Text.trim segment)

/-- The receiver of a method is no parameter of its calls. -/
def isReceiver (p : Parameter) : Bool :=
  p.name == "self" || p.name == "cls"

def withoutReceiver : List Parameter → List Parameter
  | [] => []
  | p :: rest => if isReceiver p then rest else p :: rest

end DocComments.Parameters
