import DocComments.Doc
import DocComments.Header.Python
import DocComments.Scan.Basic

/-! Python bodies reach as far as the indentation does. -/
namespace DocComments.Scan.Python
open Text

def inBody (header : Nat) (line : Line) : Bool :=
  allBlank line || header < depth line

def bodyLength (header : Line) (below : List Line) : Nat :=
  (below.takeWhile (inBody (depth header))).length

def leadingDecorators : List Line → List (List Char)
  | [] => []
  | line :: rest =>
    match Header.Python.decorator? line with
    | some name => name :: leadingDecorators rest
    | none => []

/-- The names of the decorators directly above a header, from the top. -/
def decorators (lines : List Line) (header floor : Nat) : List (List Char) :=
  (leadingDecorators ((lines.take header).drop floor).reverse).reverse

def grammar : Grammar where
  header? := Header.Python.header?
  bodyLength := bodyLength
  parameters raw := Parameters.withoutReceiver (Parameters.parse .python raw)
  doc? lines header last _ := (Doc.Docstring.locate? lines header last).map (·.text)
  decorators := decorators

end DocComments.Scan.Python
