import DocComments.Doc
import DocComments.Header.JavaScript
import DocComments.Scan.Basic

/-! JavaScript bodies reach to the line on which the braces balance. -/
namespace DocComments.Scan.JavaScript
open Text

def balance (line : Line) : Int :=
  (line.count '{' : Int) - (line.count '}' : Int)

/-- The number of lines until the balance, which starts as given, is no longer positive; all of them
if it stays positive. -/
def closingDistance (open_ : Int) : List Line → Nat
  | [] => 0
  | line :: rest => if open_ ≤ 0 then 0 else closingDistance (open_ + balance line) rest + 1

def bodyLength (header : Line) (below : List Line) : Nat :=
  closingDistance (balance header) below

/-- The grammar of JavaScript and TypeScript definitions, which have no decorators here. -/
def grammar : Grammar where
  header? := Header.JavaScript.header?
  bodyLength := bodyLength
  parameters raw := Parameters.parse .javaScript raw
  doc? lines header _ floor := (Doc.Jsdoc.locate? lines header floor).map (·.text)
  decorators _ _ _ := []

end DocComments.Scan.JavaScript
