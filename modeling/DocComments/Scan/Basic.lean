import DocComments.Definition
import DocComments.Header.Basic

/-! The scan of a file for definitions. A definition owns the lines from its header to the end of its
body, and the scan goes on below them, so that nothing inside a body is reported. -/
namespace DocComments
open Text

/-- The definitions found by a scan, and why it stopped if it did not reach the end. -/
structure Scan where
  found : List Definition
  failure : Option ScanError := none
  deriving DecidableEq, Repr

abbrev Scanner := List Line → Scan

structure Grammar where
  /-- The header on the line with the given number, counted from one. -/
  header? : Nat → Line → Except ScanError (Option Header)
  /-- How many of the lines below a header belong to its body. -/
  bodyLength : Line → List Line → Nat
  /-- The parameters declared between the parentheses of a header. -/
  parameters : List Char → List Parameter
  /-- The documentation of the definition with the given header and last line, looked for no higher
  than the third number. -/
  doc? : List Line → Nat → Nat → Nat → Option (List Char)
  /-- The decorators above a header, looked for no higher than the second number. -/
  decorators : List Line → Nat → Nat → List (List Char)

namespace Grammar
variable (g : Grammar)

def code? (lines : List Line) (first last : Nat) : Except ScanError (List Char) :=
  if first ≤ last + 1 ∧ last < lines.length then .ok (joinLines ((lines.take (last + 1)).drop first))
  else .error (.lineOutOfRange last lines.length)

/-- The definition whose header stands on line `first` and whose body ends on line `last`. -/
def definition? (lines : List Line) (floor first last : Nat) (header : Header) :
    Except ScanError Definition := do
  let code ← code? lines first last
  .ok {
    name := String.ofList header.name
    kind := header.kind
    parameters := g.parameters header.parameters
    returnType := header.returnType.map String.ofList
    existingDoc := (g.doc? lines first last floor).map String.ofList
    startLine := first + 1
    endLine := last + 1
    code := String.ofList code
    isAsync := header.isAsync
    decorators := (g.decorators lines first floor).map String.ofList }

def lineAt (lines : List Line) (number : Nat) : Except ScanError Line :=
  match lines[number]? with
  | some line => .ok line
  | none => .error (.lineOutOfRange number lines.length)

/-- The definition whose header stands on the line, if one does, and how many lines its body has. -/
def definitionAt? (lines : List Line) (floor number : Nat) :
    Except ScanError (Option (Definition × Nat)) := do
  let line ← lineAt lines number
  match ← g.header? (number + 1) line with
  | none => .ok none
  | some header =>
    let length := g.bodyLength line (lines.drop (number + 1))
    let d ← g.definition? lines floor number (number + length) header
    .ok (some (d, length))

/-- Scans the lines from the given one on. No definition owns a line from `floor` on. -/
def scanFrom (lines : List Line) (floor number : Nat) : Scan :=
  if number < lines.length then
    match g.definitionAt? lines floor number with
    | .error failure => { found := [], failure := some failure }
    | .ok none => scanFrom lines floor (number + 1)
    | .ok (some (d, length)) =>
      let rest := scanFrom lines (number + length + 1) (number + length + 1)
      { found := d :: rest.found, failure := rest.failure }
  else { found := [] }
termination_by lines.length - number

def scan : Scanner := fun lines => g.scanFrom lines 0 0

end Grammar
end DocComments
