import DocComments.Header.Basic

/-! Headers of Python definitions: `def` lines, plain or asynchronous, and `class` lines. -/
namespace DocComments.Header.Python
open Text Parameters

/-- The end of a function header: an optional return type after an arrow, then a colon. -/
def functionEnd? (s : List Char) : Option (Option (List Char) × List Char) :=
  match trimStart s with
  | ':' :: rest => some (none, rest)
  | '-' :: '>' :: rest => (upTo? ':' rest).map fun (type, tail) => (content? type, tail)
  | _ => none

def function? (line : Line) : Option Captures := do
  let (isAsync, s) := skipAsync (afterIndent line)
  let s ← keyword? ['d', 'e', 'f'] s
  let (name, s) ← name? isNameStart isWord s
  let s ← open? s
  let (parameters, returnType, tail) ← close? functionEnd? s
  some {
    indent := some (indentation line), name := some name, parameters := some parameters
    returnType, isAsync, tail }

def classEnd? (s : List Char) : Option (List Char) :=
  match trimStart s with
  | ':' :: rest => some rest
  | _ => none

/-- A `class` line. Its bases, if any, reach to the last parenthesis before a colon. -/
def class? (line : Line) : Option Captures := do
  let s ← keyword? ['c', 'l', 'a', 's', 's'] (afterIndent line)
  let (name, s) ← name? isNameStart isWord s
  let tail ← match open? s with
    | some bases => closeLast? classEnd? bases
    | none => classEnd? s
  some { indent := some (indentation line), name := some name, tail }

/-- What a `def` line says. Indentation makes the function a method. -/
def ofFunction (number : Nat) (c : Captures) : Except ScanError Header := do
  let indent ← required number "indent" c.indent
  let name ← required number "name" c.name
  let parameters ← required number "params" c.parameters
  let kind := if indent.isEmpty then DefinitionKind.function else .method
  .ok { kind, name, parameters, returnType := c.returnType, isAsync := c.isAsync, tail := c.tail }

def ofClass (number : Nat) (c : Captures) : Except ScanError Header := do
  let _ ← required number "indent" c.indent
  let name ← required number "name" c.name
  .ok { kind := .class_, name, parameters := [], returnType := none, isAsync := false, tail := c.tail }

def header? (number : Nat) (line : Line) : Except ScanError (Option Header) :=
  match function? line with
  | some c => (ofFunction number c).map some
  | none =>
    match class? line with
    | some c => (ofClass number c).map some
    | none => .ok none

def decorator? (line : Line) : Option (List Char) :=
  match afterIndent line with
  | '@' :: s => (name? isNameStart (fun c => isWord c || c == '.') s).map (·.1)
  | _ => none

end DocComments.Header.Python
