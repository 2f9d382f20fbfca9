import DocComments.Header.Basic

/-! Headers of JavaScript and TypeScript definitions. Three shapes are tried in order: function
statements, arrow functions bound to a name, and methods. -/
namespace DocComments.Header.JavaScript
open Text Parameters

def identifier? (s : List Char) : Option (List Char × List Char) :=
  name? isDollarNameStart isDollarNamePart s

/-- Words that open control flow where a name would stand. -/
def reserved : List (List Char) := [
  ['i', 'f'], ['f', 'o', 'r'], ['w', 'h', 'i', 'l', 'e'], ['s', 'w', 'i', 't', 'c', 'h'],
  ['c', 'a', 't', 'c', 'h'], ['w', 'i', 't', 'h'], ['r', 'e', 't', 'u', 'r', 'n'],
  ['f', 'u', 'n', 'c', 't', 'i', 'o', 'n']]

def exportWord : List Char := ['e', 'x', 'p', 'o', 'r', 't']

def defaultWord : List Char := ['d', 'e', 'f', 'a', 'u', 'l', 't']

def functionWord : List Char := ['f', 'u', 'n', 'c', 't', 'i', 'o', 'n']

def declarators : List (List Char) := [
  ['c', 'o', 'n', 's', 't'], ['l', 'e', 't'], ['v', 'a', 'r']]

def modifiers : List (List Char) := [
  ['p', 'u', 'b', 'l', 'i', 'c'], ['p', 'r', 'i', 'v', 'a', 't', 'e'],
  ['p', 'r', 'o', 't', 'e', 'c', 't', 'e', 'd'], ['s', 't', 'a', 't', 'i', 'c'],
  ['r', 'e', 'a', 'd', 'o', 'n', 'l', 'y'], ['o', 'v', 'e', 'r', 'r', 'i', 'd', 'e'],
  ['a', 'b', 's', 't', 'r', 'a', 'c', 't'], ['g', 'e', 't'], ['s', 'e', 't']]

/-- What follows the first of the keywords that stands at the head of the text. -/
def anyKeyword? (words : List (List Char)) (s : List Char) : Option (List Char) :=
  words.findSome? (keyword? · s)

/-- The end of a function or method header: an optional return type after a colon, then a brace. -/
def braceEnd? (s : List Char) : Option (Option (List Char) × List Char) :=
  match trimStart s with
  | '{' :: rest => some (none, rest)
  | ':' :: rest => (upTo? '{' rest).map fun (type, tail) => (content? type, tail)
  | _ => none

def bodyBrace? (s : List Char) : Option (List Char) :=
  match trimStart s with
  | '{' :: rest => some rest
  | _ => none

/-- The end of an arrow header: an optional return type after a colon, the arrow, then a brace. -/
def arrowEnd? (s : List Char) : Option (Option (List Char) × List Char) :=
  match trimStart s with
  | '=' :: '>' :: rest => (bodyBrace? rest).map fun tail => (none, tail)
  | ':' :: rest =>
    match upTo? '=' rest with
    | some (type, '>' :: rest) => (bodyBrace? rest).map fun tail => (content? type, tail)
    | _ => none
  | _ => none

/-- Passes over type parameters in angle brackets, which hold no parenthesis. -/
def skipTypeParameters? (s : List Char) : Option (List Char) :=
  match trimStart s with
  | '<' :: rest =>
    match rest.dropWhile fun c => !(c == '>' || c == '(' || c == ')') with
    | '>' :: rest => some rest
    | _ => none
  | s => some s

/-- A function statement, exported or not; a star may mark a generator. -/
def statement? (line : Line) : Option Captures := do
  let s := skipKeyword defaultWord (skipKeyword exportWord (afterIndent line))
  let (isAsync, s) := skipAsync s
  let s ← dropPrefix? functionWord s
  guard (atWordEnd s)
  let (name, s) ← identifier? (trimStart (withoutPrefix ['*'] (trimStart s)))
  let s ← skipTypeParameters? s
  let s ← open? s
  let (parameters, returnType, tail) ← close? braceEnd? s
  some { name := some name, parameters := some parameters, returnType, isAsync, tail }

/-- What follows the equals sign of a binding, with an optional type in front of it. -/
def bound? (s : List Char) : Option (List Char) :=
  match trimStart s with
  | '=' :: rest => some rest
  | ':' :: rest => (upTo? '=' rest).map (·.2)
  | _ => none

/-- An arrow function bound to the name at the head of the text. -/
def binding? (s : List Char) : Option Captures := do
  let (name, s) ← identifier? s
  let s ← bound? s
  let (isAsync, s) := skipAsync (trimStart s)
  let s ← dropPrefix? ['('] s
  let (parameters, returnType, tail) ← close? arrowEnd? s
  some { name := some name, parameters := some parameters, returnType, isAsync, tail }

/-- A binding with or without a declaring keyword, which may also be the name itself. -/
def declaration? (s : List Char) : Option Captures :=
  (anyKeyword? declarators s).bind binding? <|> binding? s

def arrow? (line : Line) : Option Captures :=
  let s := afterIndent line
  (keyword? exportWord s).bind declaration? <|> declaration? s

def signature? (isAsync : Bool) (s : List Char) : Option Captures := do
  let (name, s) ← identifier? s
  let s ← open? s
  let (parameters, returnType, tail) ← close? braceEnd? s
  some { name := some name, parameters := some parameters, returnType, isAsync, tail }

/-- A method header behind its modifiers. The word for asynchronous functions may be the name. -/
def asyncSignature? (s : List Char) : Option Captures :=
  (keyword? asyncWord s).bind (signature? true) <|> signature? false s

/-- A method header behind at most so many modifiers, any of which may be the name instead. -/
def modified? : Nat → List Char → Option Captures
  | 0, s => asyncSignature? s
  | n + 1, s => (anyKeyword? modifiers s).bind (modified? n) <|> asyncSignature? s

def method? (line : Line) : Option Captures :=
  let s := afterIndent line
  modified? s.length s

structure Pattern where
  kind : DefinitionKind
  captures? : Line → Option Captures

def patterns : List Pattern := [⟨.function, statement?⟩, ⟨.function, arrow?⟩, ⟨.method, method?⟩]

/-- The header by the first of the patterns that matches the line with a name that is no reserved word. -/
def firstHeader? (number : Nat) (line : Line) : List Pattern → Except ScanError (Option Header)
  | [] => .ok none
  | pattern :: rest =>
    match pattern.captures? line with
    | none => firstHeader? number line rest
    | some c => do
      let name ← required number "name" c.name
      if reserved.contains name then firstHeader? number line rest
      else .ok (some {
        kind := pattern.kind, name, parameters := c.parameters.getD [], returnType := c.returnType
        isAsync := c.isAsync, tail := c.tail })

def header? (number : Nat) (line : Line) : Except ScanError (Option Header) :=
  firstHeader? number line patterns

end DocComments.Header.JavaScript
