import DocComments.Definition
import DocComments.Parameters

/-! The first line of a definition, and the pieces from which header patterns are built. Lines hold
no line feed, and of several readings the leftmost that lets the rest of the header match counts. -/
namespace DocComments

/-- Why a scan stopped early. -/
inductive ScanError where
  | lineOutOfRange (index total : Nat)
  | missingCapture (line : Nat) (group : String)
  deriving DecidableEq, Repr

def ScanError.message : ScanError → String
  | lineOutOfRange index total => s!"line {index} is out of range ({total} lines)"
  | missingCapture line group => s!"header on line {line} is missing its `{group}` capture"

/-- What a pattern captures from a line that it matches. A group that took no part in the match is
absent. -/
structure Captures where
  indent : Option (List Char) := none
  name : Option (List Char) := none
  parameters : Option (List Char) := none
  /-- Without the blanks around it, and absent if it is nothing else. -/
  returnType : Option (List Char) := none
  /-- Whether the group of the keyword took part. -/
  isAsync : Bool := false
  /-- The rest of the line behind the match. -/
  tail : List Char
  deriving DecidableEq, Repr

structure Header where
  kind : DefinitionKind
  name : List Char
  parameters : List Char
  returnType : Option (List Char)
  isAsync : Bool
  tail : List Char
  deriving DecidableEq, Repr

namespace Header
open Text

/-- The text of a group without which nothing can be said of the line with the given number. -/
def required (number : Nat) (group : String) : Option (List Char) → Except ScanError (List Char)
  | some text => .ok text
  | none => .error (.missingCapture number group)

/-- What follows the keyword and the blanks that must stand behind it. -/
def keyword? (word s : List Char) : Option (List Char) :=
  match dropPrefix? word s with
  | some (c :: rest) => if isBlank c then some (trimStart rest) else none
  | _ => none

def skipKeyword (word s : List Char) : List Char :=
  (keyword? word s).getD s

def asyncWord : List Char := ['a', 's', 'y', 'n', 'c']

/-- Whether the text starts with the keyword of asynchronous functions, and what follows it. -/
def skipAsync (s : List Char) : Bool × List Char :=
  match keyword? asyncWord s with
  | some rest => (true, rest)
  | none => (false, s)

def open? (s : List Char) : Option (List Char) :=
  match trimStart s with
  | '(' :: rest => some rest
  | _ => none

/-- The text before the first closing parenthesis behind which the rest is accepted. -/
def close? {α : Type} (accept : List Char → Option α) : List Char → Option (List Char × α)
  | [] => none
  | c :: rest =>
    match if c == ')' then accept rest else none with
    | some a => some ([], a)
    | none => (close? accept rest).map fun (before, a) => (c :: before, a)

/-- What is accepted behind the last closing parenthesis behind which anything is. -/
def closeLast? {α : Type} (accept : List Char → Option α) : List Char → Option α
  | [] => none
  | c :: rest =>
    match closeLast? accept rest with
    | some a => some a
    | none => if c == ')' then accept rest else none

/-- The text before the first stop character, which must not come at once, and the rest behind it. -/
def upTo? (stop : Char) (s : List Char) : Option (List Char × List Char) :=
  match s.takeWhile (· != stop), s.dropWhile (· != stop) with
  | c :: text, _ :: rest => some (c :: text, rest)
  | _, _ => none

end Header
end DocComments
