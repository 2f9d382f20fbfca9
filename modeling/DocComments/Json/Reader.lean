import DocComments.Json.Basic
import DocComments.Text.Word

/-! Reading JSON text. A text that is no JSON is read as far as it goes, and the tree tells where it
stopped. -/
namespace DocComments.Json
open Text

/-- What a reader got, and the rest of the text unless reading stopped. -/
abbrev Reading (α : Type) := α × Option (List Char)

def isSpace (c : Char) : Bool :=
  c == ' ' || c == '\t' || c == '\n' || c == '\r'

def skipSpace (s : List Char) : List Char :=
  s.dropWhile isSpace

def hexDigit? (c : Char) : Option Nat :=
  if isAsciiDigit c then some (c.toNat - '0'.toNat)
  else if 'a' ≤ c && c ≤ 'f' then some (c.toNat - 'a'.toNat + 10)
  else if 'A' ≤ c && c ≤ 'F' then some (c.toNat - 'A'.toNat + 10)
  else none

def hexUnit? (a b c d : Char) : Option Nat := do
  some (((← hexDigit? a) * 16 + (← hexDigit? b)) * 256 + (← hexDigit? c) * 16 + (← hexDigit? d))

def escaped? (c : Char) : Option Char :=
  match c with
  | '"' | '\\' | '/' => some c
  | 'b' => some '\x08'
  | 'f' => some '\x0c'
  | 'n' => some '\n'
  | 'r' => some '\r'
  | 't' => some '\t'
  | _ => none

/-- The units of a string up to its closing quote. An escape by number gives a unit of its own. -/
def units? : List Char → Option (List Nat × List Char)
  | [] => none
  | '"' :: rest => some ([], rest)
  | '\\' :: 'u' :: a :: b :: c :: d :: rest => do
    let unit ← hexUnit? a b c d
    let (more, rest) ← units? rest
    some (unit :: more, rest)
  | '\\' :: c :: rest => do
    let plain ← escaped? c
    let (more, rest) ← units? rest
    some (plain.toNat :: more, rest)
  | c :: rest =>
    if c < ' ' then none
    else (units? rest).map fun (more, rest) => (c.toNat :: more, rest)

/-- The text that units stand for. Halves of surrogate pairs must come in pairs. -/
def textOfUnits? : List Nat → Option (List Char)
  | [] => some []
  | [unit] => if 0xd800 ≤ unit && unit < 0xe000 then none else some [Char.ofNat unit]
  | unit :: next :: rest =>
    if 0xd800 ≤ unit && unit < 0xdc00 && 0xdc00 ≤ next && next < 0xe000 then
      (textOfUnits? rest).map
        (Char.ofNat (0x10000 + (unit - 0xd800) * 0x400 + (next - 0xdc00)) :: ·)
    else if 0xd800 ≤ unit && unit < 0xe000 then none
    else (textOfUnits? (next :: rest)).map (Char.ofNat unit :: ·)

def readString (s : List Char) : Reading Json :=
  match units? s with
  | none => (malformed, none)
  | some (units, rest) =>
    match textOfUnits? units with
    | some text => (str (String.ofList text), some rest)
    | none => (unpaired, some rest)

def digits? (s : List Char) : Option (List Char × List Char) :=
  match s.takeWhile isAsciiDigit with
  | [] => none
  | c :: digits => some (c :: digits, s.dropWhile isAsciiDigit)

/-- The digits of an integer, which start with zero only if there is no other. -/
def wholeDigits? (s : List Char) : Option (List Char × List Char) :=
  match digits? s with
  | some ('0' :: _ :: _, _) => none
  | other => other

/-- The digits behind a point, none if there is no point. -/
def fraction? (s : List Char) : Option (List Char × List Char) :=
  match s with
  | '.' :: rest => digits? rest
  | _ => some ([], s)

def exponent? (s : List Char) : Option (Option Int × List Char) :=
  match s with
  | 'e' :: rest | 'E' :: rest =>
    match rest with
    | '-' :: rest => (digits? rest).map fun (ds, rest) => (some (-(Numeral.ofDigits ds : Int)), rest)
    | '+' :: rest => (digits? rest).map fun (ds, rest) => (some (Numeral.ofDigits ds : Int), rest)
    | _ => (digits? rest).map fun (ds, rest) => (some (Numeral.ofDigits ds : Int), rest)
  | _ => some (none, s)

def numeral? (s : List Char) : Option (Numeral × List Char) := do
  let (negative, s) := match s with
    | '-' :: rest => (true, rest)
    | _ => (false, s)
  let (whole, s) ← wholeDigits? s
  let (fraction, s) ← fraction? s
  let (exponent, s) ← exponent? s
  some ({ negative, whole := Numeral.ofDigits whole, fraction, exponent }, s)

def ofNumeral (n : Numeral) : Json :=
  if n.negative || !n.fraction.isEmpty || n.exponent.isSome then decimal n else nat n.whole

def readScalar (s : List Char) : Reading Json :=
  match s with
  | 'n' :: 'u' :: 'l' :: 'l' :: rest => (null, some rest)
  | 't' :: 'r' :: 'u' :: 'e' :: rest => (bool true, some rest)
  | 'f' :: 'a' :: 'l' :: 's' :: 'e' :: rest => (bool false, some rest)
  | '"' :: rest => readString rest
  | s =>
    match numeral? s with
    | some (n, rest) => (ofNumeral n, some rest)
    | none => (malformed, none)

mutual

/-- The value at the head of the text. The first argument bounds the length of the text. -/
def readValue : Nat → List Char → Reading Json
  | 0, _ => (malformed, none)
  | bound + 1, s =>
    match skipSpace s with
    | '[' :: rest =>
      match skipSpace rest with
      | ']' :: rest => (arr [], some rest)
      | rest =>
        let (items, rest) := readItems bound rest
        (arr items, rest)
    | '{' :: rest =>
      match skipSpace rest with
      | '}' :: rest => (obj [], some rest)
      | rest =>
        let (members, rest) := readMembers bound rest
        (obj members, rest)
    | s => readScalar s

/-- The items of an array up to its closing bracket, at least one. -/
def readItems : Nat → List Char → Reading (List Json)
  | 0, _ => ([malformed], none)
  | bound + 1, s =>
    match readValue bound s with
    | (item, none) => ([item, malformed], none)
    | (item, some rest) =>
      match skipSpace rest with
      | ',' :: rest =>
        let (items, rest) := readItems bound rest
        (item :: items, rest)
      | ']' :: rest => ([item], some rest)
      | _ => ([item, malformed], none)

/-- The members of an object up to its closing brace, at least one. A name that is no text counts as
a place where the text is no JSON. -/
def readMembers : Nat → List Char → Reading (List (String × Json))
  | 0, _ => ([("", malformed)], none)
  | bound + 1, s =>
    match skipSpace s with
    | '"' :: rest =>
      match readString rest with
      | (_, none) => ([("", malformed)], none)
      | (key, some rest) =>
        let (name, mark) := match key with
          | str name => (name, [])
          | _ => ("", [("", malformed)])
        match skipSpace rest with
        | ':' :: rest =>
          match readValue bound rest with
          | (value, none) => (mark ++ [(name, value), ("", malformed)], none)
          | (value, some rest) =>
            match skipSpace rest with
            | ',' :: rest =>
              let (members, rest) := readMembers bound rest
              (mark ++ (name, value) :: members, rest)
            | '}' :: rest => (mark ++ [(name, value)], some rest)
            | _ => (mark ++ [(name, value), ("", malformed)], none)
        | _ => (mark ++ [(name, malformed)], none)
    | _ => ([("", malformed)], none)

end

structure Document where
  value : Json
  complete : Bool

def Document.ofText (s : String) : Document :=
  match readValue (s.length + 1) s.toList with
  | (value, some rest) => { value, complete := (skipSpace rest).isEmpty }
  | (value, none) => { value, complete := false }

/-- The value of a text that is JSON to its end. -/
def ofText? (s : String) : Option Json :=
  let document := Document.ofText s
  if document.complete then some document.value else none

end DocComments.Json
