import DocComments.Json.Basic

/-! Writing JSON text, on one line or indented. -/
namespace DocComments.Json

def hexChar (n : Nat) : Char :=
  Char.ofNat (if n < 10 then '0'.toNat + n else 'a'.toNat + (n - 10))

/-- A character inside a string. Control characters have escapes, some of them by letter. -/
def escapeChar (c : Char) : List Char :=
  match c with
  | '"' => ['\\', '"']
  | '\\' => ['\\', '\\']
  | '\x08' => ['\\', 'b']
  | '\x0c' => ['\\', 'f']
  | '\n' => ['\\', 'n']
  | '\r' => ['\\', 'r']
  | '\t' => ['\\', 't']
  | c =>
    if c < ' ' then ['\\', 'u', '0', '0', hexChar (c.toNat / 16), hexChar (c.toNat % 16)] else [c]

def quoted (s : String) : List Char :=
  '"' :: s.toList.flatMap escapeChar ++ ['"']

def scalarText : Json → List Char
  | bool true => ['t', 'r', 'u', 'e']
  | bool false => ['f', 'a', 'l', 's', 'e']
  | nat n => Numeral.digits n
  | decimal n => n.text
  | str s => quoted s
  | _ => ['n', 'u', 'l', 'l']

mutual

def compactText : Json → List Char
  | arr items => '[' :: compactItems items
  | obj members => '{' :: compactMembers members
  | value => scalarText value

def compactItems : List Json → List Char
  | [] => [']']
  | [item] => compactText item ++ [']']
  | item :: next :: rest => compactText item ++ ',' :: compactItems (next :: rest)

def compactMembers : List (String × Json) → List Char
  | [] => ['}']
  | [(name, value)] => quoted name ++ ':' :: compactText value ++ ['}']
  | (name, value) :: next :: rest =>
    quoted name ++ ':' :: compactText value ++ ',' :: compactMembers (next :: rest)

end

def compact (value : Json) : String :=
  String.ofList (compactText value)

def newLine (level : Nat) : List Char :=
  '\n' :: List.replicate (2 * level) ' '

mutual

def indentedText (level : Nat) : Json → List Char
  | arr [] => ['[', ']']
  | arr (item :: items) => '[' :: indentedItems (level + 1) (item :: items) ++ newLine level ++ [']']
  | obj [] => ['{', '}']
  | obj (member :: members) =>
    '{' :: indentedMembers (level + 1) (member :: members) ++ newLine level ++ ['}']
  | value => scalarText value

def indentedItems (level : Nat) : List Json → List Char
  | [] => []
  | [item] => newLine level ++ indentedText level item
  | item :: next :: rest =>
    newLine level ++ indentedText level item ++ ',' :: indentedItems level (next :: rest)

def indentedMembers (level : Nat) : List (String × Json) → List Char
  | [] => []
  | [(name, value)] => newLine level ++ quoted name ++ ':' :: ' ' :: indentedText level value
  | (name, value) :: next :: rest =>
    newLine level ++ quoted name ++ ':' :: ' ' :: indentedText level value ++
      ',' :: indentedMembers level (next :: rest)

end

/-- A value with two spaces of indentation per level and no newline at the end. -/
def indented (value : Json) : String :=
  String.ofList (indentedText 0 value)

end DocComments.Json
