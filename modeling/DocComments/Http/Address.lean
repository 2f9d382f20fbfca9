import DocComments.Json.Reader
import DocComments.Json.Writer
import DocComments.Text.Find

/-! Addresses: percent-encoding, queries, and the path and query by which a client asks a server. -/
namespace DocComments.Http
open Text

def bytesOf (s : List Char) : List UInt8 :=
  (String.ofList s).toUTF8.toList

/-- Replaces every percent sign before two hexadecimal digits, with them, by the byte they name. -/
def percentDecode : List Char → List UInt8
  | '%' :: a :: b :: rest =>
    match Json.hexDigit? a, Json.hexDigit? b with
    | some high, some low => UInt8.ofNat (16 * high + low) :: percentDecode rest
    | _, _ => UInt8.ofNat '%'.toNat :: percentDecode (a :: b :: rest)
  | c :: rest => bytesOf [c] ++ percentDecode rest
  | [] => []

/-- The text that percent-encoded bytes make, if they make one. -/
def decodedText? (s : List Char) : Option String :=
  String.fromUTF8? ⟨(percentDecode s).toArray⟩

def upperHex (n : Nat) : Char :=
  (Json.hexChar n).toUpper

def percentEncode (keep : Char → Bool) (s : List Char) : List Char :=
  s.flatMap fun c =>
    if keep c then [c]
    else (bytesOf [c]).flatMap fun b => ['%', upperHex (b.toNat / 16), upperHex (b.toNat % 16)]

/-- The text of a name or value: a plus sign is a space, and what is no text is marked as such. -/
def formText (s : List Char) : String :=
  (decodedText? (s.map fun c => if c == '+' then ' ' else c)).getD "\ufffd"

/-- The names and values of a query. A name without an equals sign has the empty value. -/
def queryPairs (query : List Char) : List (String × String) :=
  ((Text.splitOnChar '&' query).filter fun part => !part.isEmpty).map fun part =>
    (formText (part.takeWhile (· != '=')), formText ((part.dropWhile (· != '=')).drop 1))

/-- A number in a query: decimal digits, with a plus sign in front allowed, within 64 bits. -/
def wordOf? (value : String) : Option Nat :=
  let digits := Text.withoutPrefix ['+'] value.toList
  if digits.isEmpty || !digits.all Text.isAsciiDigit then none
  else
    let n := Numeral.ofDigits digits
    if n ≤ greatestWord then some n else none

/-- The number of the given name, which may be missing. It must not come twice. -/
def queryWord? (name : String) (query : List Char) : Option (Option Nat) :=
  match (queryPairs query).filter (·.1 == name) with
  | [] => some none
  | [(_, value)] => (wordOf? value).map some
  | _ => none

def encodedInPath : List Char := ['"', '#', '<', '>', '?', '\x60', '{', '}', '^']

def encodedInQuery : List Char := ['"', '#', '<', '>', '\x27']

def keepsInPath (c : Char) : Bool :=
  ' ' < c && c < '\x7f' && !encodedInPath.contains c

def keepsInQuery (c : Char) : Bool :=
  ' ' < c && c < '\x7f' && !encodedInQuery.contains c

/-- Whether a path segment is a single dot, which may be encoded. -/
def isHere (s : List Char) : Bool :=
  s == ['.'] || s.map Char.toLower == ['%', '2', 'e']

def isUp (s : List Char) : Bool :=
  let s := s.map Char.toLower
  s == ['.', '.'] || s == ['.', '%', '2', 'e'] || s == ['%', '2', 'e', '.'] ||
    s == ['%', '2', 'e', '%', '2', 'e']

/-- The segments of a path, nearest last, with dots followed. The last segment is empty if the path
ends in a slash or in dots. -/
def resolve (done : List (List Char)) : List (List Char) → List (List Char)
  | [] => done
  | [s] =>
    if isUp s then done.dropLast ++ [[]] else if isHere s then done ++ [[]] else done ++ [s]
  | s :: rest =>
    if isUp s then resolve done.dropLast rest
    else if isHere s then resolve done rest
    else resolve (done ++ [s]) rest

def requestPath (s : List Char) : List Char :=
  let segments := resolve [] (splitOnChar '/' (s.map fun c => if c == '\\' then '/' else c))
  segments.flatMap fun segment => '/' :: percentEncode keepsInPath segment

/-- The request target that stands behind the host of an address; none if the text belongs to the host
instead. Tabs and line ends are dropped, as are blanks at the end and a fragment. -/
def target? (s : String) : Option String :=
  let shown := ((s.toList.reverse.dropWhile (· ≤ ' ')).reverse).filter fun c =>
    !(c == '\t' || c == '\n' || c == '\r')
  let plain := shown.takeWhile (· != '#')
  let path := plain.takeWhile (· != '?')
  let query := match plain.dropWhile (· != '?') with
    | '?' :: query => '?' :: percentEncode keepsInQuery query
    | _ => []
  match path with
  | [] => some (String.ofList ('/' :: query))
  | c :: rest =>
    if c == '/' || c == '\\' then some (String.ofList (requestPath rest ++ query)) else none

end DocComments.Http
