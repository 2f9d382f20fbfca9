import DocComments.Json.Reader
import DocComments.Json.Writer

/-! Identifiers that may name a record file: universally unique identifiers in any of their textual
forms. -/
namespace DocComments.History.Identifier

def isHex (c : Char) : Bool :=
  (Json.hexDigit? c).isSome

def isHexRun (count : Nat) (s : List Char) : Bool :=
  s.length == count && s.all isHex

/-- Groups of 8, 4, 4, 4 and 12 digits with hyphens between them. -/
def isHyphenated (s : List Char) : Bool :=
  s.length == 36 && isHexRun 8 (s.take 8) && s[8]? == some '-' &&
    isHexRun 4 ((s.drop 9).take 4) && s[13]? == some '-' &&
    isHexRun 4 ((s.drop 14).take 4) && s[18]? == some '-' &&
    isHexRun 4 ((s.drop 19).take 4) && s[23]? == some '-' && isHexRun 12 (s.drop 24)

/-- The prefix of the form as a uniform resource name. -/
def urn : List Char := ['u', 'r', 'n', ':', 'u', 'u', 'i', 'd', ':']

def isBraced (s : List Char) : Bool :=
  match s with
  | '{' :: rest => rest.getLast? == some '}' && isHyphenated rest.dropLast
  | _ => false

def isUrn (s : List Char) : Bool :=
  match urn.isPrefixOf? s with
  | some rest => isHyphenated rest
  | none => false

def isValid (id : String) : Bool :=
  let s := id.toList
  isHexRun 32 s || isHyphenated s || isBraced s || isUrn s

def hexPair (byte : UInt8) : List Char :=
  [Json.hexChar (byte.toNat / 16), Json.hexChar (byte.toNat % 16)]

/-- The identifier made of sixteen random bytes, four bits of which tell the version and two the
variant. -/
def ofBytes (bytes : List UInt8) : String :=
  let marked := bytes.mapIdx fun i byte =>
    if i = 6 then byte % 16 + 64 else if i = 8 then byte % 64 + 128 else byte
  let digits := marked.flatMap hexPair
  let groups := [digits.take 8, (digits.drop 8).take 4, (digits.drop 12).take 4,
    (digits.drop 16).take 4, digits.drop 20]
  String.ofList (['-'].intercalate groups)

end DocComments.History.Identifier
