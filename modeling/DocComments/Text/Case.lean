import DocComments.Text.Word
import DocComments.Text.CaseTable

/-! Upper and lower case of letters and words in every script. -/
namespace DocComments.Text

/-- The image of the code point under the first run `(first, last, step, image)` it lies on. -/
def imageOnRun? (runs : List (Nat × Nat × Nat × Nat)) (n : Nat) : Option Nat :=
  (runs.find? fun (first, last, step, _) => first ≤ n && n ≤ last && (n - first) % step == 0).map
    fun (first, _, _, image) => image + (n - first)

def isUpper (c : Char) : Bool :=
  if c.toNat < 0x80 then 'A' ≤ c && c ≤ 'Z' else onRun upperRuns c.toNat

def isLower (c : Char) : Bool :=
  if c.toNat < 0x80 then 'a' ≤ c && c ≤ 'z' else onRun lowerRuns c.toNat

def isCased (c : Char) : Bool :=
  isUpper c || isLower c || onRun titleRuns c.toNat

/-- Whether casing looks past the character for a neighbour. -/
def isCaseIgnorable (c : Char) : Bool :=
  onRun caseIgnorableRuns c.toNat

/-- The lower case of a letter taken by itself. -/
def lowerLetter (c : Char) : List Char :=
  if c.toNat < 0x80 then [if 'A' ≤ c && c ≤ 'Z' then Char.ofNat (c.toNat + 32) else c]
  else if c == '\u0130' then ['i', '\u0307']
  else [Char.ofNat ((imageOnRun? lowerMapRuns c.toNat).getD c.toNat)]

def upperLetter (c : Char) : List Char :=
  if c.toNat < 0x80 then [if 'a' ≤ c && c ≤ 'z' then Char.ofNat (c.toNat - 32) else c]
  else
    match upperSequences.lookup c.toNat with
    | some images => images.map Char.ofNat
    | none => [Char.ofNat ((imageOnRun? upperMapRuns c.toNat).getD c.toNat)]

/-- Whether a cased letter comes next once the ignorable characters are passed over. -/
def casedNext (s : List Char) : Bool :=
  match s.dropWhile isCaseIgnorable with
  | [] => false
  | c :: _ => isCased c

/-- Lower case with the text before at hand, nearest character first: a capital sigma that closes a
word takes its final form. -/
def lowerAfter (before : List Char) : List Char → List Char
  | [] => []
  | c :: rest =>
    (if c == 'Σ' then [if casedNext before && !casedNext rest then 'ς' else 'σ'] else lowerLetter c)
      ++ lowerAfter (c :: before) rest

def lower (s : String) : String :=
  String.ofList (lowerAfter [] s.toList)

end DocComments.Text
