import DocComments.Number.Numeral
import DocComments.Text.Blank
import DocComments.Text.Find
import DocComments.Text.Lines

/-! Documentation in source: where a docstring or a comment of documentation stands, and the layout of its
text. -/
namespace DocComments.Doc
open Text

/-- A documentation text and the lines it fills, counted from zero, both ends included. -/
structure Block where
  text : List Char
  first : Nat
  last : Nat
  deriving DecidableEq, Repr

/-- The least depth of the lines that are not blank, zero if all are. -/
def commonDepth (lines : List Line) : Nat :=
  ((lines.filter fun line => !allBlank line).map depth).min?.getD 0

/-- Removes the common indentation and the blanks at line ends. Blank lines become empty. -/
def dedent (lines : List Line) : List Line :=
  let common := commonDepth lines
  lines.map fun line => if allBlank line then [] else trimEnd (line.drop common)

def withoutOuterEmpty (lines : List Line) : List Line :=
  ((lines.dropWhile (·.isEmpty)).reverse.dropWhile (·.isEmpty)).reverse

/-- The lines of a documentation text in normal form: no blanks at line ends, no empty lines around
and no common indentation. -/
def normalLines (doc : List Char) : List Line :=
  dedent (withoutOuterEmpty ((lines doc).map trimEnd))

def normalize (doc : List Char) : List Char :=
  joinLines (normalLines doc)

/-! A docstring is a triple-quoted string that is the first statement of a body. -/
namespace Docstring

def delimiters : List (List Char) := [['"', '"', '"'], ['\'', '\'', '\'']]

/-- The delimiter at the head of the text, and what follows it. -/
def delimited? (s : List Char) : Option (List Char × List Char) :=
  delimiters.findSome? fun delimiter => (dropPrefix? delimiter s).map fun rest => (delimiter, rest)

/-- Letters that may stand in front of a delimiter. -/
def isStringMark (c : Char) : Bool :=
  c == 'r' || c == 'R' || c == 'u' || c == 'U'

/-- The delimiter that opens a docstring on the line, and the rest of the line. -/
def opening? (line : Line) : Option (List Char × List Char) :=
  match trimStart line with
  | [] => none
  | c :: rest => if isStringMark c then delimited? rest else delimited? (c :: rest)

/-- Blank lines and comments may stand in front of the first statement. -/
def isSkipped (line : Line) : Bool :=
  match trim line with
  | [] => true
  | c :: _ => c == '#'

/-- The lines in front of the first on which the delimiter stands, and what precedes it there. -/
def closing? (delimiter : List Char) : List Line → Option (List Line × List Char)
  | [] => none
  | line :: rest =>
    match splitAt? delimiter line with
    | some (before, _) => some ([], before)
    | none => (closing? delimiter rest).map fun (lines, before) => (line :: lines, before)

/-- The text of a docstring over several lines, given by the rest of its first line and the lines
after that. -/
def textOf (first : List Char) (rest : List Line) : List Char :=
  trim (joinLines (trim first :: dedent rest))

/-- The number of the line below a header. Numbers are words, so that zero comes behind the greatest; no
file is so long that the headers on its own lines are affected. -/
def bodyStart (lines : List Line) (header : Nat) : Nat :=
  if header < lines.length then header + 1 else (header + 1) % (greatestWord + 1)

def body (lines : List Line) (start last : Nat) : List Line :=
  (lines.take (last + 1)).drop start

/-- The docstring at the head of a body whose first line has the given number. One that the body
does not close is none. -/
def atHead? (number : Nat) : List Line → Option Block
  | [] => none
  | line :: rest =>
    match opening? line with
    | none => none
    | some (delimiter, after) =>
      match splitAt? delimiter after with
      | some (inside, _) => some { text := trim inside, first := number, last := number }
      | none => (closing? delimiter rest).map fun (between, before) =>
          { text := textOf after (between ++ [before])
            first := number
            last := number + between.length + 1 }

def locate? (lines : List Line) (header last : Nat) : Option Block :=
  let start := bodyStart lines header
  let inner := body lines start last
  let skipped := inner.takeWhile isSkipped
  atHead? (start + skipped.length) (inner.drop skipped.length)

end Docstring

namespace Jsdoc

def opener : List Char := ['/', '*', '*']

def plainOpener : List Char := ['/', '*']

def closer : List Char := ['*', '/']

/-- Drops a leading star with one space behind it. -/
def withoutStar (s : List Char) : List Char :=
  match dropPrefix? ['*'] s with
  | some rest => withoutPrefix [' '] rest
  | none => s

def lineText (line : Line) : Line :=
  trimEnd (withoutStar (trimStart (withoutSuffix closer (withoutPrefix opener (trim line)))))

def strip (comment : List Line) : List Char :=
  trim (joinLines (comment.map lineText))

/-- How many lines up the nearest opener is, the lines being given from the last one upward. A plain
block comment on the way ends the search. -/
def openerAbove? : List Line → Option Nat
  | [] => none
  | line :: above =>
    if startsWith opener (trimStart line) then some 0
    else if startsWith plainOpener (trimStart line) then none
    else (openerAbove? above).map (· + 1)

def above (lines : List Line) (header floor : Nat) : List Line :=
  (lines.take header).drop floor

def closes (line : Line) : Bool :=
  endsWith closer (trimEnd line)

/-- The comment that ends directly above the header with the given number and starts no higher than
the line `floor`. -/
def locate? (lines : List Line) (header floor : Nat) : Option Block :=
  if header ≤ lines.length then
    match (above lines header floor).reverse with
    | [] => none
    | line :: upward =>
      if closes line then
        (openerAbove? (line :: upward)).map fun distance =>
          { text := strip ((lines.take header).drop (header - 1 - distance))
            first := header - 1 - distance
            last := header - 1 }
      else none
  else none

end Jsdoc
end DocComments.Doc
