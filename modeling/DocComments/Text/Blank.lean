/-! Blank characters and the removal of blanks from the ends of a text.
Two classes are kept apart: blanks, which trimming removes, and the spaces and tabs that indent. -/
namespace DocComments.Text

/-- The characters of the White_Space property. -/
def isBlank (c : Char) : Bool :=
  c == ' ' || ('\t' ≤ c && c ≤ '\r') || c == '\u0085' || c == '\u00a0' || c == '\u1680' ||
    ('\u2000' ≤ c && c ≤ '\u200a') || c == '\u2028' || c == '\u2029' || c == '\u202f' ||
    c == '\u205f' || c == '\u3000'

def allBlank (s : List Char) : Bool :=
  s.all isBlank

def trimStart (s : List Char) : List Char :=
  s.dropWhile isBlank

def trimEnd (s : List Char) : List Char :=
  (s.reverse.dropWhile isBlank).reverse

def trim (s : List Char) : List Char :=
  trimEnd (trimStart s)

/-- The trimmed text, unless nothing is left of it. -/
def content? (s : List Char) : Option (List Char) :=
  match trim s with
  | [] => none
  | c :: rest => some (c :: rest)

/-- Only spaces and tabs indent a line. -/
def isIndent (c : Char) : Bool :=
  c == ' ' || c == '\t'

def indentation (line : List Char) : List Char :=
  line.takeWhile isIndent

def afterIndent (line : List Char) : List Char :=
  line.dropWhile isIndent

def depth (line : List Char) : Nat :=
  (indentation line).length

def trimmed (s : String) : String :=
  String.ofList (trim s.toList)

theorem indentation_append_afterIndent (line : List Char) :
    indentation line ++ afterIndent line = line :=
  List.takeWhile_append_dropWhile

theorem isBlank_of_isIndent {c : Char} (h : isIndent c) : isBlank c := by
  simp only [isIndent, Bool.or_eq_true, beq_iff_eq] at h
  rcases h with rfl | rfl <;> decide

end DocComments.Text
