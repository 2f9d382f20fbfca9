/-! Text as a list of lines. A line ends at a line feed, which takes one carriage return before it
along; a final line feed opens no further line. -/
namespace DocComments.Text

/-- One line of source, without its terminator. -/
abbrev Line := List Char

def extendFirst (c : Char) : List Line → List Line
  | [] => [[c]]
  | line :: lines => (c :: line) :: lines

/-- The lines of a text. A carriage return stays unless a line feed follows it. -/
def lines : List Char → List Line
  | [] => []
  | '\n' :: rest => [] :: lines rest
  | '\r' :: '\n' :: rest => [] :: lines rest
  | c :: rest => extendFirst c (lines rest)

/-- The lines with a line feed between neighbours. -/
def joinLines : List Line → List Char
  | [] => []
  | [line] => line
  | line :: next :: rest => line ++ '\n' :: joinLines (next :: rest)

def linesOf (s : String) : List Line :=
  lines s.toList

def endsInNewline (s : List Char) : Bool :=
  s.getLast? == some '\n'

@[simp] theorem lines_nil : lines [] = [] := rfl

@[simp] theorem lines_newline (rest : List Char) : lines ('\n' :: rest) = [] :: lines rest := by
  simp [lines]

theorem joinLines_cons_cons (a b : Line) (ls : List Line) :
    joinLines (a :: b :: ls) = a ++ '\n' :: joinLines (b :: ls) := rfl

end DocComments.Text
