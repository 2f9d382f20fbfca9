/-! Searching a text for a fixed piece. -/
namespace DocComments.Text

def startsWith (piece s : List Char) : Bool :=
  piece.isPrefixOf s

def endsWith (piece s : List Char) : Bool :=
  piece.isSuffixOf s

def dropPrefix? (piece s : List Char) : Option (List Char) :=
  piece.isPrefixOf? s

def dropSuffix? (piece s : List Char) : Option (List Char) :=
  piece.isSuffixOf? s

def withoutPrefix (piece s : List Char) : List Char :=
  (dropPrefix? piece s).getD s

def withoutSuffix (piece s : List Char) : List Char :=
  (dropSuffix? piece s).getD s

/-- What stands before and after the first occurrence of the piece. -/
def splitAt? (piece : List Char) : List Char → Option (List Char × List Char)
  | [] => if piece.isEmpty then some ([], []) else none
  | c :: rest =>
    match dropPrefix? piece (c :: rest) with
    | some after => some ([], after)
    | none => (splitAt? piece rest).map fun (before, after) => (c :: before, after)

/-- The pieces between the occurrences of a separating character; always at least one. -/
def splitOnChar (separator : Char) : List Char → List (List Char)
  | [] => [[]]
  | c :: rest =>
    if c = separator then [] :: splitOnChar separator rest
    else
      match splitOnChar separator rest with
      | [] => [[c]]
      | piece :: pieces => (c :: piece) :: pieces

end DocComments.Text
