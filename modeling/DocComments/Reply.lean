import DocComments.Doc

/-! Cleaning a reply of a language model, which may wrap the text asked for in a code fence, in quotes
or in a comment. -/
namespace DocComments.Reply
open Text

def fence : List Char := ['\x60', '\x60', '\x60']

def belowFirstLine (s : List Char) : List Char :=
  (s.dropWhile (· != '\n')).drop 1

/-- Removes a code fence around the text, with whatever stands on its first line. -/
def withoutFence (s : List Char) : List Char :=
  match dropPrefix? fence (trimStart s) with
  | some opened => trimEnd (withoutSuffix fence (trimEnd (belowFirstLine opened)))
  | none => s

/-- The text between two quotes of the same kind. -/
def unquoted? (s : List Char) : Option (List Char) :=
  Doc.Docstring.delimiters.findSome? fun quote =>
    if 2 * quote.length ≤ s.length && startsWith quote s && endsWith quote s then
      some ((s.take (s.length - quote.length)).drop quote.length)
    else none

/-- Whether the text is enclosed like a documentation comment. -/
def isComment (s : List Char) : Bool :=
  startsWith Doc.Jsdoc.opener s && endsWith Doc.Jsdoc.closer s

def clean (reply : List Char) : List Char :=
  let body := withoutFence (trimEnd reply)
  let inner := trim body
  if isComment inner then Doc.Jsdoc.strip (lines inner)
  else Doc.normalize (((unquoted? inner).map trim).getD body)

end DocComments.Reply
