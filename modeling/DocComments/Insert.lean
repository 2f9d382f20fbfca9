import DocComments.Doc
import DocComments.Extract

/-! Documentation written back into source. Definitions are edited from the bottom up, so that an edit
moves only lines that are already done. -/
namespace DocComments.Insert
open Text

def quotes : List Char := ['"', '"', '"']

/-- Escapes every run of three double quotes, from the left. -/
def escapeQuotes : List Char → List Char
  | '"' :: '"' :: '"' :: rest => '\\' :: '"' :: '\\' :: '"' :: '\\' :: '"' :: escapeQuotes rest
  | c :: rest => c :: escapeQuotes rest
  | [] => []

/-- Escapes every end of a comment. -/
def escapeCloser : List Char → List Char
  | '*' :: '/' :: rest => '*' :: '\\' :: '/' :: escapeCloser rest
  | c :: rest => c :: escapeCloser rest
  | [] => []

def docstring (doc : List Line) (indent : List Char) : List Line :=
  (indent ++ quotes) ::
    doc.map (fun line => if line.isEmpty then [] else indent ++ escapeQuotes line) ++
    [indent ++ quotes]

def jsdoc (doc : List Line) (indent : List Char) : List Line :=
  (indent ++ ['/', '*', '*']) ::
    doc.map (fun line =>
      if line.isEmpty then indent ++ [' ', '*'] else indent ++ ' ' :: '*' :: ' ' :: escapeCloser line) ++
    [indent ++ [' ', '*', '/']]

/-- The lines `first` up to `stop`, not included, are to be replaced by a block. -/
structure Edit where
  first : Nat
  stop : Nat
  block : List Line
  deriving DecidableEq, Repr

def Edit.apply (edit : Edit) (lines : List Line) : List Line :=
  lines.take edit.first ++ edit.block ++ lines.drop edit.stop

def blockFor (language : Language) (header : Line) (doc : List Line) : List Line :=
  match language with
  | .python => docstring doc (indentation header ++ [' ', ' ', ' ', ' '])
  | .javaScript => jsdoc doc (indentation header ++ [' ', ' '])

/-- The lines that documentation for a definition replaces: the documentation that is there, or none
at the place where it belongs. The definition before it ends above the line `floor`. -/
def span (language : Language) (lines : List Line) (floor : Nat) (d : Definition) : Nat × Nat :=
  let header := d.startLine - 1
  match language with
  | .python =>
    match Doc.Docstring.locate? lines header (d.endLine - 1) with
    | some block => (block.first, block.last + 1)
    | none => (header + 1, header + 1)
  | .javaScript =>
    match Doc.Jsdoc.locate? lines header floor with
    | some block => (block.first, block.last + 1)
    | none => (header, header)

/-- The lines to write for a definition, if it has a text that is not blank. -/
def docLines? (docs : DocMap) (d : Definition) : Option (List Line) :=
  match (docs d.name).map fun doc => Doc.normalLines doc.toList with
  | some (line :: rest) => some (line :: rest)
  | _ => none

def edit? (language : Language) (docs : DocMap) (lines : List Line) (floor : Nat) (d : Definition) :
    Option Edit :=
  (docLines? docs d).map fun doc =>
    let (first, stop) := span language lines floor d
    { first, stop, block := blockFor language (lines.getD (d.startLine - 1) []) doc }

/-- Documents the definitions, the lowest first, and counts those that are written. The definition
before the first ends above the line `floor`. -/
def documentLines (language : Language) (docs : DocMap) (lines : List Line) :
    Nat → List Definition → List Line × Nat
  | _, [] => (lines, 0)
  | floor, d :: below =>
    let (edited, updated) := documentLines language docs lines d.endLine below
    match edit? language docs edited floor d with
    | some edit => (edit.apply edited, updated + 1)
    | none => (edited, updated)

/-- The text of lines that come from a source with or without a newline at its end. -/
def textOf (source : String) (lines : List Line) : String :=
  String.ofList (joinLines lines ++ if endsInNewline source.toList then ['\n'] else [])

end Insert

structure Documented where
  content : String
  updated : Nat
  deriving DecidableEq, Repr

/-- Writes documentation for every definition that has some, in place of what is there. -/
def document (language : Language) (docs : DocMap) (source : String) : Documented :=
  let (lines, updated) :=
    Insert.documentLines language docs (Text.linesOf source) 0 (extract language source)
  { content := Insert.textOf source lines, updated }

end DocComments
