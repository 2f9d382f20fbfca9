import DocComments.Language
import DocComments.Time.Instant

/-! Records of documentation runs, newest first. -/
namespace DocComments.History

/-- One run: a file before and after documentation was written into it. -/
structure Record where
  id : String
  filename : String
  language : Language
  contentBefore : String
  contentAfter : String
  createdAt : Instant
  deriving DecidableEq, Repr

def Record.changed (r : Record) : Bool :=
  r.contentBefore != r.contentAfter

/-- Whether the second record may stand behind the first in a listing. Newer records stand in front;
of records with the same instant the one with the lesser id does. -/
def Record.precedes (a b : Record) : Bool :=
  b.createdAt.lt a.createdAt || (a.createdAt == b.createdAt && !(b.id < a.id))

def newestFirst (records : List Record) : List Record :=
  records.mergeSort Record.precedes

inductive Error where
  | notFound (id : String)
  /-- A failure of the file system, told by what was tried and the path it was tried on. -/
  | storage (verb path : String)
  deriving DecidableEq, Repr

def Error.message : Error → String
  | notFound id => "History record not found: " ++ id
  | storage verb path => "Storage error: " ++ verb ++ " " ++ path

end DocComments.History
