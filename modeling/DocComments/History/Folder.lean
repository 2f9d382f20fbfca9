import DocComments.FileName
import DocComments.History.Identifier
import DocComments.Wire.History

/-! History kept in a directory, one file per record. -/
namespace DocComments.History

inductive Entry where
  | file (text : String)
  | directory
  deriving DecidableEq, Repr

/-- What the file system holds at the place of the directory. -/
inductive Place where
  | missing
  /-- Something on the way there that is no directory. -/
  | obstructed
  /-- A directory, with its entries by their names, each of which occurs once. -/
  | present (entries : List (String × Entry))
  deriving DecidableEq, Repr

namespace Place

/-- The entries; a missing directory has none. -/
def entries : Place → List (String × Entry)
  | present entries => entries
  | _ => []

def entry? (p : Place) (name : String) : Option Entry :=
  p.entries.lookup name

/-- The place with an entry of the given name, in a directory that is made if it is missing. -/
def put (p : Place) (name : String) (entry : Entry) : Place :=
  match p with
  | obstructed => obstructed
  | p => present ((name, entry) :: p.entries.filter (·.1 != name))

def remove (p : Place) (name : String) : Place :=
  match p with
  | present entries => present (entries.filter (·.1 != name))
  | p => p

end Place

/-- A history directory: its path, and what is there. -/
structure Folder where
  path : String
  place : Place := .missing
  deriving DecidableEq, Repr

inductive Reply where
  | done
  | text (text : String)
  /-- Nothing is at the path. -/
  | missing
  | failed
  deriving DecidableEq, Repr

namespace Folder

def make (f : Folder) : Reply × Folder :=
  match f.place with
  | .missing => (.done, { f with place := .present [] })
  | .present _ => (.done, f)
  | .obstructed => (.failed, f)

/-- Writes a file, in place of one of the same name. -/
def write (f : Folder) (name text : String) : Reply × Folder :=
  match f.place, f.place.entry? name with
  | .present _, some .directory | .obstructed, _ => (.failed, f)
  | .missing, _ => (.missing, f)
  | .present _, _ => (.done, { f with place := f.place.put name (.file text) })

def read (f : Folder) (name : String) : Reply :=
  match f.place, f.place.entry? name with
  | .obstructed, _ | _, some .directory => .failed
  | _, none => .missing
  | _, some (.file text) => .text text

def unlink (f : Folder) (name : String) : Reply × Folder :=
  match f.place, f.place.entry? name with
  | .obstructed, _ | _, some .directory => (.failed, f)
  | _, none => (.missing, f)
  | _, some (.file _) => (.done, { f with place := f.place.remove name })

def fileName (id : String) : String :=
  id ++ ".json"

def filePath (f : Folder) (id : String) : String :=
  FileName.join f.path (fileName id)

/-- The path of the file of a record. An id that is no identifier can name no file that was written. -/
def pathFor (f : Folder) (id : String) : Except Error String :=
  if Identifier.isValid id then .ok (f.filePath id) else .error (.notFound id)

def fileText (r : Record) : String :=
  r.toJson.indented

def parse? (text : String) : Option Record :=
  (Decoder.ofText Record.decoder text).toOption

def written (path : String) : Reply → Except Error Unit
  | .done => .ok ()
  | _ => .error (.storage "write" path)

def given (path id : String) : Reply → Except Error Record
  | .text text =>
    match parse? text with
    | some r => .ok r
    | none => .error (.storage "parse" path)
  | .missing => .error (.notFound id)
  | _ => .error (.storage "read" path)

def removed (path id : String) : Reply → Except Error Unit
  | .done => .ok ()
  | .missing => .error (.notFound id)
  | _ => .error (.storage "rm" path)

/-- Writes the file of a record, in a directory that is made if it is missing. What was done before a
refusal stays done. -/
def save (f : Folder) (r : Record) : Except Error Unit × Folder :=
  match f.pathFor r.id with
  | .error e => (.error e, f)
  | .ok path =>
    let (made, f) := f.make
    if made = .done then
      let (reply, f) := f.write (fileName r.id) (fileText r)
      (written path reply, f)
    else (.error (.storage "mkdir" f.path), f)

def get (f : Folder) (id : String) : Except Error Record := do
  let path ← f.pathFor id
  given path id (f.read (fileName id))

def isRecordName (name : String) : Bool :=
  FileName.extension? name == some "json"

/-- The record in an entry. Other entries and unreadable files have none. -/
def entryRecord? (entry : String × Entry) : Option Record :=
  match entry with
  | (name, .file text) => if isRecordName name then parse? text else none
  | (_, .directory) => none

/-- The newest records, at most `limit`. An empty path names no directory to look into. -/
def list (f : Folder) (limit : Nat) : Except Error (List Record) :=
  match f.place with
  | .obstructed => .error (.storage "ls" f.path)
  | place =>
    if f.path.isEmpty then .ok []
    else .ok ((newestFirst (place.entries.filterMap entryRecord?)).take limit)

def delete (f : Folder) (id : String) : Except Error Unit × Folder :=
  match f.pathFor id with
  | .error e => (.error e, f)
  | .ok path =>
    let (reply, f) := f.unlink (fileName id)
    (removed path id reply, f)

def fileText? (f : Folder) (name : String) : Option String :=
  match f.place.entry? name with
  | some (.file text) => some text
  | _ => none

def names (f : Folder) : List String :=
  (f.place.entries.map (·.1)).mergeSort fun a b => !(b < a)

/-- The folder once a plain file was made at a path. It stands in the way if the folder's path leads
to it or through it. -/
def obstruct (f : Folder) (path : String) : Folder :=
  if (FileName.components path).isPrefixOf (FileName.components f.path) then
    { f with place := .obstructed }
  else f

end Folder
end DocComments.History
