import DocComments.Insert
import DocComments.Service.State

/-! A documentation run: definitions are extracted, documented and written back, and the run is kept
in the history. -/
namespace DocComments.Service

/-- A file to document. Without a language the file name tells it, and without a style the settings
or the language do. -/
structure RunRequest where
  filename : String
  content : String
  language : Option String := none
  style : Option String := none
  deriving DecidableEq, Repr

structure RunResult where
  content : String
  functions : List Definition
  updated : Nat
  historyId : String
  deriving DecidableEq, Repr

/-- The id and the time that a new record gets. -/
structure Stamp where
  id : String
  time : Instant
  deriving DecidableEq, Repr

def RunRequest.resolveLanguage (r : RunRequest) : Except Refusal Language :=
  match r.language with
  | some asked => languageNamed asked
  | none =>
    match FileName.language? r.filename with
    | some language => .ok language
    | none => .error (.unknownFileType r.filename)

def RunRequest.resolveStyle (r : RunRequest) (settings : Settings) (language : Language) :
    Except Refusal Style :=
  match r.style with
  | some asked => styleNamed asked
  | none => .ok (settings.generator.defaultStyle.getD language.defaultStyle)

/-- An answer, the state after it, and the requests for which the generator was called. -/
structure Effect (α : Type) where
  answer : Except Refusal α
  state : State
  calls : List DocRequest := []

def generate (s : State) (language : Language) (style : Style) (definitions : List Definition) :
    Batch.Run :=
  Batch.generateAll s.generator s.batch style (definitions.map (DocRequest.ofDefinition language))

def runWith (s : State) (stamp : Stamp) (r : RunRequest) (language : Language) (style : Style) :
    Effect RunResult :=
  let definitions := extract language r.content
  let batch := generate s language style definitions
  let docs := docMap batch.docs
  let documented := document language docs r.content
  let record : History.Record := {
    id := stamp.id, filename := r.filename, language
    contentBefore := r.content, contentAfter := documented.content, createdAt := stamp.time }
  let (saved, store) := s.store.perform (.save record)
  { answer := match saved with
      | .error e => .error (.history e)
      | .ok _ => .ok {
          content := documented.content
          functions := attachDocs docs definitions
          updated := documented.updated
          historyId := stamp.id }
    state := { s with store }
    calls := batch.calls }

def run (s : State) (stamp : Stamp) (r : RunRequest) : Effect RunResult :=
  match r.resolveLanguage with
  | .error e => { answer := .error e, state := s }
  | .ok language =>
    match r.resolveStyle s.settings language with
    | .error e => { answer := .error e, state := s }
    | .ok style => runWith s stamp r language style

end DocComments.Service
