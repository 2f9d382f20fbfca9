import DocComments.Http.Message
import DocComments.Http.Address
import DocComments.Service.Run

/-! Requests to the service and their answers. -/
namespace DocComments.Service

structure Message where
  method : String
  uri : String
  contentType : Option String
  body : String
  deriving DecidableEq, Repr

inductive Payload where
  | empty
  | json (value : Json)
  /-- A plain text that tells what is wrong with a request. -/
  | text

structure Reply where
  status : Nat
  payload : Payload

def Reply.bare (status : Nat) : Reply :=
  { status, payload := .empty }

/-- An answer to a request that cannot be read. -/
def Reply.unreadable (status : Nat) : Reply :=
  { status, payload := .text }

def Reply.ok (value : Json) : Reply :=
  { status := 200, payload := .json value }

def Refusal.reply (r : Refusal) : Reply where
  status := r.code.1
  payload := .json (.obj [("error", .obj [("code", .str r.code.2), ("message", .str r.message)])])

inductive Resource where
  | health
  | parse
  | insert
  | document
  | history
  /-- A record of the history, by its id as it stands in the address. -/
  | record (id : List Char)
  deriving DecidableEq, Repr

def pathOf (uri : String) : List Char :=
  uri.toList.takeWhile fun c => c != '?' && c != '#'

def queryOf (uri : String) : List Char :=
  ((uri.toList.takeWhile (· != '#')).dropWhile (· != '?')).drop 1

def Resource.ofPath? (path : List Char) : Option Resource :=
  if path = "/health".toList then some health
  else
    match Text.dropPrefix? "/api/v1/".toList path with
    | none => none
    | some rest =>
      if rest = "parse".toList then some parse
      else if rest = "insert".toList then some insert
      else if rest = "document".toList then some document
      else if rest = "history".toList then some history
      else
        match Text.dropPrefix? "history/".toList rest with
        | some (c :: id) => if (c :: id).contains '/' then none else some (record (c :: id))
        | _ => none

structure ParseDraft where
  content : Option String := none
  language : Option String := none

def parseFields : List (Decoder.Field ParseDraft) := [
  .of "content" .text fun d v => { d with content := some v },
  .of "language" .text fun d v => { d with language := some v }]

def parseDecoder : Decoder (String × String) :=
  Decoder.record parseFields {} fun d => do some (← d.content, ← d.language)

structure InsertDraft extends ParseDraft where
  documentation : List (String × String) := []

def insertFields : List (Decoder.Field InsertDraft) := [
  .of "content" .text fun d v => { d with content := some v },
  .of "language" .text fun d v => { d with language := some v },
  .of "documentation" .textMap fun d v => { d with documentation := v }]

def insertDecoder : Decoder (String × String × List (String × String)) :=
  Decoder.record insertFields {} fun d => do some (← d.content, ← d.language, d.documentation)

structure RunDraft where
  filename : Option String := none
  content : Option String := none
  language : Option String := none
  style : Option String := none

def runFields : List (Decoder.Field RunDraft) := [
  .of "filename" .text fun d v => { d with filename := some v },
  .of "content" .text fun d v => { d with content := some v },
  .of "language" (.option .text) fun d v => { d with language := v },
  .of "style" (.option .text) fun d v => { d with style := v }]

def runDecoder : Decoder RunRequest :=
  Decoder.record runFields {} fun d => do
    some { filename := ← d.filename, content := ← d.content, language := d.language, style := d.style }

def bodyLimit : Nat := 2097152

/-- Reads the body of a request. Only JSON is taken, and no more of it than the limit. -/
def readBody {α : Type} (decoder : Decoder α) (m : Message) : Except Reply α :=
  if !(m.contentType.map Http.isJson).getD false then .error (.unreadable 415)
  else if bodyLimit < m.body.utf8ByteSize then .error (.unreadable 413)
  else
    match Decoder.ofText decoder m.body with
    | .ok a => .ok a
    | .error .malformed => .error (.unreadable 400)
    | .error .mismatch => .error (.unreadable 422)

/-- The texts by name; of several for one name the last counts. -/
def docMapOfPairs (docs : List (String × String)) : DocMap :=
  docMap (docs.map fun (name, text) => { name, text })

def answerParse (content language : String) : Reply :=
  match languageNamed language with
  | .error e => e.reply
  | .ok language =>
    let found := extract language content
    .ok (.obj [("functions", .arr (found.map Definition.toJson)), ("count", .nat found.length)])

def answerInsert (content language : String) (docs : List (String × String)) : Reply :=
  match languageNamed language with
  | .error e => e.reply
  | .ok language =>
    let documented := DocComments.document language (docMapOfPairs docs) content
    .ok (.obj [("content", .str documented.content), ("updated", .nat documented.updated)])

def RunResult.toJson (r : RunResult) : Json :=
  .obj [("content", .str r.content), ("functions", .arr (r.functions.map Definition.toJson)),
    ("updated", .nat r.updated), ("historyId", .str r.historyId)]

def defaultLimit : Nat := 20

def maximalLimit : Nat := 200

def version : String := "0.1.0"

def answerHistory (s : State) (query : List Char) : Reply :=
  match Http.queryWord? "limit" query with
  | none => .unreadable 400
  | some limit =>
    match s.store.list (min (limit.getD defaultLimit) maximalLimit) with
    | .error e => (Refusal.history e).reply
    | .ok records =>
      .ok (.obj [("count", .nat records.length),
        ("history", .arr (records.map History.Record.toJson))])

/-- What happens on a request: the answer, and the state after it. -/
abbrev Handled := Reply × State

def handleRecord (s : State) (method : String) (id : List Char) : Handled :=
  match Http.decodedText? id with
  | none => (.unreadable 400, s)
  | some id =>
    if method = "DELETE" then
      let (answer, store) := s.store.perform (.delete id)
      (match answer with
        | .error e => (Refusal.history e).reply
        | .ok _ => .bare 204, { s with store })
    else
      match s.store.get id with
      | .error e => ((Refusal.history e).reply, s)
      | .ok r => (.ok r.toJson, s)

def Resource.methods : Resource → List String
  | health | history => ["GET", "HEAD"]
  | parse | insert | document => ["POST"]
  | record _ => ["GET", "HEAD", "DELETE"]

/-- Answers a request whose method suits the resource. -/
def handleResource (s : State) (stamp : Stamp) (uptimeSecs : Nat) (m : Message) :
    Resource → Handled
  | .health =>
    (.ok (.obj [("status", .str "ok"), ("version", .str version), ("uptimeSecs", .nat uptimeSecs)]), s)
  | .parse =>
    match readBody parseDecoder m with
    | .error reply => (reply, s)
    | .ok (content, language) => (answerParse content language, s)
  | .insert =>
    match readBody insertDecoder m with
    | .error reply => (reply, s)
    | .ok (content, language, docs) => (answerInsert content language docs, s)
  | .document =>
    match readBody runDecoder m with
    | .error reply => (reply, s)
    | .ok r =>
      let effect := run s stamp r
      match effect.answer with
      | .error e => (e.reply, effect.state)
      | .ok result => (.ok result.toJson, effect.state)
  | .history => (answerHistory s (queryOf m.uri), s)
  | .record id => handleRecord s m.method id

/-- Answers a request. Stamp and running time are what a record would get and the service tells. -/
def handle (s : State) (stamp : Stamp) (uptimeSecs : Nat) (m : Message) : Handled :=
  match Resource.ofPath? (pathOf m.uri) with
  | none => (.bare 404, s)
  | some resource =>
    if resource.methods.contains m.method then
      let (reply, s) := handleResource s stamp uptimeSecs m resource
      (if m.method = "HEAD" then { reply with payload := .empty } else reply, s)
    else (.bare 405, s)

end DocComments.Service
