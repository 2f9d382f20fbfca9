import Std.Time.DateTime.Timestamp
import DocComments.Chat
import DocComments.Http.Message
import DocComments.Service.Route

/-! The command line. Settings come from the file named by the first argument, if there is one, and
from the environment; requests are then read from standard input and answered on standard output.
The history is kept in the directory of the settings. Its files are looked up when a request names them,
so a listing shows the records that were made or asked for since the program started. With a key, a
language model is asked for documentation; no connection leads to one from here, so that it answers
nothing. -/
namespace DocComments.CommandLine

/-- The variables that override settings, and those that tell where data is kept. -/
def variableNames : List String := [
  "DOCSMITH_HOST", "DOCSMITH_PORT", "DOCSMITH_API_KEY", "DOCSMITH_ENDPOINT", "DOCSMITH_MODEL",
  "DOCSMITH_HISTORY_DIR", "XDG_DATA_HOME", "HOME"]

def environment : IO Environment := do
  let known ← variableNames.filterMapM fun name => do
    return (← IO.getEnv name).map fun value => (name, value)
  return fun name => known.lookup name

/-- The directory of the history if the settings name none. Only an absolute path tells where data is
kept. -/
def historyDir (env : Environment) : String :=
  let data := match (env "XDG_DATA_HOME").filter (·.startsWith "/"), env "HOME" with
    | some dir, _ => dir
    | none, some home => FileName.join home ".local/share"
    | none, none => "."
  FileName.join data "docsmith/history"

def settingsFile (path : String) : IO SettingsFile := do
  let text ← try some <$> IO.FS.readFile path catch _ => pure none
  return { path, text }

def stamp : IO Service.Stamp := do
  let bytes ← IO.getRandomBytes 16
  let now ← Std.Time.Timestamp.now
  let nanos := now.toNanosecondsSinceUnixEpoch.val.toNat
  return {
    id := History.Identifier.ofBytes bytes.toList
    time := Instant.ofNanoseconds nanos }

partial def readLines (input : IO.FS.Stream) : IO (List Text.Line) := do
  match Text.linesOf (← input.getLine) with
  | [] | [[]] => return []
  | line :: _ => return line :: (← readLines input)

partial def readBytes (input : IO.FS.Stream) (count : Nat) : IO ByteArray := do
  let bytes ← input.read count.toUSize
  if bytes.isEmpty || count ≤ bytes.size then return bytes
  return bytes ++ (← readBytes input (count - bytes.size))

def replyText (reply : Service.Reply) : String :=
  match reply.payload with
  | .empty => Http.replyText reply.status none ""
  | .text => Http.replyText reply.status (some "text/plain; charset=utf-8") "unreadable request"
  | .json value => Http.replyText reply.status (some "application/json") value.compact

/-- The folder with the file of a record as it is on disk. What is there but cannot be read stands as
a directory would. -/
def lookedUp (f : History.Folder) (id : String) : IO History.Folder := do
  let name := History.Folder.fileName id
  if History.Identifier.isValid id then
    try
      let text ← IO.FS.readFile (f.filePath id)
      return { f with place := f.place.put name (.file text) }
    catch
      | .noFileOrDirectory _ _ _ => return { f with place := f.place.remove name }
      | _ => return { f with place := f.place.put name .directory }
  else return f

def refreshed (state : Service.State) (message : Service.Message) : IO Service.State := do
  match state.store, Service.Resource.ofPath? (Service.pathOf message.uri) with
  | .folder f, some (.record raw) =>
    match Http.decodedText? raw with
    | some id => return { state with store := .folder (← lookedUp f id) }
    | none => return state
  | _, _ => return state

/-- Brings the files to disk in which a folder differs from before. -/
def keep (before after : History.Folder) : IO Unit := do
  for (name, entry) in after.place.entries do
    if let .file text := entry then
      unless before.place.entry? name == some entry do
        IO.FS.createDirAll after.path
        IO.FS.writeFile (FileName.join after.path name) text
  for (name, _) in before.place.entries do
    if (after.place.entry? name).isNone then IO.FS.removeFile (FileName.join before.path name)

/-- Answers a request. Where the disk refuses a change, everything is left as it was, and the answer is
that of a history whose place cannot be reached. -/
def handle (state : Service.State) (uptimeSecs : Nat) (message : Service.Message) :
    IO Service.Handled := do
  let stamp ← stamp
  let before ← refreshed state message
  let (reply, after) := Service.handle before stamp uptimeSecs message
  match before.store, after.store with
  | .folder f, .folder g =>
    try
      keep f g
      return (reply, after)
    catch _ =>
      let blocked := { before with store := .folder { f with place := .obstructed } }
      return ((Service.handle blocked stamp uptimeSecs message).1, before)
  | _, _ => return (reply, after)

/-- The text of a body. One that is no text is no JSON either, whatever stands for its bytes. -/
def bodyText (body : ByteArray) : String :=
  (String.fromUTF8? body).getD (String.ofList (List.replicate body.size '\x00'))

partial def serve (input output : IO.FS.Stream) (started : Nat) (state : Service.State) :
    IO Unit := do
  let some head := Http.Head.ofLines? (← readLines input) | return ()
  let body ← readBytes input head.bodySize
  let uptimeSecs := ((← IO.monoMsNow) - started) / 1000
  let (reply, next) ← handle state uptimeSecs {
    method := head.method
    uri := head.uri
    contentType := head.value? "content-type"
    body := bodyText body }
  output.putStr (replyText reply)
  output.flush
  serve input output started next

def settings (args : List String) : IO (Except SettingsError Settings) := do
  let env ← environment
  let file ← args.head?.mapM settingsFile
  return Settings.resolve (historyDir env) file env

def run (args : List String) : IO UInt32 := do
  match ← settings args with
  | .error e =>
    IO.eprintln ("failed to load configuration: " ++ e.message)
    return 1
  | .ok settings =>
    let model := Chat.generator settings.generator none fun _ => none
    serve (← IO.getStdin) (← IO.getStdout) (← IO.monoMsNow)
      (Service.State.ofSettings settings model .missing)
    return 0

end DocComments.CommandLine

def main (args : List String) : IO UInt32 :=
  DocComments.CommandLine.run args
