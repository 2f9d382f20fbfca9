import DocComments.Batch
import DocComments.Number.Single
import DocComments.Wire.Definition

/-! Settings, from three layers: defaults, a file, and environment variables. -/
namespace DocComments

structure ServerSettings where
  host : String := "127.0.0.1"
  port : Nat := 8080
  deriving DecidableEq, Repr

/-- How documentation is generated. A key selects the language model at the endpoint. -/
structure GeneratorSettings where
  endpoint : String := "https://api.openai.com/v1/chat/completions"
  model : String := "gpt-4o-mini"
  apiKey : Option String := none
  /-- One fifth, unless set. -/
  temperature : Single := ⟨0x3e4ccccd⟩
  timeoutSecs : Nat := 60
  concurrency : Nat := 5
  batchDelayMs : Nat := 1000
  defaultStyle : Option Style := none
  deriving DecidableEq, Repr

structure HistorySettings where
  dir : String
  deriving DecidableEq, Repr

structure Settings where
  server : ServerSettings := {}
  generator : GeneratorSettings := {}
  history : HistorySettings
  deriving DecidableEq, Repr

/-- The options of batches. A group holds one call at least. -/
def GeneratorSettings.batch (g : GeneratorSettings) : BatchOptions where
  concurrency := max g.concurrency 1
  delayMs := g.batchDelayMs

namespace ServerSettings

def fields : List (Decoder.Field ServerSettings) := [
  .of "host" .text fun s v => { s with host := v },
  .of "port" (.natUpTo 65535) fun s v => { s with port := v }]

end ServerSettings

namespace GeneratorSettings

def fields : List (Decoder.Field GeneratorSettings) := [
  .of "endpoint" .text fun s v => { s with endpoint := v },
  .of "model" .text fun s v => { s with model := v },
  .of "api_key" (.option .text) fun s v => { s with apiKey := v },
  .of "temperature" .single fun s v => { s with temperature := v },
  .of "timeout_secs" .word fun s v => { s with timeoutSecs := v },
  .of "concurrency" .word fun s v => { s with concurrency := v },
  .of "batch_delay_ms" .word fun s v => { s with batchDelayMs := v },
  .of "default_style" (.option Style.decoder) fun s v => { s with defaultStyle := v }]

def decoder : Decoder GeneratorSettings :=
  Decoder.record fields {} some

end GeneratorSettings

namespace HistorySettings

def fields : List (Decoder.Field HistorySettings) := [
  .of "dir" .text fun s v => { s with dir := v }]

end HistorySettings

namespace Settings

/-- The settings of an installation that keeps its history under `dir` unless told otherwise. -/
def initial (dir : String) : Settings where
  history := { dir }

def fields (dir : String) : List (Decoder.Field Settings) := [
  .of "server" (Decoder.record ServerSettings.fields {} some) fun s v => { s with server := v },
  .of "generator" GeneratorSettings.decoder fun s v => { s with generator := v },
  .of "history" (Decoder.record HistorySettings.fields { dir } some) fun s v =>
    { s with history := v }]

/-- Decodes settings. Whatever is missing is as initially. -/
def decoder (dir : String) : Decoder Settings :=
  Decoder.record (fields dir) (initial dir) some

end Settings

inductive SettingsError where
  | unreadable (path : String)
  | undecodable (defect : Defect)
  | zeroConcurrency
  | blankEndpoint
  | invalidPort (text : String)
  deriving DecidableEq, Repr

def SettingsError.message : SettingsError → String
  | unreadable path => "Config error: " ++ path
  | undecodable _ => "Serialization error"
  | zeroConcurrency => "Config error: generator.concurrency must be at least 1"
  | blankEndpoint => "Config error: generator.endpoint must not be empty"
  | invalidPort text => "Config error: invalid DOCSMITH_PORT: " ++ text

/-- A settings file: its name, and its text if it can be read. -/
structure SettingsFile where
  path : String
  text : Option String

abbrev Environment := String → Option String

namespace Settings

/-- Checks what no single field can tell. -/
def validate (s : Settings) : Except SettingsError Unit :=
  if s.generator.concurrency = 0 then .error .zeroConcurrency
  else if Text.allBlank s.generator.endpoint.toList then .error .blankEndpoint
  else .ok ()

/-- Loads a file and checks it by itself. -/
def load (dir : String) (file : SettingsFile) : Except SettingsError Settings :=
  match file.text with
  | none => .error (.unreadable file.path)
  | some text =>
    match Decoder.ofText (decoder dir) text with
    | .error defect => .error (.undecodable defect)
    | .ok s => (validate s).map fun _ => s

/-- A port number: decimal digits, with a plus sign in front allowed, up to 65535. -/
def port? (text : String) : Option Nat :=
  let digits := Text.withoutPrefix ['+'] text.toList
  if digits.isEmpty || !digits.all Text.isAsciiDigit then none
  else
    let port := Numeral.ofDigits digits
    if port ≤ 65535 then some port else none

/-- Overrides fields by environment variables. A port number that cannot be read stops this. -/
def override (env : Environment) (s : Settings) : Except SettingsError Settings := do
  let port ← match env "DOCSMITH_PORT" with
    | none => .ok s.server.port
    | some text =>
      match port? text with
      | some port => .ok port
      | none => .error (.invalidPort text)
  .ok {
    server := { host := (env "DOCSMITH_HOST").getD s.server.host, port }
    generator := { s.generator with
      apiKey := env "DOCSMITH_API_KEY" <|> s.generator.apiKey
      endpoint := (env "DOCSMITH_ENDPOINT").getD s.generator.endpoint
      model := (env "DOCSMITH_MODEL").getD s.generator.model }
    history := { dir := (env "DOCSMITH_HISTORY_DIR").getD s.history.dir } }

/-- The settings from all layers. The file is checked by itself, and the result once more. -/
def resolve (dir : String) (file : Option SettingsFile) (env : Environment) :
    Except SettingsError Settings := do
  let base ← match file with
    | none => .ok (initial dir)
    | some file => load dir file
  let s ← override env base
  validate s
  .ok s

end Settings
end DocComments
