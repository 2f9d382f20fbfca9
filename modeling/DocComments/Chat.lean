import DocComments.Http.Message
import DocComments.Http.Address
import DocComments.Prompt
import DocComments.Reply
import DocComments.Settings

/-! Documentation from a language model: the request that is sent to it, and what its reply says. -/
namespace DocComments.Chat

/-- Why a model gave no documentation. -/
inductive Error where
  /-- No reply came. -/
  | requestFailed (endpoint : String)
  | bodyUnreadable
  | badStatus (endpoint : String) (code : Nat) (body : String)
  | noContent
  | undecodable
  deriving DecidableEq, Repr

def Error.message : Error → String
  | requestFailed endpoint => "Generator error: request to " ++ endpoint ++ " failed"
  | bodyUnreadable => "Generator error: failed to read response body"
  | badStatus endpoint code body =>
    "Generator error: " ++ endpoint ++ " returned " ++ Http.statusText code ++ ": " ++ body
  | noContent => "Generator error: response contained no message content"
  | undecodable => "Serialization error"

structure Sent where
  target : String
  authorization : Option String
  body : String
  deriving DecidableEq, Repr

structure Response where
  status : Nat
  body : String
  /-- Whether the body ends before its declared length. -/
  truncated : Bool
  deriving DecidableEq, Repr

def messageFields : List (Decoder.Field (Option String)) := [
  .of "content" (.option .text) fun _ v => v]

def choiceFields : List (Decoder.Field (Option (Option String))) := [
  .of "message" (Decoder.record messageFields none some) fun _ v => some v]

def replyFields : List (Decoder.Field (List (Option String))) := [
  .of "choices" (.list (Decoder.record choiceFields none id)) fun _ v => v]

/-- The text of the first choice in a reply. -/
def content (body : String) : Except Error String :=
  match Decoder.ofText (Decoder.record replyFields [] some) body with
  | .error _ => .error .undecodable
  | .ok (some text :: _) => .ok text
  | .ok _ => .error .noContent

def message (role text : String) : Json :=
  .obj [("role", .str role), ("content", .str text)]

def body (g : GeneratorSettings) (style : Style) (r : DocRequest) : String :=
  Json.compact (.obj [
    ("model", .str g.model),
    ("messages", .arr [message "system" Prompt.system, message "user" (Prompt.build style r)]),
    ("temperature", match g.temperature.numeral? with
      | some n => .decimal n
      | none => .null)])

def isHeaderValue (s : String) : Bool :=
  s.toList.all fun c => c == '\t' || (' ' ≤ c && c != '\x7f')

/-- The request for a definition, if the key can be sent and the address has a target. -/
def sent? (g : GeneratorSettings) (target : Option String) (style : Style) (r : DocRequest) :
    Option Sent := do
  let target ← target
  let authorization := g.apiKey.map ("Bearer " ++ ·)
  guard (authorization.all isHeaderValue)
  some { target, authorization, body := body g style r }

def documentation (endpoint : String) (response : Response) : Except Error String :=
  if Http.isInformational response.status then .error (.requestFailed endpoint)
  else if response.truncated then .error .bodyUnreadable
  else
    let body := if Http.isBodiless response.status then "" else response.body
    if Http.isSuccess response.status then
      (content body).map fun text => String.ofList (Reply.clean text.toList)
    else .error (.badStatus endpoint response.status body)

/-- One exchange with an endpoint: what is sent, if anything, and what comes of it. A server that does
not answer gives no response. -/
def exchange (g : GeneratorSettings) (target : Option String) (response : Option Response)
    (style : Style) (r : DocRequest) : Option Sent × Except Error String :=
  match response, sent? g target style r with
  | some response, some sent => (some sent, documentation g.endpoint response)
  | _, _ => (none, .error (.requestFailed g.endpoint))

/-- The generator that asks a model. A definition gets no text if the exchange about it fails. -/
def generator (g : GeneratorSettings) (target : Option String) (respond : Sent → Option Response) :
    Generator := fun r style =>
  let response := (sent? g target style r).bind respond
  match (exchange g target response style r).2 with
  | .ok text => .text text
  | .error _ => .failed

end DocComments.Chat
