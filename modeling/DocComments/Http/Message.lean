import DocComments.Http.Address
import DocComments.Text.Blank
import DocComments.Text.Case
import DocComments.Text.Find

/-! Requests and replies as they are sent: a first line, header lines, an empty line, and a body of
declared length. Of media types there is as much as it takes to tell JSON. -/
namespace DocComments.Http
open Text

def phrases : List (Nat × String) := [
  (100, "Continue"), (101, "Switching Protocols"), (102, "Processing"), (103, "Early Hints"),
  (200, "OK"), (201, "Created"), (202, "Accepted"), (203, "Non Authoritative Information"),
  (204, "No Content"), (205, "Reset Content"), (206, "Partial Content"), (207, "Multi-Status"),
  (208, "Already Reported"), (226, "IM Used"),
  (300, "Multiple Choices"), (301, "Moved Permanently"), (302, "Found"), (303, "See Other"),
  (304, "Not Modified"), (305, "Use Proxy"), (307, "Temporary Redirect"),
  (308, "Permanent Redirect"),
  (400, "Bad Request"), (401, "Unauthorized"), (402, "Payment Required"), (403, "Forbidden"),
  (404, "Not Found"), (405, "Method Not Allowed"), (406, "Not Acceptable"),
  (407, "Proxy Authentication Required"), (408, "Request Timeout"), (409, "Conflict"),
  (410, "Gone"), (411, "Length Required"), (412, "Precondition Failed"),
  (413, "Payload Too Large"), (414, "URI Too Long"), (415, "Unsupported Media Type"),
  (416, "Range Not Satisfiable"), (417, "Expectation Failed"), (418, "I'm a teapot"),
  (421, "Misdirected Request"), (422, "Unprocessable Entity"), (423, "Locked"),
  (424, "Failed Dependency"), (425, "Too Early"), (426, "Upgrade Required"),
  (428, "Precondition Required"), (429, "Too Many Requests"),
  (431, "Request Header Fields Too Large"), (451, "Unavailable For Legal Reasons"),
  (500, "Internal Server Error"), (501, "Not Implemented"), (502, "Bad Gateway"),
  (503, "Service Unavailable"), (504, "Gateway Timeout"), (505, "HTTP Version Not Supported"),
  (506, "Variant Also Negotiates"), (507, "Insufficient Storage"), (508, "Loop Detected"),
  (510, "Not Extended"), (511, "Network Authentication Required")]

def statusText (code : Nat) : String :=
  toString code ++ " " ++ (phrases.lookup code).getD "<unknown status code>"

def isSuccess (code : Nat) : Bool :=
  200 ≤ code && code < 300

/-- Whether the code only announces another reply. -/
def isInformational (code : Nat) : Bool :=
  100 ≤ code && code < 200 && code != 101

/-- Whether replies with the code never have a body. -/
def isBodiless (code : Nat) : Bool :=
  code == 101 || code == 204 || code == 304

def isToken (c : Char) : Bool :=
  isAsciiLetter c || isAsciiDigit c ||
    ['!', '#', '$', '%', '&', '\x27', '*', '+', '-', '.', '^', '_', '\x60', '|', '~'].contains c

def isQuotable (c : Char) : Bool :=
  ' ' ≤ c && c < '\x7f'

def closing? : List Char → Option (List Char)
  | [] => none
  | '"' :: rest => some rest
  | c :: rest => if isQuotable c then closing? rest else none

/-- What follows a quoted value, given from behind its opening quote on. The value is not empty, and
its first character may be a quote. -/
def afterQuoted? : List Char → Option (List Char)
  | [] => none
  | c :: rest => if isQuotable c then closing? rest else none

/-- Whether parameters are well formed. They start behind a semicolon, and the first argument bounds
their number. -/
def areParameters : Nat → List Char → Bool
  | 0, _ => false
  | bound + 1, s =>
    match s.dropWhile (· == ' ') with
    | [] => true
    | s =>
      match s.takeWhile isToken, s.dropWhile isToken with
      | _ :: _, '=' :: '"' :: value =>
        match (afterQuoted? value).map (·.dropWhile (· == ' ')) with
        | some [] => true
        | some (';' :: rest) => areParameters bound rest
        | _ => false
      | _ :: _, '=' :: value =>
        match value.takeWhile isToken, value.dropWhile isToken with
        | _, [] => true
        | _ :: _, ';' :: rest => areParameters bound rest
        | _, _ => false
      | _, _ => false

/-- Whether a content type is that of JSON, by its subtype or by the subtype's suffix. -/
def isJson (contentType : String) : Bool :=
  let s := contentType.toList.map Char.toLower
  match s.takeWhile isToken, s.dropWhile isToken with
  | type, '/' :: rest =>
    let subtype := rest.takeWhile isToken
    let wellFormed := match rest.dropWhile isToken with
      | [] => !subtype.isEmpty
      | ';' :: parameters => !subtype.isEmpty && areParameters (parameters.length + 1) parameters
      | _ => false
    let suffix := (subtype.reverse.takeWhile (· != '+')).reverse
    let base := subtype.take (subtype.length - suffix.length - 1)
    let json := ['j', 's', 'o', 'n']
    wellFormed && type == ['a', 'p', 'p', 'l', 'i', 'c', 'a', 't', 'i', 'o', 'n'] &&
      (subtype == json || base == json || (!base.isEmpty && suffix == json))
  | _, _ => false

/-- The head of a request. Header names are in lower case. -/
structure Head where
  method : String
  uri : String
  headers : List (String × String)
  deriving DecidableEq, Repr

def requestLine? (line : List Char) : Option (String × String) :=
  match splitOnChar ' ' (trim line) with
  | [method, uri, _] => some (String.ofList method, String.ofList uri)
  | _ => none

def headerLine? (line : List Char) : Option (String × String) :=
  (splitAt? [':'] line).map fun (name, value) =>
    (String.ofList (name.map Char.toLower), String.ofList (trim value))

namespace Head

/-- The head on the lines above the empty one. Lines without a colon say nothing. -/
def ofLines? : List (List Char) → Option Head
  | [] => none
  | first :: rest => (requestLine? first).map fun (method, uri) =>
      { method, uri, headers := rest.filterMap headerLine? }

def value? (h : Head) (name : String) : Option String :=
  h.headers.lookup name

def bodySize (h : Head) : Nat :=
  ((h.value? "content-length").bind wordOf?).getD 0

end Head

def replyText (status : Nat) (contentType : Option String) (body : String) : String :=
  let lines := ["HTTP/1.1 " ++ statusText status] ++
    (contentType.toList.map fun type => "content-type: " ++ type) ++
    ["content-length: " ++ toString body.utf8ByteSize, "", body]
  "\r\n".intercalate lines

end DocComments.Http
