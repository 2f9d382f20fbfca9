import DocComments.History.Store
import DocComments.Settings

/-! The state of the service, and the ways in which it refuses a request. -/
namespace DocComments.Service

structure State where
  settings : Settings
  generator : Generator
  batch : BatchOptions
  store : History.Store

/-- The state of a service without settings: templates, and a history in memory. -/
def State.initial (dir : String) : State where
  settings := Settings.initial dir
  generator := templateGenerator
  batch := (Settings.initial dir).generator.batch
  store := .memory {}

inductive GeneratorKind where
  | template
  | model
  deriving DecidableEq, Repr

/-- The language model needs a key. -/
def generatorKind (s : Settings) : GeneratorKind :=
  if s.generator.apiKey.isSome then .model else .template

/-- The state of a service under given settings, over what is at the place of its history directory. -/
def State.ofSettings (settings : Settings) (model : Generator) (place : History.Place) : State where
  settings
  generator := match generatorKind settings with
    | .template => templateGenerator
    | .model => model
  batch := settings.generator.batch
  store := .folder { path := settings.history.dir, place }

inductive Refusal where
  | unsupportedLanguage (name : String)
  | unsupportedStyle (name : String)
  | unknownFileType (filename : String)
  | history (error : History.Error)
  deriving DecidableEq, Repr

namespace Refusal

def message : Refusal → String
  | unsupportedLanguage name => "Unsupported language: " ++ name
  | unsupportedStyle name => "Unsupported documentation style: " ++ name
  | unknownFileType filename => "cannot infer language from filename: " ++ filename
  | history error => error.message

def code : Refusal → Nat × String
  | history (.notFound _) => (404, "not_found")
  | history (.storage _ _) => (500, "internal_error")
  | _ => (400, "bad_request")

end Refusal

def languageNamed (asked : String) : Except Refusal Language :=
  match Language.ofName? asked with
  | some language => .ok language
  | none => .error (.unsupportedLanguage (lookupName asked))

def styleNamed (asked : String) : Except Refusal Style :=
  match Style.ofName? asked with
  | some style => .ok style
  | none => .error (.unsupportedStyle (lookupName asked))

end DocComments.Service
