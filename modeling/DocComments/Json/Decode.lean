import DocComments.Json.Reader
import DocComments.Number.Single

/-! Decoding JSON values into records. A record is given as an object, or as an array of its fields in
their order. Decoding goes through a value in the order of its text and stops at the first defect. -/
namespace DocComments

inductive Defect where
  | malformed
  /-- The text is JSON, but of the wrong shape. -/
  | mismatch
  deriving DecidableEq, Repr

abbrev Decoder (α : Type) := Json → Except Defect α

namespace Decoder

/-- Whether the number that the digits give is too large to be taken at all. -/
def isTooLarge (n : Numeral) : Bool :=
  n.magnitude?.isNone

/-- What is wrong with a value of which something else was expected. A number out of range counts as
no JSON. -/
def defect : Json → Defect
  | .malformed | .unpaired => .malformed
  | .nat n => if isTooLarge { whole := n } then .malformed else .mismatch
  | .decimal n => if isTooLarge n then .malformed else .mismatch
  | _ => .mismatch

def reject {α : Type} (value : Json) : Except Defect α :=
  .error (defect value)

def text : Decoder String
  | .str s => .ok s
  | value => reject value

def bool : Decoder Bool
  | .bool b => .ok b
  | value => reject value

/-- An integer from zero to a bound, written without point or exponent. -/
def natUpTo (bound : Nat) : Decoder Nat
  | .nat n => if n ≤ bound then .ok n else reject (.nat n)
  | value => reject value

def word : Decoder Nat :=
  natUpTo greatestWord

def single : Decoder Single
  | .nat n =>
    match Single.ofNumeral? { whole := n } with
    | some x => .ok x
    | none => .error .malformed
  | .decimal n =>
    match Single.ofNumeral? n with
    | some x => .ok x
    | none => .error .malformed
  | value => reject value

def option {α : Type} (inner : Decoder α) : Decoder (Option α)
  | .null => .ok none
  | value => (inner value).map some

def list {α : Type} (inner : Decoder α) : Decoder (List α)
  | .arr items => items.mapM inner
  | value => reject value

/-- An object of texts, in the order of its members. -/
def textMap : Decoder (List (String × String))
  | .obj members => members.mapM fun (name, value) => (text value).map fun t => (name, t)
  | value => reject value

/-- One of several names, given as a text or as the only member of an object, with the value null. -/
def choice {α : Type} (names : List (String × α)) : Decoder α
  | .str name =>
    match names.lookup name with
    | some a => .ok a
    | none => .error .mismatch
  | .obj [(name, .null)] =>
    match names.lookup name with
    | some a => .ok a
    | none => .error .mismatch
  | value => reject value

/-- A field of a record that is being decoded: its name, and how its value is put into the draft. -/
structure Field (σ : Type) where
  name : String
  put : σ → Json → Except Defect σ

def Field.of {σ α : Type} (name : String) (decoder : Decoder α) (set : σ → α → σ) : Field σ where
  name := name
  put draft value := (decoder value).map (set draft)

/-- Fills a draft from the members of an object. Members of other names are passed over, and no field
may come twice. The last argument but one holds the names seen. -/
def fillFromMembers {σ : Type} (fields : List (Field σ)) (draft : σ) (seen : List String) :
    List (String × Json) → Except Defect σ
  | [] => .ok draft
  | (name, value) :: rest =>
    match fields.find? (·.name == name) with
    | none =>
      match value with
      | .malformed => .error .malformed
      | _ => fillFromMembers fields draft seen rest
    | some field =>
      if seen.contains name then .error .mismatch
      else
        match field.put draft value with
        | .error e => .error e
        | .ok draft => fillFromMembers fields draft (name :: seen) rest

/-- Fills a draft from the items of an array, which are no more than the fields. -/
def fillFromItems {σ : Type} (draft : σ) : List (Field σ) → List Json → Except Defect σ
  | _, [] => .ok draft
  | [], _ :: _ => .error .malformed
  | field :: fields, item :: items =>
    match field.put draft item with
    | .error e => .error e
    | .ok draft => fillFromItems draft fields items

/-- A record: an empty draft is filled, and must then be complete. -/
def record {σ α : Type} (fields : List (Field σ)) (empty : σ) (finish : σ → Option α) : Decoder α :=
  fun value =>
    let draft := match value with
      | .obj members => fillFromMembers fields empty [] members
      | .arr items => fillFromItems empty fields items
      | value => reject value
    match draft with
    | .error e => .error e
    | .ok draft =>
      match finish draft with
      | some a => .ok a
      | none => .error .mismatch

def ofText {α : Type} (decoder : Decoder α) (s : String) : Except Defect α :=
  let document := Json.Document.ofText s
  match decoder document.value with
  | .error e => .error e
  | .ok a => if document.complete then .ok a else .error .malformed

end Decoder
end DocComments
