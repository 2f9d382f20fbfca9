import DocComments.Number.Numeral

/-! JSON values. A value that was read from text keeps what a reader has to know of the text: repeated
members, numerals as written, and the places where the text is no JSON. -/
namespace DocComments

inductive Json where
  | null
  | bool (value : Bool)
  /-- An integer written as digits alone. -/
  | nat (value : Nat)
  /-- Any other numeral. -/
  | decimal (numeral : Numeral)
  | str (text : String)
  | arr (items : List Json)
  | obj (members : List (String × Json))
  /-- A string that is no text, since an escape in it names half of a surrogate pair. -/
  | unpaired
  /-- A place where the text is no JSON. It also ends every array and object that such a place left
  open. -/
  | malformed
  deriving Repr

namespace Json

/-- The last member of the given name. -/
def member? (name : String) : Json → Option Json
  | obj members => (members.reverse.find? (·.1 == name)).map (·.2)
  | _ => none

def strings (texts : List String) : Json :=
  arr (texts.map str)

/-- A member that is written only if its value is there. -/
def optional (name : String) (value : Option Json) : List (String × Json) :=
  match value with
  | some value => [(name, value)]
  | none => []

end Json
end DocComments
