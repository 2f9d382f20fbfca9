import DocComments.History.Record

/-! History kept in memory. -/
namespace DocComments.History

/-- The records by their ids, each of which occurs once. -/
structure Memory where
  records : List Record := []
  deriving DecidableEq, Repr

namespace Memory

def size (m : Memory) : Nat :=
  m.records.length

def get? (m : Memory) (id : String) : Option Record :=
  m.records.find? (·.id == id)

def erase (m : Memory) (id : String) : Memory where
  records := m.records.filter (·.id != id)

/-- Keeps a record, in place of one with the same id. -/
def save (m : Memory) (r : Record) : Memory where
  records := r :: (m.erase r.id).records

def get (m : Memory) (id : String) : Except Error Record :=
  match m.get? id with
  | some r => .ok r
  | none => .error (.notFound id)

/-- The newest records, at most `limit`. -/
def list (m : Memory) (limit : Nat) : List Record :=
  (newestFirst m.records).take limit

def delete (m : Memory) (id : String) : Except Error Unit × Memory :=
  match m.get? id with
  | some _ => (.ok (), m.erase id)
  | none => (.error (.notFound id), m.erase id)

end Memory
end DocComments.History
