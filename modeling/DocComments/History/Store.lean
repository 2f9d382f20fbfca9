import DocComments.History.Folder
import DocComments.History.Memory

/-! The history, wherever it is kept. -/
namespace DocComments.History

inductive Store where
  | memory (m : Memory)
  | folder (f : Folder)
  deriving DecidableEq, Repr

inductive Operation where
  | save (r : Record)
  | get (id : String)
  | list (limit : Nat)
  | delete (id : String)
  deriving DecidableEq, Repr

/-- What a history answers unless it refuses. -/
inductive Answer where
  | done
  | record (r : Record)
  | records (rs : List Record)
  deriving DecidableEq, Repr

namespace Store

def get : Store → String → Except Error Record
  | memory m, id => m.get id
  | folder f, id => f.get id

/-- The newest records, at most `limit`. -/
def list : Store → Nat → Except Error (List Record)
  | memory m, limit => .ok (m.list limit)
  | folder f, limit => f.list limit

/-- The answer to an operation, and the store behind it, also where the operation is refused. -/
def perform : Store → Operation → Except Error Answer × Store
  | memory m, .save r => (.ok .done, memory (m.save r))
  | memory m, .delete id =>
    let (answer, m) := m.delete id
    (answer.map fun _ => .done, memory m)
  | folder f, .save r =>
    let (answer, f) := f.save r
    (answer.map fun _ => .done, folder f)
  | folder f, .delete id =>
    let (answer, f) := f.delete id
    (answer.map fun _ => .done, folder f)
  | s, .get id => ((s.get id).map .record, s)
  | s, .list limit => ((s.list limit).map .records, s)

/-- The store behind an operation that was not refused. -/
def performed (s : Store) (op : Operation) : Except Error Store :=
  let (answer, s) := s.perform op
  answer.map fun _ => s

def save (s : Store) (r : Record) : Except Error Store :=
  s.performed (.save r)

def delete (s : Store) (id : String) : Except Error Store :=
  s.performed (.delete id)

end Store
end DocComments.History
