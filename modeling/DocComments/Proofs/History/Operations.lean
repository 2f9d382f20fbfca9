import DocComments.History.Store
import DocComments.Proofs.History.Memory
import Mathlib.Data.List.Induction

/-! Histories in use. A run takes operations one after another; between them the records of a hash map and
the entries of a directory may come in any order, and a store over a directory may be made anew. -/
namespace DocComments.History

namespace Store

section Memory
variable {m : Memory} {id : String}

theorem perform_delete_of_some {r : Record} (h : m.get? id = some r) :
    (memory m).perform (.delete id) = (.ok .done, memory (m.erase id)) := by
  rw [perform, Memory.delete_of_some h]
  rfl

theorem perform_delete_of_none (h : m.get? id = none) :
    (memory m).perform (.delete id) = (.error (.notFound id), memory m) := by
  rw [perform, Memory.delete_of_none h]
  rfl

/-- A memory refuses only to delete what it has not, and to give it. -/
theorem perform_of_error {op : Operation} {e : Error} (h : ((memory m).perform op).1 = .error e) :
    ∃ id, (op = .get id ∨ op = .delete id) ∧ m.get? id = none ∧
      (memory m).perform op = (.error e, memory m) := by
  cases op with
  | save r => cases h
  | list limit => cases h
  | get id =>
    refine ⟨id, .inl rfl, ?_, Prod.ext h rfl⟩
    cases hid : m.get? id with
    | none => rfl
    | some r => simp [perform, get, Memory.get, hid, Except.map] at h
  | delete id =>
    cases hid : m.get? id with
    | none => exact ⟨id, .inr rfl, hid, Prod.ext h (by rw [perform_delete_of_none hid])⟩
    | some r => simp [perform_delete_of_some hid] at h

end Memory

/-- The answers to operations one after another, and the store behind them. -/
def performAll (s : Store) : List Operation → List (Except Error Answer) × Store
  | [] => ([], s)
  | op :: ops =>
    let (answers, last) := (s.perform op).2.performAll ops
    ((s.perform op).1 :: answers, last)

theorem performAll_concat (s : Store) (ops : List Operation) (op : Operation) :
    s.performAll (ops ++ [op]) =
      ((s.performAll ops).1 ++ [((s.performAll ops).2.perform op).1], ((s.performAll ops).2.perform op).2) := by
  induction ops generalizing s with
  | nil => rfl
  | cons first ops ih => simp only [List.cons_append, performAll, ih]

/-- The same store seen again. -/
inductive Same : Store → Store → Prop
  /-- A hash map gives its records in any order. -/
  | memory {m m' : Memory} (h : m.records.Perm m'.records) : Same (memory m) (memory m')
  /-- A store over the same place, where a directory gives its entries in any order. -/
  | present {path : String} {entries entries' : List (String × Entry)} (h : entries.Perm entries') :
    Same (folder { path, place := .present entries }) (folder { path, place := .present entries' })
  /-- A store over the same place, where there is no directory. -/
  | again (f : Folder) : Same (folder f) (folder f)

/-- What can come of operations on a store: their answers, and the store behind them. -/
inductive Runs (start : Store) : List Operation → List (Except Error Answer) → Store → Prop
  | start : Runs start [] [] start
  | again {ops answers s s'} (h : Runs start ops answers s) (hsame : s.Same s') : Runs start ops answers s'
  | perform {ops answers s} (h : Runs start ops answers s) (op : Operation) :
    Runs start (ops ++ [op]) (answers ++ [(s.perform op).1]) (s.perform op).2

/-- Operations carried out one after another, with nothing in between, are a run. -/
theorem runs_performAll (s : Store) (ops : List Operation) :
    Runs s ops (s.performAll ops).1 (s.performAll ops).2 := by
  induction ops using List.reverseRecOn with
  | nil => exact .start
  | append_singleton ops op ih =>
    rw [performAll_concat]
    exact ih.perform op

/-- The order in which a memory keeps its records shows in no answer. -/
theorem perform_perm {m m' : Memory} (hm : m.DistinctIds) (hperm : m.records.Perm m'.records) (op : Operation) :
    ∃ answer n n', (memory m).perform op = (answer, memory n) ∧ (memory m').perform op = (answer, memory n') ∧
      n.DistinctIds ∧ n.records.Perm n'.records := by
  have herase (id : String) : (m.erase id).records.Perm (m'.erase id).records := hperm.filter _
  have hget (id : String) : m'.get? id = m.get? id := Memory.get?_perm hm hperm id
  cases op with
  | save r => exact ⟨_, _, _, rfl, rfl, hm.save r, (herase r.id).cons r⟩
  | get id => exact ⟨_, _, _, rfl, by simp only [perform, get, Memory.get, hget], hm, hperm⟩
  | list limit => exact ⟨_, _, _, rfl, by simp only [perform, list, Memory.list_perm hm hperm], hm, hperm⟩
  | delete id =>
    cases hid : m.get? id with
    | none =>
      exact ⟨_, _, _, perform_delete_of_none hid, perform_delete_of_none (by rw [hget, hid]), hm, hperm⟩
    | some r =>
      exact ⟨_, _, _, perform_delete_of_some hid, perform_delete_of_some (by rw [hget, hid]), hm.erase id,
        herase id⟩

/-- Operations on a memory have one list of answers. -/
theorem performAll_of_runs {ops : List Operation} {answers : List (Except Error Answer)} {s : Store}
    (h : Runs (memory {}) ops answers s) :
    ∃ m m', s = memory m' ∧ (memory {}).performAll ops = (answers, memory m) ∧
      m.DistinctIds ∧ m.records.Perm m'.records := by
  induction h with
  | start => exact ⟨{}, {}, rfl, rfl, Memory.distinctIds_empty, .rfl⟩
  | again _ hsame ih =>
    obtain ⟨m, m', rfl, hall, hm, hperm⟩ := ih
    cases hsame with
    | memory hsame => exact ⟨m, _, rfl, hall, hm, hperm.trans hsame⟩
  | perform _ op ih =>
    obtain ⟨m, m', rfl, hall, hm, hperm⟩ := ih
    obtain ⟨answer, n, n', hop, hop', hn, hperm⟩ := perform_perm hm hperm op
    refine ⟨n, n', by rw [hop'], ?_, hn, hperm⟩
    rw [performAll_concat, hall, hop, hop']

end Store
end DocComments.History
