import DocComments.History.Memory
import DocComments.Proofs.History.Order

/-! The history in memory as a map from ids to records. It is told by what it answers for each id, in
whatever order it keeps its records. -/
namespace DocComments.History.Memory

def DistinctIds (m : Memory) : Prop :=
  (m.records.map (·.id)).Nodup

section Lookup
variable {m m' : Memory} {id : String} {r : Record}

theorem id_of_get? (h : m.get? id = some r) : r.id = id := by
  have hfound := List.find?_some h
  exact eq_of_beq hfound

theorem mem_of_get? (h : m.get? id = some r) : r ∈ m.records :=
  List.mem_of_find?_eq_some h

theorem get?_of_mem (hm : m.DistinctIds) (h : r ∈ m.records) : m.get? r.id = some r := by
  obtain ⟨found, hfound⟩ : ∃ found, m.get? r.id = some found :=
    Option.isSome_iff_exists.mp (List.find?_isSome.mpr ⟨r, h, beq_self_eq_true r.id⟩)
  have hsame : found = r := List.inj_on_of_nodup_map hm (mem_of_get? hfound) h (id_of_get? hfound)
  rw [hfound, hsame]

theorem mem_records_iff (hm : m.DistinctIds) : r ∈ m.records ↔ m.get? r.id = some r :=
  ⟨get?_of_mem hm, mem_of_get?⟩

theorem get_eq_ok_iff : m.get id = .ok r ↔ m.get? id = some r := by
  rw [get]
  cases m.get? id <;> simp

theorem get_eq_error_iff {e : Error} : m.get id = .error e ↔ m.get? id = none ∧ e = .notFound id := by
  rw [get]
  cases m.get? id <;> simp [eq_comm]

end Lookup

section Reordering
variable {m m' : Memory}

theorem DistinctIds.perm (hm : m.DistinctIds) (h : m.records.Perm m'.records) : m'.DistinctIds :=
  (h.map Record.id).nodup_iff.mp hm

theorem get?_perm (hm : m.DistinctIds) (h : m.records.Perm m'.records) (id : String) :
    m'.get? id = m.get? id := by
  ext r
  constructor
  · intro hr
    rw [← id_of_get? hr]
    exact get?_of_mem hm (h.mem_iff.mpr (mem_of_get? hr))
  · intro hr
    rw [← id_of_get? hr]
    exact get?_of_mem (hm.perm h) (h.mem_iff.mp (mem_of_get? hr))

theorem list_perm (hm : m.DistinctIds) (h : m.records.Perm m'.records) (limit : Nat) :
    m'.list limit = m.list limit := by
  rw [list, list, newestFirst_congr h hm]

end Reordering

section Changes
variable {m : Memory}

theorem distinctIds_empty : ({} : Memory).DistinctIds :=
  List.nodup_nil

theorem DistinctIds.erase (hm : m.DistinctIds) (id : String) : (m.erase id).DistinctIds :=
  hm.sublist (List.filter_sublist.map Record.id)

theorem DistinctIds.save (hm : m.DistinctIds) (r : Record) : (m.save r).DistinctIds := by
  refine List.nodup_cons.mpr ⟨?_, hm.erase r.id⟩
  intro hid
  obtain ⟨other, hother, hsame⟩ := List.mem_map.mp hid
  have hne := (List.mem_filter.mp hother).2
  exact absurd hsame (by simpa using hne)

theorem get?_erase (m : Memory) (erased id : String) :
    (m.erase erased).get? id = if erased = id then none else m.get? id := by
  rw [get?, erase, List.find?_filter]
  split
  · rename_i h
    subst h
    exact List.find?_eq_none.mpr (by simp)
  · rename_i h
    refine congrArg (List.find? · m.records) (funext fun r => ?_)
    by_cases hid : r.id = id
    · simp [hid, Ne.symm h]
    · simp [hid]

theorem get?_save (m : Memory) (r : Record) (id : String) :
    (m.save r).get? id = if r.id = id then some r else m.get? id := by
  by_cases h : r.id = id
  · rw [if_pos h]
    exact List.find?_cons_of_pos (by simpa using h)
  · have hrest : (m.save r).get? id = (m.erase r.id).get? id := List.find?_cons_of_neg (by simpa using h)
    rw [hrest, get?_erase, if_neg h, if_neg h]

theorem erase_of_none {id : String} (h : m.get? id = none) : m.erase id = m := by
  rw [get?, List.find?_eq_none] at h
  have hall : m.records.filter (·.id != id) = m.records :=
    List.filter_eq_self.mpr fun other hother => by simpa using h other hother
  rw [erase, hall]

theorem size_save_of_none {r : Record} (h : m.get? r.id = none) : (m.save r).size = m.size + 1 := by
  rw [size, save, erase_of_none h, List.length_cons, size]

theorem delete_of_some {id : String} {r : Record} (h : m.get? id = some r) :
    m.delete id = (.ok (), m.erase id) := by
  rw [delete, h]

theorem delete_of_none {id : String} (h : m.get? id = none) : m.delete id = (.error (.notFound id), m) := by
  rw [delete, h, erase_of_none h]

end Changes

end DocComments.History.Memory
