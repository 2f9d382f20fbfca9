import DocComments.Proofs.History.Folder
import DocComments.Proofs.History.Operations
import DocComments.Proofs.History.RecordFile

/-! A history in a directory answers as one in memory. The directory has a file for each record the memory
has, and nothing else; each operation keeps it so. -/
namespace DocComments.History

namespace Folder

/-- Whether the folder's path names a directory that is not there yet. The empty path names none. -/
structure IsMissing (f : Folder) : Prop where
  named : f.path ≠ ""
  missing : f.place = .missing

def entryOf (r : Record) : String × Entry :=
  (fileName r.id, .file (fileText r))

/-- Whether the folder keeps the records that the memory keeps. -/
structure Mirrors (f : Folder) (m : Memory) : Prop where
  named : f.path ≠ ""
  reachable : f.place ≠ .obstructed
  entries : f.place.entries.Perm (m.records.map entryOf)
  distinct : m.DistinctIds
  valid : ∀ r ∈ m.records, Identifier.isValid r.id
  proper : ∀ r ∈ m.records, r.createdAt.IsProper

private theorem lookup_map_entryOf (records : List Record) (id : String) :
    (records.map entryOf).lookup (fileName id) =
      (records.find? (·.id == id)).map fun r => .file (fileText r) := by
  induction records with
  | nil => rfl
  | cons r records ih =>
    rw [List.map_cons, entryOf, List.lookup_cons, List.find?_cons, ih]
    by_cases hid : r.id = id
    · simp [hid]
    · have hname : (fileName id == fileName r.id) = false :=
        beq_eq_false_iff_ne.mpr fun h => hid (fileName_injective h).symm
      simp only [hname, beq_eq_false_iff_ne.mpr hid]

private theorem filter_map_entryOf (records : List Record) (id : String) :
    (records.map entryOf).filter (·.1 != fileName id) = (records.filter (·.id != id)).map entryOf := by
  rw [List.filter_map]
  congr 1
  refine List.filter_congr fun r _ => ?_
  exact Bool.eq_iff_iff.mpr (by simp [entryOf, fileName_injective.eq_iff])

namespace Mirrors
variable {f : Folder} {m : Memory}

private theorem of_isMissing (h : f.IsMissing) : f.Mirrors {} where
  named := h.named
  reachable := by rw [h.missing]; exact nofun
  entries := by rw [h.missing]; exact .rfl
  distinct := Memory.distinctIds_empty
  valid := nofun
  proper := nofun

theorem entry? (h : f.Mirrors m) (id : String) :
    f.place.entry? (fileName id) = (m.get? id).map fun r => .file (fileText r) := by
  have hnames : ((m.records.map entryOf).map (·.1)).Nodup := by
    rw [List.map_map]
    have hids : ((m.records.map Record.id).map fileName).Nodup := h.distinct.map fileName_injective
    rwa [List.map_map] at hids
  rw [Place.entry?, ← lookup_perm h.entries.symm hnames, lookup_map_entryOf, Memory.get?]

private theorem get?_of_not_isValid (h : f.Mirrors m) {id : String} (hid : ¬ Identifier.isValid id) :
    m.get? id = none := by
  rw [Option.eq_none_iff_forall_ne_some]
  intro r hr
  exact hid (Memory.id_of_get? hr ▸ h.valid r (Memory.mem_of_get? hr))

/-- A save into the directory is one into the memory. -/
theorem save (h : f.Mirrors m) {r : Record} (hid : Identifier.isValid r.id) (hr : r.createdAt.IsProper) :
    (f.save r).1 = .ok () ∧ (f.save r).2.Mirrors (m.save r) := by
  have hentry : Place.entry? (.present f.place.entries) (fileName r.id) ≠ some .directory := by
    have hfile := h.entry? r.id
    rw [Place.entry?] at hfile
    rw [Place.entry?, Place.entries, hfile]
    cases m.get? r.id <;> simp
  have hsave : f.save r = (.ok (), { f with place := f.place.put (fileName r.id) (.file (fileText r)) }) := by
    rw [save_of_isValid hid, make_of_reachable h.reachable, if_pos rfl, write_present hentry,
      Place.put_eq_present h.reachable]
    rfl
  have hmem {other : Record} (hother : other ∈ (m.save r).records) : other = r ∨ other ∈ m.records :=
    (List.mem_cons.mp hother).imp_right fun hother => (List.mem_filter.mp hother).1
  rw [hsave]
  refine ⟨rfl, h.named, ?reachable, ?entries, h.distinct.save r, ?valid, ?proper⟩
  case reachable =>
    rw [Place.put_eq_present h.reachable]
    exact nofun
  case entries =>
    rw [Place.put_eq_present h.reachable, Memory.save, Memory.erase, List.map_cons, ← filter_map_entryOf]
    exact (h.entries.filter _).cons (entryOf r)
  case valid =>
    intro other hother
    rcases hmem hother with rfl | hother
    · exact hid
    · exact h.valid other hother
  case proper =>
    intro other hother
    rcases hmem hother with rfl | hother
    · exact hr
    · exact h.proper other hother

theorem read (h : f.Mirrors m) (id : String) :
    f.read (fileName id) = (m.get? id).elim .missing fun r => .text (fileText r) := by
  rw [Folder.read, h.entry?]
  rcases Place.missing_or_present h.reachable with hplace | ⟨entries, hplace⟩ <;> rw [hplace] <;>
    cases m.get? id <;> rfl

theorem unlink (h : f.Mirrors m) (id : String) :
    f.unlink (fileName id) =
      (m.get? id).elim (.missing, f) fun _ => (.done, { f with place := f.place.remove (fileName id) }) := by
  rw [Folder.unlink, h.entry?]
  rcases Place.missing_or_present h.reachable with hplace | ⟨entries, hplace⟩ <;> rw [hplace] <;>
    cases m.get? id <;> rfl

theorem get (h : f.Mirrors m) (id : String) : f.get id = m.get id := by
  by_cases hid : Identifier.isValid id
  · rw [get_of_isValid hid, h.read, Memory.get]
    cases hr : m.get? id with
    | none => rfl
    | some r =>
      have hparsed := parse?_fileText (h.proper r (Memory.mem_of_get? hr))
      simp only [Option.elim_some, given, hparsed]
  · rw [get_of_not_isValid hid, Memory.get, h.get?_of_not_isValid hid]

theorem list (h : f.Mirrors m) (limit : Nat) : f.list limit = .ok (m.list limit) := by
  have hread {r : Record} (hr : r ∈ m.records) : entryRecord? (entryOf r) = some r := by
    simp only [entryRecord?, entryOf, isRecordName_of_isValid (h.valid r hr), if_true,
      parse?_fileText (h.proper r hr)]
  have hrecords : (m.records.map entryOf).filterMap entryRecord? = m.records := by
    rw [List.filterMap_map]
    exact (List.filterMap_congr fun r hr => hread hr).trans List.filterMap_some
  have hperm : (f.place.entries.filterMap entryRecord?).Perm m.records := by
    have hentries := h.entries.filterMap entryRecord?
    rwa [hrecords] at hentries
  have hpath : f.path.isEmpty = false := by simpa using h.named
  rw [Memory.list, newestFirst_congr hperm.symm h.distinct, Folder.list]
  rcases Place.missing_or_present h.reachable with hplace | ⟨entries, hplace⟩ <;>
    simp only [hplace, hpath, Bool.false_eq_true, if_false]

theorem delete_of_some (h : f.Mirrors m) {id : String} {r : Record} (hr : m.get? id = some r) :
    (f.delete id).1 = .ok () ∧ (f.delete id).2.Mirrors (m.erase id) := by
  have hid : Identifier.isValid id := Memory.id_of_get? hr ▸ h.valid r (Memory.mem_of_get? hr)
  have hdelete : f.delete id = (.ok (), { f with place := f.place.remove (fileName id) }) := by
    rw [delete_of_isValid hid, h.unlink, hr]
    rfl
  have hkept {other : Record} (hother : other ∈ (m.erase id).records) : other ∈ m.records :=
    (List.mem_filter.mp hother).1
  rw [hdelete]
  refine ⟨rfl, h.named, Place.remove_ne_obstructed h.reachable _, ?_, h.distinct.erase id,
    fun other hother => h.valid other (hkept hother), fun other hother => h.proper other (hkept hother)⟩
  rw [Place.entries_remove, Memory.erase, ← filter_map_entryOf]
  exact h.entries.filter _

theorem delete_of_none (h : f.Mirrors m) {id : String} (hr : m.get? id = none) :
    f.delete id = (.error (.notFound id), f) := by
  by_cases hid : Identifier.isValid id
  · rw [delete_of_isValid hid, h.unlink, hr]
    rfl
  · exact delete_of_not_isValid hid

theorem same (h : f.Mirrors m) {s : Store} (hsame : (Store.folder f).Same s) :
    ∃ f', s = .folder f' ∧ f'.Mirrors m := by
  cases hsame with
  | again => exact ⟨f, rfl, h⟩
  | present hperm =>
    exact ⟨_, rfl, h.named, nofun, hperm.symm.trans h.entries, h.distinct, h.valid, h.proper⟩

/-- One operation on a folder and on the memory it mirrors. -/
theorem perform (h : f.Mirrors m) (op : Operation)
    (hop : ∀ r, op = .save r → Identifier.isValid r.id ∧ r.createdAt.IsProper) :
    ∃ answer f' m', (Store.folder f).perform op = (answer, .folder f') ∧
      (Store.memory m).perform op = (answer, .memory m') ∧ f'.Mirrors m' := by
  cases op with
  | save r =>
    obtain ⟨hid, hr⟩ := hop r rfl
    obtain ⟨hsave, hf'⟩ := h.save hid hr
    exact ⟨.ok .done, _, m.save r, by rw [Store.perform_folder_save, hsave]; rfl, rfl, hf'⟩
  | get id => exact ⟨_, f, m, by simp only [Store.perform, Store.get, h.get], rfl, h⟩
  | list limit => exact ⟨_, f, m, by simp only [Store.perform, Store.list, h.list], rfl, h⟩
  | delete id =>
    cases hr : m.get? id with
    | none =>
      refine ⟨.error (.notFound id), f, m, ?_, Store.perform_delete_of_none hr, h⟩
      rw [Store.perform_folder_delete, h.delete_of_none hr]
      rfl
    | some r =>
      obtain ⟨hdelete, hf'⟩ := h.delete_of_some hr
      exact ⟨.ok .done, _, m.erase id, by rw [Store.perform_folder_delete, hdelete]; rfl,
        Store.perform_delete_of_some hr, hf'⟩

/-- A folder mirrors the memory along any operations. -/
theorem of_runs (hf : f.IsMissing) {ops : List Operation} {answers : List (Except Error Answer)} {s : Store}
    (h : Store.Runs (.folder f) ops answers s)
    (hops : ∀ r, .save r ∈ ops → Identifier.isValid r.id ∧ r.createdAt.IsProper) :
    ∃ f' m, s = .folder f' ∧ (Store.memory {}).performAll ops = (answers, .memory m) ∧ f'.Mirrors m := by
  induction h with
  | start => exact ⟨f, {}, rfl, rfl, of_isMissing hf⟩
  | again _ hsame ih =>
    obtain ⟨f', m, rfl, hall, hm⟩ := ih hops
    obtain ⟨f'', rfl, hm'⟩ := hm.same hsame
    exact ⟨f'', m, rfl, hall, hm'⟩
  | perform _ op ih =>
    obtain ⟨f', m, rfl, hall, hm⟩ := ih fun r hr => hops r (List.mem_append_left _ hr)
    obtain ⟨answer, f'', m', hfolder, hmemory, hm'⟩ :=
      hm.perform op fun r hr => hops r (List.mem_append_right _ (List.mem_singleton.mpr hr.symm))
    refine ⟨f'', m', by rw [hfolder], ?_, hm'⟩
    rw [Store.performAll_concat, hall, hfolder, hmemory]

end Mirrors
end Folder

namespace Store

/-- A history in a directory that is not there yet answers any operations as an empty one in memory does,
whatever the order of directory entries and records and however often the store over the directory is made
anew, provided that what is saved has an identifier and an instant that a clock can show. A save under
anything else is refused, and nothing is touched. -/
theorem folder_refines_memory {f : Folder} (hf : f.IsMissing) {ops : List Operation}
    (hops : ∀ r, .save r ∈ ops → Identifier.isValid r.id ∧ r.createdAt.IsProper) :
    (∃ answers, (∃ s, Runs (folder f) ops answers s) ∧ (∃ s, Runs (memory {}) ops answers s) ∧
      (∀ answers' s, Runs (folder f) ops answers' s → answers' = answers) ∧
      ∀ answers' s, Runs (memory {}) ops answers' s → answers' = answers) ∧
    ∀ (g : Folder) (r : Record), ¬ Identifier.isValid r.id →
      (folder g).perform (.save r) = (.error (.notFound r.id), folder g) := by
  have hfolder {answers : List (Except Error Answer)} {s : Store} (h : Runs (folder f) ops answers s) :
      answers = ((memory {}).performAll ops).1 := by
    obtain ⟨f', m, -, hall, -⟩ := Folder.Mirrors.of_runs hf h hops
    rw [hall]
  have hmemory {answers : List (Except Error Answer)} {s : Store} (h : Runs (memory {}) ops answers s) :
      answers = ((memory {}).performAll ops).1 := by
    obtain ⟨m, m', -, hall, -, -⟩ := performAll_of_runs h
    rw [hall]
  have hrun := runs_performAll (folder f) ops
  rw [hfolder hrun] at hrun
  refine ⟨⟨_, ⟨_, hrun⟩, ⟨_, runs_performAll (memory {}) ops⟩, fun _ _ h => hfolder h,
    fun _ _ h => hmemory h⟩, ?_⟩
  intro g r hr
  rw [perform_folder_save, Folder.save_of_not_isValid hr]
  rfl

/-- A record listed, and deleted once more than it was saved. -/
theorem folder_refines_memory_deleted_twice :
    let id := "01234567-89ab-cdef-0123-456789abcdef"
    let createdAt : Instant := { date := { year := 2025, month := 2, day := 28 }, second := 59, nano := 1500000000 }
    let ops : List Operation :=
      [.save ⟨id, "f.py", .python, "x", "y", createdAt⟩, .list 1, .get "f", .delete id, .delete id]
    ∃ answers, (∃ s, Runs (folder { path := "history" }) ops answers s) ∧ ∃ s, Runs (memory {}) ops answers s := by
  intro id createdAt ops
  have hops : ∀ r, .save r ∈ ops → Identifier.isValid r.id ∧ r.createdAt.IsProper := by
    intro r hr
    have hid : Identifier.isValid id := by decide +kernel
    have hcreated : createdAt.IsProper := ⟨rfl, by decide, .inr (by decide)⟩
    simp only [ops, List.mem_cons, Operation.save.injEq, reduceCtorEq, List.not_mem_nil, or_false] at hr
    rw [hr]
    exact ⟨hid, hcreated⟩
  obtain ⟨⟨answers, hfolder, hmemory, -⟩, -⟩ :=
    folder_refines_memory (f := { path := "history" }) ⟨by decide, rfl⟩ hops
  exact ⟨answers, hfolder, hmemory⟩

end Store
end DocComments.History
