import DocComments.History.Store

/-! A history in a directory, one request at a time: what stands at the place of the directory, and what
comes of each request by what the file system replies. -/
namespace DocComments.History

theorem lookup_perm {entries entries' : List (String × Entry)} (h : entries.Perm entries')
    (hnames : (entries.map (·.1)).Nodup) (name : String) : entries.lookup name = entries'.lookup name := by
  induction h with
  | nil => rfl
  | cons entry _ ih =>
    rw [List.lookup_cons, List.lookup_cons, ih (List.nodup_cons.mp hnames).2]
  | swap first second rest =>
    obtain ⟨a, entry⟩ := first
    obtain ⟨b, entry'⟩ := second
    have hne : a ≠ b := by
      rintro rfl
      exact (List.nodup_cons.mp hnames).1 List.mem_cons_self
    by_cases ha : name = a
    · have hb : (name == b) = false := beq_eq_false_iff_ne.mpr fun hb => hne (ha.symm.trans hb)
      simp only [List.lookup_cons, hb, beq_iff_eq.mpr ha]
    · simp only [List.lookup_cons, beq_eq_false_iff_ne.mpr ha]
  | trans h _ ih ih' =>
    rw [ih hnames, ih' ((h.map Prod.fst).nodup_iff.mp hnames)]

theorem Place.entries_remove (p : Place) (name : String) :
    (p.remove name).entries = p.entries.filter (·.1 != name) := by
  cases p <;> rfl

theorem Place.missing_or_present {p : Place} (h : p ≠ .obstructed) :
    p = .missing ∨ ∃ entries, p = .present entries := by
  cases p with
  | obstructed => exact absurd rfl h
  | missing => exact .inl rfl
  | present entries => exact .inr ⟨entries, rfl⟩

theorem Place.put_eq_present {p : Place} (h : p ≠ .obstructed) (name : String) (entry : Entry) :
    p.put name entry = .present ((name, entry) :: p.entries.filter (·.1 != name)) := by
  rcases Place.missing_or_present h with rfl | ⟨entries, rfl⟩ <;> rfl

theorem Place.remove_ne_obstructed {p : Place} (h : p ≠ .obstructed) (name : String) :
    p.remove name ≠ .obstructed := by
  rcases Place.missing_or_present h with rfl | ⟨entries, rfl⟩ <;> exact nofun

namespace Folder
variable {f : Folder} {r : Record} {id : String}

theorem pathFor_of_isValid (hid : Identifier.isValid id) : f.pathFor id = .ok (f.filePath id) :=
  if_pos hid

theorem pathFor_of_not_isValid (hid : ¬ Identifier.isValid id) : f.pathFor id = .error (.notFound id) :=
  if_neg hid

theorem save_of_not_isValid (hid : ¬ Identifier.isValid r.id) : f.save r = (.error (.notFound r.id), f) := by
  rw [save, pathFor_of_not_isValid hid]

/-- A save makes the directory first, and writes the file only if that is done. -/
theorem save_of_isValid (hid : Identifier.isValid r.id) :
    f.save r =
      if f.make.1 = .done then
        (written (f.filePath r.id) (f.make.2.write (fileName r.id) (fileText r)).1,
          (f.make.2.write (fileName r.id) (fileText r)).2)
      else (.error (.storage "mkdir" f.make.2.path), f.make.2) := by
  rw [save, pathFor_of_isValid hid]

theorem get_of_not_isValid (hid : ¬ Identifier.isValid id) : f.get id = .error (.notFound id) := by
  rw [get, pathFor_of_not_isValid hid]
  rfl

theorem get_of_isValid (hid : Identifier.isValid id) :
    f.get id = given (f.filePath id) id (f.read (fileName id)) := by
  rw [get, pathFor_of_isValid hid]
  rfl

theorem delete_of_not_isValid (hid : ¬ Identifier.isValid id) : f.delete id = (.error (.notFound id), f) := by
  rw [delete, pathFor_of_not_isValid hid]

theorem delete_of_isValid (hid : Identifier.isValid id) :
    f.delete id =
      (removed (f.filePath id) id (f.unlink (fileName id)).1, (f.unlink (fileName id)).2) := by
  rw [delete, pathFor_of_isValid hid]

theorem path_make (f : Folder) : f.make.2.path = f.path := by
  obtain ⟨path, place⟩ := f
  cases place <;> rfl

theorem make_of_reachable (h : f.place ≠ .obstructed) :
    f.make = (.done, { f with place := .present f.place.entries }) := by
  obtain ⟨path, place⟩ := f
  rcases Place.missing_or_present h with rfl | ⟨entries, rfl⟩ <;> rfl

theorem write_present {path name text : String} {entries : List (String × Entry)}
    (h : Place.entry? (.present entries) name ≠ some .directory) :
    write ⟨path, .present entries⟩ name text =
      (.done, ⟨path, .present ((name, .file text) :: entries.filter (·.1 != name))⟩) := by
  rw [write]
  cases hentry : Place.entry? (.present entries) name with
  | none => rfl
  | some entry =>
    cases entry with
    | directory => exact absurd hentry h
    | file _ => rfl

end Folder

namespace Store

theorem perform_folder_save (f : Folder) (r : Record) :
    (folder f).perform (.save r) = ((f.save r).1.map fun _ => .done, folder (f.save r).2) :=
  rfl

theorem perform_folder_delete (f : Folder) (id : String) :
    (folder f).perform (.delete id) = ((f.delete id).1.map fun _ => .done, folder (f.delete id).2) :=
  rfl

end Store
end DocComments.History
