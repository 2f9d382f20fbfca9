import DocComments.Proofs.FileName
import DocComments.Proofs.History.Folder
import DocComments.Proofs.History.RecordFile

/-! What a history in a directory asks of the file system. A request for a record is answered in a dialogue
that goes to the file of that record alone, whatever the file system replies, and under an id that can name
no file it asks for nothing at all. -/
namespace DocComments.History

inductive Access where
  /-- To make a directory, and those on the way to it, where they are missing. -/
  | makeDirectory (path : String)
  | write (path text : String)
  | read (path : String)
  | remove (path : String)
  deriving DecidableEq, Repr

/-- What is worked out by asking a file system. -/
inductive Dialogue (α : Type) where
  | result (a : α)
  | ask (access : Access) (next : Reply → Dialogue α)

namespace Dialogue
variable {α σ : Type}

/-- Whether the dialogue asks for nothing else, whatever is replied. -/
def AsksOnly (p : Access → Prop) : Dialogue α → Prop
  | result _ => True
  | ask access next => p access ∧ ∀ reply, (next reply).AsksOnly p

/-- The result of the dialogue with a file system that serves what it is asked, and the state behind it. -/
def run (serve : Access → σ → Reply × σ) : Dialogue α → σ → α × σ
  | result a, s => (a, s)
  | ask access next, s => (next (serve access s).1).run serve (serve access s).2

/-- What all that is asked for keeps is kept by the dialogue. -/
theorem AsksOnly.keeps {serve : Access → σ → Reply × σ} {p : Access → Prop} {d : Dialogue α}
    (h : d.AsksOnly p) {kept : σ → Prop} (hserve : ∀ access s, p access → kept s → kept (serve access s).2)
    {s : σ} (hs : kept s) : kept (d.run serve s).2 := by
  induction d generalizing s with
  | result a => exact hs
  | ask access next ih => exact ih _ (h.2 _) (hserve access s h.1 hs)

end Dialogue

/-- A request for a single record. -/
inductive Request where
  | save (r : Record)
  | get (id : String)
  | delete (id : String)
  deriving DecidableEq, Repr

namespace Request

def id : Request → String
  | save r => r.id
  | get id | delete id => id

def operation : Request → Operation
  | save r => .save r
  | get id => .get id
  | delete id => .delete id

def filePath (directory id : String) : String :=
  FileName.join directory (Folder.fileName id)

def steps (directory path : String) : Request → Dialogue (Except Error Answer)
  | save r =>
    .ask (.makeDirectory directory) fun made =>
      if made = .done then
        .ask (.write path (Folder.fileText r)) fun reply =>
          .result ((Folder.written path reply).map fun _ => .done)
      else .result (.error (.storage "mkdir" directory))
  | get id => .ask (.read path) fun reply => .result ((Folder.given path id reply).map .record)
  | delete id => .ask (.remove path) fun reply => .result ((Folder.removed path id reply).map fun _ => .done)

/-- The dialogue in which a history in a directory answers the request. -/
def dialogue (directory : String) (request : Request) : Dialogue (Except Error Answer) :=
  if Identifier.isValid request.id then request.steps directory (filePath directory request.id)
  else .result (.error (.notFound request.id))

/-- What a request may ask for: its file, and to save a record also the directory. -/
inductive MayAsk (directory : String) (request : Request) : Access → Prop
  | makeDirectory {r : Record} (h : request = save r) : MayAsk directory request (.makeDirectory directory)
  | write (text : String) : MayAsk directory request (.write (filePath directory request.id) text)
  | read : MayAsk directory request (.read (filePath directory request.id))
  | remove : MayAsk directory request (.remove (filePath directory request.id))

theorem asksOnly_steps (directory : String) (request : Request) :
    (request.steps directory (filePath directory request.id)).AsksOnly (request.MayAsk directory) := by
  cases request with
  | save r =>
    refine ⟨.makeDirectory rfl, fun made => ?_⟩
    cases made with
    | done => exact ⟨.write _, fun _ => trivial⟩
    | text | missing | failed => trivial
  | get id => exact ⟨.read, fun _ => trivial⟩
  | delete id => exact ⟨.remove, fun _ => trivial⟩

end Request

/-- Whether the path leads from the directory straight to a JSON file of the given name. -/
structure IsEntryPath (directory name path : String) : Prop where
  below : directory.toList <+: path.toList
  components : FileName.components path = FileName.components directory ++ [name.toList]
  no_slash : '/' ∉ name.toList
  ne_here : name ≠ "."
  ne_up : name ≠ ".."
  extension : FileName.extension? path = some "json"

theorem isEntryPath_filePath {id : String} (h : Identifier.isValid id) (directory : String) :
    IsEntryPath directory (Folder.fileName id) (Request.filePath directory id) := by
  have hslash : '/' ∉ id.toList := Identifier.not_mem_of_isValid h rfl
  have hname := Folder.components_fileName hslash
  have hcomponents : FileName.components (Request.filePath directory id) =
      FileName.components directory ++ [(Folder.fileName id).toList] := by
    rw [Request.filePath, FileName.components_join, hname]
  refine ⟨FileName.prefix_join _ _, hcomponents, ?_, ?_, ?_, ?_⟩
  · rw [Folder.fileName, String.toList_append]
    simpa using hslash
  · intro hhere
    rw [hhere] at hname
    exact absurd hname (by decide)
  · intro hup
    exact Folder.fileName_ne_up id (by rw [hup]; rfl)
  · exact Folder.extension?_of_components_fileName (Identifier.ne_nil_of_isValid h) hcomponents

namespace Folder

/-- The name of the entry to which a path leads that starts with the folder's own and goes one step on. -/
def entryName? (f : Folder) (path : String) : Option String :=
  match Text.dropPrefix? (FileName.join f.path "").toList path.toList with
  | some name =>
    if FileName.components (String.ofList name) = [name] ∧ name ≠ ['.', '.'] then some (String.ofList name)
    else none
  | none => none

/-- The folder as a file system. Nothing outside of it is there. -/
def serve (access : Access) (f : Folder) : Reply × Folder :=
  match access with
  | .makeDirectory path => if path = f.path then f.make else (.failed, f)
  | .write path text => (f.entryName? path).elim (.failed, f) fun name => f.write name text
  | .read path => ((f.entryName? path).elim .failed f.read, f)
  | .remove path => (f.entryName? path).elim (.failed, f) f.unlink

private theorem entryName?_filePath {id : String} (h : Identifier.isValid id) (f : Folder) :
    f.entryName? (Request.filePath f.path id) = some (fileName id) := by
  have hname := components_fileName (Identifier.not_mem_of_isValid h rfl)
  rw [entryName?, Request.filePath, FileName.toList_join f.path (fileName id), Text.dropPrefix?_append]
  simp only [String.ofList_toList, hname, fileName_ne_up, ne_eq, not_false_eq_true, and_self, if_true]

/-- The outcome of a dialogue with the folder: the answer, and the store behind it. -/
def outcome (f : Folder) (d : Dialogue (Except Error Answer)) : Except Error Answer × Store :=
  ((d.run serve f).1, .folder (d.run serve f).2)

private theorem perform_save (f : Folder) {r : Record} (hid : Identifier.isValid r.id) :
    (Store.folder f).perform (.save r) =
      f.outcome ((Request.save r).steps f.path (Request.filePath f.path r.id)) := by
  have hname := entryName?_filePath hid f.make.2
  rw [path_make] at hname
  rw [Store.perform_folder_save, save_of_isValid hid]
  simp only [outcome, Request.steps, Dialogue.run, serve, if_true]
  by_cases hmade : f.make.1 = .done
  · simp only [hmade, if_true, Dialogue.run, serve, hname, Option.elim_some]
    rfl
  · simp only [hmade, if_false, Dialogue.run, path_make]
    rfl

private theorem perform_get (f : Folder) {id : String} (hid : Identifier.isValid id) :
    (Store.folder f).perform (.get id) =
      f.outcome ((Request.get id).steps f.path (Request.filePath f.path id)) := by
  simp only [Store.perform, Store.get, get_of_isValid hid, outcome, Request.steps, Dialogue.run, serve,
    entryName?_filePath hid, Option.elim_some]
  rfl

private theorem perform_delete (f : Folder) {id : String} (hid : Identifier.isValid id) :
    (Store.folder f).perform (.delete id) =
      f.outcome ((Request.delete id).steps f.path (Request.filePath f.path id)) := by
  rw [Store.perform_folder_delete, delete_of_isValid hid]
  simp only [outcome, Request.steps, Dialogue.run, serve, entryName?_filePath hid, Option.elim_some]
  rfl

/-- A history in a directory answers a request by the dialogue with its folder. -/
theorem perform_operation (f : Folder) (request : Request) :
    (Store.folder f).perform request.operation = f.outcome (request.dialogue f.path) := by
  by_cases hid : Identifier.isValid request.id
  · rw [Request.dialogue, if_pos hid]
    cases request with
    | save r => exact perform_save f hid
    | get id => exact perform_get f hid
    | delete id => exact perform_delete f hid
  · rw [Request.dialogue, if_neg hid]
    cases request with
    | save r =>
      rw [Request.operation, Store.perform_folder_save, save_of_not_isValid hid]
      rfl
    | get id =>
      have hid : ¬ Identifier.isValid id := hid
      rw [Request.operation, Store.perform, Store.get, get_of_not_isValid hid]
      rfl
    | delete id =>
      have hid : ¬ Identifier.isValid id := hid
      rw [Request.operation, Store.perform_folder_delete, delete_of_not_isValid hid]
      rfl

/-- Whether two states of a folder differ at most in the entry of one name. -/
structure SameBut (name : String) (f f' : Folder) : Prop where
  path : f'.path = f.path
  entries : ∀ other, other ≠ name → f'.place.entry? other = f.place.entry? other

namespace SameBut
variable {name : String} {f f' f'' : Folder}

theorem refl (name : String) (f : Folder) : SameBut name f f :=
  ⟨rfl, fun _ _ => rfl⟩

theorem trans (h : SameBut name f f') (h' : SameBut name f' f'') : SameBut name f f'' :=
  ⟨h'.path.trans h.path, fun other ho => (h'.entries other ho).trans (h.entries other ho)⟩

end SameBut

theorem lookup_filter_of_ne {entries : List (String × Entry)} {name other : String} (h : other ≠ name) :
    (entries.filter (·.1 != name)).lookup other = entries.lookup other := by
  induction entries with
  | nil => rfl
  | cons entry entries ih =>
    obtain ⟨first, entry⟩ := entry
    by_cases hfirst : first = name
    · have hother : (other == name) = false := beq_eq_false_iff_ne.mpr h
      simp only [hfirst, List.filter_cons, bne_self_eq_false, Bool.false_eq_true, if_false, List.lookup_cons,
        hother, ih]
    · have hkept : (first != name) = true := bne_iff_ne.mpr hfirst
      simp only [List.filter_cons, hkept, if_true, List.lookup_cons, ih]

private theorem sameBut_make (name : String) (f : Folder) : SameBut name f f.make.2 := by
  obtain ⟨path, place⟩ := f
  cases place <;> exact ⟨rfl, fun _ _ => rfl⟩

private theorem sameBut_write (f : Folder) (name text : String) : SameBut name f (f.write name text).2 := by
  rw [write]
  split
  · exact .refl name f
  · exact .refl name f
  · exact .refl name f
  · rename_i entries _ hplace _
    refine ⟨rfl, fun other ho => ?_⟩
    have hother : (other == name) = false := beq_eq_false_iff_ne.mpr ho
    simp only [hplace, Place.put, Place.entry?, Place.entries, List.lookup_cons, hother,
      lookup_filter_of_ne ho]

private theorem sameBut_unlink (f : Folder) (name : String) : SameBut name f (f.unlink name).2 := by
  rw [unlink]
  split
  · exact .refl name f
  · exact .refl name f
  · exact .refl name f
  · refine ⟨rfl, fun other ho => ?_⟩
    simp only [Place.entry?, Place.entries_remove, lookup_filter_of_ne ho]

/-- Whatever a request may ask for leaves the other entries as they are. -/
theorem sameBut_serve {request : Request} (hid : Identifier.isValid request.id) (f : Folder) {access : Access}
    (h : request.MayAsk f.path access) : SameBut (fileName request.id) f (serve access f).2 := by
  have hname := entryName?_filePath hid f
  cases h with
  | makeDirectory =>
    simp only [serve, if_true]
    exact sameBut_make _ f
  | write text =>
    simp only [serve, hname, Option.elim_some]
    exact sameBut_write f _ text
  | read => exact .refl _ f
  | remove =>
    simp only [serve, hname, Option.elim_some]
    exact sameBut_unlink f _

end Folder

/-- A history in a directory does not leave it. A request under an id that is no identifier is answered that
there is no such record, and the file system is not asked for anything. Any other request goes to one file,
whatever the file system replies, a save apart, which makes the directory first. The file lies straight in
the directory, no other identifier has the same, and nothing but the entry of the file is changed there. -/
theorem requests_stay_in_directory (directory : String) (request : Request) :
    (¬ Identifier.isValid request.id →
      request.dialogue directory = .result (.error (.notFound request.id))) ∧
    (Identifier.isValid request.id →
      (request.dialogue directory).AsksOnly (request.MayAsk directory) ∧
      IsEntryPath directory (Folder.fileName request.id) (Request.filePath directory request.id) ∧
      (∀ id, FileName.components (Request.filePath directory id) =
        FileName.components (Request.filePath directory request.id) → Identifier.isValid id → id = request.id) ∧
      ∀ place, Folder.SameBut (Folder.fileName request.id) ⟨directory, place⟩
        ((request.dialogue directory).run Folder.serve ⟨directory, place⟩).2) ∧
    ∀ place, (Store.folder ⟨directory, place⟩).perform request.operation =
      Folder.outcome ⟨directory, place⟩ (request.dialogue directory) := by
  refine ⟨fun hid => if_neg hid, fun hid => ?_, fun place => Folder.perform_operation ⟨directory, place⟩ request⟩
  have hasks : (request.dialogue directory).AsksOnly (request.MayAsk directory) := by
    rw [Request.dialogue, if_pos hid]
    exact request.asksOnly_steps directory
  have hpath := isEntryPath_filePath hid directory
  refine ⟨hasks, hpath, ?_, ?_⟩
  · intro id hsame hvalid
    rw [(isEntryPath_filePath hvalid directory).components, hpath.components, List.append_cancel_left_eq,
      List.singleton_inj, String.toList_inj] at hsame
    exact Folder.fileName_injective hsame
  · intro place
    refine hasks.keeps (fun access f hmay hf => ?_) (Folder.SameBut.refl _ _)
    have hmay : request.MayAsk f.path access := by rwa [hf.path]
    exact hf.trans (Folder.sameBut_serve hid f hmay)

/-- A resource name in a directory that goes up, and a text that would. -/
theorem requests_stay_in_directory_urn :
    let id := "urn:uuid:01234567-89AB-cdef-0123-456789abcdef"
    Identifier.isValid id ∧
      Request.filePath "a/../b/" id = "a/../b/urn:uuid:01234567-89AB-cdef-0123-456789abcdef.json" ∧
      IsEntryPath "a/../b/" (Folder.fileName id) (Request.filePath "a/../b/" id) ∧
      ((Request.delete id).dialogue "a/../b/").AsksOnly ((Request.delete id).MayAsk "a/../b/") ∧
      ¬ Identifier.isValid "../b/c" ∧ (Request.get "../b/c").dialogue "a" = .result (.error (.notFound "../b/c")) := by
  intro id
  have hid : Identifier.isValid id := by decide +kernel
  have hup : ¬ Identifier.isValid "../b/c" := by decide +kernel
  obtain ⟨hasks, hpath, -⟩ := (requests_stay_in_directory "a/../b/" (.delete id)).2.1 hid
  exact ⟨hid, by decide, hpath, hasks, hup, (requests_stay_in_directory "a" (.get "../b/c")).1 hup⟩

end DocComments.History
