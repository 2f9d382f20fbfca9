import DocComments.History.Folder
import DocComments.Proofs.FileName
import DocComments.Proofs.Time.Text
import DocComments.Proofs.Wire.Definition

/-! Record files. An identifier makes a file name that is one component of a path and tells a record, and
the record is read back from the text of its file. -/
namespace DocComments.History

namespace Identifier

def isIdChar (c : Char) : Bool :=
  isHex c || c == '-' || c == '{' || c == '}' || urn.contains c

private theorem isHex_of_isHexRun {offset count i : Nat} {s : List Char} {c : Char}
    (h : isHexRun count ((s.drop offset).take count)) (hlow : offset ≤ i) (hhigh : i < offset + count)
    (hc : s[i]? = some c) : isHex c := by
  simp only [isHexRun, Bool.and_eq_true, List.all_eq_true] at h
  have hget : ((s.drop offset).take count)[i - offset]? = some c := by
    rw [List.getElem?_take_of_lt (by omega), List.getElem?_drop, Nat.add_sub_cancel' hlow, hc]
  exact h.2 c (List.mem_of_getElem? hget)

private theorem isIdChar_of_isHyphenated {s : List Char} (h : isHyphenated s) : ∀ c ∈ s, isIdChar c := by
  intro c hc
  obtain ⟨i, hi⟩ := List.mem_iff_getElem?.mp hc
  simp only [isHyphenated, Bool.and_eq_true, beq_iff_eq] at h
  obtain ⟨⟨⟨⟨⟨⟨⟨⟨⟨hlength, hrun0⟩, hhyphen8⟩, hrun9⟩, hhyphen13⟩, hrun14⟩, hhyphen18⟩, hrun19⟩,
    hhyphen23⟩, hrun24⟩ := h
  have hlt : i < 36 := hlength ▸ (List.getElem?_eq_some_iff.mp hi).1
  have hhyphen {j : Nat} (hj : s[j]? = some '-') (hij : i = j) : isIdChar c := by
    rw [hij, hj] at hi
    obtain rfl := Option.some.inj hi
    rfl
  have hrun {offset count : Nat} (h : isHexRun count ((s.drop offset).take count)) (hlow : offset ≤ i)
      (hhigh : i < offset + count) : isIdChar c := by
    simp only [isIdChar, isHex_of_isHexRun h hlow hhigh hi, Bool.true_or]
  have hrun0' : isHexRun 8 ((s.drop 0).take 8) := hrun0
  have hrun24' : isHexRun 12 ((s.drop 24).take 12) := by
    rwa [List.take_of_length_le (by rw [List.length_drop, hlength])]
  rcases (by omega : i < 8 ∨ i = 8 ∨ 9 ≤ i ∧ i < 13 ∨ i = 13 ∨ 14 ≤ i ∧ i < 18 ∨ i = 18 ∨
    19 ≤ i ∧ i < 23 ∨ i = 23 ∨ 24 ≤ i) with h | h | ⟨h, h'⟩ | h | ⟨h, h'⟩ | h | ⟨h, h'⟩ | h | h
  · exact hrun hrun0' (Nat.zero_le i) (by omega)
  · exact hhyphen hhyphen8 h
  · exact hrun hrun9 h (by omega)
  · exact hhyphen hhyphen13 h
  · exact hrun hrun14 h (by omega)
  · exact hhyphen hhyphen18 h
  · exact hrun hrun19 h (by omega)
  · exact hhyphen hhyphen23 h
  · exact hrun hrun24' h (by omega)

/-- An identifier is made of the characters of identifiers. -/
theorem isIdChar_of_isValid {id : String} (h : isValid id) : ∀ c ∈ id.toList, isIdChar c := by
  simp only [isValid, Bool.or_eq_true] at h
  intro c hc
  rcases h with ((hrun | hhyphenated) | hbraced) | hurn
  · simp only [isHexRun, Bool.and_eq_true, List.all_eq_true] at hrun
    simp only [isIdChar, hrun.2 c hc, Bool.true_or]
  · exact isIdChar_of_isHyphenated hhyphenated c hc
  · unfold isBraced at hbraced
    split at hbraced
    · rename_i rest hs
      rw [Bool.and_eq_true, beq_iff_eq] at hbraced
      obtain ⟨hlast, hinner⟩ := hbraced
      rw [hs, ← List.dropLast_append_getLast? '}' hlast] at hc
      rcases List.mem_cons.mp hc with rfl | hc
      · rfl
      · rcases List.mem_append.mp hc with hc | hc
        · exact isIdChar_of_isHyphenated hinner c hc
        · rw [List.mem_singleton.mp hc]
          rfl
    · exact absurd hbraced Bool.false_ne_true
  · rw [isUrn] at hurn
    split at hurn
    · rename_i rest hs
      rw [← List.append_eq_of_isPrefixOf?_eq_some hs] at hc
      rcases List.mem_append.mp hc with hc | hc
      · simp only [isIdChar, List.contains_iff_mem.mpr hc, Bool.or_true]
      · exact isIdChar_of_isHyphenated hurn c hc
    · exact absurd hurn Bool.false_ne_true

theorem not_mem_of_isValid {id : String} (h : isValid id) {c : Char} (hc : isIdChar c = false) : c ∉ id.toList := by
  intro hmem
  rw [isIdChar_of_isValid h c hmem] at hc
  cases hc

theorem ne_nil_of_isValid {id : String} (h : isValid id) : id.toList ≠ [] := by
  intro hid
  rw [isValid, hid] at h
  exact absurd h (by decide)

end Identifier

namespace Folder

theorem fileName_injective : Function.Injective fileName := by
  intro id id' h
  rw [fileName, fileName, ← String.toList_inj, String.toList_append, String.toList_append] at h
  exact String.toList_inj.mp (List.append_cancel_right h)

section Name
variable {id : String}

/-- What is put before `.json` makes one component of a path, if it holds no slash. -/
theorem components_fileName (hslash : '/' ∉ id.toList) :
    FileName.components (fileName id) = [(fileName id).toList] := by
  have htext : (fileName id).toList = id.toList ++ ['.', 'j', 's', 'o', 'n'] := String.toList_append
  have hlast (name : List Char) (h : name.getLast? ≠ some 'n') : (fileName id).toList ≠ name := by
    rintro rfl
    exact h (by simp [htext])
  exact FileName.components_eq_singleton (by simpa [htext] using hslash) (hlast [] nofun)
    (hlast ['.'] (by decide))

theorem fileName_ne_up (id : String) : (fileName id).toList ≠ ['.', '.'] := by
  intro h
  have htext : (fileName id).toList = id.toList ++ ['.', 'j', 's', 'o', 'n'] := String.toList_append
  rw [htext] at h
  simpa using congrArg List.getLast? h

/-- The dot that a file name starts with opens no extension, so there has to be something before it. -/
theorem extensionOf?_fileName (hne : id.toList ≠ []) :
    FileName.extensionOf? (fileName id).toList = some ['j', 's', 'o', 'n'] := by
  have hreverse : (fileName id).toList.reverse = ['n', 'o', 's', 'j'] ++ '.' :: id.toList.reverse := by
    simp [fileName]
  have hrest : (fileName id).toList.reverse.dropWhile (· != '.') = '.' :: id.toList.reverse := by
    rw [hreverse]
    rfl
  have htaken : (fileName id).toList.reverse.takeWhile (· != '.') = ['n', 'o', 's', 'j'] := by
    rw [hreverse]
    rfl
  obtain ⟨c, rest, hid⟩ := List.exists_cons_of_ne_nil (List.reverse_ne_nil_iff.mpr hne)
  rw [hid] at hrest
  simp only [FileName.extensionOf?, hrest, htaken]
  rfl

/-- A record file below any directory has the extension of one. -/
theorem extension?_of_components_fileName {path : String} {above : List (List Char)} (hne : id.toList ≠ [])
    (h : FileName.components path = above ++ [(fileName id).toList]) :
    FileName.extension? path = some "json" := by
  rw [FileName.extension?_of_components h (fileName_ne_up id), extensionOf?_fileName hne]
  rfl

/-- What is put before `.json` makes the name of a record file, if it is there and is no path. -/
theorem isRecordName_fileName (hne : id.toList ≠ []) (hslash : '/' ∉ id.toList) : isRecordName (fileName id) := by
  have hcomponents : FileName.components (fileName id) = [] ++ [(fileName id).toList] :=
    components_fileName hslash
  rw [isRecordName, extension?_of_components_fileName hne hcomponents]
  rfl

end Name

theorem isRecordName_of_isValid {id : String} (h : Identifier.isValid id) : isRecordName (fileName id) :=
  isRecordName_fileName (Identifier.ne_nil_of_isValid h) (Identifier.not_mem_of_isValid h rfl)

end Folder

theorem Record.written_toJson (r : Record) : r.toJson.Written := by
  refine .obj ?_
  simp only [List.forall_mem_cons, List.not_mem_nil, false_imp_iff, implies_true, and_true]
  exact ⟨.str _, .str _, .str _, .str _, .str _, .str _⟩

/-- A record is decoded from its JSON. -/
theorem Record.decoder_toJson {r : Record} (h : r.createdAt.IsProper) : Record.decoder r.toJson = .ok r := by
  have hinstant : Instant.decoder (.str (String.ofList r.createdAt.text)) = .ok r.createdAt := by
    simp only [Instant.decoder, Decoder.text, String.toList_ofList, Instant.parse?_text h]
  refine Decoder.InOrder.record_eq_ok (by decide) ?_
  exact ⟨_, .of rfl <| .of rfl <| .of (decoder_language r.language) <| .of rfl <| .of rfl <| .of hinstant <| .nil _,
    rfl⟩

/-- A record is read back from its file. -/
theorem Folder.parse?_fileText {r : Record} (h : r.createdAt.IsProper) : parse? (fileText r) = some r := by
  have htext : Json.Document.ofText (fileText r) = { value := r.toJson, complete := true } :=
    r.written_toJson.ofText_indented
  simp only [parse?, Decoder.ofText, htext, Record.decoder_toJson h]
  rfl

end DocComments.History
