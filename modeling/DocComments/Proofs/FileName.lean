import DocComments.FileName
import DocComments.Proofs.Text.Find

/-! Paths of directory entries. Such a path leads through the components of the directory to those of the
entry, whether a slash had to be put between them or not. -/
namespace DocComments.FileName

theorem components_append_slash {path directory entry : String}
    (h : path.toList = directory.toList ++ '/' :: entry.toList) :
    components path = components directory ++ components entry := by
  rw [components, components, components, h, Text.splitOnChar_append_cons, List.filter_append]

theorem components_join (directory entry : String) :
    components (join directory entry) = components directory ++ components entry := by
  rw [join]
  split
  · rename_i hends
    rcases (Bool.or_eq_true_iff).mp hends with hempty | hslash
    · have hdirectory : directory = "" := String.isEmpty_iff.mp hempty
      rw [hdirectory, String.empty_append]
      rfl
    · -- the slash is there already, and nothing stands between it and the end of the directory
      obtain ⟨above, habove⟩ := List.getLast?_eq_some_iff.mp (beq_iff_eq.mp hslash)
      have htext : directory.toList = (String.ofList above).toList ++ '/' :: "".toList := by
        rw [String.toList_ofList, habove]
        rfl
      have hjoined : (directory ++ entry).toList = (String.ofList above).toList ++ '/' :: entry.toList := by
        rw [String.toList_append, htext, List.append_assoc]
        rfl
      have hnone : components "" = [] := rfl
      rw [components_append_slash hjoined, components_append_slash htext, hnone, List.append_nil]
  · apply components_append_slash
    rw [String.toList_append, String.toList_append, List.append_assoc]
    rfl

/-- The text of the path is that of the directory, with a slash where one is missing, and that of the
entry. -/
theorem toList_join (directory entry : String) :
    (join directory entry).toList = (join directory "").toList ++ entry.toList := by
  rw [join, join]
  split <;> simp [String.toList_append]

theorem prefix_join (directory entry : String) : directory.toList <+: (join directory entry).toList := by
  rw [join]
  split
  · rw [String.toList_append]
    exact List.prefix_append _ _
  · rw [String.toList_append, String.toList_append, List.append_assoc]
    exact List.prefix_append _ _

theorem components_eq_singleton {name : String} (hslash : '/' ∉ name.toList) (hne : name.toList ≠ [])
    (hdot : name.toList ≠ ['.']) : components name = [name.toList] := by
  have hpart : !(name.toList.isEmpty || name.toList == ['.']) := by simp [hne, hdot]
  rw [components, Text.splitOnChar_of_not_mem hslash, List.filter_cons, if_pos hpart, List.filter_nil]

/-- The last component of a path tells its extension. -/
theorem extension?_of_components {path : String} {above : List (List Char)} {part : List Char}
    (h : components path = above ++ [part]) (hup : part ≠ ['.', '.']) :
    extension? path = (extensionOf? part).map String.ofList := by
  have hbase : base? path = some part := by
    simp only [base?, h, List.getLast?_concat, beq_eq_false_iff_ne.mpr hup, Bool.false_eq_true, if_false]
  rw [extension?, hbase, Option.bind_some]

end DocComments.FileName
