import DocComments.Proofs.Doc.Layout
import DocComments.Proofs.Text.Case
import DocComments.Template

/-! Rendered documentation is in normal form. The summary starts and ends in no blank, and of the lines
below it those that separate sections are empty and the others end in text. -/
namespace DocComments
open Text Doc

structure Parameter.Phrased (p : Parameter) : Prop where
  name : Phrase p.name.toList
  type : ∀ type ∈ p.type, Phrase type.toList
  default : ∀ value ∈ p.default, Phrase value.toList

/-- Every part of the request is text of one line, and its name is one word. -/
structure DocRequest.Phrased (r : DocRequest) : Prop where
  name_ne_nil : r.name.toList ≠ []
  name : ∀ c ∈ r.name.toList, isBlank c = false
  parameters : ∀ p ∈ r.parameters, p.Phrased
  returnType : ∀ type ∈ r.returnType, Phrase type.toList

namespace Template

section Words

private theorem mem_consWord {word piece : List Char} {words : List (List Char)} (h : piece ∈ consWord word words) :
    piece = word ∧ word ≠ [] ∨ piece ∈ words := by
  rw [consWord] at h
  split at h
  · exact .inr h
  · rename_i hne
    exact (List.mem_cons.mp h).imp_left fun he => ⟨he, by simpa using hne⟩

private theorem mem_wordsAfter {current name word : List Char} {open_ : Bool}
    (hc : ∀ c ∈ current, isBlank c = false) (hn : ∀ c ∈ name, isBlank c = false)
    (h : word ∈ wordsAfter current open_ name) : word ≠ [] ∧ ∀ c ∈ word, isBlank c = false := by
  induction name generalizing current open_ with
  | nil =>
    rcases mem_consWord h with ⟨rfl, hne⟩ | h
    · exact ⟨hne, hc⟩
    · cases h
  | cons c name ih =>
    have hname : ∀ d ∈ name, isBlank d = false := fun d hd => hn d (List.mem_cons_of_mem c hd)
    have hlower : ∀ d ∈ lowerLetter c, isBlank d = false :=
      noBlank_iff.mp (noBlank_lowerLetter (hn c List.mem_cons_self))
    rw [wordsAfter] at h
    split at h
    · rcases mem_consWord h with ⟨rfl, hne⟩ | h
      · exact ⟨hne, hc⟩
      · exact ih (by simp) hname h
    · split at h
      · rcases mem_consWord h with ⟨rfl, hne⟩ | h
        · exact ⟨hne, hc⟩
        · exact ih hlower hname h
      · refine ih ?_ hname h
        intro d hd
        exact (List.mem_append.mp hd).elim (hc d) (hlower d)

private theorem not_mem_intercalate {α : Type} {a : α} {separator : List α} (hs : a ∉ separator)
    {pieces : List (List α)} (hp : ∀ piece ∈ pieces, a ∉ piece) : a ∉ separator.intercalate pieces := by
  induction pieces with
  | nil => simp
  | cons piece pieces ih =>
    have hpiece := hp piece List.mem_cons_self
    have hrest := ih fun other ho => hp other (List.mem_cons_of_mem piece ho)
    cases pieces with
    | nil => simpa using hpiece
    | cons next pieces =>
      rw [List.intercalate_cons_cons, List.mem_append, List.mem_append]
      exact fun h => h.elim (fun h => h.elim hpiece hs) hrest

private theorem head?_intercalate {α : Type} (separator : List α) {piece : List α} (hne : piece ≠ [])
    (pieces : List (List α)) : (separator.intercalate (piece :: pieces)).head? = piece.head? := by
  obtain ⟨a, rest, rfl⟩ := List.exists_cons_of_ne_nil hne
  cases pieces with
  | nil => simp
  | cons next pieces => simp [List.intercalate_cons_cons]

/-- The words with blanks between them start with no blank and stand on one line. -/
theorem intercalate_words {name : List Char} (hn : ∀ c ∈ name, isBlank c = false) :
    '\n' ∉ [' '].intercalate (words name) ∧
      ∀ c ∈ ([' '].intercalate (words name)).head?, isBlank c = false := by
  have hwords : ∀ word ∈ words name, word ≠ [] ∧ ∀ c ∈ word, isBlank c = false :=
    fun word hw => mem_wordsAfter (by simp) hn hw
  constructor
  · apply not_mem_intercalate (by decide)
    intro word hw hc
    exact absurd ((hwords word hw).2 _ hc) (by decide)
  · intro c hc
    cases hl : words name with
    | nil => simp [hl] at hc
    | cons word others =>
      obtain ⟨hne, hword⟩ := hwords word (by simp [hl])
      rw [hl, head?_intercalate [' '] hne] at hc
      exact hword c (List.mem_of_head? hc)

end Words

def Full (line : String) : Prop :=
  '\n' ∉ line.toList ∧ line.toList ≠ [] ∧ ∀ c ∈ line.toList.getLast?, isBlank c = false

instance (line : String) : Decidable (Full line) :=
  have : Decidable (∀ c ∈ line.toList.getLast?, isBlank c = false) := Option.decidableForallMem _
  inferInstanceAs (Decidable (_ ∧ _ ∧ _))

private theorem full_of_phrase {line : String} (h : Phrase line.toList) : Full line :=
  ⟨h.oneLine, h.ne_nil, h.last⟩

theorem Full.append {s t : String} (hs : '\n' ∉ s.toList) (ht : Full t) : Full (s ++ t) := by
  obtain ⟨hline, hne, hlast⟩ := ht
  refine ⟨by simp [hs, hline], by simp [hne], ?_⟩
  rwa [String.toList_append, List.getLast?_append_of_ne_nil _ hne]

private theorem Full.append_or {s t : String} (hs : Full s) (ht : t = "" ∨ Full t) : Full (s ++ t) := by
  rcases ht with rfl | ht
  · rwa [String.append_empty]
  · exact Full.append hs.1 ht

/-- The summary is a full line that starts with no blank. -/
theorem full_summary {name : String} (hne : name.toList ≠ [])
    (hn : ∀ c ∈ name.toList, isBlank c = false) :
    Full (summary name) ∧ ∀ c ∈ (summary name).toList.head?, isBlank c = false := by
  obtain ⟨hline, hhead⟩ := intercalate_words hn
  rw [summary]
  split
  · rename_i c rest hw
    rw [hw] at hline hhead
    have hupper : ∀ d ∈ upperLetter c, isBlank d = false :=
      noBlank_iff.mp (noBlank_upperLetter (hhead c rfl))
    have hupperLine : '\n' ∉ upperLetter c := fun hd => absurd (hupper _ hd) (by decide)
    have hrest : '\n' ∉ rest := fun hd => hline (List.mem_cons_of_mem c hd)
    obtain ⟨first, others, hu⟩ := List.exists_cons_of_ne_nil (upperLetter_ne_nil c)
    refine ⟨⟨?_, by simp, ?_⟩, ?_⟩
    · simp [hupperLine, hrest]
    · rw [String.toList_ofList, List.getLast?_concat]
      rintro c ⟨⟩
      decide
    · rw [hu] at hupper
      simpa [hu] using hupper first List.mem_cons_self
  · have hname : '\n' ∉ name.toList := fun hd => absurd (hn _ hd) (by decide)
    refine ⟨Full.append hname (by decide), ?_⟩
    obtain ⟨c, rest, hc⟩ := List.exists_cons_of_ne_nil hne
    simpa [hc] using hn c (by simp [hc])

section Entries
variable {p : Parameter}

private theorem full_describe (h : p.Phrased) : '\n' ∉ (bareName p).toList ∧ Full (describe p) := by
  have hbare : '\n' ∉ (bareName p).toList := by
    rw [bareName, String.toList_ofList]
    exact fun hc => h.name.oneLine ((List.dropWhile_suffix _).subset hc)
  exact ⟨hbare, Full.append (by simp [hbare]) (by decide)⟩

private theorem oneLine_qualifiers (h : p.Phrased) :
    '\n' ∉ [',', ' '].intercalate
      ((p.type.toList ++ if p.default.isSome then ["optional"] else []).map String.toList) := by
  apply not_mem_intercalate (by decide)
  intro piece hp
  obtain ⟨qualifier, hq, rfl⟩ := List.mem_map.mp hp
  rcases List.mem_append.mp hq with hq | hq
  · exact (h.type qualifier (Option.mem_toList.mp hq)).oneLine
  · split at hq
    · obtain rfl := List.mem_singleton.mp hq
      decide
    · cases hq

private theorem full_googleEntry (h : p.Phrased) : Full (googleEntry p) := by
  have hdescribe := (full_describe h).2
  have hqualifiers := oneLine_qualifiers h
  have hdefault : ∀ value ∈ p.default, Full (" Defaults to " ++ value ++ ".") := by
    intro value hv
    have hvalue := (h.default value hv).oneLine
    exact Full.append (by simp [hvalue]) (by decide)
  simp only [googleEntry]
  generalize p.type.toList ++ (if p.default.isSome then ["optional"] else []) = qualifiers at hqualifiers ⊢
  refine Full.append_or (Full.append ?_ hdescribe) ?_
  · split <;> simp [h.name.oneLine, hqualifiers]
  · split
    · rename_i value hv
      exact .inr (hdefault value hv)
    · exact .inl rfl

private theorem full_of_mem_numpyEntry (h : p.Phrased) : ∀ line ∈ numpyEntry p, Full line := by
  have hname := h.name.oneLine
  have hdescribe : Full ("    " ++ describe p) := Full.append (by decide) (full_describe h).2
  simp only [numpyEntry, List.forall_mem_cons, List.not_mem_nil, false_imp_iff, implies_true, and_true]
  refine ⟨?_, hdescribe⟩
  cases ht : p.type with
  | none =>
    cases hd : p.default with
    | none => exact full_of_phrase h.name
    | some value => exact Full.append hname (by decide)
  | some type =>
    have htype := h.type type ht
    cases hd : p.default with
    | none => exact Full.append (by simp [hname]) (full_of_phrase htype)
    | some value => exact Full.append (by simp [hname, htype.oneLine]) (by decide)

private theorem full_of_mem_sphinxEntry (h : p.Phrased) : ∀ line ∈ sphinxEntry p, Full line := by
  obtain ⟨hbare, hdescribe⟩ := full_describe h
  have hparam : Full (":param " ++ bareName p ++ ": " ++ describe p) :=
    Full.append (by simp [hbare]) hdescribe
  intro line hl
  rw [sphinxEntry, List.mem_cons] at hl
  rcases hl with rfl | hl
  · exact hparam
  · split at hl
    · rename_i type ht
      obtain rfl := List.mem_singleton.mp hl
      exact Full.append (by simp [hbare]) (full_of_phrase (h.type type ht))
    · cases hl

private theorem full_jsdocEntry (h : p.Phrased) : Full (jsdocEntry p) := by
  obtain ⟨hbare, hdescribe⟩ := full_describe h
  have htype : '\n' ∉ (p.type.getD "*").toList := by
    cases ht : p.type with
    | none => decide
    | some type => exact (h.type type ht).oneLine
  rw [jsdocEntry]
  refine Full.append ?_ hdescribe
  cases hd : p.default with
  | none => simp [hbare, htype]
  | some value => simp [hbare, htype, (h.default value hd).oneLine]

end Entries

/-- Lines of sections: those that separate sections are empty, and the others and the last are full. -/
structure Sections (lines : List String) : Prop where
  line : ∀ line ∈ lines, line = "" ∨ Full line
  last : ∀ line ∈ lines.getLast?, Full line

namespace Sections
variable {lines lines' : List String}

theorem nil : Sections [] :=
  ⟨by simp, by simp⟩

private theorem of_full (h : ∀ line ∈ lines, Full line) : Sections lines :=
  ⟨fun line hl => .inr (h line hl), fun line hl => h line (List.mem_of_getLast? hl)⟩

theorem append (h : Sections lines) (h' : Sections lines') : Sections (lines ++ lines') where
  line := fun line hl => (List.mem_append.mp hl).elim (h.line line) (h'.line line)
  last := by
    intro line hl
    rw [List.getLast?_append, Option.mem_def, Option.or_eq_some_iff] at hl
    rcases hl with hl | ⟨-, hl⟩
    · exact h'.last line hl
    · exact h.last line hl

private theorem cons_full {line : String} (hl : Full line) (h : Sections lines) : Sections (line :: lines) where
  line := List.forall_mem_cons.mpr ⟨.inr hl, h.line⟩
  last := by
    cases lines with
    | nil => simpa using hl
    | cons next lines =>
      rw [List.getLast?_cons_cons]
      exact h.last

private theorem cons_empty (h : Sections lines) (hne : lines ≠ []) : Sections ("" :: lines) where
  line := fun line hl => (List.mem_cons.mp hl).elim .inl (h.line line)
  last := by
    rw [List.getLast?_cons_of_ne_nil hne]
    exact h.last

end Sections

section Styles
variable {ps : List Parameter} {returns : Option String}

private theorem sections_google (hp : ∀ p ∈ ps, p.Phrased) (hr : ∀ type ∈ returns, Phrase type.toList) :
    Sections (google ps returns) := by
  refine Sections.append ?_ ?_
  · split
    · exact Sections.nil
    · refine Sections.cons_empty (Sections.of_full ?_) (by simp)
      simp only [List.forall_mem_cons, List.forall_mem_map]
      exact ⟨by decide, fun p hmem => full_googleEntry (hp p hmem)⟩
  · split
    · rename_i type
      refine Sections.cons_empty (Sections.of_full ?_) (by simp)
      simp only [List.forall_mem_cons, List.not_mem_nil, false_imp_iff, implies_true, and_true]
      exact ⟨by decide, Full.append (by simp [(hr type rfl).oneLine]) (by decide)⟩
    · exact Sections.nil

private theorem sections_numpy (hp : ∀ p ∈ ps, p.Phrased) (hr : ∀ type ∈ returns, Phrase type.toList) :
    Sections (numpy ps returns) := by
  refine Sections.append ?_ ?_
  · split
    · exact Sections.nil
    · refine Sections.cons_empty (Sections.of_full ?_) (by simp)
      simp only [List.forall_mem_cons, List.forall_mem_flatMap]
      exact ⟨by decide, by decide, fun p hmem => full_of_mem_numpyEntry (hp p hmem)⟩
  · split
    · rename_i type
      refine Sections.cons_empty (Sections.of_full ?_) (by simp)
      simp only [List.forall_mem_cons, List.not_mem_nil, false_imp_iff, implies_true, and_true]
      exact ⟨by decide, by decide, full_of_phrase (hr type rfl), by decide⟩
    · exact Sections.nil

private theorem sections_sphinx (hp : ∀ p ∈ ps, p.Phrased) (hr : ∀ type ∈ returns, Phrase type.toList) :
    Sections (sphinx ps returns) := by
  unfold sphinx
  extract_lets fields
  have hfields : Sections fields := by
    refine Sections.append (Sections.of_full ?_) (Sections.of_full ?_)
    · simp only [List.forall_mem_flatMap]
      exact fun p hmem => full_of_mem_sphinxEntry (hp p hmem)
    · split
      · rename_i type
        simp only [List.forall_mem_cons, List.not_mem_nil, false_imp_iff, implies_true, and_true]
        exact ⟨by decide, Full.append (by decide) (full_of_phrase (hr type rfl))⟩
      · simp
  split
  · exact Sections.nil
  · rename_i hne
    exact hfields.cons_empty (by simpa using hne)

private theorem sections_jsdoc (hp : ∀ p ∈ ps, p.Phrased) (hr : ∀ type ∈ returns, Phrase type.toList) :
    Sections (jsdoc ps returns) := by
  refine Sections.append (Sections.of_full ?_) (Sections.of_full ?_)
  · simp only [List.forall_mem_map]
    exact fun p hmem => full_jsdocEntry (hp p hmem)
  · split
    · rename_i type
      simp only [List.forall_mem_cons, List.not_mem_nil, false_imp_iff, implies_true, and_true]
      exact Full.append (by simp [(hr type rfl).oneLine]) (by decide)
    · simp

theorem sections_sections (style : Style) (hp : ∀ p ∈ ps, p.Phrased)
    (hr : ∀ type ∈ returns, Phrase type.toList) : Sections (sections style ps returns) := by
  cases style with
  | google => exact sections_google hp hr
  | numpy => exact sections_numpy hp hr
  | sphinx => exact sections_sphinx hp hr
  | jsdoc => exact sections_jsdoc hp hr

end Styles

def linesFor (style : Style) (r : DocRequest) : List String :=
  summary r.name :: match r.kind with
    | .class_ => sections style [] none
    | _ => sections style r.parameters r.returnType

theorem toList_render (style : Style) (r : DocRequest) :
    (render style r).toList = joinLines ((linesFor style r).map String.toList) := by
  have hlines : render style r = "\n".intercalate (linesFor style r) := rfl
  rw [hlines, String.toList_intercalate]
  exact intercalate_newline _

section Render
variable {r : DocRequest}

/-- A rendered documentation is in the normal form in which it is written into a file. -/
theorem normal_linesFor (style : Style) (h : r.Phrased) : Normal ((linesFor style r).map String.toList) := by
  obtain ⟨hfull, hhead⟩ := full_summary h.name_ne_nil h.name
  have hall : Sections (linesFor style r) := by
    refine Sections.cons_full hfull ?_
    split
    · exact sections_sections style (by simp) (by simp)
    · exact sections_sections style h.parameters h.returnType
  refine ⟨?_, ?_, ?_, ?_, ?_⟩
  · rw [List.forall_mem_map]
    intro line hl
    rcases hall.line line hl with rfl | hline
    · decide
    · exact hline.1
  · rw [List.forall_mem_map]
    intro line hl
    rcases hall.line line hl with rfl | hline
    · simp
    · exact hline.2.2
  · simpa [linesFor] using hfull.2.1
  · intro hlast
    obtain ⟨line, hl, he⟩ := Option.map_eq_some_iff.mp (List.getLast?_map.symm.trans hlast)
    exact (hall.last line hl).2.1 he
  · -- the summary is not indented, so that no indentation is common to all lines
    have hmem : (summary r.name).toList ∈ (linesFor style r).map String.toList := by simp [linesFor]
    have hle := commonDepth_le_depth hmem (allBlank_eq_false hfull.2.1 hfull.2.2)
    rw [depth_eq_zero hhead] at hle
    exact Nat.le_zero.mp hle

/-- Rendered documentation is written as it is. -/
theorem normalLines_render (style : Style) (h : r.Phrased) :
    normalLines (render style r).toList = (linesFor style r).map String.toList := by
  rw [toList_render]
  exact (normal_linesFor style h).normalLines_joinLines

theorem trimmed_render (style : Style) (h : r.Phrased) : Trimmed (render style r).toList := by
  rw [toList_render]
  exact (normal_linesFor style h).trimmed_joinLines (full_summary h.name_ne_nil h.name).2

end Render

end Template
end DocComments
