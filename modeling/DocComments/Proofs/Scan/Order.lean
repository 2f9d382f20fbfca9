import DocComments.Proofs.Scan.Languages

/-! Extraction never fails, and what it finds lies in order: each definition fills lines of the file,
and the next one starts below them. -/
namespace DocComments
open Text

/-- A definition fills its lines of the file: there are such lines, its code is their text, and its
name and parameters are taken from the header on the first of them. -/
structure Definition.Fills (g : Grammar) (lines : List Line) (d : Definition) : Prop where
  one_le_startLine : 1 ≤ d.startLine
  startLine_le_endLine : d.startLine ≤ d.endLine
  endLine_le : d.endLine ≤ lines.length
  code : d.code = String.ofList (joinLines ((lines.take d.endLine).drop (d.startLine - 1)))
  header : ∃ line head, lines[d.startLine - 1]? = some line ∧ g.Reads line (some head) ∧
    head.Captured line ∧ d.name = String.ofList head.name ∧
    d.parameters = g.parameters head.parameters

namespace Part
variable {language : Language}

theorem fills_definition {p : Part} (hp : (grammarOf language).Reads p.header (some p.head))
    (above below : List Line) :
    (p.definition (grammarOf language) above.length).Fills (grammarOf language)
      (above ++ (p.lines ++ below)) where
  one_le_startLine := by
    simp only [definition]
    omega
  startLine_le_endLine := by
    simp only [definition, size]
    omega
  endLine_le := by simp [definition]
  code := by
    have hlines := Grammar.take_drop_part p above below
    simp only [definition, Nat.add_sub_cancel, hlines]
  header := by
    refine ⟨p.header, p.head, ?_, hp, (wellFormed_header? (hp 0)).toCaptured, rfl, rfl⟩
    simp [definition, lines]

private theorem fills_of_mem_definitions {parts : List Part} {rest : List Line}
    (h : Stacked (grammarOf language) parts rest) (above : List Line) :
    ∀ d ∈ definitions (grammarOf language) above.length parts,
      d.Fills (grammarOf language) (above ++ stack parts rest) := by
  intro d hd
  obtain ⟨p, upper, lower, hlines, hp, rfl⟩ := exists_of_mem_definitions h above hd
  rw [hlines]
  exact fills_definition hp.header upper lower

theorem lt_startLine_of_mem_definitions {g : Grammar} {above : Nat} {parts : List Part}
    {d : Definition} (h : d ∈ definitions g above parts) : above < d.startLine := by
  induction parts generalizing above with
  | nil => simp [definitions] at h
  | cons p parts ih =>
    rw [definitions, List.mem_cons] at h
    rcases h with rfl | h
    · simp only [definition]
      omega
    · exact Nat.lt_of_le_of_lt (Nat.le_add_right above p.size) (ih h)

theorem pairwise_definitions (g : Grammar) (above : Nat) (parts : List Part) :
    (definitions g above parts).Pairwise fun upper lower => upper.endLine < lower.startLine := by
  induction parts generalizing above with
  | nil => exact .nil
  | cons p parts ih =>
    rw [definitions, List.pairwise_cons]
    exact ⟨fun d hd => lt_startLine_of_mem_definitions hd, ih (above + p.size)⟩

end Part

/-- Where the part of an extracted definition stands: directly below the last line of the definition found
before it, or at the head of the file. -/
theorem exists_part_of_extract {language : Language} {source : String} {upper lower : List Definition}
    {d : Definition} (h : extract language source = upper ++ d :: lower) :
    ∃ (p : Part) (above below : List Line), linesOf source = above ++ (p.lines ++ below) ∧
      p.Fits (grammarOf language) below ∧ d = p.definition (grammarOf language) above.length ∧
      above.length = (upper.getLast?.map (·.endLine)).getD 0 := by
  obtain ⟨o, ho⟩ := Outline.exists_lines_eq (grammarOf_local language) (linesOf source)
  rw [o.extract_eq ho] at h
  obtain ⟨p, above, below, hlines, hfits, hp, hlength⟩ := Part.exists_of_definitions_eq o.stacked [] h
  exact ⟨p, above, below, by rw [← ho, ← hlines]; rfl, hfits, hp, hlength⟩

/-- Where the search for the documentation of a definition starts: below the last line of the definition
found before it, or at the head of the file. -/
theorem existingDoc_of_extract {language : Language} {source : String} {upper lower : List Definition}
    {d : Definition} (h : extract language source = upper ++ d :: lower) :
    d.existingDoc = ((grammarOf language).doc? (linesOf source) (d.startLine - 1) (d.endLine - 1)
      ((upper.getLast?.map (·.endLine)).getD 0)).map String.ofList := by
  obtain ⟨p, above, below, hlines, -, rfl, hlength⟩ := exists_part_of_extract h
  have hlast : above.length + p.size - 1 = above.length + p.gap.length + p.body.length := by
    rw [Part.size]
    omega
  rw [← hlength, hlines]
  simp only [Part.definition, Nat.add_sub_cancel, hlast, (grammarOf_local language).doc? p above below]

/-- A scan of a source finds all that is extracted from it, and nothing stops it. -/
theorem scannerOf_linesOf (language : Language) (source : String) :
    scannerOf language (linesOf source) = { found := extract language source } := by
  obtain ⟨o, ho⟩ := Outline.exists_lines_eq (grammarOf_local language) (linesOf source)
  rw [o.extract_eq ho, scannerOf, ← ho, o.scan_lines (grammarOf_local language)]

/-- The definitions found in a file stand one below the other and share no line. -/
theorem pairwise_extract (language : Language) (source : String) :
    (extract language source).Pairwise fun upper lower => upper.endLine < lower.startLine := by
  obtain ⟨o, ho⟩ := Outline.exists_lines_eq (grammarOf_local language) (linesOf source)
  rw [o.extract_eq ho]
  exact Part.pairwise_definitions _ 0 o.parts

/-- Every definition found in a file fills lines of it, and its code is their text. -/
theorem fills_of_mem_extract {language : Language} {source : String} {d : Definition}
    (h : d ∈ extract language source) : d.Fills (grammarOf language) (linesOf source) := by
  obtain ⟨o, ho⟩ := Outline.exists_lines_eq (grammarOf_local language) (linesOf source)
  rw [o.extract_eq ho] at h
  rw [← ho]
  exact Part.fills_of_mem_definitions o.stacked [] d h

/-- Extraction succeeds on every source: no line lacks what a header needs, the scan finds all it finds
without failing, the definitions fill lines of the file, and they come in the order of these lines without
overlap. -/
theorem tryExtract_eq_ok (language : Language) (source : String) :
    let found := extract language source
    tryExtract language source = .ok found ∧
      (∀ line, ∃ head, (grammarOf language).Reads line head) ∧
      found.Pairwise (fun upper lower => upper.endLine < lower.startLine) ∧
      ∀ d ∈ found, d.Fills (grammarOf language) (linesOf source) := by
  refine ⟨?_, (grammarOf_local language).reads, pairwise_extract language source,
    fun d hd => fills_of_mem_extract hd⟩
  simp only [tryExtract, tryExtractWith, scannerOf_linesOf]

/-- No definition found before another reaches below the last one before it. -/
theorem endLine_le_floor {language : Language} {source : String} {upper lower : List Definition}
    (h : extract language source = upper ++ lower) {other : Definition} (ho : other ∈ upper) :
    other.endLine ≤ (upper.getLast?.map (·.endLine)).getD 0 := by
  have hpairwise := pairwise_extract language source
  rw [h] at hpairwise
  rcases List.eq_nil_or_concat upper with rfl | ⟨above, last, rfl⟩
  · simp at ho
  · rw [List.concat_eq_append] at *
    rw [List.getLast?_concat, Option.map_some, Option.getD_some]
    obtain ⟨-, -, habove⟩ := List.pairwise_append.mp (List.pairwise_append.mp hpairwise).1
    rcases List.mem_append.mp ho with ha | hl
    · have hlast : last ∈ extract language source := by simp [h]
      calc other.endLine
        _ ≤ last.startLine := (habove other ha last (by simp)).le
        _ ≤ last.endLine := (fills_of_mem_extract hlast).startLine_le_endLine
    · rw [List.mem_singleton.mp hl]

end DocComments
