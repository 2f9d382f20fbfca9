import DocComments.Proofs.Insert.Part
import DocComments.Proofs.Text.Lines

/-! Documentation is written as if all at once. The edits can be read off the unedited file, they keep
apart, and the file written from the lowest definition up is the one in which each line stayed or went
by its own number. -/
namespace DocComments
open Text Doc DocComments.Insert

namespace Insert

/-- Every definition with the number of the first line behind the definition before it. -/
def withFloors : Nat → List Definition → List (Nat × Definition)
  | _, [] => []
  | floor, d :: below => (floor, d) :: withFloors d.endLine below

/-- The edits that document the definitions, all of them found in the same lines. -/
def edits (language : Language) (docs : DocMap) (lines : List Line) (floor : Nat)
    (definitions : List Definition) : List Edit :=
  (withFloors floor definitions).filterMap fun (floor, d) => edit? language docs lines floor d

def hasText (docs : DocMap) (d : Definition) : Bool :=
  (docs d.name).any fun text => !(normalLines text.toList).isEmpty

private theorem isSome_docLines? (docs : DocMap) (d : Definition) :
    (docLines? docs d).isSome = hasText docs d := by
  rw [docLines?, hasText]
  cases docs d.name with
  | none => rfl
  | some text =>
    simp only [Option.map_some, Option.any_some]
    cases normalLines text.toList <;> rfl

/-- The edits of parts that stand one below the other, so many lines being above the first. -/
def partEdits (language : Language) (docs : DocMap) : Nat → List Part → List Edit
  | _, [] => []
  | above, p :: parts =>
    ((p.edit? language docs).map (Edit.shift above)).toList ++
      partEdits language docs (above + p.size) parts

theorem mem_partEdits_cons {language : Language} {docs : DocMap} {above : Nat} {p : Part}
    {parts : List Part} {edit : Edit} :
    edit ∈ partEdits language docs above (p :: parts) ↔
      (∃ own, p.edit? language docs = some own ∧ own.shift above = edit) ∨
        edit ∈ partEdits language docs (above + p.size) parts := by
  rw [partEdits, List.mem_append, Option.mem_toList, Option.map_eq_some_iff]

theorem edits_stack (language : Language) (docs : DocMap) (parts : List Part)
    (rest above : List Line) :
    edits language docs (above ++ Part.stack parts rest) above.length
        (Part.definitions (grammarOf language) above.length parts) =
      partEdits language docs above.length parts := by
  induction parts generalizing above with
  | nil => rfl
  | cons p parts ih =>
    have hbelow := ih (above ++ p.lines)
    rw [List.length_append, Part.length_lines, List.append_assoc] at hbelow
    rw [edits] at hbelow ⊢
    rw [Part.definitions, withFloors, Part.endLine_definition, partEdits, Part.stack_cons,
      List.filterMap_cons]
    simp only [Part.edit?_part, hbelow]
    cases p.edit? language docs <;> rfl

/-- The edit of a part keeps within its part, and away from one of its ends: from the upper one, where
a Python header stands, or from the lower one with the JavaScript body. -/
theorem edit?_bounds {language : Language} {docs : DocMap} {p : Part} {edit : Edit}
    (h : p.edit? language docs = some edit) :
    (p.upper language).length ≤ edit.first ∧ edit.first ≤ edit.stop ∧
      edit.stop + (p.lower language).length ≤ p.size := by
  obtain ⟨block, -, rfl⟩ := Option.map_eq_some_iff.mp h
  obtain ⟨hf, hs⟩ := regionEdit_within language (p.region language) block
  have hsize := congrArg List.length (Part.lines_eq language p)
  rw [Part.length_lines, List.length_append, List.length_append] at hsize
  simp only [Edit.shift]
  omega

/-- How many lines at the top of a part no edit concerns: the header line of a Python definition. -/
def margin : Language → Nat
  | .python => 1
  | .javaScript => 0

/-- An edit reaches over the end of its part by no more than the margin of the next. -/
theorem edit?_margin {language : Language} {docs : DocMap} {p : Part} {edit : Edit}
    (h : p.edit? language docs = some edit) :
    margin language ≤ edit.first ∧ edit.stop < margin language + p.size := by
  obtain ⟨hf, -, hs⟩ := edit?_bounds h
  cases language with
  | python =>
    simp only [Part.upper, Part.lower, List.length_append, List.length_singleton, margin] at hf hs ⊢
    omega
  | javaScript =>
    simp only [Part.upper, Part.lower, List.length_cons, margin] at hf hs ⊢
    omega

/-- Every edit of a pile of parts lies in it, below the margin. -/
theorem partEdits_bounds {language : Language} {docs : DocMap} {above : Nat}
    {parts : List Part} {edit : Edit} (h : edit ∈ partEdits language docs above parts) :
    above + margin language ≤ edit.first ∧ edit.first ≤ edit.stop ∧
      edit.stop ≤ above + (Part.stack parts []).length := by
  induction parts generalizing above with
  | nil => simp [partEdits] at h
  | cons p parts ih =>
    rw [Part.stack_cons, List.length_append, Part.length_lines]
    rcases mem_partEdits_cons.mp h with ⟨own, ho, rfl⟩ | h
    · obtain ⟨-, hm, hs⟩ := edit?_bounds ho
      obtain ⟨hf, -⟩ := edit?_margin ho
      simp only [Edit.shift]
      omega
    · obtain ⟨hf, hm, hs⟩ := ih h
      omega

/-- The edits of parts keep apart, in the order of the parts. -/
theorem pairwise_partEdits (language : Language) (docs : DocMap) (above : Nat) (parts : List Part) :
    (partEdits language docs above parts).Pairwise fun upper lower => upper.stop < lower.first := by
  induction parts generalizing above with
  | nil => exact .nil
  | cons p parts ih =>
    rw [partEdits, List.pairwise_append]
    refine ⟨?_, ih (above + p.size), ?_⟩
    · cases (p.edit? language docs).map (Edit.shift above) <;> simp
    · intro edit he lower hl
      obtain ⟨own, ho, rfl⟩ := Option.map_eq_some_iff.mp (Option.mem_toList.mp he)
      obtain ⟨-, hs⟩ := edit?_margin ho
      obtain ⟨hf, -, -⟩ := partEdits_bounds hl
      simp only [Edit.shift]
      omega

private theorem foldr_partEdits_stack (language : Language) (docs : DocMap) (parts : List Part)
    (rest above : List Line) :
    (partEdits language docs above.length parts).foldr Edit.apply (above ++ Part.stack parts rest) =
      above ++ Part.stack (parts.map (Part.document language docs)) rest := by
  induction parts generalizing above with
  | nil => rfl
  | cons p parts ih =>
    have hbelow := ih (above ++ p.lines)
    rw [List.length_append, Part.length_lines, List.append_assoc, List.append_assoc] at hbelow
    rw [partEdits, Part.stack_cons, List.foldr_append, hbelow, List.map_cons, Part.stack_cons]
    cases he : p.edit? language docs with
    | none => simp [Part.document_of_edit?_eq_none he]
    | some edit => simp [Part.apply_edit? he]

theorem isSome_edit? (language : Language) (docs : DocMap) (p : Part) (above : Nat) :
    (p.edit? language docs).isSome = hasText docs (p.definition (grammarOf language) above) := by
  rw [Part.edit?, Part.block?, Option.isSome_map, Option.isSome_map, isSome_docLines?]
  rfl

theorem countP_hasText (language : Language) (docs : DocMap) (parts : List Part)
    (above : Nat) :
    (Part.definitions (grammarOf language) above parts).countP (hasText docs) =
      parts.countP fun p => (p.edit? language docs).isSome := by
  induction parts generalizing above with
  | nil => rfl
  | cons p parts ih =>
    rw [Part.definitions, List.countP_cons, List.countP_cons, ih, isSome_edit? language docs p above]

/-- In the unedited file, a definition's documentation is replaced exactly if it has some. -/
private theorem span_lt_iff (language : Language) (parts : List Part) (rest above : List Line)
    {found : Nat × Definition}
    (h : found ∈ withFloors above.length
      (Part.definitions (grammarOf language) above.length parts)) :
    (span language (above ++ Part.stack parts rest) found.1 found.2).1 <
        (span language (above ++ Part.stack parts rest) found.1 found.2).2 ↔
      found.2.existingDoc.isSome := by
  induction parts generalizing above with
  | nil => simp [Part.definitions, withFloors] at h
  | cons p parts ih =>
    rw [Part.definitions, withFloors, List.mem_cons] at h
    rcases h with rfl | h
    · rw [Part.stack_cons, span_part]
      simp only [Part.definition, doc?_lines, Option.isSome_map]
      rw [← place_lt_iff]
      omega
    · have hbelow := ih (above ++ p.lines)
      rw [List.length_append, Part.length_lines, List.append_assoc] at hbelow
      rw [Part.endLine_definition] at h
      rw [Part.stack_cons]
      exact hbelow h

end Insert

namespace Outline
variable {language : Language} (docs : DocMap) (o : Outline (grammarOf language))

theorem edits_lines :
    edits language docs o.lines 0 (Part.definitions (grammarOf language) 0 o.parts) =
      partEdits language docs 0 o.parts :=
  edits_stack language docs o.parts o.rest []

theorem foldr_partEdits :
    (partEdits language docs 0 o.parts).foldr Edit.apply o.lines =
      Part.stack (o.parts.map (Part.document language docs)) o.rest :=
  foldr_partEdits_stack language docs o.parts o.rest []

end Outline

namespace Insert

/-- The file is rewritten at once: the edits found in the unedited lines keep apart and lie within the
file, each replaces lines exactly if its definition was documented, the text is that of the lines in
which all of them are made, and every definition with a text that is not blank counts. -/
theorem document_eq_atOnce (language : Language) (docs : DocMap) (source : String) :
    let lines := linesOf source
    let found := extract language source
    let edits := edits language docs lines 0 found
    edits.Pairwise (fun upper lower => upper.stop < lower.first) ∧
      (∀ edit ∈ edits, edit.first ≤ edit.stop ∧ edit.stop ≤ lines.length) ∧
      (∀ d ∈ withFloors 0 found,
        (span language lines d.1 d.2).1 < (span language lines d.1 d.2).2 ↔
          d.2.existingDoc.isSome) ∧
      (document language docs source).content =
        String.ofList (terminated (endsInNewline source.toList) (Edit.atOnce edits 0 lines)) ∧
      (document language docs source).updated = found.countP (hasText docs) := by
  obtain ⟨o, ho⟩ := Outline.exists_lines_eq (grammarOf_local language) (linesOf source)
  have hfound := o.extract_eq ho
  have hpair := pairwise_partEdits language docs 0 o.parts
  have hwithin : ∀ edit ∈ partEdits language docs 0 o.parts, edit.Within o.lines.length := by
    intro edit he
    obtain ⟨-, hf, hs⟩ := partEdits_bounds he
    simp only [Outline.lines, Part.stack, List.length_append, List.length_nil] at hs ⊢
    exact ⟨hf, by omega⟩
  simp only [hfound, ← ho, Outline.edits_lines]
  refine ⟨hpair, ?_, ?_, ?_, ?_⟩
  · intro edit he
    exact ⟨(hwithin edit he).first_le_stop, (hwithin edit he).stop_le⟩
  · intro d hd
    exact span_lt_iff language o.parts o.rest [] hd
  · rw [Edit.atOnce_eq_foldr (hpair.imp Nat.le_of_lt) hwithin, Outline.foldr_partEdits, document,
      hfound, ← ho, Outline.documentLines_lines]
    rfl
  · rw [document, hfound, ← ho, Outline.documentLines_lines, countP_hasText]

end Insert
end DocComments
