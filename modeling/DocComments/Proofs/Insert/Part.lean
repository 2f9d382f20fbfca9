import DocComments.Proofs.Insert.Edit
import DocComments.Proofs.Scan.Languages

/-! Documentation written part by part. Every definition is edited within its own part, so that writing
into a file from the lowest definition up writes into each part of its outline on its own. -/
namespace DocComments
open Text Doc DocComments.Insert

namespace Insert

/-- Where documentation goes that replaces none: next to the header. -/
def home : Language → List Line → Nat
  | .python, _ => 0
  | .javaScript, region => region.length

def place (language : Language) (region : List Line) : Nat × Nat :=
  match located? language region with
  | some block => (block.first, block.last + 1)
  | none => (home language region, home language region)

def regionEdit (language : Language) (region block : List Line) : Edit where
  first := (place language region).1
  stop := (place language region).2
  block := block

theorem regionEdit_within (language : Language) (region block : List Line) :
    (regionEdit language region block).Within region.length := by
  rw [regionEdit, place]
  cases h : located? language region with
  | some found =>
    have := located?_bounds h
    exact ⟨by simp only; omega, by simp only; omega⟩
  | none => cases language <;> exact ⟨Nat.le_refl _, by simp [home]⟩

theorem place_lt_iff (language : Language) (region : List Line) :
    (place language region).1 < (place language region).2 ↔ (located? language region).isSome := by
  rw [place]
  cases h : located? language region with
  | some found =>
    have := located?_bounds h
    simp only [Option.isSome_some, iff_true]
    omega
  | none => simp

private theorem isSkipped_of_mem_take {body : List Line} {line : Line}
    (h : line ∈ body.take (place .python body).1) : Docstring.isSkipped line := by
  rw [place] at h
  cases hl : located? .python body with
  | none => simp [hl, home] at h
  | some block =>
    have hcut : body.takeWhile Docstring.isSkipped = body.take block.first := by
      rw [(Docstring.atHead?_bounds hl).1]
      exact List.prefix_iff_eq_take.mp (List.takeWhile_prefix _)
    rw [hl, ← hcut] at h
    simpa using List.all_eq_true.mp (List.all_takeWhile ..) line h

private theorem drop_place (gap : List Line) : gap.drop (place .javaScript gap).2 = [] := by
  rw [place]
  cases hl : located? .javaScript gap with
  | none => simp [home]
  | some block => simp [(Jsdoc.inGap?_bounds hl).2]

/-- Where a block ends up in its region: in Python with nothing but blank lines and comments above it,
in JavaScript with nothing below it. -/
theorem exists_regionEdit_apply (language : Language) (region block : List Line) :
    ∃ before after, (regionEdit language region block).apply region = before ++ (block ++ after) ∧
      before.length = (place language region).1 ∧
      (language = .python → ∀ line ∈ before, Docstring.isSkipped line) ∧
      (language = .javaScript → after = []) := by
  refine ⟨region.take (place language region).1, region.drop (place language region).2, ?_, ?_, ?_, ?_⟩
  · simp [regionEdit, Edit.apply]
  · have hle : (place language region).1 ≤ region.length :=
      (regionEdit_within language region block).first_le
    rw [List.length_take, Nat.min_eq_left hle]
  · rintro rfl line hl
    exact isSkipped_of_mem_take hl
  · rintro rfl
    exact drop_place region

/-- In the whole file, the documentation of a definition is replaced where it is located in its part. -/
theorem span_part (language : Language) (p : Part) (above below : List Line) :
    span language (above ++ (p.lines ++ below)) above.length
        (p.definition (grammarOf language) above.length) =
      (above.length + ((p.upper language).length + (place language (p.region language)).1),
        above.length + ((p.upper language).length + (place language (p.region language)).2)) := by
  cases language with
  | python =>
    have hlines : above ++ (p.lines ++ below) = above ++ p.gap ++ p.header :: (p.body ++ below) := by
      simp [Part.lines]
    have hheader : above.length + p.gap.length + 1 - 1 = (above ++ p.gap).length := by simp
    have hlast : above.length + p.size - 1 = (above ++ p.gap).length + p.body.length := by
      simp [Part.size]
      omega
    simp only [span, Part.definition, hheader, hlast, hlines, Docstring.locate?_part, place, located?,
      Part.region, Part.upper]
    cases Docstring.inBody? p.body with
    | none => simp [home]; omega
    | some block => simp [Block.shift]; omega
  | javaScript =>
    have hlines : above ++ (p.lines ++ below) =
        above ++ (p.gap ++ (p.header :: p.body ++ below)) := by
      simp [Part.lines]
    have hheader : above.length + p.gap.length + 1 - 1 = above.length + p.gap.length := by omega
    simp only [span, Part.definition, hheader, hlines, Jsdoc.locate?_part, place, located?,
      Part.region, Part.upper]
    cases Jsdoc.inGap? p.gap with
    | none => simp [home]
    | some block => simp [Block.shift]; omega

end Insert

namespace Part

def withRegion : Language → Part → List Line → Part
  | .python, p, region => { p with body := region }
  | .javaScript, p, region => { p with gap := region }

/-- The block that is written into the part, if there is a text for its name. -/
def block? (language : Language) (docs : DocMap) (p : Part) : Option (List Line) :=
  (docLines? docs (p.definition (grammarOf language) 0)).map (blockFor language p.header)

def edit? (language : Language) (docs : DocMap) (p : Part) : Option Edit :=
  (p.block? language docs).map fun block =>
    (regionEdit language (p.region language) block).shift (p.upper language).length

def document (language : Language) (docs : DocMap) (p : Part) : Part :=
  match p.block? language docs with
  | some block => p.withRegion language ((regionEdit language (p.region language) block).apply
      (p.region language))
  | none => p

theorem document_of_some {language : Language} {docs : DocMap} {p : Part} {block : List Line}
    (h : p.block? language docs = some block) :
    p.document language docs =
      p.withRegion language ((regionEdit language (p.region language) block).apply
        (p.region language)) := by
  rw [document, h]

theorem document_of_none {language : Language} {docs : DocMap} {p : Part}
    (h : p.block? language docs = none) : p.document language docs = p := by
  rw [document, h]

theorem lines_withRegion (language : Language) (p : Part) (region : List Line) :
    (p.withRegion language region).lines = p.upper language ++ (region ++ p.lower language) := by
  cases language <;> simp [lines, withRegion, upper, lower]

theorem edit?_within {language : Language} {docs : DocMap} {p : Part} {edit : Edit}
    (h : p.edit? language docs = some edit) : edit.Within p.lines.length := by
  obtain ⟨block, -, rfl⟩ := Option.map_eq_some_iff.mp h
  obtain ⟨hf, hs⟩ := regionEdit_within language (p.region language) block
  rw [lines_eq language p, List.length_append, List.length_append]
  exact ⟨by simpa [Edit.shift] using hf, by simp only [Edit.shift]; omega⟩

/-- The edit of a part, made in the file, documents the part. -/
theorem apply_edit? {language : Language} {docs : DocMap} {p : Part} {edit : Edit}
    (h : p.edit? language docs = some edit) (above below : List Line) :
    (edit.shift above.length).apply (above ++ (p.lines ++ below)) =
      above ++ ((p.document language docs).lines ++ below) := by
  rw [Edit.apply_shift (edit?_within h)]
  obtain ⟨block, hb, rfl⟩ := Option.map_eq_some_iff.mp h
  rw [document_of_some hb, lines_withRegion]
  rw [← Edit.apply_shift (regionEdit_within language _ block), ← lines_eq]

theorem document_of_edit?_eq_none {language : Language} {docs : DocMap} {p : Part}
    (h : p.edit? language docs = none) : p.document language docs = p := by
  exact document_of_none (Option.map_eq_none_iff.mp h)

/-- In the whole file, a definition is edited as its part is. -/
theorem edit?_part (language : Language) (docs : DocMap) (p : Part) (above below : List Line) :
    Insert.edit? language docs (above ++ (p.lines ++ below)) above.length
        (p.definition (grammarOf language) above.length) =
      (p.edit? language docs).map (Edit.shift above.length) := by
  have hheader : (above ++ (p.lines ++ below)).getD (above.length + p.gap.length + 1 - 1) [] =
      p.header := by
    simp [lines, List.getD_eq_getElem?_getD]
  have hname : docLines? docs (p.definition (grammarOf language) above.length) =
      docLines? docs (p.definition (grammarOf language) 0) := rfl
  rw [Insert.edit?, edit?, block?, span_part, hname]
  simp only [definition, hheader, Option.map_map]
  rfl

end Part

namespace Insert

/-- Writing into a file from the lowest definition up documents each of its parts. -/
theorem documentLines_stack (language : Language) (docs : DocMap) (parts : List Part)
    (rest above : List Line) :
    documentLines language docs (above ++ Part.stack parts rest) above.length
        (Part.definitions (grammarOf language) above.length parts) =
      (above ++ Part.stack (parts.map (Part.document language docs)) rest,
        parts.countP fun p => (p.edit? language docs).isSome) := by
  induction parts generalizing above with
  | nil => rfl
  | cons p parts ih =>
    have hbelow := ih (above ++ p.lines)
    rw [List.length_append, Part.length_lines, List.append_assoc, List.append_assoc] at hbelow
    rw [Part.stack_cons, Part.definitions, documentLines, Part.endLine_definition, hbelow]
    simp only [Part.edit?_part, List.map_cons, Part.stack_cons, List.countP_cons]
    cases he : p.edit? language docs with
    | none => simp [Part.document_of_edit?_eq_none he]
    | some edit => simp [Part.apply_edit? he]

end Insert

/-- Writing from the bottom upward documents every part of a file by itself. -/
theorem Outline.documentLines_lines {language : Language} (docs : DocMap)
    (o : Outline (grammarOf language)) :
    documentLines language docs o.lines 0 (Part.definitions (grammarOf language) 0 o.parts) =
      (Part.stack (o.parts.map (Part.document language docs)) o.rest,
        o.parts.countP fun p => (p.edit? language docs).isSome) :=
  documentLines_stack language docs o.parts o.rest []

end DocComments
