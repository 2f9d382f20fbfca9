import DocComments.Proofs.Insert.Block
import DocComments.Proofs.Insert.Simultaneous
import Mathlib.Data.List.Forall2

/-! The outline of a documented file. It is the outline of the file before with each part documented,
and the text that is written is read back as its lines, so that a scan finds the same definitions. -/
namespace DocComments
open Text Doc DocComments.Insert

namespace Part
variable {language : Language} {docs : DocMap}

@[simp] theorem withRegion_header (p : Part) (region : List Line) :
    (p.withRegion language region).header = p.header := by
  cases language <;> rfl

@[simp] theorem withRegion_head (p : Part) (region : List Line) :
    (p.withRegion language region).head = p.head := by
  cases language <;> rfl

@[simp] theorem withRegion_region (p : Part) (region : List Line) :
    (p.withRegion language region).region language = region := by
  cases language <;> rfl

@[simp] theorem document_header (p : Part) : (p.document language docs).header = p.header := by
  rw [document]
  split <;> simp

@[simp] theorem document_head (p : Part) : (p.document language docs).head = p.head := by
  rw [document]
  split <;> simp

@[simp] theorem document_gap (p : Part) : (p.document .python docs).gap = p.gap := by
  rw [document]
  split <;> rfl

@[simp] theorem document_body (p : Part) : (p.document .javaScript docs).body = p.body := by
  rw [document]
  split <;> rfl

/-- The block of a part is that of the normal form of a text. -/
theorem exists_of_block? {p : Part} {block : List Line} (h : p.block? language docs = some block) :
    ∃ text, docs (String.ofList p.head.name) = some text ∧
      block = blockFor language p.header (normalLines text.toList) := by
  obtain ⟨doc, hd, rfl⟩ := Option.map_eq_some_iff.mp h
  rw [docLines?] at hd
  cases ht : docs (String.ofList p.head.name) with
  | none => simp [definition, ht] at hd
  | some text =>
    refine ⟨text, rfl, ?_⟩
    simp only [definition, ht, Option.map_some] at hd
    split at hd
    · rename_i line rest hl
      rw [Option.some.inj hl, ← Option.some.inj hd]
    · cases hd

/-- A documented part has of each line what it had, or a line of the block. -/
theorem mem_document_region {p : Part} {line : Line}
    (h : line ∈ (p.document language docs).region language) :
    line ∈ p.region language ∨ ∃ doc, line ∈ blockFor language p.header doc := by
  cases hb : p.block? language docs with
  | none =>
    rw [document_of_none hb] at h
    exact .inl h
  | some block =>
    obtain ⟨text, -, rfl⟩ := exists_of_block? hb
    rw [document_of_some hb, withRegion_region] at h
    exact (Edit.mem_apply h).symm.imp id fun hl => ⟨_, hl⟩

/-- What may change below a part without the end of its body changing: anything but the line that ends
a Python body, and anything that does not bring lines behind the end of a JavaScript file. -/
def Follows : Language → List Line → List Line → Prop
  | .python, below, below' => below'.head? = below.head?
  | .javaScript, below, below' => below = [] → below' = []

private theorem follows_stack (parts : List Part) (rest : List Line) :
    Follows language (stack parts rest) (stack (parts.map (document language docs)) rest) := by
  cases parts with
  | nil => cases language <;> simp [Follows]
  | cons p parts =>
    cases language with
    | python => simp [Follows, lines]
    | javaScript => simp [Follows, lines]

theorem Fits.document {p : Part} {below below' : List Line} (h : p.Fits (grammarOf language) below)
    (hb : Follows language below below') :
    (p.document language docs).Fits (grammarOf language) below' where
  gap line hl := by
    cases language with
    | python => exact h.gap line (by simpa using hl)
    | javaScript =>
      have hregion : line ∈ (p.document .javaScript docs).region .javaScript := hl
      rcases mem_document_region hregion with hl | ⟨doc, hl⟩
      · exact h.gap line hl
      · exact header?_of_mem_block hl
  header := by simpa using h.header
  body := by
    cases language with
    | python =>
      rw [document_header]
      refine Scan.Python.bodyLength_congr h.body (fun line hl => ?_) hb
      have hregion : line ∈ (p.document .python docs).region .python := hl
      exact (mem_document_region hregion).imp_right fun ⟨doc, hl⟩ => inBody_of_mem_block hl
    | javaScript =>
      rw [document_header, document_body]
      exact Scan.JavaScript.closingDistance_congr h.body hb

/-- Documenting every part keeps the parts fitting on each other. -/
theorem stacked_document {parts : List Part} {rest : List Line}
    (h : Stacked (grammarOf language) parts rest) :
    Stacked (grammarOf language) (parts.map (document language docs)) rest := by
  induction parts with
  | nil => exact h
  | cons p parts ih => exact ⟨h.1.document (follows_stack parts rest), ih h.2⟩

/-- What relates a definition to what it is once it is documented, wherever its part stands, relates the
definitions of parts to what they are then. -/
theorem forall₂_definitions {related : Definition → Definition → Prop}
    (h : ∀ (p : Part) (above above' : Nat), related (p.definition (grammarOf language) above)
      ((p.document language docs).definition (grammarOf language) above'))
    (parts : List Part) (above above' : Nat) :
    List.Forall₂ related (definitions (grammarOf language) above parts)
      (definitions (grammarOf language) above' (parts.map (document language docs))) := by
  induction parts generalizing above above' with
  | nil => exact .nil
  | cons p parts ih => exact .cons (h p above above') (ih _ _)

end Part

namespace Outline
variable {language : Language}

def document (docs : DocMap) (o : Outline (grammarOf language)) : Outline (grammarOf language) where
  parts := o.parts.map (Part.document language docs)
  rest := o.rest
  stacked := Part.stacked_document o.stacked

/-- The text that is written is that of the documented outline. -/
theorem content_document (docs : DocMap) {source : String} {o : Outline (grammarOf language)}
    (ho : o.lines = linesOf source) :
    (DocComments.document language docs source).content =
      String.ofList (terminated (endsInNewline source.toList) (o.document docs).lines) := by
  rw [DocComments.document, o.extract_eq ho, ← ho, documentLines_lines]
  rfl

theorem updated_document (docs : DocMap) {source : String} {o : Outline (grammarOf language)}
    (ho : o.lines = linesOf source) :
    (DocComments.document language docs source).updated =
      o.parts.countP fun p => (p.edit? language docs).isSome := by
  rw [DocComments.document, o.extract_eq ho, ← ho, documentLines_lines]

end Outline

/-- The count tells how many definitions have a text that is not blank, whatever stands in the source. -/
theorem updated_eq_countP (language : Language) (docs : DocMap) (source : String) :
    (document language docs source).updated = (extract language source).countP (hasText docs) := by
  obtain ⟨o, ho⟩ := Outline.exists_lines_eq (grammarOf_local language) (linesOf source)
  rw [Outline.updated_document docs ho, o.extract_eq ho, countP_hasText]

/-- An edit with a proper block leaves lines that are read back. -/
theorem Text.ReadBack.apply {newline : Bool} {lines : List Line} {edit : Edit}
    (h : ReadBack newline lines) (hp : ∀ line ∈ edit.block, Plain line) (hn : edit.block ≠ [])
    (hl : edit.block.getLast? ≠ some []) : ReadBack newline (edit.apply lines) where
  plain line hm := (Edit.mem_apply hm).elim (hp line) (h.plain line)
  ne_nil _ := by simp [Edit.apply, hn]
  last hnewline := Edit.getLast?_apply hl hn (h.last hnewline)

namespace Insert
variable {language : Language} {docs : DocMap}

private theorem exists_of_mem_partEdits {above : Nat} {parts : List Part} {edit : Edit}
    (h : edit ∈ partEdits language docs above parts) :
    ∃ (header : Line) (text : List Char),
      edit.block = blockFor language header (normalLines text) := by
  induction parts generalizing above with
  | nil => simp [partEdits] at h
  | cons p parts ih =>
    rcases mem_partEdits_cons.mp h with ⟨own, ho, rfl⟩ | h
    · obtain ⟨block, hb, rfl⟩ := Option.map_eq_some_iff.mp ho
      obtain ⟨text, -, rfl⟩ := Part.exists_of_block? hb
      exact ⟨_, _, rfl⟩
    · exact ih h

private theorem readBack_foldr {newline : Bool} {lines : List Line} {edits : List Edit}
    (h : ReadBack newline lines)
    (he : ∀ edit ∈ edits, ∃ (header : Line) (text : List Char),
      edit.block = blockFor language header (normalLines text)) :
    ReadBack newline (edits.foldr Edit.apply lines) := by
  induction edits with
  | nil => exact h
  | cons edit edits ih =>
    obtain ⟨header, text, hb⟩ := he edit (by simp)
    have ih := ih fun other ho => he other (by simp [ho])
    refine ih.apply ?_ ?_ ?_
    · intro line hl
      rw [hb] at hl
      exact plain_blockFor (fun source hs => plain_of_mem_normalLines hs) hl
    · rw [hb]
      exact blockFor_ne_nil language header _
    · rw [hb]
      exact getLast?_blockFor language header _

end Insert

namespace Outline
variable {language : Language} {source : String} {o : Outline (grammarOf language)}

private theorem readBack_document (docs : DocMap) (ho : o.lines = linesOf source)
    (hr : ∀ line ∈ linesOf source, line.getLast? ≠ some '\r') :
    ReadBack (endsInNewline source.toList) (o.document docs).lines := by
  have hread := readBack_lines hr
  rw [Outline.lines, document, ← foldr_partEdits]
  refine readBack_foldr ?_ fun edit he => exists_of_mem_partEdits he
  rw [ho]
  exact hread

theorem linesOf_content (docs : DocMap) (ho : o.lines = linesOf source)
    (hr : ∀ line ∈ linesOf source, line.getLast? ≠ some '\r') :
    (o.document docs).lines = linesOf (DocComments.document language docs source).content := by
  rw [content_document docs ho, linesOf, String.toList_ofList,
    lines_terminated (readBack_document docs ho hr)]

theorem endsInNewline_content (docs : DocMap) (ho : o.lines = linesOf source)
    (hr : ∀ line ∈ linesOf source, line.getLast? ≠ some '\r') :
    endsInNewline (DocComments.document language docs source).content.toList =
      endsInNewline source.toList := by
  rw [content_document docs ho, String.toList_ofList,
    endsInNewline_terminated (readBack_document docs ho hr)]

end Outline

/-- What relates each part to the part with its documentation relates the definitions found before and after,
one by one: no definition is lost, and none is found in what was written. -/
theorem forall₂_extract_document {language : Language} {docs : DocMap} {source : String}
    (hr : ∀ line ∈ linesOf source, line.getLast? ≠ some '\r') {related : Definition → Definition → Prop}
    (h : ∀ (p : Part) (above above' : Nat), related (p.definition (grammarOf language) above)
      ((p.document language docs).definition (grammarOf language) above')) :
    List.Forall₂ related (extract language source)
      (extract language (document language docs source).content) := by
  obtain ⟨o, ho⟩ := Outline.exists_lines_eq (grammarOf_local language) (linesOf source)
  rw [o.extract_eq ho, (o.document docs).extract_eq (o.linesOf_content docs ho hr)]
  exact Part.forall₂_definitions h o.parts 0 0

end DocComments
