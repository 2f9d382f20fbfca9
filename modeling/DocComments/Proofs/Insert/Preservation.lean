import DocComments.Proofs.Insert.Outline
import Mathlib.Data.List.Forall2

/-! Documentation is no code. A documented file has the definitions it had, in their order, moved by the
lines that were added above them. -/
namespace DocComments
open Text Doc DocComments.Insert

namespace Insert

/-- How many lines the edits add that end above the line with the given number. -/
def growthAbove (header : Nat) : List Edit → Int
  | [] => 0
  | edit :: edits => (if edit.stop ≤ header then edit.growth else 0) + growthAbove header edits

theorem growthAbove_append (header : Nat) (edits edits' : List Edit) :
    growthAbove header (edits ++ edits') = growthAbove header edits + growthAbove header edits' := by
  induction edits with
  | nil => simp [growthAbove]
  | cons edit edits ih =>
    rw [List.cons_append, growthAbove, growthAbove, ih]
    omega

private theorem growthAbove_congr {header header' : Nat} {edits : List Edit}
    (h : ∀ edit ∈ edits, edit.stop ≤ header ∧ edit.stop ≤ header') :
    growthAbove header edits = growthAbove header' edits := by
  induction edits with
  | nil => rfl
  | cons edit edits ih =>
    obtain ⟨hs, hs'⟩ := h edit (by simp)
    rw [growthAbove, growthAbove, if_pos hs, if_pos hs', ih fun other ho => h other (by simp [ho])]

private theorem growthAbove_of_lt {header : Nat} {edits : List Edit}
    (h : ∀ edit ∈ edits, header < edit.stop) : growthAbove header edits = 0 := by
  induction edits with
  | nil => rfl
  | cons edit edits ih =>
    have hs := h edit (by simp)
    rw [growthAbove, if_neg (by omega), ih fun other ho => h other (by simp [ho])]
    rfl

end Insert

namespace Part

/-- A part grows by what its edit adds, wherever it stands. -/
theorem size_document (language : Language) (docs : DocMap) (p : Part) (above : Nat) :
    ((p.document language docs).size : Int) = p.size +
      growthAbove (above + p.size) ((p.edit? language docs).map (Edit.shift above)).toList := by
  cases he : p.edit? language docs with
  | none => simp [document_of_edit?_eq_none he, growthAbove]
  | some edit =>
    have hlines := congrArg List.length (apply_edit? he [] [])
    have hlen := Edit.length_apply (edit?_within he)
    have hstop : edit.stop ≤ p.size := by
      have := (edit?_bounds he).2.2
      omega
    simp only [Edit.shift, List.length_nil, Nat.zero_add, List.nil_append, List.append_nil,
      length_lines] at hlines hlen
    simp only [Option.map_some, Option.toList_some, growthAbove, Edit.shift_growth]
    rw [if_pos (by simp only [Edit.shift]; omega), ← hlines, hlen]
    omega

private theorem length_gap_document (language : Language) (docs : DocMap) (p : Part) (above : Nat) :
    ((p.document language docs).gap.length : Int) = p.gap.length +
      growthAbove (above + p.gap.length)
        ((p.edit? language docs).map (Edit.shift above)).toList := by
  cases he : p.edit? language docs with
  | none => simp [document_of_edit?_eq_none he, growthAbove]
  | some edit =>
    obtain ⟨hfirst, hmid, hstop⟩ := edit?_bounds he
    cases language with
    | python =>
      simp only [upper, List.length_append, List.length_singleton] at hfirst
      have hbelow : ¬ (edit.shift above).stop ≤ above + p.gap.length := by
        simp only [Edit.shift]
        omega
      simp [growthAbove, hbelow]
    | javaScript =>
      have hsize := size_document .javaScript docs p above
      simp only [he, Option.map_some, Option.toList_some, growthAbove, Edit.shift, size,
        document_body] at hsize ⊢
      simp only [lower, List.length_cons, size] at hstop
      rw [if_pos (by omega)] at hsize ⊢
      omega

end Part

/-- What a definition keeps when documentation is written into its file. -/
structure SameHeader (before after : Definition) : Prop where
  name : after.name = before.name
  kind : after.kind = before.kind
  parameters : after.parameters = before.parameters
  returnType : after.returnType = before.returnType
  isAsync : after.isAsync = before.isAsync
  decorators : after.decorators = before.decorators

namespace Part

/-- Documentation is written next to a header line, never into it. -/
theorem sameHeader_document (language : Language) (docs : DocMap) (p : Part) (above above' : Nat) :
    SameHeader (p.definition (grammarOf language) above)
      ((p.document language docs).definition (grammarOf language) above') where
  name := by simp [definition]
  kind := by simp [definition]
  parameters := by simp [definition]
  returnType := by simp [definition]
  isAsync := by simp [definition]
  decorators := by
    simp only [definition, decorators_lines]
    cases language with
    | python => rw [document_gap]
    | javaScript => rfl

/-- A JSDoc comment goes above the header, so that the code of the definition does not hold it. -/
theorem code_document (docs : DocMap) (p : Part) (above above' : Nat) :
    ((p.document .javaScript docs).definition (grammarOf .javaScript) above').code =
      (p.definition (grammarOf .javaScript) above).code := by
  simp [definition]

theorem document_of_hasText {language : Language} {docs : DocMap} {p : Part} {above : Nat}
    (h : hasText docs (p.definition (grammarOf language) above) = false) :
    p.document language docs = p := by
  apply document_of_edit?_eq_none
  rwa [← isSome_edit? language docs p above, Option.isSome_eq_false_iff,
    Option.isNone_iff_eq_none] at h

/-- What a definition is after its file has been documented by the given edits: the same, moved by the
lines added above its header, with its code and documentation untouched if it has no text, and its
code untouched in JavaScript. -/
structure Kept (language : Language) (docs : DocMap) (edits : List Edit) (before after : Definition) :
    Prop where
  header : SameHeader before after
  startLine : (after.startLine : Int) =
    before.startLine + growthAbove (before.startLine - 1) edits
  untouched : hasText docs before = false →
    after.code = before.code ∧ after.existingDoc = before.existingDoc
  code : language = .javaScript → after.code = before.code

variable {language : Language} {docs : DocMap}

/-- One definition: `done` are the edits of the parts above, which have made `above` lines `above'`. -/
private theorem kept_document (p : Part) {parts : List Part} {done : List Edit} {above above' : Nat}
    (hd : ∀ edit ∈ done, edit.stop ≤ above)
    (ha : (above' : Int) = above + growthAbove above done) :
    Kept language docs (done ++ partEdits language docs above (p :: parts))
      (p.definition (grammarOf language) above)
      ((p.document language docs).definition (grammarOf language) above') where
  header := sameHeader_document language docs p above above'
  startLine := by
    have hgap := length_gap_document language docs p above
    have hdone : growthAbove (above + p.gap.length) done = growthAbove above done :=
      growthAbove_congr fun edit he => ⟨by have := hd edit he; omega, hd edit he⟩
    have hlower : growthAbove (above + p.gap.length)
        (partEdits language docs (above + p.size) parts) = 0 := by
      apply growthAbove_of_lt
      intro edit he
      obtain ⟨hf, hm, -⟩ := partEdits_bounds he
      rw [size] at hf
      omega
    have hheader : above + p.gap.length + 1 - 1 = above + p.gap.length := by omega
    simp only [definition, partEdits, growthAbove_append, hheader, hdone, hlower]
    omega
  untouched := by
    intro h
    rw [document_of_hasText h]
    exact ⟨rfl, rfl⟩
  code := by
    rintro rfl
    exact code_document docs p above above'

/-- All definitions of a pile of parts, by induction on the parts. -/
private theorem forall₂_kept (parts : List Part) (done : List Edit) (above above' : Nat)
    (hd : ∀ edit ∈ done, edit.stop ≤ above)
    (ha : (above' : Int) = above + growthAbove above done) :
    List.Forall₂ (Kept language docs (done ++ partEdits language docs above parts))
      (definitions (grammarOf language) above parts)
      (definitions (grammarOf language) above' (parts.map (document language docs))) := by
  induction parts generalizing done above above' with
  | nil => exact .nil
  | cons p parts ih =>
    refine .cons (kept_document p hd ha) ?_
    -- below this part its own edit is one of those that are done
    let own := ((p.edit? language docs).map (Edit.shift above)).toList
    have hown : ∀ edit ∈ done ++ own, edit.stop ≤ above + p.size := by
      intro edit he
      rcases List.mem_append.mp he with he | he
      · have := hd edit he
        omega
      · obtain ⟨inner, hi, rfl⟩ := Option.map_eq_some_iff.mp (Option.mem_toList.mp he)
        have := (edit?_bounds hi).2.2
        simp only [Edit.shift]
        omega
    have hgrow : growthAbove (above + p.size) done = growthAbove above done :=
      growthAbove_congr fun edit he => ⟨by have := hd edit he; omega, hd edit he⟩
    have hsize := size_document language docs p above
    have hmoved : ((above' + (p.document language docs).size : Nat) : Int) =
        (above + p.size : Nat) + growthAbove (above + p.size) (done ++ own) := by
      rw [growthAbove_append, hgrow]
      simp only [own]
      omega
    have hbelow := ih (done ++ own) (above + p.size) _ hown hmoved
    rwa [List.append_assoc] at hbelow

end Part

/-- Writing documentation never changes what is seen as code: of a source whose lines are read back,
each definition is found again in its place. -/
theorem extract_document (language : Language) (docs : DocMap) (source : String)
    (hr : ∀ line ∈ linesOf source, line.getLast? ≠ some '\r') :
    let found := extract language source
    List.Forall₂ (Part.Kept language docs (edits language docs (linesOf source) 0 found)) found
      (extract language (document language docs source).content) := by
  obtain ⟨o, ho⟩ := Outline.exists_lines_eq (grammarOf_local language) (linesOf source)
  rw [o.extract_eq ho, (o.document docs).extract_eq (o.linesOf_content docs ho hr), ← ho]
  simp only [Outline.edits_lines]
  exact Part.forall₂_kept o.parts [] 0 0 (by simp) rfl

/-- Text that reads like code is not taken for code: the class is still the second definition, four
lines further down. -/
theorem extract_document_code_in_text :
    (∀ line ∈ linesOf "@cached\ndef f(a):\n    return a\nclass B:\n    pass\n",
      line.getLast? ≠ some '\r') ∧
      List.Forall₂
        (Part.Kept .python (fun _ => some "def g():\n@cached")
          (edits .python (fun _ => some "def g():\n@cached")
            (linesOf "@cached\ndef f(a):\n    return a\nclass B:\n    pass\n") 0
            (extract .python "@cached\ndef f(a):\n    return a\nclass B:\n    pass\n")))
        (extract .python "@cached\ndef f(a):\n    return a\nclass B:\n    pass\n")
        (extract .python (document .python (fun _ => some "def g():\n@cached")
          "@cached\ndef f(a):\n    return a\nclass B:\n    pass\n").content) ∧
      (extract .python (document .python (fun _ => some "def g():\n@cached")
        "@cached\ndef f(a):\n    return a\nclass B:\n    pass\n").content).map
          (fun d => (d.name, d.startLine, d.decorators)) =
        [("f", 2, ["cached"]), ("B", 8, [])] := by
  have hr : ∀ line ∈ linesOf "@cached\ndef f(a):\n    return a\nclass B:\n    pass\n",
      line.getLast? ≠ some '\r' := by decide
  exact ⟨hr, extract_document .python (fun _ => some "def g():\n@cached") _ hr, by decide +kernel⟩

end DocComments
