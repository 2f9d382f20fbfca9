import DocComments.Proofs.Insert.Outline
import DocComments.Proofs.Scan.Order

/-! Files one behind the other. Where the last definition of the first file ends with the file, and the
second file cannot go on with its body, both are read and documented each on its own. -/
namespace DocComments
open Text DocComments.Insert

namespace Definition

def shift (n : Nat) (d : Definition) : Definition :=
  { d with startLine := n + d.startLine, endLine := n + d.endLine }

/-- A definition that reaches to the end of its file ends there even if the given lines follow: in
Python the first of them is not blank and not indented, in JavaScript the braces are closed. -/
def EndsBefore (language : Language) (below : List Line) (d : Definition) : Prop :=
  match language with
  | .python => ∀ line ∈ below.head?, allBlank line = false ∧ depth line = 0
  | .javaScript => Scan.JavaScript.balance d.code.toList ≤ 0

end Definition

private theorem Scan.JavaScript.balance_joinLines (lines : List Line) :
    balance (joinLines lines) = balance lines.flatten := by
  induction lines with
  | nil => rfl
  | cons line lines ih =>
    cases lines with
    | nil => simp [joinLines]
    | cons next below =>
      have hbreak (s : List Char) : balance ('\n' :: s) = balance s := by simp [balance]
      rw [joinLines_cons_cons, balance_append, hbreak, ih]
      exact (balance_append line (next :: below).flatten).symm

/-- Below a text that ends in a line feed, the lines of another may be put together with its own. -/
theorem Text.terminated_seam {upper lower : List Char} {above below : List Line}
    (hn : endsInNewline upper) (ha : above ≠ []) (hb : below = [] ↔ lower = []) :
    terminated (endsInNewline (upper ++ lower)) (above ++ below) =
      terminated (endsInNewline upper) above ++ terminated (endsInNewline lower) below := by
  by_cases hl : lower = []
  · obtain rfl := hb.mpr hl
    simp [hl, terminated, joinLines, endsInNewline]
  · rw [endsInNewline_append hl, terminated_append _ ha (mt hb.mp hl), hn]

namespace Part
variable {language : Language}

theorem definitions_shift (g : Grammar) (n above : Nat) (parts : List Part) :
    definitions g (n + above) parts = (definitions g above parts).map (Definition.shift n) := by
  induction parts generalizing above with
  | nil => rfl
  | cons p parts ih =>
    rw [definitions, definitions, Nat.add_assoc, ih, List.map_cons]
    congr 1
    simp [definition, Definition.shift, Nat.add_assoc]

theorem definitions_append (g : Grammar) (above : Nat) (upper lower : List Part) :
    definitions g above (upper ++ lower) =
      definitions g above upper ++ definitions g ((stack upper []).length + above) lower := by
  induction upper generalizing above with
  | nil => rw [stack_nil, List.length_nil, Nat.zero_add]; rfl
  | cons p upper ih =>
    rw [List.cons_append, definitions, definitions, ih, stack_cons, List.length_append, length_lines,
      List.cons_append]
    congr 3
    omega

theorem stack_append (upper lower : List Part) (rest : List Line) :
    stack (upper ++ lower) rest = stack upper [] ++ stack lower rest := by
  simp [stack]

private theorem lines_ne_nil (p : Part) : p.lines ≠ [] := by
  simp [lines]

private theorem stack_eq_nil_iff {parts : List Part} {rest : List Line} :
    stack parts rest = [] ↔ parts = [] ∧ rest = [] := by
  cases parts with
  | nil => simp
  | cons p parts => simp [lines_ne_nil]

/-- Where something follows a part already, more lines further down change nothing. -/
theorem Fits.append {p : Part} {below : List Line} (h : p.Fits (grammarOf language) below)
    (hb : below ≠ []) (more : List Line) : p.Fits (grammarOf language) (below ++ more) where
  gap := h.gap
  header := h.header
  body := by
    cases language with
    | python =>
      exact Scan.Python.bodyLength_congr h.body (fun _ hl => .inl hl) (List.head?_append_of_ne_nil _ hb)
    | javaScript => exact Scan.JavaScript.closingDistance_congr h.body fun he => absurd he hb

/-- The part at the end of a file goes on to fit when lines follow that its definition ends before. -/
theorem Fits.seam {p : Part} (h : p.Fits (grammarOf language) []) {above : Nat} {below : List Line}
    (he : (p.definition (grammarOf language) above).EndsBefore language below) :
    p.Fits (grammarOf language) below where
  gap := h.gap
  header := h.header
  body := by
    cases language with
    | python =>
      obtain ⟨hbody, -⟩ := Scan.Python.bodyLength_eq_iff.mp h.body
      refine Scan.Python.bodyLength_eq_iff.mpr ⟨hbody, fun line hl => ?_⟩
      obtain ⟨hblank, hdepth⟩ := he line hl
      simp [Scan.Python.inBody, hblank, hdepth]
    | javaScript =>
      obtain ⟨hopen, -⟩ := Scan.JavaScript.closingDistance_eq_iff.mp h.body
      refine Scan.JavaScript.closingDistance_eq_iff.mpr ⟨hopen, fun hpos => ?_⟩
      simp only [Definition.EndsBefore, definition, String.toList_ofList,
        Scan.JavaScript.balance_joinLines, List.flatten_cons, Scan.JavaScript.balance_append] at he
      omega

theorem Stacked.append {upper lower : List Part} {p : Part} {rest : List Line}
    (h : Stacked (grammarOf language) (upper ++ [p]) [])
    (hp : p.Fits (grammarOf language) [] → p.Fits (grammarOf language) (stack lower rest))
    (hl : Stacked (grammarOf language) lower rest) :
    Stacked (grammarOf language) (upper ++ p :: lower) rest := by
  induction upper with
  | nil => exact ⟨hp h.1, hl⟩
  | cons q upper ih =>
    refine ⟨?_, ih h.2⟩
    have hne : stack (upper ++ [p]) [] ≠ [] := by simp [stack_eq_nil_iff]
    have hstack : stack (upper ++ p :: lower) rest = stack (upper ++ [p]) [] ++ stack lower rest := by
      rw [← stack_append, List.append_assoc, List.singleton_append]
    change q.Fits _ (stack (upper ++ p :: lower) rest)
    rw [hstack]
    exact h.1.append hne _

end Part

namespace Outline
variable {language : Language}

private theorem lines_document_eq_nil_iff (docs : DocMap) (o : Outline (grammarOf language)) :
    (o.document docs).lines = [] ↔ o.lines = [] := by
  simp [Outline.lines, document, Part.stack_eq_nil_iff]

/-- A file that ends with its last definition is made of parts alone. -/
theorem exists_concat {source : String} {last : Definition}
    (hlast : (extract language source).getLast? = some last)
    (hend : last.endLine = (linesOf source).length) :
    ∃ (upper : List Part) (p : Part), Part.Stacked (grammarOf language) (upper ++ [p]) [] ∧
      Part.stack (upper ++ [p]) [] = linesOf source ∧
      last = p.definition (grammarOf language) (Part.stack upper []).length := by
  obtain ⟨o, ho⟩ := Outline.exists_lines_eq (grammarOf_local language) (linesOf source)
  rw [o.extract_eq ho] at hlast
  have hs := o.stacked
  rw [Outline.lines] at ho
  rcases List.eq_nil_or_concat' o.parts with hnil | ⟨upper, p, hp⟩
  · simp [hnil, Part.definitions] at hlast
  · rw [hp] at hs ho hlast
    rw [Part.definitions_append, Nat.add_zero] at hlast
    obtain rfl : p.definition (grammarOf language) (Part.stack upper []).length = last := by
      simpa [Part.definitions] using hlast
    have hrest : o.rest = [] := by
      have hlen := congrArg List.length ho
      rw [← hend, Part.stack_append, Part.stack_cons] at hlen
      simpa using hlen
    rw [hrest] at hs ho
    exact ⟨upper, p, hs, ho, rfl⟩

end Outline

/-- Reading and documenting are compositional. If a file ends with its last definition, and this ends
before what follows, then of both files together the definitions are those of each, the lower ones moved
by the lines above, and documenting both together comes to documenting each. -/
theorem extract_document_append (language : Language) (upper lower : String) (last : Definition)
    (hn : endsInNewline upper.toList) (hlast : (extract language upper).getLast? = some last)
    (hend : last.endLine = (linesOf upper).length)
    (hseam : last.EndsBefore language (linesOf lower)) :
    extract language (upper ++ lower) = extract language upper ++
        (extract language lower).map (Definition.shift (linesOf upper).length) ∧
      ∀ docs,
        (document language docs (upper ++ lower)).content =
          (document language docs upper).content ++ (document language docs lower).content ∧
        (document language docs (upper ++ lower)).updated =
          (document language docs upper).updated + (document language docs lower).updated := by
  obtain ⟨parts, p, hs, hstack, rfl⟩ := Outline.exists_concat hlast hend
  obtain ⟨below, hbelow⟩ := Outline.exists_lines_eq (grammarOf_local language) (linesOf lower)
  have hlines : linesOf (upper ++ lower) = linesOf upper ++ linesOf lower := by
    rw [linesOf, String.toList_append, lines_append hn]
    rfl
  let above : Outline (grammarOf language) := ⟨parts ++ [p], [], hs⟩
  have habove : above.lines = linesOf upper := hstack
  -- the two outlines one behind the other
  let both : Outline (grammarOf language) := {
    parts := parts ++ p :: below.parts
    rest := below.rest
    stacked := hs.append (fun hp => hp.seam (by rwa [← hbelow] at hseam)) below.stacked }
  have hparts : both.parts = above.parts ++ below.parts := by simp [both, above]
  have hboth : both.lines = linesOf (upper ++ lower) := by
    rw [Outline.lines, hparts, Part.stack_append, hlines, ← habove, ← hbelow]
    rfl
  refine ⟨?_, fun docs => ⟨?_, ?_⟩⟩
  · have hlen : (Part.stack above.parts []).length = (linesOf upper).length := congrArg List.length habove
    rw [both.extract_eq hboth, above.extract_eq habove, below.extract_eq hbelow, hparts,
      Part.definitions_append, hlen, Part.definitions_shift]
  · have hdocumented : (both.document docs).lines =
        (above.document docs).lines ++ (below.document docs).lines := by
      simp only [Outline.lines, Outline.document, hparts, List.map_append, Part.stack_append]
      rfl
    have habove' : (above.document docs).lines ≠ [] := by
      rw [ne_eq, Outline.lines_document_eq_nil_iff, Outline.lines, Part.stack_eq_nil_iff]
      simp [above]
    have hbelow' : (below.document docs).lines = [] ↔ lower.toList = [] := by
      rw [Outline.lines_document_eq_nil_iff, hbelow, linesOf, lines_eq_nil_iff]
    rw [Outline.content_document docs hboth, Outline.content_document docs habove,
      Outline.content_document docs hbelow, hdocumented, ← String.ofList_append, String.toList_append,
      terminated_seam hn habove' hbelow']
  · rw [Outline.updated_document docs hboth, Outline.updated_document docs habove,
      Outline.updated_document docs hbelow, hparts, List.countP_append]

/-- A decorator or a comment at the seam goes with the definition below it. -/
theorem extract_document_append_at_seam :
    let f : Definition :=
      { name := "f", kind := .function, startLine := 1, endLine := 2, code := "def f():\n    pass" }
    let g : Definition :=
      { name := "g", kind := .function, startLine := 1, endLine := 2, code := "function g() \x7b\n\x7d" }
    (endsInNewline "def f():\n    pass\n".toList ∧
      (extract .python "def f():\n    pass\n").getLast? = some f ∧
      f.endLine = (linesOf "def f():\n    pass\n").length ∧
      f.EndsBefore .python (linesOf "@cached\ndef h():\n    '''Old.'''\n") ∧
      (extract .python ("def f():\n    pass\n" ++ "@cached\ndef h():\n    '''Old.'''\n")).map
        (fun d => (d.name, d.startLine, d.decorators)) = [("f", 1, []), ("h", 4, ["cached"])]) ∧
    (endsInNewline "function g() \x7b\n\x7d\n".toList ∧
      (extract .javaScript "function g() \x7b\n\x7d\n").getLast? = some g ∧
      g.endLine = (linesOf "function g() \x7b\n\x7d\n").length ∧
      g.EndsBefore .javaScript (linesOf "/** Old. */\nh() \x7b \x7d") ∧
      (document .javaScript (fun _ => some "New.")
        ("function g() \x7b\n\x7d\n" ++ "/** Old. */\nh() \x7b \x7d")).content =
          "  /**\n   * New.\n   */\nfunction g() \x7b\n\x7d\n  /**\n   * New.\n   */\nh() \x7b \x7d") := by
  intro f g
  have hf : (extract .python "def f():\n    pass\n").getLast? = some f := by decide +kernel
  have hg : (extract .javaScript "function g() \x7b\n\x7d\n").getLast? = some g := by decide +kernel
  have hbelow : f.EndsBefore .python (linesOf "@cached\ndef h():\n    '''Old.'''\n") := by
    rintro line ⟨⟩
    decide
  have hclosed : g.EndsBefore .javaScript (linesOf "/** Old. */\nh() \x7b \x7d") := by
    change Scan.JavaScript.balance _ ≤ 0
    decide
  have hpython := (extract_document_append .python "def f():\n    pass\n" _ f (by decide) hf
    (by decide) hbelow).1
  have hjavaScript := (extract_document_append .javaScript "function g() \x7b\n\x7d\n" _ g (by decide) hg
    (by decide) hclosed).2 (fun _ => some "New.")
  refine ⟨⟨by decide, hf, by decide, hbelow, ?_⟩, by decide, hg, by decide, hclosed, ?_⟩
  · exact (congrArg _ hpython).trans (by decide +kernel)
  · exact hjavaScript.1.trans (by decide +kernel)

end DocComments
