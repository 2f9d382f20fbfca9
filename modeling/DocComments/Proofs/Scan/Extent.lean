import DocComments.Proofs.Scan.Order

/-! Extraction is flat: a definition is reported for every header that lies in no definition reported
before, and it reaches exactly as far as its body does. -/
namespace DocComments
open Text

namespace Definition

/-- In Python, the lines below the header are the longest run of lines that are blank or further in
than the header. -/
def PythonExtent (lines : List Line) (d : Definition) : Prop :=
  ∃ header, lines[d.startLine - 1]? = some header ∧
    (∀ line ∈ (lines.take d.endLine).drop d.startLine, allBlank line ∨ depth header < depth line) ∧
    ∀ line, lines[d.endLine]? = some line → ¬ (allBlank line ∨ depth header < depth line)

/-- In JavaScript, the last line is the first one up to which, from the header on, no more braces open
than close. If there is none, it is the last of the file. -/
def JavaScriptExtent (lines : List Line) (d : Definition) : Prop :=
  let balance (last : Nat) := Scan.JavaScript.balance ((lines.take last).drop (d.startLine - 1)).flatten
  (∀ last, d.startLine ≤ last → last < d.endLine → 0 < balance last) ∧
    (0 < balance d.endLine → d.endLine = lines.length)

/-- The definition covers the lines of its header and its body. -/
structure Extent (language : Language) (lines : List Line) (d : Definition) : Prop where
  one_le_startLine : 1 ≤ d.startLine
  startLine_le_endLine : d.startLine ≤ d.endLine
  endLine_le : d.endLine ≤ lines.length
  body : match language with
    | .python => d.PythonExtent lines
    | .javaScript => d.JavaScriptExtent lines

end Definition

namespace Part

private theorem getElem?_header (p : Part) (above below : List Line) :
    (above ++ (p.lines ++ below))[above.length + p.gap.length]? = some p.header := by
  simp [lines]

private theorem getElem?_below (p : Part) (above below : List Line) :
    (above ++ (p.lines ++ below))[above.length + p.size]? = below.head? := by
  rw [← List.append_assoc, List.getElem?_append_right (by simp), List.head?_eq_getElem?]
  simp

private theorem take_drop_header (p : Part) (above below : List Line) {n : Nat} (hn : n ≤ p.body.length) :
    ((above ++ (p.lines ++ below)).take (above.length + p.gap.length + 1 + n)).drop
      (above.length + p.gap.length) = p.header :: p.body.take n := by
  have hlines : above ++ (p.lines ++ below) = above ++ p.gap ++ (p.header :: (p.body ++ below)) := by
    simp [lines]
  have hlen : above.length + p.gap.length = (above ++ p.gap).length := by simp
  rw [hlines, hlen, Nat.add_assoc, List.take_length_add_append, List.drop_left, Nat.add_comm 1 n,
    List.take_succ_cons, List.take_append_of_le_length hn]

private theorem pythonExtent_definition {p : Part} {below : List Line}
    (hp : p.Fits (grammarOf .python) below) (above : List Line) :
    (p.definition (grammarOf .python) above.length).PythonExtent (above ++ (p.lines ++ below)) := by
  obtain ⟨hbody, hnext⟩ := Scan.Python.bodyLength_eq_iff.mp hp.body
  refine ⟨p.header, ?_, ?_, ?_⟩
  · rw [← getElem?_header p above below]
    rfl
  · intro line hl
    have hlines := take_drop_header p above below (Nat.le_refl _)
    have hend : above.length + p.gap.length + 1 + p.body.length = above.length + p.size := by
      rw [size]
      omega
    rw [List.take_length, hend] at hlines
    have htail := congrArg List.tail hlines
    rw [List.tail_drop, List.tail_cons] at htail
    simp only [definition, htail] at hl
    simpa [Scan.Python.inBody] using hbody line hl
  · intro line hl
    simp only [definition, getElem?_below] at hl
    simpa [Scan.Python.inBody] using hnext line hl

private theorem javaScriptExtent_definition {p : Part} {below : List Line}
    (hp : p.Fits (grammarOf .javaScript) below) (above : List Line) :
    (p.definition (grammarOf .javaScript) above.length).JavaScriptExtent
      (above ++ (p.lines ++ below)) := by
  obtain ⟨hopen, hclosed⟩ := Scan.JavaScript.closingDistance_eq_iff.mp hp.body
  have hbalance {n : Nat} (hn : n ≤ p.body.length) :
      Scan.JavaScript.balance (((above ++ (p.lines ++ below)).take
          (above.length + p.gap.length + 1 + n)).drop (above.length + p.gap.length)).flatten =
        Scan.JavaScript.balance p.header + Scan.JavaScript.balance (p.body.take n).flatten := by
    rw [take_drop_header p above below hn, List.flatten_cons, Scan.JavaScript.balance_append]
  have hend : above.length + p.size = above.length + p.gap.length + 1 + p.body.length := by
    rw [size]
    omega
  constructor
  · intro last hfirst hlast
    simp only [definition] at hfirst hlast
    obtain ⟨n, rfl⟩ := Nat.exists_eq_add_of_le hfirst
    have hn : n < p.body.length := by omega
    simp only [definition, Nat.add_sub_cancel, hbalance hn.le]
    exact hopen n hn
  · simp only [definition, Nat.add_sub_cancel]
    rw [hend, hbalance (Nat.le_refl _), List.take_length]
    intro hpos
    rw [hclosed hpos]
    simp [lines]
    omega

private theorem extent_definition {language : Language} {p : Part} {below : List Line}
    (hp : p.Fits (grammarOf language) below) (above : List Line) :
    (p.definition (grammarOf language) above.length).Extent language
      (above ++ (p.lines ++ below)) where
  one_le_startLine := (fills_definition hp.header above below).one_le_startLine
  startLine_le_endLine := (fills_definition hp.header above below).startLine_le_endLine
  endLine_le := (fills_definition hp.header above below).endLine_le
  body := by
    cases language with
    | python => exact pythonExtent_definition hp above
    | javaScript => exact javaScriptExtent_definition hp above

variable {language : Language}

/-- The body of a part ends in its file where its language ends it. -/
theorem extent_of_mem_definitions {parts : List Part} {rest : List Line}
    (h : Stacked (grammarOf language) parts rest) (above : List Line) :
    ∀ d ∈ definitions (grammarOf language) above.length parts,
      d.Extent language (above ++ stack parts rest) := by
  intro d hd
  obtain ⟨p, upper, lower, hlines, hp, rfl⟩ := exists_of_mem_definitions h above hd
  rw [hlines]
  exact extent_definition hp upper

private theorem mem_gap_of_getElem? {p : Part} {above below : List Line} {n : Nat} {line : Line}
    (hn : above.length ≤ n) (hgap : n < above.length + p.gap.length)
    (hl : (above ++ (p.lines ++ below))[n]? = some line) : line ∈ p.gap := by
  have hlines : p.lines ++ below = p.gap ++ p.header :: (p.body ++ below) := by simp [lines]
  rw [List.getElem?_append_right hn, hlines, List.getElem?_append_left (by omega)] at hl
  exact List.mem_of_getElem? hl

private theorem gap_lt_startLine {g : Grammar} {above : Nat} {p : Part} {parts : List Part} {d : Definition}
    (h : d ∈ definitions g above (p :: parts)) : above + p.gap.length < d.startLine := by
  rw [definitions, List.mem_cons] at h
  rcases h with rfl | h
  · exact Nat.lt_succ_self _
  · have := lt_startLine_of_mem_definitions h
    rw [size] at this
    omega

/-- A definition starts on each header line that no definition above covers. -/
theorem exists_startLine_iff {g : Grammar} {parts : List Part} {rest : List Line}
    (h : Stacked g parts rest) (above : List Line) {n : Nat} {line : Line} (hn : above.length ≤ n)
    (hl : (above ++ stack parts rest)[n]? = some line) :
    (∃ d ∈ definitions g above.length parts, d.startLine = n + 1) ↔
      (∃ head, g.Reads line (some head)) ∧
        ∀ d ∈ definitions g above.length parts, ¬ (d.startLine < n + 1 ∧ n + 1 ≤ d.endLine) := by
  -- by parts: above the header no line is one, the header starts the definition, the body is covered
  induction parts generalizing above with
  | nil =>
    have hmem : line ∈ rest := by
      rw [stack_nil, List.getElem?_append_right hn] at hl
      exact List.mem_of_getElem? hl
    simp [definitions, (h line hmem).not_header]
  | cons p parts ih =>
    rw [stack_cons] at hl
    have hown : p.definition g above.length ∈ definitions g above.length (p :: parts) :=
      List.mem_cons_self
    have hsize : p.size = p.gap.length + 1 + p.body.length := rfl
    rcases Nat.lt_trichotomy n (above.length + p.gap.length) with hlt | rfl | hgt
    · have hnone := h.1.gap line (mem_gap_of_getElem? hn hlt hl)
      refine iff_of_false ?_ fun hr => hnone.not_header hr.1
      rintro ⟨d, hd, hs⟩
      have := gap_lt_startLine hd
      omega
    · rw [getElem?_header, Option.some.injEq] at hl
      subst hl
      refine iff_of_true ⟨_, hown, rfl⟩ ⟨⟨p.head, h.1.header⟩, ?_⟩
      rintro d hd ⟨hs, -⟩
      have := gap_lt_startLine hd
      omega
    · by_cases hbody : n < above.length + p.size
      · refine iff_of_false ?_ fun hr => hr.2 _ hown ?_
        · rintro ⟨d, hd, hs⟩
          rw [definitions, List.mem_cons] at hd
          rcases hd with rfl | hd
          · simp only [definition] at hs
            omega
          · have := lt_startLine_of_mem_definitions hd
            omega
        · simp only [definition]
          omega
      · have hbelow := ih h.2 (above ++ p.lines) (by simpa using hbody) (by simpa using hl)
        rw [List.length_append, length_lines] at hbelow
        rw [definitions, List.exists_mem_cons_iff, List.forall_mem_cons, hbelow]
        simp only [definition]
        have hstart : above.length + p.gap.length ≠ n := by omega
        have hend : ¬ n + 1 ≤ above.length + p.size := by omega
        simp [hstart, hend]

end Part

/-- Extraction is flat and exact. A line starts a definition exactly if it is a header and lies in no
definition that starts above it; no line starts two definitions; and every definition reaches exactly
as far as its body. -/
theorem extract_flat (language : Language) (source : String) :
    let lines := linesOf source
    let found := extract language source
    (∀ n line, lines[n]? = some line →
      ((∃ d ∈ found, d.startLine = n + 1) ↔
        (∃ head, (grammarOf language).Reads line (some head)) ∧
          ∀ d ∈ found, ¬ (d.startLine < n + 1 ∧ n + 1 ≤ d.endLine))) ∧
      found.Pairwise (fun upper lower => upper.startLine < lower.startLine) ∧
      ∀ d ∈ found, d.Extent language lines := by
  obtain ⟨o, ho⟩ := Outline.exists_lines_eq (grammarOf_local language) (linesOf source)
  have hextent := Part.extent_of_mem_definitions o.stacked []
  simp only [o.extract_eq ho, ← ho]
  refine ⟨fun n line hl => ?_, ?_, hextent⟩
  · exact Part.exists_startLine_iff o.stacked [] (Nat.zero_le n) hl
  · refine List.Pairwise.imp_of_mem ?_ (Part.pairwise_definitions _ 0 o.parts)
    intro upper lower hupper _ hlt
    exact Nat.lt_of_le_of_lt (hextent upper hupper).startLine_le_endLine hlt

end DocComments
