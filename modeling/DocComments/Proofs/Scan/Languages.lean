import DocComments.Proofs.Doc.Located
import DocComments.Proofs.Header.Captured
import DocComments.Proofs.Scan.Outline

/-! The grammars of the two languages: what they tell about a definition is found in its own part, and
when the body of a definition still ends where it did although the lines around it have changed. -/
namespace DocComments
open Text Doc

namespace Part

/-- The lines among which the documentation of the definition stands. -/
def region : Language → Part → List Line
  | .python, p => p.body
  | .javaScript, p => p.gap

def upper : Language → Part → List Line
  | .python, p => p.gap ++ [p.header]
  | .javaScript, _ => []

def lower : Language → Part → List Line
  | .python, _ => []
  | .javaScript, p => p.header :: p.body

theorem lines_eq (language : Language) (p : Part) :
    p.lines = p.upper language ++ (p.region language ++ p.lower language) := by
  cases language <;> simp [lines, region, upper, lower]

end Part

private theorem python_doc?_part (p : Part) (above below : List Line) (floor : Nat) :
    Scan.Python.grammar.doc? (above ++ (p.lines ++ below)) (above.length + p.gap.length)
        (above.length + p.gap.length + p.body.length) floor =
      (located? .python p.body).map (·.text) := by
  have hlines : above ++ (p.lines ++ below) = above ++ p.gap ++ p.header :: (p.body ++ below) := by
    simp [Part.lines]
  have hlen : above.length + p.gap.length = (above ++ p.gap).length := by simp
  simp only [Scan.Python.grammar, hlines, hlen, Docstring.locate?_part, Option.map_map, located?]
  rfl

private theorem javaScript_doc?_part (p : Part) (above below : List Line) (last : Nat) :
    Scan.JavaScript.grammar.doc? (above ++ (p.lines ++ below)) (above.length + p.gap.length) last
        above.length =
      (located? .javaScript p.gap).map (·.text) := by
  have hlines : above ++ (p.lines ++ below) = above ++ (p.gap ++ (p.header :: p.body ++ below)) := by
    simp [Part.lines]
  simp only [Scan.JavaScript.grammar, hlines, Jsdoc.locate?_part, Option.map_map, located?]
  rfl

/-- The documentation of a definition is the one located in its part. -/
theorem doc?_part (language : Language) (p : Part) (above below : List Line) :
    (grammarOf language).doc? (above ++ (p.lines ++ below)) (above.length + p.gap.length)
        (above.length + p.gap.length + p.body.length) above.length =
      (located? language (p.region language)).map (·.text) := by
  cases language with
  | python => exact python_doc?_part p above below above.length
  | javaScript => exact javaScript_doc?_part p above below _

theorem doc?_lines (language : Language) (p : Part) :
    (grammarOf language).doc? p.lines p.gap.length (p.gap.length + p.body.length) 0 =
      (located? language (p.region language)).map (·.text) := by
  have hself := doc?_part language p [] []
  rwa [List.nil_append, List.append_nil, List.length_nil, Nat.zero_add] at hself

private theorem decorators_part (language : Language) (p : Part) (above below : List Line) :
    (grammarOf language).decorators (above ++ (p.lines ++ below)) (above.length + p.gap.length)
        above.length =
      (grammarOf language).decorators p.gap p.gap.length 0 := by
  cases language with
  | python =>
    have htake : (above ++ (p.lines ++ below)).take (above.length + p.gap.length) =
        above ++ p.gap := by
      rw [Part.lines, List.append_assoc, ← List.append_assoc, List.take_left']
      simp
    simp only [grammarOf, Scan.Python.grammar, Scan.Python.decorators]
    rw [htake, List.drop_left, List.take_length, List.drop_zero]
  | javaScript => rfl

theorem decorators_lines (language : Language) (p : Part) :
    (grammarOf language).decorators p.lines p.gap.length 0 =
      (grammarOf language).decorators p.gap p.gap.length 0 := by
  have hself := decorators_part language p [] []
  rwa [List.nil_append, List.append_nil, List.length_nil, Nat.zero_add] at hself

namespace Scan.JavaScript

private theorem closingDistance_le (open_ : Int) (lines : List Line) :
    closingDistance open_ lines ≤ lines.length := by
  induction lines generalizing open_ with
  | nil => exact Nat.le_refl 0
  | cons line rest ih =>
    have := ih (open_ + balance line)
    rw [closingDistance, List.length_cons]
    split <;> omega

theorem balance_append (line line' : Line) : balance (line ++ line') = balance line + balance line' := by
  simp only [balance, List.count_append]
  omega

/-- A body ends on the first line on which the balance is closed. If it is not closed by then, the end
of the file has ended the body. -/
theorem closingDistance_eq_iff {open_ : Int} {body below : List Line} :
    closingDistance open_ (body ++ below) = body.length ↔
      (∀ n < body.length, 0 < open_ + balance (body.take n).flatten) ∧
        (0 < open_ + balance body.flatten → below = []) := by
  induction body generalizing open_ with
  | nil =>
    cases below with
    | nil => simp [closingDistance]
    | cons line rest =>
      rw [List.nil_append, closingDistance]
      split
      · simpa [balance]
      · rename_i hopen
        simpa [balance] using hopen
  | cons line body ih =>
    -- the first line is of the body exactly if the balance before it is open
    have hfirst : 0 < open_ + balance ((line :: body).take 0).flatten ↔ ¬ open_ ≤ 0 := by
      simp [balance]
    have hrest (lines : List Line) :
        open_ + balance (line :: lines).flatten = open_ + balance line + balance lines.flatten := by
      rw [List.flatten_cons, balance_append, Int.add_assoc]
    rw [List.cons_append, closingDistance, List.length_cons]
    split
    · rename_i hclosed
      refine iff_of_false (by simp) fun h => ?_
      exact hfirst.mp (h.1 0 (Nat.succ_pos _)) hclosed
    · rename_i hopen
      rw [Nat.add_right_cancel_iff, ih, hrest]
      refine and_congr_left fun _ => ⟨fun h n hn => ?_, fun h n hn => ?_⟩
      · cases n with
        | zero => exact hfirst.mpr hopen
        | succ n =>
          rw [List.take_succ_cons, hrest]
          exact h n (Nat.lt_of_succ_lt_succ hn)
      · have hlater := h (n + 1) (Nat.succ_lt_succ hn)
        rwa [List.take_succ_cons, hrest] at hlater

/-- A body that ends before some lines ends there whatever they are, unless there were none: then the
end of the file may have ended it. -/
theorem closingDistance_congr {open_ : Int} {body below below' : List Line}
    (h : closingDistance open_ (body ++ below) = body.length) (hb : below = [] → below' = []) :
    closingDistance open_ (body ++ below') = body.length := by
  rw [closingDistance_eq_iff] at h ⊢
  exact ⟨h.1, fun hopen => hb (h.2 hopen)⟩

end Scan.JavaScript

namespace Scan.Python

/-- A body is the longest run of lines that belong to it. -/
theorem bodyLength_eq_iff {header : Line} {body below : List Line} :
    bodyLength header (body ++ below) = body.length ↔
      (∀ line ∈ body, inBody (depth header) line) ∧
        ∀ line ∈ below.head?, inBody (depth header) line = false := by
  rw [bodyLength]
  constructor
  · intro h
    have hall : ∀ line ∈ body, inBody (depth header) line := by
      have hlen : (body.takeWhile (inBody (depth header))).length = body.length := by
        rw [List.takeWhile_append] at h
        split at h
        · assumption
        · exact h
      exact List.takeWhile_eq_self_iff.mp ((List.takeWhile_prefix _).eq_of_length hlen)
    refine ⟨hall, fun line hl => ?_⟩
    obtain ⟨rest, rfl⟩ := List.head?_eq_some_iff.mp hl
    rw [List.takeWhile_append_of_pos hall, List.length_append, List.takeWhile_cons] at h
    split at h
    · simp at h
    · rename_i hnot
      simpa using hnot
  · rintro ⟨hall, hnext⟩
    rw [List.takeWhile_append_of_pos hall]
    cases below with
    | nil => simp
    | cons line rest =>
      have hnot := hnext line rfl
      rw [List.takeWhile_cons_of_neg (by simp [hnot]), List.append_nil]

/-- A body may become any lines that belong to it, if the file goes on below it as before. -/
theorem bodyLength_congr {header : Line} {body body' below below' : List Line}
    (h : bodyLength header (body ++ below) = body.length)
    (hbody : ∀ line ∈ body', line ∈ body ∨ inBody (depth header) line)
    (hb : below'.head? = below.head?) :
    bodyLength header (body' ++ below') = body'.length := by
  rw [bodyLength_eq_iff] at h ⊢
  exact ⟨fun line hl => (hbody line hl).elim (h.1 line) id, hb ▸ h.2⟩

end Scan.Python

/-- Both grammars read every line and look at a definition's own part alone. -/
theorem grammarOf_local (language : Language) : (grammarOf language).Local where
  reads line := exists_header?_eq_ok language line
  bodyLength_le header below := by
    cases language with
    | python => exact (List.takeWhile_prefix _).length_le
    | javaScript => exact Scan.JavaScript.closingDistance_le _ below
  doc? p above below := by rw [doc?_part, doc?_lines]
  decorators p above below := by rw [decorators_part, decorators_lines]

/-- The definitions of a source are those of its outline. -/
theorem Outline.extract_eq {language : Language} (o : Outline (grammarOf language)) {source : String}
    (ho : o.lines = linesOf source) :
    extract language source = Part.definitions (grammarOf language) 0 o.parts := by
  rw [extract, extractWith, scannerOf, ← ho, o.scan_lines (grammarOf_local language)]

end DocComments
