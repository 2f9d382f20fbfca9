import DocComments.Proofs.Header.Signature
import DocComments.Proofs.Scan.Order
import Mathlib.Data.List.Forall2

/-! Decorators. The decorators of a definition are the names on the longest run of decorator lines directly
above its header that starts below the definition found before it. No definition covers a line of such a run, no
two definitions share one, and all else about a definition is found as if there were no decorators. -/
namespace DocComments
open Text

namespace Header.Python
open Parameters

/-- What the name of a decorator consists of: it may hold dots. -/
def isDottedPart (c : Char) : Bool :=
  isWord c || c == '.'

/-- A decorator line: behind its indentation an at sign and a name, which reaches as far as a name can. -/
def IsDecorator (line : Line) (name : List Char) : Prop :=
  ∃ indent tail, line = indent ++ '@' :: (name ++ tail) ∧ (∀ c ∈ indent, isIndent c) ∧
    IsName isNameStart isDottedPart name ∧ ∀ c ∈ tail.head?, isDottedPart c = false

private theorem decorator?_eq_some_iff {line : Line} {name : List Char} :
    decorator? line = some name ↔ IsDecorator line name := by
  constructor
  · intro h
    rw [decorator?] at h
    split at h
    · rename_i s hs
      obtain ⟨⟨found, tail⟩, hread, rfl⟩ := Option.map_eq_some_iff.mp h
      obtain ⟨rfl, hname, htail⟩ := name?_eq_some_iff.mp hread
      refine ⟨indentation line, tail, ?_, fun c hc => isIndent_of_mem_indentation hc, hname, htail⟩
      rw [← hs, indentation_append_afterIndent]
    · simp at h
  · rintro ⟨indent, tail, rfl, hindent, hname, htail⟩
    have hafter : afterIndent (indent ++ '@' :: (name ++ tail)) = '@' :: (name ++ tail) :=
      afterIndent_append hindent _
    have hread : name? isNameStart (fun c => isWord c || c == '.') (name ++ tail) = some (name, tail) :=
      name?_eq_some_iff.mpr ⟨rfl, hname, htail⟩
    rw [decorator?, hafter]
    simp only [hread, Option.map_some]

end Header.Python

namespace Scan.Python
open Header.Python

/-- Lines end in their decorators: the names found from the bottom stand on the last lines, and the line above
these is no decorator. -/
theorem exists_decorators (lines : List Line) :
    ∃ upper run, lines = upper ++ run ∧
      List.Forall₂ IsDecorator run (decorators lines lines.length 0) ∧
      ∀ line ∈ upper.getLast?, ∀ name, ¬ IsDecorator line name := by
  rw [decorators, List.take_length, List.drop_zero]
  induction lines using List.reverseRecOn with
  | nil => exact ⟨[], [], rfl, .nil, by simp⟩
  | append_singleton lines line ih =>
    obtain ⟨upper, run, hlines, hrun, hupper⟩ := ih
    rw [List.reverse_concat, leadingDecorators]
    cases h : decorator? line with
    | none =>
      refine ⟨lines ++ [line], [], by simp, .nil, ?_⟩
      intro last hlast name hname
      obtain rfl : line = last := by simpa using hlast
      rw [decorator?_eq_some_iff.mpr hname] at h
      cases h
    | some name =>
      refine ⟨upper, run ++ [line], by rw [hlines, List.append_assoc], ?_, hupper⟩
      simp only [List.reverse_cons]
      exact List.rel_append hrun (.cons (decorator?_eq_some_iff.mp h) .nil)

end Scan.Python

/-! ## Definitions -/

namespace Definition
open Header.Python

def linesAbove (lines : List Line) (d : Definition) (n : Nat) : List Line :=
  (lines.take (d.startLine - 1)).drop (d.startLine - 1 - n)

/-- Whether the line of the given number is one of those with the decorators of the definition. -/
def OnDecorators (d : Definition) (n : Nat) : Prop :=
  d.startLine ≤ n + d.decorators.length ∧ n < d.startLine

/-- The decorators are the names on the longest run of decorator lines directly above the header that starts
below the line with the number `floor`. -/
structure Decorated (lines : List Line) (floor : Nat) (d : Definition) : Prop where
  floor_lt : floor + d.decorators.length < d.startLine
  names : List.Forall₂ (fun line name => IsDecorator line name.toList)
    (d.linesAbove lines d.decorators.length) d.decorators
  longest : ∀ n, floor + n < d.startLine → (∀ line ∈ d.linesAbove lines n, ∃ name, IsDecorator line name) →
    n ≤ d.decorators.length

end Definition

namespace Part

private theorem linesAbove_definition (g : Grammar) (p : Part) (above below : List Line) (n : Nat) :
    (p.definition g above.length).linesAbove (above ++ (p.lines ++ below)) n =
      (above ++ p.gap).drop (above.length + p.gap.length - n) := by
  have hlines : above ++ (p.lines ++ below) = above ++ p.gap ++ (p.header :: p.body ++ below) := by
    simp [lines]
  simp only [Definition.linesAbove, definition, Nat.add_sub_cancel]
  rw [hlines, List.take_left' (by simp)]

private theorem decorated_definition (p : Part) (above below : List Line) :
    (p.definition (grammarOf .python) above.length).Decorated (above ++ (p.lines ++ below)) above.length := by
  obtain ⟨upper, run, hgap, hrun, hupper⟩ := Scan.Python.exists_decorators p.gap
  have hdecorators : (p.definition (grammarOf .python) above.length).decorators =
      (Scan.Python.decorators p.gap p.gap.length 0).map String.ofList := by
    simp only [definition, decorators_lines]
    rfl
  have hcount : (p.definition (grammarOf .python) above.length).decorators.length = run.length := by
    rw [hdecorators, List.length_map, hrun.length_eq]
  have hlength : p.gap.length = upper.length + run.length := by rw [hgap, List.length_append]
  refine ⟨?_, ?_, fun n hn hall => ?_⟩
  · rw [hcount]
    simp only [definition]
    omega
  · have hdrop : (above ++ p.gap).drop (above.length + p.gap.length - run.length) = run := by
      rw [hgap, ← List.append_assoc]
      exact List.drop_left' (by simp; omega)
    rw [linesAbove_definition, hcount, hdrop, hdecorators, List.forall₂_map_right_iff]
    simpa only [String.toList_ofList] using hrun
  · rw [hcount]
    by_contra hlt
    simp only [definition] at hn
    -- a longer run would take the line above the decorators
    rcases List.eq_nil_or_concat upper with rfl | ⟨rest, last, rfl⟩
    · simp only [List.length_nil] at hlength
      omega
    · rw [List.concat_eq_append] at *
      rw [List.length_append, List.length_singleton] at hlength
      have hfile : above ++ p.gap = above ++ rest ++ ([last] ++ run) := by simp [hgap]
      have hmem : last ∈ (p.definition (grammarOf .python) above.length).linesAbove
          (above ++ (p.lines ++ below)) n := by
        rw [linesAbove_definition, hfile, List.drop_append_of_le_length (by rw [List.length_append]; omega)]
        simp
      obtain ⟨name, hname⟩ := hall last hmem
      exact hupper last (by simp) name hname

end Part

/-! ## No decorators -/

namespace Grammar

/-- The grammar of a language that is the same, but has no decorators. -/
def withoutDecorators (g : Grammar) : Grammar :=
  { g with decorators := fun _ _ _ => [] }

private theorem definition?_withoutDecorators (g : Grammar) (lines : List Line) (floor first last : Nat)
    (header : Header) : g.withoutDecorators.definition? lines floor first last header =
      (g.definition? lines floor first last header).map fun d => { d with decorators := [] } := by
  rw [definition?, definition?]
  cases code? lines first last <;> rfl

private theorem definitionAt?_withoutDecorators (g : Grammar) (lines : List Line) (floor number : Nat) :
    g.withoutDecorators.definitionAt? lines floor number =
      (g.definitionAt? lines floor number).map
        (Option.map fun found => ({ found.1 with decorators := [] }, found.2)) := by
  have hheader : g.withoutDecorators.header? = g.header? := rfl
  have hbody : g.withoutDecorators.bodyLength = g.bodyLength := rfl
  simp only [definitionAt?, bind, Except.bind, hheader, hbody, definition?_withoutDecorators]
  cases lineAt lines number with
  | error failure => rfl
  | ok line =>
    simp only
    cases g.header? (number + 1) line with
    | error failure => rfl
    | ok head =>
      cases head with
      | none => rfl
      | some head =>
        simp only
        cases g.definition? lines floor number
            (number + g.bodyLength line (lines.drop (number + 1))) head <;> rfl

private theorem scanFrom_withoutDecorators (g : Grammar) (lines : List Line) (floor number : Nat) :
    g.withoutDecorators.scanFrom lines floor number =
      let scan := g.scanFrom lines floor number
      { found := scan.found.map fun d => { d with decorators := [] }, failure := scan.failure } := by
  have hat := g.definitionAt?_withoutDecorators lines
  induction floor, number using scanFrom.induct g lines with
  | case1 floor number hlt failure h =>
    rw [scanFrom_of_error hlt h, scanFrom_of_error hlt (by rw [hat, h]; rfl)]
    rfl
  | case2 floor number hlt h ih =>
    rw [scanFrom_of_none hlt h, scanFrom_of_none hlt (by rw [hat, h]; rfl), ih]
  | case3 floor number hlt d length h ih =>
    rw [scanFrom_of_some hlt h, scanFrom_of_some hlt (by rw [hat, h]; rfl), ih]
    rfl
  | case4 floor number hlt =>
    rw [scanFrom_of_le (Nat.not_lt.mp hlt), scanFrom_of_le (Nat.not_lt.mp hlt)]
    rfl

end Grammar

/-! ## Sources -/

section Extract
variable {source : String} {upper lower : List Definition} {d : Definition}

/-- The decorators of a definition found in a file, above which the definition before it ends. -/
theorem decorated_of_extract (h : extract .python source = upper ++ d :: lower) :
    d.Decorated (linesOf source) ((upper.getLast?.map (·.endLine)).getD 0) := by
  obtain ⟨p, above, below, hlines, -, rfl, hlength⟩ := exists_part_of_extract h
  rw [hlines, ← hlength]
  exact p.decorated_definition above below

private theorem endLine_lt_of_onDecorators (h : extract .python source = upper ++ d :: lower) {other : Definition}
    (ho : other ∈ upper) {n : Nat} (hn : d.OnDecorators n) : other.endLine < n := by
  have hfloor := (decorated_of_extract h).floor_lt
  have hle := endLine_le_floor h ho
  have hstart := hn.1
  omega

end Extract

/-- The decorators of a Python definition are, from the top, the names on the longest run of decorator lines that
stands directly above its header and below the last line of the definition found before it. So their lines are
covered by no definition and belong to one definition alone, which starts on its header; and without decorators
the same definitions would be found in the same places. -/
theorem extract_decorators (source : String) :
    let lines := linesOf source
    let found := extract .python source
    (∀ upper d lower, found = upper ++ d :: lower →
      d.Decorated lines ((upper.getLast?.map (·.endLine)).getD 0)) ∧
    (∀ d ∈ found, ∀ n, d.OnDecorators n → ∀ other ∈ found,
      ¬ (other.startLine ≤ n ∧ n ≤ other.endLine) ∧ (other.OnDecorators n → other = d)) ∧
    (∀ d ∈ found, ∃ line head, lines[d.startLine - 1]? = some line ∧
      (grammarOf .python).Reads line (some head) ∧ d.name = String.ofList head.name) ∧
    extractWith Scan.Python.grammar.withoutDecorators.scan source =
      found.map fun d => { d with decorators := [] } := by
  have hpairwise := pairwise_extract .python source
  refine ⟨fun upper d lower h => decorated_of_extract h, fun d hd n hn other ho => ?_, fun d hd => ?_, ?_⟩
  · obtain ⟨upper, lower, h⟩ := List.append_of_mem hd
    rw [h, List.mem_append, List.mem_cons] at ho
    rcases ho with ho | rfl | ho
    · -- above the definition, another one has ended and so has its header
      have hend := endLine_lt_of_onDecorators h ho hn
      have hmem : other ∈ extract .python source := by simp [h, ho]
      have hstart := (fills_of_mem_extract hmem).startLine_le_endLine
      refine ⟨by omega, fun hother => absurd hother.2 (by omega)⟩
    · exact ⟨fun hcovers => absurd hn.2 (by omega), fun _ => rfl⟩
    · obtain ⟨between, behind, rfl⟩ := List.append_of_mem ho
      have hcut : extract .python source = (upper ++ d :: between) ++ other :: behind := by simpa using h
      have hother {n : Nat} (hon : other.OnDecorators n) : d.endLine < n :=
        endLine_lt_of_onDecorators hcut (by simp) hon
      have hstart := (fills_of_mem_extract hd).startLine_le_endLine
      have hbelow : d.endLine < other.startLine := by
        rw [h, List.pairwise_append, List.pairwise_cons] at hpairwise
        exact hpairwise.2.1.1 other (by simp)
      have hline := hn.2
      refine ⟨by omega, fun hon => absurd (hother hon) (by omega)⟩
  · obtain ⟨line, head, hline, hhead, -, hname, -⟩ := (fills_of_mem_extract hd).header
    exact ⟨line, head, hline, hhead, hname⟩
  · rw [extractWith, Grammar.scan, Grammar.scanFrom_withoutDecorators]
    rfl

/-- The class has the decorators on lines 8 and 9. What stands on line 6 is one more, but it belongs to the body of
the function. -/
theorem extract_decorators_below_body :
    let source := "@a . b\n \t@_x.y.(1) # z\ndef f():\n  pass\n\n  @inner\n@\n@g\n@h.\nclass C : pass\n"
    let f : Definition := {
      name := "f", kind := .function, startLine := 3, endLine := 6,
      code := "def f():\n  pass\n\n  @inner", decorators := ["a", "_x.y."] }
    let c : Definition := {
      name := "C", kind := .class_, startLine := 10, endLine := 10, code := "class C : pass",
      decorators := ["g", "h."] }
    extract .python source = [f, c] ∧ f.Decorated (linesOf source) 0 ∧ c.Decorated (linesOf source) 6 ∧
      c.OnDecorators 8 ∧ ¬ (f.startLine ≤ 8 ∧ 8 ≤ f.endLine) ∧ ¬ f.OnDecorators 8 := by
  intro source f c
  have h : extract .python source = [f, c] := by decide +kernel
  have hf : f ∈ extract .python source := by simp [h]
  have hc : c ∈ extract .python source := by simp [h]
  have hline : c.OnDecorators 8 := ⟨by decide, by decide⟩
  obtain ⟨hdecorated, hlines, -⟩ := extract_decorators source
  obtain ⟨hcovered, hshared⟩ := hlines c hc 8 hline f hf
  exact ⟨h, hdecorated [] f [c] h, hdecorated [f] c [] h, hline, hcovered, fun hn =>
    absurd (hshared hn) (by decide)⟩

end DocComments
