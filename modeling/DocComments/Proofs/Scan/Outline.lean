import DocComments.Scan.Basic
import Mathlib.Data.List.TakeWhile

/-! The outline of a file: the parts into which its definitions cut it. A scan finds exactly the
definitions of the outline. -/
namespace DocComments
open Text

/-- The line says this, whatever its number. -/
def Grammar.Reads (g : Grammar) (line : Line) (head : Option Header) : Prop :=
  ∀ number, g.header? number line = .ok head

theorem Grammar.Reads.unique {g : Grammar} {line : Line} {head head' : Option Header}
    (h : g.Reads line head) (h' : g.Reads line head') : head = head' :=
  Except.ok.inj ((h 0).symm.trans (h' 0))

theorem Grammar.Reads.not_header {g : Grammar} {line : Line} (h : g.Reads line none) :
    ¬ ∃ head, g.Reads line (some head) := by
  rintro ⟨head, hhead⟩
  cases h.unique hhead

/-- A definition where it stands: the lines above the header that no definition owns, the header line
with what it says, and the lines of the body. -/
structure Part where
  gap : List Line
  header : Line
  head : Header
  body : List Line

namespace Part

def lines (p : Part) : List Line :=
  p.gap ++ p.header :: p.body

def size (p : Part) : Nat :=
  p.gap.length + 1 + p.body.length

@[simp] theorem length_lines (p : Part) : p.lines.length = p.size := by
  simp [lines, size]
  omega

def definition (g : Grammar) (above : Nat) (p : Part) : Definition where
  name := String.ofList p.head.name
  kind := p.head.kind
  parameters := g.parameters p.head.parameters
  returnType := p.head.returnType.map String.ofList
  existingDoc := (g.doc? p.lines p.gap.length (p.gap.length + p.body.length) 0).map String.ofList
  startLine := above + p.gap.length + 1
  endLine := above + p.size
  code := String.ofList (joinLines (p.header :: p.body))
  isAsync := p.head.isAsync
  decorators := (g.decorators p.lines p.gap.length 0).map String.ofList

@[simp] theorem endLine_definition (g : Grammar) (above : Nat) (p : Part) :
    (p.definition g above).endLine = above + p.size := rfl

def definitions (g : Grammar) : Nat → List Part → List Definition
  | _, [] => []
  | above, p :: parts => p.definition g above :: definitions g (above + p.size) parts

/-- The lines of parts one below the other, and below them the rest. -/
def stack (parts : List Part) (rest : List Line) : List Line :=
  parts.flatMap lines ++ rest

@[simp] theorem stack_nil (rest : List Line) : stack [] rest = rest := rfl

@[simp] theorem stack_cons (p : Part) (parts : List Part) (rest : List Line) :
    stack (p :: parts) rest = p.lines ++ stack parts rest := by
  simp [stack]

/-- A scan that comes to the part with the lines `below` under it takes the part as it is. -/
structure Fits (g : Grammar) (p : Part) (below : List Line) : Prop where
  gap : ∀ line ∈ p.gap, g.Reads line none
  header : g.Reads p.header (some p.head)
  body : g.bodyLength p.header (p.body ++ below) = p.body.length

/-- Every part fits on what is below it, and no header stands below the last. -/
def Stacked (g : Grammar) : List Part → List Line → Prop
  | [], rest => ∀ line ∈ rest, g.Reads line none
  | p :: parts, rest => p.Fits g (stack parts rest) ∧ Stacked g parts rest

theorem reads_of_mem {g : Grammar} {parts : List Part} {rest : List Line} (h : Stacked g parts rest)
    {p : Part} (hp : p ∈ parts) : g.Reads p.header (some p.head) := by
  induction parts with
  | nil => simp at hp
  | cons upper parts ih =>
    rcases List.mem_cons.mp hp with rfl | hp
    · exact h.1.header
    · exact ih h.2 hp

/-- Where the part of a definition stands among the others: directly below the last line of the definition
before it. -/
theorem exists_of_definitions_eq {g : Grammar} {parts : List Part} {rest : List Line}
    (h : Stacked g parts rest) (above : List Line) {upper lower : List Definition} {d : Definition}
    (hd : definitions g above.length parts = upper ++ d :: lower) :
    ∃ (p : Part) (upperLines lowerLines : List Line),
      above ++ stack parts rest = upperLines ++ (p.lines ++ lowerLines) ∧ p.Fits g lowerLines ∧
        d = p.definition g upperLines.length ∧
        upperLines.length = (upper.getLast?.map (·.endLine)).getD above.length := by
  induction parts generalizing above upper with
  | nil => simp [definitions] at hd
  | cons p parts ih =>
    rw [definitions] at hd
    rw [stack_cons]
    cases upper with
    | nil =>
      obtain ⟨rfl, -⟩ := List.cons_eq_cons.mp hd
      exact ⟨p, above, stack parts rest, rfl, h.1, rfl, rfl⟩
    | cons first upper =>
      obtain ⟨rfl, hlower⟩ := List.cons_eq_cons.mp hd
      rw [← length_lines, ← List.length_append] at hlower
      obtain ⟨q, upperLines, lowerLines, hlines, hfits, hq, hlength⟩ := ih h.2 (above ++ p.lines) hlower
      refine ⟨q, upperLines, lowerLines, by rw [← hlines, List.append_assoc], hfits, hq, ?_⟩
      rw [hlength, List.getLast?_cons]
      cases upper.getLast? <;> simp

/-- Every definition of stacked parts is that of one of them, where it stands in the file. -/
theorem exists_of_mem_definitions {g : Grammar} {parts : List Part} {rest : List Line}
    (h : Stacked g parts rest) (above : List Line) {d : Definition}
    (hd : d ∈ definitions g above.length parts) :
    ∃ (p : Part) (upper lower : List Line), above ++ stack parts rest = upper ++ (p.lines ++ lower) ∧
      p.Fits g lower ∧ d = p.definition g upper.length := by
  obtain ⟨before, behind, hsplit⟩ := List.append_of_mem hd
  obtain ⟨p, upper, lower, hlines, hfits, hp, -⟩ := exists_of_definitions_eq h above hsplit
  exact ⟨p, upper, lower, hlines, hfits, hp⟩

end Part

/-- A file cut into the parts that a scan takes, with the lines below the last of them. -/
structure Outline (g : Grammar) where
  parts : List Part
  rest : List Line
  stacked : Part.Stacked g parts rest

/-- A grammar can read every line, and what it tells about a definition depends on the lines of its part
alone. -/
structure Grammar.Local (g : Grammar) : Prop where
  reads (line : Line) : ∃ head, g.Reads line head
  bodyLength_le (header : Line) (below : List Line) : g.bodyLength header below ≤ below.length
  doc? (p : Part) (above below : List Line) :
    g.doc? (above ++ (p.lines ++ below)) (above.length + p.gap.length)
        (above.length + p.gap.length + p.body.length) above.length =
      g.doc? p.lines p.gap.length (p.gap.length + p.body.length) 0
  decorators (p : Part) (above below : List Line) :
    g.decorators (above ++ (p.lines ++ below)) (above.length + p.gap.length) above.length =
      g.decorators p.lines p.gap.length 0

namespace Grammar
variable {g : Grammar}

/-- The lines of a definition, header and body, in the file. -/
theorem take_drop_part (p : Part) (above below : List Line) :
    ((above ++ (p.lines ++ below)).take (above.length + p.size)).drop (above.length + p.gap.length) =
      p.header :: p.body := by
  have htake : (above ++ (p.lines ++ below)).take (above.length + p.size) = above ++ p.lines := by
    rw [← List.append_assoc, List.take_left']
    simp
  rw [htake, List.drop_length_add_append, Part.lines, List.drop_left]

private theorem code?_part (p : Part) (above below : List Line) :
    code? (above ++ (p.lines ++ below)) (above.length + p.gap.length)
        (above.length + p.gap.length + p.body.length) = .ok (joinLines (p.header :: p.body)) := by
  have hend : above.length + p.gap.length + p.body.length + 1 = above.length + p.size := by
    rw [Part.size]
    omega
  have hlt : above.length + p.gap.length + p.body.length <
      (above ++ (p.lines ++ below)).length := by
    simp only [List.length_append, Part.length_lines]
    omega
  rw [code?, if_pos ⟨by omega, hlt⟩, hend, take_drop_part]

private theorem definition?_part (hg : g.Local) (p : Part) (above below : List Line) :
    g.definition? (above ++ (p.lines ++ below)) above.length (above.length + p.gap.length)
        (above.length + p.gap.length + p.body.length) p.head =
      .ok (p.definition g above.length) := by
  have hend : above.length + p.gap.length + p.body.length + 1 = above.length + p.size := by
    rw [Part.size]
    omega
  rw [definition?, code?_part]
  simp only [bind, Except.bind, hg.doc?, hg.decorators, hend]
  rfl

private theorem lineAt_append (above : List Line) (line : Line) (below : List Line) :
    lineAt (above ++ line :: below) above.length = .ok line := by
  rw [lineAt, List.getElem?_append_right (Nat.le_refl _), Nat.sub_self, List.getElem?_cons_zero]

private theorem definitionAt?_of_none {line : Line} (h : g.Reads line none) (above below : List Line)
    (floor : Nat) : g.definitionAt? (above ++ line :: below) floor above.length = .ok none := by
  simp only [definitionAt?, lineAt_append, bind, Except.bind, h (above.length + 1)]

private theorem definitionAt?_part (hg : g.Local) {p : Part} {below : List Line} (hp : p.Fits g below)
    (above : List Line) :
    g.definitionAt? (above ++ (p.lines ++ below)) above.length (above.length + p.gap.length) =
      .ok (some (p.definition g above.length, p.body.length)) := by
  have hlines : above ++ (p.lines ++ below) = above ++ p.gap ++ p.header :: (p.body ++ below) := by
    simp [Part.lines]
  have hlength : (above ++ p.gap).length = above.length + p.gap.length := List.length_append
  have hline : lineAt (above ++ (p.lines ++ below)) (above.length + p.gap.length) = .ok p.header := by
    rw [hlines, ← hlength, lineAt_append]
  have hbelow : (above ++ (p.lines ++ below)).drop (above.length + p.gap.length + 1) =
      p.body ++ below := by
    rw [hlines, ← hlength, List.drop_length_add_append, List.drop_succ_cons, List.drop_zero]
  simp only [definitionAt?, hline, bind, Except.bind, hp.header _, hbelow, hp.body,
    definition?_part hg]

section Step
variable {lines : List Line} {floor number : Nat}

theorem scanFrom_of_le (h : lines.length ≤ number) : g.scanFrom lines floor number = { found := [] } := by
  rw [scanFrom, if_neg (Nat.not_lt.mpr h)]

theorem scanFrom_of_error (hlt : number < lines.length) {failure : ScanError}
    (h : g.definitionAt? lines floor number = .error failure) :
    g.scanFrom lines floor number = { found := [], failure := some failure } := by
  rw [scanFrom, if_pos hlt, h]

theorem scanFrom_of_none (hlt : number < lines.length)
    (h : g.definitionAt? lines floor number = .ok none) :
    g.scanFrom lines floor number = g.scanFrom lines floor (number + 1) := by
  rw [scanFrom, if_pos hlt, h]

theorem scanFrom_of_some (hlt : number < lines.length) {d : Definition} {length : Nat}
    (h : g.definitionAt? lines floor number = .ok (some (d, length))) :
    g.scanFrom lines floor number =
      let rest := g.scanFrom lines (number + length + 1) (number + length + 1)
      { found := d :: rest.found, failure := rest.failure } := by
  rw [scanFrom, if_pos hlt, h]

end Step

/-- A scan passes over lines that are no headers. -/
private theorem scanFrom_gap {gap : List Line} (hgap : ∀ line ∈ gap, g.Reads line none)
    (above below : List Line) (floor : Nat) :
    g.scanFrom (above ++ (gap ++ below)) floor above.length =
      g.scanFrom (above ++ (gap ++ below)) floor (above.length + gap.length) := by
  induction gap generalizing above with
  | nil => rfl
  | cons line gap ih =>
    obtain ⟨hline, hgap⟩ := List.forall_mem_cons.mp hgap
    have hlt : above.length < (above ++ (line :: gap ++ below)).length := by simp
    have hnext := ih hgap (above ++ [line])
    rw [scanFrom_of_none hlt (definitionAt?_of_none hline above _ floor)]
    simpa [Nat.add_assoc, Nat.add_comm 1] using hnext

/-- One step of a scan: the definition of the next part, then those below it. -/
theorem scanFrom_part (hg : g.Local) {p : Part} {below : List Line} (hp : p.Fits g below)
    (above : List Line) :
    g.scanFrom (above ++ (p.lines ++ below)) above.length above.length =
      let scan := g.scanFrom (above ++ (p.lines ++ below)) (above.length + p.size)
        (above.length + p.size)
      { found := p.definition g above.length :: scan.found, failure := scan.failure } := by
  have hsize : above.length + p.gap.length + p.body.length + 1 = above.length + p.size := by
    rw [Part.size]
    omega
  have hlt : above.length + p.gap.length < (above ++ (p.lines ++ below)).length := by
    simp only [List.length_append, Part.length_lines]
    omega
  have hgap := scanFrom_gap hp.gap above (p.header :: (p.body ++ below)) above.length
  have hlines : p.gap ++ p.header :: (p.body ++ below) = p.lines ++ below := by simp [Part.lines]
  rw [hlines] at hgap
  rw [hgap, scanFrom_of_some hlt (definitionAt?_part hg hp above), hsize]

/-- What a scan finds below the lines `above`, of which no definition is to be reported. -/
theorem scanFrom_stack (hg : g.Local) {parts : List Part} {rest : List Line}
    (h : Part.Stacked g parts rest) (above : List Line) :
    g.scanFrom (above ++ Part.stack parts rest) above.length above.length =
      { found := Part.definitions g above.length parts } := by
  induction parts generalizing above with
  | nil =>
    have hrest := scanFrom_gap h above [] above.length
    rw [List.append_nil] at hrest
    rw [Part.stack_nil, hrest, scanFrom_of_le (by simp)]
    rfl
  | cons p parts ih =>
    have hlen : (above ++ p.lines).length = above.length + p.size := by simp
    have hbelow := ih h.2 (above ++ p.lines)
    rw [hlen, List.append_assoc] at hbelow
    rw [Part.stack_cons, scanFrom_part hg h.1, hbelow]
    rfl

end Grammar

namespace Outline
variable {g : Grammar}

def lines (o : Outline g) : List Line :=
  Part.stack o.parts o.rest

/-- A scan of a file finds the definitions of its outline and does not fail. -/
theorem scan_lines (hg : g.Local) (o : Outline g) :
    g.scan o.lines = { found := Part.definitions g 0 o.parts } :=
  g.scanFrom_stack hg o.stacked []

private theorem exists_stacked (hg : g.Local) (lines : List Line) :
    ∃ parts rest, Part.Stacked g parts rest ∧ Part.stack parts rest = lines := by
  match lines with
  | [] => exact ⟨[], [], by simp [Part.Stacked], rfl⟩
  | line :: below =>
    obtain ⟨head, hhead⟩ := hg.reads line
    cases head with
    | none =>
      -- the line joins the gap of the first part below it, or the rest if there is none
      obtain ⟨parts, rest, hs, he⟩ := exists_stacked hg below
      cases parts with
      | nil => exact ⟨[], line :: rest, List.forall_mem_cons.mpr ⟨hhead, hs⟩, congrArg (line :: ·) he⟩
      | cons p parts =>
        refine ⟨{ p with gap := line :: p.gap } :: parts, rest, ⟨⟨?_, hs.1.header, hs.1.body⟩, hs.2⟩,
          congrArg (line :: ·) he⟩
        exact List.forall_mem_cons.mpr ⟨hhead, hs.1.gap⟩
    | some head =>
      have hle := hg.bodyLength_le line below
      obtain ⟨parts, rest, hs, he⟩ := exists_stacked hg (below.drop (g.bodyLength line below))
      refine ⟨⟨[], line, head, below.take (g.bodyLength line below)⟩ :: parts, rest,
        ⟨⟨by simp, hhead, ?_⟩, hs⟩, ?_⟩
      · rw [he, List.take_append_drop, List.length_take, Nat.min_eq_left hle]
      · rw [Part.stack_cons, he, Part.lines, List.nil_append, List.cons_append, List.take_append_drop]
termination_by lines.length

/-- A header on the first line of a file is the one of its first part. -/
theorem exists_parts_eq_cons (o : Outline g) {line : Line} {below : List Line} {head : Header}
    (ho : o.lines = line :: below) (hh : g.Reads line (some head)) :
    ∃ p parts, o.parts = p :: parts ∧ p.gap = [] ∧ p.head = head := by
  obtain ⟨parts, rest, hs⟩ := o
  have hstack : Part.stack parts rest = line :: below := ho
  cases parts with
  | nil =>
    rw [Part.stack_nil] at hstack
    have hnone : g.Reads line none := hs line (by simp [hstack])
    exact absurd ⟨head, hh⟩ hnone.not_header
  | cons p parts =>
    refine ⟨p, parts, rfl, ?_⟩
    obtain ⟨hfits, -⟩ := hs
    rw [Part.stack_cons, Part.lines, List.append_assoc] at hstack
    cases hgap : p.gap with
    | nil =>
      rw [hgap, List.nil_append, List.cons_append] at hstack
      obtain ⟨rfl, -⟩ := List.cons_eq_cons.mp hstack
      exact ⟨rfl, Option.some.inj (hfits.header.unique hh)⟩
    | cons first gap =>
      rw [hgap, List.cons_append] at hstack
      obtain ⟨rfl, -⟩ := List.cons_eq_cons.mp hstack
      have hnone : g.Reads first none := hfits.gap first (by simp [hgap])
      exact absurd ⟨head, hh⟩ hnone.not_header

/-- Every file has an outline. -/
theorem exists_lines_eq (hg : g.Local) (lines : List Line) : ∃ o : Outline g, o.lines = lines := by
  obtain ⟨parts, rest, hs, he⟩ := exists_stacked hg lines
  exact ⟨⟨parts, rest, hs⟩, he⟩

end Outline
end DocComments
