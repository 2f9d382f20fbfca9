import DocComments.Proofs.Doc.Docstring
import DocComments.Proofs.Doc.Layout
import DocComments.Proofs.Scan.Order

/-! What the searches for documentation find, told by line numbers. A docstring is found exactly if the
first statement of the body opens one that the body closes, and a JSDoc comment exactly if something is
closed above the header and the nearest comment opener above that is one of documentation. -/
namespace DocComments.Doc
open Text

namespace Docstring

/-- What stands behind the delimiter that opens a docstring on line `start`: the rest of that line, and
the lines below it up to the last. -/
def opened (lines : List Line) (start last : Nat) (after : List Char) : List Line :=
  after :: (lines.take (last + 1)).drop (start + 1)

end Docstring

namespace Jsdoc

/-- The line from `floor` up to the header that opens a comment of documentation, no comment being
opened between it and the header. -/
structure OpenedAt (lines : List Line) (header floor start : Nat) : Prop where
  floor_le : floor ≤ start
  lt_header : start < header
  opens : ∃ line, lines[start]? = some line ∧ opener <+: trimStart line
  below : ∀ i, start < i → i < header → ∀ line ∈ lines[i]?, ¬ plainOpener <+: trimStart line

/-- What a walk upward does on the line with the given number: it ends with that number, it ends with
none, or it goes on upward. A line that is not there cannot be read. -/
def look? (lines : List Line) (floor start : Nat) (upward : Option (Option Nat)) :
    Option (Option Nat) := do
  let line ← lines[start]?
  if startsWith opener (trimStart line) then return some start
  if startsWith plainOpener (trimStart line) || start == floor then return none
  upward

/-- The walk from the line with the given number upward. There is no line above the first, and a walk
that goes on there has failed. -/
def climb? (lines : List Line) (floor : Nat) : Nat → Option (Option Nat)
  | 0 => look? lines floor 0 none
  | start + 1 => look? lines floor (start + 1) (climb? lines floor start)

/-- The search by line numbers: the number of the line that opens the comment above the header, or none.
It fails where it reads a line that is not there or goes above the first. -/
def search? (lines : List Line) (header floor : Nat) : Option (Option Nat) :=
  if header = 0 ∨ header ≤ floor ∨ lines.length < header then some none
  else do
    let line ← lines[header - 1]?
    if closes line then climb? lines floor (header - 1) else return none

variable {lines : List Line} {floor start : Nat}

private theorem plainOpener_prefix_opener : plainOpener <+: opener := ⟨['*'], rfl⟩

private theorem openedAt_succ (hf : floor ≤ start) (hs : start < lines.length) {s : Nat} :
    OpenedAt lines (start + 1) floor s ↔
      (opener <+: trimStart lines[start] ∧ s = start) ∨
        (¬ plainOpener <+: trimStart lines[start] ∧ OpenedAt lines start floor s) := by
  have hline := List.getElem?_eq_getElem hs
  constructor
  · intro h
    -- below any other opener the line here opens nothing
    rcases Nat.lt_succ_iff_lt_or_eq.mp h.lt_header with hlt | rfl
    · refine .inr ⟨h.below start hlt (Nat.lt_succ_self _) _ hline, h.floor_le, hlt, h.opens, ?_⟩
      exact fun i hi hlast => h.below i hi (Nat.lt_succ_of_lt hlast)
    · obtain ⟨line, hl, ho⟩ := h.opens
      obtain rfl := Option.some.inj (hline.symm.trans hl)
      exact .inl ⟨ho, rfl⟩
  · rintro (⟨ho, rfl⟩ | ⟨hno, h⟩)
    · exact ⟨hf, Nat.lt_succ_self _, ⟨_, hline, ho⟩, fun i hi hlast => by omega⟩
    · refine ⟨h.floor_le, Nat.lt_succ_of_lt h.lt_header, h.opens, fun i hi hlast line hl => ?_⟩
      rcases Nat.lt_succ_iff_lt_or_eq.mp hlast with hlt | rfl
      · exact h.below i hi hlt line hl
      · obtain rfl := Option.some.inj (hline.symm.trans hl)
        exact hno

/-- One step of the walk: if the way upward leads to the line that opens the comment there, then so does
the way from here. -/
theorem look?_spec (hf : floor ≤ start) (hs : start < lines.length) {upward : Option (Option Nat)}
    (hup : floor < start → ∃ r, upward = some r ∧ ∀ s, r = some s ↔ OpenedAt lines start floor s) :
    ∃ r, look? lines floor start upward = some r ∧
      ∀ s, r = some s ↔ OpenedAt lines (start + 1) floor s := by
  simp only [openedAt_succ hf hs]
  rw [look?, List.getElem?_eq_getElem hs]
  by_cases ho : opener <+: trimStart lines[start]
  · refine ⟨some start, by simp [startsWith, ho], fun s => ?_⟩
    simp [ho, plainOpener_prefix_opener.trans ho, eq_comm]
  · by_cases hp : plainOpener <+: trimStart lines[start]
    · exact ⟨none, by simp [startsWith, ho, hp], by simp [ho, hp]⟩
    · -- the walk stops at the floor, and above it no line counts
      rcases Nat.eq_or_lt_of_le hf with rfl | hlt
      · refine ⟨none, by simp [startsWith, ho], fun s => ?_⟩
        have hnone : ¬ OpenedAt lines floor floor s := fun h => by
          have hle := h.floor_le
          have hlt := h.lt_header
          omega
        simp [ho, hnone]
      · obtain ⟨r, rfl, hr⟩ := hup hlt
        refine ⟨r, by simp [startsWith, ho, hp, hlt.ne'], fun s => ?_⟩
        simp [ho, hp, hr s]

/-- The walk does not fail, and where it ends is the line that opens the comment. -/
theorem climb?_spec (hf : floor ≤ start) (hs : start < lines.length) :
    ∃ r, climb? lines floor start = some r ∧ ∀ s, r = some s ↔ OpenedAt lines (start + 1) floor s := by
  induction start with
  | zero => exact look?_spec hf hs fun hlt => absurd hlt (Nat.not_lt_zero _)
  | succ start ih =>
    exact look?_spec hf hs fun hlt => ih (Nat.le_of_lt_succ hlt) (Nat.lt_of_succ_lt hs)

private theorem above_succ (hf : floor ≤ start) (hs : start < lines.length) :
    (above lines (start + 1) floor).reverse = lines[start] :: (above lines start floor).reverse := by
  have hlen : floor ≤ (lines.take start).length := by
    rw [List.length_take]
    omega
  rw [above, List.take_succ_eq_append_getElem hs, List.drop_append_of_le_length hlen,
    List.reverse_append]
  rfl

private theorem above_self (lines : List Line) (floor : Nat) : above lines floor floor = [] := by
  rw [above, List.drop_eq_nil_iff]
  exact List.length_take_le _ _

private theorem look?_eq (hf : floor ≤ start) (hs : start < lines.length)
    {upward : Option (Option Nat)} (hup : floor < start →
      upward = some ((openerAbove? (above lines start floor).reverse).map (start - 1 - ·))) :
    look? lines floor start upward =
      some ((openerAbove? (above lines (start + 1) floor).reverse).map (start - ·)) := by
  rw [look?, List.getElem?_eq_getElem hs, above_succ hf hs, openerAbove?]
  by_cases ho : startsWith opener (trimStart lines[start])
  · simp [ho]
  · by_cases hp : startsWith plainOpener (trimStart lines[start])
    · simp [ho, hp]
    · rcases Nat.eq_or_lt_of_le hf with rfl | hlt
      · simp [ho, hp, above_self, openerAbove?]
      · have hdistance : ((start - ·) ∘ (· + 1)) = fun n => start - 1 - n := by
          funext n
          simp only [Function.comp_apply]
          omega
        simp [ho, hp, hlt.ne', hup hlt, hdistance]

/-- The walk by line numbers and the search by distance are one. -/
theorem climb?_eq (hf : floor ≤ start) (hs : start < lines.length) :
    climb? lines floor start =
      some ((openerAbove? (above lines (start + 1) floor).reverse).map (start - ·)) := by
  induction start with
  | zero => exact look?_eq hf hs fun hlt => absurd hlt (Nat.not_lt_zero _)
  | succ start ih =>
    exact look?_eq hf hs fun hlt => ih (Nat.le_of_lt_succ hlt) (Nat.lt_of_succ_lt hs)

/-- The distance to the nearest opener tells the line that opens the comment. -/
theorem openerAbove?_eq_some_iff (hf : floor ≤ start) (hs : start < lines.length) {s : Nat} :
    (openerAbove? (above lines (start + 1) floor).reverse).map (start - ·) = some s ↔
      OpenedAt lines (start + 1) floor s := by
  obtain ⟨r, hr, hspec⟩ := climb?_spec hf hs
  rw [climb?_eq hf hs, Option.some_inj] at hr
  rw [hr, hspec]

private theorem locate?_of_not_within {header : Nat} (h : ¬ (floor < header ∧ header ≤ lines.length)) :
    locate? lines header floor = none := by
  rw [locate?]
  split
  · rename_i hle
    have habove : above lines header floor = [] := by
      rw [above, List.drop_eq_nil_iff, List.length_take]
      omega
    rw [habove]
    rfl
  · rfl

private theorem locate?_succ (hf : floor ≤ start) (hs : start < lines.length) :
    locate? lines (start + 1) floor =
      if closes lines[start] then
        ((openerAbove? (above lines (start + 1) floor).reverse).map (start - ·)).map fun first =>
          { text := strip ((lines.take (start + 1)).drop first), first, last := start }
      else none := by
  rw [locate?, if_pos (Nat.succ_le_of_lt hs), above_succ hf hs, Option.map_map]
  rfl

/-- The search by line numbers never fails, and it finds the line on which the located comment starts. -/
theorem search?_eq (lines : List Line) (header floor : Nat) :
    search? lines header floor = some ((locate? lines header floor).map (·.first)) := by
  by_cases hwithin : floor < header ∧ header ≤ lines.length
  · obtain ⟨hf, hle⟩ := hwithin
    obtain ⟨last, rfl⟩ := Nat.exists_eq_add_one.mpr (Nat.zero_lt_of_lt hf)
    have hl : last < lines.length := hle
    have hf : floor ≤ last := Nat.le_of_lt_succ hf
    rw [search?, if_neg (by omega), Nat.add_sub_cancel, List.getElem?_eq_getElem hl,
      locate?_succ hf hl, climb?_eq hf hl]
    by_cases hc : closes lines[last]
    · simp [hc, Function.comp_def]
    · simp [hc]
  · rw [locate?_of_not_within hwithin, search?, if_pos (by omega)]
    rfl

/-- A comment is located exactly above the header that something is closed above and from an opener
that no other comment is opened below. -/
theorem locate?_eq_some_iff {header : Nat} {block : Block} :
    locate? lines header floor = some block ↔
      floor < header ∧ header ≤ lines.length ∧
        (∃ line, lines[header - 1]? = some line ∧ closer <:+ trimEnd line) ∧
        OpenedAt lines header floor block.first ∧ block.last = header - 1 ∧
        block.text = strip (block.lines lines) := by
  by_cases hwithin : floor < header ∧ header ≤ lines.length
  · obtain ⟨hf, hle⟩ := hwithin
    obtain ⟨last, rfl⟩ := Nat.exists_eq_add_one.mpr (Nat.zero_lt_of_lt hf)
    have hl : last < lines.length := hle
    have hopened {first : Nat} := openerAbove?_eq_some_iff (Nat.le_of_lt_succ hf) hl (s := first)
    have hcloses : (∃ line, lines[last]? = some line ∧ closer <:+ trimEnd line) ↔
        closes lines[last] := by
      simp [List.getElem?_eq_getElem hl, closes, endsWith]
    rw [locate?_succ (Nat.le_of_lt_succ hf) hl, Nat.add_sub_cancel, hcloses]
    split
    · rename_i hc
      simp only [Option.map_eq_some_iff (b := block), hopened, hf, hle, hc, true_and]
      constructor
      · rintro ⟨first, ho, rfl⟩
        exact ⟨ho, rfl, rfl⟩
      · rintro ⟨ho, hlast, htext⟩
        refine ⟨block.first, ho, ?_⟩
        rw [Block.lines, hlast] at htext
        rw [← htext, ← hlast]
    · rename_i hc
      simp [hc]
  · rw [locate?_of_not_within hwithin]
    simp only [reduceCtorEq, false_iff]
    exact fun h => hwithin ⟨h.1, h.2.1⟩

/-- A comment is found exactly if it ends directly above the header and one of documentation is the
nearest that is opened from the floor on. The search goes no higher than the floor and never fails. In a
scan the floor is the line below the definition found last, so that a comment takes nothing from any
definition above it. -/
theorem found_iff_nearest_opener :
    (∀ (lines : List Line) (header floor : Nat),
      search? lines header floor = some ((locate? lines header floor).map (·.first)) ∧
      ((∃ block, locate? lines header floor = some block) ↔
        floor < header ∧ header ≤ lines.length ∧
          (∃ line, lines[header - 1]? = some line ∧ closer <:+ trimEnd line) ∧
          ∃ start, OpenedAt lines header floor start) ∧
      ∀ block, locate? lines header floor = some block →
        OpenedAt lines header floor block.first ∧ block.last = header - 1 ∧
          block.text = strip (block.lines lines)) ∧
    ∀ (source : String) (upper lower : List Definition) (d : Definition),
      extract .javaScript source = upper ++ d :: lower →
      let floor := (upper.getLast?.map (·.endLine)).getD 0
      d.existingDoc = (locate? (linesOf source) (d.startLine - 1) floor).map
          (fun block => String.ofList block.text) ∧
        ∀ block, locate? (linesOf source) (d.startLine - 1) floor = some block →
          ∀ other ∈ upper, other.endLine ≤ block.first := by
  refine ⟨fun lines header floor => ⟨search?_eq lines header floor, ?_, fun block hfound => ?_⟩,
    fun source upper lower d h => ?_⟩
  · constructor
    · rintro ⟨block, hfound⟩
      obtain ⟨hf, hle, hc, ho, -⟩ := locate?_eq_some_iff.mp hfound
      exact ⟨hf, hle, hc, _, ho⟩
    · rintro ⟨hf, hle, hc, start, ho⟩
      let block : Block := {
        text := strip ((lines.take (header - 1 + 1)).drop start), first := start, last := header - 1 }
      exact ⟨block, locate?_eq_some_iff.mpr ⟨hf, hle, hc, ho, rfl, rfl⟩⟩
  · obtain ⟨-, -, -, hlocated⟩ := locate?_eq_some_iff.mp hfound
    exact hlocated
  · refine ⟨?_, fun block hfound other ho => ?_⟩
    · rw [existingDoc_of_extract h]
      exact Option.map_map ..
    · obtain ⟨-, -, -, hopened, -⟩ := locate?_eq_some_iff.mp hfound
      exact (endLine_le_floor h ho).trans hopened.floor_le

/-- The comment that ends above the second function is opened in the body of the first, and so it is not
found. -/
theorem found_iff_nearest_opener_owned :
    let source := "function f() \x7b\n/** x\n\x7d\n */\nfunction g() \x7b\x7d\n"
    let lines := linesOf source
    let block : Block := { text := "x\n\x7d".toList, first := 1, last := 3 }
    let f : Definition := {
      name := "f", kind := .function, startLine := 1, endLine := 3,
      code := "function f() \x7b\n/** x\n\x7d" }
    let g : Definition := {
      name := "g", kind := .function, startLine := 5, endLine := 5,
      code := "function g() \x7b\x7d" }
    (locate? lines 4 0 = some block ∧ OpenedAt lines 4 0 1 ∧ search? lines 4 0 = some (some 1)) ∧
      extract .javaScript source = [f, g] ∧
      g.existingDoc = (locate? lines 4 3).map (fun block => String.ofList block.text) ∧
      search? lines 4 3 = some none := by
  intro source lines block f g
  have hfound : locate? lines 4 0 = some block := by decide +kernel
  have hextract : extract .javaScript source = [f, g] := by decide +kernel
  have hnone : locate? lines 4 3 = none := by decide +kernel
  obtain ⟨hexact, hscan⟩ := found_iff_nearest_opener
  obtain ⟨hsearch, -, hlocated⟩ := hexact lines 4 0
  refine ⟨⟨hfound, (hlocated block hfound).1, ?_⟩, hextract, (hscan source [f] [] g hextract).1, ?_⟩
  · rw [hsearch, hfound]
    rfl
  · rw [(hexact lines 4 3).1, hnone]
    rfl

end Jsdoc
end DocComments.Doc
