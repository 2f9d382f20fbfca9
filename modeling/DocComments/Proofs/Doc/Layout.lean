import DocComments.Doc
import DocComments.Proofs.Text.Blank
import DocComments.Proofs.Text.Lines
import Mathlib.Data.List.Forall2

/-! Lines of documentation in normal form: pieces of the text with no blank at their end. -/
namespace DocComments.Doc
open Text

theorem mem_of_mem_withoutOuterEmpty {lines : List Line} {line : Line}
    (h : line ∈ withoutOuterEmpty lines) : line ∈ lines := by
  rw [withoutOuterEmpty, List.mem_reverse] at h
  have h := (List.dropWhile_suffix _).subset h
  rw [List.mem_reverse] at h
  exact (List.dropWhile_suffix _).subset h

/-- Removing the common indentation leaves of each line nothing, if it is blank, or a piece that
ends in no blank. -/
theorem exists_of_mem_dedent {lines : List Line} {line : Line} (h : line ∈ dedent lines) :
    ∃ whole ∈ lines, line <:+: whole ∧ ∀ c ∈ line.getLast?, isBlank c = false := by
  obtain ⟨whole, hw, rfl⟩ := List.mem_map.mp h
  refine ⟨whole, hw, ?_⟩
  split
  · exact ⟨List.nil_infix, by simp⟩
  · exact ⟨(prefix_trimEnd _).isInfix.trans (List.drop_suffix _ _).isInfix,
      fun c hc => isBlank_of_getLast?_trimEnd hc⟩

theorem infix_of_mem_normalLines {doc : List Char} {line : Line} (h : line ∈ normalLines doc) :
    line <:+: doc := by
  obtain ⟨whole, hw, hi, -⟩ := exists_of_mem_dedent h
  obtain ⟨source, hs, rfl⟩ := List.mem_map.mp (mem_of_mem_withoutOuterEmpty hw)
  exact (hi.trans (prefix_trimEnd source).isInfix).trans (infix_of_mem_lines hs)

theorem plain_of_mem_normalLines {doc : List Char} {line : Line} (h : line ∈ normalLines doc) :
    Plain line := by
  obtain ⟨whole, hw, hi, hlast⟩ := exists_of_mem_dedent h
  obtain ⟨source, hs, rfl⟩ := List.mem_map.mp (mem_of_mem_withoutOuterEmpty hw)
  refine ⟨fun hn => not_mem_of_mem_lines hs ?_, fun hr => ?_⟩
  · exact (prefix_trimEnd source).subset (hi.subset hn)
  · exact absurd (hlast _ hr) (by decide)

theorem isBlank_of_getLast?_normalLines {doc : List Char} {line : Line}
    (h : line ∈ normalLines doc) : ∀ c ∈ line.getLast?, isBlank c = false := by
  obtain ⟨-, -, -, hlast⟩ := exists_of_mem_dedent h
  exact hlast

private theorem withoutOuterEmpty_eq_nil_iff {lines : List Line} :
    withoutOuterEmpty lines = [] ↔ ∀ line ∈ lines, line = [] := by
  have hall {ls : List Line} : ls.dropWhile (·.isEmpty) = [] ↔ ∀ line ∈ ls, line = [] := by
    simp [List.dropWhile_eq_nil_iff]
  rw [withoutOuterEmpty, List.reverse_eq_nil_iff, hall]
  constructor
  · intro h
    cases hd : lines.dropWhile (·.isEmpty) with
    | nil => exact hall.mp hd
    | cons first rest =>
      have hempty : first = [] := h first (by simp [hd])
      have hfirst := List.head?_dropWhile_not List.isEmpty lines
      rw [hd, List.head?_cons, hempty] at hfirst
      exact absurd hfirst (by decide)
  · intro h line hl
    exact h line ((List.dropWhile_suffix _).subset (List.mem_reverse.mp hl))

/-- All lines of a text are blank exactly if the text is. -/
theorem all_allBlank_lines (s : List Char) : (lines s).all allBlank = allBlank s := by
  have hextend (c : Char) (ls : List Line) :
      (extendFirst c ls).all allBlank = (isBlank c && ls.all allBlank) := by
    cases ls with
    | nil => simp [extendFirst, allBlank]
    | cons line ls => simp [extendFirst, allBlank, Bool.and_assoc]
  fun_induction lines s with
  | case1 => rfl
  | case2 rest ih => exact ih
  | case3 rest ih => exact ih
  | case4 c rest _ _ ih =>
    rw [hextend, ih]
    rfl

/-- Nothing is left of a text in normal form exactly if the text is blank. -/
theorem normalLines_eq_nil_iff {doc : List Char} : normalLines doc = [] ↔ allBlank doc := by
  have hempty (line : Line) : trimEnd line = [] ↔ allBlank line := by
    rw [← allBlank_trimEnd]
    constructor
    · intro h
      rw [h]
      rfl
    · intro h
      by_contra hne
      rw [allBlank_eq_false hne fun c hc => isBlank_of_getLast?_trimEnd hc] at h
      exact absurd h Bool.false_ne_true
  rw [normalLines, dedent, List.map_eq_nil_iff, withoutOuterEmpty_eq_nil_iff, ← all_allBlank_lines]
  simp only [List.forall_mem_map, hempty, List.all_eq_true]

theorem commonDepth_le_depth {lines : List Line} {line : Line} (h : line ∈ lines)
    (hb : allBlank line = false) : commonDepth lines ≤ depth line :=
  List.min?_getD_le_of_mem (List.mem_map_of_mem (List.mem_filter.mpr ⟨h, by simp [hb]⟩))

/-- The common depth is that of one of the lines, if not all are blank. -/
theorem exists_depth_eq_commonDepth {lines : List Line} {line : Line} (h : line ∈ lines)
    (hb : allBlank line = false) :
    ∃ least ∈ lines, allBlank least = false ∧ depth least = commonDepth lines := by
  have hmem : depth line ∈ (lines.filter fun line => !allBlank line).map depth :=
    List.mem_map_of_mem (List.mem_filter.mpr ⟨h, by simp [hb]⟩)
  obtain ⟨least, hl⟩ := Option.isSome_iff_exists.mp
    (List.isSome_min?_of_mem hmem)
  obtain ⟨source, hs, he⟩ := List.mem_map.mp (List.min?_mem hl)
  obtain ⟨hs, hn⟩ := List.mem_filter.mp hs
  exact ⟨source, hs, by simpa using hn, by rw [he, commonDepth, hl, Option.getD_some]⟩

private theorem commonDepth_of_blank {lines : List Line} (h : ∀ line ∈ lines, allBlank line) :
    commonDepth lines = 0 := by
  have hnone : lines.filter (fun line => !allBlank line) = [] :=
    List.filter_eq_nil_iff.mpr fun line hl => by simp [h line hl]
  rw [commonDepth, hnone]
  rfl

/-- Removing the common indentation leaves none. -/
theorem commonDepth_dedent (lines : List Line) : commonDepth (dedent lines) = 0 := by
  by_cases hall : ∀ line ∈ dedent lines, allBlank line
  · exact commonDepth_of_blank hall
  · push Not at hall
    obtain ⟨line, hl, hb⟩ := hall
    obtain ⟨whole, hw, he⟩ := List.mem_map.mp hl
    have hwhole : allBlank whole = false := by
      by_contra hblank
      rw [if_pos (by simpa using hblank)] at he
      exact hb (he ▸ rfl)
    obtain ⟨least, hm, hn, hd⟩ := exists_depth_eq_commonDepth hw hwhole
    -- the least indented line loses all of its indentation
    have hindent : ∀ c ∈ least.take (commonDepth lines), isIndent c := fun c hc =>
      isIndent_of_mem_take hd.ge hc
    have hcut := List.take_append_drop (commonDepth lines) least
    have hrest : allBlank (least.drop (commonDepth lines)) = false := by
      rw [← allBlank_append_of_isIndent hindent, hcut, hn]
    have hdepth : depth (least.drop (commonDepth lines)) = 0 := by
      have hsum := depth_append hindent (least.drop (commonDepth lines))
      rw [hcut, length_take_of_le_depth hd.ge, hd] at hsum
      omega
    have hmem : trimEnd (least.drop (commonDepth lines)) ∈ dedent lines :=
      List.mem_map.mpr ⟨least, hm, by simp [hn]⟩
    have hle := commonDepth_le_depth hmem ((allBlank_trimEnd _).trans hrest)
    rw [depth_trimEnd hrest, hdepth] at hle
    exact Nat.le_zero.mp hle

theorem commonDepth_normalLines (doc : List Char) : commonDepth (normalLines doc) = 0 :=
  commonDepth_dedent _

/-- Lines without common indentation and without blanks at their ends stay as they are. -/
theorem dedent_eq_self {lines : List Line} (hd : commonDepth lines = 0)
    (h : ∀ line ∈ lines, ∀ c ∈ line.getLast?, isBlank c = false) : dedent lines = lines := by
  have hline : ∀ line ∈ lines,
      (if allBlank line then [] else trimEnd (line.drop (commonDepth lines))) = line := by
    intro line hl
    by_cases hne : line = []
    · rw [hne]
      rfl
    · have hb := allBlank_eq_false hne (h line hl)
      rw [if_neg (by simp [hb]), hd, List.drop_zero, trimEnd_eq_self (h line hl)]
  rw [dedent, List.map_congr_left hline, List.map_id']

/-- The line with so many spaces and tabs in front and the blanks at its end removed. A blank line
becomes empty. -/
def CutTo (n : Nat) (line cut : Line) : Prop :=
  if allBlank line then cut = []
  else ∃ indent rest, line = indent ++ rest ∧ indent.length = n ∧ (∀ c ∈ indent, isIndent c) ∧
    cut = trimEnd rest

/-- The lines without the indentation that those of them which are not blank have in common. -/
def Dedented (lines cut : List Line) : Prop :=
  ∃ n, List.Forall₂ (CutTo n) lines cut ∧
    ((∃ line ∈ lines, allBlank line = false) → ∃ line ∈ lines, allBlank line = false ∧ depth line = n)

theorem dedented_dedent (lines : List Line) : Dedented lines (dedent lines) := by
  refine ⟨commonDepth lines, ?_, ?_⟩
  · rw [dedent, List.forall₂_map_right_iff, List.forall₂_same]
    intro line hl
    rw [CutTo]
    split
    · rfl
    · rename_i hb
      have hle := commonDepth_le_depth hl (by simpa using hb)
      exact ⟨line.take (commonDepth lines), line.drop (commonDepth lines),
        (List.take_append_drop _ line).symm, length_take_of_le_depth hle,
        fun c => isIndent_of_mem_take hle, rfl⟩
  · rintro ⟨line, hl, hb⟩
    exact exists_depth_eq_commonDepth hl hb

def indented (indent : List Char) (line : Line) : Line :=
  if allBlank line then line else indent ++ line

private theorem allBlank_indented {indent : List Char} (hi : ∀ c ∈ indent, isIndent c) (line : Line) :
    allBlank (indented indent line) = allBlank line := by
  rw [indented]
  split
  · rfl
  · exact allBlank_append_of_isIndent hi line

private theorem commonDepth_indented {indent : List Char} (hi : ∀ c ∈ indent, isIndent c)
    {lines : List Line} {line : Line} (hl : line ∈ lines) (hb : allBlank line = false) :
    commonDepth (lines.map (indented indent)) = indent.length + commonDepth lines := by
  have hdepth {line : Line} (hb : allBlank line = false) :
      depth (indented indent line) = indent.length + depth line := by
    rw [indented, if_neg (by simp [hb]), depth_append hi]
  apply Nat.le_antisymm
  · obtain ⟨least, hm, hn, hd⟩ := exists_depth_eq_commonDepth hl hb
    rw [← hd, ← hdepth hn]
    exact commonDepth_le_depth (List.mem_map_of_mem hm) ((allBlank_indented hi least).trans hn)
  · obtain ⟨least, hm, hn, hd⟩ := exists_depth_eq_commonDepth
      (List.mem_map_of_mem (f := indented indent) hl) ((allBlank_indented hi line).trans hb)
    obtain ⟨source, hs, rfl⟩ := List.mem_map.mp hm
    rw [allBlank_indented hi] at hn
    rw [← hd, hdepth hn]
    exact Nat.add_le_add_left (commonDepth_le_depth hs hn) _

/-- Indentation that all lines share does not count. -/
theorem dedent_indented {indent : List Char} (hi : ∀ c ∈ indent, isIndent c) (lines : List Line) :
    dedent (lines.map (indented indent)) = dedent lines := by
  simp only [dedent, List.map_map]
  apply List.map_congr_left
  intro line hl
  rw [Function.comp_apply, allBlank_indented hi]
  split
  · rfl
  · rename_i hb
    have hb : allBlank line = false := by simpa using hb
    rw [commonDepth_indented hi hl hb, indented, if_neg (by simp [hb]), List.drop_length_add_append]

/-- A blank line below changes nothing above it. -/
theorem dedent_concat_blank (lines : List Line) {line : Line} (hb : allBlank line) :
    dedent (lines ++ [line]) = dedent lines ++ [[]] := by
  have hcommon : commonDepth (lines ++ [line]) = commonDepth lines := by
    simp [commonDepth, List.filter_append, hb]
  simp [dedent, hcommon, hb]

/-- Empty lines around a text do not count, once it is trimmed. -/
theorem trim_joinLines_within (ls : List Line) :
    trim (joinLines ([] :: (ls ++ [[]]))) = trim (joinLines ls) := by
  cases ls with
  | nil => rfl
  | cons line ls =>
    have htext : joinLines ([] :: (line :: ls ++ [[]])) =
        ['\n'] ++ (joinLines (line :: ls) ++ ['\n']) := by
      rw [List.cons_append, joinLines_cons_cons, ← List.cons_append,
        joinLines_concat (by simp)]
      rfl
    rw [htext, trim_append_of_blank (by decide) (by decide)]

/-- Lines as documentation is written: none broken or with a blank at its end, the first and the last
not empty, and no common indentation. -/
structure Normal (ls : List Line) : Prop where
  oneLine : ∀ line ∈ ls, '\n' ∉ line
  closed : ∀ line ∈ ls, ∀ c ∈ line.getLast?, isBlank c = false
  first : ls.head? ≠ some []
  last : ls.getLast? ≠ some []
  commonDepth : commonDepth ls = 0

theorem Normal.plain {ls : List Line} (h : Normal ls) {line : Line} (hl : line ∈ ls) : Plain line :=
  ⟨h.oneLine line hl, fun hr => absurd (h.closed line hl _ hr) (by decide)⟩

/-- Lines in normal form are read back from their text. -/
theorem Normal.lines_joinLines {ls : List Line} (h : Normal ls) : lines (joinLines ls) = ls := by
  have hread : ReadBack false ls := ⟨fun line hl => h.plain hl, by simp, fun _ => h.last⟩
  have hlines := lines_terminated hread
  rwa [terminated, if_neg (by simp), List.append_nil] at hlines

private theorem dropWhile_isEmpty {ls : List Line} (h : ls.head? ≠ some []) :
    ls.dropWhile (·.isEmpty) = ls := by
  cases ls with
  | nil => rfl
  | cons line ls =>
    have hne : line ≠ [] := by simpa using h
    rw [List.dropWhile_cons_of_neg (by simpa using hne)]

/-- Lines in normal form stay as they are. -/
theorem Normal.normalLines_joinLines {ls : List Line} (h : Normal ls) :
    normalLines (joinLines ls) = ls := by
  have htrim : ls.map trimEnd = ls := by
    conv_rhs => rw [← List.map_id ls]
    exact List.map_congr_left fun line hl => trimEnd_eq_self (h.closed line hl)
  have hlast : ls.reverse.head? ≠ some [] := by
    rw [List.head?_reverse]
    exact h.last
  have houter : withoutOuterEmpty ls = ls := by
    rw [withoutOuterEmpty, dropWhile_isEmpty h.first, dropWhile_isEmpty hlast, List.reverse_reverse]
  rw [normalLines, h.lines_joinLines, htrim, houter, dedent_eq_self h.commonDepth h.closed]

theorem Normal.trimmed_joinLines {first : Line} {below : List Line} (h : Normal (first :: below))
    (hf : ∀ c ∈ first.head?, isBlank c = false) : Trimmed (joinLines (first :: below)) := by
  obtain ⟨c, text, rfl⟩ := List.exists_cons_of_ne_nil (by simpa using h.first)
  obtain ⟨rest, hrest⟩ := exists_joinLines_cons below
  refine ⟨by simp [hrest], fun d hd => hf d (by simpa [hrest] using hd), fun d hd => ?_⟩
  -- the text ends as its last line does, which is not empty
  obtain ⟨above, last, hlast⟩ : ∃ above last, (c :: text) :: below = above ++ [last] :=
    ⟨_, _, (List.dropLast_append_getLast (by simp)).symm⟩
  obtain ⟨upper, hupper⟩ := exists_joinLines_concat above
  have hne : last ≠ [] := by
    rintro rfl
    exact h.last (by rw [hlast, List.getLast?_concat])
  rw [hlast, hupper, List.getLast?_append_of_ne_nil _ hne] at hd
  exact h.closed last (by rw [hlast]; simp) d hd

end DocComments.Doc
