import DocComments.Proofs.Doc.Canonical

/-! A text of lines that is trimmed as a whole. Trimming takes the indentation of its first line only:
what is left is in normal form, with the other lines as far in as they were. -/
namespace DocComments.Doc
open Text

private theorem allBlank_joinLines {ls : List Line} (h : ∀ line ∈ ls, allBlank line) : allBlank (joinLines ls) := by
  induction ls with
  | nil => rfl
  | cons line ls ih =>
    have hline := h line (by simp)
    have hrest := ih fun l hl => h l (by simp [hl])
    cases ls with
    | nil => exact hline
    | cons next ls =>
      rw [allBlank] at hline hrest
      rw [joinLines_cons_cons, allBlank, List.all_append, List.all_cons, hline, hrest]
      rfl

private theorem trim_eq_nil {s : List Char} (h : allBlank s) : trim s = [] := by
  have htrim := trim_append_of_blank h (b := []) rfl []
  rwa [List.append_nil, List.append_nil] at htrim

/-- Blank lines above a text do not count, once it is trimmed. -/
theorem trim_joinLines_below {above : List Line} (h : ∀ line ∈ above, allBlank line) (ls : List Line) :
    trim (joinLines (above ++ ls)) = trim (joinLines ls) := by
  by_cases ha : above = []
  · rw [ha, List.nil_append]
  · by_cases hl : ls = []
    · rw [hl, List.append_nil, trim_eq_nil (allBlank_joinLines h)]
      rfl
    · have hblank : allBlank (joinLines above ++ ['\n']) := by
        have habove := allBlank_joinLines h
        rw [allBlank] at habove
        rw [allBlank, List.all_append, habove]
        rfl
      have htrim := trim_append_of_blank hblank (b := []) rfl (joinLines ls)
      rw [List.append_nil, List.append_assoc, List.singleton_append] at htrim
      rw [joinLines_append ha hl, htrim]

/-- Nor do blank lines below it. -/
theorem trim_joinLines_above {below : List Line} (h : ∀ line ∈ below, allBlank line) (ls : List Line) :
    trim (joinLines (ls ++ below)) = trim (joinLines ls) := by
  by_cases hb : below = []
  · rw [hb, List.append_nil]
  · by_cases hl : ls = []
    · rw [hl, List.nil_append, trim_eq_nil (allBlank_joinLines h)]
      rfl
    · have hblank : allBlank ('\n' :: joinLines below) := by
        have hbelow := allBlank_joinLines h
        rw [allBlank] at hbelow
        rw [allBlank, List.all_cons, hbelow]
        rfl
      have htrim := trim_append_of_blank (a := []) rfl hblank (joinLines ls)
      rw [List.nil_append] at htrim
      rw [joinLines_append hl hb, htrim]

private theorem trim_joinLines_withoutOuterEmpty (ls : List Line) :
    trim (joinLines (withoutOuterEmpty ls)) = trim (joinLines ls) := by
  obtain ⟨above, below, hls, ha, hb⟩ := exists_withoutOuterEmpty ls
  have hblank {ls : List Line} (h : ∀ line ∈ ls, line = []) : ∀ line ∈ ls, allBlank line := fun line hl => by
    rw [h line hl]
    rfl
  conv_rhs => rw [hls, trim_joinLines_below (hblank ha), trim_joinLines_above (hblank hb)]

/-- Lines as in normal form, however far they are indented. -/
structure Framed (ls : List Line) : Prop where
  oneLine : ∀ line ∈ ls, '\n' ∉ line
  closed : ∀ line ∈ ls, ∀ c ∈ line.getLast?, isBlank c = false
  first : ls.head? ≠ some []
  last : ls.getLast? ≠ some []

theorem Normal.framed {ls : List Line} (h : Normal ls) : Framed ls :=
  { h with }

theorem Framed.map {f : Line → Line} {ls : List Line} (h : Framed ls)
    (hf : ∀ line ∈ ls, '\n' ∉ f line ∧ (∀ c ∈ (f line).getLast?, isBlank c = false) ∧
      (f line = [] → line = [])) : Framed (ls.map f) where
  oneLine := by
    intro line hl
    obtain ⟨source, hs, rfl⟩ := List.mem_map.mp hl
    exact (hf source hs).1
  closed := by
    intro line hl
    obtain ⟨source, hs, rfl⟩ := List.mem_map.mp hl
    exact (hf source hs).2.1
  first := by
    rw [List.head?_map, ne_eq, Option.map_eq_some_iff]
    rintro ⟨line, hl, he⟩
    rw [(hf line (List.mem_of_head? hl)).2.2 he] at hl
    exact h.first hl
  last := by
    rw [List.getLast?_map, ne_eq, Option.map_eq_some_iff]
    rintro ⟨line, hl, he⟩
    rw [(hf line (List.mem_of_getLast? hl)).2.2 he] at hl
    exact h.last hl

private theorem framed_withoutOuterEmpty {ls : List Line} (ho : ∀ line ∈ ls, '\n' ∉ line)
    (hc : ∀ line ∈ ls, ∀ c ∈ line.getLast?, isBlank c = false) : Framed (withoutOuterEmpty ls) where
  oneLine := fun line hl => ho line (mem_of_mem_withoutOuterEmpty hl)
  closed := fun line hl => hc line (mem_of_mem_withoutOuterEmpty hl)
  first := head?_withoutOuterEmpty ls
  last := getLast?_withoutOuterEmpty ls

theorem Framed.closed_joinLines {ls : List Line} (h : Framed ls) :
    ∀ c ∈ (joinLines ls).getLast?, isBlank c = false := by
  cases hl : ls.getLast? with
  | none =>
    rw [List.getLast?_eq_none_iff.mp hl]
    simp [joinLines]
  | some last =>
    obtain ⟨above, rfl⟩ := List.getLast?_eq_some_iff.mp hl
    obtain ⟨text, htext⟩ := exists_joinLines_concat above
    rw [htext]
    exact closed_append (fun he => h.last (he ▸ hl)) (h.closed last (by simp))

namespace Framed
variable {first : Line} {below : List Line}

private theorem exists_trimStart (h : Framed (first :: below)) :
    ∃ c rest, trimStart first = c :: rest ∧ isBlank c = false := by
  have hb : allBlank first = false :=
    allBlank_eq_false (by simpa using h.first) (h.closed first (by simp))
  obtain ⟨c, rest, hs⟩ : ∃ c rest, trimStart first = c :: rest := by
    apply List.exists_cons_of_ne_nil
    intro hn
    rw [trimStart, List.dropWhile_eq_nil_iff, ← List.all_eq_true, ← allBlank, hb] at hn
    exact Bool.false_ne_true hn
  obtain ⟨-, -, hc, -⟩ := exists_of_trimStart_eq_cons hs
  exact ⟨c, rest, hs, hc⟩

/-- With its first line at the margin, the text is in normal form. -/
theorem normal (h : Framed (first :: below)) : Normal (trimStart first :: below) := by
  obtain ⟨c, rest, hs, hc⟩ := h.exists_trimStart
  have hsuffix : trimStart first <:+ first := List.dropWhile_suffix isBlank
  have hlast : (trimStart first).getLast? = first.getLast? := by
    obtain ⟨front, hf⟩ := hsuffix
    conv_rhs => rw [← hf, List.getLast?_append_of_ne_nil _ (by simp [hs])]
  refine ⟨fun line hl => ?_, fun line hl => ?_, by simp [hs], ?_, ?_⟩
  · rcases List.mem_cons.mp hl with rfl | hl
    · exact fun hn => h.oneLine first (by simp) (hsuffix.subset hn)
    · exact h.oneLine line (by simp [hl])
  · rcases List.mem_cons.mp hl with rfl | hl
    · rw [hlast]
      exact h.closed first (by simp)
    · exact h.closed line (by simp [hl])
  · cases below with
    | nil => simp [hs]
    | cons next below =>
      have hframe := h.last
      rwa [List.getLast?_cons_of_ne_nil (by simp)] at hframe ⊢
  · have hdepth : depth (trimStart first) = 0 := depth_eq_zero (by simpa [hs] using hc)
    have hblank : allBlank (trimStart first) = false := by
      rw [hs, allBlank, List.all_cons, hc, Bool.false_and]
    have hle : commonDepth (trimStart first :: below) ≤ depth (trimStart first) :=
      commonDepth_le_depth (by simp) hblank
    omega

theorem trimmed (h : Framed (first :: below)) : Trimmed (joinLines (trimStart first :: below)) := by
  obtain ⟨c, rest, hs, hc⟩ := h.exists_trimStart
  exact h.normal.trimmed_joinLines (by simpa [hs] using hc)

theorem trimStart_append (h : Framed (first :: below)) (text : List Char) :
    trimStart (first ++ text) = trimStart first ++ text := by
  obtain ⟨c, rest, hs, -⟩ := h.exists_trimStart
  rw [trimStart, List.dropWhile_append, ← trimStart, hs]
  rfl

/-- Trimming a text of lines moves its first line to the margin. -/
theorem trim_joinLines (h : Framed (first :: below)) :
    trim (joinLines (first :: below)) = joinLines (trimStart first :: below) := by
  obtain ⟨text, htext⟩ := exists_joinLines_cons below
  rw [htext, trim, h.trimStart_append, ← htext]
  exact trimEnd_eq_self h.trimmed.last

theorem normalize_trim_joinLines (h : Framed (first :: below)) :
    normalize (trim (joinLines (first :: below))) = joinLines (trimStart first :: below) := by
  rw [h.trim_joinLines, normalize, h.normal.normalLines_joinLines]

end Framed

/-- A text of lines without blanks at their ends is in normal form once it is trimmed. -/
theorem normalize_trim_joinLines {ls : List Line} (ho : ∀ line ∈ ls, '\n' ∉ line)
    (hc : ∀ line ∈ ls, ∀ c ∈ line.getLast?, isBlank c = false) :
    normalize (trim (joinLines ls)) = trim (joinLines ls) := by
  have hframed := framed_withoutOuterEmpty ho hc
  rw [← trim_joinLines_withoutOuterEmpty]
  cases hk : withoutOuterEmpty ls with
  | nil => rfl
  | cons first below =>
    rw [hk] at hframed
    rw [hframed.normalize_trim_joinLines, hframed.trim_joinLines]

end DocComments.Doc
