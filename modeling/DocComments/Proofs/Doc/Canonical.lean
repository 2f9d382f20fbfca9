import DocComments.Proofs.Doc.Layout
import DocComments.Proofs.Text.Find
import DocComments.Proofs.Text.Words

/-! The normal form of documentation is canonical. It has a normal form of its own, itself, and how far
a text is indented as a whole and which blank lines stand around it is not seen in it. -/
namespace DocComments.Text

/-- The pieces between the line feeds of a text are its lines, but for blanks at their ends and a last
one that is empty. -/
theorem map_trimEnd_splitOn (s : List Char) :
    ∃ tail, (s.splitOn '\n').map trimEnd = (lines s).map trimEnd ++ tail ∧ ∀ line ∈ tail, line = [] := by
  fun_induction lines s with
  | case1 => exact ⟨[[]], rfl, by simp⟩
  | case2 rest ih =>
    obtain ⟨tail, he, ht⟩ := ih
    refine ⟨tail, ?_, ht⟩
    rw [List.splitOn_cons_eq_if_modifyHead, if_pos (by decide), List.map_cons, he]
    rfl
  | case3 rest ih =>
    obtain ⟨tail, he, ht⟩ := ih
    refine ⟨tail, ?_, ht⟩
    rw [List.splitOn_cons_eq_if_modifyHead, if_neg (by decide), List.splitOn_cons_eq_if_modifyHead,
      if_pos (by decide), List.modifyHead_cons, List.map_cons, he]
    rfl
  | case4 c rest hc hr ih =>
    obtain ⟨tail, he, ht⟩ := ih
    obtain ⟨piece, pieces, hp⟩ := List.exists_cons_of_ne_nil (List.splitOn_ne_nil '\n' rest)
    rw [List.splitOn_cons_eq_if_modifyHead, if_neg (by simpa using hc), hp, List.modifyHead_cons]
    rw [hp] at he
    cases hl : lines rest with
    | nil =>
      obtain rfl := lines_eq_nil_iff.mp hl
      obtain ⟨rfl, rfl⟩ := List.cons_eq_cons.mp hp
      exact ⟨[], rfl, by simp⟩
    | cons line below =>
      rw [hl, List.map_cons, List.map_cons, List.cons_append, List.cons_eq_cons] at he
      refine ⟨tail, ?_, ht⟩
      rw [extendFirst, List.map_cons, List.map_cons, List.cons_append, ← trimEnd_cons_trimEnd, he.1,
        trimEnd_cons_trimEnd, he.2]

theorem splitOn_joinLines {ls : List Line} (hne : ls ≠ []) (h : ∀ line ∈ ls, '\n' ∉ line) :
    (joinLines ls).splitOn '\n' = ls := by
  rw [← intercalate_newline]
  exact List.splitOn_intercalate '\n' h hne

theorem joinLines_splitOn (s : List Char) : joinLines (s.splitOn '\n') = s := by
  rw [← intercalate_newline, List.intercalate_splitOn]

private theorem newline_not_mem_splitOn {s : List Char} {piece : Line} (h : piece ∈ s.splitOn '\n') :
    '\n' ∉ piece := by
  rw [← splitOnChar_eq_splitOn] at h
  exact (mem_splitOnChar h).2

end DocComments.Text

namespace DocComments.Doc
open Text

/-- What is left of lines when the empty ones around them are taken away. -/
theorem exists_withoutOuterEmpty (ls : List Line) :
    ∃ above below, ls = above ++ (withoutOuterEmpty ls ++ below) ∧ (∀ line ∈ above, line = []) ∧
      ∀ line ∈ below, line = [] := by
  have hempty (ls : List Line) : ∀ line ∈ ls.takeWhile (·.isEmpty), line = [] := fun line hl =>
    List.isEmpty_iff.mp (List.all_eq_true.mp List.all_takeWhile line hl)
  refine ⟨ls.takeWhile (·.isEmpty),
    ((ls.dropWhile (·.isEmpty)).reverse.takeWhile (·.isEmpty)).reverse, ?_, hempty ls, ?_⟩
  · rw [withoutOuterEmpty, ← List.reverse_append, List.takeWhile_append_dropWhile, List.reverse_reverse,
      List.takeWhile_append_dropWhile]
  · intro line hl
    exact hempty _ line (List.mem_reverse.mp hl)

theorem withoutOuterEmpty_append {above below : List Line} (ha : ∀ line ∈ above, line = [])
    (hb : ∀ line ∈ below, line = []) (ls : List Line) :
    withoutOuterEmpty (above ++ (ls ++ below)) = withoutOuterEmpty ls := by
  have hall {ls : List Line} (h : ∀ line ∈ ls, line = []) : ∀ line ∈ ls, line.isEmpty := fun line hl =>
    List.isEmpty_iff.mpr (h line hl)
  rw [withoutOuterEmpty, withoutOuterEmpty, List.dropWhile_append_of_pos (hall ha), List.dropWhile_append]
  split
  · rename_i he
    rw [List.isEmpty_iff.mp he, List.dropWhile_eq_nil_iff.mpr (hall hb)]
  · have hrev : ∀ line ∈ below.reverse, line.isEmpty := fun line hl =>
      hall hb line (List.mem_reverse.mp hl)
    rw [List.reverse_append, List.dropWhile_append_of_pos hrev]

theorem withoutOuterEmpty_map {f : Line → Line} {ls : List Line}
    (h : ∀ line, (f line).isEmpty = line.isEmpty) :
    withoutOuterEmpty (ls.map f) = (withoutOuterEmpty ls).map f := by
  have hf : (fun line : Line => line.isEmpty) ∘ f = fun line => line.isEmpty := funext h
  rw [withoutOuterEmpty, List.dropWhile_map, hf, ← List.map_reverse, List.dropWhile_map, hf,
    ← List.map_reverse, withoutOuterEmpty]

theorem head?_withoutOuterEmpty (ls : List Line) : (withoutOuterEmpty ls).head? ≠ some [] := by
  intro hf
  obtain ⟨rest, hr⟩ := List.head?_eq_some_iff.mp hf
  have hpre : withoutOuterEmpty ls <+: ls.dropWhile (·.isEmpty) := by
    rw [withoutOuterEmpty, ← List.reverse_suffix, List.reverse_reverse]
    exact List.dropWhile_suffix _
  obtain ⟨below, hb⟩ := hpre
  have hnot := List.head?_dropWhile_not List.isEmpty ls
  rw [← hb, hr, List.cons_append, List.head?_cons] at hnot
  exact absurd hnot (by decide)

theorem getLast?_withoutOuterEmpty (ls : List Line) : (withoutOuterEmpty ls).getLast? ≠ some [] := by
  intro hl
  rw [withoutOuterEmpty, List.getLast?_reverse] at hl
  have hnot := List.head?_dropWhile_not List.isEmpty (ls.dropWhile (·.isEmpty)).reverse
  rw [hl] at hnot
  exact absurd hnot (by decide)

/-- The lines of a text are as good as the pieces between its line feeds to find the normal form. -/
theorem normalLines_eq_splitOn (doc : List Char) :
    normalLines doc = dedent (withoutOuterEmpty ((doc.splitOn '\n').map trimEnd)) := by
  obtain ⟨tail, hs, ht⟩ := map_trimEnd_splitOn doc
  have houter := withoutOuterEmpty_append (List.forall_mem_nil _) ht ((lines doc).map trimEnd)
  rw [normalLines, hs, ← houter, List.nil_append]

private theorem CutTo.of_trimEnd {n : Nat} {line cut : Line} (h : CutTo n (trimEnd line) cut) :
    CutTo n line cut := by
  rw [CutTo, allBlank_trimEnd] at h
  rw [CutTo]
  split
  · rwa [if_pos ‹_›] at h
  · rw [if_neg ‹_›] at h
    obtain ⟨indent, rest, hl, hn, hi, rfl⟩ := h
    obtain ⟨b, hb, hs⟩ := exists_trimEnd_append line
    exact ⟨indent, rest ++ b, by rw [← List.append_assoc, ← hl, ← hs], hn, hi,
      (trimEnd_append_of_blank hb rest).symm⟩

private theorem CutTo.allBlank_eq {n : Nat} {line cut : Line} (h : CutTo n line cut) :
    allBlank cut = allBlank line := by
  rw [CutTo] at h
  split at h
  · rename_i hb
    rw [h, hb]
    rfl
  · obtain ⟨indent, rest, rfl, -, hi, rfl⟩ := h
    rw [allBlank_trimEnd, allBlank_append_of_isIndent hi]

/-- What is cut off is so much of the indentation. -/
theorem CutTo.depth_eq {n : Nat} {line cut : Line} (h : CutTo n line cut) (hb : allBlank line = false) :
    depth line = n + depth cut := by
  rw [CutTo, if_neg (by simp [hb])] at h
  obtain ⟨indent, rest, rfl, hn, hi, rfl⟩ := h
  rw [allBlank_append_of_isIndent hi] at hb
  rw [depth_append hi, hn, depth_trimEnd hb]

private theorem exists_head?_of_forall₂ {R : Line → Line → Prop} {before after : List Line}
    (h : List.Forall₂ R before after) {cut : Line} (hc : after.head? = some cut) :
    ∃ line, before.head? = some line ∧ R line cut := by
  cases h with
  | nil => simp at hc
  | cons hr _ => exact ⟨_, rfl, Option.some.inj hc ▸ hr⟩

private theorem exists_getLast?_of_forall₂ {R : Line → Line → Prop} {before after : List Line}
    (h : List.Forall₂ R before after) {cut : Line} (hc : after.getLast? = some cut) :
    ∃ line, before.getLast? = some line ∧ R line cut := by
  rw [← List.head?_reverse] at hc
  obtain ⟨line, hl, hr⟩ := exists_head?_of_forall₂ (List.forall₂_reverse_iff.mpr h) hc
  exact ⟨line, by rw [← List.head?_reverse, hl], hr⟩

/-- No line that the outer empty ones leave is blank where it is not empty. -/
private theorem eq_nil_of_cutTo_nil {doc : List Char} {n : Nat} {line : Line} (h : CutTo n line [])
    (hl : line ∈ withoutOuterEmpty ((lines doc).map trimEnd)) : line = [] := by
  obtain ⟨source, -, rfl⟩ := List.mem_map.mp (mem_of_mem_withoutOuterEmpty hl)
  have hb : allBlank (trimEnd source) := h.allBlank_eq.symm
  rw [allBlank_trimEnd] at hb
  exact trimEnd_eq_nil hb

/-- The lines of a text in normal form are in normal form. -/
theorem normal_normalLines (doc : List Char) : Normal (normalLines doc) := by
  obtain ⟨n, hcut, -⟩ := dedented_dedent (withoutOuterEmpty ((lines doc).map trimEnd))
  refine ⟨fun line hl => (plain_of_mem_normalLines hl).1, fun line hl => isBlank_of_getLast?_normalLines hl,
    fun hf => ?_, fun hf => ?_, commonDepth_normalLines doc⟩
  · obtain ⟨line, hl, hr⟩ := exists_head?_of_forall₂ hcut hf
    rw [eq_nil_of_cutTo_nil hr (List.mem_of_head? hl)] at hl
    exact head?_withoutOuterEmpty _ hl
  · obtain ⟨line, hl, hr⟩ := exists_getLast?_of_forall₂ hcut hf
    rw [eq_nil_of_cutTo_nil hr (List.mem_of_getLast? hl)] at hl
    exact getLast?_withoutOuterEmpty _ hl

theorem normalize_normalize (doc : List Char) : normalize (normalize doc) = normalize doc := by
  rw [normalize, normalize, (normal_normalLines doc).normalLines_joinLines]

private theorem map_trimEnd_splitOn_blank {s : List Char} (hb : allBlank s) :
    ∀ line ∈ (s.splitOn '\n').map trimEnd, line = [] := by
  intro line hl
  obtain ⟨piece, hp, rfl⟩ := List.mem_map.mp hl
  rw [← splitOnChar_eq_splitOn] at hp
  exact trimEnd_eq_nil (List.all_eq_true.mpr fun c hc =>
    List.all_eq_true.mp hb c ((mem_splitOnChar hp).1.subset hc))

/-- Blank lines above a text are not seen in its normal form. -/
theorem normalLines_below_blank {above : List Char} (ha : allBlank above) (doc : List Char) :
    normalLines (above ++ '\n' :: doc) = normalLines doc := by
  have houter := withoutOuterEmpty_append (map_trimEnd_splitOn_blank ha) (List.forall_mem_nil _)
    ((doc.splitOn '\n').map trimEnd)
  rw [List.append_nil] at houter
  rw [normalLines_eq_splitOn, List.splitOn_append_cons_self, List.map_append, houter,
    ← normalLines_eq_splitOn]

private theorem normalLines_append_blank_line {below : List Char} (hb : allBlank below) (hn : '\n' ∉ below)
    (doc : List Char) : normalLines (doc ++ below) = normalLines doc := by
  obtain ⟨above, last, hs⟩ : ∃ above last, doc.splitOn '\n' = above ++ [last] :=
    ⟨_, _, (List.dropLast_append_getLast (List.splitOn_ne_nil '\n' doc)).symm⟩
  obtain ⟨text, htext⟩ := exists_joinLines_concat above
  have hdoc : doc ++ below = joinLines (above ++ [last ++ below]) := by
    rw [htext, ← List.append_assoc, ← htext, ← hs, joinLines_splitOn]
  have hpieces : ∀ piece ∈ above ++ [last ++ below], '\n' ∉ piece := by
    have hall : ∀ piece ∈ above ++ [last], '\n' ∉ piece := fun piece hp =>
      newline_not_mem_splitOn (hs ▸ hp)
    intro piece hp
    rcases List.mem_append.mp hp with hp | hp
    · exact hall piece (List.mem_append_left _ hp)
    · rw [List.mem_singleton.mp hp, List.mem_append, not_or]
      exact ⟨hall last (by simp), hn⟩
  rw [normalLines_eq_splitOn, normalLines_eq_splitOn, hdoc, splitOn_joinLines (by simp) hpieces, hs,
    List.map_append, List.map_append, List.map_singleton, List.map_singleton,
    trimEnd_append_of_blank hb]

/-- Blanks behind a text, line feeds among them or not, are not seen in its normal form. -/
theorem normalLines_append_blank {below : List Char} (hb : allBlank below) (doc : List Char) :
    normalLines (doc ++ below) = normalLines doc := by
  by_cases hn : '\n' ∈ below
  · -- the blanks on the last line of the text, and blank lines
    obtain ⟨behind, further, rfl, hbehind⟩ := List.eq_append_cons_of_mem hn
    rw [allBlank, List.all_append, List.all_cons, Bool.and_eq_true, Bool.and_eq_true] at hb
    have houter := withoutOuterEmpty_append (List.forall_mem_nil _) (map_trimEnd_splitOn_blank hb.2.2)
      (((doc ++ behind).splitOn '\n').map trimEnd)
    rw [List.nil_append] at houter
    rw [← List.append_assoc, normalLines_eq_splitOn, List.splitOn_append_cons_self, List.map_append,
      houter, ← normalLines_eq_splitOn, normalLines_append_blank_line hb.1 hbehind]
  · exact normalLines_append_blank_line hb hn doc

theorem normalLines_trimEnd (doc : List Char) : normalLines (trimEnd doc) = normalLines doc := by
  obtain ⟨b, hb, hs⟩ := exists_trimEnd_append doc
  conv_rhs => rw [hs, normalLines_append_blank hb]

/-- The text with the indentation in front of each of its lines that is not blank. -/
def indentLines (indent doc : List Char) : List Char :=
  joinLines ((doc.splitOn '\n').map (indented indent))

/-- Nor is indentation that all lines share. -/
theorem normalLines_indentLines {indent : List Char} (hi : ∀ c ∈ indent, isIndent c) (doc : List Char) :
    normalLines (indentLines indent doc) = normalLines doc := by
  have hempty (line : Line) : (indented indent line).isEmpty = line.isEmpty := by
    rw [indented]
    split
    · rfl
    · rename_i hb
      cases line with
      | nil => exact absurd rfl hb
      | cons c line => simp
  have htrim (line : Line) : trimEnd (indented indent line) = indented indent (trimEnd line) := by
    rw [indented, indented, allBlank_trimEnd]
    split
    · rfl
    · rename_i hb
      exact trimEnd_append_of_not_blank (by simpa using hb) indent
  have hlines : (indentLines indent doc).splitOn '\n' = (doc.splitOn '\n').map (indented indent) := by
    apply splitOn_joinLines (by simp)
    intro line hl
    obtain ⟨piece, hp, rfl⟩ := List.mem_map.mp hl
    have hpiece := newline_not_mem_splitOn hp
    rw [indented]
    split
    · exact hpiece
    · rw [List.mem_append, not_or]
      exact ⟨fun hn => absurd (hi _ hn) (by decide), hpiece⟩
  have hmap : ((doc.splitOn '\n').map (indented indent)).map trimEnd =
      ((doc.splitOn '\n').map trimEnd).map (indented indent) := by
    rw [List.map_map, List.map_map]
    exact List.map_congr_left fun line _ => htrim line
  rw [normalLines_eq_splitOn, hlines, hmap, withoutOuterEmpty_map hempty, dedent_indented hi,
    ← normalLines_eq_splitOn]

private theorem CutTo.words_eq {n : Nat} {line cut : Line} (h : CutTo n line cut) : words cut = words line := by
  rw [CutTo] at h
  split at h
  · rename_i hb
    rw [h, words_of_blank hb, words_nil]
  · obtain ⟨indent, rest, rfl, -, hi, rfl⟩ := h
    have hblank : allBlank indent := List.all_eq_true.mpr fun c hc => isBlank_of_isIndent (hi c hc)
    rw [words_trimEnd, words_append_left hblank]

private theorem flatMap_words_withoutOuterEmpty (ls : List Line) :
    (withoutOuterEmpty ls).flatMap words = ls.flatMap words := by
  obtain ⟨above, below, hls, ha, hb⟩ := exists_withoutOuterEmpty ls
  have hnone {ls : List Line} (h : ∀ line ∈ ls, line = []) : ls.flatMap words = [] :=
    List.flatMap_eq_nil_iff.mpr fun line hl => by rw [h line hl, words_nil]
  conv_rhs => rw [hls, List.flatMap_append, List.flatMap_append, hnone ha, hnone hb, List.nil_append,
    List.append_nil]

/-- The normal form has the words of the text. -/
theorem words_normalize (doc : List Char) : words (normalize doc) = words doc := by
  have hdedent (ls : List Line) : (dedent ls).flatMap words = ls.flatMap words := by
    obtain ⟨n, hcut, -⟩ := dedented_dedent ls
    generalize dedent ls = cut at hcut
    induction hcut with
    | nil => rfl
    | cons h _ ih => rw [List.flatMap_cons, List.flatMap_cons, h.words_eq, ih]
  have htrim : ((doc.splitOn '\n').map trimEnd).flatMap words = (doc.splitOn '\n').flatMap words := by
    simp only [List.flatMap_map, words_trimEnd]
  rw [normalize, words_joinLines, normalLines_eq_splitOn, hdedent, flatMap_words_withoutOuterEmpty, htrim,
    ← words_joinLines, joinLines_splitOn]

/-- The lines after are those before without blank ones above and below, all moved to the left by the
same amount: of two that are not blank, one is as much further in than the other as before. -/
def MovedLeft (before after : List Line) : Prop :=
  ∃ above kept below n, before = above ++ (kept ++ below) ∧ (∀ line ∈ above ++ below, allBlank line) ∧
    List.Forall₂ (CutTo n) kept after ∧
    ∀ a ∈ kept.zip after, ∀ b ∈ kept.zip after, allBlank a.1 = false → allBlank b.1 = false →
      (depth a.1 : Int) - depth b.1 = depth a.2 - depth b.2

private theorem depth_sub_of_forall₂ {n : Nat} {kept after : List Line}
    (h : List.Forall₂ (CutTo n) kept after) {a b : Line × Line} (ha : a ∈ kept.zip after)
    (hb : b ∈ kept.zip after) (hna : allBlank a.1 = false) (hnb : allBlank b.1 = false) :
    (depth a.1 : Int) - depth b.1 = depth a.2 - depth b.2 := by
  have hda := (List.forall₂_zip h ha).depth_eq hna
  have hdb := (List.forall₂_zip h hb).depth_eq hnb
  omega

private theorem movedLeft_normalLines (doc : List Char) : MovedLeft (lines doc) (normalLines doc) := by
  obtain ⟨n, hcut, -⟩ := dedented_dedent (withoutOuterEmpty ((lines doc).map trimEnd))
  obtain ⟨above, below, houter, ha, hb⟩ := exists_withoutOuterEmpty ((lines doc).map trimEnd)
  obtain ⟨above, rest, hlines, rfl, hrest⟩ := List.map_eq_append_iff.mp houter
  obtain ⟨kept, below, rfl, hkept, rfl⟩ := List.map_eq_append_iff.mp hrest
  have hmoved : List.Forall₂ (CutTo n) kept (normalLines doc) := by
    rw [← normalLines, ← hkept, List.forall₂_map_left_iff] at hcut
    exact hcut.imp fun _ _ => CutTo.of_trimEnd
  refine ⟨above, kept, below, n, hlines, fun line hl => ?_, hmoved, fun a hza b hzb hna hnb =>
    depth_sub_of_forall₂ hmoved hza hzb hna hnb⟩
  have hempty : trimEnd line = [] := by
    rcases List.mem_append.mp hl with hl | hl
    · exact ha _ (List.mem_map_of_mem hl)
    · exact hb _ (List.mem_map_of_mem hl)
  rw [← allBlank_trimEnd, hempty]
  rfl

theorem CutTo.sublist {n : Nat} {line cut : Line} (h : CutTo n line cut) : cut.Sublist line := by
  rw [CutTo] at h
  split at h
  · rw [h]
    exact List.nil_sublist _
  · obtain ⟨indent, rest, rfl, -, -, rfl⟩ := h
    exact (prefix_trimEnd rest).sublist.trans (List.sublist_append_right _ _)

/-- The normal form only takes characters away. -/
theorem normalize_sublist (doc : List Char) : (normalize doc).Sublist doc := by
  obtain ⟨above, kept, below, n, hlines, -, hcut, -⟩ := movedLeft_normalLines doc
  have hkept : kept.Sublist (lines doc) := by
    rw [hlines]
    exact (List.sublist_append_left _ _).trans (List.sublist_append_right _ _)
  have hcut := (hcut.imp fun _ _ => CutTo.sublist).flip
  have hsublist := joinLines_sublist (List.sublistForall₂_iff.mpr ⟨kept, hcut, hkept⟩)
  exact hsublist.trans (joinLines_lines_sublist doc)

/-- What leaves lines without the piece as they are leaves the normal form of a text without it. -/
theorem map_normalLines_eq_self {f : Line → Line} {piece doc : List Char}
    (hf : ∀ line, ¬ piece <:+: line → f line = line) (hp : ¬ piece <:+: doc) :
    (normalLines doc).map f = normalLines doc :=
  (List.map_congr_left fun line hl =>
    hf line fun hi => hp (hi.trans (infix_of_mem_normalLines hl))).trans (List.map_id' _)

/-- What makes the normal form of a text canonical. -/
structure Canonical (doc : List Char) : Prop where
  stable : normalLines (normalize doc) = normalLines doc
  first : ∀ line ∈ (normalLines doc).head?, allBlank line = false
  last : ∀ line ∈ (normalLines doc).getLast?, allBlank line = false
  closed : ∀ line ∈ normalLines doc, ∀ c ∈ line.getLast?, isBlank c = false
  flush : normalLines doc ≠ [] → ∃ line ∈ normalLines doc, allBlank line = false ∧ depth line = 0
  indented : ∀ indent, (∀ c ∈ indent, isIndent c) →
    normalLines (indentLines indent doc) = normalLines doc
  above : ∀ blank, allBlank blank → normalLines (blank ++ '\n' :: doc) = normalLines doc
  below : ∀ blank, allBlank blank → normalLines (doc ++ blank) = normalLines doc
  moved : MovedLeft (lines doc) (normalLines doc)

/-- Every text has a canonical normal form: it is its own normal form, begins and ends with a line that
is not blank, has no blank at a line's end and a line that is not indented; indentation of the whole text,
blank lines above it and blanks below it change nothing; and its lines are those of the text moved to the left. -/
theorem canonical_normalLines (doc : List Char) : Canonical doc := by
  have hnormal := normal_normalLines doc
  have hblank : ∀ line ∈ normalLines doc, line ≠ [] → allBlank line = false := fun line hl hne =>
    allBlank_eq_false hne (hnormal.closed line hl)
  have hfirst : ∀ line ∈ (normalLines doc).head?, allBlank line = false := by
    intro line hl
    exact hblank line (List.mem_of_head? hl) fun he => hnormal.first (he ▸ hl)
  refine {
    stable := hnormal.normalLines_joinLines
    first := hfirst
    last := fun line hl => hblank line (List.mem_of_getLast? hl) fun he => hnormal.last (he ▸ hl)
    closed := hnormal.closed
    flush := fun hne => ?_
    indented := fun indent hi => normalLines_indentLines hi doc
    above := fun blank hb => normalLines_below_blank hb doc
    below := fun blank hb => normalLines_append_blank hb doc
    moved := movedLeft_normalLines doc }
  -- the least indented line of the normal form has lost all of its indentation
  obtain ⟨line, rest, hl⟩ := List.exists_cons_of_ne_nil hne
  have hmem : line ∈ normalLines doc := by simp [hl]
  obtain ⟨least, hm, hn, hd⟩ := exists_depth_eq_commonDepth hmem (hfirst line (by simp [hl]))
  exact ⟨least, hm, hn, hd.trans hnormal.commonDepth⟩

end DocComments.Doc
