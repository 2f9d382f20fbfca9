import DocComments.Proofs.Text.Blank
import DocComments.Proofs.Text.Find
import DocComments.Proofs.Text.Lines

/-! The words of a text, which stand between its blanks. They tell how the trimmed text begins and how it
ends, up to the first blank and from the last. -/
namespace DocComments.Text

/-- The pieces between blanks, none of them empty. -/
def words (s : List Char) : List (List Char) :=
  (s.splitOnP isBlank).filter (!·.isEmpty)

@[simp] theorem words_nil : words [] = [] := rfl

theorem words_append_cons {c : Char} (hc : isBlank c) (s t : List Char) :
    words (s ++ c :: t) = words s ++ words t := by
  rw [words, List.splitOnP_append_cons s t hc, List.filter_append, words, words]

theorem words_cons {c : Char} (hc : isBlank c) (s : List Char) : words (c :: s) = words s :=
  words_append_cons hc [] s

theorem words_append_left {b : List Char} (hb : allBlank b) (s : List Char) : words (b ++ s) = words s := by
  induction b with
  | nil => rfl
  | cons c b ih =>
    rw [allBlank, List.all_cons, Bool.and_eq_true] at hb
    rw [List.cons_append, words_cons hb.1, ih hb.2]

theorem words_of_blank {b : List Char} (hb : allBlank b) : words b = [] := by
  have hwords := words_append_left hb []
  rwa [List.append_nil] at hwords

theorem words_append_right {b : List Char} (hb : allBlank b) (s : List Char) : words (s ++ b) = words s := by
  cases b with
  | nil => rw [List.append_nil]
  | cons c b =>
    rw [allBlank, List.all_cons, Bool.and_eq_true] at hb
    rw [words_append_cons hb.1, words_of_blank hb.2, List.append_nil]

theorem words_trimEnd (s : List Char) : words (trimEnd s) = words s := by
  obtain ⟨b, hb, hs⟩ := exists_trimEnd_append s
  conv_rhs => rw [hs, words_append_right hb]

theorem words_trim (s : List Char) : words (trim s) = words s := by
  have hb : allBlank (s.takeWhile isBlank) := List.all_takeWhile
  have hs : s.takeWhile isBlank ++ trimStart s = s := List.takeWhile_append_dropWhile
  rw [trim, words_trimEnd]
  conv_rhs => rw [← hs, words_append_left hb]

theorem words_joinLines (ls : List Line) : words (joinLines ls) = ls.flatMap words := by
  induction ls with
  | nil => rfl
  | cons line ls ih =>
    cases ls with
    | nil => rw [joinLines, List.flatMap_singleton]
    | cons next ls => rw [joinLines_cons_cons, words_append_cons (by decide), ih]; rfl

/-- A text without blanks is one word. -/
theorem words_of_not_blank {s : List Char} (hne : s ≠ []) (h : ∀ c ∈ s, isBlank c = false) :
    words s = [s] := by
  rw [words, List.splitOnP_eq_singleton h]
  simp [hne]

theorem flatten_words (s : List Char) : (words s).flatten = s.filter (!isBlank ·) := by
  rw [words, List.flatten_filter_not_isEmpty]
  induction s with
  | nil => rfl
  | cons c s ih =>
    rw [List.splitOnP_cons_eq_if_modifyHead]
    split
    · rename_i hc
      rw [List.flatten_cons, List.nil_append, ih, List.filter_cons_of_neg (by simp [hc])]
    · rename_i hc
      obtain ⟨word, rest, hw⟩ := List.exists_cons_of_ne_nil (List.splitOnP_ne_nil isBlank s)
      rw [hw, List.flatten_cons] at ih
      rw [hw, List.modifyHead_cons, List.flatten_cons, List.cons_append, ih,
        List.filter_cons_of_pos (by simpa using hc)]

/-- A text that does not begin with a blank is a word and what stands behind it. -/
private theorem exists_word_append {s : List Char} (hne : s ≠ []) (h : ∀ c ∈ s.head?, isBlank c = false) :
    ∃ word after, s = word ++ after ∧ word ≠ [] ∧ (∀ c ∈ word, isBlank c = false) ∧
      ∀ c ∈ after.head?, isBlank c := by
  refine ⟨s.takeWhile (!isBlank ·), s.dropWhile (!isBlank ·), List.takeWhile_append_dropWhile.symm, ?_,
    fun c hc => ?_, fun c hc => ?_⟩
  · obtain ⟨c, rest, rfl⟩ := List.exists_cons_of_ne_nil hne
    have hc : isBlank c = false := h c rfl
    rw [List.takeWhile_cons_of_pos (by simp [hc])]
    simp
  · simpa using List.all_eq_true.mp List.all_takeWhile c hc
  · have hnot := List.head?_dropWhile_not (!isBlank ·) s
    rw [Option.mem_def.mp hc] at hnot
    simpa using hnot

section
variable {piece word after before : List Char}

theorem words_word_append (hne : word ≠ []) (hw : ∀ c ∈ word, isBlank c = false)
    (ha : ∀ c ∈ after.head?, isBlank c) : words (word ++ after) = word :: words after := by
  cases after with
  | nil =>
    rw [List.append_nil, words_of_not_blank hne hw]
    rfl
  | cons c after =>
    have hc : isBlank c := ha c rfl
    rw [words_append_cons hc, words_of_not_blank hne hw, words_cons hc]
    rfl

theorem words_append_word (hne : word ≠ []) (hw : ∀ c ∈ word, isBlank c = false)
    (hb : ∀ c ∈ before.getLast?, isBlank c) : words (before ++ word) = words before ++ [word] := by
  cases hl : before.getLast? with
  | none =>
    rw [List.getLast?_eq_none_iff.mp hl]
    exact words_of_not_blank hne hw
  | some c =>
    obtain ⟨front, rfl⟩ := List.getLast?_eq_some_iff.mp hl
    have hc : isBlank c := hb c hl
    rw [List.append_assoc, List.singleton_append, words_append_cons hc, words_append_cons hc,
      words_of_not_blank hne hw, words_nil, List.append_nil]

private theorem prefix_word_append_iff (hp : ∀ c ∈ piece, isBlank c = false)
    (ha : ∀ c ∈ after.head?, isBlank c) : piece <+: word ++ after ↔ piece <+: word := by
  refine ⟨fun h => ?_, fun h => h.trans (List.prefix_append word after)⟩
  cases after with
  | nil => rwa [List.append_nil] at h
  | cons c after =>
    have hc : c ∉ piece := fun hm => by simpa [hp c hm] using ha c rfl
    exact not_imp_not.mp (fun hno => not_prefix_append_cons hc hno after) h

end

/-- How a trimmed text begins, up to the first blank, is told by its first word. -/
theorem prefix_trim_iff {piece : List Char} (hne : piece ≠ []) (hp : ∀ c ∈ piece, isBlank c = false)
    (s : List Char) : piece <+: trim s ↔ ∃ word ∈ (words s).head?, piece <+: word := by
  rw [← words_trim]
  rcases trim_eq_nil_or_trimmed s with hs | hs
  · rw [hs]
    simp [hne]
  · obtain ⟨word, after, he, hword, hw, ha⟩ := exists_word_append hs.ne_nil hs.head
    rw [he, words_word_append hword hw ha, prefix_word_append_iff hp ha]
    simp

/-- How a trimmed text ends, from the last blank on, is told by its last word. -/
theorem suffix_trim_iff {piece : List Char} (hne : piece ≠ []) (hp : ∀ c ∈ piece, isBlank c = false)
    (s : List Char) : piece <:+ trim s ↔ ∃ word ∈ (words s).getLast?, piece <:+ word := by
  rw [← words_trim]
  rcases trim_eq_nil_or_trimmed s with hs | hs
  · rw [hs]
    simp [hne]
  · have hhead : ∀ c ∈ (trim s).reverse.head?, isBlank c = false := by
      rw [List.head?_reverse]
      exact hs.last
    -- the last word is the first of the text read backwards
    obtain ⟨word, after, he, hword, hw, ha⟩ := exists_word_append (by simpa using hs.ne_nil) hhead
    have htrim : trim s = after.reverse ++ word.reverse := by
      rw [← List.reverse_append, ← he, List.reverse_reverse]
    have hpiece : ∀ c ∈ piece.reverse, isBlank c = false := fun c hc => hp c (List.mem_reverse.mp hc)
    rw [htrim, words_append_word (by simpa using hword) (fun c hc => hw c (List.mem_reverse.mp hc))
      (by rwa [List.getLast?_reverse]), List.getLast?_concat]
    rw [← List.reverse_prefix, List.reverse_append, List.reverse_reverse, List.reverse_reverse,
      prefix_word_append_iff hpiece ha]
    simp [← List.reverse_prefix]

end DocComments.Text
