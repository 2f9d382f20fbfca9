import DocComments.Proofs.Reply.Unwrapped
import DocComments.Proofs.Text.Case

/-! Replies in several wrappers. Each cleaning takes a fence and then one pair of quotes or comment marks
away, so that a wrapper within stays, and the text is not bare before it is cleaned again. -/
namespace DocComments.Reply
open Text

/-- Quotes around a trimmed text are told by its words. -/
theorem quoted_trim_iff {quote : List Char} (hne : quote ≠ []) (hq : ∀ c ∈ quote, isBlank c = false)
    (s : List Char) : Quoted quote (trim s) ↔ 2 * quote.length ≤ (words s).flatten.length ∧
      (∃ word ∈ (words s).head?, quote <+: word) ∧ ∃ word ∈ (words s).getLast?, quote <:+ word := by
  rw [← prefix_trim_iff hne hq, ← suffix_trim_iff hne hq, ← words_trim, flatten_words, quoted_iff]
  refine and_congr_left fun h => ⟨fun hlen => ?_, fun hlen => hlen.trans (List.length_filter_le _ _)⟩
  obtain ⟨inside, hs⟩ := quoted_iff.mpr ⟨hlen, h⟩
  have hquote : quote.filter (!isBlank ·) = quote := List.filter_eq_self.mpr (by simpa using hq)
  rw [hs, List.filter_append, List.filter_append, hquote]
  simp only [List.length_append]
  omega

/-- Which texts are bare, without the functions that look for wrappers. -/
theorem bare_iff {s : List Char} : Bare s ↔ ¬ fence <+: s ∧
    (∀ quote ∈ Doc.Docstring.delimiters, ¬ Quoted quote s) ∧
      ¬ (Doc.Jsdoc.opener <+: s ∧ Doc.Jsdoc.closer <:+ s) := by
  rw [← unquoted?_eq_none_iff, ← isComment_iff, Bool.not_eq_true]
  constructor
  · rintro ⟨hf, hq, hc⟩
    exact ⟨hf, hq, hc⟩
  · rintro ⟨hf, hq, hc⟩
    exact ⟨hf, hq, hc⟩

private theorem noBlank_of_mem_delimiters :
    ∀ quote ∈ Doc.Docstring.delimiters, quote ≠ [] ∧ noBlank quote := by
  decide

private theorem trimmed_of_noBlank {mark : List Char} (h : mark ≠ [] ∧ noBlank mark) : Trimmed mark :=
  (phrase_of_not_blank h.1 (noBlank_iff.mp h.2)).toTrimmed

/-- Whether a trimmed text is bare is told by its words. -/
theorem bare_trim_iff_of_words_eq {s t : List Char} (h : words s = words t) :
    Bare (trim s) ↔ Bare (trim t) := by
  have hprefix {mark : List Char} (hne : mark ≠ []) (hm : noBlank mark) :
      mark <+: trim s ↔ mark <+: trim t := by
    rw [prefix_trim_iff hne (noBlank_iff.mp hm), h, ← prefix_trim_iff hne (noBlank_iff.mp hm)]
  have hsuffix {mark : List Char} (hne : mark ≠ []) (hm : noBlank mark) :
      mark <:+ trim s ↔ mark <:+ trim t := by
    rw [suffix_trim_iff hne (noBlank_iff.mp hm), h, ← suffix_trim_iff hne (noBlank_iff.mp hm)]
  have hquoted : ∀ quote ∈ Doc.Docstring.delimiters, Quoted quote (trim s) ↔ Quoted quote (trim t) := by
    intro quote hq
    obtain ⟨hne, hb⟩ := noBlank_of_mem_delimiters quote hq
    rw [quoted_trim_iff hne (noBlank_iff.mp hb), h, ← quoted_trim_iff hne (noBlank_iff.mp hb)]
  rw [bare_iff, bare_iff, hprefix (by decide) (by decide), hprefix (by decide) (by decide),
    hsuffix (by decide) (by decide)]
  exact and_congr_right fun _ => and_congr_left fun _ =>
    forall₂_congr fun quote hq => not_congr (hquoted quote hq)

/-- A text that is bare once it is trimmed is bare with its indentation too. -/
theorem bare_of_bare_trim {s : List Char} (h : Bare (trim s)) : Bare s := by
  obtain ⟨hf, hq, hc⟩ := bare_iff.mp h
  refine bare_iff.mpr ⟨fun hfence => ?_, fun quote hmem hs => ?_, fun hmarks => ?_⟩
  · obtain ⟨rest, rfl⟩ := hfence
    have hopen : Trimmed fence := trimmed_of_noBlank (by decide)
    exact hf (hopen.trim_append rest ▸ List.prefix_append _ _)
  · have hmark := trimmed_of_noBlank (noBlank_of_mem_delimiters quote hmem)
    obtain ⟨-, hp, hsuffix⟩ := quoted_iff.mp hs
    exact hq quote hmem ((Trimmed.of_ends hmark hmark hp hsuffix).trim_eq_self.symm ▸ hs)
  · have hopener : Trimmed Doc.Jsdoc.opener := trimmed_of_noBlank (by decide)
    have hcloser : Trimmed Doc.Jsdoc.closer := trimmed_of_noBlank (by decide)
    have htrim := (Trimmed.of_ends hopener hcloser hmarks.1 hmarks.2).trim_eq_self
    exact hc (htrim.symm ▸ hmarks)

theorem bare_normalize (s : List Char) : Bare (trim (Doc.normalize s)) ↔ Bare (trim s) :=
  bare_trim_iff_of_words_eq (Doc.words_normalize s)

/-- Of a text in a fence, at least the mark that opens it is taken away. -/
theorem fence_append_sublist {s : List Char} (h : fence <+: trimStart s) :
    (fence ++ withoutFence s).Sublist s := by
  obtain ⟨opened, hs⟩ := h
  have hinside : withoutFence s <:+: opened := by
    rw [withoutFence, ← hs, dropPrefix?_append]
    exact (prefix_trimEnd _).isInfix.trans ((withoutSuffix_isPrefix fence _).isInfix.trans
      ((prefix_trimEnd _).isInfix.trans ((List.drop_suffix _ _).trans (List.dropWhile_suffix _)).isInfix))
  exact (hinside.sublist.append_left fence).trans (hs ▸ (List.dropWhile_suffix isBlank).sublist)

/-- Of a comment, at least the mark that opens it is taken away. -/
theorem opener_append_sublist {s : List Char} (h : Doc.Jsdoc.opener <+: s) :
    (Doc.Jsdoc.opener ++ Doc.Jsdoc.strip (lines s)).Sublist s := by
  obtain ⟨tail, rfl⟩ := h
  obtain ⟨rest, below, hlines⟩ := exists_lines_append (s := Doc.Jsdoc.opener) ⟨by decide, by decide⟩
    (by decide) tail
  obtain ⟨text, htext⟩ := exists_joinLines_cons below
  have hfirst : Doc.Jsdoc.lineText (Doc.Jsdoc.opener ++ rest) <:+: rest := by
    have hopener : Trimmed Doc.Jsdoc.opener := trimmed_of_noBlank (by decide)
    have hinside := lineText_isInfix_withoutPrefix (Doc.Jsdoc.opener ++ rest)
    rw [hopener.trim_append, withoutPrefix, dropPrefix?_append] at hinside
    exact hinside.trans (prefix_trimEnd rest).isInfix
  -- only the first line holds the mark; of those below it no more is known than that they get shorter
  have hbelow : List.Forall₂ List.Sublist (below.map Doc.Jsdoc.lineText) below :=
    List.forall₂_map_left_iff.mpr (List.forall₂_same.mpr fun line _ => (lineText_isInfix line).sublist)
  have hstrip : (Doc.Jsdoc.strip (lines (Doc.Jsdoc.opener ++ tail))).Sublist (rest ++ text) := by
    rw [hlines, Doc.Jsdoc.strip, List.map_cons, ← htext]
    refine (trim_isInfix _).sublist.trans (joinLines_sublist ?_)
    exact List.SublistForall₂.cons hfirst.sublist (List.sublistForall₂_iff.mpr ⟨below, hbelow, .refl _⟩)
  have hall := joinLines_lines_sublist (Doc.Jsdoc.opener ++ tail)
  rw [hlines, htext, List.append_assoc] at hall
  exact (hstrip.append_left _).trans hall

/-- Of a text in quotes or in comment marks, at least the one in front is taken away. -/
theorem exists_mark_append_sublist {body : List Char}
    (h : isComment (trim body) ∨ unquoted? (trim body) ≠ none) :
    ∃ mark, mark ≠ [] ∧ (mark ++ peeled body).Sublist body := by
  have htrim := (trim_isInfix body).sublist
  rw [peeled]
  split
  · rename_i hc
    exact ⟨Doc.Jsdoc.opener, by decide, (opener_append_sublist (isComment_iff.mp hc).1).trans htrim⟩
  · rename_i hc
    obtain ⟨inside, hq⟩ := Option.ne_none_iff_exists'.mp (h.resolve_left hc)
    obtain ⟨quote, hmem, hs⟩ := exists_of_unquoted? hq
    have hinside := (trim_isInfix inside).sublist.trans (List.sublist_append_left inside quote)
    refine ⟨quote, (noBlank_of_mem_delimiters quote hmem).1, ?_⟩
    rw [hq, Option.map_some, Option.getD_some]
    rw [hs] at htrim
    exact (hinside.append_left quote).trans htrim

private theorem peeled_sublist (body : List Char) : (peeled body).Sublist body := by
  by_cases h : isComment (trim body) ∨ unquoted? (trim body) ≠ none
  · obtain ⟨mark, -, hs⟩ := exists_mark_append_sublist h
    exact (List.sublist_append_right _ _).trans hs
  · rw [not_or, not_not] at h
    rw [peeled, if_neg h.1, h.2]
    exact List.Sublist.refl body

private theorem withoutFence_sublist (s : List Char) : (withoutFence s).Sublist s := by
  by_cases h : fence <+: trimStart s
  · exact (List.sublist_append_right _ _).trans (fence_append_sublist h)
  · rw [withoutFence_of_unfenced h]

private theorem unwrapped_sublist (reply : List Char) : (unwrapped reply).Sublist reply :=
  (peeled_sublist _).trans ((withoutFence_sublist _).trans (prefix_trimEnd reply).sublist)

/-- Cleaning only takes characters away. -/
theorem clean_sublist (reply : List Char) : (clean reply).Sublist reply := by
  rw [clean_eq_normalize]
  exact (Doc.normalize_sublist _).trans (unwrapped_sublist reply)

private theorem length_unwrapped_lt {s : List Char} (h : ¬ Bare (trim s)) : (unwrapped s).length < s.length := by
  have hend := (prefix_trimEnd s).length_le
  by_cases hf : fence <+: trim s
  · have hfence := (fence_append_sublist (s := trimEnd s) (by rwa [trimStart_trimEnd])).length_le
    have hpeeled := (peeled_sublist (withoutFence (trimEnd s))).length_le
    rw [List.length_append, fence, List.length_cons] at hfence
    rw [unwrapped]
    omega
  · have hwithin : isComment (trim (trimEnd s)) ∨ unquoted? (trim (trimEnd s)) ≠ none := by
      rw [trim_trimEnd]
      by_contra hnone
      rw [not_or, Bool.not_eq_true, not_not] at hnone
      exact h ⟨hf, hnone.2, hnone.1⟩
    obtain ⟨mark, hne, hmark⟩ := exists_mark_append_sublist hwithin
    have hpos := List.length_pos_of_ne_nil hne
    have hpeeled := hmark.length_le
    rw [List.length_append] at hpeeled
    rw [← trimStart_trimEnd] at hf
    rw [unwrapped, withoutFence_of_unfenced hf]
    omega

/-- A text in a wrapper is shorter once it is cleaned. -/
theorem length_clean_lt {s : List Char} (h : ¬ Bare (trim s)) : (clean s).length < s.length := by
  rw [clean_eq_normalize]
  exact (Doc.normalize_sublist _).length_le.trans_lt (length_unwrapped_lt h)

private theorem normalize_clean (reply : List Char) : Doc.normalize (clean reply) = clean reply := by
  rw [clean_eq_normalize, Doc.normalize_normalize]

/-- Cleaning leaves a text as it is exactly if it is in normal form and in no wrapper. -/
theorem clean_eq_self_iff {s : List Char} : clean s = s ↔ Bare (trim s) ∧ Doc.normalize s = s := by
  constructor
  · intro h
    have hb : Bare (trim s) := by
      by_contra hb
      exact absurd (length_clean_lt hb) (by rw [h]; exact lt_irrefl _)
    exact ⟨hb, by rw [← h, normalize_clean]⟩
  · rintro ⟨hb, hn⟩
    exact (clean_of_bare hb).trans hn

/-- Cleaning again and again ends with a text in no wrapper. -/
theorem exists_bare_iterate (reply : List Char) : ∃ n, Bare (trim (clean^[n] reply)) := by
  by_cases h : Bare (trim reply)
  · exact ⟨0, h⟩
  · have := length_clean_lt h
    obtain ⟨n, hn⟩ := exists_bare_iterate (clean reply)
    exact ⟨n + 1, hn⟩
termination_by reply.length

/-- A cleaned reply is bare, and left as it is by a second cleaning, exactly if the text within the wrappers
that were removed is in no wrapper itself; otherwise the second cleaning takes more away. -/
theorem clean_clean_iff (reply : List Char) :
    (Bare (trim (clean reply)) ↔ Bare (trim (unwrapped reply))) ∧
      (Bare (trim (unwrapped reply)) → Bare (clean reply)) ∧
      (clean (clean reply) = clean reply ↔ Bare (trim (unwrapped reply))) ∧
      (¬ Bare (trim (unwrapped reply)) → (clean (clean reply)).length < (clean reply).length) := by
  have hbare : Bare (trim (clean reply)) ↔ Bare (trim (unwrapped reply)) := by
    rw [clean_eq_normalize, bare_normalize]
  refine ⟨hbare, fun h => bare_of_bare_trim (hbare.mpr h), ?_, fun h => length_clean_lt (mt hbare.mp h)⟩
  rw [clean_eq_self_iff, hbare, and_iff_left (normalize_clean reply)]

/-- A comment within quotes stays one, although a reply that is a comment is not left as one. -/
theorem comment_within_quotes_stays :
    let reply := "\"\"\"/** Doc. */\"\"\"".toList
    clean reply = "/** Doc. */".toList ∧ ¬ Bare (clean reply) ∧ clean (clean reply) = "Doc.".toList ∧
      clean (clean reply) ≠ clean reply := by
  decide +kernel

end DocComments.Reply
