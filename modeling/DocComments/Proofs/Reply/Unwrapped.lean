import DocComments.Proofs.Doc.Trimmed
import DocComments.Proofs.Insert.RoundTrip
import DocComments.Reply

/-! Replies in no wrapper and in one. Cleaning leaves documentation in normal form as it is, and takes a
code fence and the marks of a comment off again. -/
namespace DocComments.Reply
open Text

/-- The text stands between two quotes of one kind, which share no character. -/
def Quoted (quote s : List Char) : Prop :=
  ∃ inside, s = quote ++ (inside ++ quote)

theorem quoted_iff {quote s : List Char} :
    Quoted quote s ↔ 2 * quote.length ≤ s.length ∧ quote <+: s ∧ quote <:+ s := by
  constructor
  · rintro ⟨inside, rfl⟩
    refine ⟨by simp only [List.length_append]; omega, List.prefix_append _ _, ?_⟩
    rw [← List.append_assoc]
    exact List.suffix_append _ _
  · rintro ⟨hlen, ⟨rest, rfl⟩, hsuffix⟩
    -- the quotes are apart, so that those at the end stand behind those at the beginning
    have hrest : quote.length ≤ rest.length := by
      rw [List.length_append] at hlen
      omega
    obtain ⟨inside, rfl⟩ := List.suffix_of_suffix_length_le hsuffix (List.suffix_append _ _) hrest
    exact ⟨inside, rfl⟩

private theorem quote_test_iff {quote s : List Char} :
    (2 * quote.length ≤ s.length && startsWith quote s && endsWith quote s) = true ↔ Quoted quote s := by
  rw [Bool.and_eq_true, Bool.and_eq_true, decide_eq_true_eq, startsWith, endsWith,
    List.isPrefixOf_iff_prefix, List.isSuffixOf_iff_suffix, and_assoc, quoted_iff]

private theorem inside_quotes (quote inside : List Char) :
    ((quote ++ (inside ++ quote)).take ((quote ++ (inside ++ quote)).length - quote.length)).drop
      quote.length = inside := by
  rw [← List.append_assoc, List.length_append, Nat.add_sub_cancel, List.take_left, List.drop_left]

theorem unquoted?_eq_none_iff {s : List Char} :
    unquoted? s = none ↔ ∀ quote ∈ Doc.Docstring.delimiters, ¬ Quoted quote s := by
  rw [unquoted?, List.findSome?_eq_none_iff]
  refine forall₂_congr fun quote _ => ?_
  rw [← quote_test_iff]
  simp only [ite_eq_right_iff, reduceCtorEq, imp_false]

theorem exists_of_unquoted? {s inside : List Char} (h : unquoted? s = some inside) :
    ∃ quote ∈ Doc.Docstring.delimiters, s = quote ++ (inside ++ quote) := by
  obtain ⟨quote, hq, hs⟩ := List.exists_of_findSome?_eq_some h
  split at hs
  · rename_i htest
    obtain ⟨between, rfl⟩ := quote_test_iff.mp htest
    rw [inside_quotes, Option.some_inj] at hs
    exact ⟨quote, hq, by rw [hs]⟩
  · cases hs

theorem unquoted?_append (inside : List Char) :
    unquoted? (Insert.quotes ++ (inside ++ Insert.quotes)) = some inside := by
  rw [unquoted?, Doc.Docstring.delimiters, List.findSome?_cons, ← Insert.quotes,
    if_pos (quote_test_iff.mpr ⟨inside, rfl⟩), inside_quotes]

/-- The text is in none of the wrappers that cleaning removes. -/
structure Bare (s : List Char) : Prop where
  unfenced : ¬ fence <+: s
  unquoted : unquoted? s = none
  uncommented : isComment s = false

instance (s : List Char) : Decidable (Bare s) :=
  decidable_of_iff (¬ fence <+: s ∧ unquoted? s = none ∧ isComment s = false)
    ⟨fun ⟨hf, hq, hc⟩ => ⟨hf, hq, hc⟩, fun ⟨hf, hq, hc⟩ => ⟨hf, hq, hc⟩⟩

theorem isComment_iff {s : List Char} : isComment s ↔ Doc.Jsdoc.opener <+: s ∧ Doc.Jsdoc.closer <:+ s := by
  rw [isComment, Bool.and_eq_true, startsWith, endsWith, List.isPrefixOf_iff_prefix,
    List.isSuffixOf_iff_suffix]

/-- The text in a fence, whatever is written behind its opening. -/
def fenced (tag text : List Char) : List Char :=
  fence ++ (tag ++ '\n' :: (text ++ '\n' :: fence))

/-- The text within the marks of a comment, or within quotes, if it stands in one of them. -/
def peeled (body : List Char) : List Char :=
  if isComment (trim body) then Doc.Jsdoc.strip (lines (trim body))
  else ((unquoted? (trim body)).map trim).getD body

/-- The text within the wrappers of a reply. -/
def unwrapped (reply : List Char) : List Char :=
  peeled (withoutFence (trimEnd reply))

theorem withoutFence_of_unfenced {s : List Char} (h : ¬ fence <+: trimStart s) : withoutFence s = s := by
  rw [withoutFence, dropPrefix?_eq_none_iff.mpr h]

private theorem trimEnd_append_fence (front : List Char) : trimEnd (front ++ fence) = front ++ fence :=
  trimEnd_append_of_not_blank rfl front

private theorem withoutFence_fenced {tag : List Char} (ht : '\n' ∉ tag) (text : List Char) :
    withoutFence (trimEnd (fenced tag text)) = trimEnd text := by
  have hlines : fenced tag text = fence ++ (tag ++ '\n' :: ((text ++ ['\n']) ++ fence)) := by simp [fenced]
  have hend : trimEnd (fenced tag text) = fenced tag text := by
    have htrim := trimEnd_append_fence (fence ++ (tag ++ '\n' :: (text ++ ['\n'])))
    simpa [hlines] using htrim
  have hstart : trimStart (fenced tag text) = fenced tag text := rfl
  have hbelow (rest : List Char) : belowFirstLine (tag ++ '\n' :: rest) = rest := by
    have htag : ∀ c ∈ tag, c != '\n' := fun c hc => by
      rw [bne_iff_ne]
      rintro rfl
      exact ht hc
    rw [belowFirstLine, List.dropWhile_append_of_pos htag]
    rfl
  rw [hend, withoutFence, hstart, hlines, dropPrefix?_append]
  simp only [hbelow, trimEnd_append_fence, withoutSuffix_append]
  exact trimEnd_append_of_blank rfl text

/-- A fence around a text plays no part. -/
theorem clean_fenced {tag text : List Char} (ht : '\n' ∉ tag) (hf : ¬ fence <+: trim text) :
    clean (fenced tag text) = clean text := by
  rw [← trimStart_trimEnd] at hf
  rw [clean, clean, withoutFence_fenced ht, withoutFence_of_unfenced hf]

private theorem withoutStar_suffix (s : List Char) : Doc.Jsdoc.withoutStar s <:+ s := by
  rw [Doc.Jsdoc.withoutStar]
  split
  · rename_i rest hs
    exact (withoutPrefix_suffix [' '] rest).trans (suffix_of_dropPrefix? hs)
  · exact List.suffix_rfl

theorem lineText_isInfix_withoutPrefix (line : Line) :
    Doc.Jsdoc.lineText line <:+: withoutPrefix Doc.Jsdoc.opener (trim line) :=
  (prefix_trimEnd _).isInfix.trans
    ((withoutStar_suffix _).isInfix.trans
      ((List.dropWhile_suffix isBlank).isInfix.trans (withoutSuffix_isPrefix Doc.Jsdoc.closer _).isInfix))

/-- What is written on a line of a comment stands on that line. -/
theorem lineText_isInfix (line : Line) : Doc.Jsdoc.lineText line <:+: line :=
  (lineText_isInfix_withoutPrefix line).trans
    ((withoutPrefix_suffix Doc.Jsdoc.opener (trim line)).isInfix.trans (trim_isInfix line))

/-- The text of a comment is in normal form. -/
theorem normalize_strip {comment : List Line} (h : ∀ line ∈ comment, '\n' ∉ line) :
    Doc.normalize (Doc.Jsdoc.strip comment) = Doc.Jsdoc.strip comment := by
  apply Doc.normalize_trim_joinLines
  · intro line hl
    obtain ⟨source, hs, rfl⟩ := List.mem_map.mp hl
    exact fun hn => h source hs ((lineText_isInfix source).subset hn)
  · intro line hl c hc
    obtain ⟨source, -, rfl⟩ := List.mem_map.mp hl
    exact isBlank_of_getLast?_trimEnd hc

/-- The cleaned text is the text within the wrappers, in normal form. -/
theorem clean_eq_normalize (reply : List Char) : clean reply = Doc.normalize (unwrapped reply) := by
  rw [clean, unwrapped, peeled]
  split
  · exact (normalize_strip fun line => not_mem_of_mem_lines).symm
  · rfl

private theorem unwrapped_of_bare {s : List Char} (h : Bare (trim s)) : unwrapped s = trimEnd s := by
  have hf : ¬ fence <+: trimStart (trimEnd s) := by
    rw [trimStart_trimEnd]
    exact h.unfenced
  rw [unwrapped, withoutFence_of_unfenced hf, peeled, trim_trimEnd, h.uncommented, h.unquoted]
  rfl

/-- A text in no wrapper is only brought into normal form. -/
theorem clean_of_bare {s : List Char} (h : Bare (trim s)) : clean s = Doc.normalize s := by
  rw [clean_eq_normalize, unwrapped_of_bare h, Doc.normalize, Doc.normalLines_trimEnd]
  rfl

theorem clean_of_isComment {s : List Char} (hf : ¬ fence <+: trim s) (hc : isComment (trim s)) :
    clean s = Doc.Jsdoc.strip (lines (trim s)) := by
  rw [← trimStart_trimEnd] at hf
  rw [clean, withoutFence_of_unfenced hf, trim_trimEnd, if_pos hc]

section
variable {indent : List Char} {ls : List Line}

private theorem framed_jsdoc (hi : ∀ c ∈ indent, isIndent c) (hn : Doc.Normal ls) :
    Doc.Framed (Insert.jsdoc ls indent) where
  oneLine := fun line hl => (Insert.plain_jsdoc hi (fun source hs => hn.plain hs) hl).1
  closed := by
    intro line hl
    rcases Insert.mem_jsdoc hl with rfl | rfl | rfl | ⟨source, hs, hne, rfl⟩
    · exact closed_append (by simp) (by rintro c ⟨⟩; rfl)
    · exact closed_append (by simp) (by rintro c ⟨⟩; rfl)
    · exact closed_append (by simp) (by rintro c ⟨⟩; rfl)
    · -- the line ends as the documentation does
      have hescaped := Insert.escaped_escapeCloser source
      have htext : ∀ c ∈ ([' ', '*', ' '] ++ Insert.escapeCloser source).getLast?, isBlank c = false :=
        closed_append (hescaped.ne_nil hne) (hescaped.getLast?_eq ▸ hn.closed source hs)
      exact closed_append (by simp) htext
  first := by simp [Insert.jsdoc]
  last := by
    rw [Insert.jsdoc, List.getLast?_concat]
    simp

private theorem lineText_append (hi : ∀ c ∈ indent, isIndent c) (mark : List Char) :
    Doc.Jsdoc.lineText (indent ++ mark) = Doc.Jsdoc.lineText mark := by
  rw [Doc.Jsdoc.lineText, trim, trimStart_append hi]
  rfl

private theorem exists_jsdoc_eq (indent : List Char) (ls : List Line) :
    ∃ middle, Insert.jsdoc ls indent =
      (indent ++ Doc.Jsdoc.opener) :: (middle ++ [indent ++ ' ' :: Doc.Jsdoc.closer]) :=
  ⟨ls.map fun line => if line.isEmpty then indent ++ [' ', '*']
    else indent ++ ' ' :: '*' :: ' ' :: Insert.escapeCloser line, rfl⟩

/-- A comment block that is trimmed loses only the indentation of its first line. -/
private theorem trim_jsdoc (hi : ∀ c ∈ indent, isIndent c) (hn : Doc.Normal ls) {below : List Line}
    (hb : Insert.jsdoc ls indent = (indent ++ Doc.Jsdoc.opener) :: below) :
    trim (joinLines (Insert.jsdoc ls indent)) = joinLines (Doc.Jsdoc.opener :: below) ∧
      lines (joinLines (Doc.Jsdoc.opener :: below)) = Doc.Jsdoc.opener :: below := by
  have hframed := framed_jsdoc hi hn
  have hopener : trimStart (indent ++ Doc.Jsdoc.opener) = Doc.Jsdoc.opener := trimStart_append hi _
  rw [hb] at hframed ⊢
  have hnormal := hframed.normal
  rw [hopener] at hnormal
  exact ⟨by rw [hframed.trim_joinLines, hopener], hnormal.lines_joinLines⟩

private theorem isComment_jsdoc (hi : ∀ c ∈ indent, isIndent c) (hn : Doc.Normal ls) :
    isComment (trim (joinLines (Insert.jsdoc ls indent))) := by
  obtain ⟨middle, hblock⟩ := exists_jsdoc_eq indent ls
  obtain ⟨rest, hrest⟩ := exists_joinLines_cons (middle ++ [indent ++ ' ' :: Doc.Jsdoc.closer])
  obtain ⟨front, hfront⟩ := exists_joinLines_concat (Doc.Jsdoc.opener :: middle)
  rw [(trim_jsdoc hi hn hblock).1, isComment_iff]
  constructor
  · rw [hrest]
    exact List.prefix_append _ _
  · rw [← List.cons_append, hfront]
    exact ⟨front ++ (indent ++ [' ']), by simp⟩

/-- A text that is enclosed like a comment does not begin like a fence. -/
theorem not_fence_prefix_of_isComment {s : List Char} (h : isComment s) : ¬ fence <+: s := by
  obtain ⟨rest, rfl⟩ := (isComment_iff.mp h).1
  rw [fence, Doc.Jsdoc.opener, List.cons_append, List.cons_prefix_cons]
  exact fun hp => absurd hp.1 (by decide)

/-- The marks of a comment block are taken off again; what closes a comment stays escaped. -/
theorem clean_jsdoc (hi : ∀ c ∈ indent, isIndent c) (hn : Doc.Normal ls) :
    clean (joinLines (Insert.jsdoc ls indent)) = trim (joinLines (ls.map Insert.escapeCloser)) := by
  obtain ⟨middle, hblock⟩ := exists_jsdoc_eq indent ls
  obtain ⟨htrim, hlines⟩ := trim_jsdoc hi hn hblock
  have hcomment := isComment_jsdoc hi hn
  rw [clean_of_isComment (not_fence_prefix_of_isComment hcomment) hcomment, htrim, hlines,
    ← Insert.strip_jsdoc hi hn.closed, hblock, Doc.Jsdoc.strip, Doc.Jsdoc.strip, List.map_cons, List.map_cons,
    lineText_append hi]

end

private theorem trimmed_of_normalize {doc : List Char} (hne : doc ≠ []) (hn : Doc.normalize doc = doc)
    (hs : ∀ c ∈ doc.head?, isBlank c = false) : Trimmed doc := by
  have hnormal := Doc.normal_normalLines doc
  cases hl : Doc.normalLines doc with
  | nil =>
    rw [Doc.normalize, hl] at hn
    exact absurd hn.symm hne
  | cons first below =>
    have hdoc : joinLines (first :: below) = doc := by rw [← hl, ← Doc.normalize, hn]
    rw [hl] at hnormal
    obtain ⟨rest, hrest⟩ := exists_joinLines_cons below
    rw [← hdoc, hrest, List.head?_append_of_ne_nil _ (by simpa using hnormal.first)] at hs
    exact hdoc ▸ hnormal.trimmed_joinLines hs

/-- Documentation in normal form, with its first line at the margin, is left as it is where it stands in
no wrapper, and is what is left of the fence it is put into and of the comment it is written as. -/
theorem clean_documentation {doc : List Char} (hne : doc ≠ []) (hn : Doc.normalize doc = doc)
    (hs : ∀ c ∈ doc.head?, isBlank c = false) (hb : Bare doc) :
    clean doc = doc ∧ (∀ tag, '\n' ∉ tag → clean (fenced tag doc) = doc) ∧
      (¬ Doc.Jsdoc.closer <:+: doc → ∀ indent, (∀ c ∈ indent, isIndent c) →
        let comment := joinLines (Insert.jsdoc (Doc.normalLines doc) indent)
        clean comment = doc ∧ ∀ tag, '\n' ∉ tag → clean (fenced tag comment) = doc) := by
  have htrim : trim doc = doc := (trimmed_of_normalize hne hn hs).trim_eq_self
  have hclean : clean doc = doc := (clean_of_bare (htrim.symm ▸ hb)).trans hn
  refine ⟨hclean, fun tag ht => ?_, fun hc indent hi => ?_⟩
  · exact (clean_fenced ht (htrim.symm ▸ hb.unfenced)).trans hclean
  · have hnormal := Doc.normal_normalLines doc
    have hescape : (Doc.normalLines doc).map Insert.escapeCloser = Doc.normalLines doc :=
      Doc.map_normalLines_eq_self (fun _ => Insert.escapeCloser_eq_self) hc
    have hcomment : clean (joinLines (Insert.jsdoc (Doc.normalLines doc) indent)) = doc := by
      rw [clean_jsdoc hi hnormal, hescape, ← Doc.normalize, hn, htrim]
    refine ⟨hcomment, fun tag ht => ?_⟩
    exact (clean_fenced ht (not_fence_prefix_of_isComment (isComment_jsdoc hi hnormal))).trans hcomment

/-- Documentation with stars, backquotes and quotes of its own, a blank line and a line further in. -/
theorem clean_documentation_stars :
    let doc := "* One.\n\n  - '''two''' ```\n/** three".toList
    let comment := joinLines (Insert.jsdoc (Doc.normalLines doc) ['\t'])
    clean doc = doc ∧ clean (fenced "md".toList doc) = doc ∧ clean comment = doc ∧
      clean (fenced [] comment) = doc := by
  intro doc comment
  have hn : Doc.normalize doc = doc := by decide +kernel
  have hs : ∀ c ∈ doc.head?, isBlank c = false := by rintro c ⟨⟩; rfl
  have hb : Bare doc := by decide +kernel
  obtain ⟨hclean, hfenced, hcomment⟩ := clean_documentation (by decide) hn hs hb
  obtain ⟨hbare, hinside⟩ := hcomment (by decide +kernel) ['\t'] (by simp [isIndent])
  exact ⟨hclean, hfenced _ (by decide), hbare, hinside [] (by decide)⟩

end DocComments.Reply
