import DocComments.Proofs.Reply.Unwrapped

/-! Replies in the form of a docstring. The text between the quotes is trimmed before its common
indentation is looked for, so that the first line counts as not indented and the others stay as far in as
they were written. -/
namespace DocComments.Reply
open Text

/-- The lines with the first at the margin and the others indented. -/
def hanging (indent : List Char) : List Line → List Line
  | [] => []
  | first :: below => trimStart first :: below.map (Doc.indented indent)

private theorem not_fence_prefix_quotes (s : List Char) : ¬ fence <+: Insert.quotes ++ s := by
  rw [fence, Insert.quotes, List.cons_append, List.cons_prefix_cons]
  exact fun hp => absurd hp.1 (by decide)

private theorem clean_of_quotes {s inside : List Char} (h : trim s = Insert.quotes ++ (inside ++ Insert.quotes)) :
    clean s = Doc.normalize (trim inside) := by
  have hf : ¬ fence <+: trimStart (trimEnd s) := by
    rw [trimStart_trimEnd, h]
    exact not_fence_prefix_quotes _
  have hc : isComment (trim s) = false := by
    rw [h]
    rfl
  rw [clean_eq_normalize, unwrapped, withoutFence_of_unfenced hf, peeled, trim_trimEnd, hc, h,
    unquoted?_append]
  rfl

section
variable {indent : List Char} {ls : List Line}

/-- The lines between the delimiters of a docstring block. -/
private theorem framed_written (hi : ∀ c ∈ indent, isIndent c) (hn : Doc.Normal ls) :
    Doc.Framed ((ls.map Insert.escapeQuotes).map (Doc.indented indent)) := by
  rw [List.map_map]
  apply hn.framed.map
  intro line hl
  rw [Function.comp_apply]
  cases line with
  | nil => simp [Insert.escapeQuotes, Doc.indented, allBlank]
  | cons c rest =>
    have hescaped := Insert.escaped_escapeQuotes (c :: rest)
    have hne := hescaped.ne_nil (by simp)
    have hb : allBlank (Insert.escapeQuotes (c :: rest)) = false :=
      (Insert.allBlank_escapeQuotes _).trans (allBlank_eq_false (by simp) (hn.closed _ hl))
    rw [Doc.indented, hb, if_neg (by decide)]
    refine ⟨?_, closed_append hne (hescaped.getLast?_eq ▸ hn.closed _ hl), by simp [hne]⟩
    rw [List.mem_append, not_or]
    exact ⟨fun hm => absurd (hi _ hm) (by decide), (hescaped.plain (hn.plain hl)).1⟩

private theorem framed_docstring (hi : ∀ c ∈ indent, isIndent c) (hn : Doc.Normal ls) :
    Doc.Framed (Insert.docstring ls indent) where
  oneLine := fun line hl => (Insert.plain_docstring hi (fun source hs => hn.plain hs) hl).1
  closed := by
    intro line hl
    rcases Insert.mem_docstring hl with rfl | rfl | ⟨source, hs, hne, rfl⟩
    · simp
    · exact closed_append (by decide) (by rintro c ⟨⟩; rfl)
    · have hescaped := Insert.escaped_escapeQuotes source
      exact closed_append (hescaped.ne_nil hne) (hescaped.getLast?_eq ▸ hn.closed source hs)
  first := by simp [Insert.docstring, Insert.quotes]
  last := by
    rw [Insert.docstring, List.getLast?_concat]
    simp [Insert.quotes]

/-- A docstring block that is trimmed: its quotes, and between them the lines up to the indentation of
the closing quotes. -/
private theorem trim_docstring (hi : ∀ c ∈ indent, isIndent c) (hn : Doc.Normal ls) :
    trim (joinLines (Insert.docstring ls indent)) = Insert.quotes ++
      (joinLines ([[]] ++ ((ls.map Insert.escapeQuotes).map (Doc.indented indent) ++ [indent])) ++
        Insert.quotes) := by
  have hframed := framed_docstring hi hn
  have hquotes : trimStart (indent ++ Insert.quotes) = Insert.quotes := trimStart_append hi _
  have hblock : Insert.docstring ls indent = (indent ++ Insert.quotes) ::
      ((ls.map Insert.escapeQuotes).map (Doc.indented indent) ++ [indent ++ Insert.quotes]) := by
    rw [Insert.docstring, Insert.written_eq_indented indent hn.closed]
    rfl
  rw [hblock] at hframed ⊢
  generalize (ls.map Insert.escapeQuotes).map (Doc.indented indent) = middle at hframed ⊢
  obtain ⟨rest, hrest⟩ := exists_joinLines_cons (middle ++ [indent ++ Insert.quotes])
  obtain ⟨front, hfront⟩ := exists_joinLines_concat ([] :: middle)
  have hinside : rest = joinLines ([] :: (middle ++ [indent])) ++ Insert.quotes := by
    have hline := hrest []
    rw [List.nil_append, ← List.cons_append, hfront, ← List.append_assoc, ← hfront] at hline
    exact hline.symm
  rw [hframed.trim_joinLines, hquotes, hrest, hinside]
  rfl

private theorem hanging_cons (hi : ∀ c ∈ indent, isIndent c) (first : Line) (below : List Line) :
    hanging indent (first :: below) =
      trimStart (Doc.indented indent first) :: below.map (Doc.indented indent) := by
  rw [hanging, Doc.indented]
  split
  · rfl
  · rw [trimStart_append hi]

/-- Of a docstring block, the lines below the first keep the indentation they were written with. -/
theorem clean_docstring (hi : ∀ c ∈ indent, isIndent c) (hn : Doc.Normal ls) :
    clean (joinLines (Insert.docstring ls indent)) =
      joinLines (hanging indent (ls.map Insert.escapeQuotes)) := by
  have hblank : ∀ line ∈ [indent], allBlank line := by
    intro line hl
    rw [List.mem_singleton.mp hl]
    exact List.all_eq_true.mpr fun c hc => isBlank_of_isIndent (hi c hc)
  have hframed := framed_written hi hn
  rw [clean_of_quotes (trim_docstring hi hn), Doc.trim_joinLines_below (by simp [allBlank]),
    Doc.trim_joinLines_above hblank]
  cases ls with
  | nil => rfl
  | cons first below =>
    rw [List.map_cons, List.map_cons] at hframed ⊢
    rw [hframed.normalize_trim_joinLines, ← hanging_cons hi]

private theorem normal_hanging (hi : ∀ c ∈ indent, isIndent c) (hn : Doc.Normal ls) :
    Doc.Normal (hanging indent (ls.map Insert.escapeQuotes)) := by
  have hframed := framed_written hi hn
  cases ls with
  | nil => exact hn
  | cons first below =>
    rw [List.map_cons, List.map_cons] at hframed
    rw [List.map_cons, hanging_cons hi]
    exact hframed.normal

/-- Below a header, the documentation is found in the block as it was written. -/
theorem locate?_docstring (hi : ∀ c ∈ indent, isIndent c) (hn : Doc.Normal ls)
    (hq : ∀ line ∈ ls, ¬ Insert.quotes <:+: Insert.escapeQuotes line) (header : Line) (after : List Line) :
    (Doc.Docstring.locate? (header :: (Insert.docstring ls indent ++ after)) 0
      (Insert.docstring ls indent ++ after).length).map (·.text) =
        some (trim (joinLines (ls.map Insert.escapeQuotes))) := by
  have hnone : ∀ line ∈ ([] : List Line), Doc.Docstring.isSkipped line := by simp
  have hbody := Insert.inBody?_docstring hi hnone hq after
  have hpart := Doc.Docstring.locate?_part [] (Insert.docstring ls indent ++ after) [] header
  simp only [List.nil_append, List.append_nil, List.length_nil, Nat.zero_add] at hbody hpart
  rw [hpart, hbody, Option.map_some, Option.map_some, Doc.Block.shift,
    Insert.textOf_docstring hi hn.commonDepth hn.closed]

private theorem map_indented_eq_self_iff {ls : List Line}
    (hc : ∀ line ∈ ls, ∀ c ∈ line.getLast?, isBlank c = false) (hl : ls.getLast? ≠ some []) :
    ls.map (Doc.indented indent) = ls ↔ indent = [] ∨ ls = [] := by
  constructor
  · intro h
    rw [or_iff_not_imp_right]
    intro hne
    obtain ⟨last, hlast⟩ := Option.ne_none_iff_exists'.mp (mt List.getLast?_eq_none_iff.mp hne)
    have hmem := List.mem_of_getLast? hlast
    have hb : allBlank last = false := allBlank_eq_false (fun he => hl (he ▸ hlast)) (hc last hmem)
    have hsame : Doc.indented indent last = last := by
      rw [← List.map_id ls, List.map_map] at h
      exact List.map_inj_left.mp h last hmem
    rw [Doc.indented, hb] at hsame
    simpa using hsame
  · rintro (rfl | rfl)
    · refine (List.map_congr_left fun line _ => ?_).trans (List.map_id' ls)
      rw [Doc.indented, List.nil_append, ite_self]
    · rfl

private theorem hanging_eq_self_iff (hn : Doc.Normal ls) :
    hanging indent ls = ls ↔
      trimStart (joinLines ls) = joinLines ls ∧ (indent = [] ∨ '\n' ∉ joinLines ls) := by
  cases ls with
  | nil => simp [hanging, joinLines, trimStart]
  | cons first below =>
    obtain ⟨rest, hrest⟩ := exists_joinLines_cons below
    have hfirst : trimStart (joinLines (first :: below)) = joinLines (first :: below) ↔
        trimStart first = first := by
      rw [hrest, hn.framed.trimStart_append, List.append_cancel_right_eq]
    have hbelow : '\n' ∉ joinLines (first :: below) ↔ below = [] := by
      cases below with
      | nil => simpa [joinLines] using hn.oneLine first (by simp)
      | cons next below => simp [joinLines_cons_cons]
    have hlast : below.getLast? ≠ some [] := by
      cases below with
      | nil => simp
      | cons next below => simpa [List.getLast?_cons_of_ne_nil] using hn.last
    rw [hanging, List.cons_eq_cons, hfirst, hbelow,
      map_indented_eq_self_iff (fun line hl => hn.closed line (List.mem_cons_of_mem _ hl)) hlast]

end

/-- Of documentation in normal form without three quotes, written as a docstring and then cleaned as a
reply, all lines but the first come out indented. So it is the same again only if there is no other line or
no indentation, although the docstring is found with the documentation that was written. -/
theorem clean_docstring_eq_iff {doc indent : List Char} (hn : Doc.normalize doc = doc)
    (hq : ¬ Insert.quotes <:+: doc) (hi : ∀ c ∈ indent, isIndent c) :
    let block := Insert.docstring (Doc.normalLines doc) indent
    let reply := joinLines block
    clean reply = joinLines (hanging indent (Doc.normalLines doc)) ∧
      (clean reply = doc ↔ trimStart doc = doc ∧ (indent = [] ∨ '\n' ∉ doc)) ∧
      (∀ tag, '\n' ∉ tag → clean (fenced tag reply) = clean reply) ∧
      ∀ header after,
        (Doc.Docstring.locate? (header :: (block ++ after)) 0 (block ++ after).length).map (·.text) =
          some (trimStart doc) := by
  intro block reply
  have hnormal := Doc.normal_normalLines doc
  have hdoc : joinLines (Doc.normalLines doc) = doc := hn
  -- without three quotes in a row there is nothing to escape
  have hescape : (Doc.normalLines doc).map Insert.escapeQuotes = Doc.normalLines doc :=
    Doc.map_normalLines_eq_self (fun _ => Insert.escapeQuotes_eq_self) hq
  have hclean : clean reply = joinLines (hanging indent (Doc.normalLines doc)) := by
    rw [clean_docstring hi hnormal, hescape]
  refine ⟨hclean, ?_, fun tag ht => ?_, fun header after => ?_⟩
  · have hhanging := normal_hanging hi hnormal
    rw [hescape] at hhanging
    have hlines : joinLines (hanging indent (Doc.normalLines doc)) = joinLines (Doc.normalLines doc) ↔
        hanging indent (Doc.normalLines doc) = Doc.normalLines doc := by
      constructor
      · intro he
        rw [← hhanging.lines_joinLines, he, hnormal.lines_joinLines]
      · exact congrArg joinLines
    rw [hdoc] at hlines
    rw [hclean, hlines, hanging_eq_self_iff hnormal, hdoc]
  · apply clean_fenced ht
    rw [trim_docstring hi hnormal]
    exact not_fence_prefix_quotes _
  · have hquotes : ∀ line ∈ Doc.normalLines doc, ¬ Insert.quotes <:+: Insert.escapeQuotes line := by
      intro line hl
      have hplain : ¬ Insert.quotes <:+: line := fun hi => hq (hi.trans (Doc.infix_of_mem_normalLines hl))
      rwa [Insert.escapeQuotes_eq_self hplain]
    have hlast : ∀ c ∈ doc.getLast?, isBlank c = false := hdoc ▸ hnormal.framed.closed_joinLines
    rw [locate?_docstring hi hnormal hquotes, hescape, hdoc, trim_eq_trimStart hlast]

/-- A summary and a line further in, indented by a tab. -/
theorem clean_docstring_eq_iff_further_in :
    let doc := "Adds.\n\n  - On.".toList
    let reply := joinLines (Insert.docstring (Doc.normalLines doc) ['\t'])
    clean reply = "Adds.\n\n\t  - On.".toList ∧ clean reply ≠ doc ∧
      clean (fenced "python".toList reply) = clean reply := by
  intro doc reply
  have hn : Doc.normalize doc = doc := by decide +kernel
  have hq : ¬ Insert.quotes <:+: doc := by decide +kernel
  have hi : ∀ c ∈ ['\t'], isIndent c := by simp [isIndent]
  obtain ⟨hclean, hiff, hfenced, -⟩ := clean_docstring_eq_iff hn hq hi
  refine ⟨hclean.trans (by decide +kernel), fun he => ?_, hfenced _ (by decide)⟩
  exact absurd (hiff.mp he).2 (by decide +kernel)

/-- Two lines at the margin, in a docstring that is found with them, come out of the reply with the second
one indented. -/
theorem docstring_lines_stay_indented :
    let doc := "A.\nB.".toList
    let block := Insert.docstring (Doc.normalLines doc) [' ', ' ', ' ', ' ']
    Doc.normalize doc = doc ∧ trimStart doc = doc ∧ ¬ Insert.quotes <:+: doc ∧
      joinLines block = "    \"\"\"\n    A.\n    B.\n    \"\"\"".toList ∧
      (Doc.Docstring.locate? ("def f():".toList :: block) 0 4).map (·.text) = some doc ∧
      clean (joinLines block) = "A.\n    B.".toList ∧ clean (joinLines block) ≠ doc := by
  decide +kernel

end DocComments.Reply
