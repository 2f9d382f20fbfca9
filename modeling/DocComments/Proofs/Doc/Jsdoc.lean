import DocComments.Insert
import DocComments.Proofs.Doc.Located
import DocComments.Proofs.Text.Blank
import DocComments.Proofs.Text.Lines

/-! What a located JSDoc comment takes with it. The search looks at how the lines begin and at how the
last one ends, so that a comment which is closed earlier draws the code behind it along. -/
namespace DocComments.Doc.Jsdoc
open Text

/-- The text is one comment: it starts with the opener, and what closes a comment stands at its end
and nowhere between. -/
def IsComment (s : List Char) : Prop :=
  ∃ inside, s = opener ++ (inside ++ closer) ∧ ¬ closer <:+: inside

/-- The comment that the first line opens is closed on the last line, with only blanks behind it, and
no earlier. -/
def ClosedAtEnd : List Line → Prop
  | [] => False
  | first :: below => ∃ rest between before after, trimStart first = opener ++ rest ∧
      rest :: below = between ++ [before ++ (closer ++ after)] ∧
      (∀ line ∈ between ++ [before], ¬ closer <:+: line) ∧ allBlank after

private theorem exists_of_openerAbove? {lines : List Line} {distance : Nat}
    (h : openerAbove? lines = some distance) :
    ∃ below first above, lines = below ++ first :: above ∧ below.length = distance ∧
      startsWith opener (trimStart first) := by
  induction lines generalizing distance with
  | nil => simp [openerAbove?] at h
  | cons line lines ih =>
    rw [openerAbove?] at h
    split at h
    · rename_i hs
      exact ⟨[], line, lines, rfl, Option.some.inj h, hs⟩
    · split at h
      · simp at h
      · obtain ⟨up, hu, rfl⟩ := Option.map_eq_some_iff.mp h
        obtain ⟨below, first, above, rfl, rfl, hs⟩ := ih hu
        exact ⟨line :: below, first, above, rfl, rfl, hs⟩

/-- The lines of a located comment: an opener stands first on the first of them, and something is
closed at the end of the last. -/
theorem lines_of_locate? {lines : List Line} {header floor : Nat} {block : Block}
    (h : locate? lines header floor = some block) :
    ∃ first below last, block.lines lines = first :: below ∧
      startsWith opener (trimStart first) ∧ (first :: below).getLast? = some last ∧ closes last := by
  rw [locate?] at h
  split at h
  · rename_i hle
    cases hr : (above lines header floor).reverse with
    | nil => simp [hr] at h
    | cons last upward =>
      simp only [hr] at h
      split at h
      · rename_i hc
        obtain ⟨distance, ho, rfl⟩ := Option.map_eq_some_iff.mp h
        obtain ⟨below, first, upper, hcut, rfl, hs⟩ := exists_of_openerAbove? ho
        have habove : (lines.take header).drop floor = upper.reverse ++ first :: below.reverse := by
          rw [← above, ← List.reverse_reverse (above lines header floor), hr, hcut]
          simp
        have hlen := congrArg List.length habove
        simp only [List.length_drop, List.length_take, Nat.min_eq_left hle, List.length_append,
          List.length_reverse, List.length_cons] at hlen
        refine ⟨first, below.reverse, last, ?_, hs, ?_, hc⟩
        · have hlast : header - 1 + 1 = header := by omega
          have hfirst : header - 1 - below.length = floor + upper.length := by omega
          rw [Block.lines, hlast, hfirst, ← List.drop_drop, habove, ← List.length_reverse,
            List.drop_left]
        · have hhead : (below ++ [first]).head? = some last := by
            cases below with
            | nil => exact congrArg some (List.cons_eq_cons.mp hcut).1.symm
            | cons line below => exact congrArg some (List.cons_eq_cons.mp hcut).1.symm
          rw [← hhead, ← List.getLast?_reverse]
          simp
      · simp at h
  · simp at h

private theorem trimEnd_eq_append_closer_iff {s before : List Char} :
    trimEnd s = before ++ closer ↔ ∃ after, s = before ++ (closer ++ after) ∧ allBlank after := by
  apply trimEnd_eq_append_iff (by decide)
  intro c hc
  obtain rfl := Option.some.inj hc
  decide

private theorem isComment_opener_append_iff (text : List Char) :
    IsComment (opener ++ trimEnd text) ↔
      ∃ before after, text = before ++ (closer ++ after) ∧ ¬ closer <:+: before ∧ allBlank after := by
  simp only [IsComment, List.append_cancel_left_eq, trimEnd_eq_append_closer_iff]
  constructor
  · rintro ⟨before, ⟨after, htext, hb⟩, hno⟩
    exact ⟨before, after, htext, hno, hb⟩
  · rintro ⟨before, after, htext, hno, hb⟩
    exact ⟨before, ⟨after, htext, hb⟩, hno⟩

private theorem trim_joinLines {first rest : Line} (hs : trimStart first = opener ++ rest)
    (below : List Line) :
    trim (joinLines (first :: below)) = opener ++ trimEnd (joinLines (rest :: below)) := by
  obtain ⟨text, htext⟩ := exists_joinLines_cons below
  have hne : (trimStart first).isEmpty = false := by rw [hs]; rfl
  have hstart : trimStart (first ++ text) = opener ++ (rest ++ text) := by
    rw [trimStart, List.dropWhile_append, ← trimStart, hne, hs, List.append_assoc]
    rfl
  have hend : ∀ c ∈ opener.getLast?, isBlank c = false := by
    intro c hc
    obtain rfl := Option.some.inj hc
    decide
  rw [htext, htext, trim, hstart, trimEnd_append hend]

/-- On the lines of a located comment, the text behind the opener is closed first at its end exactly if
no line closes it but the last, at its end. -/
private theorem closed_iff {rest last : Line} {below : List Line}
    (hl : below ≠ [] → below.getLast? = some last ∧ closes last) :
    (∃ before after, joinLines (rest :: below) = before ++ (closer ++ after) ∧
        ¬ closer <:+: before ∧ allBlank after) ↔
      ∃ between before after, rest :: below = between ++ [before ++ (closer ++ after)] ∧
        (∀ line ∈ between ++ [before], ¬ closer <:+: line) ∧ allBlank after := by
  constructor
  · rintro ⟨before, after, htext, hno, hb⟩
    cases below with
    | nil => exact ⟨[], before, after, by rw [← htext]; rfl, by simpa using hno, hb⟩
    | cons next below =>
      obtain ⟨hlast, hc⟩ := hl (by simp)
      obtain ⟨between, hcut⟩ := List.getLast?_eq_some_iff.mp hlast
      have hcloser : closer <:+ trimEnd last := List.isSuffixOf_iff_suffix.mp hc
      obtain ⟨front, hf⟩ := hcloser
      obtain ⟨after', hlast', hb'⟩ := trimEnd_eq_append_closer_iff.mp hf.symm
      obtain ⟨above, habove⟩ := exists_joinLines_concat (rest :: between)
      -- the text ends where its last line does, so that both ends are the same
      have hend : before = above ++ front := by
        have hboth : trimEnd (joinLines (rest :: next :: below)) = (above ++ front) ++ closer := by
          apply trimEnd_eq_append_closer_iff.mpr
          exact ⟨after', by rw [hcut, ← List.cons_append, habove, hlast']; simp, hb'⟩
        rw [trimEnd_eq_append_closer_iff.mpr ⟨after, htext, hb⟩] at hboth
        exact List.append_cancel_right hboth
      refine ⟨rest :: between, front, after', by rw [hcut, hlast', List.cons_append], ?_, hb'⟩
      intro line hline hi
      apply hno
      rw [hend, ← habove]
      exact (infix_joinLines_iff (by decide) (by decide) _).mpr ⟨line, hline, hi⟩
  · rintro ⟨between, before, after, hcut, hno, hb⟩
    obtain ⟨above, habove⟩ := exists_joinLines_concat between
    refine ⟨joinLines (between ++ [before]), after, ?_, ?_, hb⟩
    · rw [hcut, habove, habove, List.append_assoc]
    · rw [infix_joinLines_iff (by decide) (by decide)]
      rintro ⟨line, hline, hi⟩
      exact hno line hline hi

/-- What goes away when a located comment is replaced is one comment exactly if the comment that its
first line opens is closed at the end of its last line and no earlier. -/
theorem isComment_removed_iff {lines : List Line} {header floor : Nat} {block : Block}
    (h : locate? lines header floor = some block) :
    IsComment (trim (joinLines (block.lines lines))) ↔ ClosedAtEnd (block.lines lines) := by
  obtain ⟨first, below, last, hlines, hs, hlast, hc⟩ := lines_of_locate? h
  obtain ⟨rest, hrest⟩ := List.isPrefixOf_iff_prefix.mp hs
  have hl : below ≠ [] → below.getLast? = some last ∧ closes last := fun hne =>
    ⟨by rwa [List.getLast?_cons_of_ne_nil hne] at hlast, hc⟩
  have hsame (rest' : List Char) : trimStart first = opener ++ rest' ↔ rest' = rest := by
    rw [← hrest, List.append_cancel_left_eq, eq_comm]
  rw [hlines, trim_joinLines hrest.symm, isComment_opener_append_iff, closed_iff hl, ClosedAtEnd]
  constructor
  · rintro ⟨between, before, after, hclosed⟩
    exact ⟨rest, between, before, after, hrest.symm, hclosed⟩
  · rintro ⟨rest', between, before, after, hstart, hclosed⟩
    obtain rfl := (hsame rest').mp hstart
    exact ⟨between, before, after, hclosed⟩

/-- A comment over several lines that holds a star and a slash apart is removed as one comment. -/
theorem isComment_removed_iff_stars :
    locate? (linesOf "let x = 1;\n/** A * / b,\n  /c** */  \nfunction f() \x7b") 3 1 =
        some { text := "A * / b,\n/c**".toList, first := 1, last := 2 } ∧
      (IsComment (trim (joinLines (linesOf "/** A * / b,\n  /c** */  "))) ↔
        ClosedAtEnd (linesOf "/** A * / b,\n  /c** */  ")) ∧
      IsComment (trim (joinLines (linesOf "/** A * / b,\n  /c** */  "))) := by
  have h : locate? (linesOf "let x = 1;\n/** A * / b,\n  /c** */  \nfunction f() \x7b") 3 1 =
      some { text := "A * / b,\n/c**".toList, first := 1, last := 2 } := by decide +kernel
  have hiff := isComment_removed_iff h
  refine ⟨h, hiff, hiff.mpr ?_⟩
  exact ⟨" A * / b,".toList, [" A * / b,".toList], "  /c** ".toList, "  ".toList, by decide⟩

/-- A comment line above code that ends in a comment of its own is no comment above the header, yet
both lines are taken for one, and the code goes away with them. -/
theorem code_between_comments_removed :
    let source := "/** Doc. */\nlet x = 1; /* one */\nfunction f() \x7b\n\x7d\n"
    (∃ block, locate? (linesOf source) 2 0 = some block ∧
      ¬ IsComment (trim (joinLines (block.lines (linesOf source))))) ∧
      (document .javaScript (fun _ => some "New.") source).content =
        "  /**\n   * New.\n   */\nfunction f() \x7b\n\x7d\n" := by
  refine ⟨⟨{ text := "Doc.\nlet x = 1; /* one".toList, first := 0, last := 1 }, by decide +kernel, ?_⟩,
    by decide +kernel⟩
  rintro ⟨inside, hs, hno⟩
  have htext : trim (joinLines (linesOf "/** Doc. */\nlet x = 1; /* one */")) =
      opener ++ (" Doc. */\nlet x = 1; /* one ".toList ++ closer) := by decide +kernel
  have hinside := List.append_cancel_right (List.append_cancel_left (htext.symm.trans hs))
  exact hno (hinside ▸ by decide)

end DocComments.Doc.Jsdoc
