import DocComments.Proofs.Insert.Block

/-! Where a written docstring ends for those who read it. It is found from its first line on, and it
ends on its own last line unless one of its lines still holds three double quotes in a row. -/
namespace DocComments.Insert
open Text Doc

section
variable {indent : List Char} {doc : List Line}

private theorem quotes_infix_written_iff (hi : ∀ c ∈ indent, isIndent c) (source : Line) :
    quotes <:+: (if source.isEmpty then [] else indent ++ escapeQuotes source) ↔
      LeavesQuotes source := by
  have hc : '"' ∉ indent := fun h => absurd (hi _ h) (by decide)
  rw [← quotes_infix_escapeQuotes_iff]
  split
  · rename_i hs
    rw [List.isEmpty_iff.mp hs]
    rfl
  · rw [quotes, infix_append_iff hc]

/-- The lines between the delimiters of a docstring hold none exactly if no run in the documentation
keeps three quotes in a row. -/
theorem quotes_infix_docstring_iff (hi : ∀ c ∈ indent, isIndent c) :
    (∀ line ∈ (docstring doc indent).tail.dropLast, ¬ quotes <:+: line) ↔
      ∀ source ∈ doc, ¬ LeavesQuotes source := by
  rw [docstring, List.cons_append, List.tail_cons, List.dropLast_concat]
  simp only [List.forall_mem_map, quotes_infix_written_iff hi]

private theorem takeWhile_append_cons {α : Type} {p : α → Bool} {x : α} (hx : p x = false)
    (l below : List α) : (l ++ x :: below).takeWhile p = l.takeWhile p := by
  rw [List.takeWhile_append]
  split
  · rename_i hl
    rw [List.takeWhile_cons_of_neg (by simp [hx]), List.append_nil,
      (List.takeWhile_prefix p).eq_of_length hl]
  · rfl

/-- The search for the end of a written docstring passes the documentation up to the first line that
keeps three quotes in a row. -/
private theorem exists_closing?_docstring (hi : ∀ c ∈ indent, isIndent c) (doc after : List Line) :
    ∃ between inside,
      Docstring.closing? quotes (doc.map (fun line =>
        if line.isEmpty then [] else indent ++ escapeQuotes line) ++ (indent ++ quotes) :: after) =
          some (between, inside) ∧
      between.length = (doc.takeWhile fun source => !decide (LeavesQuotes source)).length := by
  have hc : '"' ∉ indent := fun h => absurd (hi _ h) (by decide)
  have hend : splitAt? quotes (indent ++ quotes) = some (indent, []) := by
    have hs := splitAt?_append hc ['"', '"'] []
    rwa [List.append_nil] at hs
  have hwritten : (fun source : Line =>
      (splitAt? quotes (if source.isEmpty then [] else indent ++ escapeQuotes source)).isNone) =
        fun source => !decide (LeavesQuotes source) := by
    funext source
    rw [Bool.eq_iff_iff, Option.isNone_iff_eq_none, splitAt?_eq_none_iff (by decide),
      quotes_infix_written_iff hi]
    simp
  have hcloses : ∃ line ∈ doc.map (fun line => if line.isEmpty then [] else indent ++ escapeQuotes line) ++
      (indent ++ quotes) :: after, (splitAt? quotes line).isSome :=
    ⟨indent ++ quotes, by simp, by rw [hend]; rfl⟩
  obtain ⟨inside, hfound⟩ := Docstring.closing?_eq_takeWhile hcloses
  refine ⟨_, inside, hfound, ?_⟩
  rw [takeWhile_append_cons (by rw [hend]; rfl), List.takeWhile_map, List.length_map]
  exact congrArg (fun p => (doc.takeWhile p).length) hwritten

private theorem length_takeWhile_eq_iff {α : Type} (p : α → Bool) (l : List α) :
    (l.takeWhile p).length = l.length ↔ ∀ x ∈ l, p x := by
  rw [← List.takeWhile_eq_self_iff]
  exact ⟨(List.takeWhile_prefix p).eq_of_length, congrArg List.length⟩

/-- A written docstring is found again from its first line to the first on which three quotes in a row
are left, or else to its own last line. So it is found as a whole exactly if its text has no run of
quotes that keeps three, and then no line between its delimiters holds three. -/
theorem docstring_enclosed_iff (hi : ∀ c ∈ indent, isIndent c) (doc : List Line) :
    ((∀ line ∈ (docstring doc indent).tail.dropLast, ¬ quotes <:+: line) ↔
        ∀ source ∈ doc, ¬ LeavesQuotes source) ∧
      ∀ (above before after below : List Line) (header : Line),
        (∀ line ∈ before, Docstring.isSkipped line) →
        let body := before ++ (docstring doc indent ++ after)
        let file := above ++ header :: (body ++ below)
        ∃ block, Docstring.locate? file above.length (above.length + body.length) = some block ∧
          block.first = above.length + 1 + before.length ∧
          block.last = block.first + 1 +
            (doc.takeWhile fun source => !decide (LeavesQuotes source)).length ∧
          (block.lines file = docstring doc indent ↔ ∀ source ∈ doc, ¬ LeavesQuotes source) := by
  refine ⟨quotes_infix_docstring_iff hi, fun above before after below header hb => ?_⟩
  intro body file
  obtain ⟨between, inside, hclosed, hlength⟩ := exists_closing?_docstring hi doc after
  have hle : between.length ≤ doc.length := hlength ▸ (List.takeWhile_prefix _).length_le
  have hdoc : (docstring doc indent).length = doc.length + 2 := by simp [docstring]
  have hfile : file = (above ++ header :: before) ++ (docstring doc indent ++ (after ++ below)) := by
    simp [file, body]
  have habove : (above ++ header :: before).length = above.length + 1 + before.length := by
    simp
    omega
  have hall := length_takeWhile_eq_iff (fun source => !decide (LeavesQuotes source)) doc
  simp only [Bool.not_eq_true', decide_eq_false_iff_not] at hall
  have hfound := Docstring.locate?_part above body below header
  rw [inBody?_docstring_eq hi hb, hclosed] at hfound
  refine ⟨_, hfound, rfl, ?_, ?_⟩
  · simp only [Block.shift]
    omega
  · have hstop : above.length + 1 + (before.length + between.length + 1) + 1 =
        (above ++ header :: before).length + (between.length + 2) := by
      rw [habove]
      omega
    rw [← hall, ← hlength, hfile]
    simp only [Block.lines, Block.shift]
    rw [hstop, ← habove, List.take_length_add_append, List.drop_left,
      List.take_append_of_le_length (by omega), List.take_eq_self_iff]
    omega

end

/-- Of three lines, the second keeps three quotes: there the docstring is taken to end, two lines above
its own end. -/
theorem docstring_enclosed_iff_second_line :
    (∀ c ∈ [' ', ' ', ' ', ' '], isIndent c) ∧
      (∀ line ∈ ["    # Note".toList], Docstring.isSkipped line) ∧
      ∃ block, Docstring.locate? (linesOf
          "def f():\n    # Note\n    \"\"\"\n    A\n    \\\"\\\"\\\"\"\"\n    B\n    \"\"\"\n") 0 6 =
            some block ∧ block.first = 2 ∧ block.last = 4 := by
  have hi : ∀ c ∈ [' ', ' ', ' ', ' '], isIndent c := by simp [isIndent]
  have hb : ∀ line ∈ ["    # Note".toList], Docstring.isSkipped line := by decide
  obtain ⟨block, hfound, hfirst, hlast, -⟩ := (docstring_enclosed_iff hi
    ["A".toList, "\"\"\"\"\"".toList, "B".toList]).2 [] ["    # Note".toList] [] [] "def f():".toList hb
  have htwo : block.first = 2 := hfirst
  have hone : (["A".toList, "\"\"\"\"\"".toList, "B".toList].takeWhile fun source =>
      !decide (LeavesQuotes source)).length = 1 := by decide
  exact ⟨hi, hb, block, hfound, htwo, by rw [hlast, htwo, hone]⟩

/-- Five quotes in a row close the docstring they stand in. -/
theorem five_quotes_close_docstring :
    let written := document .python (fun _ => some "A \"\"\"\"\" b.") "def f():\n    return 1\n"
    (∃ line ∈ (docstring ["A \"\"\"\"\" b.".toList] [' ', ' ', ' ', ' ']).tail.dropLast,
        quotes <:+: line) ∧
      written.content =
        "def f():\n    \"\"\"\n    A \\\"\\\"\\\"\"\" b.\n    \"\"\"\n    return 1\n" ∧
      Docstring.locate? (linesOf written.content) 0 4 =
        some { text := "A \\\"\\\"\\".toList, first := 1, last := 2 } := by
  refine ⟨by decide, by decide +kernel, by decide +kernel⟩

end DocComments.Insert
