import DocComments.Proofs.Doc.Located
import DocComments.Proofs.Insert.Edit
import DocComments.Proofs.Text.Blank
import DocComments.Proofs.Text.Find

/-! What a located docstring takes with it. The search ends at the closing delimiter, and the line on
which that stands goes away as a whole, whatever else is written on it. -/
namespace DocComments.Doc.Docstring
open Text

/-- What follows the first occurrence of the piece in the lines, on its line. -/
def behind? (piece : List Char) : List Line → Option (List Char)
  | [] => none
  | line :: below =>
    match splitAt? piece line with
    | some (_, after) => some after
    | none => behind? piece below

/-- What stands behind the docstring that the first line opens, on the line that closes it. -/
def tail? : List Line → Option (List Char)
  | [] => none
  | first :: below => (opening? first).bind fun (delimiter, after) => behind? delimiter (after :: below)

private theorem delimited?_eq_some_iff {s delimiter rest : List Char} :
    delimited? s = some (delimiter, rest) ↔ delimiter ∈ delimiters ∧ s = delimiter ++ rest := by
  constructor
  · intro h
    obtain ⟨d, hd, hp⟩ := List.exists_of_findSome?_eq_some h
    obtain ⟨r, hr, he⟩ := Option.map_eq_some_iff.mp hp
    obtain ⟨rfl, rfl⟩ := Prod.mk.inj he
    exact ⟨hd, dropPrefix?_eq_some_iff.mp hr⟩
  · rintro ⟨hd, rfl⟩
    simp only [delimiters, List.mem_cons, List.not_mem_nil, or_false] at hd
    rcases hd with rfl | rfl <;> rfl

/-- The line opens a docstring: in front of the delimiter stand blanks and at most one letter. -/
def Opens (delimiter after : List Char) (line : Line) : Prop :=
  delimiter ∈ delimiters ∧ ∃ (blanks : List Char) (mark : Option Char), allBlank blanks ∧
    (∀ c ∈ mark, isStringMark c) ∧ line = blanks ++ (mark.toList ++ (delimiter ++ after))

theorem opening?_eq_some_iff {line : Line} {delimiter after : List Char} :
    opening? line = some (delimiter, after) ↔ Opens delimiter after line := by
  constructor
  · intro h
    have hcut : line.takeWhile isBlank ++ trimStart line = line := List.takeWhile_append_dropWhile
    have hblank : allBlank (line.takeWhile isBlank) := List.all_takeWhile
    rw [opening?] at h
    cases hs : trimStart line with
    | nil => simp [hs] at h
    | cons c rest =>
      simp only [hs] at h
      rw [hs] at hcut
      split at h
      · rename_i hm
        obtain ⟨hd, rfl⟩ := delimited?_eq_some_iff.mp h
        exact ⟨hd, _, some c, hblank, by simpa using hm, hcut.symm⟩
      · obtain ⟨hd, hrest⟩ := delimited?_eq_some_iff.mp h
        rw [hrest] at hcut
        exact ⟨hd, _, none, hblank, by simp, hcut.symm⟩
  · rintro ⟨hd, blanks, mark, hb, hm, rfl⟩
    have hstart {c : Char} (hc : isBlank c = false) (rest : List Char) :
        trimStart (blanks ++ c :: rest) = c :: rest := by
      rw [trimStart, List.dropWhile_append_of_pos (List.all_eq_true.mp hb), ← trimStart,
        trimStart_cons hc]
    have hfound : delimited? (delimiter ++ after) = some (delimiter, after) :=
      delimited?_eq_some_iff.mpr ⟨hd, rfl⟩
    cases mark with
    | some c =>
      have hmark := hm c rfl
      have hc : isBlank c = false := by
        simp only [isStringMark, Bool.or_eq_true, beq_iff_eq] at hmark
        rcases hmark with ((rfl | rfl) | rfl) | rfl <;> rfl
      rw [opening?, Option.toList_some, List.singleton_append, hstart hc]
      simp only [hmark, if_true, hfound]
    | none =>
      -- a quote is no letter that may stand in front of the delimiter
      obtain ⟨c, quotes, rfl, hc, hmark⟩ : ∃ c quotes, delimiter = c :: quotes ∧ isBlank c = false ∧
          isStringMark c = false := by
        simp only [delimiters, List.mem_cons, List.not_mem_nil, or_false] at hd
        rcases hd with rfl | rfl <;> exact ⟨_, _, rfl, rfl, rfl⟩
      rw [opening?, Option.toList_none, List.nil_append, List.cons_append, hstart hc]
      simp only [hmark, Bool.false_eq_true, if_false]
      exact hfound

/-- The text up to the rest of the line decides what opens a docstring. -/
theorem exists_of_opening? {line : Line} {delimiter after : List Char}
    (h : opening? line = some (delimiter, after)) :
    ∃ front, line = front ++ after ∧
      ∀ other, opening? (front ++ other) = some (delimiter, other) := by
  obtain ⟨hd, blanks, mark, hb, hm, rfl⟩ := opening?_eq_some_iff.mp h
  refine ⟨blanks ++ (mark.toList ++ delimiter), by simp, fun other => ?_⟩
  exact opening?_eq_some_iff.mpr ⟨hd, blanks, mark, hb, hm, by simp⟩

/-- A line that opens a docstring is neither blank nor a comment. -/
theorem isSkipped_of_opening? {line : Line} {opened : List Char × List Char}
    (h : opening? line = some opened) : isSkipped line = false := by
  rw [opening?] at h
  cases hs : trimStart line with
  | nil => simp [hs] at h
  | cons c rest =>
    have hhash : c ≠ '#' := by
      rintro rfl
      simp only [hs] at h
      obtain ⟨hd, hrest⟩ := delimited?_eq_some_iff.mp h
      simp only [delimiters, List.mem_cons, List.not_mem_nil, or_false] at hd
      rcases hd with hd | hd <;> simp [hd] at hrest
    rw [isSkipped, trim_of_trimStart_eq_cons hs]
    simpa using hhash

private theorem eq_append_of_closing? {delimiter : List Char} {lines between : List Line}
    {before : List Char} (h : closing? delimiter lines = some (between, before)) :
    ∃ tail below, lines = between ++ (before ++ (delimiter ++ tail)) :: below ∧
      ∀ other, closing? delimiter (between ++ (before ++ (delimiter ++ other)) :: below) =
          some (between, before) ∧
        behind? delimiter (between ++ [before ++ (delimiter ++ other)]) = some other := by
  induction lines generalizing between before with
  | nil => simp [closing?] at h
  | cons line lines ih =>
    rw [closing?] at h
    cases hs : splitAt? delimiter line with
    | some found =>
      obtain ⟨front, tail⟩ := found
      simp only [hs, Option.some.injEq, Prod.mk.injEq] at h
      obtain ⟨rfl, rfl⟩ := h
      refine ⟨tail, lines, by rw [eq_append_of_splitAt? hs, List.nil_append], fun other => ?_⟩
      have hother := splitAt?_append_other hs other
      simp only [List.nil_append, closing?, behind?, hother, and_self]
    | none =>
      simp only [hs] at h
      obtain ⟨⟨inner, _⟩, hc, he⟩ := Option.map_eq_some_iff.mp h
      obtain ⟨rfl, rfl⟩ := Prod.mk.inj he
      obtain ⟨tail, below, rfl, hother⟩ := ih hc
      refine ⟨tail, below, rfl, fun other => ?_⟩
      obtain ⟨hclosing, hbehind⟩ := hother other
      rw [List.cons_append, List.cons_append, closing?, behind?, hs]
      simp only [hclosing, hbehind, Option.map_some, and_self]

/-- A docstring at the head of a body is the same for every text behind its closing delimiter. -/
theorem exists_of_atHead? {number : Nat} {lines : List Line} {block : Block}
    (h : atHead? number lines = some block) :
    ∃ opened closed tail below, lines = opened ++ (closed ++ tail) :: below ∧
      block.first = number ∧ block.last = number + opened.length ∧
      ∀ other, atHead? number (opened ++ (closed ++ other) :: below) = some block ∧
        tail? (opened ++ [closed ++ other]) = some other := by
  cases lines with
  | nil => simp [atHead?] at h
  | cons line lines =>
    rw [atHead?] at h
    cases ho : opening? line with
    | none => simp [ho] at h
    | some found =>
      obtain ⟨delimiter, after⟩ := found
      obtain ⟨front, rfl, hfront⟩ := exists_of_opening? ho
      simp only [ho] at h
      cases hs : splitAt? delimiter after with
      | some found =>
        -- the docstring is closed on the line that opens it
        obtain ⟨inside, tail⟩ := found
        simp only [hs, Option.some.injEq] at h
        subst h
        obtain rfl := eq_append_of_splitAt? hs
        refine ⟨[], front ++ (inside ++ delimiter), tail, lines, by simp, rfl, rfl, fun other => ?_⟩
        have hother := splitAt?_append_other hs other
        simp only [List.nil_append, List.append_assoc, atHead?, tail?, hfront, hother,
          Option.bind_some, behind?, and_self]
      | none =>
        simp only [hs] at h
        obtain ⟨⟨between, before⟩, hc, rfl⟩ := Option.map_eq_some_iff.mp h
        obtain ⟨tail, below, rfl, hother⟩ := eq_append_of_closing? hc
        refine ⟨(front ++ after) :: between, before ++ delimiter, tail, below, by simp, rfl,
          by simp [Nat.add_assoc], fun other => ?_⟩
        obtain ⟨hclosing, hbehind⟩ := hother other
        simp only [List.cons_append, List.append_assoc, atHead?, tail?, hfront, hs, hclosing,
          Option.map_some, Option.bind_some, behind?, hbehind, and_self]

private theorem isSkipped_of_atHead? {number : Nat} {line : Line} {below : List Line} {block : Block}
    (h : atHead? number (line :: below) = some block) : isSkipped line = false := by
  cases ho : opening? line with
  | none => simp [atHead?, ho] at h
  | some opened => exact isSkipped_of_opening? ho

/-- The docstring of a definition is looked for at the first line that is not skipped. -/
private theorem locate?_of_body {lines skipped rest : List Line} {header last start : Nat} {block : Block}
    (hstart : bodyStart lines header = start) (hbody : body lines start last = skipped ++ rest)
    (hs : ∀ line ∈ skipped, isSkipped line) (h : atHead? (start + skipped.length) rest = some block) :
    locate? lines header last = some block := by
  have hrest : rest.takeWhile isSkipped = [] := by
    cases rest with
    | nil => rfl
    | cons line below => rw [List.takeWhile_cons_of_neg (by simp [isSkipped_of_atHead? h])]
  have hskipped : (skipped ++ rest).takeWhile isSkipped = skipped := by
    rw [List.takeWhile_append_of_pos hs, hrest, List.append_nil]
  simp only [locate?, hstart, hbody, hskipped, List.drop_left, h]

private theorem body_set {lines : List Line} {start last n : Nat} (line : Line) :
    body (lines.set (start + n) line) start last = (body lines start last).set n line := by
  rw [body, body, List.take_set, List.drop_set, if_neg (by omega), Nat.add_sub_cancel_left]

/-- The block found in a body, in the file. -/
private theorem lines_of_body {file skipped opened below : List Line} {line : Line}
    {start last : Nat} {block : Block}
    (hbody : body file start last = skipped ++ (opened ++ line :: below))
    (hf : block.first = start + skipped.length)
    (hl : block.last = start + (skipped.length + opened.length)) :
    file[block.last]? = some line ∧ block.lines file = opened ++ [line] := by
  rw [body] at hbody
  have hlen := congrArg List.length hbody
  simp only [List.length_drop, List.length_take, List.length_append, List.length_cons] at hlen
  have hlt : block.last < last + 1 := by omega
  constructor
  · have hline := congrArg (·[skipped.length + opened.length]?) hbody
    simp only [List.getElem?_drop, ← hl, List.getElem?_take_of_lt hlt] at hline
    rw [hline]
    simp
  · have hwithin : file.take (block.last + 1) = (file.take (last + 1)).take (block.last + 1) := by
      rw [List.take_take, Nat.min_eq_left (by omega)]
    have hrest : block.last + 1 - start = (skipped ++ opened).length + 1 := by
      rw [List.length_append]
      omega
    rw [Block.lines, hwithin, hf, ← List.drop_drop, List.drop_take, hbody, hrest,
      ← List.append_assoc, List.take_length_add_append, List.append_assoc, List.drop_left]
    rfl

/-- The text behind a located docstring, on its last line, plays no part. With any other text there the
same block is found, and as that line goes away as a whole, the same file is written; what is lost is
code wherever the text is neither blank nor a comment. -/
theorem locate?_any_tail {lines : List Line} {header last : Nat} {block : Block}
    (h : locate? lines header last = some block) :
    ∃ closed tail, lines[block.last]? = some (closed ++ tail) ∧
      tail? (block.lines lines) = some tail ∧
      ∀ other, let changed := lines.set block.last (closed ++ other)
        locate? changed header last = some block ∧ tail? (block.lines changed) = some other ∧
          ∀ new, Insert.Edit.apply ⟨block.first, block.last + 1, new⟩ changed =
            Insert.Edit.apply ⟨block.first, block.last + 1, new⟩ lines := by
  generalize hstart : bodyStart lines header = start
  have hcut := List.takeWhile_append_dropWhile (p := isSkipped) (l := body lines start last)
  generalize hskipped : (body lines start last).takeWhile isSkipped = skipped at hcut
  generalize (body lines start last).dropWhile isSkipped = rest at hcut
  have hs : ∀ line ∈ skipped, isSkipped line := by
    rw [← hskipped]
    exact List.all_eq_true.mp List.all_takeWhile
  have hhead : atHead? (start + skipped.length) rest = some block := by
    simp only [locate?, hstart, hskipped] at h
    rwa [← hcut, List.drop_left] at h
  obtain ⟨opened, closed, tail, below, rfl, hfirst, hlast, hother⟩ := exists_of_atHead? hhead
  rw [Nat.add_assoc] at hlast
  obtain ⟨hline, hlines⟩ := lines_of_body hcut.symm hfirst hlast
  refine ⟨closed, tail, hline, hlines ▸ (hother tail).2, fun other => ?_⟩
  have hbody : body (lines.set block.last (closed ++ other)) start last =
      skipped ++ (opened ++ (closed ++ other) :: below) := by
    rw [hlast, body_set, ← hcut]
    simp
  have hsame : bodyStart (lines.set block.last (closed ++ other)) header = start := by
    rw [bodyStart, List.length_set]
    exact hstart
  obtain ⟨hfound, htail⟩ := hother other
  refine ⟨locate?_of_body hsame hbody hs hfound, ?_, fun new => ?_⟩
  · rw [(lines_of_body hbody hfirst hlast).2, htail]
  · have hle : block.first ≤ block.last := by omega
    exact Insert.Edit.apply_set hle (Nat.lt_succ_self block.last) lines _

/-- Behind the closing quotes of one docstring stands a call or a comment. -/
theorem locate?_any_tail_call :
    locate? (linesOf "def f():\n\n  '''A.\n  B.'''.c()\n") 0 3 =
        some { text := "A.\nB.".toList, first := 2, last := 3 } ∧
      locate? (linesOf "def f():\n\n  '''A.\n  B.'''  # c\n") 0 3 =
        some { text := "A.\nB.".toList, first := 2, last := 3 } := by
  have h : locate? (linesOf "def f():\n\n  '''A.\n  B.'''.c()\n") 0 3 =
      some { text := "A.\nB.".toList, first := 2, last := 3 } := by decide
  obtain ⟨closed, tail, hline, htail, hany⟩ := locate?_any_tail h
  obtain rfl : ".c()".toList = tail := Option.some.inj htail
  have hclosed : "  B.'''".toList = closed := by
    have hsame : "  B.'''".toList ++ ".c()".toList = closed ++ ".c()".toList :=
      Option.some.inj hline
    exact List.append_cancel_right hsame
  have hset : (linesOf "def f():\n\n  '''A.\n  B.'''.c()\n").set 3 (closed ++ "  # c".toList) =
      linesOf "def f():\n\n  '''A.\n  B.'''  # c\n" := by
    rw [← hclosed]
    decide
  exact ⟨h, hset ▸ (hany "  # c".toList).1⟩

/-- A statement behind the docstring of a function goes away with it. -/
theorem statement_behind_docstring_removed :
    let source := "def f():\n    \"\"\"Doc.\"\"\"; return 1\n"
    (∃ block, locate? (linesOf source) 0 1 = some block ∧
      tail? (block.lines (linesOf source)) = some "; return 1".toList) ∧
      isSkipped "; return 1".toList = false ∧
      (document .python (fun _ => some "New.") source).content =
        "def f():\n    \"\"\"\n    New.\n    \"\"\"\n" :=
  ⟨⟨{ text := "Doc.".toList, first := 1, last := 1 }, by decide, by decide⟩, by decide,
    by decide +kernel⟩

end DocComments.Doc.Docstring
