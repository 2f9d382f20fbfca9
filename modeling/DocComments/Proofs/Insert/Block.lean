import DocComments.Proofs.Doc.Layout
import DocComments.Proofs.Doc.Located
import DocComments.Proofs.Header.JavaScript
import DocComments.Proofs.Insert.Escape
import DocComments.Proofs.Text.Find
import DocComments.Scan.Python

/-! The blocks that are written. Whatever the documentation says, the lines of its block are read back
as lines, are taken for no code, and are found again as the documentation they are. -/
namespace DocComments.Insert
open Text Doc

/-- A line of documentation that holds no five double quotes in a row does not close its docstring. -/
theorem not_quotes_infix_of_mem_normalLines {text : List Char}
    (h : ¬ List.replicate 5 '"' <:+: text) :
    ∀ source ∈ normalLines text, ¬ quotes <:+: escapeQuotes source := by
  intro source hs
  apply not_quotes_infix_escapeQuotes
  intro hi
  exact h (hi.trans (infix_of_mem_normalLines hs))

/-- The indentation of a block: that of its header, with some spaces more. -/
def blockIndent : Language → Line → List Char
  | .python, header => indentation header ++ [' ', ' ', ' ', ' ']
  | .javaScript, header => indentation header ++ [' ', ' ']

theorem isIndent_of_mem_blockIndent {language : Language} {header : Line} {c : Char}
    (h : c ∈ blockIndent language header) : isIndent c := by
  cases language <;>
  · simp only [blockIndent, List.mem_append] at h
    rcases h with h | h
    · exact isIndent_of_mem_indentation h
    · simp only [List.mem_cons, List.not_mem_nil, or_false] at h
      simp_all [isIndent]

theorem blockFor_eq (language : Language) (header : Line) (doc : List Line) :
    blockFor language header doc =
      match language with
      | .python => docstring doc (blockIndent .python header)
      | .javaScript => jsdoc doc (blockIndent .javaScript header) := by
  cases language <;> rfl

section
variable {indent : List Char} {doc : List Line} {line : Line}

/-- The lines of a docstring block are its two delimiter lines, empty lines and indented text. -/
theorem mem_docstring (h : line ∈ docstring doc indent) :
    line = [] ∨ line = indent ++ quotes ∨
      ∃ source ∈ doc, source ≠ [] ∧ line = indent ++ escapeQuotes source := by
  simp only [docstring, List.cons_append, List.mem_cons, List.mem_append, List.mem_map,
    List.not_mem_nil, or_false] at h
  rcases h with rfl | ⟨source, hs, rfl⟩ | rfl
  · exact .inr (.inl rfl)
  · cases source with
    | nil => exact .inl rfl
    | cons c source => exact .inr (.inr ⟨_, hs, by simp, rfl⟩)
  · exact .inr (.inl rfl)

/-- The lines of a JSDoc block are its two marker lines, lone stars and text behind a star. -/
theorem mem_jsdoc (h : line ∈ jsdoc doc indent) :
    line = indent ++ ['/', '*', '*'] ∨ line = indent ++ [' ', '*'] ∨
      line = indent ++ [' ', '*', '/'] ∨
      ∃ source ∈ doc, source ≠ [] ∧
        line = indent ++ ' ' :: '*' :: ' ' :: escapeCloser source := by
  simp only [jsdoc, List.cons_append, List.mem_cons, List.mem_append, List.mem_map,
    List.not_mem_nil, or_false] at h
  rcases h with rfl | ⟨source, hs, rfl⟩ | rfl
  · exact .inl rfl
  · cases source with
    | nil => exact .inr (.inl rfl)
    | cons c source => exact .inr (.inr (.inr ⟨_, hs, by simp, rfl⟩))
  · exact .inr (.inr (.inl rfl))

theorem plain_docstring (hi : ∀ c ∈ indent, isIndent c) (hd : ∀ source ∈ doc, Plain source)
    (h : line ∈ docstring doc indent) : Plain line := by
  have hn : '\n' ∉ indent := fun hc => absurd (hi _ hc) (by decide)
  rcases mem_docstring h with rfl | rfl | ⟨source, hs, hne, rfl⟩
  · decide
  · exact Plain.append (by decide) (by decide) hn
  · have he := escaped_escapeQuotes source
    exact (he.plain (hd source hs)).append (he.ne_nil hne) hn

theorem plain_jsdoc (hi : ∀ c ∈ indent, isIndent c) (hd : ∀ source ∈ doc, Plain source)
    (h : line ∈ jsdoc doc indent) : Plain line := by
  have hn : '\n' ∉ indent := fun hc => absurd (hi _ hc) (by decide)
  rcases mem_jsdoc h with rfl | rfl | rfl | ⟨source, hs, hne, rfl⟩
  · exact Plain.append (by decide) (by decide) hn
  · exact Plain.append (by decide) (by decide) hn
  · exact Plain.append (by decide) (by decide) hn
  · have he := escaped_escapeCloser source
    have htext : Plain (' ' :: '*' :: ' ' :: escapeCloser source) :=
      (he.plain (hd source hs)).append (he.ne_nil hne) (s := [' ', '*', ' ']) (by decide)
    exact htext.append (by simp) hn

end

theorem plain_blockFor {language : Language} {header line : Line} {doc : List Line}
    (hd : ∀ source ∈ doc, Plain source) (h : line ∈ blockFor language header doc) :
    Plain line := by
  rw [blockFor_eq] at h
  cases language with
  | python => exact plain_docstring (fun c hc => isIndent_of_mem_blockIndent hc) hd h
  | javaScript => exact plain_jsdoc (fun c hc => isIndent_of_mem_blockIndent hc) hd h

theorem getLast?_blockFor (language : Language) (header : Line) (doc : List Line) :
    (blockFor language header doc).getLast? ≠ some [] := by
  cases language with
  | python =>
    rw [blockFor, docstring, List.getLast?_concat]
    simp [quotes]
  | javaScript =>
    rw [blockFor, jsdoc, List.getLast?_concat]
    simp

theorem blockFor_ne_nil (language : Language) (header : Line) (doc : List Line) :
    blockFor language header doc ≠ [] := by
  cases language <;> simp [blockFor, docstring, jsdoc]

/-- The lines of a docstring block belong to the body of the definition. -/
theorem inBody_of_mem_block {header line : Line} {doc : List Line}
    (h : line ∈ blockFor .python header doc) : Scan.Python.inBody (depth header) line := by
  have hi : ∀ c ∈ blockIndent .python header, isIndent c :=
    fun c hc => isIndent_of_mem_blockIndent hc
  have hdeep (text : List Char) :
      Scan.Python.inBody (depth header) (blockIndent .python header ++ text) := by
    have hlen : (blockIndent .python header).length = depth header + 4 := by
      simp [blockIndent, depth]
    rw [Scan.Python.inBody, depth_append hi, hlen, Bool.or_eq_true, decide_eq_true_eq]
    exact .inr (by omega)
  rcases mem_docstring h with rfl | rfl | ⟨source, -, -, rfl⟩
  · rfl
  · exact hdeep quotes
  · exact hdeep (escapeQuotes source)

/-- No line of a JSDoc block is taken for a header. -/
theorem header?_of_mem_block {header line : Line} {doc : List Line}
    (h : line ∈ blockFor .javaScript header doc) (number : Nat) :
    Header.JavaScript.header? number line = .ok none := by
  have hi : ∀ c ∈ blockIndent .javaScript header, isIndent c :=
    fun c hc => isIndent_of_mem_blockIndent hc
  apply Header.JavaScript.header?_of_noName _ number
  rcases mem_jsdoc h with rfl | rfl | rfl | ⟨source, -, -, rfl⟩ <;>
  · rw [← blockIndent, afterIndent_append hi]
    simp [afterIndent, isIndent, Header.JavaScript.NoName]
    decide

private theorem closing?_append {c : Char} {delimiter indent : List Char} {between : List Line}
    (h : ∀ line ∈ between, ¬ c :: delimiter <:+: line) (hc : c ∉ indent) (after : List Line) :
    Docstring.closing? (c :: delimiter) (between ++ (indent ++ c :: delimiter) :: after) =
      some (between, indent) := by
  induction between with
  | nil =>
    have hs := splitAt?_append hc delimiter []
    rw [List.append_nil] at hs
    rw [List.nil_append, Docstring.closing?, hs]
  | cons line between ih =>
    have hs := (splitAt?_eq_none_iff (by simp)).mpr (h line (by simp))
    rw [List.cons_append, Docstring.closing?, hs, ih fun l hl => h l (by simp [hl])]
    rfl

theorem isSkipped_quotes {indent : List Char} (hi : ∀ c ∈ indent, isIndent c) :
    Docstring.isSkipped (indent ++ quotes) = false := by
  rw [Docstring.isSkipped, trim, trimStart_append hi]
  rfl

/-- A docstring block at the head of a body, behind blank lines and comments, is found there, and ends
where its first line with a delimiter does. -/
theorem inBody?_docstring_eq {indent : List Char} {before : List Line}
    (hi : ∀ c ∈ indent, isIndent c) (hb : ∀ line ∈ before, Docstring.isSkipped line)
    (doc after : List Line) :
    Docstring.inBody? (before ++ (docstring doc indent ++ after)) =
      (Docstring.closing? quotes (doc.map (fun line =>
        if line.isEmpty then [] else indent ++ escapeQuotes line) ++ (indent ++ quotes) :: after)).map
          fun (between, inside) => {
            text := Docstring.textOf [] (between ++ [inside])
            first := before.length
            last := before.length + between.length + 1 } := by
  have hopen : Docstring.opening? (indent ++ quotes) = some (quotes, []) := by
    rw [Docstring.opening?, trimStart_append hi]
    rfl
  have hskip := isSkipped_quotes hi
  have hinside : splitAt? quotes [] = none := rfl
  rw [Docstring.inBody?, List.takeWhile_append_of_pos hb, List.dropWhile_append_of_pos hb, docstring,
    List.append_assoc, List.cons_append, List.takeWhile_cons_of_neg (by simp [hskip]),
    List.dropWhile_cons_of_neg (by simp [hskip]), Docstring.atHead?, hopen]
  simp only [hinside]
  rw [List.singleton_append, List.append_nil]

/-- Unless one of its lines closes it too early, the block is found as a whole. -/
theorem inBody?_docstring {indent : List Char} {doc before : List Line}
    (hi : ∀ c ∈ indent, isIndent c) (hb : ∀ line ∈ before, Docstring.isSkipped line)
    (hq : ∀ source ∈ doc, ¬ quotes <:+: escapeQuotes source) (after : List Line) :
    Docstring.inBody? (before ++ (docstring doc indent ++ after)) =
      some {
        text := Docstring.textOf [] (doc.map (fun line =>
          if line.isEmpty then [] else indent ++ escapeQuotes line) ++ [indent])
        first := before.length
        last := before.length + doc.length + 1 } := by
  have hc : '"' ∉ indent := fun h => absurd (hi _ h) (by decide)
  have hbetween : ∀ line ∈ doc.map (fun line =>
      if line.isEmpty then [] else indent ++ escapeQuotes line), ¬ quotes <:+: line := by
    intro line hl
    obtain ⟨source, hs, rfl⟩ := List.mem_map.mp hl
    split
    · simp [quotes]
    · rw [quotes, infix_append_iff hc]
      exact hq source hs
  rw [inBody?_docstring_eq hi hb, quotes, closing?_append hbetween hc]
  simp

private theorem openerAbove?_append {top : Line} (ht : startsWith Jsdoc.opener (trimStart top))
    (lines above : List Line) (h : ∀ line ∈ lines, (trimStart line).head? = some '*') :
    Jsdoc.openerAbove? (lines ++ top :: above) = some lines.length := by
  induction lines with
  | nil => rw [List.nil_append, Jsdoc.openerAbove?, if_pos ht]; rfl
  | cons line lines ih =>
    obtain ⟨rest, hs⟩ := List.head?_eq_some_iff.mp (h line (by simp))
    have hopen : startsWith Jsdoc.opener (trimStart line) = false := by rw [hs]; rfl
    have hplain : startsWith Jsdoc.plainOpener (trimStart line) = false := by rw [hs]; rfl
    rw [List.cons_append, Jsdoc.openerAbove?, hopen, hplain, ih fun l hl => h l (by simp [hl])]
    rfl

private theorem closes_append (indent : List Char) :
    Jsdoc.closes (indent ++ [' ', '*', '/']) = true := by
  have htrim := trimEnd_append_singleton (c := '/') (by decide) (indent ++ [' ', '*'])
  simp only [List.append_assoc, List.cons_append, List.nil_append] at htrim
  rw [Jsdoc.closes, endsWith, List.isSuffixOf_iff_suffix, htrim]
  exact ⟨indent ++ [' '], by simp [Jsdoc.closer]⟩

/-- A JSDoc block directly above a header is found there, whatever stands above it. -/
theorem inGap?_jsdoc {indent : List Char} (hi : ∀ c ∈ indent, isIndent c) (doc before : List Line) :
    Jsdoc.inGap? (before ++ jsdoc doc indent) =
      some {
        text := Jsdoc.strip (jsdoc doc indent)
        first := before.length
        last := before.length + doc.length + 1 } := by
  have htop : startsWith Jsdoc.opener (trimStart (indent ++ ['/', '*', '*'])) := by
    rw [trimStart_append hi]
    rfl
  have hstar (text : List Char) : (trimStart (indent ++ ' ' :: '*' :: text)).head? = some '*' := by
    rw [trimStart_append hi]
    rfl
  have hlen : (jsdoc doc indent).length = doc.length + 2 := by simp [jsdoc]
  -- the lines of the block below its first, from the lowest up
  let below := (indent ++ [' ', '*', '/']) :: (doc.map fun line =>
    if line.isEmpty then indent ++ [' ', '*']
    else indent ++ ' ' :: '*' :: ' ' :: escapeCloser line).reverse
  have hstars : ∀ line ∈ below, (trimStart line).head? = some '*' := by
    intro line hl
    rw [List.mem_cons, List.mem_reverse, List.mem_map] at hl
    rcases hl with rfl | ⟨source, -, rfl⟩
    · exact hstar ['/']
    · split
      · exact hstar []
      · exact hstar _
  have hrev : (before ++ jsdoc doc indent).reverse =
      below ++ (indent ++ ['/', '*', '*']) :: before.reverse := by
    simp [jsdoc, below]
  have hopener := openerAbove?_append htop below before.reverse hstars
  have hbelow : below.length = doc.length + 1 := by simp [below]
  rw [Jsdoc.inGap?, Jsdoc.locate?, if_pos (Nat.le_refl _), Jsdoc.above, List.take_length,
    List.drop_zero, hrev]
  simp only [below, List.cons_append] at hopener hbelow ⊢
  simp only [closes_append, if_true, hopener, hbelow, Option.map_some, List.length_append, hlen]
  have hfirst : before.length + (doc.length + 2) - 1 - (doc.length + 1) = before.length := by omega
  rw [hfirst, List.drop_left]
  congr 1

/-- A block that was written is found again where it was written: at the head of a Python body behind
blank lines and comments, or at the end of the lines above a JavaScript header. -/
theorem located?_blockFor {language : Language} (header : Line) {doc before after : List Line}
    (hq : language = .python → ∀ source ∈ doc, ¬ quotes <:+: escapeQuotes source)
    (hb : language = .python → ∀ line ∈ before, Docstring.isSkipped line)
    (ha : language = .javaScript → after = []) :
    ∃ text, located? language (before ++ (blockFor language header doc ++ after)) =
      some {
        text
        first := before.length
        last := before.length + (blockFor language header doc).length - 1 } := by
  have hi : ∀ c ∈ blockIndent language header, isIndent c :=
    fun c hc => isIndent_of_mem_blockIndent hc
  rw [blockFor_eq]
  cases language with
  | python =>
    have hlast : before.length + (docstring doc (blockIndent .python header)).length - 1 =
        before.length + doc.length + 1 := by
      simp [docstring]
      omega
    exact ⟨_, by rw [located?, inBody?_docstring hi (hb rfl) (hq rfl), hlast]⟩
  | javaScript =>
    have hlast : before.length + (jsdoc doc (blockIndent .javaScript header)).length - 1 =
        before.length + doc.length + 1 := by
      simp [jsdoc]
      omega
    exact ⟨_, by rw [located?, ha rfl, List.append_nil, inGap?_jsdoc hi, hlast]⟩

end DocComments.Insert
