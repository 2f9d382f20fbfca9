import DocComments.Proofs.Insert.Outline
import Mathlib.Data.List.Forall2

/-! Documentation read back. Of the lines that are written, marks and indentation are taken off again,
and what is left is the text in normal form, with its closing tokens escaped. -/
namespace DocComments
open Text Doc DocComments.Insert

namespace Insert

def closingToken : Language → List Char
  | .python => ['"', '"', '"']
  | .javaScript => ['*', '/']

def escapedToken : Language → List Char
  | .python => ['\\', '"', '\\', '"', '\\', '"']
  | .javaScript => ['*', '\\', '/']

private theorem escapeQuotes_eq_replaceAll (s : List Char) :
    escapeQuotes s = replaceAll (closingToken .python) (escapedToken .python) s := by
  have hne : closingToken .python ≠ [] := by decide
  exact eq_replaceAll (f := escapeQuotes) hne rfl (fun _ => rfl) (fun _ _ hno => escapeQuotes_cons hno) s

private theorem escapeCloser_eq_replaceAll (s : List Char) :
    escapeCloser s = replaceAll (closingToken .javaScript) (escapedToken .javaScript) s := by
  have hne : closingToken .javaScript ≠ [] := by decide
  refine eq_replaceAll (f := escapeCloser) hne rfl (fun _ => rfl) (fun c rest hno => ?_) s
  rw [escapeCloser]
  rintro tail rfl rfl
  exact hno ⟨tail, rfl⟩

theorem escapeQuotes_eq_self {s : List Char} (h : ¬ quotes <:+: s) : escapeQuotes s = s := by
  rw [escapeQuotes_eq_replaceAll]
  exact replaceAll_eq_self _ h

theorem escapeCloser_eq_self {s : List Char} (h : ¬ Jsdoc.closer <:+: s) : escapeCloser s = s := by
  rw [escapeCloser_eq_replaceAll]
  exact replaceAll_eq_self _ h

theorem allBlank_escapeQuotes (s : List Char) : allBlank (escapeQuotes s) = allBlank s := by
  fun_induction escapeQuotes s with
  | case1 rest ih => rfl
  | case2 c rest _ ih => simpa [allBlank] using congrArg (isBlank c && ·) ih
  | case3 => rfl

private theorem depth_escapeQuotes (s : List Char) : depth (escapeQuotes s) = depth s := by
  fun_induction escapeQuotes s with
  | case1 rest ih => rfl
  | case2 c rest _ ih =>
    simp only [depth, indentation] at ih ⊢
    rw [List.takeWhile_cons, List.takeWhile_cons]
    split <;> simp [ih]
  | case3 => rfl

private theorem head?_escapeCloser (s : List Char) : (escapeCloser s).head? = s.head? := by
  fun_cases escapeCloser s <;> rfl

private theorem not_closer_infix_escapeCloser (s : List Char) : ¬ Jsdoc.closer <:+: escapeCloser s := by
  fun_induction escapeCloser s with
  | case1 rest ih =>
    rw [Jsdoc.closer] at ih
    simp [Jsdoc.closer, List.infix_cons_iff, ih]
  | case2 c rest hc ih =>
    rw [List.infix_cons_iff, not_or]
    refine ⟨fun hp => ?_, ih⟩
    rw [Jsdoc.closer, List.cons_prefix_cons] at hp
    obtain ⟨rfl, tail, ht⟩ := hp
    have hhead : rest.head? = some '/' := by rw [← head?_escapeCloser, ← ht]; rfl
    obtain ⟨below, rfl⟩ := List.head?_eq_some_iff.mp hhead
    exact hc below rfl rfl
  | case3 => simp [Jsdoc.closer]

section
variable {indent : List Char} {doc : List Line}

private theorem lineText_text (hi : ∀ c ∈ indent, isIndent c) {t : List Char} (hne : t ≠ [])
    (hl : ∀ c ∈ t.getLast?, isBlank c = false) (hc : ¬ Jsdoc.closer <:+: t) :
    Jsdoc.lineText (indent ++ ' ' :: '*' :: ' ' :: t) = t := by
  have hstart : trimStart (indent ++ ' ' :: '*' :: ' ' :: t) = '*' :: ' ' :: t := by
    rw [trimStart_append hi]
    rfl
  have hend : trimEnd ('*' :: ' ' :: t) = '*' :: ' ' :: t := by
    apply trimEnd_eq_self
    rwa [List.getLast?_cons_of_ne_nil (by simp), List.getLast?_cons_of_ne_nil hne]
  have hopen : withoutPrefix Jsdoc.opener ('*' :: ' ' :: t) = '*' :: ' ' :: t := rfl
  have hclose : withoutSuffix Jsdoc.closer ('*' :: ' ' :: t) = '*' :: ' ' :: t := by
    have hno : ¬ Jsdoc.closer <:+ '*' :: ' ' :: t := by
      intro hs
      apply hc
      simpa [Jsdoc.closer, List.infix_cons_iff] using hs.isInfix
    rw [withoutSuffix, dropSuffix?_eq_none_iff.mpr hno, Option.getD_none]
  have hstar : Jsdoc.withoutStar ('*' :: ' ' :: t) = t := rfl
  have hmark : trimStart ('*' :: ' ' :: t) = '*' :: ' ' :: t := rfl
  rw [Jsdoc.lineText, trim, hstart, hend, hopen, hclose, hmark, hstar, trimEnd_eq_self hl]

private theorem lineText_mark (hi : ∀ c ∈ indent, isIndent c) {mark : List Char}
    (hm : Jsdoc.lineText mark = []) : Jsdoc.lineText (indent ++ mark) = [] := by
  rw [← hm, Jsdoc.lineText, trim, trimStart_append hi]
  rfl

/-- Stripping a comment block of its marks gives back the lines that were written, escaped. -/
theorem strip_jsdoc (hi : ∀ c ∈ indent, isIndent c)
    (hd : ∀ source ∈ doc, ∀ c ∈ source.getLast?, isBlank c = false) :
    Jsdoc.strip (jsdoc doc indent) = trim (joinLines (doc.map escapeCloser)) := by
  have hlines : (jsdoc doc indent).map Jsdoc.lineText = [] :: (doc.map escapeCloser ++ [[]]) := by
    rw [jsdoc, List.cons_append, List.map_cons, List.map_append, List.map_map,
      lineText_mark hi (by decide), List.map_singleton, lineText_mark hi (by decide)]
    congr 2
    apply List.map_congr_left
    intro source hs
    rw [Function.comp_apply]
    split
    · rename_i he
      rw [List.isEmpty_iff.mp he, lineText_mark hi (by decide)]
      rfl
    · rename_i he
      have hescaped := escaped_escapeCloser source
      have hne : source ≠ [] := by simpa using he
      apply lineText_text hi (hescaped.ne_nil hne)
      · rw [hescaped.getLast?_eq]
        exact hd source hs
      · exact not_closer_infix_escapeCloser source
  rw [Jsdoc.strip, hlines, trim_joinLines_within]

/-- Between the delimiters of a docstring block stand the lines of the text, escaped and indented. -/
theorem written_eq_indented (indent : List Char)
    (hd : ∀ source ∈ doc, ∀ c ∈ source.getLast?, isBlank c = false) :
    doc.map (fun line => if line.isEmpty then [] else indent ++ escapeQuotes line) =
      (doc.map escapeQuotes).map (indented indent) := by
  rw [List.map_map]
  apply List.map_congr_left
  intro source hs
  cases source with
  | nil => rfl
  | cons c rest =>
    have hb := allBlank_eq_false (by simp) (hd _ hs)
    rw [Function.comp_apply, indented, allBlank_escapeQuotes, hb]
    rfl

/-- Cleaning the lines between the delimiters of a docstring block gives back the lines that were
written, escaped. -/
theorem textOf_docstring (hi : ∀ c ∈ indent, isIndent c) (hcommon : commonDepth doc = 0)
    (hd : ∀ source ∈ doc, ∀ c ∈ source.getLast?, isBlank c = false) :
    Docstring.textOf [] (doc.map (fun line =>
        if line.isEmpty then [] else indent ++ escapeQuotes line) ++ [indent]) =
      trim (joinLines (doc.map escapeQuotes)) := by
  have hescaped : dedent (doc.map escapeQuotes) = doc.map escapeQuotes := by
    apply dedent_eq_self
    · rw [← hcommon, commonDepth, commonDepth, List.filter_map, List.map_map]
      simp only [Function.comp_def, allBlank_escapeQuotes, depth_escapeQuotes]
    · intro line hl
      obtain ⟨source, hs, rfl⟩ := List.mem_map.mp hl
      rw [(escaped_escapeQuotes source).getLast?_eq]
      exact hd source hs
  have hblank : allBlank indent := List.all_eq_true.mpr fun c hc => isBlank_of_isIndent (hi c hc)
  have hfirst : trim [] = [] := rfl
  rw [Docstring.textOf, written_eq_indented indent hd, dedent_concat_blank _ hblank, dedent_indented hi,
    hescaped, hfirst, trim_joinLines_within]

end

/-- The text of a documentation as it is read from the file it was written into. -/
def readText (language : Language) (text : String) : String :=
  String.ofList (trim (joinLines ((normalLines text.toList).map
    (replaceAll (closingToken language) (escapedToken language)))))

private theorem escaped_replaceAll (language : Language) (s : List Char) :
    Escaped s (replaceAll (closingToken language) (escapedToken language) s) := by
  cases language with
  | python => exact escapeQuotes_eq_replaceAll s ▸ escaped_escapeQuotes s
  | javaScript => exact escapeCloser_eq_replaceAll s ▸ escaped_escapeCloser s

/-- Escaping each line is escaping the text, as the token that is escaped lies on one line. -/
theorem joinLines_map_replaceAll {piece new : List Char} (hp : piece ≠ []) (hn : '\n' ∉ piece)
    (ls : List Line) :
    joinLines (ls.map (replaceAll piece new)) = replaceAll piece new (joinLines ls) := by
  induction ls with
  | nil => rw [List.map_nil, joinLines, replaceAll, replaceFrom]
  | cons line ls ih =>
    cases ls with
    | nil => rfl
    | cons next ls =>
      rw [List.map_cons, List.map_cons, joinLines_cons_cons, joinLines_cons_cons,
        replaceAll_append_cons hp hn, ← ih, List.map_cons]

/-- A text in normal form is read as it is, but for the closing tokens. -/
theorem readText_of_normal {text : String} (hn : joinLines (normalLines text.toList) = text.toList)
    (ht : Trimmed text.toList) (language : Language) :
    readText language text =
      String.ofList (replaceAll (closingToken language) (escapedToken language) text.toList) := by
  have hpiece : closingToken language ≠ [] ∧ '\n' ∉ closingToken language := by
    cases language <;> decide
  rw [readText, joinLines_map_replaceAll hpiece.1 hpiece.2, hn,
    ((escaped_replaceAll language text.toList).trimmed ht).trim_eq_self]

private theorem located?_text_blockFor {language : Language} (header : Line) {text : String}
    {before after : List Line}
    (hq : language = .python → ¬ List.replicate 5 '"' <:+: text.toList)
    (hb : language = .python → ∀ line ∈ before, Docstring.isSkipped line)
    (ha : language = .javaScript → after = []) :
    ((located? language
      (before ++ (blockFor language header (normalLines text.toList) ++ after))).map (·.text)).map
        String.ofList = some (readText language text) := by
  have hi : ∀ c ∈ blockIndent language header, isIndent c :=
    fun c hc => isIndent_of_mem_blockIndent hc
  have hd : ∀ source ∈ normalLines text.toList, ∀ c ∈ source.getLast?, isBlank c = false :=
    fun source hs => isBlank_of_getLast?_normalLines hs
  rw [blockFor_eq, readText]
  cases language with
  | python =>
    have hclosed := not_quotes_infix_of_mem_normalLines (hq rfl)
    have htext := textOf_docstring hi (commonDepth_normalLines text.toList) hd
    rw [List.map_congr_left fun source _ => escapeQuotes_eq_replaceAll source] at htext
    rw [located?, inBody?_docstring hi (hb rfl) hclosed, Option.map_some, Option.map_some, htext]
  | javaScript =>
    have htext := strip_jsdoc hi hd
    rw [List.map_congr_left fun source _ => escapeCloser_eq_replaceAll source] at htext
    rw [located?, ha rfl, List.append_nil, inGap?_jsdoc hi, Option.map_some, Option.map_some, htext]

end Insert

namespace Part
variable {language : Language} {docs : DocMap}

theorem block?_of_text {p : Part} {text : String} (ht : docs (String.ofList p.head.name) = some text)
    (hne : normalLines text.toList ≠ []) :
    p.block? language docs = some (blockFor language p.header (normalLines text.toList)) := by
  obtain ⟨line, rest, hl⟩ := List.exists_cons_of_ne_nil hne
  have hdoc : docLines? docs (p.definition (grammarOf language) 0) = some (line :: rest) := by
    simp [docLines?, definition, ht, hl]
  rw [block?, hdoc, hl, Option.map_some]

/-- A documented part has the documentation that was written into it. -/
theorem existingDoc_of_text {p : Part} {text : String} (above : Nat)
    (ht : docs (String.ofList p.head.name) = some text) (hne : normalLines text.toList ≠ [])
    (hq : language = .python → ¬ List.replicate 5 '"' <:+: text.toList) :
    ((p.document language docs).definition (grammarOf language) above).existingDoc =
      some (readText language text) := by
  obtain ⟨before, after, happly, -, hb, ha⟩ := exists_regionEdit_apply language (p.region language)
    (blockFor language p.header (normalLines text.toList))
  have hfound := located?_text_blockFor p.header hq hb ha
  simp only [definition, doc?_lines]
  rw [document_of_some (block?_of_text ht hne), withRegion_region, happly, hfound]

private theorem forall₂_existingDoc (parts : List Part) (above above' : Nat) :
    List.Forall₂ (fun before after => ∀ text, docs before.name = some text →
        normalLines text.toList ≠ [] →
        (language = .python → ¬ List.replicate 5 '"' <:+: text.toList) →
        after.existingDoc = some (readText language text))
      (definitions (grammarOf language) above parts)
      (definitions (grammarOf language) above' (parts.map (document language docs))) :=
  forall₂_definitions (fun _ _ above' _ ht hne hq => existingDoc_of_text above' ht hne hq) parts above above'

end Part

/-- What is written is read back: in the documented file, the definition at the place of one that has
a text is documented by the lines of that text in normal form, each with the language's closing token
escaped. In a docstring this takes a text without five double quotes in a row. -/
theorem existingDoc_document (language : Language) (docs : DocMap) (source : String)
    (hr : ∀ line ∈ linesOf source, line.getLast? ≠ some '\r') :
    List.Forall₂ (fun before after => ∀ text, docs before.name = some text →
        normalLines text.toList ≠ [] →
        (language = .python → ¬ List.replicate 5 '"' <:+: text.toList) →
        after.existingDoc = some (readText language text))
      (extract language source) (extract language (document language docs source).content) := by
  obtain ⟨o, ho⟩ := Outline.exists_lines_eq (grammarOf_local language) (linesOf source)
  rw [o.extract_eq ho, (o.document docs).extract_eq (o.linesOf_content docs ho hr)]
  exact Part.forall₂_existingDoc o.parts 0 0

/-- A text with quotes, a blank line and a line further in takes the place of a docstring and is read
back from there. -/
theorem existingDoc_document_quotes :
    let source := "def g():\n    pass\n\ndef f():\n\t'''Old.'''\n"
    let docs : DocMap := fun name =>
      if name = "f" then some "  Say \"\"\"hi\"\"\".\n\n   - On.\n" else none
    (∀ line ∈ linesOf source, line.getLast? ≠ some '\r') ∧
      (extract .python source).map (·.name) = ["g", "f"] ∧
      List.Forall₂ (fun before after => before.name = "f" →
          after.existingDoc = some "Say \\\"\\\"\\\"hi\\\"\\\"\\\".\n\n - On.")
        (extract .python source) (extract .python (document .python docs source).content) := by
  intro source docs
  have hr : ∀ line ∈ linesOf source, line.getLast? ≠ some '\r' := by decide
  refine ⟨hr, by decide +kernel, ?_⟩
  refine List.Forall₂.imp ?_ (existingDoc_document .python docs source hr)
  intro before after hread hname
  have htext : docs before.name = some "  Say \"\"\"hi\"\"\".\n\n   - On.\n" := if_pos hname
  rw [hread _ htext (by decide) fun _ => by decide]
  exact congrArg some (by decide)

end DocComments
