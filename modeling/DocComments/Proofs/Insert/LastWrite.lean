import DocComments.Proofs.Insert.Outline
import Mathlib.Logic.Function.Iterate

/-! Documentation written twice. The second text replaces the first, as if the first had never been
written. -/
namespace DocComments
open Text Doc DocComments.Insert

namespace Insert

/-- The texts of `second`, and those of `first` where these are missing or blank. -/
def overriding (first second : DocMap) : DocMap := fun name =>
  match second name with
  | some text => if normalLines text.toList = [] then first name else some text
  | none => first name

theorem overriding_self (docs : DocMap) : overriding docs docs = docs := by
  funext name
  rw [overriding]
  cases docs name with
  | none => rfl
  | some text => simp

private theorem docLines?_overriding (first second : DocMap) (d : Definition) :
    docLines? (overriding first second) d = (docLines? second d).or (docLines? first d) := by
  rw [docLines?, docLines?, overriding]
  cases second d.name with
  | none => rfl
  | some text =>
    simp only [Option.map_some]
    cases hl : normalLines text.toList with
    | nil => rfl
    | cons line rest => simp [hl]

/-- The documentation of a region is where the last block was written. -/
theorem place_apply (language : Language) (header : Line) (doc region : List Line)
    (hq : language = .python → ∀ source ∈ doc, ¬ quotes <:+: escapeQuotes source) :
    let edit := regionEdit language region (blockFor language header doc)
    place language (edit.apply region) = (edit.first, edit.first + edit.block.length) := by
  obtain ⟨before, after, happly, hlen, hb, ha⟩ :=
    exists_regionEdit_apply language region (blockFor language header doc)
  obtain ⟨text, hfound⟩ := located?_blockFor header hq hb ha
  have hpos : 0 < (blockFor language header doc).length :=
    List.length_pos_iff.mpr (blockFor_ne_nil language header doc)
  intro edit
  rw [happly, place, hfound]
  simp only [hlen, edit, regionEdit, Prod.mk.injEq, true_and]
  omega

private theorem regionEdit_apply_apply (language : Language) (header : Line) (doc region block : List Line)
    (hq : language = .python → ∀ source ∈ doc, ¬ quotes <:+: escapeQuotes source) :
    let edit := regionEdit language region (blockFor language header doc)
    (regionEdit language (edit.apply region) block).apply (edit.apply region) =
      (regionEdit language region block).apply region := by
  intro edit
  have hplace := place_apply language header doc region hq
  have hagain : regionEdit language (edit.apply region) block =
      ⟨edit.first, edit.first + edit.block.length, block⟩ := by
    rw [regionEdit, hplace]
  rw [hagain, Edit.apply_apply (regionEdit_within language region _)]
  rfl

end Insert

namespace Part

private theorem block?_overriding (language : Language) (first second : DocMap) (p : Part) :
    p.block? language (overriding first second) =
      (p.block? language second).or (p.block? language first) := by
  rw [block?, block?, block?, docLines?_overriding]
  cases docLines? second (p.definition (grammarOf language) 0) <;> simp

private theorem block?_document (language : Language) (first second : DocMap) (p : Part) :
    (p.document language first).block? language second = p.block? language second := by
  have hname : ((p.document language first).definition (grammarOf language) 0).name =
      (p.definition (grammarOf language) 0).name := by
    simp [definition]
  rw [block?, block?, document_header, docLines?, docLines?, hname]

private theorem withRegion_withRegion (language : Language) (p : Part) (region region' : List Line) :
    (p.withRegion language region).withRegion language region' = p.withRegion language region' := by
  cases language <;> rfl

/-- Documenting a part a second time undoes the first. -/
theorem document_document {language : Language} {first : DocMap} (second : DocMap) (p : Part)
    (hq : language = .python → ∀ name text, first name = some text →
      ¬ List.replicate 5 '"' <:+: text.toList) :
    (p.document language first).document language second =
      p.document language (overriding first second) := by
  have hsecond := block?_document language first second p
  have hboth := block?_overriding language first second p
  cases hs : p.block? language second with
  | none =>
    have hfirst : p.block? language (overriding first second) = p.block? language first := by
      rw [hboth, hs, Option.none_or]
    rw [document_of_none (hsecond.trans hs), document, document, hfirst]
  | some block =>
    have hfinal : p.block? language (overriding first second) = some block := by
      rw [hboth, hs, Option.some_or]
    cases hf : p.block? language first with
    | none => rw [document_of_none hf, document_of_some hs, document_of_some hfinal]
    | some old =>
      obtain ⟨text, ht, rfl⟩ := exists_of_block? hf
      have hclosed : language = .python →
          ∀ source ∈ normalLines text.toList, ¬ quotes <:+: escapeQuotes source :=
        fun hl => not_quotes_infix_of_mem_normalLines (hq hl _ text ht)
      rw [document_of_some (hsecond.trans hs), document_of_some hf, document_of_some hfinal,
        withRegion_region, withRegion_withRegion,
        regionEdit_apply_apply language p.header _ _ _ hclosed]

end Part

/-- Documenting a file twice comes to documenting it once with the later of the texts. -/
theorem content_document_document {language : Language} {first : DocMap} (second : DocMap)
    {source : String} (hr : ∀ line ∈ linesOf source, line.getLast? ≠ some '\r')
    (hq : language = .python → ∀ name text, first name = some text →
      ¬ List.replicate 5 '"' <:+: text.toList) :
    (document language second (document language first source).content).content =
      (document language (overriding first second) source).content := by
  obtain ⟨o, ho⟩ := Outline.exists_lines_eq (grammarOf_local language) (linesOf source)
  have hparts : (o.parts.map (Part.document language first)).map (Part.document language second) =
      o.parts.map (Part.document language (overriding first second)) := by
    rw [List.map_map]
    exact List.map_congr_left fun p _ => p.document_document second hq
  rw [Outline.content_document second (Outline.linesOf_content first ho hr),
    Outline.endsInNewline_content first ho hr, Outline.content_document (overriding first second) ho]
  simp only [Outline.lines, Outline.document, hparts]

/-- In JavaScript the later text of a definition replaces the earlier one, whatever the two say, and
blocks do not pile up however often the same texts are written. -/
theorem javaScript_last_write_wins (source : String)
    (hr : ∀ line ∈ linesOf source, line.getLast? ≠ some '\r') :
    (∀ first second : DocMap,
      (document .javaScript second (document .javaScript first source).content).content =
        (document .javaScript (overriding first second) source).content) ∧
      ∀ (docs : DocMap) (n : Nat),
        Nat.iterate (fun text => (document .javaScript docs text).content) (n + 1) source =
          (document .javaScript docs source).content := by
  have htwice (first second : DocMap) :
      (document .javaScript second (document .javaScript first source).content).content =
        (document .javaScript (overriding first second) source).content :=
    content_document_document second hr (by simp)
  refine ⟨htwice, fun docs n => ?_⟩
  have hagain := htwice docs docs
  rw [overriding_self] at hagain
  rw [Function.iterate_succ_apply]
  exact Function.iterate_fixed (f := fun text => (document .javaScript docs text).content) hagain n

/-- A comment whose text tries to close it and to open another is replaced as a whole. -/
theorem javaScript_last_write_wins_closer :
    (∀ line ∈ linesOf "/** Old. */\nfunction f(a) \x7b\n\x7d\n", line.getLast? ≠ some '\r') ∧
      (document .javaScript (fun _ => some "New.")
        (document .javaScript (fun _ => some "One. */\n/** Two.")
          "/** Old. */\nfunction f(a) \x7b\n\x7d\n").content).content =
        "  /**\n   * New.\n   */\nfunction f(a) \x7b\n\x7d\n" := by
  have hr : ∀ line ∈ linesOf "/** Old. */\nfunction f(a) \x7b\n\x7d\n",
      line.getLast? ≠ some '\r' := by decide
  have htwice := (javaScript_last_write_wins _ hr).1 (fun _ => some "One. */\n/** Two.")
    (fun _ => some "New.")
  exact ⟨hr, htwice.trans (by decide +kernel)⟩

/-- In Python the later text of a definition replaces the earlier one, if no earlier text holds five
double quotes in a row. -/
theorem python_last_write_wins (source : String) (first second : DocMap)
    (hr : ∀ line ∈ linesOf source, line.getLast? ≠ some '\r')
    (hq : ∀ name text, first name = some text → ¬ List.replicate 5 '"' <:+: text.toList) :
    (document .python second (document .python first source).content).content =
      (document .python (overriding first second) source).content :=
  content_document_document second hr fun _ => hq

/-- A text that tries to close the docstring is replaced as a whole. A docstring that the source
leaves open is no documentation and stays. -/
theorem python_last_write_wins_quotes :
    (∀ line ∈ linesOf "def f(a):\n    # note\n    \"\"\"open\n", line.getLast? ≠ some '\r') ∧
      (∀ text, some "One \"\"\"\" two" = some text → ¬ List.replicate 5 '"' <:+: text.toList) ∧
      (document .python (fun _ => some "New.")
        (document .python (fun _ => some "One \"\"\"\" two")
          "def f(a):\n    # note\n    \"\"\"open\n").content).content =
        "def f(a):\n    \"\"\"\n    New.\n    \"\"\"\n    # note\n    \"\"\"open\n" := by
  have hq : ∀ text, some "One \"\"\"\" two" = some text →
      ¬ List.replicate 5 '"' <:+: text.toList := by
    rintro text ht
    obtain rfl := Option.some.inj ht
    decide
  have hr : ∀ line ∈ linesOf "def f(a):\n    # note\n    \"\"\"open\n",
      line.getLast? ≠ some '\r' := by decide
  have htwice := python_last_write_wins _ (fun _ => some "One \"\"\"\" two")
    (fun _ => some "New.") hr fun _ => hq
  exact ⟨hr, hq, htwice.trans (by decide +kernel)⟩

end DocComments
