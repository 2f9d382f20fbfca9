import DocComments.Proofs.Batch.Answers
import DocComments.Proofs.Insert.LastWrite
import DocComments.Proofs.Insert.Preservation
import DocComments.Proofs.Insert.RoundTrip
import DocComments.Proofs.Scan.WellFormed
import DocComments.Proofs.Template

/-! Files documented without a model. Every definition gets the skeleton of its signature, which is read
back word for word, and a second run asks for the same documentation and leaves the file as it is. -/
namespace DocComments
open Text Doc DocComments.Insert Parameters

section Requests
variable {language : Language}

theorem Parameters.Declared.phrased {segment : List Char} {p : Parameter}
    (h : Declared language segment p) (hn : '\n' ∉ segment) : p.Phrased where
  name := by
    obtain ⟨mark, hm, bare, hbare, hname⟩ := h.name
    have hmark : ∀ mark ∈ marks language, noBlank mark := by cases language <;> decide
    rw [hname]
    refine phrase_of_not_blank (by simp [hbare.ne_nil]) fun c hc => ?_
    exact (List.mem_append.mp hc).elim (noBlank_iff.mp (hmark mark hm) c) (not_isBlank_of_isName hbare c)
  type := fun type ht => ⟨(h.type type ht).1, fun hc => hn ((h.type type ht).2.subset hc)⟩
  default := fun value hv => ⟨(h.default value hv).1, fun hc => hn ((h.default value hv).2.subset hc)⟩

theorem Definition.WellFormed.phrased {d : Definition} (h : d.WellFormed language) :
    (DocRequest.ofDefinition language d).Phrased where
  name_ne_nil := h.name.ne_nil
  name := not_isBlank_of_isName h.name
  parameters := by
    intro p hp
    obtain ⟨segment, hn, -, hdeclared⟩ := h.parameters p hp
    exact hdeclared.phrased hn
  returnType := h.returnType

end Requests

/-- The skeletons for the definitions of a file, by name, from one batch of requests. -/
def skeletons (language : Language) (style : Style) (schedule : Batch.Schedule) (options : BatchOptions)
    (source : String) : DocMap :=
  docMap (Batch.run templateGenerator schedule options style
    ((extract language source).map (.ofDefinition language))).docs

/-- A file into which its skeletons are written. -/
def documentOffline (language : Language) (style : Style) (schedule : Batch.Schedule)
    (options : BatchOptions) (source : String) : Documented :=
  document language (skeletons language style schedule options source) source

private theorem render_sameHeader {before after : Definition} (h : SameHeader before after) (language : Language)
    (style : Style) :
    Template.render style (.ofDefinition language after) =
      Template.render style (.ofDefinition language before) := by
  simp only [Template.render, DocRequest.ofDefinition, h.name, h.kind, h.parameters, h.returnType]

section Skeletons
variable {language : Language} {style : Style} {schedule : Batch.Schedule} {options : BatchOptions}
variable {source : String}

/-- Whatever the batch, a name has the skeleton of the first definition of that name. -/
theorem skeletons_eq (hs : ∀ group, (schedule group).Perm group) (name : String) :
    skeletons language style schedule options source name =
      ((extract language source).find? (·.name == name)).map fun d =>
        Template.render style (.ofDefinition language d) := by
  rw [skeletons, Batch.docMap_run templateGenerator hs, List.find?_map, Option.bind_map,
    Option.map_eq_bind]
  rfl

private theorem skeletons_name (hs : ∀ group, (schedule group).Perm group) {d : Definition}
    (hd : d ∈ extract language source) :
    ∃ first ∈ extract language source, (extract language source).find? (·.name == d.name) = some first ∧
      skeletons language style schedule options source d.name =
        some (Template.render style (.ofDefinition language first)) := by
  have hsome : ((extract language source).find? (·.name == d.name)).isSome :=
    List.find?_isSome.mpr ⟨d, hd, beq_self_eq_true d.name⟩
  obtain ⟨first, hf⟩ := Option.isSome_iff_exists.mp hsome
  refine ⟨first, List.mem_of_find?_eq_some hf, hf, ?_⟩
  rw [skeletons_eq hs, hf, Option.map_some]

private theorem skeletons_phrased (hs : ∀ group, (schedule group).Perm group) {name text : String}
    (ht : skeletons language style schedule options source name = some text) :
    ∃ r : DocRequest, r.Phrased ∧ text = Template.render style r := by
  rw [skeletons_eq hs] at ht
  obtain ⟨first, hf, rfl⟩ := Option.map_eq_some_iff.mp ht
  exact ⟨_, (wellFormed_of_mem_extract (List.mem_of_find?_eq_some hf)).phrased, rfl⟩

/-- A skeleton is text, and it is read back from a file word for word. -/
theorem readText_skeleton (hs : ∀ group, (schedule group).Perm group) {name text : String}
    (ht : skeletons language style schedule options source name = some text) :
    normalLines text.toList ≠ [] ∧ readText language text =
      String.ofList (replaceAll (closingToken language) (escapedToken language) text.toList) := by
  obtain ⟨r, hr, rfl⟩ := skeletons_phrased hs ht
  have hlines := Template.normalLines_render style hr
  refine ⟨by simp [hlines, Template.linesFor], ?_⟩
  apply readText_of_normal _ (Template.trimmed_render style hr)
  rw [hlines, ← Template.toList_render]

private theorem hasText_skeletons (hs : ∀ group, (schedule group).Perm group) :
    ∀ d ∈ extract language source, hasText (skeletons language style schedule options source) d := by
  intro d hd
  obtain ⟨first, -, -, ht⟩ := skeletons_name hs hd
  rw [hasText, ht, Option.any_some]
  simpa using (readText_skeleton hs ht).1

private theorem not_infix_skeleton (hs : ∀ group, (schedule group).Perm group) {name text : String}
    (ht : skeletons language style schedule options source name = some text)
    (hq : ∀ line ∈ linesOf text, ¬ List.replicate 5 '"' <:+: line) :
    ¬ List.replicate 5 '"' <:+: text.toList := by
  obtain ⟨r, hr, rfl⟩ := skeletons_phrased hs ht
  rw [linesOf, Template.toList_render, (Template.normal_linesFor style hr).lines_joinLines] at hq
  rw [Template.toList_render, infix_joinLines_iff (by decide) (by decide)]
  rintro ⟨line, hl, hi⟩
  exact hq line hl hi

private theorem skeletons_congr {source' : String} {schedule' : Batch.Schedule} {options' : BatchOptions}
    (hs : ∀ group, (schedule group).Perm group) (hs' : ∀ group, (schedule' group).Perm group)
    (h : List.Forall₂ SameHeader (extract language source) (extract language source')) :
    skeletons language style schedule' options' source' =
      skeletons language style schedule options source := by
  funext name
  rw [skeletons_eq hs, skeletons_eq hs']
  generalize extract language source = found at h ⊢
  generalize extract language source' = found' at h ⊢
  induction h with
  | nil => rfl
  | @cons before after found found' hd _ ih =>
    by_cases hname : before.name = name
    · have hname' : after.name = name := hd.name.trans hname
      simp [hname, hname', render_sameHeader hd]
    · have hname' : after.name ≠ name := fun he => hname (hd.name.symm.trans he)
      rw [List.find?_cons_of_neg (by simpa using hname'), List.find?_cons_of_neg (by simpa using hname), ih]

end Skeletons

/-- Every definition is documented; in the file that is written, each has for its documentation the
skeleton of the first definition of its name, with the language's closing token escaped; and a second
run, however its batch goes, leaves that file as it is. In a docstring this takes skeletons without a
line that holds five double quotes in a row. -/
theorem documentOffline_fixpoint (language : Language) (style : Style) (source : String)
    (schedule schedule' : Batch.Schedule) (options options' : BatchOptions)
    (hs : ∀ group, (schedule group).Perm group) (hs' : ∀ group, (schedule' group).Perm group)
    (hr : ∀ line ∈ linesOf source, line.getLast? ≠ some '\r')
    (hq : language = .python → ∀ name text,
      skeletons language style schedule options source name = some text →
        ∀ line ∈ linesOf text, ¬ List.replicate 5 '"' <:+: line) :
    let found := extract language source
    let written := documentOffline language style schedule options source
    written.updated = found.length ∧
      List.Forall₂ (fun before after => ∃ first, found.find? (·.name == before.name) = some first ∧
          after.existingDoc = some (String.ofList (replaceAll (closingToken language) (escapedToken language)
            (Template.render style (.ofDefinition language first)).toList)))
        found (extract language written.content) ∧
      (documentOffline language style schedule' options' written.content).content = written.content := by
  intro found written
  have htext : language = .python → ∀ name text,
      skeletons language style schedule options source name = some text →
        ¬ List.replicate 5 '"' <:+: text.toList :=
    fun hl name text ht => not_infix_skeleton hs ht (hq hl name text ht)
  refine ⟨?_, ?_, ?_⟩
  · rw [← List.countP_eq_length.mpr (hasText_skeletons hs)]
    exact updated_eq_countP language _ source
  · have hread : List.Forall₂ (fun before after => ∀ text,
        skeletons language style schedule options source before.name = some text →
          after.existingDoc = some (readText language text)) found (extract language written.content) :=
      forall₂_extract_document hr fun p _ above' text ht =>
        p.existingDoc_of_text above' ht (readText_skeleton hs ht).1 fun hl => htext hl _ text ht
    obtain ⟨hlength, hzip⟩ := List.forall₂_iff_zip.mp hread
    refine List.forall₂_iff_zip.mpr ⟨hlength, fun {before after} hmem => ?_⟩
    obtain ⟨first, -, hf, ht⟩ := skeletons_name hs (List.of_mem_zip hmem).1
    exact ⟨first, hf, (readText_skeleton hs ht).2 ▸ hzip hmem _ ht⟩
  · -- the second run makes the same skeletons, and to write them again changes nothing
    have hsame : List.Forall₂ SameHeader found (extract language written.content) :=
      forall₂_extract_document hr (Part.sameHeader_document language _)
    have hagain := content_document_document (skeletons language style schedule options source) hr htext
    rw [overriding_self] at hagain
    rw [documentOffline, skeletons_congr hs hs' hsame]
    exact hagain

/-- Of two definitions with one name the first lends its skeleton to both; a default value with four
double quotes and a run whose calls end in another order change nothing. -/
theorem documentOffline_fixpoint_shared_name :
    let source := "def f(a=\"\"\"\"):\n    pass\ndef f():\n    'Old.'\n"
    let written := documentOffline .python .jsdoc List.reverse ⟨2, 0⟩ source
    (∀ group : List Batch.Call, group.reverse.Perm group) ∧
      (∀ line ∈ linesOf source, line.getLast? ≠ some '\r') ∧
      (∀ name text, skeletons .python .jsdoc List.reverse ⟨2, 0⟩ source name = some text →
        ∀ line ∈ linesOf text, ¬ List.replicate 5 '"' <:+: line) ∧
      written.updated = 2 ∧
      List.Forall₂ (fun before after => before.name = "f" → after.existingDoc =
          some "F.\n@param \x7b*\x7d [a=\\\"\\\"\\\"\"] - Description of a.")
        (extract .python source) (extract .python written.content) ∧
      (documentOffline .python .jsdoc id ⟨5, 1000⟩ written.content).content = written.content := by
  intro source written
  have hs : ∀ group : List Batch.Call, group.reverse.Perm group := fun group => group.reverse_perm
  have hr : ∀ line ∈ linesOf source, line.getLast? ≠ some '\r' := by decide
  have hlines : ∀ d ∈ extract .python source,
      ∀ line ∈ linesOf (Template.render .jsdoc (.ofDefinition .python d)),
        ¬ List.replicate 5 '"' <:+: line := by decide +kernel
  have hq : ∀ name text, skeletons .python .jsdoc List.reverse ⟨2, 0⟩ source name = some text →
      ∀ line ∈ linesOf text, ¬ List.replicate 5 '"' <:+: line := by
    intro name text ht
    rw [skeletons_eq hs] at ht
    obtain ⟨first, hf, rfl⟩ := Option.map_eq_some_iff.mp ht
    exact hlines first (List.mem_of_find?_eq_some hf)
  obtain ⟨hupdated, hread, hagain⟩ := documentOffline_fixpoint .python .jsdoc source List.reverse id
    ⟨2, 0⟩ ⟨5, 1000⟩ hs (fun group => .refl group) hr fun _ => hq
  refine ⟨hs, hr, hq, hupdated.trans (by decide +kernel), List.Forall₂.imp ?_ hread, hagain⟩
  rintro before after ⟨first, hf, hdoc⟩ hname
  have hfirst : ((extract .python source).find? (·.name == "f")).map (fun d =>
      String.ofList (replaceAll (closingToken .python) (escapedToken .python)
        (Template.render .jsdoc (.ofDefinition .python d)).toList)) =
      some "F.\n@param \x7b*\x7d [a=\\\"\\\"\\\"\"] - Description of a." := by decide +kernel
  rw [hname] at hf
  rw [hf, Option.map_some] at hfirst
  exact hdoc.trans hfirst

end DocComments
