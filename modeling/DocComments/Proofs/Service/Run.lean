import DocComments.Proofs.Batch.Answers
import DocComments.Proofs.History.Memory
import DocComments.Proofs.Insert.Outline
import DocComments.Service.Run

/-! What a documentation run does. The definitions are extracted twice, once to be documented and once to be
written back; both passes go by the texts that the generator gave for the first definition of each name. -/
namespace DocComments
open Text DocComments.Insert

section Texts

/-- No definition comes with generated documentation. -/
theorem generatedDoc_of_mem_extract {language : Language} {source : String} {d : Definition}
    (h : d ∈ extract language source) : d.generatedDoc = none := by
  obtain ⟨o, ho⟩ := Outline.exists_lines_eq (grammarOf_local language) (linesOf source)
  rw [o.extract_eq ho] at h
  obtain ⟨p, upper, lower, -, -, rfl⟩ := Part.exists_of_mem_definitions o.stacked [] h
  rfl

/-- Definitions that had no text get exactly those of their names. -/
theorem attachDocs_eq {docs : DocMap} {definitions : List Definition}
    (h : ∀ d ∈ definitions, d.generatedDoc = none) :
    attachDocs docs definitions = definitions.map fun d => { d with generatedDoc := docs d.name } := by
  refine List.map_congr_left fun d hd => ?_
  have hnone := h d hd
  cases hdoc : docs d.name with
  | none =>
    obtain ⟨⟩ := d
    simp only at hnone ⊢
    rw [hnone]
  | some text => rfl

def Definition.carriesText (d : Definition) : Bool :=
  d.generatedDoc.any fun text => !allBlank text.toList

theorem hasText_eq (docs : DocMap) (d : Definition) :
    hasText docs d = (docs d.name).any fun text => !allBlank text.toList := by
  have hblank (text : String) : (Doc.normalLines text.toList).isEmpty = allBlank text.toList := by
    rw [Bool.eq_iff_iff, List.isEmpty_iff, Doc.normalLines_eq_nil_iff]
  simp only [hasText, hblank]

/-- The definitions written back are those that carry a text. -/
theorem updated_eq_countP_carriesText (language : Language) (docs : DocMap) (source : String) :
    (document language docs source).updated =
      (attachDocs docs (extract language source)).countP Definition.carriesText := by
  rw [updated_eq_countP, attachDocs_eq fun d => generatedDoc_of_mem_extract, List.countP_map]
  refine List.countP_congr fun d _ => ?_
  rw [hasText_eq]
  rfl

end Texts

namespace Service

/-- What the generator gives for the first definition of a name. -/
def textFor (generator : Generator) (language : Language) (style : Style) (definitions : List Definition)
    (name : String) : Option String :=
  (definitions.find? (·.name == name)).bind fun first => (generator (.ofDefinition language first) style).text?

/-- Of several definitions of one name, the first is the one that the texts are generated for. -/
theorem docMap_generate (s : State) (language : Language) (style : Style) (definitions : List Definition) :
    docMap (generate s language style definitions).docs = textFor s.generator language style definitions := by
  funext name
  have hid : ∀ group : List Batch.Call, (id group).Perm group := fun group => .refl group
  rw [generate, Batch.generateAll, Batch.docMap_run s.generator hid, List.find?_map, Option.bind_map]
  rfl

section Refusals
variable {s : State} {r : RunRequest} {e : Refusal}

private theorem code_of_languageNamed {asked : String} (h : languageNamed asked = .error e) :
    e.code = (400, "bad_request") := by
  rw [languageNamed] at h
  split at h
  · cases h
  · obtain rfl := Except.error.inj h
    rfl

private theorem code_of_styleNamed {asked : String} (h : styleNamed asked = .error e) :
    e.code = (400, "bad_request") := by
  rw [styleNamed] at h
  split at h
  · cases h
  · obtain rfl := Except.error.inj h
    rfl

private theorem code_of_resolveLanguage (h : r.resolveLanguage = .error e) : e.code = (400, "bad_request") := by
  rw [RunRequest.resolveLanguage] at h
  split at h
  · exact code_of_languageNamed h
  · split at h
    · cases h
    · obtain rfl := Except.error.inj h
      rfl

private theorem code_of_resolveStyle {settings : Settings} {language : Language}
    (h : r.resolveStyle settings language = .error e) : e.code = (400, "bad_request") := by
  rw [RunRequest.resolveStyle] at h
  split at h
  · exact code_of_styleNamed h
  · cases h

end Refusals

/-- A request that names no language or style is refused before anything is done. -/
theorem run_of_unresolved {s : State} {r : RunRequest} {e : Refusal} (stamp : Stamp)
    (h : r.resolveLanguage = .error e ∨
      ∃ language, r.resolveLanguage = .ok language ∧ r.resolveStyle s.settings language = .error e) :
    run s stamp r = { answer := .error e, state := s } ∧ e.code = (400, "bad_request") := by
  rcases h with hlanguage | ⟨language, hlanguage, hstyle⟩
  · exact ⟨by rw [run, hlanguage], code_of_resolveLanguage hlanguage⟩
  · refine ⟨?_, code_of_resolveStyle hstyle⟩
    rw [run, hlanguage]
    simp only [hstyle]

/-- What a run leaves behind: its result and its record fit each other, the request, and the texts that the
generator gave, and nothing else in the history is different. -/
structure Kept (generator : Generator) (r : RunRequest) (language : Language) (style : Style) (result : RunResult)
    (record : History.Record) (before after : History.Memory) : Prop where
  id : record.id = result.historyId
  filename : record.filename = r.filename
  inLanguage : record.language = language
  contentBefore : record.contentBefore = r.content
  contentAfter : record.contentAfter = result.content
  /-- Every definition found in the content, with the text for the first definition of its name. -/
  functions : result.functions = (extract language r.content).map fun d =>
    { d with generatedDoc := textFor generator language style (extract language r.content) d.name }
  /-- The content is written by the same texts. -/
  content : result.content =
    (document language (textFor generator language style (extract language r.content)) r.content).content
  updated : result.updated = result.functions.countP Definition.carriesText
  size : after.size = before.size + 1
  saved : after.get? record.id = some record
  others : ∀ id, id ≠ record.id → after.get? id = before.get? id

/-- A request that names a language and a style is carried out. -/
theorem run_of_resolved {s : State} {m : History.Memory} (hs : s.store = .memory m) {r : RunRequest}
    {language : Language} {style : Style} (hlanguage : r.resolveLanguage = .ok language)
    (hstyle : r.resolveStyle s.settings language = .ok style) {stamp : Stamp} (hfresh : m.get? stamp.id = none) :
    ∃ result record after, (run s stamp r).answer = .ok result ∧
      (run s stamp r).state = { s with store := .memory after } ∧ record.id = stamp.id ∧
      Kept s.generator r language style result record m after := by
  have hrun : run s stamp r = runWith s stamp r language style := by
    rw [run, hlanguage]
    simp only [hstyle]
  rw [hrun, runWith, docMap_generate, hs]
  let record : History.Record := {
    id := stamp.id, filename := r.filename, language, contentBefore := r.content
    contentAfter := (document language (textFor s.generator language style (extract language r.content))
      r.content).content
    createdAt := stamp.time }
  refine ⟨_, record, m.save record, rfl, rfl, rfl, ?_⟩
  exact {
    id := rfl
    filename := rfl
    inLanguage := rfl
    contentBefore := rfl
    contentAfter := rfl
    functions := attachDocs_eq fun d => generatedDoc_of_mem_extract
    content := rfl
    updated := updated_eq_countP_carriesText language _ r.content
    size := History.Memory.size_save_of_none hfresh
    saved := by rw [History.Memory.get?_save, if_pos rfl]
    others := fun id hid => by rw [History.Memory.get?_save, if_neg hid.symm] }

end Service
end DocComments
