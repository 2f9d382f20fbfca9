import DocComments.Proofs.Batch.Answers
import DocComments.Proofs.Insert.Outline

/-! Files into which nothing is written. Such a file keeps its text, but its lines come out with bare
line feeds between them, so that a carriage return in front of a line feed is lost. -/
namespace DocComments
open Text DocComments.Insert

namespace Text

private theorem terminated_extendFirst (newline : Bool) (c : Char) (ls : List Line) :
    terminated newline (extendFirst c ls) = c :: terminated newline ls := by
  cases ls with
  | nil => rfl
  | cons line below => cases below <;> rfl

private theorem terminated_newline (rest : List Char) :
    terminated (endsInNewline ('\n' :: rest)) ([] :: lines rest) =
      '\n' :: terminated (endsInNewline rest) (lines rest) := by
  cases rest with
  | nil => rfl
  | cons c rest =>
    obtain ⟨line, below, hl⟩ := List.exists_cons_of_ne_nil
      (mt lines_eq_nil_iff.mp (List.cons_ne_nil c rest))
    have hends : endsInNewline ('\n' :: c :: rest) = endsInNewline (c :: rest) := by
      simp [endsInNewline]
    rw [hl, terminated_cons_cons, hends]
    rfl

/-- A text put together again from its lines has bare line feeds for line ends. -/
theorem terminated_lines (s : List Char) :
    terminated (endsInNewline s) (lines s) = replaceAll ['\r', '\n'] ['\n'] s := by
  refine eq_replaceAll (f := fun s => terminated (endsInNewline s) (lines s)) (by simp) rfl ?_ ?_ s
  · intro rest
    have hends : endsInNewline ('\r' :: '\n' :: rest) = endsInNewline ('\n' :: rest) := by
      simp [endsInNewline]
    simp only [List.cons_append, List.nil_append, lines, hends]
    exact terminated_newline rest
  · intro c rest hno
    by_cases hc : c = '\n'
    · subst hc
      simp only [lines_newline]
      exact terminated_newline rest
    · have hcut : c = '\r' → rest.head? ≠ some '\n' := by
        rintro rfl hd
        obtain ⟨below, rfl⟩ := List.head?_eq_some_iff.mp hd
        exact hno ⟨below, rfl⟩
      have hends : endsInNewline (c :: rest) = endsInNewline rest := by
        cases rest with
        | nil => simpa [endsInNewline] using hc
        | cons d rest => simp [endsInNewline]
      simp only [lines_cons hc hcut, hends, terminated_extendFirst]

end Text

/-- Nothing is written just if no definition has a text. -/
theorem updated_eq_zero_iff (language : Language) (docs : DocMap) (source : String) :
    (document language docs source).updated = 0 ↔
      ∀ d ∈ extract language source, hasText docs d = false := by
  rw [updated_eq_countP, List.countP_eq_zero]
  simp

/-- A file into which nothing is written comes out as its lines. -/
theorem content_of_updated_eq_zero {language : Language} {docs : DocMap} {source : String}
    (h : (document language docs source).updated = 0) :
    (document language docs source).content =
      String.ofList (replaceAll ['\r', '\n'] ['\n'] source.toList) := by
  obtain ⟨o, ho⟩ := Outline.exists_lines_eq (grammarOf_local language) (linesOf source)
  rw [Outline.updated_document docs ho, List.countP_eq_zero] at h
  have hparts : o.parts.map (Part.document language docs) = o.parts := by
    conv_rhs => rw [← List.map_id o.parts]
    refine List.map_congr_left fun p hp => ?_
    exact Part.document_of_edit?_eq_none (by simpa using h p hp)
  rw [Outline.content_document docs ho, ← terminated_lines]
  simp only [Outline.lines, Outline.document, hparts] at ho ⊢
  rw [ho, linesOf]

/-- A generator that gives no text leaves all names without one. -/
theorem docMap_run_of_failing {generator : Generator} {schedule : Batch.Schedule} {style : Style}
    {requests : List DocRequest} (hs : ∀ group, (schedule group).Perm group)
    (hf : ∀ r ∈ requests, (generator r style).text? = none) (options : BatchOptions) (name : String) :
    docMap (Batch.run generator schedule options style requests).docs name = none := by
  rw [Batch.docMap_run generator hs, Option.bind_eq_none_iff]
  exact fun r hr => hf r (List.mem_of_find?_eq_some hr)

/-- Where nothing is written, no definition has a text that is not blank, and nothing changes but the
line ends: the file comes out as it went in exactly if it has no carriage return in front of a line
feed. So it is after a run whose generator fails on every definition. -/
theorem document_untouched (language : Language) (source : String) :
    let bare := String.ofList (replaceAll ['\r', '\n'] ['\n'] source.toList)
    (∀ docs, (document language docs source).updated = 0 →
      (∀ d ∈ extract language source, hasText docs d = false) ∧
        (document language docs source).content = bare ∧
        ((document language docs source).content = source ↔ ¬ ['\r', '\n'] <:+: source.toList)) ∧
      ∀ generator schedule options style, (∀ group, (schedule group).Perm group) →
        (∀ d ∈ extract language source, (generator (.ofDefinition language d) style).text? = none) →
        let run := Batch.run generator schedule options style
          ((extract language source).map (.ofDefinition language))
        document language (docMap run.docs) source = { content := bare, updated := 0 } := by
  refine ⟨fun docs h => ⟨(updated_eq_zero_iff language docs source).mp h, ?_, ?_⟩, ?_⟩
  · exact content_of_updated_eq_zero h
  · rw [content_of_updated_eq_zero h, ← String.toList_inj, String.toList_ofList]
    exact replaceAll_eq_self_iff (by decide)
  · intro generator schedule options style hs hf run
    have hnone : docMap run.docs = fun _ => none := by
      funext name
      refine docMap_run_of_failing hs (fun r hr => ?_) options name
      obtain ⟨d, hd, rfl⟩ := List.mem_map.mp hr
      exact hf d hd
    have hupdated : (document language (docMap run.docs) source).updated = 0 := by
      rw [updated_eq_zero_iff, hnone]
      exact fun _ _ => rfl
    have hcontent := content_of_updated_eq_zero hupdated
    generalize document language (docMap run.docs) source = written at hupdated hcontent ⊢
    cases written
    simp_all

/-- A carriage return at the end of the file stays, and one that stands twice loses its last. -/
theorem document_untouched_returns :
    let source := "def f():\r\r\n    pass\n\r"
    let bare := "def f():\r\n    pass\n\r"
    (document .python (fun _ => some " \n") source).updated = 0 ∧
      (document .python (fun _ => some " \n") source).content = bare ∧
      (∀ group : List Batch.Call, group.reverse.Perm group) ∧
      let run := Batch.run (fun _ _ => .failed) List.reverse ⟨2, 0⟩ .google
        ((extract .python source).map (.ofDefinition .python))
      document .python (docMap run.docs) source = { content := bare, updated := 0 } := by
  intro source bare
  have hbare : String.ofList (replaceAll ['\r', '\n'] ['\n'] source.toList) = bare := by decide
  have hzero : (document .python (fun _ => some " \n") source).updated = 0 := by decide +kernel
  have huntouched := document_untouched .python source
  refine ⟨hzero, ?_, fun group => group.reverse_perm, ?_⟩
  · exact (huntouched.1 _ hzero).2.1.trans hbare
  · rw [← hbare]
    exact huntouched.2 (fun _ _ => .failed) List.reverse ⟨2, 0⟩ .google (fun group => group.reverse_perm)
      fun _ _ => rfl

/-- With a carriage return at each line end, a file does not come out as it went in, although no name in
it has a text. -/
theorem carriage_returns_lost :
    let source := "def f():\r\n    return 1\r\n"
    let docs : DocMap := fun name => if name = "g" then some "Nope." else none
    document .python docs source = { content := "def f():\n    return 1\n", updated := 0 } ∧
      (document .python docs source).content ≠ source := by
  decide +kernel

end DocComments
