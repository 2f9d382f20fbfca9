import DocComments.Proofs.Parameters
import DocComments.Proofs.Scan.Languages
import DocComments.Proofs.Text.Lines

/-! What an extracted definition is made of: a name, parameters that are declared between commas, and
a type, each on the one line of the header. -/
namespace DocComments
open Text Parameters

/-- The parts of the definition are read from a header of the language. -/
structure Definition.WellFormed (language : Language) (d : Definition) : Prop where
  name : IsName (nameStart language) (namePart language) d.name.toList
  parameters : ∀ p ∈ d.parameters,
    ∃ segment, '\n' ∉ segment ∧ ',' ∉ segment ∧ Declared language segment p
  returnType : ∀ type ∈ d.returnType, Phrase type.toList

variable {language : Language}

theorem Part.wellFormed_definition {p : Part} (hp : (grammarOf language).Reads p.header (some p.head))
    (hn : '\n' ∉ p.header) (above : Nat) :
    (p.definition (grammarOf language) above).WellFormed language := by
  have hhead := wellFormed_header? (hp 0)
  refine ⟨?_, ?_, ?_⟩
  · simpa [definition] using hhead.isName
  · intro parameter hmem
    obtain ⟨segment, hs, hcomma, hdeclared⟩ := declared_of_mem_parameters hmem
    exact ⟨segment, fun hc => hn ((hs.trans hhead.parameters).subset hc), hcomma, hdeclared⟩
  · intro type ht
    obtain ⟨text, hr, rfl⟩ := Option.map_eq_some_iff.mp ht
    obtain ⟨htrim, htext⟩ := hhead.returnType text hr
    rw [String.toList_ofList]
    exact ⟨htrim, fun hc => hn (htext.subset hc)⟩

theorem wellFormed_of_mem_extract {source : String} {d : Definition} (h : d ∈ extract language source) :
    d.WellFormed language := by
  obtain ⟨o, ho⟩ := Outline.exists_lines_eq (grammarOf_local language) (linesOf source)
  rw [o.extract_eq ho] at h
  obtain ⟨p, upper, lower, hlines, hp, rfl⟩ := Part.exists_of_mem_definitions o.stacked [] h
  have hmem : p.header ∈ linesOf source := by
    rw [← ho, Outline.lines, ← List.nil_append (Part.stack _ _), hlines]
    simp [Part.lines]
  exact Part.wellFormed_definition hp.header (not_mem_of_mem_lines hmem) upper.length

end DocComments
