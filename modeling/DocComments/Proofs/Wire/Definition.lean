import DocComments.Proofs.Json.Layout
import DocComments.Proofs.Json.Order
import DocComments.Wire.Definition

/-! Definitions and requests on the wire. Each is decoded from its JSON as it was, from its text as well, and in
whatever order the members come. -/
namespace DocComments

namespace Json

/-- Whether a value stands for `a` on the wire. -/
structure Carries {α : Type} (value : Json) (decoder : Decoder α) (a : α) : Prop where
  /-- In whatever order the members of objects come, the value is decoded to `a`. -/
  decoded : ∀ ⦃value' : Json⦄, value.Reordered value' → decoder value' = .ok a
  /-- Its text is read as `a` as well. -/
  read : ∀ ⦃value' : Json⦄, value.Reordered value' → decoder.ofText value'.compact = .ok a
  /-- Null is no part of the value. -/
  noNull : ¬ Occurs null value

private theorem Written.reordered {value value' : Json} (h : value.Reordered value') (hwritten : value.Written) :
    value'.Written := by
  induction h with
  | refl => exact hwritten
  | trans _ _ ih ih' => exact ih' (ih hwritten)
  | perm hperm =>
    cases hwritten with
    | obj hmembers => exact .obj fun member hmember => hmembers member (hperm.mem_iff.mpr hmember)
  | item above below _ ih =>
    cases hwritten with
    | arr hitems =>
      simp only [List.forall_mem_append, List.forall_mem_cons] at hitems
      refine .arr ?_
      simp only [List.forall_mem_append, List.forall_mem_cons]
      exact ⟨hitems.1, ih hitems.2.1, hitems.2.2⟩
  | member above below name _ ih =>
    cases hwritten with
    | obj hmembers =>
      simp only [List.forall_mem_append, List.forall_mem_cons] at hmembers
      refine .obj ?_
      simp only [List.forall_mem_append, List.forall_mem_cons]
      exact ⟨hmembers.1, ih hmembers.2.1, hmembers.2.2⟩

private theorem Written.carries {α : Type} {value : Json} {decoder : Decoder α} {a : α} (h : value.Written)
    (hsteady : decoder.Steady) (ha : decoder value = .ok a) : value.Carries decoder a where
  decoded _ hvalue := hsteady hvalue ha
  read _ hvalue := by simp only [Decoder.ofText, (h.reordered hvalue).ofText_compact, hsteady hvalue ha, if_true]
  noNull := h.not_occurs_null

section Members
variable {name other : String} {value : Json} {text : Option String} {members members' : List (String × Json)}

private theorem written_of_mem_optional (member : String × Json) (h : member ∈ optional name (text.map .str)) :
    member.2.Written := by
  cases text with
  | none => cases h
  | some text =>
    rw [List.mem_singleton.mp h]
    exact .str text

theorem member?_append : (obj (members ++ members')).member? name =
    ((obj members').member? name).or ((obj members).member? name) := by
  simp [member?, List.find?_append, Option.map_or]

theorem member?_cons : (obj ((other, value) :: members)).member? name =
    ((obj members).member? name).or (if other = name then some value else none) := by
  rw [← List.singleton_append, member?_append]
  by_cases h : other = name <;> simp [member?, h]

theorem member?_nil : (obj []).member? name = none := rfl

theorem member?_optional {written : Option Json} :
    (obj (optional other written)).member? name = if other = name then written else none := by
  cases written <;> simp [optional, member?_cons, member?_nil]

end Members
end Json

open Json (written_of_mem_optional member?_append member?_cons member?_optional member?_nil)
open Decoder (Steady InOrder steady_text steady_bool steady_natUpTo steady_choice)
open Decoder.Field (commute_of steady_of)

private theorem decoder_kind (kind : DefinitionKind) : DefinitionKind.decoder (.str kind.name) = .ok kind := by
  cases kind <;> rfl

theorem decoder_language (language : Language) : Language.decoder (.str language.name) = .ok language := by
  cases language <;> rfl

private theorem decoder_word {n : Nat} (h : n ≤ greatestWord) : Decoder.word (.nat n) = .ok n :=
  if_pos h

namespace Parameter

theorem written_toJson (p : Parameter) : p.toJson.Written := by
  refine .obj ?_
  simp only [List.forall_mem_append, List.forall_mem_singleton]
  exact ⟨⟨.str _, written_of_mem_optional⟩, written_of_mem_optional⟩

theorem decoder_toJson (p : Parameter) : decoder p.toJson = .ok p := by
  refine InOrder.record_eq_ok (by decide) ?_
  simp only [List.cons_append, List.nil_append]
  exact ⟨_, .of rfl <| .optional rfl <| .of_append_nil <| .optional rfl <| .nil _, rfl⟩

private theorem steady_decoder : decoder.Steady := by
  refine .record (by decide) ?_ ?_
  · -- each field has a place of its own in the draft
    simp only [fields, List.pairwise_cons, List.forall_mem_cons, List.not_mem_nil, false_imp_iff, implies_true,
      and_true, List.Pairwise.nil]
    and_intros <;> exact commute_of fun _ _ _ => rfl
  · simp only [fields, List.forall_mem_cons, List.not_mem_nil, false_imp_iff, implies_true, and_true]
    exact ⟨steady_of steady_text _ _, steady_of (.option steady_text) _ _, steady_of (.option steady_text) _ _⟩

private theorem member?_toJson (p : Parameter) :
    p.toJson.member? "type" = p.type.map .str ∧ p.toJson.member? "defaultValue" = p.default.map .str := by
  simp [toJson, member?_append, member?_cons, member?_optional]

end Parameter

namespace Definition

theorem written_toJson (d : Definition) : d.toJson.Written := by
  refine .obj ?_
  simp only [List.forall_mem_append, List.forall_mem_cons, List.not_mem_nil, false_imp_iff, implies_true, and_true]
  refine ⟨⟨⟨⟨⟨⟨⟨.str _, .str _, ?_⟩, written_of_mem_optional⟩, written_of_mem_optional⟩,
    .nat _, .nat _, .str _⟩, written_of_mem_optional⟩, .bool _⟩, ?_⟩
  · exact .arr (List.forall_mem_map.mpr fun p _ => p.written_toJson)
  · split
    · exact nofun
    · exact List.forall_mem_singleton.mpr (.strings _)

theorem decoder_toJson {d : Definition} (hstart : d.startLine ≤ greatestWord) (hend : d.endLine ≤ greatestWord) :
    decoder d.toJson = .ok d := by
  have hparameters := Decoder.list_eq_ok fun p (_ : p ∈ d.parameters) => p.decoder_toJson
  refine InOrder.record_eq_ok (by decide) ?_
  simp only [List.append_assoc, List.cons_append, List.nil_append]
  exact ⟨_, .of rfl <| .of (decoder_kind d.kind) <| .of hparameters <| .optional rfl <| .optional rfl <|
    .of (decoder_word hstart) <| .of (decoder_word hend) <| .of rfl <| .optional rfl <| .of rfl <|
    .of_append_nil <| .texts rfl <| .nil _, rfl⟩

private theorem steady_decoder : decoder.Steady := by
  refine .record (by decide) ?_ ?_
  · simp only [fields, List.pairwise_cons, List.forall_mem_cons, List.not_mem_nil, false_imp_iff, implies_true,
      and_true, List.Pairwise.nil]
    and_intros <;> exact commute_of fun _ _ _ => rfl
  · simp only [fields, List.forall_mem_cons, List.not_mem_nil, false_imp_iff, implies_true, and_true]
    exact ⟨steady_of steady_text _ _, steady_of (steady_choice _) _ _, steady_of (.list Parameter.steady_decoder) _ _,
      steady_of (.option steady_text) _ _, steady_of (.option steady_text) _ _, steady_of (steady_natUpTo _) _ _,
      steady_of (steady_natUpTo _) _ _, steady_of steady_text _ _, steady_of (.option steady_text) _ _,
      steady_of steady_bool _ _, steady_of (.list steady_text) _ _⟩

private theorem member?_toJson (d : Definition) :
    d.toJson.member? "returnType" = d.returnType.map .str ∧
      d.toJson.member? "existingDocumentation" = d.existingDoc.map .str ∧
      d.toJson.member? "generatedDocumentation" = d.generatedDoc.map .str ∧
      d.toJson.member? "decorators" = if d.decorators.isEmpty then none else some (Json.strings d.decorators) := by
  cases hdecorators : d.decorators <;>
    simp [toJson, hdecorators, member?_append, member?_cons, member?_optional, member?_nil]

end Definition

namespace DocRequest

theorem written_toJson (r : DocRequest) : r.toJson.Written := by
  refine .obj ?_
  simp only [List.forall_mem_append, List.forall_mem_cons, List.not_mem_nil, false_imp_iff, implies_true, and_true]
  refine ⟨⟨⟨.str _, .str _, .str _, ?_⟩, written_of_mem_optional⟩, .str _⟩
  exact .arr (List.forall_mem_map.mpr fun p _ => p.written_toJson)

theorem decoder_toJson (r : DocRequest) : decoder r.toJson = .ok r := by
  have hparameters := Decoder.list_eq_ok fun p (_ : p ∈ r.parameters) => p.decoder_toJson
  refine InOrder.record_eq_ok (by decide) ?_
  simp only [List.cons_append, List.nil_append]
  exact ⟨_, .of rfl <| .of (decoder_kind r.kind) <| .of (decoder_language r.language) <| .of hparameters <|
    .optional rfl <| .of rfl <| .nil _, rfl⟩

private theorem steady_decoder : decoder.Steady := by
  refine .record (by decide) ?_ ?_
  · simp only [fields, List.pairwise_cons, List.forall_mem_cons, List.not_mem_nil, false_imp_iff, implies_true,
      and_true, List.Pairwise.nil]
    and_intros <;> exact commute_of fun _ _ _ => rfl
  · simp only [fields, List.forall_mem_cons, List.not_mem_nil, false_imp_iff, implies_true, and_true]
    exact ⟨steady_of steady_text _ _, steady_of (steady_choice _) _ _, steady_of (steady_choice _) _ _,
      steady_of (.list Parameter.steady_decoder) _ _, steady_of (.option steady_text) _ _,
      steady_of steady_text _ _⟩

private theorem member?_toJson (r : DocRequest) : r.toJson.member? "returnType" = r.returnType.map .str := by
  simp [toJson, member?_append, member?_cons, member?_optional, member?_nil]

end DocRequest

/-- Parameters, definitions and requests are read back as they were written, with any mixture of parts absent. What is
absent is left out of the JSON. -/
theorem read_back_of_written :
    (∀ p : Parameter, p.toJson.Carries Parameter.decoder p ∧
      p.toJson.member? "type" = p.type.map .str ∧ p.toJson.member? "defaultValue" = p.default.map .str) ∧
    (∀ d : Definition, d.startLine ≤ greatestWord → d.endLine ≤ greatestWord →
      d.toJson.Carries Definition.decoder d ∧
      d.toJson.member? "returnType" = d.returnType.map .str ∧
      d.toJson.member? "existingDocumentation" = d.existingDoc.map .str ∧
      d.toJson.member? "generatedDocumentation" = d.generatedDoc.map .str ∧
      d.toJson.member? "decorators" = if d.decorators.isEmpty then none else some (Json.strings d.decorators)) ∧
    ∀ r : DocRequest, r.toJson.Carries DocRequest.decoder r ∧
      r.toJson.member? "returnType" = r.returnType.map .str := by
  refine ⟨fun p => ⟨?_, p.member?_toJson⟩, fun d hstart hend => ⟨?_, d.member?_toJson⟩,
    fun r => ⟨?_, r.member?_toJson⟩⟩
  · exact p.written_toJson.carries Parameter.steady_decoder p.decoder_toJson
  · exact d.written_toJson.carries Definition.steady_decoder (Definition.decoder_toJson hstart hend)
  · exact r.written_toJson.carries DocRequest.steady_decoder r.decoder_toJson

/-- The greatest line number, texts that are empty, absent or not in ASCII, and a parameter of each kind. -/
theorem read_back_of_written_greatest_line :
    let d : Definition := {
      name := "größe", kind := .method
      parameters := [{ name := "x", type := some "" }, { name := "…", default := some "\"\\\n" }]
      existingDoc := some "", startLine := 0, endLine := 18446744073709551615, code := "🦀\x00", isAsync := true }
    d.toJson.Carries Definition.decoder d ∧ d.toJson.member? "returnType" = none ∧
      d.toJson.member? "existingDocumentation" = some (.str "") ∧ d.toJson.member? "decorators" = none := by
  intro d
  obtain ⟨hcarries, hreturn, hdoc, -, hdecorators⟩ := read_back_of_written.2.1 d (by decide) (by decide)
  exact ⟨hcarries, hreturn, hdoc, hdecorators⟩

end DocComments
