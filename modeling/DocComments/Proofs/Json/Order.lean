import DocComments.Proofs.Json.Filling
import Mathlib.Data.List.Forall2

/-! The order of members. What a decoder takes from a value it takes as well from the value with the members of its
objects in any other order, if the fields of each record are put into its draft apart from each other. -/
namespace DocComments

namespace Json

/-- The same value, except that the members of objects in it may stand in another order. -/
inductive Reordered : Json → Json → Prop
  | refl (value : Json) : Reordered value value
  | trans {first second third : Json} (h : Reordered first second) (h' : Reordered second third) :
      Reordered first third
  | perm {members members' : List (String × Json)} (h : members.Perm members') :
      Reordered (.obj members) (.obj members')
  | item (above below : List Json) {value value' : Json} (h : Reordered value value') :
      Reordered (.arr (above ++ value :: below)) (.arr (above ++ value' :: below))
  | member (above below : List (String × Json)) (name : String) {value value' : Json}
      (h : Reordered value value') :
      Reordered (.obj (above ++ (name, value) :: below)) (.obj (above ++ (name, value') :: below))

/-- A value without parts is in no other order. -/
theorem Reordered.eq_or_hasParts {value value' : Json} (h : value.Reordered value') :
    value = value' ∨ (∃ items items', value = .arr items ∧ value' = .arr items') ∨
      ∃ members members', value = .obj members ∧ value' = .obj members' := by
  induction h with
  | refl => exact .inl rfl
  | trans _ _ ih ih' =>
    rcases ih with rfl | ⟨items, middle, rfl, rfl⟩ | ⟨members, middle, rfl, rfl⟩
    · exact ih'
    · rcases ih' with rfl | ⟨middle, items', -, rfl⟩ | ⟨members, members', hne, -⟩
      · exact .inr (.inl ⟨items, middle, rfl, rfl⟩)
      · exact .inr (.inl ⟨items, items', rfl, rfl⟩)
      · cases hne
    · rcases ih' with rfl | ⟨items, items', hne, -⟩ | ⟨middle, members', -, rfl⟩
      · exact .inr (.inr ⟨members, middle, rfl, rfl⟩)
      · cases hne
      · exact .inr (.inr ⟨members, members', rfl, rfl⟩)
  | perm => exact .inr (.inr ⟨_, _, rfl, rfl⟩)
  | item => exact .inr (.inl ⟨_, _, rfl, rfl⟩)
  | member => exact .inr (.inr ⟨_, _, rfl, rfl⟩)

theorem Reordered.eq_null {value : Json} (h : null.Reordered value) : value = .null := by
  rcases h.eq_or_hasParts with rfl | ⟨_, _, he, -⟩ | ⟨_, _, he, -⟩
  · rfl
  · cases he
  · cases he

theorem Reordered.ne_malformed {value value' : Json} (h : value.Reordered value') (hne : value ≠ .malformed) :
    value' ≠ .malformed := by
  rcases h.eq_or_hasParts with rfl | ⟨_, _, -, rfl⟩ | ⟨_, _, -, rfl⟩
  · exact hne
  · exact nofun
  · exact nofun

end Json

namespace Decoder
open Json (Reordered)
variable {σ α β : Type}

/-- Whether what the decoder takes from a value does not depend on the order of members. -/
def Steady (decoder : Decoder α) : Prop :=
  ∀ ⦃value value' : Json⦄, value.Reordered value' → ∀ ⦃a : α⦄, decoder value = .ok a → decoder value' = .ok a

section Values
variable {decoder inner : Decoder α}

/-- It is enough to look at one change of order at a time. -/
theorem Steady.of_steps
    (hperm : ∀ {members members' : List (String × Json)}, members.Perm members' →
      ∀ {a : α}, decoder (.obj members) = .ok a → decoder (.obj members') = .ok a)
    (hitem : ∀ (above below : List Json) {value value' : Json}, value.Reordered value' →
      ∀ {a : α}, decoder (.arr (above ++ value :: below)) = .ok a →
        decoder (.arr (above ++ value' :: below)) = .ok a)
    (hmember : ∀ (above below : List (String × Json)) (name : String) {value value' : Json},
      value.Reordered value' → ∀ {a : α}, decoder (.obj (above ++ (name, value) :: below)) = .ok a →
        decoder (.obj (above ++ (name, value') :: below)) = .ok a) :
    decoder.Steady := by
  intro value value' h a ha
  induction h with
  | refl => exact ha
  | trans _ _ ih ih' => exact ih' (ih ha)
  | perm h => exact hperm h ha
  | item above below h => exact hitem above below h ha
  | member above below name h => exact hmember above below name h ha

theorem steady_text : text.Steady :=
  .of_steps (fun _ => nofun) (fun _ _ _ => nofun) fun _ _ _ _ => nofun

theorem steady_bool : bool.Steady :=
  .of_steps (fun _ => nofun) (fun _ _ _ => nofun) fun _ _ _ _ => nofun

theorem steady_natUpTo (bound : Nat) : (natUpTo bound).Steady :=
  .of_steps (fun _ => nofun) (fun _ _ _ => nofun) fun _ _ _ _ => nofun

theorem Steady.map (h : inner.Steady) (f : α → β) : Steady fun value => (inner value).map f := by
  intro value value' hvalue b hb
  cases ha : inner value with
  | error e => simp only [ha, Except.map] at hb; cases hb
  | ok a =>
    simp only [ha] at hb
    simp only [h hvalue ha, hb]

theorem Steady.option (h : inner.Steady) : (Decoder.option inner).Steady := by
  refine .of_steps (fun hperm a ha => ?_) (fun above below value value' hvalue a ha => ?_)
    fun above below name value value' hvalue a ha => ?_
  · exact h.map some (.perm hperm) ha
  · exact h.map some (.item above below hvalue) ha
  · exact h.map some (.member above below name hvalue) ha

/-- Items are decoded one by one. -/
theorem mapM_eq_ok_iff {items : List Json} {as : List α} :
    items.mapM inner = .ok as ↔ List.Forall₂ (fun item a => inner item = .ok a) items as := by
  induction items generalizing as with
  | nil => cases as <;> simp [pure, Except.pure]
  | cons item items ih =>
    rw [List.mapM_cons, List.forall₂_cons_left_iff]
    cases hitem : inner item with
    | error e => simp [bind, Except.bind]
    | ok a =>
      cases hitems : items.mapM inner with
      | error e =>
        simp only [hitems, reduceCtorEq, false_iff] at ih
        simp [ih, bind, Except.bind]
      | ok found =>
        simp only [hitems, Except.ok.injEq] at ih
        simp [← ih, bind, Except.bind, pure, Except.pure, eq_comm]

theorem list_eq_ok {toJson : α → Json} {as : List α} (h : ∀ a ∈ as, inner (toJson a) = .ok a) :
    Decoder.list inner (.arr (as.map toJson)) = .ok as := by
  rw [Decoder.list, mapM_eq_ok_iff, List.forall₂_map_left_iff, List.forall₂_same]
  exact h

theorem Steady.list (h : inner.Steady) : (Decoder.list inner).Steady := by
  refine .of_steps (fun _ => nofun) (fun above below value value' hvalue as has => ?_) fun _ _ _ _ => nofun
  simp only [Decoder.list, mapM_eq_ok_iff] at has ⊢
  induction above generalizing as with
  | nil =>
    obtain ⟨a, rest, hitem, hrest, rfl⟩ := List.forall₂_cons_left_iff.mp has
    exact .cons (h hvalue hitem) hrest
  | cons item above ih =>
    obtain ⟨a, rest, hitem, hrest, rfl⟩ := List.forall₂_cons_left_iff.mp has
    exact .cons hitem (ih rest hrest)

private theorem exists_of_choice_obj {names : List (String × α)} {members : List (String × Json)} {a : α}
    (h : choice names (.obj members) = .ok a) : ∃ name, members = [(name, .null)] := by
  unfold choice at h
  split at h
  · rename_i he
    cases he
  · rename_i name he
    exact ⟨name, Json.obj.inj he⟩
  · cases h

theorem steady_choice (names : List (String × α)) : (choice names).Steady := by
  refine .of_steps (fun hperm a ha => ?_) (fun _ _ _ => nofun) fun above below name value value' hvalue a ha => ?_
  · obtain ⟨name, rfl⟩ := exists_of_choice_obj ha
    rwa [List.perm_singleton.mp hperm.symm]
  · obtain ⟨name', hmembers⟩ := exists_of_choice_obj ha
    obtain ⟨rfl, hmember, rfl⟩ : above = [] ∧ (name, value) = (name', .null) ∧ below = [] := by
      cases above <;> simp_all
    obtain ⟨rfl, rfl⟩ := Prod.mk.inj hmember
    rwa [hvalue.eq_null]

end Values

section Records
variable {fields : List (Field σ)} {empty : σ} {finish : σ → Option α}

def Field.Steady (field : Field σ) : Prop :=
  ∀ draft, Decoder.Steady (field.put draft)

theorem Field.steady_of {decoder : Decoder β} (h : decoder.Steady) (name : String) (set : σ → β → σ) :
    (Field.of name decoder set).Steady :=
  fun draft => h.map (set draft)

private theorem record_obj_eq_ok_iff {members : List (String × Json)} {a : α} :
    record fields empty finish (.obj members) = .ok a ↔
      ∃ draft, fillFromMembers fields empty [] members = .ok draft ∧ finish draft = some a := by
  simp only [record]
  cases fillFromMembers fields empty [] members with
  | error e => simp
  | ok draft => cases hfinish : finish draft <;> simp [hfinish]

private theorem record_arr_eq_ok_iff {items : List Json} {a : α} :
    record fields empty finish (.arr items) = .ok a ↔
      ∃ draft, fillFromItems empty fields items = .ok draft ∧ finish draft = some a := by
  simp only [record]
  cases fillFromItems empty fields items with
  | error e => simp
  | ok draft => cases hfinish : finish draft <;> simp [hfinish]

/-- A list of texts is left out where it is empty, if the draft has none yet. -/
theorem InOrder.texts {name : String} {set : σ → List String → σ} {texts : List String} {draft draft' : σ}
    {members : List (String × Json)} (hempty : set draft [] = draft)
    (h : InOrder fields (set draft texts) members draft') :
    InOrder (.of name (.list text) set :: fields) draft
      ((if texts.isEmpty then [] else [(name, Json.strings texts)]) ++ members) draft' := by
  cases texts with
  | nil =>
    rw [hempty] at h
    exact .omitted h
  | cons first texts => exact .of (list_eq_ok fun _ _ => rfl) h

/-- A record is decoded from its fields in their order. -/
theorem InOrder.record_eq_ok {members : List (String × Json)} {a : α} (hnames : (fields.map (·.name)).Nodup)
    (h : ∃ draft, InOrder fields empty members draft ∧ finish draft = some a) :
    record fields empty finish (.obj members) = .ok a := by
  obtain ⟨draft, hdraft, hfinish⟩ := h
  exact record_obj_eq_ok_iff.mpr ⟨draft, hdraft.fillFromMembers_eq_ok hnames, hfinish⟩

private theorem Filling.reorder (hfields : ∀ field ∈ fields, field.Steady) {draft draft' : σ}
    (above below : List (String × Json)) (name : String) {value value' : Json} (hvalue : value.Reordered value')
    (h : Filling fields draft (above ++ (name, value) :: below) draft') :
    Filling fields draft (above ++ (name, value') :: below) draft' := by
  induction above generalizing draft with
  | nil =>
    cases h with
    | field hfield hname hput h => exact .field hfield hname (hfields _ hfield _ hvalue hput) h
    | other hname hmalformed h => exact .other hname (hvalue.ne_malformed hmalformed) h
  | cons member above ih =>
    cases h with
    | field hfield hname hput h => exact .field hfield hname hput (ih h)
    | other hname hmalformed h => exact .other hname hmalformed (ih h)

private theorem fillFromItems_reorder (hfields : ∀ field ∈ fields, field.Steady) {draft draft' : σ}
    (above below : List Json) {value value' : Json} (hvalue : value.Reordered value')
    (h : fillFromItems draft fields (above ++ value :: below) = .ok draft') :
    fillFromItems draft fields (above ++ value' :: below) = .ok draft' := by
  induction above generalizing draft fields with
  | nil =>
    cases fields with
    | nil => cases h
    | cons field fields =>
      simp only [List.nil_append, fillFromItems] at h ⊢
      cases hput : field.put draft value with
      | error e => simp only [hput] at h; cases h
      | ok between =>
        simp only [hput] at h
        simp only [hfields field List.mem_cons_self draft hvalue hput, h]
  | cons item above ih =>
    cases fields with
    | nil => cases h
    | cons field fields =>
      simp only [List.cons_append, fillFromItems] at h ⊢
      cases hput : field.put draft item with
      | error e => simp only [hput] at h; cases h
      | ok between =>
        simp only [hput] at h ⊢
        exact ih (fun other ho => hfields other (List.mem_cons_of_mem _ ho)) h

/-- A record is decoded in whatever order its members are given. -/
theorem Steady.record (hnames : (fields.map (·.name)).Nodup) (hcommute : fields.Pairwise Field.Commute)
    (hfields : ∀ field ∈ fields, field.Steady) : (Decoder.record fields empty finish).Steady := by
  refine .of_steps (fun hperm a ha => ?_) (fun above below value value' hvalue a ha => ?_)
    fun above below name value value' hvalue a ha => ?_
  · simp only [record_obj_eq_ok_iff, fillFromMembers_eq_ok_iff hnames] at ha ⊢
    obtain ⟨draft, ⟨hfilling, hgiven⟩, hfinish⟩ := ha
    exact ⟨draft, ⟨hfilling.perm hcommute hperm hgiven, (givenNames_perm hperm).nodup_iff.mp hgiven⟩, hfinish⟩
  · obtain ⟨draft, hfill, hfinish⟩ := record_arr_eq_ok_iff.mp ha
    exact record_arr_eq_ok_iff.mpr ⟨draft, fillFromItems_reorder hfields above below hvalue hfill, hfinish⟩
  · simp only [record_obj_eq_ok_iff, fillFromMembers_eq_ok_iff hnames] at ha ⊢
    obtain ⟨draft, ⟨hfilling, hgiven⟩, hfinish⟩ := ha
    refine ⟨draft, ⟨hfilling.reorder hfields above below name hvalue, ?_⟩, hfinish⟩
    simpa only [givenNames, List.map_append, List.map_cons] using hgiven

end Records
end Decoder
end DocComments
