import DocComments.Json.Decode
import Mathlib.Data.List.Nodup
import Mathlib.Data.List.Pairwise

/-! Records filled from the members of an object. A draft is filled by one member after the other, and where fields
are put into it apart from each other, the order of the members does not matter. -/
namespace DocComments.Decoder
variable {σ α β γ : Type}

/-- Members that fill a draft, one after the other. A member of a name that no field has is passed over, unless the
text is no JSON there. -/
inductive Filling (fields : List (Field σ)) : σ → List (String × Json) → σ → Prop
  | nil (draft : σ) : Filling fields draft [] draft
  | field {name : String} {value : Json} {field : Field σ} {draft draft' draft'' : σ}
      {members : List (String × Json)} (hfield : field ∈ fields) (hname : field.name = name)
      (hput : field.put draft value = .ok draft') (h : Filling fields draft' members draft'') :
      Filling fields draft ((name, value) :: members) draft''
  | other {name : String} {value : Json} {draft draft' : σ} {members : List (String × Json)}
      (hname : name ∉ fields.map (·.name)) (hvalue : value ≠ .malformed) (h : Filling fields draft members draft') :
      Filling fields draft ((name, value) :: members) draft'

def givenNames (fields : List (Field σ)) (members : List (String × Json)) : List String :=
  (members.map (·.1)).filter (fields.map (·.name)).contains

section Fill
variable {fields : List (Field σ)} {field : Field σ} {draft draft' : σ} {name : String} {value : Json}
  {members members' : List (String × Json)} {seen : List String}

private theorem find?_field (hnames : (fields.map (·.name)).Nodup) (hfield : field ∈ fields) :
    fields.find? (·.name == field.name) = some field := by
  induction fields with
  | nil => cases hfield
  | cons first fields ih =>
    rw [List.map_cons, List.nodup_cons] at hnames
    rcases List.mem_cons.mp hfield with rfl | hbelow
    · exact List.find?_cons_of_pos (beq_self_eq_true _)
    · have hne : first.name ≠ field.name := fun he => hnames.1 (he ▸ List.mem_map_of_mem hbelow)
      rw [List.find?_cons_of_neg (by simpa using hne), ih hnames.2 hbelow]

theorem givenNames_cons_of_mem (h : name ∈ fields.map (·.name)) :
    givenNames fields ((name, value) :: members) = name :: givenNames fields members := by
  rw [givenNames, List.map_cons, List.filter_cons_of_pos (List.contains_iff_mem.mpr h)]
  rfl

theorem givenNames_cons_of_not_mem (h : name ∉ fields.map (·.name)) :
    givenNames fields ((name, value) :: members) = givenNames fields members := by
  rw [givenNames, List.map_cons, List.filter_cons_of_neg (by rwa [List.contains_iff_mem])]
  rfl

theorem givenNames_perm (h : members.Perm members') : (givenNames fields members).Perm (givenNames fields members') :=
  (h.map _).filter _

/-- What a draft becomes by members whose names are given once, and have not been seen before. -/
theorem fillFromMembers_of_filling (hnames : (fields.map (·.name)).Nodup) (h : Filling fields draft members draft')
    (hgiven : (seen.reverse ++ givenNames fields members).Nodup) :
    fillFromMembers fields draft seen members = .ok draft' := by
  induction h generalizing seen with
  | nil => rfl
  | @field name value field draft _ _ members hfield hname hput _ ih =>
    subst hname
    rw [givenNames_cons_of_mem (List.mem_map_of_mem hfield)] at hgiven
    have hseen : seen.contains field.name = false := by
      rw [← Bool.not_eq_true, List.contains_iff_mem]
      intro hmem
      exact (List.nodup_append.mp hgiven).2.2 _ (List.mem_reverse.mpr hmem) _ List.mem_cons_self rfl
    simp only [fillFromMembers, find?_field hnames hfield, hseen, hput, Bool.false_eq_true, if_false]
    exact ih (by simpa using hgiven)
  | @other name value draft _ members hname hvalue _ ih =>
    rw [givenNames_cons_of_not_mem hname] at hgiven
    have hnone : fields.find? (·.name == name) = none := by
      rw [List.find?_eq_none]
      intro field hfield he
      exact hname (List.mem_map.mpr ⟨field, hfield, by simpa using he⟩)
    simp only [fillFromMembers, hnone]
    exact ih hgiven

theorem filling_of_fillFromMembers (h : fillFromMembers fields draft seen members = .ok draft')
    (hseen : seen.Nodup) :
    Filling fields draft members draft' ∧ (seen.reverse ++ givenNames fields members).Nodup := by
  induction members generalizing draft seen with
  | nil =>
    obtain rfl := Except.ok.inj h
    exact ⟨.nil draft, by simpa [givenNames] using hseen⟩
  | cons member members ih =>
    obtain ⟨name, value⟩ := member
    simp only [fillFromMembers] at h
    split at h
    · rename_i hnone
      have hname : name ∉ fields.map (·.name) := by
        intro hmem
        obtain ⟨field, hfield, he⟩ := List.mem_map.mp hmem
        exact List.find?_eq_none.mp hnone field hfield (beq_iff_eq.mpr he)
      rw [givenNames_cons_of_not_mem hname]
      split at h
      · cases h
      · rename_i hvalue
        obtain ⟨hfilling, hgiven⟩ := ih h hseen
        exact ⟨.other hname hvalue hfilling, hgiven⟩
    · rename_i field hfind
      have hfield := List.mem_of_find?_eq_some hfind
      have hname : field.name = name := by simpa using List.find?_some hfind
      split at h
      · cases h
      · rename_i hnew
        split at h
        · cases h
        · rename_i hput
          rw [List.contains_iff_mem] at hnew
          obtain ⟨hfilling, hgiven⟩ := ih h (List.nodup_cons.mpr ⟨hnew, hseen⟩)
          rw [givenNames_cons_of_mem (hname ▸ List.mem_map_of_mem hfield)]
          exact ⟨.field hfield hname hput hfilling, by simpa using hgiven⟩

/-- A draft is filled exactly by members that fill it one by one, if no field is given twice. -/
theorem fillFromMembers_eq_ok_iff (hnames : (fields.map (·.name)).Nodup) :
    fillFromMembers fields draft [] members = .ok draft' ↔
      Filling fields draft members draft' ∧ (givenNames fields members).Nodup :=
  ⟨fun h => filling_of_fillFromMembers h .nil, fun h => fillFromMembers_of_filling hnames h.1 h.2⟩

end Fill

/-- Whether it does not matter which of the fields is put into a draft first. -/
def Field.Commute (field field' : Field σ) : Prop :=
  ∀ ⦃draft : σ⦄ ⦃value value' : Json⦄ ⦃after : σ⦄,
    (∃ between, field.put draft value = .ok between ∧ field'.put between value' = .ok after) ↔
      ∃ between, field'.put draft value' = .ok between ∧ field.put between value = .ok after

instance : Std.Symm (@Field.Commute σ) where
  symm := by
    intro field field' h draft value value' after
    exact (@h draft value' value after).symm

theorem Field.put_of_eq_ok_iff {name : String} {decoder : Decoder β} {set : σ → β → σ} {draft draft' : σ}
    {value : Json} : (Field.of name decoder set).put draft value = .ok draft' ↔
      ∃ b, decoder value = .ok b ∧ draft' = set draft b := by
  simp only [Field.of]
  cases decoder value <;> simp [Except.map, eq_comm]

/-- Fields that are set apart from each other. -/
theorem Field.commute_of {name name' : String} {decoder : Decoder β} {decoder' : Decoder γ} {set : σ → β → σ}
    {set' : σ → γ → σ} (h : ∀ draft b c, set' (set draft b) c = set (set' draft c) b) :
    (Field.of name decoder set).Commute (Field.of name' decoder' set') := by
  intro draft value value' after
  simp only [put_of_eq_ok_iff]
  constructor
  · rintro ⟨_, ⟨b, hb, rfl⟩, c, hc, rfl⟩
    exact ⟨_, ⟨c, hc, rfl⟩, b, hb, h draft b c⟩
  · rintro ⟨_, ⟨c, hc, rfl⟩, b, hb, rfl⟩
    exact ⟨_, ⟨b, hb, rfl⟩, c, hc, (h draft b c).symm⟩

namespace Filling
variable {fields : List (Field σ)} {draft draft' : σ} {members members' : List (String × Json)}

/-- Members of different names may change their places. -/
theorem swap (hcommute : fields.Pairwise Field.Commute) {member member' : String × Json}
    (hne : member.1 ≠ member'.1 ∨ member.1 ∉ fields.map (·.name))
    (h : Filling fields draft (member :: member' :: members) draft') :
    Filling fields draft (member' :: member :: members) draft' := by
  obtain ⟨name, value⟩ := member
  obtain ⟨name', value'⟩ := member'
  cases h with
  | @field _ _ field _ _ _ _ hfield hname hput h =>
    cases h with
    | @field _ _ field' _ _ _ _ hfield' hname' hput' h =>
      have hfields : field ≠ field' := by
        rintro rfl
        rcases hne with hne | hne
        · exact hne (hname.symm.trans hname')
        · exact hne (hname ▸ List.mem_map_of_mem hfield)
      obtain ⟨between, hfirst, hsecond⟩ := (hcommute.forall hfield hfield' hfields).mp ⟨_, hput, hput'⟩
      exact .field hfield' hname' hfirst (.field hfield hname hsecond h)
    | other hname' hvalue h => exact .other hname' hvalue (.field hfield hname hput h)
  | other hname hvalue h =>
    cases h with
    | field hfield hname' hput h => exact .field hfield hname' hput (.other hname hvalue h)
    | other hname' hvalue' h => exact .other hname' hvalue' (.other hname hvalue h)

theorem perm (hcommute : fields.Pairwise Field.Commute) (hperm : members.Perm members')
    (hgiven : (givenNames fields members).Nodup) (h : Filling fields draft members draft') :
    Filling fields draft members' draft' := by
  induction hperm generalizing draft with
  | nil => exact h
  | cons member hperm ih =>
    obtain ⟨name, value⟩ := member
    cases h with
    | field hfield hname hput h =>
      rw [givenNames_cons_of_mem (hname ▸ List.mem_map_of_mem hfield), List.nodup_cons] at hgiven
      exact .field hfield hname hput (ih hgiven.2 h)
    | other hname hvalue h =>
      rw [givenNames_cons_of_not_mem hname] at hgiven
      exact .other hname hvalue (ih hgiven h)
  | swap member member' members =>
    refine h.swap hcommute ?_
    -- two members of one field would give it twice
    by_contra hne
    rw [not_or, not_not, not_not] at hne
    obtain ⟨hnames, hmem⟩ := hne
    rw [givenNames_cons_of_mem hmem, givenNames_cons_of_mem (hnames ▸ hmem), hnames] at hgiven
    exact (List.nodup_cons.mp hgiven).1 List.mem_cons_self
  | trans hperm _ ih ih' => exact ih' ((givenNames_perm hperm).nodup_iff.mp hgiven) (ih hgiven h)

end Filling

/-- Members that give the fields in their order. A field may be left out. -/
inductive InOrder : List (Field σ) → σ → List (String × Json) → σ → Prop
  | nil (draft : σ) : InOrder [] draft [] draft
  | given {field : Field σ} {fields : List (Field σ)} {draft draft' draft'' : σ} {value : Json}
      {members : List (String × Json)} (hput : field.put draft value = .ok draft')
      (h : InOrder fields draft' members draft'') :
      InOrder (field :: fields) draft ((field.name, value) :: members) draft''
  | omitted {field : Field σ} {fields : List (Field σ)} {draft draft' : σ} {members : List (String × Json)}
      (h : InOrder fields draft members draft') : InOrder (field :: fields) draft members draft'

namespace InOrder
variable {fields : List (Field σ)} {draft draft' : σ} {members : List (String × Json)}

theorem sublist (h : InOrder fields draft members draft') :
    (members.map (·.1)).Sublist (fields.map (·.name)) := by
  induction h with
  | nil => exact .slnil
  | given _ _ ih => exact ih.cons_cons _
  | omitted _ ih => exact ih.cons _

private theorem filling {all : List (Field σ)} (hall : ∀ field ∈ fields, field ∈ all)
    (h : InOrder fields draft members draft') : Filling all draft members draft' := by
  induction h with
  | nil draft => exact .nil draft
  | @given field _ _ _ _ _ _ hput _ ih =>
    exact .field (hall field List.mem_cons_self) rfl hput (ih fun other ho => hall other (List.mem_cons_of_mem _ ho))
  | omitted _ ih => exact ih fun other ho => hall other (List.mem_cons_of_mem _ ho)

/-- Fields that are given in their order are given once. -/
theorem fillFromMembers_eq_ok (hnames : (fields.map (·.name)).Nodup) (h : InOrder fields draft members draft') :
    fillFromMembers fields draft [] members = .ok draft' :=
  (fillFromMembers_eq_ok_iff hnames).mpr
    ⟨h.filling fun _ hf => hf, (hnames.sublist h.sublist).sublist List.filter_sublist⟩

theorem of_append_nil (h : InOrder fields draft (members ++ []) draft') : InOrder fields draft members draft' := by
  rwa [List.append_nil] at h

/-- A field is given by a value that its decoder takes. -/
theorem of {name : String} {decoder : Decoder β} {set : σ → β → σ} {value : Json} {b : β}
    (hb : decoder value = .ok b) (h : InOrder fields (set draft b) members draft') :
    InOrder (.of name decoder set :: fields) draft ((name, value) :: members) draft' :=
  .given (Field.put_of_eq_ok_iff.mpr ⟨b, hb, rfl⟩) h

/-- A text that may be absent is left out where it is, if the draft has none yet. -/
theorem optional {name : String} {set : σ → Option String → σ} {text : Option String}
    (hnone : set draft none = draft) (h : InOrder fields (set draft text) members draft') :
    InOrder (.of name (.option Decoder.text) set :: fields) draft
      (Json.optional name (text.map .str) ++ members) draft' := by
  cases text with
  | none =>
    rw [hnone] at h
    exact .omitted h
  | some text => exact .of rfl h

end InOrder
end DocComments.Decoder
