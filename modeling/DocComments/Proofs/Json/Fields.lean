import DocComments.Proofs.Json.Filling

/-! The fields of decoded records. A field holds what is given for it, by an object under its name or by an
array at its place, and is as in the empty draft where nothing is given. -/
namespace DocComments.Decoder
variable {σ τ β : Type}

/-- The value that a record gives for a field, by an object under the name of the field, or by an array at its
place among the names of all fields. -/
def given? (names : List String) (name : String) : Json → Option Json
  | .obj members => members.lookup name
  | .arr items => items[names.idxOf name]?
  | _ => none

/-- What is found behind a field that may be given: the decoded value, or what was there before. -/
inductive Takes (decoder : Decoder β) (before : β) : Option Json → β → Prop
  | given {value : Json} {after : β} (h : decoder value = .ok after) : Takes decoder before (some value) after
  | absent : Takes decoder before none before

/-- Whether a field leaves to `get` what the decoder made of its value if it has the name, and else what was
there before. -/
def Field.Serves (field : Field σ) (name : String) (decoder : Decoder β) (get : σ → β) : Prop :=
  ∀ ⦃draft : σ⦄ ⦃value : Json⦄ ⦃draft' : σ⦄, field.put draft value = .ok draft' →
    (field.name = name → decoder value = .ok (get draft')) ∧ (field.name ≠ name → get draft' = get draft)

section Of
variable {name other : String} {decoder : Decoder β} {decoder' : Decoder τ} {get : σ → β}

theorem Field.serves_own {set : σ → β → σ} (hset : ∀ draft a, get (set draft a) = a) :
    (Field.of name decoder set).Serves name decoder get := by
  intro draft value draft' hput
  obtain ⟨a, ha, rfl⟩ := Field.put_of_eq_ok_iff.mp hput
  exact ⟨fun _ => by rw [ha, hset], fun hne => absurd rfl hne⟩

theorem Field.serves_other {set : σ → τ → σ} (hne : other ≠ name)
    (hset : ∀ draft a, get (set draft a) = get draft) :
    (Field.of other decoder' set).Serves name decoder get := by
  intro draft value draft' hput
  obtain ⟨a, -, rfl⟩ := Field.put_of_eq_ok_iff.mp hput
  exact ⟨fun he => absurd he hne, fun _ => hset draft a⟩

end Of

/-- Whether the fields have different names, and the one of the given name is read by the decoder and found by
`get`. -/
structure HasField (fields : List (Field σ)) (name : String) (decoder : Decoder β) (get : σ → β) : Prop where
  names : (fields.map (·.name)).Nodup
  mem : name ∈ fields.map (·.name)
  serves : ∀ field ∈ fields, field.Serves name decoder get

section Fill
variable {fields : List (Field σ)} {name : String} {decoder : Decoder β} {get : σ → β} {draft draft' : σ}

private theorem get_of_filling (hserves : ∀ field ∈ fields, field.Serves name decoder get)
    {members : List (String × Json)} (h : Filling fields draft members draft')
    (hname : name ∉ givenNames fields members) : get draft' = get draft := by
  induction h with
  | nil => rfl
  | field hfield hgiven hput _ ih =>
    rw [givenNames_cons_of_mem (hgiven ▸ List.mem_map_of_mem hfield), List.mem_cons, not_or] at hname
    rw [ih hname.2]
    exact (hserves _ hfield hput).2 fun he => hname.1 (he.symm.trans hgiven)
  | other hother _ _ ih =>
    rw [givenNames_cons_of_not_mem hother] at hname
    exact ih hname

/-- A field is given once, so the members behind it leave it as it is. -/
theorem takes_of_filling (hserves : ∀ field ∈ fields, field.Serves name decoder get)
    (hname : name ∈ fields.map (·.name)) {members : List (String × Json)}
    (h : Filling fields draft members draft') (hnodup : (givenNames fields members).Nodup) :
    Takes decoder (get draft) (members.lookup name) (get draft') := by
  induction h with
  | nil => exact .absent
  | @field given _ _ _ _ _ _ hfield hgiven hput h ih =>
    rw [givenNames_cons_of_mem (hgiven ▸ List.mem_map_of_mem hfield), List.nodup_cons] at hnodup
    obtain ⟨hown, hother⟩ := hserves _ hfield hput
    rw [List.lookup_cons]
    by_cases hnames : name = given
    · subst hnames
      rw [beq_self_eq_true, get_of_filling hserves h hnodup.1]
      exact .given (hown hgiven)
    · rw [beq_false_of_ne hnames, ← hother fun he => hnames (he.symm.trans hgiven)]
      exact ih hnodup.2
  | @other given _ _ _ _ hother _ _ ih =>
    rw [givenNames_cons_of_not_mem hother] at hnodup
    have hnames : name ≠ given := ne_of_mem_of_not_mem hname hother
    rw [List.lookup_cons, beq_false_of_ne hnames]
    exact ih hnodup

private theorem get_of_fillFromItems (hserves : ∀ field ∈ fields, field.Serves name decoder get)
    (hname : name ∉ fields.map (·.name)) {items : List Json}
    (h : fillFromItems draft fields items = .ok draft') : get draft' = get draft := by
  induction fields generalizing draft items with
  | nil =>
    cases items with
    | nil => rw [Except.ok.inj h]
    | cons item items => cases h
  | cons field fields ih =>
    cases items with
    | nil => rw [Except.ok.inj h]
    | cons item items =>
      simp only [List.map_cons, List.mem_cons, not_or] at hname
      simp only [fillFromItems] at h
      split at h
      · cases h
      · rename_i filled hput
        rw [ih (fun other ho => hserves other (List.mem_cons_of_mem _ ho)) hname.2 h]
        exact (hserves field List.mem_cons_self hput).2 fun he => hname.1 he.symm

private theorem takes_of_fillFromItems (hserves : ∀ field ∈ fields, field.Serves name decoder get)
    (hnames : (fields.map (·.name)).Nodup) {items : List Json}
    (h : fillFromItems draft fields items = .ok draft') (hname : name ∈ fields.map (·.name)) :
    Takes decoder (get draft) items[(fields.map (·.name)).idxOf name]? (get draft') := by
  induction fields generalizing draft items with
  | nil => cases hname
  | cons field fields ih =>
    cases items with
    | nil =>
      rw [List.getElem?_nil, Except.ok.inj h]
      exact .absent
    | cons item items =>
      rw [List.map_cons, List.nodup_cons] at hnames
      simp only [fillFromItems] at h
      split at h
      · cases h
      · rename_i filled hput
        obtain ⟨hown, hother⟩ := hserves field List.mem_cons_self hput
        have hrest := fun other ho => hserves other (List.mem_cons_of_mem _ ho)
        rw [List.map_cons]
        by_cases hfirst : field.name = name
        · rw [hfirst] at hnames
          rw [hfirst, List.idxOf_cons_self, List.getElem?_cons_zero, get_of_fillFromItems hrest hnames.1 h]
          exact .given (hown hfirst)
        · have hbelow := (List.mem_cons.mp hname).resolve_left fun he => hfirst he.symm
          rw [List.idxOf_cons_ne _ hfirst, List.getElem?_cons_succ, ← hother hfirst]
          exact ih hrest hnames.2 h hbelow

/-- A record that is decoded from a value is finished from a draft in which each field holds what the value
gives for it. -/
theorem exists_draft_of_record {α : Type} {empty : σ} {finish : σ → Option α} {value : Json} {a : α}
    (h : record fields empty finish value = .ok a) :
    ∃ draft, finish draft = some a ∧
      ∀ {β : Type} {name : String} {decoder : Decoder β} {get : σ → β}, HasField fields name decoder get →
        Takes decoder (get empty) (given? (fields.map (·.name)) name value) (get draft) := by
  simp only [record] at h
  split at h
  · cases h
  · rename_i draft hdraft
    split at h
    · rename_i hfinish
      obtain rfl := Except.ok.inj h
      refine ⟨draft, hfinish, fun hfield => ?_⟩
      split at hdraft
      · obtain ⟨hfilling, hnodup⟩ := filling_of_fillFromMembers hdraft .nil
        exact takes_of_filling hfield.serves hfield.mem hfilling hnodup
      · exact takes_of_fillFromItems hfield.serves hfield.names hdraft hfield.mem
      · cases hdraft
    · cases h

end Fill

/-- A field of a section of a record. Where the section is missing, the field is as in an empty one. -/
theorem takes_of_section {outer : List (Field σ)} {inner : List (Field τ)} {empty s : σ} {emptySection : τ}
    {sectionName name : String} {getSection : σ → τ} {decoder : Decoder β} {get : τ → β} {value : Json}
    (houter : HasField outer sectionName (record inner emptySection some) getSection)
    (hinner : HasField inner name decoder get) (hempty : getSection empty = emptySection)
    (h : record outer empty some value = .ok s) :
    Takes decoder (get emptySection)
      ((given? (outer.map (·.name)) sectionName value).bind (given? (inner.map (·.name)) name))
      (get (getSection s)) := by
  obtain ⟨draft, hdraft, htakes⟩ := exists_draft_of_record h
  obtain rfl := Option.some.inj hdraft
  have hsection := htakes houter
  generalize given? (outer.map (·.name)) sectionName value = given at hsection
  generalize hfound : getSection draft = found at hsection
  cases hsection with
  | absent => rw [hempty]; exact .absent
  | given hvalue =>
    obtain ⟨draft', hdraft', htakes'⟩ := exists_draft_of_record hvalue
    obtain rfl := Option.some.inj hdraft'
    exact htakes' hinner

end DocComments.Decoder
