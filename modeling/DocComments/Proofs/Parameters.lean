import DocComments.Proofs.Header.Captured
import DocComments.Proofs.Text.Case

/-! Parameters as they are declared. Each comes from a segment between two commas: a name behind the
marks of its language, and a type and a default value without blanks around them. -/
namespace DocComments.Parameters
open Text

variable {language : Language}

theorem not_isBlank_of_isName {name : List Char} (h : IsName (nameStart language) (namePart language) name) :
    ∀ c ∈ name, isBlank c = false := by
  intro c hc
  by_contra hb
  have hb : isBlank c := by simpa using hb
  have hstart : nameStart language c = false := by
    have hnone : blanks.all (!nameStart language ·) := by cases language <;> decide
    simpa using of_isBlank hnone hb
  have hpart : namePart language c = false := by
    have hdollar : blanks.all (· != '$') := by decide
    have hc : c ≠ '$' := by simpa using of_isBlank hdollar hb
    cases language <;> simp [namePart, isDollarNamePart, isWord_of_isBlank hb, hc]
  obtain ⟨first, rest, rfl, hs, hp⟩ := h
  rcases List.mem_cons.mp hc with rfl | hc
  · simp [hs] at hstart
  · simp [hp c hc] at hpart

/-- The marks in front of the name of a parameter that takes several arguments. -/
def marks : Language → List (List Char)
  | .python => [[], ['*'], ['*', '*']]
  | .javaScript => [[], ['.', '.', '.']]

def IsMarkedName (language : Language) (name : List Char) : Prop :=
  ∃ mark ∈ marks language, ∃ bare, IsName (nameStart language) (namePart language) bare ∧
    name = mark ++ bare

/-- A parameter that stands in a segment of a parameter list. -/
structure Declared (language : Language) (segment : List Char) (p : Parameter) : Prop where
  name : IsMarkedName language p.name.toList
  type : ∀ type ∈ p.type, Trimmed type.toList ∧ type.toList <:+: segment
  default : ∀ value ∈ p.default, Trimmed value.toList ∧ value.toList <:+: segment

private theorem splitDefault_eq {s typePart : List Char} {default : Option (List Char)}
    (h : splitDefault s = (typePart, default)) :
    typePart <+: s ∧ ∀ value ∈ default, value <:+ s := by
  induction s generalizing typePart default with
  | nil =>
    obtain ⟨rfl, rfl⟩ := Prod.mk.inj h
    simp
  | cons c s ih =>
    rw [splitDefault] at h
    split at h
    · obtain ⟨rfl, rfl⟩ := Prod.mk.inj h
      simp
    · obtain ⟨rfl, rfl⟩ := Prod.mk.inj h
      obtain ⟨htype, hdefault⟩ := ih rfl
      refine ⟨List.cons_prefix_cons.mpr ⟨rfl, htype⟩, fun value hv => ?_⟩
      exact (hdefault value hv).trans (List.suffix_cons c s)

private theorem trimmed_of_annotatedType? {typePart type : List Char} (h : annotatedType? typePart = some type) :
    Trimmed type ∧ type <:+: typePart := by
  rw [annotatedType?] at h
  split at h
  · rename_i text ht
    obtain ⟨htrim, htype⟩ := trimmed_of_content? h
    have htext : ':' :: text <:+: typePart := ht ▸ trim_isInfix typePart
    exact ⟨htrim, htype.trans ((List.suffix_cons ':' text).isInfix.trans htext)⟩
  · simp at h

private theorem marked_of_name? (language : Language) {mark : List Char} (hm : mark ∈ marks language)
    {s name bare rest : List Char}
    (h : name? (nameStart language) (namePart language) s = some (bare, rest)) (hn : name = mark ++ bare) :
    IsMarkedName language name ∧ rest <:+ s := by
  obtain ⟨hs, hbare⟩ := name?_eq_some h
  exact ⟨⟨mark, hm, bare, hbare, hn⟩, bare, hs.symm⟩

private theorem starredName?_eq_some {s name rest : List Char} (h : starredName? s = some (name, rest)) :
    IsMarkedName .python name ∧ rest <:+ s := by
  rw [starredName?.eq_def] at h
  split at h
  · rename_i below
    have hmark : ['*', '*'] ∈ marks .python := by decide
    obtain ⟨⟨bare, _⟩, hn, he⟩ := Option.map_eq_some_iff.mp h
    obtain ⟨rfl, rfl⟩ := Prod.mk.inj he
    obtain ⟨hname, hrest⟩ := marked_of_name? .python hmark hn rfl
    exact ⟨hname, hrest.trans (List.suffix_append ['*', '*'] below)⟩
  · rename_i below _
    have hmark : ['*'] ∈ marks .python := by decide
    obtain ⟨⟨bare, _⟩, hn, he⟩ := Option.map_eq_some_iff.mp h
    obtain ⟨rfl, rfl⟩ := Prod.mk.inj he
    obtain ⟨hname, hrest⟩ := marked_of_name? .python hmark hn rfl
    exact ⟨hname, hrest.trans (List.suffix_cons '*' below)⟩
  · have hmark : [] ∈ marks .python := by decide
    exact marked_of_name? .python hmark h rfl

private theorem restName?_eq_some {s name rest : List Char} (h : restName? s = some (name, rest)) :
    IsMarkedName .javaScript name ∧ rest <:+ s := by
  rw [restName?] at h
  obtain ⟨⟨bare, below⟩, hn, he⟩ := Option.map_eq_some_iff.mp h
  obtain ⟨rfl, rfl⟩ := Prod.mk.inj he
  have hmark : (if startsWith ['.', '.', '.'] s then ['.', '.', '.'] else []) ∈ marks .javaScript := by
    split <;> decide
  obtain ⟨hname, hbelow⟩ := marked_of_name? .javaScript hmark hn rfl
  have hrest : withoutPrefix ['?'] below <:+ below := withoutPrefix_suffix _ _
  exact ⟨hname, hrest.trans (hbelow.trans (List.drop_suffix _ s))⟩

private theorem declared_of_ofSegment? {segment : List Char} {p : Parameter}
    (h : ofSegment? language segment = some p) : Declared language segment p := by
  obtain ⟨⟨name, rest⟩, hn, rfl⟩ := Option.map_eq_some_iff.mp h
  have hname : IsMarkedName language name ∧ rest <:+ segment := by
    cases language with
    | python => exact starredName?_eq_some hn
    | javaScript => exact restName?_eq_some hn
  obtain ⟨htype, hdefault⟩ := splitDefault_eq (s := trim rest) rfl
  have hrest : trim rest <:+: segment := (trim_isInfix rest).trans hname.2.isInfix
  refine ⟨by simpa using hname.1, ?_, ?_⟩
  · intro type ht
    obtain ⟨text, ha, rfl⟩ := Option.map_eq_some_iff.mp ht
    obtain ⟨htrim, htext⟩ := trimmed_of_annotatedType? ha
    rw [String.toList_ofList]
    exact ⟨htrim, htext.trans (htype.isInfix.trans hrest)⟩
  · intro value hv
    obtain ⟨text, ha, rfl⟩ := Option.map_eq_some_iff.mp hv
    obtain ⟨written, hw, hc⟩ := Option.bind_eq_some_iff.mp ha
    obtain ⟨htrim, htext⟩ := trimmed_of_content? hc
    rw [String.toList_ofList]
    exact ⟨htrim, htext.trans ((hdefault written hw).isInfix.trans hrest)⟩

theorem Declared.mono {segment whole : List Char} {p : Parameter} (h : Declared language segment p)
    (hs : segment <:+: whole) : Declared language whole p where
  name := h.name
  type := fun type ht => ⟨(h.type type ht).1, (h.type type ht).2.trans hs⟩
  default := fun value hv => ⟨(h.default value hv).1, (h.default value hv).2.trans hs⟩

/-- A parameter comes from a segment of its list, which holds no comma. -/
theorem declared_of_mem_parse {raw : List Char} {p : Parameter} (h : p ∈ parse language raw) :
    ∃ segment, segment <:+: raw ∧ ',' ∉ segment ∧ Declared language segment p := by
  obtain ⟨segment, hs, hp⟩ := List.mem_filterMap.mp h
  obtain ⟨hraw, hcomma⟩ := mem_splitOnChar hs
  exact ⟨segment, hraw, hcomma, (declared_of_ofSegment? hp).mono (trim_isInfix segment)⟩

theorem declared_of_mem_parameters {raw : List Char} {p : Parameter}
    (h : p ∈ (grammarOf language).parameters raw) :
    ∃ segment, segment <:+: raw ∧ ',' ∉ segment ∧ Declared language segment p := by
  cases language with
  | javaScript => exact declared_of_mem_parse h
  | python =>
    have hmem : p ∈ parse .python raw := by
      have hp : p ∈ withoutReceiver (parse .python raw) := h
      cases hl : parse .python raw with
      | nil => simp [hl, withoutReceiver] at hp
      | cons first rest =>
        rw [hl, withoutReceiver] at hp
        split at hp
        · exact List.mem_cons_of_mem first hp
        · exact hp
    exact declared_of_mem_parse hmem

end DocComments.Parameters
