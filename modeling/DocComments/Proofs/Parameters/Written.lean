import DocComments.Prompt
import DocComments.Proofs.Header.Signature

/-! Parameter lists read back. A list that is written out declaration by declaration gives the
parameters that were written, and segments without a name between them do not change that. -/
namespace DocComments.Parameters
open Text

variable {language : Language}

/-- Every equals sign in the text is the start of an arrow. -/
def ArrowsOnly (s : List Char) : Prop :=
  ∀ after, '=' :: after <:+ s → after.head? = some '>'

instance (s : List Char) : Decidable (ArrowsOnly s) :=
  decidable_of_iff (∀ t ∈ s.tails, t.head? = some '=' → t.tail.head? = some '>') <| by
    constructor
    · intro h after ha
      exact h _ (List.mem_tails _ _ |>.mpr ha) rfl
    · intro h t ht hc
      obtain ⟨after, rfl⟩ := List.head?_eq_some_iff.mp hc
      exact h after (List.mem_tails _ _ |>.mp ht)

/-- A parameter that can be told from its declaration: its type and its default value are no blanks and
hold no comma, and no equals sign in the type is taken for the one in front of the default value. -/
structure Writable (language : Language) (p : Parameter) : Prop where
  name : IsMarkedName language p.name.toList
  type : ∀ type ∈ p.type, Trimmed type.toList ∧ ',' ∉ type.toList ∧ ArrowsOnly type.toList
  default : ∀ value ∈ p.default, Trimmed value.toList ∧ ',' ∉ value.toList

/-- What may stand directly behind a name: in JavaScript, the question mark of an optional parameter. -/
def nameEnds : Language → List String
  | .python => [""]
  | .javaScript => ["", "?"]

def Written (language : Language) (p : Parameter) (segment : List Char) : Prop :=
  Writable language p ∧ ∃ ending ∈ nameEnds language,
    segment = (Prompt.declaration { p with name := p.name ++ ending }).toList

/-- A segment that declares nothing: it is blank, or no name stands at its head. -/
def Nameless (language : Language) (segment : List Char) : Prop :=
  allBlank segment ∨
    ∀ mark ∈ marks language, ∀ c rest, trim segment = mark ++ c :: rest → nameStart language c = false

/-- The segments with blanks around them, and with others in between that declare nothing. -/
inductive Padded (language : Language) : List (List Char) → List (List Char) → Prop
  | nil : Padded language [] []
  | keep {segments padded : List (List Char)} (before segment after : List Char) :
    allBlank before → allBlank after → Padded language segments padded →
      Padded language (segment :: segments) ((before ++ (segment ++ after)) :: padded)
  | add {segments padded : List (List Char)} (segment : List Char) :
    ',' ∉ segment → Nameless language segment → Padded language segments padded →
      Padded language segments (segment :: padded)

/-! ## One declaration -/

def typeSuffix : Option String → List Char
  | none => []
  | some type => ':' :: ' ' :: type.toList

def defaultSuffix : Option String → List Char
  | none => []
  | some value => ' ' :: '=' :: ' ' :: value.toList

private theorem toList_declaration (p : Parameter) :
    (Prompt.declaration p).toList = p.name.toList ++ (typeSuffix p.type ++ defaultSuffix p.default) := by
  cases ht : p.type <;> cases hd : p.default <;>
    simp [Prompt.declaration, typeSuffix, defaultSuffix, ht, hd]

private theorem head?_behindName {c : Char} {type default : Option String}
    (h : c ∈ (typeSuffix type ++ defaultSuffix default).head?) : c = ':' ∨ c = ' ' := by
  cases type with
  | some type => exact .inl (Option.some.inj h).symm
  | none =>
    cases default with
    | some value => exact .inr (Option.some.inj h).symm
    | none => cases h

/-- Marks in front of a name consist of stars and dots. -/
theorem eq_of_mem_mark {mark : List Char} (hm : mark ∈ marks language) {c : Char} (hc : c ∈ mark) :
    c = '*' ∨ c = '.' := by
  cases language with
  | python =>
    simp only [marks, List.mem_cons, List.not_mem_nil, or_false] at hm
    rcases hm with rfl | rfl | rfl <;> simp_all
  | javaScript =>
    simp only [marks, List.mem_cons, List.not_mem_nil, or_false] at hm
    rcases hm with rfl | rfl <;> simp_all

/-- A Python name with its stars is taken as it is. -/
theorem starredName?_append {mark bare rest : List Char} (hm : mark ∈ marks .python)
    (hb : IsName isNameStart isWord bare) (hr : ∀ c ∈ rest.head?, isWord c = false) :
    starredName? (mark ++ (bare ++ rest)) = some (mark ++ bare, rest) := by
  have hname := Header.name?_append hb hr
  obtain ⟨c, below, rfl, hc, -⟩ := hb
  have hstar : c ≠ '*' := by
    rintro rfl
    exact absurd hc (by decide)
  simp only [marks, List.mem_cons, List.not_mem_nil, or_false] at hm
  rcases hm with rfl | rfl | rfl
  · simpa [starredName?, hstar] using hname
  · simpa [starredName?, hstar] using hname
  · simpa [starredName?] using hname

/-- A JavaScript name with its dots is taken as it is, and a question mark behind it is passed over. -/
theorem restName?_append {mark bare rest : List Char} (hm : mark ∈ marks .javaScript)
    (hb : IsName isDollarNameStart isDollarNamePart bare)
    (hr : ∀ c ∈ rest.head?, isDollarNamePart c = false) :
    restName? (mark ++ (bare ++ rest)) = some (mark ++ bare, withoutPrefix ['?'] rest) := by
  have hname := Header.name?_append hb hr
  obtain ⟨c, below, rfl, hc, -⟩ := hb
  have hdot : c ≠ '.' := by
    rintro rfl
    exact absurd hc (by decide)
  simp only [marks, List.mem_cons, List.not_mem_nil, or_false] at hm
  rw [List.cons_append] at hname
  rcases hm with rfl | rfl
  · have hno : startsWith ['.', '.', '.'] (c :: (below ++ rest)) = false := by
      rw [Bool.eq_false_iff, ne_eq, startsWith, List.isPrefixOf_iff_prefix, List.cons_prefix_cons]
      exact fun hp => hdot hp.1.symm
    simp only [List.nil_append, List.cons_append, restName?, hno, Bool.false_eq_true, if_false,
      List.length_nil, List.drop_zero, hname, Option.map_some]
  · have hyes : startsWith ['.', '.', '.'] ('.' :: '.' :: '.' :: c :: (below ++ rest)) := rfl
    simp only [List.nil_append, List.cons_append, restName?, hyes, if_true, List.length_cons,
      List.length_nil, Nat.zero_add, Nat.reduceAdd, List.drop_succ_cons, List.drop_zero, hname,
      Option.map_some]

private theorem splitDefault_of_arrowsOnly {s : List Char} (h : ArrowsOnly s) : splitDefault s = (s, none) := by
  induction s with
  | nil => rfl
  | cons c s ih =>
    have hc : ¬ (c == '=' && s.head? != some '>') := by
      rw [Bool.and_eq_true, beq_iff_eq, bne_iff_ne]
      rintro ⟨rfl, hs⟩
      exact hs (h s List.suffix_rfl)
    have hlater : ArrowsOnly s := fun after ha => h after (ha.trans (List.suffix_cons c s))
    rw [splitDefault, if_neg hc, ih hlater]

/-- The first equals sign that starts no arrow stands behind the type. -/
theorem splitDefault_append {s : List Char} (h : ArrowsOnly s) {value : List Char}
    (hv : value.head? ≠ some '>') : splitDefault (s ++ '=' :: value) = (s, some value) := by
  induction s with
  | nil => rw [List.nil_append, splitDefault, if_pos (by simpa using hv)]
  | cons c s ih =>
    have hc : ¬ (c == '=' && (s ++ '=' :: value).head? != some '>') := by
      rw [Bool.and_eq_true, beq_iff_eq, bne_iff_ne]
      rintro ⟨rfl, hs⟩
      exact hs (by rw [List.head?_append, h s List.suffix_rfl]; rfl)
    have hlater : ArrowsOnly s := fun after ha => h after (ha.trans (List.suffix_cons c s))
    rw [List.cons_append, splitDefault, if_neg hc, ih hlater]

theorem ArrowsOnly.cons {s : List Char} (h : ArrowsOnly s) {c : Char} (hc : c ≠ '=') :
    ArrowsOnly (c :: s) := by
  intro after ha
  rcases List.suffix_cons_iff.mp ha with he | hs
  · exact absurd (List.cons_eq_cons.mp he).1.symm hc
  · exact h after hs

private theorem ArrowsOnly.concat {s : List Char} (h : ArrowsOnly s) {c : Char} (hc : c ≠ '=') :
    ArrowsOnly (s ++ [c]) := by
  intro after ha
  rcases List.suffix_concat_iff.mp ha with he | ⟨front, he, hs⟩
  · cases he
  · cases front with
    | nil => exact absurd (List.cons_eq_cons.mp he).1.symm hc
    | cons d front =>
      obtain ⟨rfl, hafter⟩ : '=' = d ∧ after = front ++ [c] := List.cons_eq_cons.mp he
      rw [hafter, List.head?_append, h front hs]
      rfl

variable {p : Parameter}

private theorem Writable.arrowsOnly_typeSuffix (h : Writable language p) : ArrowsOnly (typeSuffix p.type) := by
  cases ht : p.type with
  | none =>
    intro after ha
    cases List.suffix_nil.mp ha
  | some type => exact ((h.type type ht).2.2.cons (by decide)).cons (by decide)

private theorem Writable.getLast?_behindName (h : Writable language p) :
    ∀ c ∈ (typeSuffix p.type ++ defaultSuffix p.default).getLast?, isBlank c = false := by
  cases hd : p.default with
  | some value =>
    have hcut : typeSuffix p.type ++ defaultSuffix (some value) =
        (typeSuffix p.type ++ [' ', '=', ' ']) ++ value.toList := by simp [defaultSuffix]
    rw [hcut]
    exact (h.default value hd).1.last_append _
  | none =>
    cases ht : p.type with
    | none => simp [typeSuffix, defaultSuffix]
    | some type =>
      have hcut : typeSuffix (some type) ++ defaultSuffix none = [':', ' '] ++ type.toList := by
        simp [typeSuffix, defaultSuffix]
      rw [hcut]
      exact (h.type type ht).1.last_append _

/-- The type is read from what is written behind the name, whatever blanks stand behind it. -/
theorem annotatedType?_typeSuffix {type : String} (h : Trimmed type.toList) {blanks : List Char}
    (hb : allBlank blanks) : annotatedType? (typeSuffix (some type) ++ blanks) = some type.toList := by
  have hlast := h.last_append [':', ' ']
  have htrim : trim (typeSuffix (some type) ++ blanks) = ':' :: ' ' :: type.toList := by
    have hcut := trim_append_of_blank (a := []) rfl hb (typeSuffix (some type))
    rw [List.nil_append] at hcut
    rw [hcut]
    exact (trim_eq_trimStart hlast).trans (trimStart_cons rfl _)
  rw [annotatedType?, htrim]
  exact h.content?_space

/-- The type and the default value are read from what stands behind the name. -/
theorem Writable.read_behindName (h : Writable language p) :
    ∃ typePart default,
      splitDefault (trim (typeSuffix p.type ++ defaultSuffix p.default)) = (typePart, default) ∧
        annotatedType? typePart = p.type.map String.toList ∧
        default.bind content? = p.default.map String.toList := by
  have harrows := h.arrowsOnly_typeSuffix
  rw [trim_eq_trimStart h.getLast?_behindName]
  cases ht : p.type with
  | none =>
    cases hd : p.default with
    | none => exact ⟨[], none, rfl, rfl, rfl⟩
    | some value =>
      exact ⟨[], some (' ' :: value.toList), rfl, rfl, (h.default value hd).1.content?_space⟩
  | some type =>
    have htype := (h.type type ht).1
    rw [typeSuffix, List.cons_append, trimStart_cons rfl, ← List.cons_append, ← typeSuffix]
    rw [ht] at harrows
    cases hd : p.default with
    | none =>
      have hread : annotatedType? (typeSuffix (some type) ++ []) = some type.toList :=
        annotatedType?_typeSuffix htype rfl
      rw [defaultSuffix, List.append_nil]
      rw [List.append_nil] at hread
      exact ⟨typeSuffix (some type), none, splitDefault_of_arrowsOnly harrows, hread, rfl⟩
    | some value =>
      have hcut : typeSuffix (some type) ++ defaultSuffix (some value) =
          (typeSuffix (some type) ++ [' ']) ++ '=' :: ' ' :: value.toList := by simp [defaultSuffix]
      rw [hcut, splitDefault_append (harrows.concat (by decide)) (by simp)]
      exact ⟨_, _, rfl, annotatedType?_typeSuffix htype rfl, (h.default value hd).1.content?_space⟩

private theorem eq_of_mem_nameEnds {ending : String} (h : ending ∈ nameEnds language) :
    ending = "" ∨ ending = "?" := by
  cases language with
  | python => exact .inl (List.mem_singleton.mp h)
  | javaScript => simpa [nameEnds] using h

/-- A question mark behind a name is no part of it and is passed over. -/
theorem withoutPrefix_ending {ending : String} (he : ending ∈ nameEnds .javaScript) {rest : List Char}
    (hr : ∀ c ∈ rest.head?, c = ':' ∨ c = ' ') :
    withoutPrefix ['?'] (ending.toList ++ rest) = rest ∧
      ∀ c ∈ (ending.toList ++ rest).head?, isDollarNamePart c = false := by
  simp only [nameEnds, List.mem_cons, List.not_mem_nil, or_false] at he
  rcases he with rfl | rfl
  · have hno : dropPrefix? ['?'] rest = none := by
      rw [dropPrefix?_eq_none_iff]
      rintro ⟨below, rfl⟩
      rcases hr '?' rfl with h | h <;> exact absurd h (by decide)
    rw [String.toList_empty, List.nil_append, withoutPrefix, hno, Option.getD_none]
    refine ⟨rfl, fun c hc => ?_⟩
    rcases hr c hc with rfl | rfl <;> decide
  · refine ⟨?_, ?_⟩
    · have hyes : dropPrefix? ['?'] ("?".toList ++ rest) = some rest := dropPrefix?_append ['?'] rest
      rw [withoutPrefix, hyes, Option.getD_some]
    · rintro c ⟨⟩
      decide

private theorem IsMarkedName.not_isBlank {name : List Char} (h : IsMarkedName language name) :
    ∀ c ∈ name, isBlank c = false := by
  obtain ⟨mark, hmark, bare, hbare, rfl⟩ := h
  intro c hc
  rcases List.mem_append.mp hc with hc | hc
  · rcases eq_of_mem_mark hmark hc with rfl | rfl <;> decide
  · exact not_isBlank_of_isName hbare c hc

private theorem Writable.trim_declaration (h : Writable language p) {ending : String}
    (he : ending ∈ nameEnds language) :
    trim (Prompt.declaration { p with name := p.name ++ ending }).toList =
      p.name.toList ++ (ending.toList ++ (typeSuffix p.type ++ defaultSuffix p.default)) := by
  have hending : ∀ c ∈ ending.toList, isBlank c = false := by
    rcases eq_of_mem_nameEnds he with rfl | rfl <;> exact noBlank_iff.mp (by decide)
  have hname : Trimmed (p.name.toList ++ ending.toList) := by
    have hne : p.name.toList ≠ [] := by
      obtain ⟨mark, -, bare, hbare, hcut⟩ := h.name
      simp [hcut, hbare.ne_nil]
    apply Phrase.toTrimmed
    apply phrase_of_not_blank (by simp [hne])
    intro c hc
    rcases List.mem_append.mp hc with hc | hc
    · exact h.name.not_isBlank c hc
    · exact hending c hc
  rw [toList_declaration, String.toList_append, (hname.append h.getLast?_behindName).trim_eq_self,
    List.append_assoc]

/-- A written parameter is read from its segment. -/
theorem ofSegment?_written {segment : List Char} (h : Written language p segment) :
    ofSegment? language (trim segment) = some p := by
  obtain ⟨hp, ending, hending, rfl⟩ := h
  obtain ⟨mark, hmark, bare, hbare, hname⟩ := hp.name
  obtain ⟨typePart, default, hsplit, htype, hdefault⟩ := hp.read_behindName
  have hhead : ∀ c ∈ (typeSuffix p.type ++ defaultSuffix p.default).head?, c = ':' ∨ c = ' ' :=
    fun c => head?_behindName
  have hback : Parameter.mk (String.ofList p.name.toList) ((p.type.map String.toList).map String.ofList)
      ((p.default.map String.toList).map String.ofList) = p := by
    simp [Function.comp_def]
  rw [hp.trim_declaration hending]
  cases language with
  | python =>
    obtain rfl := List.mem_singleton.mp hending
    have hread : starredName?
        (p.name.toList ++ ("".toList ++ (typeSuffix p.type ++ defaultSuffix p.default))) =
        some (p.name.toList, typeSuffix p.type ++ defaultSuffix p.default) := by
      rw [hname, List.append_assoc]
      refine starredName?_append hmark hbare fun c hc => ?_
      rcases hhead c hc with rfl | rfl <;> decide
    simp only [ofSegment?, hread, Option.map_some, hsplit, htype, hdefault, hback]
  | javaScript =>
    obtain ⟨hrest, hpart⟩ := withoutPrefix_ending hending hhead
    have hread : restName?
        (p.name.toList ++ (ending.toList ++ (typeSuffix p.type ++ defaultSuffix p.default))) =
        some (p.name.toList, typeSuffix p.type ++ defaultSuffix p.default) := by
      have hrestName := restName?_append hmark hbare hpart
      rwa [hrest, ← List.append_assoc, ← hname] at hrestName
    simp only [ofSegment?, hread, Option.map_some, hsplit, htype, hdefault, hback]

/-! ## Lists of declarations -/

private theorem IsMarkedName.comma_not_mem {name : List Char} (h : IsMarkedName language name) : ',' ∉ name := by
  obtain ⟨mark, hmark, bare, ⟨first, rest, rfl, hfirst, hrest⟩, rfl⟩ := h
  have hstart : nameStart language ',' = false := by cases language <;> decide
  have hpart : namePart language ',' = false := by cases language <;> decide
  rw [List.mem_append, List.mem_cons]
  rintro (hc | rfl | hc)
  · rcases eq_of_mem_mark hmark hc with he | he <;> exact absurd he (by decide)
  · exact absurd hfirst (by simp [hstart])
  · exact absurd (hrest ',' hc) (by simp [hpart])

private theorem Written.comma_not_mem {segment : List Char} (h : Written language p segment) :
    ',' ∉ segment := by
  obtain ⟨hp, ending, hending, rfl⟩ := h
  have hmark : ',' ∉ ending.toList := by
    rcases eq_of_mem_nameEnds hending with rfl | rfl <;> decide
  have htype : ',' ∉ typeSuffix p.type := by
    cases ht : p.type with
    | none => simp [typeSuffix]
    | some type => simp [typeSuffix, (hp.type type ht).2.1]
  have hdefault : ',' ∉ defaultSuffix p.default := by
    cases hd : p.default with
    | none => simp [defaultSuffix]
    | some value => simp [defaultSuffix, (hp.default value hd).2]
  simp [toList_declaration, hp.name.comma_not_mem, hmark, htype, hdefault]

private theorem Nameless.not_nameStart {segment : List Char} (h : Nameless language segment) :
    ∀ mark ∈ marks language, ∀ c rest, trim segment = mark ++ c :: rest →
      nameStart language c = false := by
  rcases h with hb | h
  · have htrim := trim_append_of_blank (b := []) hb rfl []
    rw [List.append_nil, List.append_nil] at htrim
    intro mark _ c rest he
    rw [htrim] at he
    exact absurd he.symm (by simp [trim, trimStart, trimEnd])
  · exact h

private theorem name?_eq_none {start part : Char → Bool} {s : List Char}
    (h : ∀ c rest, s = c :: rest → start c = false) : name? start part s = none := by
  cases s with
  | nil => rfl
  | cons c rest => rw [name?, h c rest rfl, if_neg Bool.false_ne_true]

/-- A segment without a name declares nothing. -/
theorem ofSegment?_of_nameless {segment : List Char} (h : Nameless language segment) :
    ofSegment? language (trim segment) = none := by
  have hmarked : ∀ mark ∈ marks language, ∀ rest, trim segment = mark ++ rest →
      name? (nameStart language) (namePart language) rest = none :=
    fun mark hm rest hs => name?_eq_none fun c below he => h.not_nameStart mark hm c below (he ▸ hs)
  generalize trim segment = s at hmarked
  cases language with
  | python =>
    have hread : starredName? s = none := by
      rw [starredName?.eq_def]
      split
      · rename_i rest
        exact Option.map_eq_none_iff.mpr (hmarked ['*', '*'] (by decide) rest rfl)
      · rename_i rest _
        exact Option.map_eq_none_iff.mpr (hmarked ['*'] (by decide) rest rfl)
      · exact hmarked [] (by decide) s rfl
    rw [ofSegment?, hread]
    rfl
  | javaScript =>
    have hread : restName? s = none := by
      rw [restName?, Option.map_eq_none_iff]
      split
      · rename_i hs
        obtain ⟨rest, rfl⟩ := List.isPrefixOf_iff_prefix.mp hs
        exact hmarked ['.', '.', '.'] (by decide) rest rfl
      · exact hmarked [] (by decide) s rfl
    rw [ofSegment?, hread]
    rfl

private theorem parse_intercalate {segments : List (List Char)} (h : ∀ segment ∈ segments, ',' ∉ segment) :
    parse language ([','].intercalate segments) =
      segments.filterMap fun segment => ofSegment? language (trim segment) := by
  cases segments with
  | nil => cases language <;> rfl
  | cons first rest => rw [parse, splitOnChar_eq_splitOn, List.splitOn_intercalate ',' h (by simp)]

variable {segments padded : List (List Char)}

private theorem Padded.comma_not_mem (h : Padded language segments padded)
    (hs : ∀ segment ∈ segments, ',' ∉ segment) : ∀ segment ∈ padded, ',' ∉ segment := by
  have hblank {s : List Char} (hb : allBlank s) : ',' ∉ s := fun hc =>
    absurd (List.all_eq_true.mp hb ',' hc) (by decide)
  induction h with
  | nil => exact hs
  | keep before segment after hb ha _ ih =>
    rw [List.forall_mem_cons] at hs ⊢
    exact ⟨by simp [hblank hb, hblank ha, hs.1], ih hs.2⟩
  | add segment hc _ _ ih => exact List.forall_mem_cons.mpr ⟨hc, ih hs⟩

/-- Segments that declare nothing and blanks around the others make no difference. -/
theorem Padded.parse_eq (h : Padded language segments padded)
    (hs : ∀ segment ∈ segments, ',' ∉ segment) :
    parse language ([','].intercalate padded) = parse language ([','].intercalate segments) := by
  rw [parse_intercalate (h.comma_not_mem hs), parse_intercalate hs]
  clear hs
  induction h with
  | nil => rfl
  | keep before segment after hb ha _ ih =>
    rw [List.filterMap_cons, List.filterMap_cons, trim_append_of_blank hb ha, ih]
  | add segment _ hn _ ih => rw [List.filterMap_cons, ofSegment?_of_nameless hn, ih]

/-- A blank behind each comma is a blank in front of the next segment. -/
theorem exists_padded_intercalate (language : Language) (before first : List Char)
    (rest : List (List Char)) (hb : allBlank before) :
    ∃ padded, Padded language (first :: rest) padded ∧
      before ++ [',', ' '].intercalate (first :: rest) = [','].intercalate padded := by
  induction rest generalizing before first with
  | nil =>
    refine ⟨[before ++ (first ++ [])], .keep before first [] hb rfl .nil, ?_⟩
    rw [List.intercalate_singleton, List.intercalate_singleton, List.append_nil]
  | cons second rest ih =>
    obtain ⟨padded, hp, htext⟩ := ih [' '] second rfl
    refine ⟨(before ++ (first ++ [])) :: padded, .keep before first [] hb rfl hp, ?_⟩
    have hne : padded ≠ [] := by
      rintro rfl
      cases hp
    rw [List.intercalate_cons_cons, List.intercalate_cons_of_ne_nil hne, ← htext]
    simp

private theorem comma_not_mem_of_written {ps : List Parameter}
    (h : List.Forall₂ (Written language) ps segments) :
    ∀ segment ∈ segments, ',' ∉ segment := by
  induction h with
  | nil => simp
  | cons hp _ ih => exact List.forall_mem_cons.mpr ⟨hp.comma_not_mem, ih⟩

/-- Declarations with commas between them are told apart again. -/
theorem parse_written {ps : List Parameter} (h : List.Forall₂ (Written language) ps segments) :
    parse language ([','].intercalate segments) = ps := by
  rw [parse_intercalate (comma_not_mem_of_written h)]
  induction h with
  | nil => rfl
  | cons hp _ ih => rw [List.filterMap_cons, ofSegment?_written hp, ih]

/-- A list of declarations is read as it was written, in order and with what is declared twice. Blank
segments, and those at whose head no name stands, may be anywhere between them. -/
theorem parse_declarations {ps : List Parameter} (h : List.Forall₂ (Written language) ps segments) :
    parse language ([',', ' '].intercalate segments) = ps ∧
      ∀ padded, Padded language segments padded → parse language ([','].intercalate padded) = ps := by
  have hpadded : ∀ padded, Padded language segments padded →
      parse language ([','].intercalate padded) = ps :=
    fun padded hp => (hp.parse_eq (comma_not_mem_of_written h)).trans (parse_written h)
  refine ⟨?_, hpadded⟩
  cases segments with
  | nil => exact hpadded [] .nil
  | cons first rest =>
    obtain ⟨padded, hp, htext⟩ := exists_padded_intercalate language [] first rest rfl
    rw [← List.nil_append (List.intercalate _ _), htext]
    exact hpadded padded hp

/-- Two arrows, one of them with an equals sign behind it, a name that comes twice, and between the
declarations a brace and nothing at all. -/
theorem parse_declarations_arrows :
    let ps : List Parameter := [
      { name := "...f", type := some "(x: A) => B", default := some "y => y == 1" },
      { name := "a" }, { name := "a", default := some "[]" }]
    parse .javaScript "...f?: (x: A) => B = y => y == 1, a, a = []".toList = ps ∧
      parse .javaScript " \x7b,...f?: (x: A) => B = y => y == 1 ,,a, a = [],\t".toList = ps := by
  have htrimmed (s : List Char) (hs : content? s = some s) : Trimmed s := (trimmed_of_content? hs).1
  have hf : Written .javaScript
      { name := "...f", type := some "(x: A) => B", default := some "y => y == 1" }
      "...f?: (x: A) => B = y => y == 1".toList := by
    refine ⟨⟨⟨['.', '.', '.'], by decide, ['f'], ⟨'f', [], rfl, rfl, by simp⟩, rfl⟩, ?_, ?_⟩,
      "?", by decide, by decide⟩
    · rintro type ⟨⟩
      exact ⟨htrimmed _ (by decide), by decide, by decide⟩
    · rintro value ⟨⟩
      exact ⟨htrimmed _ (by decide), by decide⟩
  have ha : IsMarkedName .javaScript "a".toList :=
    ⟨[], by decide, ['a'], ⟨'a', [], rfl, rfl, by simp⟩, rfl⟩
  have hplain : Written .javaScript { name := "a" } ['a'] :=
    ⟨⟨ha, by simp, by simp⟩, "", by decide, by decide⟩
  have hlist : Written .javaScript { name := "a", default := some "[]" } "a = []".toList := by
    refine ⟨⟨ha, by simp, ?_⟩, "", by decide, by decide⟩
    rintro value ⟨⟩
    exact ⟨htrimmed _ (by decide), by decide⟩
  obtain ⟨hjoined, hpadded⟩ := parse_declarations (.cons hf (.cons hplain (.cons hlist .nil)))
  have hbrace : Nameless .javaScript " \x7b".toList := by
    refine .inr fun mark hm c rest he => ?_
    simp only [marks, List.mem_cons, List.not_mem_nil, or_false] at hm
    rcases hm with rfl | rfl
    · obtain rfl := (List.cons_eq_cons.mp he).1
      rfl
    · exact absurd (List.cons_eq_cons.mp he).1 (by decide)
  have hmore : Padded .javaScript [['a'], "a = []".toList] _ :=
    .add [] (by decide) (.inl rfl) (.keep [] _ [] rfl rfl
      (.keep [' '] _ [] rfl rfl (.add ['\t'] (by decide) (.inl rfl) .nil)))
  exact ⟨hjoined, hpadded _ (.add _ (by decide) hbrace (.keep [] _ [' '] rfl rfl hmore))⟩

end DocComments.Parameters
