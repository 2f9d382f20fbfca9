import DocComments.Proofs.Scan.WellFormed

/-! The fields of an extracted definition. What its header and the lines around it give is checked once
for all languages: names and types are those of the grammar, nothing is said of a class that belongs to
a function, and a method does not count its receiver. -/
namespace DocComments
open Text Parameters

namespace Header

/-- What a header says goes with its kind and with its language. -/
structure Consistent (language : Language) (head : Header) : Prop where
  ofClass : head.kind = .class_ → head.parameters = [] ∧ head.returnType = none ∧ head.isAsync = false
  ofJavaScript : language = .javaScript → head.kind ≠ .class_ ∧ head.name ∉ JavaScript.reserved

private theorem Consistent.of_function {head : Header} (h : head.kind ≠ .class_) : Consistent .python head where
  ofClass := fun hc => absurd hc h
  ofJavaScript := by rintro ⟨⟩

private theorem consistent_of_header? {language : Language} {number : Nat} {line : Line} {head : Header}
    (h : (grammarOf language).header? number line = .ok (some head)) : head.Consistent language := by
  cases language with
  | python =>
    obtain ⟨c, hmade, ⟨-, hkind⟩ | ⟨hclass, -⟩⟩ := Python.madeOf_of_header? h
    · exact .of_function hkind
    · obtain ⟨_, name, _, _, _, hgroups⟩ := Python.exists_of_class? hclass
      refine ⟨fun _ => ?_, by rintro ⟨⟩⟩
      rw [hmade.parameters, hmade.returnType, hmade.isAsync, hgroups]
      exact ⟨rfl, rfl, rfl⟩
  | javaScript =>
    obtain ⟨pattern, hp, c, -, -, hkind, hname⟩ := JavaScript.madeBy_of_header? h
    have hclass : ∀ pattern ∈ JavaScript.patterns, pattern.kind ≠ .class_ := by simp [JavaScript.patterns]
    have hnot : head.kind ≠ .class_ := hkind ▸ hclass pattern hp
    exact ⟨fun hc => absurd hc hnot, fun _ => ⟨hnot, hname⟩⟩

end Header

/-! ## Documentation -/

namespace Doc

private theorem Docstring.exists_text_eq_trim {lines : List Line} {header last : Nat} {block : Block}
    (h : locate? lines header last = some block) : ∃ s, block.text = trim s := by
  rw [locate?] at h
  generalize (body lines (bodyStart lines header) last).drop _ = rest at h
  cases rest with
  | nil => simp [atHead?] at h
  | cons line below =>
    rw [atHead?] at h
    split at h
    · simp at h
    · split at h
      · obtain rfl := Option.some.inj h
        exact ⟨_, rfl⟩
      · obtain ⟨_, _, rfl⟩ := Option.map_eq_some_iff.mp h
        exact ⟨_, rfl⟩

private theorem Jsdoc.exists_text_eq_trim {lines : List Line} {header floor : Nat} {block : Block}
    (h : locate? lines header floor = some block) : ∃ s, block.text = trim s := by
  rw [locate?] at h
  split at h
  · split at h
    · simp at h
    · split at h
      · obtain ⟨_, _, rfl⟩ := Option.map_eq_some_iff.mp h
        exact ⟨_, rfl⟩
      · simp at h
  · simp at h

end Doc

private theorem trimmed_of_doc? {language : Language} {lines : List Line} {header last floor : Nat}
    {text : List Char} (h : (grammarOf language).doc? lines header last floor = some text) :
    text = [] ∨ Trimmed text := by
  cases language with
  | python =>
    obtain ⟨block, hb, rfl⟩ := Option.map_eq_some_iff.mp h
    obtain ⟨s, hs⟩ := Doc.Docstring.exists_text_eq_trim hb
    exact hs ▸ trim_eq_nil_or_trimmed s
  | javaScript =>
    obtain ⟨block, hb, rfl⟩ := Option.map_eq_some_iff.mp h
    obtain ⟨s, hs⟩ := Doc.Jsdoc.exists_text_eq_trim hb
    exact hs ▸ trim_eq_nil_or_trimmed s

/-! ## Receivers -/

namespace Parameters

/-- The names by which a method calls its receiver. -/
def receivers : List (List Char) := [['s', 'e', 'l', 'f'], ['c', 'l', 's']]

/-- A receiver in front of the other parameters is dropped, and it alone. -/
theorem parse_eq_receiver_cons {text first : List Char} {rest : List (List Char)}
    (hs : splitOnChar ',' text = first :: rest) (hr : trim first ∈ receivers) :
    parse .python text =
      { name := String.ofList (trim first) } :: withoutReceiver (parse .python text) := by
  have hsegment : ofSegment? .python (trim first) = some { name := String.ofList (trim first) } ∧
      isReceiver { name := String.ofList (trim first) } := by
    simp only [receivers, List.mem_cons, List.not_mem_nil, or_false] at hr
    rcases hr with hr | hr <;> rw [hr] <;> decide
  have hparse : parse .python text = { name := String.ofList (trim first) } ::
      rest.filterMap fun segment => ofSegment? .python (trim segment) := by
    rw [parse, hs, List.filterMap_cons, hsegment.1]
  rw [hparse, withoutReceiver, if_pos hsegment.2]

end Parameters

/-! ## Definitions -/

/-- What every definition found in the lines is like. -/
structure Definition.Regular (language : Language) (lines : List Line) (d : Definition) : Prop where
  name : IsName (nameStart language) (namePart language) d.name.toList
  ofClass : d.kind = .class_ → d.parameters = [] ∧ d.returnType = none ∧ d.isAsync = false
  ofJavaScript : language = .javaScript →
    d.kind ≠ .class_ ∧ d.decorators = [] ∧ d.name.toList ∉ Header.JavaScript.reserved
  parameters : ∀ p ∈ d.parameters, IsMarkedName language p.name.toList ∧
    (∀ type ∈ p.type, Phrase type.toList ∧ ',' ∉ type.toList) ∧
    ∀ value ∈ p.default, Phrase value.toList ∧ ',' ∉ value.toList
  returnType : ∀ type ∈ d.returnType, Phrase type.toList
  existingDoc : ∀ doc ∈ d.existingDoc, doc = "" ∨ Trimmed doc.toList
  generatedDoc : d.generatedDoc = none
  /-- Where the text between the parentheses begins with a receiver, the parameters are all the others. -/
  receiver : language = .python → ∃ line head, lines[d.startLine - 1]? = some line ∧
    (grammarOf .python).Reads line (some head) ∧
    ∀ first rest, splitOnChar ',' head.parameters = first :: rest → trim first ∈ receivers →
      parse .python head.parameters = { name := String.ofList (trim first) } :: d.parameters

/-- A definition found in a source is regular, whatever the source. -/
theorem regular_of_mem_extract {language : Language} {source : String} {d : Definition}
    (h : d ∈ extract language source) : d.Regular language (linesOf source) := by
  have hwf := wellFormed_of_mem_extract h
  obtain ⟨o, ho⟩ := Outline.exists_lines_eq (grammarOf_local language) (linesOf source)
  rw [o.extract_eq ho] at h
  obtain ⟨p, upper, lower, hlines, hp, rfl⟩ := Part.exists_of_mem_definitions o.stacked [] h
  have hhead := Header.consistent_of_header? (hp.header 0)
  refine {
    name := hwf.name
    ofClass := fun hc => ?_
    ofJavaScript := ?_
    parameters := fun parameter hmem => ?_
    returnType := hwf.returnType
    existingDoc := fun doc hd => ?_
    generatedDoc := rfl
    receiver := ?_ }
  · obtain ⟨hparameters, htype, hasync⟩ := hhead.ofClass hc
    refine ⟨?_, ?_, hasync⟩
    · rw [Part.definition, hparameters]
      cases language <;> rfl
    · rw [Part.definition, htype]
      rfl
  · rintro rfl
    obtain ⟨hkind, hname⟩ := hhead.ofJavaScript rfl
    exact ⟨hkind, rfl, by rwa [Part.definition, String.toList_ofList]⟩
  · obtain ⟨segment, hline, hcomma, hdeclared⟩ := hwf.parameters parameter hmem
    refine ⟨hdeclared.name, fun type ht => ?_, fun value hv => ?_⟩
    · obtain ⟨htrim, htext⟩ := hdeclared.type type ht
      exact ⟨⟨htrim, fun hc => hline (htext.subset hc)⟩, fun hc => hcomma (htext.subset hc)⟩
    · obtain ⟨htrim, htext⟩ := hdeclared.default value hv
      exact ⟨⟨htrim, fun hc => hline (htext.subset hc)⟩, fun hc => hcomma (htext.subset hc)⟩
  · obtain ⟨text, ht, rfl⟩ := Option.map_eq_some_iff.mp hd
    rcases trimmed_of_doc? ht with rfl | htrim
    · exact .inl rfl
    · exact .inr (by rwa [String.toList_ofList])
  · rintro rfl
    refine ⟨p.header, p.head, ?_, hp.header, fun first rest hs hr => parse_eq_receiver_cons hs hr⟩
    have hfile : linesOf source = upper ++ (p.lines ++ lower) := by
      rw [← ho, Outline.lines, ← hlines, List.nil_append]
    rw [hfile]
    simp [Part.definition, Part.lines]

/-- An asynchronous method with a receiver, a typed parameter, a starred one and a docstring behind a
blank line. -/
theorem regular_of_mem_extract_method :
    let source := " async def f( self , a: int=1, *b) -> T : pass\n\n  '''\tDoc. '''\n"
    let d : Definition := {
      name := "f", kind := .method,
      parameters := [{ name := "a", type := some "int", default := some "1" }, { name := "*b" }],
      returnType := some "T", existingDoc := some "Doc.", startLine := 1, endLine := 3,
      code := " async def f( self , a: int=1, *b) -> T : pass\n\n  '''\tDoc. '''", isAsync := true }
    extract .python source = [d] ∧ d.Regular .python (linesOf source) := by
  intro source d
  have h : extract .python source = [d] := by decide +kernel
  exact ⟨h, regular_of_mem_extract (h ▸ List.mem_singleton_self d)⟩

end DocComments
