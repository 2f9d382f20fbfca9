import DocComments.Extract
import DocComments.Proofs.Text.Blank
import DocComments.Proofs.Text.Find
import Mathlib.Data.Option.Basic

/-! What a header says is taken from its line. Every step of a pattern goes on with the end of the
text it was given, so that what it captures there stands on the line: a name, the text between two
parentheses, and a type without blanks around it. A match captures all that a header needs, so that
every line can be read. -/
namespace DocComments

namespace Parameters

/-- A name: a character that may start one, and some that may go on with it. -/
def IsName (start part : Char → Bool) (name : List Char) : Prop :=
  ∃ c rest, name = c :: rest ∧ start c ∧ ∀ d ∈ rest, part d

theorem name?_eq_some {start part : Char → Bool} {s name rest : List Char}
    (h : name? start part s = some (name, rest)) : s = name ++ rest ∧ IsName start part name := by
  cases s with
  | nil => simp [name?] at h
  | cons c s =>
    rw [name?] at h
    split at h
    · rename_i hc
      obtain ⟨rfl, rfl⟩ := Prod.mk.inj (Option.some.inj h)
      refine ⟨by simp, c, _, rfl, hc, fun d hd => ?_⟩
      exact List.all_eq_true.mp (List.all_takeWhile (p := part) (l := s)) d hd
    · simp at h

def nameStart : Language → Char → Bool
  | .python => isNameStart
  | .javaScript => isDollarNameStart

def namePart : Language → Char → Bool
  | .python => Text.isWord
  | .javaScript => isDollarNamePart

theorem IsName.ne_nil {start part : Char → Bool} {name : List Char} (h : IsName start part name) :
    name ≠ [] := by
  obtain ⟨c, rest, rfl, -⟩ := h
  simp

end Parameters

open Parameters in
/-- What a pattern of the language captures from the text. The name is always there. -/
structure Captures.WellFormed (language : Language) (s : List Char) (c : Captures) : Prop where
  name : ∃ name, c.name = some name ∧
    IsName (nameStart language) (namePart language) name ∧ name <:+: s
  parameters : ∀ text ∈ c.parameters, text <:+: s
  returnType : ∀ type ∈ c.returnType, Text.Trimmed type ∧ type <:+: s

private theorem Captures.WellFormed.of_suffix {language : Language} {s rest : List Char} {c : Captures}
    (h : c.WellFormed language rest) (hs : rest <:+ s) : c.WellFormed language s where
  name := by
    obtain ⟨name, hc, hname, hinfix⟩ := h.name
    exact ⟨name, hc, hname, hinfix.trans hs.isInfix⟩
  parameters := fun text ht => (h.parameters text ht).trans hs.isInfix
  returnType := fun type ht => ⟨(h.returnType type ht).1, (h.returnType type ht).2.trans hs.isInfix⟩

namespace Header
open Text Parameters

structure MadeOf (c : Captures) (head : Header) : Prop where
  name : c.name = some head.name
  parameters : head.parameters = c.parameters.getD []
  returnType : head.returnType = c.returnType
  isAsync : head.isAsync = c.isAsync
  tail : head.tail = c.tail

/-- The name and the parameters of a header stand in the text, and the name is not empty. -/
structure Captured (s : List Char) (head : Header) : Prop where
  name_ne_nil : head.name ≠ []
  name : head.name <:+: s
  parameters : head.parameters <:+: s

/-- Beyond that, the name is one of the grammar, and a return type has no blanks around it. -/
structure WellFormed (language : Language) (s : List Char) (head : Header) : Prop
    extends Captured s head where
  isName : IsName (nameStart language) (namePart language) head.name
  returnType : ∀ type ∈ head.returnType, Trimmed type ∧ type <:+: s

theorem MadeOf.wellFormed {language : Language} {s : List Char} {c : Captures} {head : Header}
    (h : head.MadeOf c) (hc : c.WellFormed language s) : head.WellFormed language s := by
  obtain ⟨name, hname, hisName, hinfix⟩ := hc.name
  obtain rfl : head.name = name := Option.some.inj (h.name.symm.trans hname)
  refine ⟨⟨hisName.ne_nil, hinfix, ?_⟩, hisName, h.returnType ▸ hc.returnType⟩
  rw [h.parameters]
  cases hparameters : c.parameters with
  | none => exact List.nil_infix
  | some text => exact hc.parameters text hparameters

variable {s rest : List Char}

private theorem suffix_of_trimStart_eq_cons {c : Char} (h : trimStart s = c :: rest) : rest <:+ s := by
  have hs : c :: rest <:+ s := h ▸ List.dropWhile_suffix isBlank
  exact (List.suffix_cons c rest).trans hs

theorem suffix_of_keyword? {word : List Char} (h : keyword? word s = some rest) : rest <:+ s := by
  rw [keyword?] at h
  split at h
  · rename_i c below hp
    split at h
    · obtain rfl := Option.some.inj h
      exact (List.dropWhile_suffix isBlank).trans
        ((List.suffix_cons c below).trans (suffix_of_dropPrefix? hp))
    · simp at h
  · simp at h

private theorem skipKeyword_suffix (word s : List Char) : skipKeyword word s <:+ s := by
  rw [skipKeyword]
  cases hk : keyword? word s with
  | none => exact List.suffix_rfl
  | some rest => exact suffix_of_keyword? hk

theorem skipAsync_suffix (s : List Char) : (skipAsync s).2 <:+ s := by
  rw [skipAsync]
  cases hk : keyword? asyncWord s with
  | none => exact List.suffix_rfl
  | some rest => exact suffix_of_keyword? hk

theorem suffix_of_open? (h : open? s = some rest) : rest <:+ s := by
  rw [open?] at h
  split at h
  · rename_i below ht
    obtain rfl := Option.some.inj h
    exact suffix_of_trimStart_eq_cons ht
  · simp at h

/-- What stands in front of a closing parenthesis, and what is accepted behind it. -/
theorem exists_of_close? {α : Type} {accept : List Char → Option α} {before : List Char} {a : α}
    (h : close? accept s = some (before, a)) :
    before <+: s ∧ ∃ rest, rest <:+ s ∧ accept rest = some a := by
  induction s generalizing before a with
  | nil => simp [close?] at h
  | cons c s ih =>
    rw [close?] at h
    split at h
    · rename_i hc
      obtain ⟨rfl, rfl⟩ := Prod.mk.inj (Option.some.inj h)
      refine ⟨List.nil_prefix, s, List.suffix_cons c s, ?_⟩
      split at hc
      · exact hc
      · cases hc
    · obtain ⟨⟨inner, _⟩, hc, he⟩ := Option.map_eq_some_iff.mp h
      obtain ⟨rfl, rfl⟩ := Prod.mk.inj he
      obtain ⟨hbefore, rest, hs, ha⟩ := ih hc
      exact ⟨List.cons_prefix_cons.mpr ⟨rfl, hbefore⟩, rest, hs.trans (List.suffix_cons c s), ha⟩

private theorem upTo?_eq_some {stop : Char} {text : List Char} (h : upTo? stop s = some (text, rest)) :
    text <+: s ∧ rest <:+ s := by
  rw [upTo?] at h
  split at h
  · rename_i c before d below ht hd
    obtain ⟨rfl, rfl⟩ := Prod.mk.inj (Option.some.inj h)
    have htext : c :: before <+: s := ht ▸ List.takeWhile_prefix _
    have hrest : d :: below <:+ s := hd ▸ List.dropWhile_suffix _
    exact ⟨htext, (List.suffix_cons d below).trans hrest⟩
  · simp at h

/-- What ends a header reads a type from its text and takes the blanks around it away. -/
def ReadsType (accept : List Char → Option (Option (List Char) × List Char)) : Prop :=
  ∀ s type tail, accept s = some (some type, tail) → Trimmed type ∧ type <:+: s

private theorem ReadsType.of_close? {accept : List Char → Option (Option (List Char) × List Char)}
    (ha : ReadsType accept) {before tail : List Char} {type : Option (List Char)}
    (h : close? accept s = some (before, type, tail)) : ∀ t ∈ type, Trimmed t ∧ t <:+: s := by
  rintro t rfl
  obtain ⟨-, rest, hs, hrest⟩ := exists_of_close? h
  exact ⟨(ha rest t tail hrest).1, (ha rest t tail hrest).2.trans hs.isInfix⟩

private theorem trimmed_of_upTo? {stop : Char} {below text type : List Char}
    (hs : below <:+ s) (hu : upTo? stop below = some (text, rest)) (hc : content? text = some type) :
    Trimmed type ∧ type <:+: s := by
  obtain ⟨htrim, htext⟩ := trimmed_of_content? hc
  exact ⟨htrim, (htext.trans (upTo?_eq_some hu).1.isInfix).trans hs.isInfix⟩

private theorem wellFormed_of_close? (language : Language) {c : Captures}
    {accept : List Char → Option (Option (List Char) × List Char)}
    {name parameters afterName afterOpen tail : List Char}
    (hn : name? (nameStart language) (namePart language) s = some (name, afterName))
    (ho : afterOpen <:+ afterName)
    (ha : ReadsType accept)
    (hc : close? accept afterOpen = some (parameters, c.returnType, tail))
    (hname : c.name = some name) (hparameters : c.parameters = some parameters) :
    c.WellFormed language s := by
  obtain ⟨hs, hisName⟩ := name?_eq_some hn
  have hprefix : name <+: s := ⟨afterName, hs.symm⟩
  have hrest : afterName <:+ s := ⟨name, hs.symm⟩
  have hopen : afterOpen <:+: s := (ho.trans hrest).isInfix
  refine ⟨⟨name, hname, hisName, hprefix.isInfix⟩, ?_, fun type ht => ?_⟩
  · rintro text ht
    obtain rfl := Option.some.inj (hparameters.symm.trans ht)
    exact (exists_of_close? hc).1.isInfix.trans hopen
  · exact ⟨(ha.of_close? hc type ht).1, (ha.of_close? hc type ht).2.trans hopen⟩

namespace Python
variable {line : Line} {c : Captures}

private theorem readsType_functionEnd? : ReadsType functionEnd? := by
  intro s type tail h
  rw [functionEnd?] at h
  split at h
  · simp at h
  · rename_i below ht
    obtain ⟨⟨text, rest⟩, hu, he⟩ := Option.map_eq_some_iff.mp h
    have hbelow : below <:+ s := (List.suffix_cons '>' below).trans (suffix_of_trimStart_eq_cons ht)
    exact trimmed_of_upTo? hbelow hu (Prod.mk.inj he).1
  · simp at h

private theorem wellFormed_function? (h : function? line = some c) : c.WellFormed .python line := by
  simp only [function?, Option.bind_eq_bind, Option.bind_eq_some_iff] at h
  obtain ⟨afterKeyword, hk, ⟨name, afterName⟩, hn, afterOpen, ho, ⟨parameters, returnType, tail⟩, hc,
    he⟩ := h
  obtain rfl := Option.some.inj he
  have hline : afterKeyword <:+ line :=
    ((suffix_of_keyword? hk).trans (skipAsync_suffix _)).trans (List.dropWhile_suffix _)
  refine Captures.WellFormed.of_suffix ?_ hline
  exact wellFormed_of_close? .python hn (suffix_of_open? ho) readsType_functionEnd? hc rfl rfl

/-- A `def` line has an indentation and parameters, even if they are empty. -/
private theorem groups_of_function? (h : function? line = some c) :
    c.indent = some (indentation line) ∧ ∃ parameters, c.parameters = some parameters := by
  simp only [function?, Option.bind_eq_bind, Option.bind_eq_some_iff] at h
  obtain ⟨_, _, _, _, _, _, ⟨parameters, _⟩, _, he⟩ := h
  obtain rfl := Option.some.inj he
  exact ⟨rfl, parameters, rfl⟩

/-- With bases or without, a `class` line says nothing but its name. -/
theorem exists_of_class? (h : class? line = some c) :
    ∃ afterKeyword name afterName, keyword? ['c', 'l', 'a', 's', 's'] (afterIndent line) = some afterKeyword ∧
      name? isNameStart isWord afterKeyword = some (name, afterName) ∧
      c = { indent := some (indentation line), name := some name, tail := c.tail } := by
  simp only [class?, Option.bind_eq_bind, Option.bind_eq_some_iff] at h
  obtain ⟨afterKeyword, hk, ⟨name, afterName⟩, hn, h⟩ := h
  refine ⟨afterKeyword, name, afterName, hk, hn, ?_⟩
  split at h
  · obtain ⟨tail, -, he⟩ := Option.bind_eq_some_iff.mp h
    exact Option.some.inj he ▸ rfl
  · obtain ⟨tail, -, he⟩ := Option.bind_eq_some_iff.mp h
    exact Option.some.inj he ▸ rfl

private theorem wellFormed_class? (h : class? line = some c) : c.WellFormed .python line := by
  obtain ⟨afterKeyword, name, afterName, hk, hn, hc⟩ := exists_of_class? h
  obtain ⟨hs, hname⟩ := name?_eq_some hn
  have hline : afterKeyword <:+ line := (suffix_of_keyword? hk).trans (List.dropWhile_suffix _)
  have hprefix : name <+: afterKeyword := ⟨afterName, hs.symm⟩
  rw [hc]
  exact ⟨⟨name, rfl, hname, hprefix.isInfix.trans hline.isInfix⟩, by simp, by simp⟩

private theorem exists_ofFunction_eq_ok (h : function? line = some c) :
    ∃ head, (∀ number, ofFunction number c = .ok head) ∧ head.MadeOf c ∧ head.kind ≠ .class_ := by
  obtain ⟨hindent, parameters, hparameters⟩ := groups_of_function? h
  obtain ⟨name, hname, -⟩ := (wellFormed_function? h).name
  refine ⟨⟨if (indentation line).isEmpty then .function else .method, name, parameters, c.returnType,
    c.isAsync, c.tail⟩, fun number => ?_, ⟨hname, by rw [hparameters]; rfl, rfl, rfl, rfl⟩, ?_⟩
  · rw [ofFunction, hindent, hname, hparameters]
    rfl
  · simp only
    split <;> simp

private theorem exists_ofClass_eq_ok (h : class? line = some c) :
    ∃ head, (∀ number, ofClass number c = .ok head) ∧ head.MadeOf c ∧ head.kind = .class_ := by
  obtain ⟨_, name, _, _, _, hgroups⟩ := exists_of_class? h
  rw [hgroups]
  exact ⟨⟨.class_, name, [], none, false, c.tail⟩, fun _ => rfl, ⟨rfl, rfl, rfl, rfl, rfl⟩, rfl⟩

/-- Every line can be read: no match lacks a group that a header needs. -/
theorem exists_header?_eq_ok (line : Line) :
    ∃ found, (∀ number, header? number line = .ok found) ∧ ∀ head ∈ found, ∃ c, head.MadeOf c ∧
      (function? line = some c ∧ head.kind ≠ .class_ ∨ class? line = some c ∧ head.kind = .class_) := by
  cases hf : function? line with
  | some c =>
    obtain ⟨head, hread, hmade, hkind⟩ := exists_ofFunction_eq_ok hf
    refine ⟨some head, fun number => by simp only [header?, hf, hread, Except.map], ?_⟩
    rintro _ ⟨⟩
    exact ⟨c, hmade, .inl ⟨rfl, hkind⟩⟩
  | none =>
    cases hc : class? line with
    | some c =>
      obtain ⟨head, hread, hmade, hkind⟩ := exists_ofClass_eq_ok hc
      refine ⟨some head, fun number => by simp only [header?, hf, hc, hread, Except.map], ?_⟩
      rintro _ ⟨⟩
      exact ⟨c, hmade, .inr ⟨rfl, hkind⟩⟩
    | none => exact ⟨none, fun number => by rw [header?, hf, hc], by simp⟩

variable {number : Nat} {head : Header}

theorem madeOf_of_header? (h : header? number line = .ok (some head)) :
    ∃ c, head.MadeOf c ∧
      (function? line = some c ∧ head.kind ≠ .class_ ∨ class? line = some c ∧ head.kind = .class_) := by
  obtain ⟨found, hread, hmade⟩ := exists_header?_eq_ok line
  exact hmade head (Except.ok.inj ((hread number).symm.trans h))

theorem wellFormed_header? (h : header? number line = .ok (some head)) : head.WellFormed .python line := by
  obtain ⟨c, hc, ⟨hf, -⟩ | ⟨hf, -⟩⟩ := madeOf_of_header? h
  · exact hc.wellFormed (wellFormed_function? hf)
  · exact hc.wellFormed (wellFormed_class? hf)

end Python

namespace JavaScript
variable {line s : List Char} {c : Captures}

private theorem readsType_braceEnd? : ReadsType braceEnd? := by
  intro s type tail h
  rw [braceEnd?] at h
  split at h
  · simp at h
  · rename_i below ht
    obtain ⟨⟨text, rest⟩, hu, he⟩ := Option.map_eq_some_iff.mp h
    exact trimmed_of_upTo? (suffix_of_trimStart_eq_cons ht) hu (Prod.mk.inj he).1
  · simp at h

private theorem readsType_arrowEnd? : ReadsType arrowEnd? := by
  intro s type tail h
  rw [arrowEnd?] at h
  split at h
  · obtain ⟨below, -, he⟩ := Option.map_eq_some_iff.mp h
    simp at he
  · rename_i below ht
    split at h
    · rename_i text rest hu
      obtain ⟨after, -, he⟩ := Option.map_eq_some_iff.mp h
      exact trimmed_of_upTo? (suffix_of_trimStart_eq_cons ht) hu (Prod.mk.inj he).1
    · simp at h
  · simp at h

private theorem suffix_of_skipTypeParameters? {rest : List Char}
    (h : skipTypeParameters? s = some rest) : rest <:+ s := by
  rw [skipTypeParameters?] at h
  split at h
  · rename_i below ht
    split at h
    · rename_i rest' hd
      obtain rfl := Option.some.inj h
      have hbelow : '>' :: rest' <:+ below := by
        rw [← hd]
        exact List.dropWhile_suffix _
      exact ((List.suffix_cons _ _).trans hbelow).trans (suffix_of_trimStart_eq_cons ht)
    · simp at h
  · obtain rfl := Option.some.inj h
    exact List.dropWhile_suffix isBlank

private theorem wellFormed_statement? (h : statement? line = some c) : c.WellFormed .javaScript line := by
  simp only [statement?, Option.bind_eq_bind, Option.bind_eq_some_iff] at h
  obtain ⟨afterWord, hw, -, -, ⟨name, afterName⟩, hn, afterTypes, hy, afterOpen, ho,
    ⟨parameters, returnType, tail⟩, hc, he⟩ := h
  obtain rfl := Option.some.inj he
  have hname : trimStart (withoutPrefix ['*'] (trimStart afterWord)) <:+ line := by
    have hword : afterWord <:+ line :=
      (suffix_of_dropPrefix? hw).trans ((skipAsync_suffix _).trans ((skipKeyword_suffix _ _).trans
        ((skipKeyword_suffix _ _).trans (List.dropWhile_suffix _))))
    have hstar : withoutPrefix ['*'] (trimStart afterWord) <:+ trimStart afterWord :=
      withoutPrefix_suffix _ _
    exact (List.dropWhile_suffix isBlank).trans
      (hstar.trans ((List.dropWhile_suffix isBlank).trans hword))
  have hopen : afterOpen <:+ afterName := (suffix_of_open? ho).trans (suffix_of_skipTypeParameters? hy)
  refine Captures.WellFormed.of_suffix ?_ hname
  exact wellFormed_of_close? .javaScript hn hopen readsType_braceEnd? hc rfl rfl

private theorem suffix_of_bound? {rest : List Char} (h : bound? s = some rest) : rest <:+ s := by
  rw [bound?] at h
  split at h
  · rename_i below ht
    obtain rfl := Option.some.inj h
    exact suffix_of_trimStart_eq_cons ht
  · rename_i below ht
    obtain ⟨⟨type, after⟩, hu, rfl⟩ := Option.map_eq_some_iff.mp h
    exact (upTo?_eq_some hu).2.trans (suffix_of_trimStart_eq_cons ht)
  · simp at h

private theorem wellFormed_binding? (h : binding? s = some c) :
    c.WellFormed .javaScript s := by
  simp only [binding?, Option.bind_eq_bind, Option.bind_eq_some_iff] at h
  obtain ⟨⟨name, afterName⟩, hn, afterBound, hb, afterOpen, ho, ⟨parameters, returnType, tail⟩, hc,
    he⟩ := h
  obtain rfl := Option.some.inj he
  have hopen : afterOpen <:+ afterName :=
    ((((suffix_of_dropPrefix? ho).trans (skipAsync_suffix _)).trans
      (List.dropWhile_suffix isBlank)).trans (suffix_of_bound? hb))
  exact wellFormed_of_close? .javaScript hn hopen readsType_arrowEnd? hc rfl rfl

private theorem suffix_of_anyKeyword? {words : List (List Char)} {rest : List Char}
    (h : anyKeyword? words s = some rest) : rest <:+ s := by
  obtain ⟨word, -, hk⟩ := List.exists_of_findSome?_eq_some h
  exact suffix_of_keyword? hk

private theorem wellFormed_declaration? (h : declaration? s = some c) :
    c.WellFormed .javaScript s := by
  rw [declaration?, Option.orElse_eq_some] at h
  rcases h with h | ⟨-, h⟩
  · obtain ⟨rest, hk, hb⟩ := Option.bind_eq_some_iff.mp h
    exact (wellFormed_binding? hb).of_suffix (suffix_of_anyKeyword? hk)
  · exact wellFormed_binding? h

private theorem wellFormed_arrow? (h : arrow? line = some c) : c.WellFormed .javaScript line := by
  rw [arrow?] at h
  have hline : afterIndent line <:+ line := List.dropWhile_suffix _
  rw [Option.orElse_eq_some] at h
  rcases h with h | ⟨-, h⟩
  · obtain ⟨rest, hk, hd⟩ := Option.bind_eq_some_iff.mp h
    exact (wellFormed_declaration? hd).of_suffix ((suffix_of_keyword? hk).trans hline)
  · exact (wellFormed_declaration? h).of_suffix hline

private theorem wellFormed_signature? {isAsync : Bool} (h : signature? isAsync s = some c) :
    c.WellFormed .javaScript s := by
  simp only [signature?, Option.bind_eq_bind, Option.bind_eq_some_iff] at h
  obtain ⟨⟨name, afterName⟩, hn, afterOpen, ho, ⟨parameters, returnType, tail⟩, hc, he⟩ := h
  obtain rfl := Option.some.inj he
  exact wellFormed_of_close? .javaScript hn (suffix_of_open? ho) readsType_braceEnd? hc rfl rfl

private theorem wellFormed_asyncSignature? (h : asyncSignature? s = some c) :
    c.WellFormed .javaScript s := by
  rw [asyncSignature?, Option.orElse_eq_some] at h
  rcases h with h | ⟨-, h⟩
  · obtain ⟨rest, hk, hg⟩ := Option.bind_eq_some_iff.mp h
    exact (wellFormed_signature? hg).of_suffix (suffix_of_keyword? hk)
  · exact wellFormed_signature? h

private theorem wellFormed_modified? {n : Nat} (h : modified? n s = some c) :
    c.WellFormed .javaScript s := by
  induction n generalizing s with
  | zero => exact wellFormed_asyncSignature? h
  | succ n ih =>
    rw [modified?, Option.orElse_eq_some] at h
    rcases h with h | ⟨-, h⟩
    · obtain ⟨rest, hk, hm⟩ := Option.bind_eq_some_iff.mp h
      exact (ih hm).of_suffix (suffix_of_anyKeyword? hk)
    · exact wellFormed_asyncSignature? h

private theorem wellFormed_of_mem_patterns {pattern : Pattern} (hp : pattern ∈ patterns)
    (h : pattern.captures? line = some c) : c.WellFormed .javaScript line := by
  simp only [patterns, List.mem_cons, List.not_mem_nil, or_false] at hp
  rcases hp with rfl | rfl | rfl
  · exact wellFormed_statement? h
  · exact wellFormed_arrow? h
  · exact (wellFormed_modified? h).of_suffix (List.dropWhile_suffix _)

/-- What a JavaScript header is made of: what one of the patterns captured, under a name that is not
reserved. -/
def MadeBy (tried : List Pattern) (line : Line) (head : Header) : Prop :=
  ∃ pattern ∈ tried, ∃ c, pattern.captures? line = some c ∧ head.MadeOf c ∧
    head.kind = pattern.kind ∧ head.name ∉ reserved

theorem MadeBy.cons {tried : List Pattern} {head : Header} (h : MadeBy tried line head)
    (pattern : Pattern) : MadeBy (pattern :: tried) line head := by
  obtain ⟨later, hmem, hmade⟩ := h
  exact ⟨later, List.mem_cons_of_mem _ hmem, hmade⟩

private theorem exists_firstHeader?_eq_ok {tried : List Pattern}
    (h : ∀ pattern ∈ tried, ∀ c, pattern.captures? line = some c → ∃ name, c.name = some name) :
    ∃ found, (∀ number, firstHeader? number line tried = .ok found) ∧
      ∀ head ∈ found, MadeBy tried line head := by
  induction tried with
  | nil => exact ⟨none, fun _ => rfl, by simp⟩
  | cons pattern tried ih =>
    obtain ⟨hfirst, hrest⟩ := List.forall_mem_cons.mp h
    obtain ⟨found, hread, hmade⟩ := ih hrest
    have hlater : ∀ head ∈ found, MadeBy (pattern :: tried) line head :=
      fun head hhead => (hmade head hhead).cons pattern
    cases hc : pattern.captures? line with
    | none => exact ⟨found, fun number => by rw [firstHeader?, hc]; exact hread number, hlater⟩
    | some c =>
      obtain ⟨name, hname⟩ := hfirst c hc
      by_cases hr : name ∈ reserved
      · refine ⟨found, fun number => ?_, hlater⟩
        simp only [firstHeader?, hc, hname, required, bind, Except.bind, List.contains_iff_mem, hr,
          if_true, hread]
      · let head : Header := ⟨pattern.kind, name, c.parameters.getD [], c.returnType, c.isAsync, c.tail⟩
        refine ⟨some head, fun number => ?_, ?_⟩
        · simp only [firstHeader?, hc, hname, required, bind, Except.bind, List.contains_iff_mem, hr,
            if_false]
          rfl
        · rintro _ ⟨⟩
          exact ⟨pattern, List.mem_cons_self, c, hc, ⟨hname, rfl, rfl, rfl, rfl⟩, rfl, hr⟩

/-- Every line can be read: no match lacks its name. -/
theorem exists_header?_eq_ok (line : Line) :
    ∃ found, (∀ number, header? number line = .ok found) ∧ ∀ head ∈ found, MadeBy patterns line head :=
  exists_firstHeader?_eq_ok fun _ hp _ hc =>
    (wellFormed_of_mem_patterns hp hc).name.imp fun _ hname => hname.1

variable {number : Nat} {head : Header}

theorem madeBy_of_header? (h : header? number line = .ok (some head)) : MadeBy patterns line head := by
  obtain ⟨found, hread, hmade⟩ := exists_header?_eq_ok line
  exact hmade head (Except.ok.inj ((hread number).symm.trans h))

theorem wellFormed_header? (h : header? number line = .ok (some head)) :
    head.WellFormed .javaScript line := by
  obtain ⟨pattern, hp, c, hc, hmade, -⟩ := madeBy_of_header? h
  exact hmade.wellFormed (wellFormed_of_mem_patterns hp hc)

end JavaScript
end DocComments.Header

namespace DocComments
open Text

/-- The language can read every line, and it reads the same whatever its number. -/
theorem exists_header?_eq_ok (language : Language) (line : Line) :
    ∃ found, ∀ number, (grammarOf language).header? number line = .ok found := by
  cases language with
  | python => exact (Header.Python.exists_header?_eq_ok line).imp fun _ h => h.1
  | javaScript => exact (Header.JavaScript.exists_header?_eq_ok line).imp fun _ h => h.1

theorem wellFormed_header? {language : Language} {number : Nat} {line : Line} {head : Header}
    (h : (grammarOf language).header? number line = .ok (some head)) : head.WellFormed language line := by
  cases language with
  | python => exact Header.Python.wellFormed_header? h
  | javaScript => exact Header.JavaScript.wellFormed_header? h

end DocComments
