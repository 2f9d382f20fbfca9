import DocComments.Proofs.Parameters
import DocComments.Proofs.Scan.Languages
import DocComments.Proofs.Text.Lines
import Mathlib.Data.List.Infix

/-! Headers that are written out piece by piece, and what each step of a recogniser takes from them: a
keyword, a name, the parameters up to their closing parenthesis, and a return type. -/
namespace DocComments
open Text

namespace Header
open Parameters

/-- What the first line of a function says, with the indentation in front of it. -/
structure Signature where
  indent : List Char
  isAsync : Bool
  name : List Char
  parameters : List Char
  returnType : Option (List Char)

/-- How a header may go on behind the parameters, blanks left aside. -/
def continuations : Language → List (List Char)
  | .python => [[':'], ['-', '>']]
  | .javaScript => [[':'], ['{'], ['=', '>']]

def stops : Language → List Char
  | .python => [':']
  | .javaScript => ['{', '=']

/-- No closing parenthesis in the text is followed by one of the marks, blanks left aside. -/
def Closed (marks : List (List Char)) (s : List Char) : Prop :=
  ∀ after, ')' :: after <:+ s → ∀ mark ∈ marks, ¬ mark <+: trimStart after

instance (marks : List (List Char)) (s : List Char) : Decidable (Closed marks s) :=
  decidable_of_iff
    (∀ t ∈ s.tails, t.head? = some ')' → ∀ mark ∈ marks, ¬ mark <+: trimStart t.tail) <| by
      constructor
      · intro h after ha
        exact h _ (List.mem_tails _ _ |>.mpr ha) rfl
      · intro h t ht hc
        obtain ⟨after, rfl⟩ := List.head?_eq_some_iff.mp hc
        exact h after (List.mem_tails _ _ |>.mp ht)

/-- The signature can be told from its line: the name is one of the language, the parameters do not
seem to end early, and no character of the return type ends it. -/
structure Signature.WellFormed (language : Language) (f : Signature) : Prop where
  isIndent : ∀ c ∈ f.indent, isIndent c
  isName : IsName (nameStart language) (namePart language) f.name
  oneLine : '\n' ∉ f.parameters
  closed : Closed (continuations language) f.parameters
  returnType : ∀ type ∈ f.returnType, Phrase type ∧ ∀ c ∈ stops language, c ∉ type

/-- A keyword with a blank behind it, if it is to be written. -/
def written (there : Bool) (word : List Char) : List Char :=
  if there then word ++ [' '] else []

/-- A return type behind its mark, if there is one. -/
def returns (mark : List Char) : Option (List Char) → List Char
  | none => []
  | some type => mark ++ ' ' :: type

/-- What stands behind the name: the parameters in their parentheses, the return type behind a mark, and
what ends the header. -/
def Signature.behindName (f : Signature) (mark ending : List Char) : List Char :=
  '(' :: f.parameters ++ ')' :: returns mark f.returnType ++ ending

def Signature.captures (f : Signature) (indent : Option (List Char)) (tail : List Char) : Captures where
  indent := indent
  name := some f.name
  parameters := some f.parameters
  returnType := f.returnType
  isAsync := f.isAsync
  tail := tail

def Signature.header (f : Signature) (kind : DefinitionKind) (tail : List Char) : Header where
  kind := kind
  name := f.name
  parameters := f.parameters
  returnType := f.returnType
  isAsync := f.isAsync
  tail := tail

theorem name?_append {start part : Char → Bool} {name rest : List Char} (h : IsName start part name)
    (hr : ∀ c ∈ rest.head?, part c = false) : name? start part (name ++ rest) = some (name, rest) := by
  obtain ⟨c, below, rfl, hc, hpart⟩ := h
  have hrest : rest.takeWhile part = [] ∧ rest.dropWhile part = rest := by
    cases rest with
    | nil => exact ⟨rfl, rfl⟩
    | cons d rest =>
      have hd : ¬ part d := by simp [hr d rfl]
      exact ⟨List.takeWhile_cons_of_neg hd, List.dropWhile_cons_of_neg hd⟩
  rw [List.cons_append, name?, if_pos hc, List.takeWhile_append_of_pos hpart,
    List.dropWhile_append_of_pos hpart, hrest.1, hrest.2, List.append_nil]

theorem name?_eq_some_iff {start part : Char → Bool} {s name rest : List Char} :
    name? start part s = some (name, rest) ↔
      s = name ++ rest ∧ IsName start part name ∧ ∀ c ∈ rest.head?, part c = false := by
  constructor
  · intro h
    obtain ⟨hs, hname⟩ := name?_eq_some h
    refine ⟨hs, hname, fun c hc => ?_⟩
    cases s with
    | nil => simp [name?] at h
    | cons first s =>
      rw [name?] at h
      split at h
      · obtain ⟨-, rfl⟩ := Prod.mk.inj (Option.some.inj h)
        have hnot := List.head?_dropWhile_not part s
        rwa [Option.mem_def.mp hc] at hnot
      · simp at h
  · rintro ⟨rfl, hname, hrest⟩
    exact name?_append hname hrest

theorem trimStart_name {language : Language} {name : List Char}
    (h : IsName (nameStart language) (namePart language) name) (s : List Char) :
    trimStart (name ++ s) = name ++ s := by
  have hblank := not_isBlank_of_isName h
  obtain ⟨c, rest, rfl, -⟩ := h
  exact trimStart_cons (hblank c (by simp)) _

theorem afterIndent_of_trimStart {s : List Char} (h : trimStart s = s) : afterIndent s = s := by
  cases s with
  | nil => rfl
  | cons c s =>
    have hc : ¬ isIndent c := by
      intro hi
      have hlen := congrArg List.length h
      rw [trimStart, List.dropWhile_cons_of_pos (isBlank_of_isIndent hi), List.length_cons] at hlen
      have hle := (List.dropWhile_suffix isBlank (l := s)).length_le
      omega
    exact List.dropWhile_cons_of_neg hc

theorem keyword?_append (word s : List Char) : keyword? word (word ++ ' ' :: s) = some (trimStart s) := by
  rw [keyword?, dropPrefix?_append]
  rfl

/-- A word that a character other than a blank follows is no keyword, nor does it begin with one. -/
theorem keyword?_eq_none {word name : List Char} {c : Char} (hc : c ∉ word) (hb : isBlank c = false)
    (hn : ∀ d ∈ name, isBlank d = false) (s : List Char) : keyword? word (name ++ c :: s) = none := by
  rw [keyword?]
  split
  · rename_i d rest hd
    have hs : name ++ c :: s = word ++ d :: rest := dropPrefix?_eq_some_iff.mp hd
    -- behind the word stands a character of the name or the one behind the name
    have hblank : isBlank d = false := by
      rcases List.append_eq_append_iff.mp hs with ⟨middle, rfl, hm⟩ | ⟨middle, rfl, hm⟩
      · cases middle with
        | nil => exact (List.cons_eq_cons.mp hm).1 ▸ hb
        | cons e middle => exact absurd (List.cons_eq_cons.mp hm).1 (fun he => hc (by simp [he]))
      · cases middle with
        | nil => exact (List.cons_eq_cons.mp hm).1 ▸ hb
        | cons e middle => exact (List.cons_eq_cons.mp hm).1 ▸ hn e (by simp)
    rw [hblank]
    rfl
  · rfl

theorem skipKeyword_of_none {word s : List Char} (h : keyword? word s = none) : skipKeyword word s = s :=
  congrArg (·.getD s) h

theorem skipKeyword_written {word s : List Char} (hs : trimStart s = s) (hno : keyword? word s = none)
    (there : Bool) : skipKeyword word (written there word ++ s) = s := by
  cases there with
  | false => exact skipKeyword_of_none hno
  | true =>
    rw [written, if_pos rfl, List.append_assoc, List.cons_append, List.nil_append, skipKeyword,
      keyword?_append, hs, Option.getD_some]

theorem skipAsync_written {s : List Char} (hs : trimStart s = s) (hno : keyword? asyncWord s = none)
    (there : Bool) : skipAsync (written there asyncWord ++ s) = (there, s) := by
  cases there with
  | false =>
    rw [written, if_neg Bool.false_ne_true, List.nil_append, skipAsync, hno]
  | true =>
    rw [written, if_pos rfl, List.append_assoc, List.cons_append, List.nil_append, skipAsync,
      keyword?_append, hs]

private theorem upTo?_append {stop : Char} {text : List Char} (hne : text ≠ []) (hs : stop ∉ text)
    (rest : List Char) : upTo? stop (text ++ stop :: rest) = some (text, rest) := by
  have hall : ∀ c ∈ text, (c != stop) = true := by
    intro c hc
    rw [bne_iff_ne]
    rintro rfl
    exact hs hc
  obtain ⟨c, below, rfl⟩ := List.exists_cons_of_ne_nil hne
  have htake : (c :: below ++ stop :: rest).takeWhile (· != stop) = c :: below := by
    rw [List.takeWhile_append_of_pos hall, List.takeWhile_cons_of_neg (by simp), List.append_nil]
  have hdrop : (c :: below ++ stop :: rest).dropWhile (· != stop) = stop :: rest := by
    rw [List.dropWhile_append_of_pos hall, List.dropWhile_cons_of_neg (by simp)]
  rw [upTo?, htake, hdrop]

private theorem isBlank_of_mem_stops {language : Language} {stop : Char} (h : stop ∈ stops language) :
    isBlank stop = false := by
  cases language with
  | python =>
    obtain rfl := List.mem_singleton.mp h
    rfl
  | javaScript =>
    simp only [stops, List.mem_cons, List.not_mem_nil, or_false] at h
    rcases h with rfl | rfl <;> rfl

theorem newline_not_mem_written {word : List Char} (hw : '\n' ∉ word) (there : Bool) :
    '\n' ∉ written there word := by
  cases there <;> simp [written, hw]

/-- The parameters of a header are taken whole if it is read on behind them and no parenthesis among
them is followed by a mark without which it is not read on. -/
theorem close?_append {α : Type} {accept : List Char → Option α} {marks : List (List Char)}
    (hm : ∀ mark ∈ marks, ')' ∉ mark)
    (hreject : ∀ s, (∀ mark ∈ marks, ¬ mark <+: trimStart s) → accept s = none)
    {s rest : List Char} {a : α} (hs : Closed marks s) (ha : accept rest = some a) :
    close? accept (s ++ ')' :: rest) = some (s, a) := by
  induction s with
  | nil =>
    rw [List.nil_append, close?, if_pos (by decide), ha]
  | cons c s ih =>
    have hlater : Closed marks s := fun after hafter => hs after (hafter.trans (List.suffix_cons c s))
    have hnot : (if c == ')' then accept (s ++ ')' :: rest) else none) = none := by
      split
      · rename_i hc
        have hc : c = ')' := by simpa using hc
        apply hreject
        intro mark hmark
        -- no mark reaches over the parenthesis that closes the parameters
        rw [trimStart_append_cons (by decide)]
        exact not_prefix_append_cons (hm mark hmark) (hs s (by rw [hc]) mark hmark) rest
      · rfl
    rw [List.cons_append, close?, hnot, ih hlater]
    rfl

namespace Signature

theorem behindName_append (f : Signature) (mark ending tail : List Char) :
    f.behindName mark ending ++ tail =
      '(' :: (f.parameters ++ ')' :: (returns mark f.returnType ++ (ending ++ tail))) := by
  simp [behindName]

variable {language : Language} {f : Signature} (h : f.WellFormed language)
include h

theorem WellFormed.newline_not_mem_indent : '\n' ∉ f.indent :=
  fun hn => absurd (h.isIndent _ hn) (by decide)

theorem WellFormed.newline_not_mem_name : '\n' ∉ f.name :=
  fun hn => absurd (not_isBlank_of_isName h.isName _ hn) (by decide)

theorem WellFormed.plain_behindName {mark ending : List Char} (hm : '\n' ∉ mark) (he : Plain ending)
    (hne : ending ≠ []) : Plain (f.behindName mark ending) := by
  have hreturns : '\n' ∉ returns mark f.returnType := by
    cases hr : f.returnType with
    | none => simp [returns]
    | some type =>
      have htype := (h.returnType type hr).1.oneLine
      simp [returns, hm, htype]
  exact he.append hne (by simp [h.oneLine, hreturns])

/-- The return type is read from what stands between its mark and a character that ends it. -/
theorem WellFormed.upTo?_type {type : List Char} (hr : f.returnType = some type) {stop : Char}
    (hs : stop ∈ stops language) (blanks : List Char) (hb : allBlank blanks) (tail : List Char) :
    upTo? stop (' ' :: type ++ (blanks ++ stop :: tail)) = some (' ' :: (type ++ blanks), tail) ∧
      content? (' ' :: (type ++ blanks)) = some type := by
  obtain ⟨hphrase, hstops⟩ := h.returnType type hr
  have hblank : isBlank stop = false := isBlank_of_mem_stops hs
  have hstop : stop ∉ ' ' :: (type ++ blanks) := by
    rw [List.mem_cons, List.mem_append]
    rintro (rfl | ht | hmem)
    · exact absurd hblank (by decide)
    · exact hstops stop hs ht
    · simp [List.all_eq_true.mp hb stop hmem] at hblank
  refine ⟨?_, hphrase.toTrimmed.content?_append (a := [' ']) rfl hb⟩
  rw [List.cons_append, ← List.append_assoc, ← List.cons_append]
  exact upTo?_append (by simp) hstop tail

/-- The name is read from a line that goes on with the parameters. -/
theorem WellFormed.name?_behindName (mark ending tail : List Char) :
    name? (nameStart language) (namePart language) (f.name ++ (f.behindName mark ending ++ tail)) =
      some (f.name, f.behindName mark ending ++ tail) := by
  apply name?_append h.isName
  rintro c ⟨⟩
  cases language <;> rfl

end Signature

end Header

/-- A header on the first line of a source is the first definition that is extracted. -/
theorem exists_extract_eq_cons {language : Language} {s : List Char} {line : Line} {below : List Line}
    {head : Header} (hl : lines s = line :: below) (hh : (grammarOf language).Reads line (some head)) :
    ∃ d rest, extract language (String.ofList s) = d :: rest ∧ d.startLine = 1 ∧
      d.name = String.ofList head.name ∧ d.kind = head.kind ∧ d.isAsync = head.isAsync ∧
      d.returnType = head.returnType.map String.ofList ∧
      d.parameters = (grammarOf language).parameters head.parameters := by
  have hlines : linesOf (String.ofList s) = line :: below := by rw [linesOf, String.toList_ofList, hl]
  obtain ⟨o, ho⟩ := Outline.exists_lines_eq (grammarOf_local language) (linesOf (String.ofList s))
  obtain ⟨p, parts, hparts, hgap, rfl⟩ := o.exists_parts_eq_cons (ho.trans hlines) hh
  rw [o.extract_eq ho, hparts, Part.definitions]
  exact ⟨_, _, rfl, by simp [Part.definition, hgap], rfl, rfl, rfl, rfl, rfl⟩

end DocComments
