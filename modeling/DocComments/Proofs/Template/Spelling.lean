import DocComments.Proofs.Text.Case
import DocComments.Template

/-! Names and their words. However the words of a name are marked off from each other, by separators or by
capitals, the summary is the sentence that they make. -/
namespace DocComments.Template
open Text

def isSmall (c : Char) : Bool :=
  'a' ≤ c && c ≤ 'z'

def isSmallOrDigit (c : Char) : Bool :=
  isSmall c || isAsciiDigit c

/-- Whether the text is a word whose end a capital can mark: a small letter, and behind it small letters and
digits, one at least. -/
def isNameWord : List Char → Bool
  | c :: d :: rest => isSmall c && (d :: rest).all isSmallOrDigit
  | _ => false

def capitalize : List Char → List Char
  | [] => []
  | c :: rest => c.toUpper :: rest

def sentence (words : List (List Char)) : String :=
  String.ofList (capitalize ([' '].intercalate words) ++ ['.'])

section Steps
variable {c : Char} {current rest : List Char} {open_ : Bool}

private theorem wordsAfter_separator (h : isSeparator c) :
    wordsAfter current open_ (c :: rest) = consWord current (wordsAfter [] false rest) := by
  rw [wordsAfter, if_pos h]

private theorem isAscii_of_isSmallOrDigit (h : isSmallOrDigit c) : c.toNat < 0x80 := by
  simp only [isSmallOrDigit, isSmall, isAsciiDigit, Bool.or_eq_true, Bool.and_eq_true, decide_eq_true_eq,
    Char.le_def, UInt32.le_iff_toNat_le, Char.toNat_val, Char.reduceToNat] at h
  omega

private theorem isSmallOrDigit_of_isSmall (h : isSmall c) : isSmallOrDigit c := by
  rw [isSmallOrDigit, h, Bool.true_or]

/-- What holds of the small letters and digits is seen by going through the codes of ASCII. -/
private theorem of_isSmallOrDigit {q : Char → Bool}
    (hall : ∀ n < 0x80, !isSmallOrDigit (Char.ofNat n) || q (Char.ofNat n)) (h : isSmallOrDigit c) : q c := by
  have hc : !isSmallOrDigit c || q c :=
    ascii_induction (p := fun c => !isSmallOrDigit c || q c) hall (isAscii_of_isSmallOrDigit h)
  simpa [h] using hc

private theorem wordsAfter_small (h : isSmallOrDigit c) :
    wordsAfter current open_ (c :: rest) = wordsAfter (current ++ [c]) true rest := by
  have hc : !isSeparator c && !isUpper c && lowerLetter c == [c] && endsWord c :=
    of_isSmallOrDigit (q := fun c => !isSeparator c && !isUpper c && lowerLetter c == [c] && endsWord c)
      (by decide +kernel) h
  simp only [Bool.and_eq_true, Bool.not_eq_true', beq_iff_eq] at hc
  obtain ⟨⟨⟨hseparator, hupper⟩, hlower⟩, hends⟩ := hc
  simp only [wordsAfter, hseparator, hupper, hlower, hends, Bool.false_and, Bool.false_eq_true, if_false]

private theorem wordsAfter_capital (h : isSmall c) :
    wordsAfter current true (c.toUpper :: rest) = consWord current (wordsAfter [c] false rest) := by
  have hc : !isSmall c || (!isSeparator c.toUpper && isUpper c.toUpper && lowerLetter c.toUpper == [c] &&
      !endsWord c.toUpper) :=
    of_isSmallOrDigit (q := fun c => !isSmall c || (!isSeparator c.toUpper && isUpper c.toUpper &&
      lowerLetter c.toUpper == [c] && !endsWord c.toUpper)) (by decide +kernel) (isSmallOrDigit_of_isSmall h)
  simp only [h, Bool.not_true, Bool.false_or, Bool.and_eq_true, Bool.not_eq_true', beq_iff_eq] at hc
  obtain ⟨⟨⟨hseparator, hupper⟩, hlower⟩, hends⟩ := hc
  simp only [wordsAfter, hseparator, hupper, hlower, hends, Bool.and_self, Bool.false_eq_true, if_true,
    if_false]

private theorem upperLetter_of_isSmall (h : isSmall c) : upperLetter c = [c.toUpper] := by
  have hc : !isSmall c || upperLetter c == [c.toUpper] :=
    of_isSmallOrDigit (q := fun c => !isSmall c || upperLetter c == [c.toUpper]) (by decide +kernel)
      (isSmallOrDigit_of_isSmall h)
  simpa [h] using hc

end Steps

/-- Separators end a word and are none themselves. -/
theorem wordsAfter_separators {run : List Char} (hne : run ≠ []) (hrun : run.all isSeparator)
    (current rest : List Char) (open_ : Bool) :
    wordsAfter current open_ (run ++ rest) = consWord current (wordsAfter [] false rest) := by
  induction run generalizing current open_ with
  | nil => exact absurd rfl hne
  | cons c run ih =>
    rw [List.all_cons, Bool.and_eq_true] at hrun
    rw [List.cons_append, wordsAfter_separator hrun.1]
    by_cases hlast : run = []
    · rw [hlast, List.nil_append]
    · rw [ih hlast hrun.2]
      rfl

/-- Small letters and digits go on with the word before them. -/
theorem wordsAfter_append {text : List Char} (hne : text ≠ []) (htext : text.all isSmallOrDigit)
    (current rest : List Char) (open_ : Bool) :
    wordsAfter current open_ (text ++ rest) = wordsAfter (current ++ text) true rest := by
  induction text generalizing current open_ with
  | nil => exact absurd rfl hne
  | cons c text ih =>
    rw [List.all_cons, Bool.and_eq_true] at htext
    rw [List.cons_append, wordsAfter_small htext.1]
    by_cases hlast : text = []
    · rw [hlast, List.nil_append]
    · rw [ih hlast htext.2, List.append_assoc, List.singleton_append]

private theorem exists_of_isNameWord {word : List Char} (h : isNameWord word) :
    ∃ c d rest, word = c :: d :: rest ∧ isSmall c ∧ isSmallOrDigit d ∧ word.all isSmallOrDigit := by
  unfold isNameWord at h
  split at h
  · rename_i c d rest
    rw [Bool.and_eq_true] at h
    obtain ⟨hc, hrest⟩ := h
    refine ⟨c, d, rest, rfl, hc, (List.all_eq_true.mp hrest) d List.mem_cons_self, ?_⟩
    rw [List.all_cons, hrest, isSmallOrDigit_of_isSmall hc]
    rfl
  · cases h

/-- Names in which words stand one behind the other. A later word comes after separators, or it starts with
a capital. -/
inductive Spells : List (List Char) → List Char → Prop
  | word (first : List Char) : Spells [first] first
  | separated {word run : List Char} {words : List (List Char)} {name : List Char} (hne : run ≠ [])
      (hrun : run.all isSeparator) (h : Spells words name) : Spells (word :: words) (word ++ run ++ name)
  | capitalized {word : List Char} {words : List (List Char)} {name : List Char} (h : Spells words name) :
      Spells (word :: words) (word ++ capitalize name)

namespace Spells
variable {ws : List (List Char)} {name : List Char}

/-- A name starts with its first word. -/
theorem exists_eq_append (h : Spells ws name) :
    ∃ word others tail, ws = word :: others ∧ name = word ++ tail := by
  cases h with
  | word => exact ⟨name, [], [], rfl, (List.append_nil name).symm⟩
  | separated => exact ⟨_, _, _, rfl, List.append_assoc _ _ _⟩
  | capitalized => exact ⟨_, _, _, rfl, rfl⟩

private theorem exists_eq_cons (h : Spells ws name) (hws : ∀ word ∈ ws, isNameWord word) :
    ∃ c d rest, name = c :: d :: rest ∧ isSmall c ∧ isSmallOrDigit d := by
  obtain ⟨word, others, tail, rfl, rfl⟩ := h.exists_eq_append
  obtain ⟨c, d, rest, rfl, hc, hd, -⟩ := exists_of_isNameWord (hws word List.mem_cons_self)
  exact ⟨c, d, rest ++ tail, rfl, hc, hd⟩

/-- A capital behind a word does what a separator does. The second letter of the word that it starts makes
up for the small one that is missing. -/
theorem wordsAfter_capitalize (h : Spells ws name) (hws : ∀ word ∈ ws, isNameWord word)
    (current rest : List Char) :
    wordsAfter current true (capitalize name ++ rest) =
      consWord current (wordsAfter [] false (name ++ rest)) := by
  obtain ⟨c, d, below, rfl, hc, hd⟩ := h.exists_eq_cons hws
  have hfirst := isSmallOrDigit_of_isSmall hc
  simp only [capitalize, List.cons_append, wordsAfter_capital hc, wordsAfter_small hfirst,
    wordsAfter_small hd, List.nil_append]

/-- The words of a name, with or without separators behind it. -/
theorem words_append (h : Spells ws name) (hws : ∀ word ∈ ws, isNameWord word) {after : List Char}
    (hafter : after.all isSeparator) : words (name ++ after) = ws := by
  have hfirst {word : List Char} (hword : isNameWord word) (rest : List Char) :
      words (word ++ rest) = wordsAfter word true rest := by
    obtain ⟨c, d, below, rfl, -, -, hall⟩ := exists_of_isNameWord hword
    exact wordsAfter_append (List.cons_ne_nil c _) hall [] rest false
  have hword {word : List Char} (hword : isNameWord word) (ws : List (List Char)) :
      consWord word ws = word :: ws := by
    obtain ⟨c, d, below, rfl, -⟩ := exists_of_isNameWord hword
    rfl
  induction h with
  | word first =>
    have hsmall := hws first List.mem_cons_self
    rw [hfirst hsmall]
    by_cases hnone : after = []
    · rw [hnone, wordsAfter, hword hsmall]
    · have hrun := wordsAfter_separators hnone hafter first [] true
      rw [List.append_nil] at hrun
      rw [hrun, hword hsmall]
      rfl
  | separated hne hrun _ ih =>
    have hsmall := hws _ List.mem_cons_self
    rw [List.append_assoc, List.append_assoc, hfirst hsmall, wordsAfter_separators hne hrun, hword hsmall]
    exact congrArg _ (ih fun other ho => hws other (List.mem_cons_of_mem _ ho))
  | capitalized hrest ih =>
    have hsmall := hws _ List.mem_cons_self
    have hothers := fun other ho => hws other (List.mem_cons_of_mem _ ho)
    rw [List.append_assoc, hfirst hsmall, hrest.wordsAfter_capitalize hothers, hword hsmall]
    exact congrArg _ (ih hothers)

/-- Separators around a name, and the way its words are marked off, do not show in its summary. -/
theorem summary_eq (h : Spells ws name) (hws : ∀ word ∈ ws, isNameWord word) {before after : List Char}
    (hbefore : before.all isSeparator) (hafter : after.all isSeparator) :
    summary (String.ofList (before ++ name ++ after)) = sentence ws := by
  have hwords : words (before ++ name ++ after) = ws := by
    rw [List.append_assoc]
    by_cases hnone : before = []
    · rw [hnone, List.nil_append, h.words_append hws hafter]
    · rw [words, wordsAfter_separators hnone hbefore]
      exact h.words_append hws hafter
  obtain ⟨first, others, -, rfl, -⟩ := h.exists_eq_append
  obtain ⟨c, d, rest, rfl, hc, -⟩ := exists_of_isNameWord (hws first List.mem_cons_self)
  have hintercalate : ∃ below, [' '].intercalate ((c :: d :: rest) :: others) = c :: below := by
    cases others with
    | nil => exact ⟨d :: rest, List.intercalate_singleton⟩
    | cons next others => exact ⟨_, List.intercalate_cons_cons⟩
  obtain ⟨below, hbelow⟩ := hintercalate
  simp only [summary, sentence, String.toList_ofList, hwords, hbelow, upperLetter_of_isSmall hc, capitalize,
    List.cons_append, List.nil_append]

end Spells

/-- The name that starts with a word and goes on with separators and a word in turn. -/
def snakeCase (word : List Char) (rest : List (List Char × List Char)) : List Char :=
  word ++ rest.flatMap fun next => next.1 ++ next.2

/-- The name in which every word but the first starts with a capital. -/
def camelCase : List (List Char) → List Char
  | [] => []
  | word :: rest => word ++ rest.flatMap capitalize

theorem spells_snakeCase {rest : List (List Char × List Char)}
    (hruns : ∀ next ∈ rest, next.1 ≠ [] ∧ next.1.all isSeparator) (word : List Char) :
    Spells (word :: rest.map (·.2)) (snakeCase word rest) := by
  induction rest generalizing word with
  | nil =>
    rw [snakeCase, List.flatMap_nil, List.append_nil]
    exact .word word
  | cons next rest ih =>
    obtain ⟨hne, hrun⟩ := hruns next List.mem_cons_self
    have hrest := ih (fun other ho => hruns other (List.mem_cons_of_mem _ ho)) next.2
    have hname : Spells (word :: _) (word ++ _ ++ _) := .separated hne hrun hrest
    simp only [snakeCase, List.append_assoc] at hname
    simpa only [snakeCase, List.flatMap_cons, List.map_cons, List.append_assoc] using hname

theorem spells_camelCase {word : List Char} {rest : List (List Char)}
    (hrest : ∀ next ∈ rest, isNameWord next) : Spells (word :: rest) (camelCase (word :: rest)) := by
  induction rest generalizing word with
  | nil =>
    rw [camelCase, List.flatMap_nil, List.append_nil]
    exact .word word
  | cons next rest ih =>
    obtain ⟨c, d, below, rfl, -⟩ := exists_of_isNameWord (hrest next List.mem_cons_self)
    exact .capitalized (ih fun other ho => hrest other (List.mem_cons_of_mem _ ho))

/-- A name in snake case, with any separators between its words and around them, and the name of the same
words in camel case have the same summary: the words with blanks between them, as a sentence. -/
theorem summary_of_case {word : List Char} {rest : List (List Char × List Char)} {before after : List Char}
    (hwords : ∀ w ∈ word :: rest.map (·.2), isNameWord w)
    (hruns : ∀ next ∈ rest, next.1 ≠ [] ∧ next.1.all isSeparator)
    (hbefore : before.all isSeparator) (hafter : after.all isSeparator) :
    summary (String.ofList (before ++ snakeCase word rest ++ after)) = sentence (word :: rest.map (·.2)) ∧
      summary (String.ofList (camelCase (word :: rest.map (·.2)))) = sentence (word :: rest.map (·.2)) := by
  refine ⟨(spells_snakeCase hruns word).summary_eq hwords hbefore hafter, ?_⟩
  have hcamel : Spells (word :: rest.map (·.2)) (camelCase (word :: rest.map (·.2))) :=
    spells_camelCase fun next hn => hwords next (List.mem_cons_of_mem _ hn)
  have hnone : [].all isSeparator := rfl
  simpa only [List.nil_append, List.append_nil] using hcamel.summary_eq hwords hnone hnone

/-- A digit inside a word and at the end of one, and a mixed run of separators. -/
theorem summary_of_case_digits :
    let rest := [("$_".toList, "http2".toList), ("_".toList, "v1beta".toList)]
    (∀ w ∈ "parse".toList :: rest.map (·.2), isNameWord w) ∧
      (∀ next ∈ rest, next.1 ≠ [] ∧ next.1.all isSeparator) ∧
      summary "__parse$_http2_v1beta$" = "Parse http2 v1beta." ∧
      summary "parseHttp2V1beta" = "Parse http2 v1beta." := by
  intro rest
  have hwords : ∀ w ∈ "parse".toList :: rest.map (·.2), isNameWord w :=
    List.all_eq_true.mp (by decide +kernel)
  have hruns : ∀ next ∈ rest, next.1 ≠ [] ∧ next.1.all isSeparator := by
    intro next hn
    simp only [rest, List.mem_cons, List.not_mem_nil, or_false] at hn
    rcases hn with rfl | rfl <;> decide
  have hbefore : "__".toList.all isSeparator := by decide
  have hafter : "$".toList.all isSeparator := by decide
  obtain ⟨hsnake, hcamel⟩ := summary_of_case hwords hruns hbefore hafter
  exact ⟨hwords, hruns, hsnake, hcamel⟩

end DocComments.Template
