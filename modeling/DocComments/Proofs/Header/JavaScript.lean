import DocComments.Header.JavaScript
import DocComments.Proofs.Text.Find

/-! How JavaScript headers begin: whatever the shape, a word or a name stands first on the line. -/
namespace DocComments.Header.JavaScript
open Text Parameters

def NoName (s : List Char) : Prop :=
  ∀ c ∈ s.head?, isDollarNameStart c = false

variable {s : List Char}

private theorem dropPrefix?_of_noName (h : NoName s) {c : Char} (hc : isDollarNameStart c)
    (word : List Char) : dropPrefix? (c :: word) s = none := by
  rw [dropPrefix?_eq_none_iff]
  rintro ⟨rest, rfl⟩
  have := h c (by simp)
  simp [hc] at this

private theorem keyword?_of_noName (h : NoName s) {c : Char} (hc : isDollarNameStart c)
    (word : List Char) : keyword? (c :: word) s = none := by
  rw [keyword?, dropPrefix?_of_noName h hc]

private theorem anyKeyword?_of_noName (h : NoName s) {words : List (List Char)}
    (hw : ∀ word ∈ words, ∃ c rest, word = c :: rest ∧ isDollarNameStart c) :
    anyKeyword? words s = none := by
  rw [anyKeyword?, List.findSome?_eq_none_iff]
  intro word hword
  obtain ⟨c, rest, rfl, hc⟩ := hw word hword
  exact keyword?_of_noName h hc rest

private theorem identifier?_of_noName (h : NoName s) : identifier? s = none := by
  cases s with
  | nil => rfl
  | cons c s => simp [identifier?, name?, h c (by simp)]

private theorem skipKeyword_of_noName (h : NoName s) {c : Char} (hc : isDollarNameStart c)
    (word : List Char) : skipKeyword (c :: word) s = s := by
  rw [skipKeyword, keyword?_of_noName h hc, Option.getD_none]

private theorem statement?_of_noName {line : Line} (h : NoName (afterIndent line)) :
    statement? line = none := by
  have hexport : skipKeyword exportWord (afterIndent line) = afterIndent line :=
    skipKeyword_of_noName h (by decide) _
  have hdefault : skipKeyword defaultWord (afterIndent line) = afterIndent line :=
    skipKeyword_of_noName h (by decide) _
  have hasync : skipAsync (afterIndent line) = (false, afterIndent line) := by
    rw [skipAsync, asyncWord, keyword?_of_noName h (by decide)]
  have hfunction : dropPrefix? functionWord (afterIndent line) = none :=
    dropPrefix?_of_noName h (by decide) _
  rw [statement?, hexport, hdefault]
  dsimp only
  rw [hasync]
  dsimp only
  rw [hfunction]
  rfl

private theorem binding?_of_noName (h : NoName s) : binding? s = none := by
  simp [binding?, identifier?_of_noName h]

private theorem arrow?_of_noName {line : Line} (h : NoName (afterIndent line)) :
    arrow? line = none := by
  have hexport := keyword?_of_noName h (c := 'e') (by decide) ['x', 'p', 'o', 'r', 't']
  have hdeclarator : anyKeyword? declarators (afterIndent line) = none :=
    anyKeyword?_of_noName h (by simp [declarators]; decide)
  simp [arrow?, declaration?, exportWord, hexport, hdeclarator, binding?_of_noName h]

private theorem asyncSignature?_of_noName (h : NoName s) : asyncSignature? s = none := by
  have hasync := keyword?_of_noName h (c := 'a') (by decide) ['s', 'y', 'n', 'c']
  simp [asyncSignature?, signature?, asyncWord, hasync, identifier?_of_noName h]

private theorem modified?_of_noName (n : Nat) (h : NoName s) : modified? n s = none := by
  cases n with
  | zero => exact asyncSignature?_of_noName h
  | succ n =>
    have hmodifier : anyKeyword? modifiers s = none :=
      anyKeyword?_of_noName h (by simp [modifiers]; decide)
    simp [modified?, hmodifier, asyncSignature?_of_noName h]

/-- A line on which no name stands first holds no header. -/
theorem header?_of_noName {line : Line} (h : NoName (afterIndent line)) (number : Nat) :
    header? number line = .ok none := by
  simp only [header?, patterns, firstHeader?, statement?_of_noName h, arrow?_of_noName h, method?,
    modified?_of_noName _ h]

end DocComments.Header.JavaScript
