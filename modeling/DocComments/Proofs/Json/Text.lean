import DocComments.Json.Reader
import DocComments.Json.Writer
import DocComments.Proofs.Number.Numeral

/-! JSON text without parts read back. A string comes back from between its quotes whatever characters it has, and a
whole number from its digits, if what follows goes on with neither. -/
namespace DocComments.Json
open Text

section Strings

private theorem hexUnit?_control : ∀ n < 32, hexUnit? '0' '0' (hexChar (n / 16)) (hexChar (n % 16)) = some n := by
  decide

/-- An escaped character is read as its unit. -/
theorem units?_escapeChar (c : Char) (rest : List Char) :
    units? (escapeChar c ++ rest) = (units? rest).map fun (more, rest) => (c.toNat :: more, rest) := by
  unfold escapeChar
  split
  case h_8 _ hquote hback _ _ _ _ _ =>
    split
    · rename_i hcontrol
      have hlt : c.toNat < 32 := UInt32.lt_iff_toNat_lt.mp hcontrol
      simp only [List.cons_append, List.nil_append, units?, hexUnit?_control c.toNat hlt]
      cases units? rest <;> rfl
    · rename_i hplain
      rw [List.singleton_append, units?, if_neg hplain]
      · exact hquote
      · exact fun _ _ _ _ _ hc => absurd hc hback
      · exact fun _ _ hc => absurd hc hback
  -- the other escapes are of one letter, which is no 'u'
  all_goals
    rw [List.cons_append, List.cons_append, List.nil_append, units?]
    · cases units? rest <;> rfl
    · exact fun _ _ _ _ _ hu => absurd hu (by decide)

private theorem units?_escaped (s rest : List Char) :
    units? (s.flatMap escapeChar ++ '"' :: rest) = some (s.map Char.toNat, rest) := by
  induction s with
  | nil => rfl
  | cons c s ih =>
    rw [List.flatMap_cons, List.append_assoc, units?_escapeChar, ih, Option.map_some, List.map_cons]

/-- No character is half of a surrogate pair. -/
theorem textOfUnits?_map_toNat (s : List Char) : textOfUnits? (s.map Char.toNat) = some s := by
  have hplain (c : Char) : ¬ (0xd800 ≤ c.toNat ∧ c.toNat < 0xe000) := by
    have hvalid := c.valid
    rintro ⟨hlow, hhigh⟩
    rcases hvalid with h | h
    · exact absurd h (by change ¬ c.toNat < 0xd800; omega)
    · exact absurd h.1 (by change ¬ 0xdfff < c.toNat; omega)
  induction s with
  | nil => rfl
  | cons c s ih =>
    cases s with
    | nil => simp [textOfUnits?, hplain]
    | cons d s =>
      have hpair : ¬ (0xd800 ≤ c.toNat ∧ c.toNat < 0xdc00 ∧ 0xdc00 ≤ d.toNat ∧ d.toNat < 0xe000) := by
        have := hplain c
        omega
      rw [List.map_cons] at ih
      simp only [List.map_cons, textOfUnits?, Bool.and_eq_true, decide_eq_true_eq, and_assoc, hpair, hplain,
        if_false, ih, Option.map_some, Char.ofNat_toNat]

theorem readString_escaped (s : String) (rest : List Char) :
    readString (s.toList.flatMap escapeChar ++ '"' :: rest) = (str s, some rest) := by
  rw [readString, units?_escaped]
  simp only [textOfUnits?_map_toNat, String.ofList_toList]

end Strings

section Numbers

/-- What may stand behind a value: a blank, or what ends the value or the one around it. -/
def Follows (rest : List Char) : Prop :=
  ∀ c ∈ rest.head?, isSpace c ∨ c = ',' ∨ c = ']' ∨ c = '}'

private theorem digits?_digits (n : Nat) {rest : List Char} (h : EndsDigits rest) :
    digits? (Numeral.digits n ++ rest) = some (Numeral.digits n, rest) := by
  have hdigits : ∀ c ∈ Numeral.digits n, isAsciiDigit c := fun c => Numeral.isAsciiDigit_of_mem_digits
  rw [digits?, takeWhile_digits hdigits h, dropWhile_digits hdigits h]
  cases hn : Numeral.digits n with
  | nil => exact absurd hn Nat.toDigits_ne_nil
  | cons c digits => rfl

private theorem wholeDigits?_digits (n : Nat) {rest : List Char} (h : EndsDigits rest) :
    wholeDigits? (Numeral.digits n ++ rest) = some (Numeral.digits n, rest) := by
  rw [wholeDigits?, digits?_digits n h]
  split
  · rename_i c digits rest' hfound
    -- a number of more than one digit does not start with zero
    obtain ⟨hdigits, -⟩ := Prod.mk.inj (Option.some.inj hfound)
    have hzero : n = 0 := Numeral.eq_zero_of_head?_digits (by rw [hdigits]; rfl)
    subst hzero
    cases hdigits
  · rfl

theorem isSpace_of_isAsciiDigit {c : Char} (h : isAsciiDigit c) : isSpace c = false := by
  rw [Bool.eq_false_iff]
  intro hspace
  simp only [isSpace, Bool.or_eq_true, beq_iff_eq] at hspace
  rcases hspace with ((rfl | rfl) | rfl) | rfl <;> exact absurd h (by decide)

private theorem Follows.endsDigits {rest : List Char} (h : Follows rest) : EndsDigits rest := by
  intro c hc
  rcases h c hc with hspace | rfl | rfl | rfl
  · rw [Bool.eq_false_iff]
    intro hdigit
    rw [isSpace_of_isAsciiDigit hdigit] at hspace
    cases hspace
  all_goals rfl

private theorem fraction?_of_follows {rest : List Char} (h : Follows rest) : fraction? rest = some ([], rest) := by
  rw [fraction?]
  rintro below rfl
  exact absurd (h '.' rfl) (by decide)

private theorem exponent?_of_follows {rest : List Char} (h : Follows rest) : exponent? rest = some (none, rest) := by
  rw [exponent?]
  · rintro below rfl
    exact absurd (h 'e' rfl) (by decide)
  · rintro below rfl
    exact absurd (h 'E' rfl) (by decide)

theorem exists_digits_append (n : Nat) (rest : List Char) :
    ∃ c below, Numeral.digits n ++ rest = c :: below ∧ isAsciiDigit c := by
  obtain ⟨c, digits, hdigits⟩ := List.exists_cons_of_ne_nil (Nat.toDigits_ne_nil (n := n) (b := 10))
  have hn : Numeral.digits n = c :: digits := hdigits
  exact ⟨c, digits ++ rest, by rw [hn, List.cons_append],
    Numeral.isAsciiDigit_of_mem_digits (hn ▸ List.mem_cons_self)⟩

private theorem numeral?_digits (n : Nat) {rest : List Char} (h : Follows rest) :
    numeral? (Numeral.digits n ++ rest) = some ({ whole := n }, rest) := by
  obtain ⟨c, below, hs, hc⟩ := exists_digits_append n rest
  have hwhole := wholeDigits?_digits n h.endsDigits
  rw [hs] at hwhole ⊢
  rw [numeral?]
  · simp only [hwhole, fraction?_of_follows h, exponent?_of_follows h, Numeral.ofDigits_digits, Option.bind_eq_bind,
      Option.bind_some]
  · exact fun _ he => ne_of_isAsciiDigit hc rfl (List.cons_eq_cons.mp he).1

theorem readScalar_digits (n : Nat) {rest : List Char} (h : Follows rest) :
    readScalar (Numeral.digits n ++ rest) = (nat n, some rest) := by
  obtain ⟨c, below, hs, hc⟩ := exists_digits_append n rest
  have hnumeral := numeral?_digits n h
  rw [hs] at hnumeral ⊢
  rw [readScalar]
  · rw [hnumeral]
    rfl
  all_goals exact fun _ he => ne_of_isAsciiDigit hc rfl (List.cons_eq_cons.mp he).1

end Numbers

end DocComments.Json
