import DocComments.Proofs.Number.Numeral
import DocComments.Proofs.Text.Find
import DocComments.Time.Instant

/-! Instants and their text. An instant that a calendar and a clock can show is read back from its text,
leap seconds and years of any sign and length included. -/
namespace DocComments
open Text

namespace Instant

/-- Whether a calendar and a clock can show the instant. A leap second stands at the end of a minute. -/
structure IsProper (t : Instant) : Prop where
  date : t.date.isValid
  second : t.second < 86400
  nano : t.nano < 1000000000 ∨ t.nano < 2000000000 ∧ t.second % 60 = 59

private theorem isAsciiDigit_of_mem_padded {count n : Nat} {c : Char} (h : c ∈ padded count n) : isAsciiDigit c := by
  rcases List.mem_append.mp h with h | h
  · rw [List.eq_of_mem_replicate h]
    rfl
  · exact Numeral.isAsciiDigit_of_mem_digits h

private theorem padded_ne_nil (count n : Nat) : padded count n ≠ [] :=
  List.append_ne_nil_of_right_ne_nil _ Nat.toDigits_ne_nil

private theorem ofDigits_padded (count n : Nat) : Numeral.ofDigits (padded count n) = n :=
  Numeral.ofDigits_replicate_append _ n

private theorem length_padded {count n : Nat} (h : (Numeral.digits n).length ≤ count) :
    (padded count n).length = count := by
  rw [padded, List.length_append, List.length_replicate]
  omega

private theorem exists_padded_eq_cons (count n : Nat) :
    ∃ c digits, padded count n = c :: digits ∧ isAsciiDigit c := by
  obtain ⟨c, digits, hp⟩ := List.exists_cons_of_ne_nil (padded_ne_nil count n)
  exact ⟨c, digits, hp, isAsciiDigit_of_mem_padded (hp ▸ List.mem_cons_self)⟩

private theorem trimStart_padded_append (count n : Nat) (rest : List Char) :
    trimStart (padded count n ++ rest) = padded count n ++ rest := by
  obtain ⟨c, digits, hp, hc⟩ := exists_padded_eq_cons count n
  rw [hp, List.cons_append]
  exact List.dropWhile_cons_of_neg (by simp [isBlank_of_isAsciiDigit hc])

private theorem number?_padded {most count n : Nat} {rest : List Char} (hlen : (padded count n).length ≤ most)
    (hr : EndsDigits rest) : number? most (padded count n ++ rest) = some (n, rest) := by
  have htake : ((padded count n ++ rest).takeWhile isAsciiDigit).take most = padded count n := by
    rw [takeWhile_digits (fun c => isAsciiDigit_of_mem_padded) hr, List.take_of_length_le hlen]
  obtain ⟨c, digits, hp, -⟩ := exists_padded_eq_cons count n
  have hvalue : Numeral.ofDigits (c :: digits) = n := hp ▸ ofDigits_padded count n
  have hdrop : (c :: digits ++ rest).drop (digits.length + 1) = rest := by
    rw [← List.length_cons, List.drop_left]
  simp only [number?, trimStart_padded_append, htake]
  rw [hp]
  simp only [hvalue, hdrop]

/-- Two digits are enough for the parts of a date and a time of day. -/
theorem number?_two {n : Nat} (h : n < 100) {rest : List Char} (hr : EndsDigits rest) :
    number? 2 (padded 2 n ++ rest) = some (n, rest) := by
  have hdigits : (Numeral.digits n).length ≤ 2 := (Nat.length_toDigits_le_iff (by decide) (by decide)).mpr h
  exact number?_padded (length_padded hdigits).le hr

theorem year?_yearText (year : Int) {rest : List Char} (hr : EndsDigits rest) :
    year? (yearText year ++ rest) = some (year, rest) := by
  rw [yearText]
  split
  · rename_i h
    simp only [Bool.and_eq_true, decide_eq_true_eq] at h
    have hdigits : (Numeral.digits year.toNat).length ≤ 4 :=
      (Nat.length_toDigits_le_iff (by decide) (by decide)).mpr
        ((Int.toNat_lt h.1).mpr (by omega))
    have hnumber := number?_padded (length_padded hdigits).le hr
    obtain ⟨c, digits, hp, hc⟩ := exists_padded_eq_cons 4 year.toNat
    rw [year?, trimStart_padded_append]
    split
    · rename_i hs
      rw [hp] at hs
      cases hs
      exact absurd hc (by decide)
    · rename_i hs
      rw [hp] at hs
      cases hs
      exact absurd hc (by decide)
    · rw [hnumber]
      simp only [Option.map_some, Int.toNat_of_nonneg h.1]
  · rename_i h
    have hnumber : number? (padded 4 year.natAbs ++ rest).length (padded 4 year.natAbs ++ rest) =
        some (year.natAbs, rest) :=
      number?_padded (by rw [List.length_append]; exact Nat.le_add_right _ _) hr
    have hfirst : year?.blankFirst (padded 4 year.natAbs ++ rest) = false := by
      obtain ⟨c, digits, hp, hc⟩ := exists_padded_eq_cons 4 year.natAbs
      simp [year?.blankFirst, hp, isBlank_of_isAsciiDigit hc]
    by_cases hsign : year < 0
    · have htrim (s : List Char) : trimStart ('-' :: s) = '-' :: s := rfl
      simp only [if_pos hsign, List.cons_append, year?, htrim, hfirst, hnumber]
      simp only [Bool.false_eq_true, if_false, Option.map_some, Option.some.injEq, Prod.mk.injEq, and_true]
      omega
    · have htrim (s : List Char) : trimStart ('+' :: s) = '+' :: s := rfl
      simp only [if_neg hsign, List.cons_append, year?, htrim, hfirst, hnumber]
      simp only [Bool.false_eq_true, if_false, Option.map_some, Option.some.injEq, Prod.mk.injEq, and_true]
      omega

theorem nano?_fractionText {nano : Nat} (h : nano < 1000000000) {rest : List Char} (hr : EndsDigits rest)
    (hpoint : rest.head? ≠ some '.') : nano? (fractionText nano ++ rest) = some (nano, rest) := by
  have hpart {count n : Nat} (hdigits : (Numeral.digits n).length ≤ count) (hcount : count ≤ 9) :
      nano? ('.' :: padded count n ++ rest) = some (n * tenPow (9 - count), rest) := by
    have hlen := length_padded hdigits
    have hdigit : ∀ c ∈ padded count n, isAsciiDigit c := fun c => isAsciiDigit_of_mem_padded
    have htake := takeWhile_digits hdigit hr
    have hdrop : (padded count n ++ rest).dropWhile isAsciiDigit = rest := by
      have hall := List.takeWhile_append_dropWhile (p := isAsciiDigit) (l := padded count n ++ rest)
      rw [htake] at hall
      exact List.append_cancel_left hall
    have hne : (padded count n).isEmpty = false := by simpa using padded_ne_nil count n
    have hkept : (padded count n).take 9 = padded count n := List.take_of_length_le (by omega)
    simp only [List.cons_append, nano?, htake, hdrop, hne, hkept, ofDigits_padded, hlen, Bool.false_eq_true,
      if_false]
  have hlength {count n : Nat} (hcount : 0 < count) (hn : n < Nat.pow 10 count) :
      (Numeral.digits n).length ≤ count :=
    (Nat.length_toDigits_le_iff (by decide) hcount).mpr hn
  rw [fractionText]
  split
  · rename_i hzero
    rw [hzero]
    cases rest with
    | nil => rfl
    | cons c rest =>
      have hc : c ≠ '.' := fun hc => hpoint (congrArg some hc)
      simp [nano?, hc]
  · split
    · rename_i hmilli
      rw [hpart (hlength (by decide) (by change _ < 1000; omega)) (by decide)]
      simp only [Option.some.injEq, Prod.mk.injEq, and_true]
      change nano / 1000000 * 1000000 = nano
      omega
    · split
      · rename_i hmicro
        rw [hpart (hlength (by decide) (by change _ < 1000000; omega)) (by decide)]
        simp only [Option.some.injEq, Prod.mk.injEq, and_true]
        change nano / 1000 * 1000 = nano
        omega
      · rw [hpart (hlength (by decide) h) (by decide)]
        simp only [Option.some.injEq, Prod.mk.injEq, and_true]
        exact Nat.mul_one nano

private theorem ofLocal_zero (date : Date) {second : Nat} (h : second < 86400) (nano : Nat) :
    ofLocal date second nano 0 = { date, second, nano } := by
  simp only [ofLocal, Int.sub_zero, Int.toNat_natCast]
  rw [if_neg (by omega), if_neg (by omega)]

theorem daysInMonth_le (year : Int) (month : Nat) : Date.daysInMonth year month ≤ 31 := by
  unfold Date.daysInMonth
  split
  · split <;> decide
  all_goals decide

private theorem mark?_cons {c : Char} (h : isBlank c = false) (rest : List Char) : mark? c (c :: rest) = some rest := by
  have htrim : trimStart (c :: rest) = c :: rest := List.dropWhile_cons_of_neg (by simp [h])
  rw [mark?, htrim]
  exact dropPrefix?_append [c] rest

private theorem timeMark?_cons (rest : List Char) : timeMark? ('T' :: rest) = some rest := rfl

private theorem endsDigits_fractionText (nano : Nat) : EndsDigits (fractionText nano ++ ['Z']) := by
  rw [fractionText]
  split_ifs <;> exact endsDigits_cons rfl _

/-- An instant is read back from its text. -/
theorem parse?_text {t : Instant} (ht : t.IsProper) : parse? t.text = some t := by
  obtain ⟨⟨year, month, day⟩, second, nano⟩ := t
  obtain ⟨hdate, hsecond, hnano⟩ := ht
  simp only at hdate hsecond hnano
  obtain ⟨hmonth, hday⟩ : month < 100 ∧ day < 100 := by
    have hdays := daysInMonth_le year month
    simp only [Date.isValid, Bool.and_eq_true, decide_eq_true_eq] at hdate
    omega
  have hfraction : nano? (fractionText (nano % 1000000000) ++ ['Z']) = some (nano % 1000000000, ['Z']) :=
    nano?_fractionText (Nat.mod_lt _ (by decide)) (endsDigits_cons rfl _) (by simp)
  have hoffset : offset? (trimStart ['Z']) = some (0, []) := rfl
  -- a leap second is shown as second 60, with the nanoseconds it has beyond the second before it
  have hshown : second % 60 + nano / 1000000000 ≤ 60 := by omega
  have hwhole : 3600 * (second / 3600) + 60 * (second / 60 % 60) +
      (second % 60 + nano / 1000000000 - (second % 60 + nano / 1000000000) / 60) = second := by omega
  have hparts : nano % 1000000000 + 1000000000 * ((second % 60 + nano / 1000000000) / 60) = nano := by omega
  have hlocal : ofLocal ⟨year, month, day⟩
      (3600 * (second / 3600) + 60 * (second / 60 % 60) +
        (second % 60 + nano / 1000000000 - (second % 60 + nano / 1000000000) / 60))
      (nano % 1000000000 + 1000000000 * ((second % 60 + nano / 1000000000) / 60)) 0 =
        ⟨⟨year, month, day⟩, second, nano⟩ := by
    rw [hwhole, hparts, ofLocal_zero _ hsecond]
  have hclock : second / 3600 < 24 ∧ second / 60 % 60 < 60 := by omega
  have hread {α β : Type} {x : Option α} {f : α → Option β} {a : α} {b : β} (hx : x = some a)
      (hf : f a = some b) : x.bind f = some b := Option.bind_eq_some_iff.mpr ⟨a, hx, hf⟩
  have hguard {p : Prop} [Decidable p] (hp : p) : guard p = some () := if_pos hp
  simp only [text, List.append_assoc, List.cons_append]
  rw [parse?]
  refine hread (year?_yearText year (endsDigits_cons rfl _)) ?_
  refine hread (mark?_cons rfl _) ?_
  refine hread (number?_two hmonth (endsDigits_cons rfl _)) ?_
  refine hread (mark?_cons rfl _) ?_
  refine hread (number?_two hday (endsDigits_cons rfl _)) ?_
  refine hread (timeMark?_cons _) ?_
  refine hread (number?_two (by omega) (endsDigits_cons rfl _)) ?_
  refine hread (mark?_cons rfl _) ?_
  refine hread (number?_two (by omega) (endsDigits_cons rfl _)) ?_
  refine hread (mark?_cons rfl _) ?_
  refine hread (number?_two (by omega) (endsDigits_fractionText _)) ?_
  refine hread hfraction ?_
  refine hread hoffset ?_
  refine hread (hguard rfl) ?_
  refine hread (hguard (by simp [hdate, hclock, hshown])) ?_
  exact hread (hguard ((congrArg (·.date.isValid) hlocal).trans hdate)) (congrArg some hlocal)

end Instant
end DocComments
