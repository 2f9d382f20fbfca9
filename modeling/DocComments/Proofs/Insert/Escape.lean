import DocComments.Insert
import DocComments.Proofs.Text.Blank
import DocComments.Proofs.Text.Lines
import Mathlib.Data.List.Infix

/-! Documentation with its closing tokens escaped. The escapes put backslashes in front of characters
and take nothing away; that of double quotes still leaves three in a row of some runs. -/
namespace DocComments.Insert
open Text

/-- The text with backslashes put in front of some of its characters. -/
inductive Escaped : List Char → List Char → Prop
  | nil : Escaped [] []
  | keep {c : Char} {s t : List Char} : Escaped s t → Escaped (c :: s) (c :: t)
  | mark {c : Char} {s t : List Char} : Escaped s t → Escaped (c :: s) ('\\' :: c :: t)

namespace Escaped
variable {s t : List Char}

theorem getLast?_eq (h : Escaped s t) : t.getLast? = s.getLast? := by
  induction h with
  | nil => rfl
  | keep _ ih => simp [List.getLast?_cons, ih]
  | mark _ ih => simp [List.getLast?_cons, ih]

theorem mem {c : Char} (h : Escaped s t) (hc : c ∈ t) : c ∈ s ∨ c = '\\' := by
  induction h with
  | nil => exact .inl hc
  | keep _ ih =>
    rcases List.mem_cons.mp hc with rfl | hc
    · exact .inl List.mem_cons_self
    · exact (ih hc).imp_left (List.mem_cons_of_mem _)
  | mark _ ih =>
    rcases List.mem_cons.mp hc with rfl | hc
    · exact .inr rfl
    · rcases List.mem_cons.mp hc with rfl | hc
      · exact .inl List.mem_cons_self
      · exact (ih hc).imp_left (List.mem_cons_of_mem _)

theorem ne_nil (h : Escaped s t) (hs : s ≠ []) : t ≠ [] := by
  cases h <;> simp_all

theorem trimmed (h : Escaped s t) (hs : Trimmed s) : Trimmed t where
  ne_nil := h.ne_nil hs.ne_nil
  head := by
    cases h with
    | nil => simp
    | keep _ => exact hs.head
    | mark _ => simp [isBlank]
  last := by
    rw [h.getLast?_eq]
    exact hs.last

theorem plain (h : Escaped s t) (hs : Plain s) : Plain t := by
  refine ⟨fun hn => ?_, by rw [h.getLast?_eq]; exact hs.2⟩
  rcases h.mem hn with hn | hn
  · exact hs.1 hn
  · exact absurd hn (by decide)

end Escaped

theorem escaped_escapeQuotes (s : List Char) : Escaped s (escapeQuotes s) := by
  fun_induction escapeQuotes s with
  | case1 rest ih => exact .mark (.mark (.mark ih))
  | case2 c rest _ ih => exact .keep ih
  | case3 => exact .nil

theorem escaped_escapeCloser (s : List Char) : Escaped s (escapeCloser s) := by
  fun_induction escapeCloser s with
  | case1 rest ih => exact .keep (.mark ih)
  | case2 c rest _ ih => exact .keep ih
  | case3 => exact .nil

theorem escapeQuotes_cons {c : Char} {rest : List Char} (hc : ¬ quotes <+: c :: rest) :
    escapeQuotes (c :: rest) = c :: escapeQuotes rest := by
  rw [escapeQuotes]
  rintro tail rfl rfl
  exact hc ⟨tail, rfl⟩

private theorem quotes_prefix_of_escapeQuotes {n : Nat} {s : List Char}
    (h : List.replicate n '"' <+: escapeQuotes s) : List.replicate n '"' <+: s := by
  fun_induction escapeQuotes s generalizing n with
  | case1 rest ih =>
    cases n with
    | zero => exact List.nil_prefix
    | succ n =>
      rw [List.replicate_succ] at h
      exact absurd (List.cons_prefix_cons.mp h).1 (by decide)
  | case2 c rest _ ih =>
    cases n with
    | zero => exact List.nil_prefix
    | succ n =>
      rw [List.replicate_succ] at h ⊢
      obtain ⟨rfl, hrest⟩ := List.cons_prefix_cons.mp h
      exact List.cons_prefix_cons.mpr ⟨rfl, ih hrest⟩
  | case3 => exact h

private theorem twoQuotes_prefix_escapeQuotes_iff (s : List Char) :
    ['"', '"'] <+: escapeQuotes s ↔ ∃ tail, s = '"' :: '"' :: tail ∧ tail.head? ≠ some '"' := by
  constructor
  · intro h
    obtain ⟨tail, rfl⟩ := quotes_prefix_of_escapeQuotes (n := 2) h
    refine ⟨tail, rfl, fun ht => ?_⟩
    obtain ⟨rest, rfl⟩ := List.head?_eq_some_iff.mp ht
    simp [escapeQuotes] at h
  · rintro ⟨tail, rfl, htail⟩
    have hsecond : ¬ quotes <+: '"' :: tail := by
      rintro ⟨rest, he⟩
      obtain rfl := (List.cons_eq_cons.mp he).2
      exact htail rfl
    have hfirst : ¬ quotes <+: '"' :: '"' :: tail := by
      rintro ⟨rest, he⟩
      obtain rfl := (List.cons_eq_cons.mp (List.cons_eq_cons.mp he).2).2
      exact htail rfl
    rw [escapeQuotes_cons hfirst, escapeQuotes_cons hsecond]
    exact List.prefix_append ['"', '"'] _

/-- A whole run of double quotes of which the escape, which takes them by threes from the left, leaves
the last two as they are. Behind the quote escaped before them, they are the third and second of three. -/
def LeavesQuotes (s : List Char) : Prop :=
  ∃ before n after, s = before ++ (List.replicate (3 * n + 5) '"' ++ after) ∧
    before.getLast? ≠ some '"' ∧ after.head? ≠ some '"'

private theorem leavesQuotes_cons {c : Char} {rest : List Char} (hc : ¬ quotes <+: c :: rest) :
    LeavesQuotes (c :: rest) ↔ LeavesQuotes rest := by
  constructor
  · rintro ⟨before, n, after, he, hbefore, hafter⟩
    cases before with
    | nil => exact absurd ⟨List.replicate (3 * n + 2) '"' ++ after, he.symm⟩ hc
    | cons d before =>
      obtain ⟨-, rfl⟩ := List.cons_eq_cons.mp he
      refine ⟨before, n, after, rfl, fun hl => hbefore ?_, hafter⟩
      rw [List.getLast?_cons, hl, Option.getD_some]
  · rintro ⟨before, n, after, rfl, hbefore, hafter⟩
    refine ⟨c :: before, n, after, rfl, ?_, hafter⟩
    cases before with
    | nil =>
      intro hl
      obtain rfl := Option.some.inj hl
      exact hc ⟨List.replicate (3 * n + 3) '"' ++ after, rfl⟩
    | cons d before => rwa [List.getLast?_cons_of_ne_nil (List.cons_ne_nil d before)]

private theorem leavesQuotes_append (rest : List Char) :
    LeavesQuotes (quotes ++ rest) ↔
      (∃ tail, rest = '"' :: '"' :: tail ∧ tail.head? ≠ some '"') ∨ LeavesQuotes rest := by
  constructor
  · rintro ⟨before, n, after, he, hbefore, hafter⟩
    rcases List.append_eq_append_iff.mp he with ⟨front, rfl, hrest⟩ | ⟨tail, hq, hrun⟩
    · -- the run stands behind the three quotes
      refine .inr ⟨front, n, after, hrest, fun hl => hbefore ?_, hafter⟩
      rw [List.getLast?_append, hl, Option.some_or]
    · -- the three quotes are the first of the run, as no quote may stand before it
      have hnil : before = [] := by
        by_contra hne
        have hmem : before.getLast hne ∈ quotes := by
          rw [hq]
          exact List.mem_append_left tail (List.getLast_mem hne)
        have hlast : before.getLast hne = '"' := by simpa [quotes] using hmem
        exact hbefore (hlast ▸ List.getLast?_eq_some_getLast hne)
      subst hnil
      obtain rfl : tail = quotes := hq.symm
      have hrest : rest = List.replicate (3 * n + 2) '"' ++ after := by
        have hcut : quotes ++ (List.replicate (3 * n + 2) '"' ++ after) = quotes ++ rest := hrun
        exact (List.append_cancel_left hcut).symm
      cases n with
      | zero => exact .inl ⟨after, hrest, hafter⟩
      | succ n => exact .inr ⟨[], n, after, hrest, by simp, hafter⟩
  · rintro (⟨tail, rfl, htail⟩ | ⟨before, n, after, rfl, hbefore, hafter⟩)
    · exact ⟨[], 0, tail, rfl, by simp, htail⟩
    · cases before with
      | nil => exact ⟨[], n + 1, after, rfl, by simp, hafter⟩
      | cons c before =>
        refine ⟨quotes ++ c :: before, n, after, by simp, ?_, hafter⟩
        rwa [List.getLast?_append_of_ne_nil _ (List.cons_ne_nil c before)]

/-- The escape leaves three double quotes in a row exactly of a run of five, eight, eleven and so on. -/
theorem quotes_infix_escapeQuotes_iff (s : List Char) :
    quotes <:+: escapeQuotes s ↔ LeavesQuotes s := by
  fun_induction escapeQuotes s with
  | case1 rest ih =>
    -- behind the last of the three escaped quotes, two more make three
    have hgroup := leavesQuotes_append rest
    rw [← twoQuotes_prefix_escapeQuotes_iff, ← ih] at hgroup
    simp only [quotes, List.cons_append, List.nil_append] at hgroup
    rw [hgroup]
    simp [quotes, List.infix_cons_iff, List.cons_prefix_cons]
  | case2 c rest hc ih =>
    have hno : ¬ quotes <+: c :: rest := by
      rintro ⟨tail, he⟩
      obtain ⟨rfl, rfl⟩ := List.cons_eq_cons.mp he
      exact hc tail rfl rfl
    have hescaped : ¬ quotes <+: c :: escapeQuotes rest := by
      intro hp
      obtain ⟨rfl, htwo⟩ := List.cons_prefix_cons.mp hp
      obtain ⟨tail, rfl⟩ := quotes_prefix_of_escapeQuotes (n := 2) htwo
      exact hc tail rfl rfl
    rw [List.infix_cons_iff, or_iff_right hescaped, ih, leavesQuotes_cons hno]
  | case3 => simp [quotes, LeavesQuotes]

instance : DecidablePred LeavesQuotes := fun s =>
  decidable_of_iff _ (quotes_infix_escapeQuotes_iff s)

/-- Of a text without five double quotes in a row, the escaped text does not close a docstring. -/
theorem not_quotes_infix_escapeQuotes {s : List Char} (h : ¬ List.replicate 5 '"' <:+: s) :
    ¬ quotes <:+: escapeQuotes s := by
  rw [quotes_infix_escapeQuotes_iff]
  rintro ⟨before, n, after, rfl, -, -⟩
  have hfive : List.replicate 5 '"' <+: List.replicate (3 * n + 5) '"' :=
    ⟨List.replicate (3 * n) '"', by rw [← List.replicate_add, Nat.add_comm]⟩
  exact h (hfive.isInfix.trans ⟨before, after, by rw [List.append_assoc]⟩)

end DocComments.Insert
