import DocComments.Text.Find
import Mathlib.Data.List.Infix

/-! What the search for a fixed piece finds. -/
namespace DocComments.Text

theorem dropPrefix?_eq_some_iff {piece s rest : List Char} :
    dropPrefix? piece s = some rest ↔ s = piece ++ rest := by
  rw [dropPrefix?, List.isPrefixOf?_eq_some_iff_append_eq, eq_comm]

theorem dropPrefix?_eq_none_iff {piece s : List Char} :
    dropPrefix? piece s = none ↔ ¬ piece <+: s := by
  rw [Option.eq_none_iff_forall_ne_some]
  constructor
  · rintro h ⟨rest, rfl⟩
    exact h rest (dropPrefix?_eq_some_iff.mpr rfl)
  · rintro h rest he
    exact h ⟨rest, (dropPrefix?_eq_some_iff.mp he).symm⟩

@[simp] theorem dropPrefix?_append (piece rest : List Char) :
    dropPrefix? piece (piece ++ rest) = some rest :=
  dropPrefix?_eq_some_iff.mpr rfl

theorem suffix_of_dropPrefix? {piece s rest : List Char} (h : dropPrefix? piece s = some rest) :
    rest <:+ s :=
  ⟨piece, (dropPrefix?_eq_some_iff.mp h).symm⟩

theorem withoutPrefix_suffix (piece s : List Char) : withoutPrefix piece s <:+ s := by
  rw [withoutPrefix]
  cases hp : dropPrefix? piece s with
  | none => exact List.suffix_rfl
  | some rest => exact suffix_of_dropPrefix? hp

theorem dropSuffix?_eq_some_iff {piece s rest : List Char} :
    dropSuffix? piece s = some rest ↔ s = rest ++ piece := by
  rw [dropSuffix?, List.isSuffixOf?, Option.map_eq_some_iff]
  constructor
  · rintro ⟨back, hb, rfl⟩
    rw [← List.reverse_reverse s, dropPrefix?_eq_some_iff.mp hb, List.reverse_append, List.reverse_reverse]
  · rintro rfl
    exact ⟨rest.reverse, by rw [List.reverse_append]; exact dropPrefix?_append _ _, List.reverse_reverse rest⟩

theorem dropSuffix?_eq_none_iff {piece s : List Char} :
    dropSuffix? piece s = none ↔ ¬ piece <:+ s := by
  rw [dropSuffix?, List.isSuffixOf?, Option.map_eq_none_iff, ← List.reverse_prefix]
  exact dropPrefix?_eq_none_iff

@[simp] theorem withoutSuffix_append (rest piece : List Char) :
    withoutSuffix piece (rest ++ piece) = rest := by
  rw [withoutSuffix, dropSuffix?_eq_some_iff.mpr rfl, Option.getD_some]

theorem withoutSuffix_isPrefix (piece s : List Char) : withoutSuffix piece s <+: s := by
  rw [withoutSuffix]
  cases hs : dropSuffix? piece s with
  | none => exact List.prefix_rfl
  | some rest => exact ⟨piece, (dropSuffix?_eq_some_iff.mp hs).symm⟩

/-- The search fails exactly when the piece stands nowhere. -/
theorem splitAt?_eq_none_iff {piece s : List Char} (hp : piece ≠ []) :
    splitAt? piece s = none ↔ ¬ piece <:+: s := by
  induction s with
  | nil => simp [splitAt?, hp]
  | cons c s ih =>
    rw [List.infix_cons_iff, not_or, ← ih, ← dropPrefix?_eq_none_iff, splitAt?]
    cases dropPrefix? piece (c :: s) <;> simp

/-- A piece behind characters that cannot start it is found right there. -/
theorem splitAt?_append {c : Char} {before : List Char} (h : c ∉ before) (piece after : List Char) :
    splitAt? (c :: piece) (before ++ (c :: piece ++ after)) = some (before, after) := by
  induction before with
  | nil =>
    rw [List.nil_append, List.cons_append, splitAt?, ← List.cons_append, dropPrefix?_append]
  | cons d before ih =>
    rw [List.mem_cons, not_or] at h
    have hd : dropPrefix? (c :: piece) (d :: (before ++ (c :: piece ++ after))) = none := by
      rw [dropPrefix?_eq_none_iff, List.cons_prefix_cons]
      exact fun hp => h.1 hp.1
    rw [List.cons_append, splitAt?, hd, ih h.2]
    rfl

theorem eq_append_of_splitAt? {piece s before after : List Char}
    (h : splitAt? piece s = some (before, after)) : s = before ++ (piece ++ after) := by
  induction s generalizing before after with
  | nil =>
    rw [splitAt?] at h
    split at h
    · rename_i hp
      obtain ⟨rfl, rfl⟩ := Prod.mk.inj (Option.some.inj h)
      simp [List.isEmpty_iff.mp hp]
    · simp at h
  | cons c s ih =>
    rw [splitAt?] at h
    split at h
    · rename_i hp
      obtain ⟨rfl, rfl⟩ := Prod.mk.inj (Option.some.inj h)
      rw [dropPrefix?_eq_some_iff.mp hp, List.nil_append]
    · obtain ⟨⟨inner, _⟩, hs, he⟩ := Option.map_eq_some_iff.mp h
      obtain ⟨rfl, rfl⟩ := Prod.mk.inj he
      rw [ih hs, List.cons_append]

private theorem splitAt?_self_append (piece after : List Char) :
    splitAt? piece (piece ++ after) = some ([], after) := by
  cases hs : piece ++ after with
  | nil => simp_all [splitAt?]
  | cons c rest =>
    have hd : dropPrefix? piece (c :: rest) = some after := dropPrefix?_eq_some_iff.mpr hs.symm
    rw [splitAt?, hd]

/-- Where a piece is found does not depend on what stands behind it. -/
theorem splitAt?_append_other {piece s before after : List Char}
    (h : splitAt? piece s = some (before, after)) (other : List Char) :
    splitAt? piece (before ++ (piece ++ other)) = some (before, other) := by
  induction s generalizing before after with
  | nil =>
    rw [splitAt?] at h
    split at h
    · obtain ⟨rfl, -⟩ := Prod.mk.inj (Option.some.inj h)
      exact splitAt?_self_append piece other
    · simp at h
  | cons c s ih =>
    rw [splitAt?] at h
    split at h
    · obtain ⟨rfl, -⟩ := Prod.mk.inj (Option.some.inj h)
      exact splitAt?_self_append piece other
    · rename_i hd
      obtain ⟨⟨inner, _⟩, hs, he⟩ := Option.map_eq_some_iff.mp h
      obtain ⟨rfl, rfl⟩ := Prod.mk.inj he
      have hnone : dropPrefix? piece (c :: (inner ++ (piece ++ other))) = none := by
        rw [dropPrefix?_eq_none_iff, eq_append_of_splitAt? hs] at hd
        rw [dropPrefix?_eq_none_iff]
        intro hp
        -- an occurrence further left ends before the other text begins
        have hshort : piece <+: c :: (inner ++ piece) := by
          rw [← List.append_assoc, ← List.cons_append] at hp
          refine List.prefix_of_prefix_length_le hp (List.prefix_append _ _) ?_
          simp only [List.length_cons, List.length_append]
          omega
        apply hd
        rw [← List.append_assoc, ← List.cons_append]
        exact hshort.trans (List.prefix_append _ _)
      rw [List.cons_append, splitAt?, hnone, ih hs]
      rfl

/-- Characters in front that cannot start the piece do not help it to stand in the text. -/
theorem infix_append_iff {c : Char} {piece before s : List Char} (h : c ∉ before) :
    c :: piece <:+: before ++ s ↔ c :: piece <:+: s := by
  induction before with
  | nil => rfl
  | cons d before ih =>
    rw [List.mem_cons, not_or] at h
    rw [List.cons_append, List.infix_cons_iff, ih h.2, or_iff_right]
    exact fun hp => h.1 (List.cons_prefix_cons.mp hp).1

/-- Replaces every occurrence of the piece, from the left. The first `skip` characters belong to the
occurrence just replaced. -/
def replaceFrom (piece new : List Char) : Nat → List Char → List Char
  | _, [] => []
  | skip + 1, _ :: rest => replaceFrom piece new skip rest
  | 0, c :: rest =>
    if startsWith piece (c :: rest) then new ++ replaceFrom piece new (piece.length - 1) rest
    else c :: replaceFrom piece new 0 rest

def replaceAll (piece new s : List Char) : List Char :=
  replaceFrom piece new 0 s

private theorem replaceFrom_append (piece new skipped rest : List Char) :
    replaceFrom piece new skipped.length (skipped ++ rest) = replaceAll piece new rest := by
  induction skipped with
  | nil => rfl
  | cons c skipped ih => rw [List.length_cons, List.cons_append, replaceFrom, ih]

theorem replaceAll_append (piece new : List Char) (hp : piece ≠ []) (rest : List Char) :
    replaceAll piece new (piece ++ rest) = new ++ replaceAll piece new rest := by
  obtain ⟨c, piece, rfl⟩ := List.exists_cons_of_ne_nil hp
  have hstart : startsWith (c :: piece) (c :: (piece ++ rest)) := by
    rw [startsWith, List.isPrefixOf_iff_prefix]
    exact List.prefix_append (c :: piece) rest
  rw [List.cons_append, replaceAll, replaceFrom, if_pos hstart, List.length_cons,
    Nat.add_sub_cancel, replaceFrom_append]

theorem replaceAll_cons {piece new rest : List Char} {c : Char} (h : ¬ piece <+: c :: rest) :
    replaceAll piece new (c :: rest) = c :: replaceAll piece new rest := by
  rw [replaceAll, replaceFrom, if_neg]
  · rfl
  · rwa [startsWith, List.isPrefixOf_iff_prefix]

/-- Induction along a search from the left: an occurrence is passed over in one step, and any other
character by itself. -/
theorem occurrence_induction {piece : List Char} (hp : piece ≠ []) {motive : List Char → Prop}
    (nil : motive []) (hit : ∀ rest, motive rest → motive (piece ++ rest))
    (skip : ∀ c rest, ¬ piece <+: c :: rest → motive rest → motive (c :: rest)) (s : List Char) :
    motive s := by
  induction hn : s.length using Nat.strong_induction_on generalizing s with
  | _ n ih =>
    subst hn
    by_cases hs : piece <+: s
    · obtain ⟨rest, rfl⟩ := hs
      have hpos := List.length_pos_of_ne_nil hp
      exact hit rest (ih rest.length (by rw [List.length_append]; omega) rest rfl)
    · cases s with
      | nil => exact nil
      | cons c rest => exact skip c rest hs (ih rest.length (Nat.lt_succ_self _) rest rfl)

/-- What replaces the piece where the text starts with it, and goes on behind the first character where
it does not, replaces every occurrence. -/
theorem eq_replaceAll {f : List Char → List Char} {piece new : List Char} (hp : piece ≠ [])
    (hnil : f [] = []) (hpiece : ∀ rest, f (piece ++ rest) = new ++ f rest)
    (hcons : ∀ c rest, ¬ piece <+: c :: rest → f (c :: rest) = c :: f rest) (s : List Char) :
    f s = replaceAll piece new s := by
  induction s using occurrence_induction hp with
  | nil => rw [hnil, replaceAll, replaceFrom]
  | hit rest ih => rw [hpiece, replaceAll_append piece new hp, ih]
  | skip c rest hno ih => rw [hcons c rest hno, replaceAll_cons hno, ih]

theorem replaceAll_eq_self {piece s : List Char} (new : List Char) (h : ¬ piece <:+: s) :
    replaceAll piece new s = s := by
  induction s with
  | nil => rw [replaceAll, replaceFrom]
  | cons c s ih =>
    rw [List.infix_cons_iff, not_or] at h
    rw [replaceAll_cons h.1, ih h.2]

/-- Replacing a piece by a shorter one shortens the text, if the piece stands in it. -/
theorem length_replaceAll {piece new : List Char} (hlt : new.length < piece.length) (s : List Char) :
    (replaceAll piece new s).length ≤ s.length ∧
      (piece <:+: s → (replaceAll piece new s).length < s.length) := by
  have hp : piece ≠ [] := List.ne_nil_of_length_pos (Nat.zero_lt_of_lt hlt)
  induction s using occurrence_induction hp with
  | nil =>
    rw [replaceAll, replaceFrom]
    exact ⟨Nat.le_refl _, fun hi => absurd (List.infix_nil.mp hi) hp⟩
  | hit rest ih =>
    rw [replaceAll_append piece new hp, List.length_append, List.length_append]
    omega
  | skip c rest hno ih =>
    obtain ⟨hle, hshort⟩ := ih
    rw [replaceAll_cons hno, List.length_cons, List.length_cons, List.infix_cons_iff]
    refine ⟨Nat.succ_le_succ hle, fun hi => Nat.succ_lt_succ (hshort ?_)⟩
    exact hi.resolve_left hno

theorem replaceAll_eq_self_iff {piece new : List Char} (hlt : new.length < piece.length) {s : List Char} :
    replaceAll piece new s = s ↔ ¬ piece <:+: s := by
  refine ⟨fun he hi => ?_, replaceAll_eq_self new⟩
  have hshort := (length_replaceAll hlt s).2 hi
  rw [he] at hshort
  exact Nat.lt_irrefl _ hshort

theorem not_prefix_append_cons {piece before : List Char} {c : Char} (hc : c ∉ piece)
    (hs : ¬ piece <+: before) (after : List Char) : ¬ piece <+: before ++ c :: after := by
  intro hpre
  rcases List.prefix_or_prefix_of_prefix hpre (List.prefix_append before (c :: after)) with h | h
  · exact hs h
  · obtain ⟨tail, rfl⟩ := h
    rw [List.prefix_append_right_inj] at hpre
    cases tail with
    | nil => exact hs (by simp)
    | cons d tail =>
      obtain ⟨rfl, -⟩ := List.cons_prefix_cons.mp hpre
      exact hc (by simp)

/-- A character that does not stand in the piece keeps the occurrences on its two sides apart. -/
theorem replaceAll_append_cons {piece new : List Char} {c : Char} (hp : piece ≠ []) (hc : c ∉ piece)
    (before after : List Char) :
    replaceAll piece new (before ++ c :: after) =
      replaceAll piece new before ++ c :: replaceAll piece new after := by
  induction before using occurrence_induction hp with
  | nil =>
    have hno : ¬ piece <+: [] ++ c :: after := not_prefix_append_cons hc (by simpa using hp) after
    rw [List.nil_append] at hno ⊢
    rw [replaceAll_cons hno]
    rfl
  | hit rest ih =>
    rw [List.append_assoc, replaceAll_append piece new hp, replaceAll_append piece new hp, ih,
      List.append_assoc]
  | skip d rest hd ih =>
    have hno := not_prefix_append_cons hc hd after
    rw [List.cons_append] at hno ⊢
    rw [replaceAll_cons hno, replaceAll_cons hd, ih, List.cons_append]

private theorem exists_splitOnChar_eq_cons (separator : Char) (s : List Char) :
    ∃ piece pieces, splitOnChar separator s = piece :: pieces ∧ piece <+: s := by
  induction s with
  | nil => exact ⟨[], [], rfl, List.nil_prefix⟩
  | cons c s ih =>
    obtain ⟨piece, pieces, hs, hp⟩ := ih
    rw [splitOnChar]
    split
    · exact ⟨[], _, rfl, List.nil_prefix⟩
    · exact ⟨c :: piece, pieces, by rw [hs], List.cons_prefix_cons.mpr ⟨rfl, hp⟩⟩

theorem splitOnChar_eq_splitOn (separator : Char) (s : List Char) :
    splitOnChar separator s = s.splitOn separator := by
  induction s with
  | nil => rfl
  | cons c s ih =>
    rw [splitOnChar, List.splitOn_cons_eq_if_modifyHead, ih]
    by_cases hc : c = separator
    · rw [if_pos hc, if_pos (beq_iff_eq.mpr hc)]
    · rw [if_neg hc, if_neg (by simpa using hc)]
      cases hs : s.splitOn separator with
      | nil => exact absurd hs (List.splitOn_ne_nil separator s)
      | cons piece pieces => rfl

theorem splitOnChar_of_not_mem {separator : Char} {s : List Char} (h : separator ∉ s) :
    splitOnChar separator s = [s] := by
  rw [splitOnChar_eq_splitOn, List.splitOn_eq_singleton h]

theorem splitOnChar_append_cons (separator : Char) (before after : List Char) :
    splitOnChar separator (before ++ separator :: after) =
      splitOnChar separator before ++ splitOnChar separator after := by
  simp only [splitOnChar_eq_splitOn]
  exact List.splitOnP_append_cons before after (beq_self_eq_true separator)

/-- The pieces of a text stand in it and hold no separator. -/
theorem mem_splitOnChar {separator : Char} {s piece : List Char} (h : piece ∈ splitOnChar separator s) :
    piece <:+: s ∧ separator ∉ piece := by
  induction s generalizing piece with
  | nil =>
    obtain rfl := List.mem_singleton.mp h
    exact ⟨List.nil_infix, List.not_mem_nil⟩
  | cons c s ih =>
    obtain ⟨first, pieces, hs, hp⟩ := exists_splitOnChar_eq_cons separator s
    have hfirst : separator ∉ first := (ih (by rw [hs]; exact List.mem_cons_self)).2
    rw [splitOnChar] at h
    split at h
    · rcases List.mem_cons.mp h with rfl | h
      · exact ⟨List.nil_infix, List.not_mem_nil⟩
      · exact ⟨(ih h).1.trans (List.suffix_cons c s).isInfix, (ih h).2⟩
    · rename_i hc
      rw [hs] at h
      rcases List.mem_cons.mp h with rfl | h
      · refine ⟨(List.cons_prefix_cons.mpr ⟨rfl, hp⟩).isInfix, ?_⟩
        rw [List.mem_cons, not_or]
        exact ⟨fun he => hc he.symm, hfirst⟩
      · have hmem := ih (by rw [hs]; exact List.mem_cons_of_mem first h)
        exact ⟨hmem.1.trans (List.suffix_cons c s).isInfix, hmem.2⟩

end DocComments.Text
