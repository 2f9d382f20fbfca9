import DocComments.History.Record
import Mathlib.Data.List.Nodup
import Mathlib.Data.String.Basic
import Mathlib.Tactic.SplitIfs

/-! The order of a listing. Instants are ordered, records of one instant by their ids, so that records of
different ids have one order, and a listing of them depends on nothing else. -/
namespace DocComments

section Instants

theorem Date.lt_iff {a b : Date} :
    a.lt b ↔ a.year < b.year ∨ a.year = b.year ∧ (a.month < b.month ∨ a.month = b.month ∧ a.day < b.day) := by
  simp [Date.lt]

theorem Date.lt_trans {a b c : Date} (hab : a.lt b) (hbc : b.lt c) : a.lt c := by
  rw [Date.lt_iff] at *
  omega

theorem Date.lt_irrefl (a : Date) : ¬ a.lt a := by
  rw [Date.lt_iff]
  omega

theorem Date.lt_trichotomy (a b : Date) : a.lt b ∨ a = b ∨ b.lt a := by
  have hext : a.year = b.year → a.month = b.month → a.day = b.day → a = b := by
    obtain ⟨year, month, day⟩ := a
    rintro rfl rfl rfl
    rfl
  by_cases hab : a.lt b
  · exact .inl hab
  · by_cases hba : b.lt a
    · exact .inr (.inr hba)
    · rw [Date.lt_iff] at hab hba
      exact .inr (.inl (hext (by omega) (by omega) (by omega)))

namespace Instant

theorem lt_iff {a b : Instant} :
    a.lt b ↔ a.date.lt b.date ∨
      a.date = b.date ∧ (a.second < b.second ∨ a.second = b.second ∧ a.nano < b.nano) := by
  simp [lt]

theorem lt_trans {a b c : Instant} (hab : a.lt b) (hbc : b.lt c) : a.lt c := by
  rw [lt_iff] at *
  rcases hab with hab | ⟨hab, htab⟩
  · rcases hbc with hbc | ⟨hbc, -⟩
    · exact .inl (Date.lt_trans hab hbc)
    · exact .inl (hbc ▸ hab)
  · rw [hab]
    refine hbc.imp_right fun ⟨hbc, htbc⟩ => ⟨hbc, ?_⟩
    omega

theorem lt_irrefl (a : Instant) : ¬ a.lt a := by
  rw [lt_iff, not_or]
  exact ⟨Date.lt_irrefl a.date, by omega⟩

theorem lt_trichotomy (a b : Instant) : a.lt b ∨ a = b ∨ b.lt a := by
  have hext : a.date = b.date → a.second = b.second → a.nano = b.nano → a = b := by
    obtain ⟨date, second, nano⟩ := a
    rintro rfl rfl rfl
    rfl
  rw [lt_iff, lt_iff]
  rcases Date.lt_trichotomy a.date b.date with h | h | h
  · exact .inl (.inl h)
  · by_cases htime : a.second = b.second ∧ a.nano = b.nano
    · exact .inr (.inl (hext h htime.1 htime.2))
    · rcases (by omega : (a.second < b.second ∨ a.second = b.second ∧ a.nano < b.nano) ∨
        (b.second < a.second ∨ b.second = a.second ∧ b.nano < a.nano)) with ht | ht
      · exact .inl (.inr ⟨h, ht⟩)
      · exact .inr (.inr (.inr ⟨h.symm, ht⟩))
  · exact .inr (.inr (.inl h))

end Instant

end Instants

namespace History
namespace Record

/-- Whether the first record is strictly in front of the second: it is newer, or of the same instant and of
the lesser id. -/
def Before (a b : Record) : Prop :=
  b.createdAt.lt a.createdAt ∨ a.createdAt = b.createdAt ∧ a.id < b.id

theorem Before.trans {a b c : Record} (hab : a.Before b) (hbc : b.Before c) : a.Before c := by
  rcases hab with hab | ⟨hab, hidab⟩
  · rcases hbc with hbc | ⟨hbc, -⟩
    · exact .inl (Instant.lt_trans hbc hab)
    · exact .inl (hbc ▸ hab)
  · rcases hbc with hbc | ⟨hbc, hidbc⟩
    · exact .inl (hab ▸ hbc)
    · exact .inr ⟨hab.trans hbc, lt_trans hidab hidbc⟩

theorem Before.irrefl (a : Record) : ¬ a.Before a := by
  rintro (h | ⟨-, h⟩)
  · exact Instant.lt_irrefl _ h
  · exact absurd h (lt_irrefl a.id)

/-- Records of different ids are in order. -/
theorem before_or_before {a b : Record} (h : a.id ≠ b.id) : a.Before b ∨ b.Before a := by
  rcases Instant.lt_trichotomy a.createdAt b.createdAt with ht | ht | ht
  · exact .inr (.inl ht)
  · exact (lt_or_gt_of_ne h).imp (fun hid => .inr ⟨ht, hid⟩) fun hid => .inr ⟨ht.symm, hid⟩
  · exact .inl (.inl ht)

theorem precedes_iff {a b : Record} : a.precedes b ↔ a.Before b ∨ a.createdAt = b.createdAt ∧ a.id = b.id := by
  have hid : ¬ b.id < a.id ↔ a.id < b.id ∨ a.id = b.id := by rw [not_lt, le_iff_lt_or_eq]
  simp only [precedes, Before, Bool.or_eq_true, Bool.and_eq_true, beq_iff_eq, Bool.not_eq_true',
    decide_eq_false_iff_not, hid, and_or_left, or_assoc]

theorem precedes_trans {a b c : Record} (hab : a.precedes b) (hbc : b.precedes c) : a.precedes c := by
  have hsame {a b c : Record} (ht : a.createdAt = b.createdAt) (hid : a.id = b.id) :
      a.Before c ↔ b.Before c := by
    rw [Before, Before, ht, hid]
  have hsame' {a b c : Record} (ht : a.createdAt = b.createdAt) (hid : a.id = b.id) :
      c.Before a ↔ c.Before b := by
    rw [Before, Before, ht, hid]
  rw [precedes_iff] at *
  rcases hab with hab | ⟨ht, hid⟩
  · rcases hbc with hbc | ⟨ht, hid⟩
    · exact .inl (hab.trans hbc)
    · exact .inl ((hsame' ht hid).mp hab)
  · rw [hsame ht hid, ht, hid]
    exact hbc

theorem precedes_total (a b : Record) : a.precedes b || b.precedes a := by
  rw [Bool.or_eq_true, precedes_iff, precedes_iff]
  by_cases hid : a.id = b.id
  · rcases Instant.lt_trichotomy a.createdAt b.createdAt with ht | ht | ht
    · exact .inr (.inl (.inl ht))
    · exact .inl (.inr ⟨ht, hid⟩)
    · exact .inl (.inl (.inl ht))
  · exact (before_or_before hid).imp .inl .inl

end Record

section Listing

theorem newestFirst_perm (records : List Record) : (newestFirst records).Perm records :=
  List.mergeSort_perm records Record.precedes

/-- Records of different ids are listed in their strict order. -/
theorem pairwise_newestFirst {records : List Record} (h : (records.map (·.id)).Nodup) :
    (newestFirst records).Pairwise Record.Before := by
  have hids : (newestFirst records).Pairwise fun a b => a.id ≠ b.id := by
    have hnodup := ((newestFirst_perm records).map Record.id).nodup_iff.mpr h
    exact List.pairwise_map.mp hnodup
  have hsorted : (newestFirst records).Pairwise fun a b => a.precedes b := by
    refine List.pairwise_mergeSort ?_ Record.precedes_total records
    exact fun a b c => Record.precedes_trans
  refine (hsorted.and hids).imp fun ⟨hab, hne⟩ => ?_
  exact (Record.precedes_iff.mp hab).resolve_right fun heq => hne heq.2

/-- A listing is told by the records in it. -/
theorem eq_of_pairwise_before {l l' : List Record} (h : l.Pairwise Record.Before)
    (h' : l'.Pairwise Record.Before) (hmem : ∀ r, r ∈ l ↔ r ∈ l') : l = l' := by
  have hnodup {l : List Record} (h : l.Pairwise Record.Before) : l.Nodup := by
    refine h.imp ?_
    rintro a _ hab rfl
    exact Record.Before.irrefl a hab
  have hperm : l.Perm l' := (List.perm_ext_iff_of_nodup (hnodup h) (hnodup h')).mpr hmem
  exact hperm.eq_of_pairwise (fun a b _ _ hab hba => absurd (hab.trans hba) (Record.Before.irrefl a)) h h'

/-- The order in which records of different ids are kept does not show in a listing of them. -/
theorem newestFirst_congr {records records' : List Record} (hperm : records.Perm records')
    (h : (records.map (·.id)).Nodup) : newestFirst records = newestFirst records' := by
  have h' : (records'.map (·.id)).Nodup := (hperm.map Record.id).nodup_iff.mp h
  refine eq_of_pairwise_before (pairwise_newestFirst h) (pairwise_newestFirst h') fun r => ?_
  rw [(newestFirst_perm records).mem_iff, (newestFirst_perm records').mem_iff, hperm.mem_iff]

end Listing

end History
end DocComments
