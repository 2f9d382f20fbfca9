import DocComments.Proofs.History.Operations

/-! What a history in memory holds after any operations: under each id the record saved last, unless it was
deleted since. Everything it answers follows from that, whatever the order it keeps its records in. -/
namespace DocComments.History

/-- Whether the record was saved last under its id, which is the given one, and not deleted since. -/
def LastSaved (ops : List Operation) (id : String) (r : Record) : Prop :=
  ∃ before after, ops = before ++ .save r :: after ∧ r.id = id ∧
    (∀ r', .save r' ∈ after → r'.id ≠ id) ∧ .delete id ∉ after

private theorem not_lastSaved_nil (id : String) (r : Record) : ¬ LastSaved [] id r := by
  rintro ⟨before, after, h, -⟩
  exact List.append_ne_nil_of_right_ne_nil before (List.cons_ne_nil _ _) h.symm

/-- What one more operation does to the record saved last. -/
theorem lastSaved_concat (ops : List Operation) (op : Operation) (id : String) (r : Record) :
    LastSaved (ops ++ [op]) id r ↔
      op = .save r ∧ r.id = id ∨
        LastSaved ops id r ∧ (∀ r', op = .save r' → r'.id ≠ id) ∧ op ≠ .delete id := by
  constructor
  · rintro ⟨before, after, hops, hid, hsaved, hdeleted⟩
    rcases List.eq_nil_or_concat' after with rfl | ⟨after, last, rfl⟩
    · obtain ⟨-, hop⟩ := List.append_inj' hops rfl
      exact .inl ⟨(List.cons.inj hop).1, hid⟩
    · rw [← List.cons_append, ← List.append_assoc] at hops
      obtain ⟨rfl, hop⟩ := List.append_inj' hops rfl
      obtain rfl := (List.cons.inj hop).1
      simp only [List.mem_append, List.mem_singleton, not_or] at hsaved hdeleted
      exact .inr ⟨⟨before, after, rfl, hid, fun r' hr' => hsaved r' (.inl hr'), hdeleted.1⟩,
        fun r' hr' => hsaved r' (.inr hr'.symm), Ne.symm hdeleted.2⟩
  · rintro (⟨rfl, hid⟩ | ⟨⟨before, after, rfl, hid, hsaved, hdeleted⟩, hsave, hdelete⟩)
    · exact ⟨ops, [], rfl, hid, by simp, by simp⟩
    · refine ⟨before, after ++ [op], by simp, hid, fun r' hr' => ?_, ?_⟩
      · rcases List.mem_append.mp hr' with hr' | hr'
        · exact hsaved r' hr'
        · exact hsave r' (List.mem_singleton.mp hr').symm
      · rw [List.mem_append, List.mem_singleton, not_or]
        exact ⟨hdeleted, Ne.symm hdelete⟩

/-- A listing of what is left of the operations: each record that was saved last under its id, once and in
the order of listings. -/
structure IsListing (ops : List Operation) (live : List Record) : Prop where
  ordered : live.Pairwise Record.Before
  once : live.Nodup
  mem_iff : ∀ r, r ∈ live ↔ LastSaved ops r.id r

theorem IsListing.unique {ops ops' : List Operation} {live live' : List Record} (h : IsListing ops live)
    (h' : IsListing ops' live') (hsame : ∀ id r, LastSaved ops id r ↔ LastSaved ops' id r) : live = live' :=
  eq_of_pairwise_before h.ordered h'.ordered fun r => by rw [h.mem_iff, h'.mem_iff, hsame]

namespace Memory

/-- Whether the memory holds what is left of the operations. -/
structure Holds (m : Memory) (ops : List Operation) : Prop where
  distinct : m.DistinctIds
  get?_iff : ∀ id r, m.get? id = some r ↔ LastSaved ops id r

namespace Holds
variable {m m' : Memory} {ops : List Operation}

theorem empty : ({} : Memory).Holds [] where
  distinct := distinctIds_empty
  get?_iff id r := iff_of_false (Option.some_ne_none r).symm (not_lastSaved_nil id r)

theorem perm (h : m.Holds ops) (hperm : m.records.Perm m'.records) : m'.Holds ops where
  distinct := h.distinct.perm hperm
  get?_iff id r := by rw [get?_perm h.distinct hperm, h.get?_iff]

theorem save (h : m.Holds ops) (r : Record) : (m.save r).Holds (ops ++ [.save r]) where
  distinct := h.distinct.save r
  get?_iff id r' := by
    rw [lastSaved_concat, get?_save, ← h.get?_iff]
    by_cases hid : r.id = id
    · simp only [if_pos hid]
      grind
    · simp only [if_neg hid]
      grind

theorem erase (h : m.Holds ops) (id : String) : (m.erase id).Holds (ops ++ [.delete id]) where
  distinct := h.distinct.erase id
  get?_iff id' r := by
    rw [lastSaved_concat, get?_erase, ← h.get?_iff]
    by_cases hid : id = id'
    · simp [hid]
    · simp [hid]

/-- An operation of which nothing is kept. -/
theorem unchanged (h : m.Holds ops) {op : Operation} (hsave : ∀ r, op ≠ .save r)
    (hdelete : ∀ id, op = .delete id → m.get? id = none) : m.Holds (ops ++ [op]) where
  distinct := h.distinct
  get?_iff id r := by
    rw [lastSaved_concat, h.get?_iff]
    constructor
    · intro hr
      refine .inr ⟨hr, fun r' hr' => absurd hr' (hsave r'), fun hop => ?_⟩
      rw [← h.get?_iff, hdelete id hop] at hr
      exact absurd hr (Option.some_ne_none r).symm
    · exact fun hr => (hr.resolve_left fun hop => hsave r hop.1).1

/-- An operation on a memory that holds what is left of those before it. -/
theorem perform (h : m.Holds ops) (op : Operation) :
    ∃ m', ((Store.memory m).perform op).2 = .memory m' ∧ m'.Holds (ops ++ [op]) := by
  cases op with
  | save r => exact ⟨_, rfl, h.save r⟩
  | get id => exact ⟨_, rfl, h.unchanged (by simp) (by simp)⟩
  | list limit => exact ⟨_, rfl, h.unchanged (by simp) (by simp)⟩
  | delete id =>
    cases hid : m.get? id with
    | none =>
      refine ⟨m, by rw [Store.perform_delete_of_none hid], h.unchanged (by simp) ?_⟩
      rintro _ ⟨⟩
      exact hid
    | some r => exact ⟨m.erase id, by rw [Store.perform_delete_of_some hid], h.erase id⟩

/-- What operations leave in a memory that was empty. -/
theorem of_runs {answers : List (Except Error Answer)} {s : Store} (h : Store.Runs (.memory {}) ops answers s) :
    ∃ m, s = .memory m ∧ m.Holds ops := by
  induction h with
  | start => exact ⟨{}, rfl, empty⟩
  | again _ hsame ih =>
    obtain ⟨m, rfl, hm⟩ := ih
    cases hsame with
    | memory hperm => exact ⟨_, rfl, hm.perm hperm⟩
  | perform _ op ih =>
    obtain ⟨m, rfl, hm⟩ := ih
    exact hm.perform op

theorem isListing (h : m.Holds ops) : IsListing ops (newestFirst m.records) where
  ordered := pairwise_newestFirst h.distinct
  once := (newestFirst_perm m.records).nodup_iff.mpr (List.Nodup.of_map Record.id h.distinct)
  mem_iff r := by rw [(newestFirst_perm m.records).mem_iff, mem_records_iff h.distinct, h.get?_iff]

end Holds
end Memory

namespace Store

/-- After any operations on a memory that was empty, whatever order it keeps its records in: it has the
record saved last under an id unless that was deleted since; it deletes what it has; what it refuses changes
neither it nor what is left of the operations; and it lists the front of the one listing of all that is left,
which depends on nothing else. -/
theorem memory_answers {ops : List Operation} {answers : List (Except Error Answer)} {s : Store}
    (h : Runs (.memory {}) ops answers s) :
    ∃ m, s = .memory m ∧
      (∀ id r, m.get id = .ok r ↔ LastSaved ops id r) ∧
      (∀ id, (∀ r, ¬ LastSaved ops id r) → m.get id = .error (.notFound id)) ∧
      (∀ id, (m.delete id).1 = .ok () ↔ ∃ r, m.get id = .ok r) ∧
      (∀ op e, ((memory m).perform op).1 = .error e →
        ((memory m).perform op).2 = memory m ∧ ∀ id r, LastSaved (ops ++ [op]) id r ↔ LastSaved ops id r) ∧
      (∃ live, IsListing ops live ∧ ∀ limit, m.list limit = live.take limit) ∧
      (∀ ops' answers' m', Runs (.memory {}) ops' answers' (.memory m') →
        (∀ id r, LastSaved ops' id r ↔ LastSaved ops id r) → ∀ limit, m'.list limit = m.list limit) ∧
      (∀ less more, less ≤ more → m.list less <+: m.list more) ∧
      ∀ limit, ∀ r ∈ m.list limit, m.get r.id = .ok r := by
  obtain ⟨m, rfl, hm⟩ := Memory.Holds.of_runs h
  refine ⟨m, rfl, ?get, ?missing, ?delete, ?refused, ⟨_, hm.isListing, fun _ => rfl⟩, ?same, ?front, ?listed⟩
  case get => exact fun id r => by rw [Memory.get_eq_ok_iff, hm.get?_iff]
  case missing =>
    intro id hid
    rw [Memory.get_eq_error_iff, Option.eq_none_iff_forall_ne_some]
    exact ⟨fun r hr => hid r ((hm.get?_iff id r).mp hr), rfl⟩
  case delete =>
    intro id
    simp only [Memory.get_eq_ok_iff]
    cases hid : m.get? id with
    | none => simp [Memory.delete_of_none hid]
    | some r => simp [Memory.delete_of_some hid]
  case refused =>
    intro op e he
    -- only a record that is not there is refused, and to ask for it counts for nothing
    obtain ⟨id, hop, hid, hperform⟩ := perform_of_error he
    have hm' : m.Holds (ops ++ [op]) := by
      rcases hop with rfl | rfl
      · exact hm.unchanged (by simp) (by simp)
      · exact hm.unchanged (by simp) (by rintro _ ⟨⟩; exact hid)
    exact ⟨by rw [hperform], fun id r => by rw [← hm'.get?_iff, hm.get?_iff]⟩
  case same =>
    intro ops' answers' m' h' hsame limit
    obtain ⟨_, ⟨⟩, hm'⟩ := Memory.Holds.of_runs h'
    rw [Memory.list, Memory.list, hm'.isListing.unique hm.isListing hsame]
  case front =>
    intro less more hle
    exact List.take_prefix_take_left hle
  case listed =>
    intro limit r hr
    rw [Memory.get_eq_ok_iff, hm.get?_iff, ← hm.isListing.mem_iff]
    exact List.mem_of_mem_take hr

/-- A record saved again under its id, with a deletion of another id behind it. -/
theorem memory_answers_overwritten :
    let date : Date := { year := 2025, month := 1, day := 1 }
    let old : Record := ⟨"a", "f.py", .python, "x", "y", { date, second := 7, nano := 0 }⟩
    let new : Record := { old with contentAfter := "z", createdAt := { date, second := 5, nano := 0 } }
    ∃ m, ((memory {}).performAll [.save old, .save new, .delete "b"]).2 = memory m ∧ m.get "a" = .ok new := by
  intro date old new
  obtain ⟨m, hm, hget, -⟩ := memory_answers (runs_performAll (memory {}) [.save old, .save new, .delete "b"])
  exact ⟨m, hm, (hget "a" new).mpr ⟨[.save old], [.delete "b"], rfl, rfl, by simp, by simp⟩⟩

end Store
end DocComments.History
