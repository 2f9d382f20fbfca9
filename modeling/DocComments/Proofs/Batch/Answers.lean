import DocComments.Batch
import Mathlib.Data.List.Nodup
import Mathlib.Data.List.Enum

/-! The answers of a batch. Whatever the order in which calls end and the size of the groups, the texts
come in the order of the first requests for each name, and a name is mapped to the text of its first
request. -/
namespace DocComments.Batch
variable {generate : DocRequest → Outcome}

/-- What a call of the generator contributes. -/
def answer? (generate : DocRequest → Outcome) (r : DocRequest) : Option GeneratedDoc :=
  (generate r).text?.map fun text => { name := r.name, text }

theorem groupSize_pos (options : BatchOptions) : 0 < groupSize options :=
  Nat.lt_of_lt_of_le Nat.one_pos (Nat.le_max_right _ _)

section Slots

private theorem settle_comm {call other : Call} (h : call.1 ≠ other.1)
    (slots : List (Option GeneratedDoc)) :
    settle generate (settle generate slots call) other =
      settle generate (settle generate slots other) call := by
  simp only [settle]
  cases (generate call.2).text? with
  | none => rfl
  | some text =>
    cases (generate other.2).text? with
    | none => rfl
    | some text' => exact List.set_comm _ _ h

/-- Calls with places of their own may end in any order. -/
theorem foldl_settle_perm {calls calls' : List Call} (h : calls.Perm calls')
    (hn : (calls.map Prod.fst).Nodup) (slots : List (Option GeneratedDoc)) :
    calls.foldl (settle generate) slots = calls'.foldl (settle generate) slots := by
  apply h.foldl_eq'
  intro call hc other ho slots
  by_cases hplace : call.1 = other.1
  · rw [List.inj_on_of_nodup_map hn hc ho hplace]
  · exact settle_comm hplace slots

theorem length_foldl_settle (calls : List Call) (slots : List (Option GeneratedDoc)) :
    (calls.foldl (settle generate) slots).length = slots.length := by
  induction calls generalizing slots with
  | nil => rfl
  | cons call calls ih =>
    rw [List.foldl_cons, ih, settle]
    split
    · exact List.length_set
    · rfl

private theorem flatten_groups {α : Type} {size : Nat} (hs : 0 < size) {bound : Nat} {l : List α}
    (hb : l.length ≤ bound) : (groups size bound l).flatten = l := by
  induction bound generalizing l with
  | zero =>
    rw [List.length_eq_zero_iff.mp (Nat.le_zero.mp hb)]
    rfl
  | succ bound ih =>
    cases l with
    | nil => rfl
    | cons a rest =>
      have hdrop : ((a :: rest).drop size).length ≤ bound := by
        rw [List.length_drop]
        simp only [List.length_cons] at hb ⊢
        omega
      rw [groups, List.flatten_cons, ih hdrop, List.take_append_drop]

private theorem slots_foldl_runGroup {schedule : Schedule} (hs : ∀ group, (schedule group).Perm group)
    (delayMs : Nat) {gs : List (List Call)} (hn : (gs.flatten.map Prod.fst).Nodup) (run : Run) :
    (gs.foldl (runGroup generate schedule delayMs) run).slots =
      gs.flatten.foldl (settle generate) run.slots := by
  induction gs generalizing run with
  | nil => rfl
  | cons group gs ih =>
    rw [List.flatten_cons, List.map_append, List.nodup_append] at hn
    have hgroup : ((schedule group).map Prod.fst).Nodup := ((hs group).map _).nodup_iff.mpr hn.1
    rw [List.foldl_cons, ih hn.2.1, List.flatten_cons, List.foldl_append, runGroup,
      foldl_settle_perm (hs group) hgroup]

private theorem calls_foldl_runGroup (schedule : Schedule) (delayMs : Nat) (gs : List (List Call)) (run : Run) :
    (gs.foldl (runGroup generate schedule delayMs) run).calls = run.calls ++ gs.flatten.map Prod.snd := by
  induction gs generalizing run with
  | nil => simp
  | cons group gs ih =>
    rw [List.foldl_cons, ih, List.flatten_cons, List.map_append, ← List.append_assoc, runGroup]

private theorem length_le_of_mem_groups {α : Type} {size bound : Nat} {l group : List α}
    (h : group ∈ groups size bound l) :
    group.length ≤ size := by
  induction bound generalizing l with
  | zero => simp [groups] at h
  | succ bound ih =>
    cases l with
    | nil => simp [groups] at h
    | cons a rest =>
      rcases List.mem_cons.mp h with rfl | h
      · exact List.length_take_le _ _
      · exact ih h

private theorem peak_foldl_runGroup {size : Nat} (schedule : Schedule) (delayMs : Nat) {gs : List (List Call)}
    {run : Run} (hgroups : ∀ group ∈ gs, group.length ≤ size) (hrun : run.peak ≤ size) :
    (gs.foldl (runGroup generate schedule delayMs) run).peak ≤ size := by
  induction gs generalizing run with
  | nil => exact hrun
  | cons group gs ih =>
    refine ih (fun other ho => hgroups other (List.mem_cons_of_mem _ ho)) ?_
    exact Nat.max_le.mpr ⟨hrun, hgroups group List.mem_cons_self⟩

private theorem settle_at (before after : List (Option GeneratedDoc)) (r : DocRequest) :
    settle generate (before ++ none :: after) (before.length, r) =
      before ++ answer? generate r :: after := by
  rw [settle, answer?]
  cases (generate r).text? with
  | none => rfl
  | some text => simp

/-- Calls that end in the order of their places fill one place after the other. -/
theorem foldl_settle_zipIdx (generate : DocRequest → Outcome) (before after : List (Option GeneratedDoc))
    (chosen : List DocRequest) :
    ((chosen.zipIdx before.length).map fun (r, index) => (index, r)).foldl (settle generate)
        (before ++ (chosen.map fun _ => none) ++ after) =
      before ++ chosen.map (answer? generate) ++ after := by
  induction chosen generalizing before with
  | nil => simp
  | cons r chosen ih =>
    have hrest := ih (before ++ [answer? generate r])
    rw [List.length_append, List.length_singleton] at hrest
    simp only [List.append_assoc, List.singleton_append] at hrest
    rw [List.zipIdx_cons]
    simp only [List.map_cons, List.foldl_cons, List.append_assoc, List.cons_append, settle_at]
    exact hrest

end Slots

/-- The texts of a batch are those of the first requests for each name, in their order. -/
theorem docs_run (generator : Generator) {schedule : Schedule}
    (hs : ∀ group, (schedule group).Perm group) (options : BatchOptions) (style : Style)
    (requests : List DocRequest) :
    (run generator schedule options style requests).docs =
      (firstOfName requests).filterMap (answer? (generator · style)) := by
  have hflat := flatten_groups (groupSize_pos options) (Nat.le_refl
    (((firstOfName requests).zipIdx.map fun (r, index) => (index, r)).length))
  have hplaces : (((firstOfName requests).zipIdx.map fun (r, index) => (index, r)).map Prod.fst).Nodup := by
    have hrange : ((firstOfName requests).zipIdx.map Prod.snd).Nodup := by
      rw [List.zipIdx_map_snd]
      exact List.nodup_range'
    rwa [List.map_map]
  rw [Run.docs, run, slots_foldl_runGroup hs options.delayMs (by rwa [hflat]), hflat]
  have hslots : ((firstOfName requests).zipIdx.map fun (r, index) => (index, r)).foldl
      (settle (generator · style)) ((firstOfName requests).map fun _ => none) =
        (firstOfName requests).map (answer? (generator · style)) := by
    simpa using foldl_settle_zipIdx (generator · style) [] [] (firstOfName requests)
  rw [hslots, List.filterMap_map]
  rfl

/-- A batch calls the generator for the first request for each name, in their order. -/
theorem calls_run (generator : Generator) (schedule : Schedule) (options : BatchOptions) (style : Style)
    (requests : List DocRequest) :
    (run generator schedule options style requests).calls = firstOfName requests := by
  rw [run, calls_foldl_runGroup, flatten_groups (groupSize_pos options) (Nat.le_refl _), List.map_map]
  exact List.zipIdx_map_fst 0 _

/-- No more calls are outstanding at a time than fit in a group. -/
theorem peak_run_le (generator : Generator) (schedule : Schedule) (options : BatchOptions) (style : Style)
    (requests : List DocRequest) :
    (run generator schedule options style requests).peak ≤ groupSize options :=
  peak_foldl_runGroup schedule options.delayMs (fun _ => length_le_of_mem_groups) (Nat.zero_le _)

private theorem docMap_cons (doc : GeneratedDoc) (docs : List GeneratedDoc) (name : String) :
    docMap (doc :: docs) name =
      (docMap docs name).or (if doc.name = name then some doc.text else none) := by
  rw [docMap, docMap, List.reverse_cons, List.find?_append, Option.map_or]
  by_cases hname : doc.name = name <;> simp [hname]

/-- Of requests with names of their own, each name is mapped to the text for its request. -/
theorem docMap_filterMap {chosen : List DocRequest} (hn : (chosen.map (·.name)).Nodup) (name : String) :
    docMap (chosen.filterMap (answer? generate)) name =
      (chosen.find? (·.name == name)).bind fun r => (generate r).text? := by
  induction chosen with
  | nil => rfl
  | cons r chosen ih =>
    rw [List.map_cons, List.nodup_cons] at hn
    have ih := ih hn.2
    have hcons : docMap ((r :: chosen).filterMap (answer? generate)) name =
        (docMap (chosen.filterMap (answer? generate)) name).or
          (if r.name = name then (generate r).text? else none) := by
      rw [List.filterMap_cons]
      cases ha : answer? generate r with
      | none =>
        have hnone : (generate r).text? = none := Option.map_eq_none_iff.mp ha
        simp [hnone]
      | some doc =>
        obtain ⟨text, ht, rfl⟩ := Option.map_eq_some_iff.mp ha
        simp [docMap_cons, ht]
    rw [hcons, ih]
    by_cases hname : r.name = name
    · have hrest : chosen.find? (·.name == name) = none := by
        rw [List.find?_eq_none]
        intro other ho hother
        exact hn.1 (List.mem_map.mpr ⟨other, ho, (beq_iff_eq.mp hother).trans hname.symm⟩)
      rw [hrest, List.find?_cons_of_pos (by simp [hname]), if_pos hname]
      rfl
    · rw [List.find?_cons_of_neg (by simp [hname]), if_neg hname, Option.or_none]

section Names

private theorem name_not_mem_of_firstOfNameFrom {seen : List String} {requests : List DocRequest} {r : DocRequest}
    (h : r ∈ firstOfNameFrom seen requests) : r.name ∉ seen := by
  induction requests generalizing seen with
  | nil => simp [firstOfNameFrom] at h
  | cons first requests ih =>
    rw [firstOfNameFrom] at h
    split at h
    · exact ih h
    · rename_i hfirst
      rcases List.mem_cons.mp h with rfl | h
      · simpa using hfirst
      · exact fun hseen => ih h (List.mem_cons_of_mem _ hseen)

theorem nodup_firstOfNameFrom (seen : List String) (requests : List DocRequest) :
    ((firstOfNameFrom seen requests).map (·.name)).Nodup := by
  induction requests generalizing seen with
  | nil => exact List.nodup_nil
  | cons first requests ih =>
    rw [firstOfNameFrom]
    split
    · exact ih seen
    · rw [List.map_cons, List.nodup_cons]
      refine ⟨fun hmem => ?_, ih _⟩
      obtain ⟨r, hr, hname⟩ := List.mem_map.mp hmem
      exact name_not_mem_of_firstOfNameFrom hr (hname ▸ List.mem_cons_self)

/-- The names of the first requests are the distinct names, in the order in which they first occur. -/
theorem map_name_firstOfNameFrom (seen : List String) (requests : List DocRequest) :
    (firstOfNameFrom seen requests).map (·.name) =
      ((requests.map (·.name)).filter fun name => !seen.contains name).eraseDups := by
  induction requests generalizing seen with
  | nil => rfl
  | cons first requests ih =>
    rw [firstOfNameFrom, List.map_cons]
    by_cases hseen : seen.contains first.name
    · rw [if_pos hseen, List.filter_cons_of_neg (by simpa using hseen), ih]
    · rw [if_neg hseen, List.filter_cons_of_pos (by simpa using hseen), List.map_cons, ih,
        List.eraseDups_cons, List.filter_filter]
      congr 3
      funext name
      simp [Bool.not_or, beq_eq_decide]

private theorem find?_firstOfNameFrom {seen : List String} {name : String} (hs : name ∉ seen)
    (requests : List DocRequest) :
    (firstOfNameFrom seen requests).find? (·.name == name) = requests.find? (·.name == name) := by
  induction requests generalizing seen with
  | nil => rfl
  | cons first requests ih =>
    rw [firstOfNameFrom]
    by_cases hname : first.name = name
    · simp [hname, hs]
    · have hskip (rest : List DocRequest) :
          (first :: rest).find? (·.name == name) = rest.find? (·.name == name) :=
        List.find?_cons_of_neg (by simp [hname])
      rw [hskip]
      split
      · exact ih hs
      · rw [hskip]
        exact ih (by simp [hs, Ne.symm hname])

private theorem find?_name_of_mem {chosen : List DocRequest} {r : DocRequest} (hn : (chosen.map (·.name)).Nodup)
    (h : r ∈ chosen) : chosen.find? (·.name == r.name) = some r := by
  have hfound : (chosen.find? (·.name == r.name)).isSome := List.find?_isSome.mpr ⟨r, h, beq_self_eq_true _⟩
  obtain ⟨other, hother⟩ := Option.isSome_iff_exists.mp hfound
  have hname : other.name = r.name := by simpa using List.find?_some hother
  rw [hother, List.inj_on_of_nodup_map hn (List.mem_of_find?_eq_some hother) h hname]

/-- One request is left for each name, and the names keep the order in which they first occur. -/
theorem map_name_firstOfName (requests : List DocRequest) :
    (firstOfName requests).map (·.name) = (requests.map (·.name)).eraseDups := by
  rw [firstOfName, map_name_firstOfNameFrom]
  simp

/-- The first requests, found by the distinct names. -/
theorem firstOfName_eq (requests : List DocRequest) :
    firstOfName requests =
      (requests.map (·.name)).eraseDups.filterMap fun name => requests.find? (·.name == name) := by
  have hself : ∀ r ∈ firstOfName requests, requests.find? (·.name == r.name) = some r := by
    intro r hr
    rw [← find?_firstOfNameFrom List.not_mem_nil]
    exact find?_name_of_mem (nodup_firstOfNameFrom [] requests) hr
  rw [← map_name_firstOfName, List.filterMap_map]
  exact (List.filterMap_some.symm.trans (List.filterMap_congr fun r hr => (hself r hr).symm))

end Names

/-- After a batch, a name is mapped to what the generator answered to the first request for it. -/
theorem docMap_run (generator : Generator) {schedule : Schedule}
    (hs : ∀ group, (schedule group).Perm group) (options : BatchOptions) (style : Style)
    (requests : List DocRequest) (name : String) :
    docMap (run generator schedule options style requests).docs name =
      (requests.find? (·.name == name)).bind fun r => (generator r style).text? := by
  rw [docs_run generator hs, firstOfName, docMap_filterMap (nodup_firstOfNameFrom [] requests),
    find?_firstOfNameFrom List.not_mem_nil]

end DocComments.Batch
