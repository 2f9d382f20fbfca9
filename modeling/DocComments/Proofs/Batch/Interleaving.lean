import DocComments.Proofs.Batch.Answers
import Mathlib.Algebra.Order.Floor.Div
import Mathlib.Data.List.Perm.Basic
import Mathlib.Logic.Relation

/-! Batches as they are carried out: each call of a group is a task, tasks call the generator, end and are
collected in any order, and a group begins once no task is left. Every way to carry out a batch ends, with
the same texts, one call for each name, and the same pauses. -/
namespace DocComments.Batch
variable {generate : DocRequest → Outcome} {options : BatchOptions} {chosen : List DocRequest}

structure Progress where
  /-- The requests of the groups that have not begun. -/
  rest : List DocRequest
  /-- The number of groups that have begun. -/
  begun : Nat := 0
  /-- Tasks that have not called the generator yet. -/
  spawned : List Call := []
  /-- Calls that have not ended. -/
  outstanding : List Call := []
  /-- Ended calls whose answers have not been collected. -/
  ended : List Call := []
  slots : List (Option GeneratedDoc)
  /-- The requests in the order in which the generator was called for them. -/
  made : List DocRequest := []
  /-- The sum of the pauses. -/
  pausedMs : Nat := 0

namespace Progress

def start (chosen : List DocRequest) : Progress where
  rest := chosen
  slots := chosen.map fun _ => none

def tasks (p : Progress) : List Call :=
  p.spawned ++ p.outstanding ++ p.ended

def Done (p : Progress) : Prop :=
  p.rest = [] ∧ p.tasks = []

def docs (p : Progress) : List GeneratedDoc :=
  p.slots.filterMap id

/-- How much is left: a request waits, its task waits, its call runs, its answer waits. -/
def remaining (p : Progress) : Nat :=
  4 * p.rest.length + 3 * p.spawned.length + 2 * p.outstanding.length + p.ended.length

end Progress

/-- The calls of a group, of which the first has the given place. -/
def placed (first : Nat) (group : List DocRequest) : List Call :=
  group.zipIdx.map fun (r, offset) => (first + offset, r)

namespace Progress

/-- A group begins, after a pause if it is not the first. -/
def begin (options : BatchOptions) (p : Progress) : Progress :=
  { p with
    rest := p.rest.drop (groupSize options)
    begun := p.begun + 1
    spawned := placed (p.begun * groupSize options) (p.rest.take (groupSize options))
    pausedMs := p.pausedMs + if p.begun = 0 then 0 else options.delayMs }

def call (c : Call) (p : Progress) : Progress :=
  { p with spawned := p.spawned.erase c, outstanding := c :: p.outstanding, made := p.made ++ [c.2] }

def finish (c : Call) (p : Progress) : Progress :=
  { p with outstanding := p.outstanding.erase c, ended := c :: p.ended }

/-- The answer of an ended call is collected. -/
def collect (generate : DocRequest → Outcome) (c : Call) (p : Progress) : Progress :=
  { p with ended := p.ended.erase c, slots := settle generate p.slots c }

end Progress

/-- What may happen next in a batch. A group begins only when no task is left. -/
inductive Step (generate : DocRequest → Outcome) (options : BatchOptions) : Progress → Progress → Prop
  | begin {p : Progress} (hrest : p.rest ≠ []) (hidle : p.tasks = []) :
    Step generate options p (p.begin options)
  | call {p : Progress} {c : Call} (hc : c ∈ p.spawned) : Step generate options p (p.call c)
  | finish {p : Progress} {c : Call} (hc : c ∈ p.outstanding) : Step generate options p (p.finish c)
  | collect {p : Progress} {c : Call} (hc : c ∈ p.ended) : Step generate options p (p.collect generate c)

/-- Whether a batch may come to this point. -/
abbrev Reached (generate : DocRequest → Outcome) (options : BatchOptions) (chosen : List DocRequest) :
    Progress → Prop :=
  Relation.ReflTransGen (Step generate options) (.start chosen)

section Placed

private theorem placed_eq (first : Nat) (group : List DocRequest) :
    placed first group = (group.zipIdx first).map fun (r, index) => (index, r) := by
  refine List.ext_getElem? fun i => ?_
  simp [placed, Function.comp_def]

private theorem map_snd_placed (first : Nat) (group : List DocRequest) : (placed first group).map Prod.snd = group := by
  rw [placed, List.map_map]
  exact List.zipIdx_map_fst 0 group

private theorem nodup_placed (first : Nat) (group : List DocRequest) :
    ((placed first group).map Prod.fst).Nodup := by
  rw [placed_eq, List.map_map]
  exact (List.zipIdx_map_snd first group).symm ▸ List.nodup_range'

private theorem getElem?_of_mem_placed {first : Nat} {group : List DocRequest} {c : Call}
    (h : c ∈ placed first group) : ∃ offset, c.1 = first + offset ∧ group[offset]? = some c.2 := by
  obtain ⟨⟨r, offset⟩, hr, rfl⟩ := List.mem_map.mp h
  exact ⟨offset, rfl, List.mem_zipIdx_iff_getElem?.mp hr⟩

private theorem take_placed (size first : Nat) (group : List DocRequest) :
    (placed first group).take size = placed first (group.take size) := by
  refine List.ext_getElem? fun i => ?_
  simp only [placed, List.getElem?_take, List.getElem?_map, List.getElem?_zipIdx]
  split <;> rfl

private theorem drop_placed (size first : Nat) (group : List DocRequest) :
    (placed first group).drop size = placed (first + size) (group.drop size) := by
  refine List.ext_getElem? fun i => ?_
  simp [placed, Function.comp_def, Nat.add_assoc]

private theorem groups_placed {size first bound : Nat} {rest : List DocRequest} (h : rest ≠ []) :
    groups size (bound + 1) (placed first rest) =
      placed first (rest.take size) :: groups size bound (placed (first + size) (rest.drop size)) := by
  rw [← take_placed, ← drop_placed]
  cases rest with
  | nil => exact absurd rfl h
  | cons r rest => rfl

end Placed

section Tasks
variable {p : Progress} {c : Call}

private theorem Progress.tasks_eq_nil_iff : p.tasks = [] ↔ p.spawned = [] ∧ p.outstanding = [] ∧ p.ended = [] := by
  simp [Progress.tasks]

private theorem Progress.tasks_begin (h : p.tasks = []) :
    (p.begin options).tasks = placed (p.begun * groupSize options) (p.rest.take (groupSize options)) := by
  obtain ⟨-, houtstanding, hended⟩ := Progress.tasks_eq_nil_iff.mp h
  simp [Progress.tasks, Progress.begin, houtstanding, hended]

private theorem Progress.tasks_call (h : c ∈ p.spawned) : (p.call c).tasks.Perm p.tasks := by
  have hspawned : (p.spawned.erase c ++ c :: p.outstanding).Perm (p.spawned ++ p.outstanding) :=
    List.perm_middle.trans ((List.perm_cons_erase h).symm.append_right _)
  exact hspawned.append_right _

private theorem Progress.tasks_finish (h : c ∈ p.outstanding) : (p.finish c).tasks.Perm p.tasks := by
  have houtstanding : (p.outstanding.erase c ++ c :: p.ended).Perm (p.outstanding ++ p.ended) :=
    List.perm_middle.trans ((List.perm_cons_erase h).symm.append_right _)
  simpa [Progress.tasks, Progress.finish] using houtstanding.append_left p.spawned

private theorem Progress.tasks_collect (generate : DocRequest → Outcome) (h : c ∈ p.ended) :
    p.tasks.Perm (c :: (p.collect generate c).tasks) :=
  ((List.perm_cons_erase h).append_left _).trans List.perm_middle

end Tasks

/-- What holds of a batch at every point. The groups that have begun are the first ones, and if all tasks
were collected now, the places of their requests would hold what the generator answers to each. -/
structure Sound (generate : DocRequest → Outcome) (options : BatchOptions) (chosen : List DocRequest)
    (p : Progress) : Prop where
  rest_eq : p.rest = chosen.drop (p.begun * groupSize options)
  begun_lt : p.begun * groupSize options < chosen.length + groupSize options
  tasks_le : p.tasks.length ≤ groupSize options
  task_at : ∀ c ∈ p.tasks, chosen[c.1]? = some c.2
  places : (p.tasks.map Prod.fst).Nodup
  settled : p.tasks.foldl (settle generate) p.slots =
    (chosen.take (p.begun * groupSize options)).map (answer? generate) ++ p.rest.map fun _ => none
  made_perm : (p.made ++ p.spawned.map Prod.snd).Perm (chosen.take (p.begun * groupSize options))
  paused : p.pausedMs = (p.begun - 1) * options.delayMs

namespace Sound
variable {p q : Progress} {c : Call}

theorem start : Sound generate options chosen (.start chosen) where
  rest_eq := by simp [Progress.start]
  begun_lt := by
    have hsize : 0 < groupSize options := groupSize_pos options
    simp only [Progress.start]
    omega
  tasks_le := Nat.zero_le _
  task_at := by simp [Progress.start, Progress.tasks]
  places := List.nodup_nil
  settled := by simp [Progress.start, Progress.tasks]
  made_perm := by simp [Progress.start]
  paused := by simp [Progress.start]

private theorem length_slots (hp : Sound generate options chosen p) : p.slots.length = chosen.length := by
  have h := congrArg List.length hp.settled
  rw [length_foldl_settle] at h
  rw [h, hp.rest_eq]
  simp only [List.length_append, List.length_map, List.length_take, List.length_drop]
  omega

private theorem lt_of_rest_ne_nil (hp : Sound generate options chosen p) (h : p.rest ≠ []) :
    p.begun * groupSize options < chosen.length := by
  by_contra hle
  exact h (hp.rest_eq.trans (List.drop_eq_nil_of_le (Nat.le_of_not_lt hle)))

private theorem take_begun_succ (hp : Sound generate options chosen p) :
    chosen.take ((p.begun + 1) * groupSize options) =
      chosen.take (p.begun * groupSize options) ++ p.rest.take (groupSize options) := by
  rw [hp.rest_eq, Nat.add_mul, Nat.one_mul, List.take_add]

/-- The places of a group are those behind the groups before it, and nothing stands in them yet. -/
theorem settled_begin (hp : Sound generate options chosen p) (hrest : p.rest ≠ []) (hidle : p.tasks = []) :
    (p.begin options).tasks.foldl (settle generate) p.slots =
      (chosen.take ((p.begun + 1) * groupSize options)).map (answer? generate) ++
        (p.rest.drop (groupSize options)).map fun _ => none := by
  have hslots := hp.settled
  rw [hidle, List.foldl_nil] at hslots
  have hbefore : ((chosen.take (p.begun * groupSize options)).map (answer? generate)).length =
      p.begun * groupSize options := by
    rw [List.length_map, List.length_take, Nat.min_eq_left (hp.lt_of_rest_ne_nil hrest).le]
  have hfill := foldl_settle_zipIdx generate
    ((chosen.take (p.begun * groupSize options)).map (answer? generate))
    ((p.rest.drop (groupSize options)).map fun _ => none) (p.rest.take (groupSize options))
  rw [hbefore, ← placed_eq, List.append_assoc, ← List.map_append, List.take_append_drop, ← hslots] at hfill
  rw [Progress.tasks_begin hidle, hp.take_begun_succ, List.map_append, hfill]

private theorem begin (hp : Sound generate options chosen p) (hrest : p.rest ≠ []) (hidle : p.tasks = []) :
    Sound generate options chosen (p.begin options) where
  rest_eq := by
    simp only [Progress.begin]
    rw [hp.rest_eq, List.drop_drop, Nat.add_mul, Nat.one_mul]
  begun_lt := by
    have hlt := hp.lt_of_rest_ne_nil hrest
    simp only [Progress.begin, Nat.add_mul, Nat.one_mul]
    omega
  tasks_le := by
    rw [Progress.tasks_begin hidle, ← List.length_map Prod.snd, map_snd_placed]
    exact List.length_take_le _ _
  task_at c hc := by
    rw [Progress.tasks_begin hidle] at hc
    obtain ⟨offset, hplace, hr⟩ := getElem?_of_mem_placed hc
    rw [List.getElem?_take] at hr
    split at hr
    · rw [hplace, ← hr, hp.rest_eq, List.getElem?_drop]
    · exact absurd hr.symm (Option.some_ne_none _)
  places := by
    rw [Progress.tasks_begin hidle]
    exact nodup_placed _ _
  settled := hp.settled_begin hrest hidle
  made_perm := by
    have hmade := hp.made_perm
    rw [(Progress.tasks_eq_nil_iff.mp hidle).1, List.map_nil, List.append_nil] at hmade
    simp only [Progress.begin, map_snd_placed, hp.take_begun_succ]
    exact hmade.append_right _
  paused := by
    simp only [Progress.begin, hp.paused]
    cases p.begun with
    | zero => simp
    | succ n => simp [Nat.add_mul]

/-- How far a task has come does not matter. -/
theorem of_perm (hp : Sound generate options chosen p) (htasks : q.tasks.Perm p.tasks)
    (hmade : (q.made ++ q.spawned.map Prod.snd).Perm (p.made ++ p.spawned.map Prod.snd))
    (hrest : q.rest = p.rest) (hbegun : q.begun = p.begun) (hslots : q.slots = p.slots)
    (hpaused : q.pausedMs = p.pausedMs) : Sound generate options chosen q where
  rest_eq := by rw [hrest, hbegun, hp.rest_eq]
  begun_lt := by rw [hbegun]; exact hp.begun_lt
  tasks_le := by rw [htasks.length_eq]; exact hp.tasks_le
  task_at c hc := hp.task_at c (htasks.mem_iff.mp hc)
  places := (htasks.map _).nodup_iff.mpr hp.places
  settled := by
    rw [foldl_settle_perm htasks ((htasks.map _).nodup_iff.mpr hp.places), hslots, hbegun, hrest, hp.settled]
  made_perm := by rw [hbegun]; exact hmade.trans hp.made_perm
  paused := by rw [hpaused, hbegun, hp.paused]

theorem call (hp : Sound generate options chosen p) (hc : c ∈ p.spawned) :
    Sound generate options chosen (p.call c) := by
  refine hp.of_perm (Progress.tasks_call hc) ?_ rfl rfl rfl rfl
  have hspawned : (c.2 :: (p.spawned.erase c).map Prod.snd).Perm (p.spawned.map Prod.snd) :=
    ((List.perm_cons_erase hc).map Prod.snd).symm
  simpa [Progress.call] using hspawned.append_left p.made

private theorem collect (hp : Sound generate options chosen p) (hc : c ∈ p.ended) :
    Sound generate options chosen (p.collect generate c) := by
  have htasks := Progress.tasks_collect generate hc
  have hplaces := (htasks.map Prod.fst).nodup_iff.mp hp.places
  exact {
    rest_eq := hp.rest_eq
    begun_lt := hp.begun_lt
    tasks_le := by
      have hle := hp.tasks_le
      rw [htasks.length_eq, List.length_cons] at hle
      exact Nat.le_of_succ_le hle
    task_at := fun d hd => hp.task_at d (htasks.mem_iff.mpr (List.mem_cons_of_mem _ hd))
    places := (List.nodup_cons.mp hplaces).2
    settled := by
      have hsettled := hp.settled
      rw [foldl_settle_perm htasks hp.places, List.foldl_cons] at hsettled
      exact hsettled
    made_perm := hp.made_perm
    paused := hp.paused }

/-- Whatever happens next, a batch stays sound. -/
theorem step (hp : Sound generate options chosen p) (h : Step generate options p q) :
    Sound generate options chosen q := by
  cases h with
  | begin hrest hidle => exact hp.begin hrest hidle
  | call hc => exact hp.call hc
  | finish hc => exact hp.of_perm (Progress.tasks_finish hc) (List.Perm.refl _) rfl rfl rfl rfl
  | collect hc => exact hp.collect hc

private theorem of_reached (h : Reached generate options chosen p) : Sound generate options chosen p := by
  induction h with
  | refl => exact start
  | tail _ hstep ih => exact ih.step hstep

private theorem length_le_of_done (hp : Sound generate options chosen p) (h : p.Done) :
    chosen.length ≤ p.begun * groupSize options :=
  List.drop_eq_nil_iff.mp (hp.rest_eq.symm.trans h.1)

private theorem docs_of_done (hp : Sound generate options chosen p) (h : p.Done) :
    p.docs = chosen.filterMap (answer? generate) := by
  have hslots := hp.settled
  rw [h.2, h.1, List.foldl_nil, List.map_nil, List.append_nil,
    List.take_of_length_le (hp.length_le_of_done h)] at hslots
  rw [Progress.docs, hslots, List.filterMap_map]
  rfl

private theorem made_of_done (hp : Sound generate options chosen p) (h : p.Done) : p.made.Perm chosen := by
  have hmade := hp.made_perm
  rwa [(Progress.tasks_eq_nil_iff.mp h.2).1, List.map_nil, List.append_nil,
    List.take_of_length_le (hp.length_le_of_done h)] at hmade

/-- Pauses stand between groups, of which there are as many as it takes. -/
theorem pausedMs_of_done (hp : Sound generate options chosen p) (h : p.Done) :
    p.pausedMs = (chosen.length ⌈/⌉ groupSize options - 1) * options.delayMs := by
  have hbegun : chosen.length ⌈/⌉ groupSize options = p.begun := by
    have hlow := hp.length_le_of_done h
    have hhigh := hp.begun_lt
    rw [Nat.ceilDiv_eq_add_pred_div]
    exact Nat.div_eq_of_lt_le (by omega) (by rw [Nat.add_mul, Nat.one_mul]; omega)
  rw [hp.paused, hbegun]

/-- No request is made twice. -/
theorem nodup_made (hp : Sound generate options chosen p) (hn : (chosen.map (·.name)).Nodup) :
    (p.made.map (·.name)).Nodup := by
  have hmade := (hp.made_perm.map (·.name)).nodup_iff.mpr
    (hn.sublist ((List.take_sublist _ chosen).map _))
  rw [List.map_append] at hmade
  exact hmade.of_append_left

end Sound

section Termination
variable {p q : Progress}

private theorem remaining_lt (h : Step generate options p q) : q.remaining < p.remaining := by
  cases h with
  | begin hrest hidle =>
    obtain ⟨hspawned, houtstanding, hended⟩ := Progress.tasks_eq_nil_iff.mp hidle
    have hpos : 0 < p.rest.length := List.length_pos_iff.mpr hrest
    have hsize := groupSize_pos options
    simp only [Progress.remaining, Progress.begin, hspawned, houtstanding, hended, placed, List.length_drop,
      List.length_map, List.length_zipIdx, List.length_take, List.length_nil]
    omega
  | call hc =>
    have hpos := List.length_pos_of_mem hc
    simp only [Progress.remaining, Progress.call, List.length_erase_of_mem hc, List.length_cons]
    omega
  | finish hc =>
    have hpos := List.length_pos_of_mem hc
    simp only [Progress.remaining, Progress.finish, List.length_erase_of_mem hc, List.length_cons]
    omega
  | collect hc =>
    have hpos := List.length_pos_of_mem hc
    simp only [Progress.remaining, Progress.collect, List.length_erase_of_mem hc]
    omega

/-- A batch that is not through can go on. -/
theorem exists_step (h : ¬ p.Done) : ∃ q, Step generate options p q := by
  by_cases hidle : p.tasks = []
  · exact ⟨_, .begin (fun hrest => h ⟨hrest, hidle⟩) hidle⟩
  · rw [Progress.tasks_eq_nil_iff] at hidle
    by_cases hspawned : p.spawned = []
    · by_cases houtstanding : p.outstanding = []
      · have hended : p.ended ≠ [] := fun hended => hidle ⟨hspawned, houtstanding, hended⟩
        exact ⟨_, .collect (List.head_mem hended)⟩
      · exact ⟨_, .finish (List.head_mem houtstanding)⟩
    · exact ⟨_, .call (List.head_mem hspawned)⟩

end Termination

section Schedules
variable {p : Progress}

/-- The tasks of a group may call the generator one after the other. -/
private theorem reaches_called (generate : DocRequest → Outcome) (options : BatchOptions) (p : Progress) :
    Relation.ReflTransGen (Step generate options) p { p with
      spawned := []
      outstanding := p.spawned.reverse ++ p.outstanding
      made := p.made ++ p.spawned.map Prod.snd } := by
  obtain ⟨rest, begun, spawned, outstanding, ended, slots, made, pausedMs⟩ := p
  induction spawned generalizing outstanding made with
  | nil => simpa using Relation.ReflTransGen.refl
  | cons c spawned ih =>
    refine .head (.call (c := c) List.mem_cons_self) ?_
    simpa [Progress.call] using ih (c :: outstanding) (made ++ [c.2])

/-- The calls may end in any order. -/
private theorem reaches_finished (generate : DocRequest → Outcome) (options : BatchOptions) (order : List Call)
    (h : p.outstanding.Perm order) :
    Relation.ReflTransGen (Step generate options) p { p with
      outstanding := [], ended := order.reverse ++ p.ended } := by
  obtain ⟨rest, begun, spawned, outstanding, ended, slots, made, pausedMs⟩ := p
  induction order generalizing outstanding ended with
  | nil =>
    obtain rfl : outstanding = [] := h.eq_nil
    exact .refl
  | cons c order ih =>
    refine .head (.finish (c := c) (h.mem_iff.mpr List.mem_cons_self)) ?_
    have hrest : (outstanding.erase c).Perm order := by simpa using h.erase c
    simpa [Progress.finish] using ih (outstanding.erase c) (c :: ended) hrest

/-- The answers may be collected in any order. -/
private theorem reaches_collected (generate : DocRequest → Outcome) (options : BatchOptions) (order : List Call)
    (h : p.ended.Perm order) :
    Relation.ReflTransGen (Step generate options) p { p with
      ended := [], slots := order.foldl (settle generate) p.slots } := by
  obtain ⟨rest, begun, spawned, outstanding, ended, slots, made, pausedMs⟩ := p
  induction order generalizing ended slots with
  | nil =>
    obtain rfl : ended = [] := h.eq_nil
    exact .refl
  | cons c order ih =>
    refine .head (.collect (c := c) (h.mem_iff.mpr List.mem_cons_self)) ?_
    have hrest : (ended.erase c).Perm order := by simpa using h.erase c
    simpa [Progress.collect] using ih (ended.erase c) (settle generate slots c) hrest

/-- A group may be carried out in the order of a schedule. -/
private theorem reaches_group (generate : DocRequest → Outcome) (options : BatchOptions) {schedule : Schedule}
    (hs : ∀ group, (schedule group).Perm group) (hrest : p.rest ≠ []) (hidle : p.tasks = []) :
    let group := placed (p.begun * groupSize options) (p.rest.take (groupSize options))
    Relation.ReflTransGen (Step generate options) p { p.begin options with
      spawned := []
      slots := (schedule group).foldl (settle generate) p.slots
      made := p.made ++ group.map Prod.snd } := by
  intro group
  obtain ⟨hspawned, houtstanding, hended⟩ := Progress.tasks_eq_nil_iff.mp hidle
  have hcalled := reaches_called generate options (p.begin options)
  have hfinished := reaches_finished generate options (schedule group) (p := { p.begin options with
    spawned := []
    outstanding := group.reverse ++ p.outstanding
    made := p.made ++ group.map Prod.snd }) (by
      simpa [houtstanding] using group.reverse_perm.trans (hs group).symm)
  have hcollected := reaches_collected generate options (schedule group) (p := { p.begin options with
    spawned := []
    outstanding := []
    ended := (schedule group).reverse ++ p.ended
    made := p.made ++ group.map Prod.snd }) (by simp [hended])
  have hall := (Relation.ReflTransGen.head (.begin hrest hidle) hcalled).trans (hfinished.trans hcollected)
  simpa [Progress.begin, houtstanding, hended] using hall

/-- What is left of a batch may be carried out as a schedule tells. -/
private theorem reaches_run (generate : DocRequest → Outcome) (options : BatchOptions) {schedule : Schedule}
    (hs : ∀ group, (schedule group).Perm group) (bound : Nat) (run : Run) (hbound : p.rest.length ≤ bound)
    (hidle : p.tasks = []) (hslots : p.slots = run.slots) (hmade : p.made = run.calls)
    (hpaused : p.pausedMs = run.pausedMs) (hbegun : p.begun = 0 ↔ run.calls = []) :
    let last := (groups (groupSize options) bound (placed (p.begun * groupSize options) p.rest)).foldl
      (runGroup generate schedule options.delayMs) run
    ∃ q, Relation.ReflTransGen (Step generate options) p q ∧ q.Done ∧
      q.slots = last.slots ∧ q.made = last.calls ∧ q.pausedMs = last.pausedMs := by
  induction bound generalizing p run with
  | zero =>
    have hrest : p.rest = [] := List.length_eq_zero_iff.mp (Nat.le_zero.mp hbound)
    exact ⟨p, .refl, ⟨hrest, hidle⟩, hslots, hmade, hpaused⟩
  | succ bound ih =>
    by_cases hrest : p.rest = []
    · refine ⟨p, .refl, ⟨hrest, hidle⟩, ?_⟩
      rw [hrest]
      exact ⟨hslots, hmade, hpaused⟩
    · set group := placed (p.begun * groupSize options) (p.rest.take (groupSize options)) with hgroup
      have hreach := reaches_group generate options hs hrest hidle
      have hne : group.map Prod.snd ≠ [] := by
        rw [map_snd_placed]
        simpa [(groupSize_pos options).ne'] using hrest
      -- the first group is carried out as a whole, and leaves the batch idle in front of the next
      obtain ⟨q, hq, hdone, hlast⟩ := ih (runGroup generate schedule options.delayMs run group)
        (p := { p.begin options with
          spawned := []
          slots := (schedule group).foldl (settle generate) p.slots
          made := p.made ++ group.map Prod.snd })
        (by
          have hpos : 0 < p.rest.length := List.length_pos_iff.mpr hrest
          have hsize := groupSize_pos options
          simp only [Progress.begin, List.length_drop]
          omega)
        (by
          obtain ⟨-, houtstanding, hended⟩ := Progress.tasks_eq_nil_iff.mp hidle
          exact Progress.tasks_eq_nil_iff.mpr ⟨rfl, houtstanding, hended⟩)
        (by rw [runGroup, hslots]) (by rw [runGroup, hmade])
        (by simp [Progress.begin, runGroup, hpaused, hbegun])
        (by simp [Progress.begin, runGroup, hne])
      refine ⟨q, hreach.trans hq, hdone, ?_⟩
      rw [groups_placed hrest, List.foldl_cons, ← hgroup]
      simpa [Progress.begin, Nat.add_mul] using hlast

end Schedules

/-- A schedule picks one way to carry out a batch. -/
theorem exists_reached_run (generator : Generator) {schedule : Schedule}
    (hs : ∀ group, (schedule group).Perm group) (options : BatchOptions) (style : Style)
    (requests : List DocRequest) :
    let run := run generator schedule options style requests
    ∃ p, Reached (generator · style) options (firstOfName requests) p ∧ p.Done ∧
      p.slots = run.slots ∧ p.made = run.calls ∧ p.pausedMs = run.pausedMs := by
  have hcalls : placed (0 * groupSize options) (firstOfName requests) =
      (firstOfName requests).zipIdx.map fun (r, index) => (index, r) := by
    rw [Nat.zero_mul, placed_eq]
  have hreach := reaches_run (generator · style) options hs
    (placed (0 * groupSize options) (firstOfName requests)).length
    { slots := (firstOfName requests).map fun _ => none, calls := [], pausedMs := 0, peak := 0 }
    (p := .start (firstOfName requests)) (by simp [Progress.start, placed]) rfl rfl rfl rfl
    (by simp [Progress.start])
  simp only [Progress.start, hcalls] at hreach
  exact hreach

/-- However the tasks of a batch interleave, no more calls are outstanding than the options allow, each task
has a place of its own among the slots, no name is asked for twice, and the batch ends. Then the texts are
those for the first request for each distinct name, in the order in which the names first occur, a failed or
dead call leaving out its own, each first request was made once, and there was one pause less than groups.
So it is in the run that a schedule picks. -/
theorem texts_in_any_order (generator : Generator) (options : BatchOptions) (style : Style)
    (requests : List DocRequest) :
    let generate := (generator · style)
    let names := (requests.map (·.name)).eraseDups
    let first? := fun name => requests.find? (·.name == name)
    let texts := names.filterMap fun name =>
      ((first? name).bind fun r => (generate r).text?).map fun text => ({ name, text } : GeneratedDoc)
    let limit := max 1 options.concurrency
    let pausedMs := (names.length ⌈/⌉ limit - 1) * options.delayMs
    (∀ p, Reached generate options (firstOfName requests) p →
      p.outstanding.length ≤ limit ∧
        (∀ c ∈ p.tasks, c.1 < p.slots.length) ∧ (p.tasks.map Prod.fst).Nodup ∧
        (p.made.map (·.name)).Nodup ∧
        (p.Done ∨ ∃ q, Step generate options p q) ∧
        (∀ q, Step generate options p q → q.remaining < p.remaining) ∧
        (p.Done → p.docs = texts ∧ p.made.Perm (names.filterMap first?) ∧ p.pausedMs = pausedMs)) ∧
      ∀ schedule, (∀ group, (schedule group).Perm group) →
        let run := run generator schedule options style requests
        run.docs = texts ∧ run.calls = names.filterMap first? ∧ run.peak ≤ limit ∧ run.pausedMs = pausedMs ∧
          ∃ p, Reached generate options (firstOfName requests) p ∧ p.Done ∧
            p.slots = run.slots ∧ p.made = run.calls ∧ p.pausedMs = run.pausedMs := by
  intro generate names first? texts limit pausedMs
  have hlimit : groupSize options = limit := Nat.max_comm _ _
  have hfirst : firstOfName requests = names.filterMap first? := firstOfName_eq requests
  have hlength : (firstOfName requests).length = names.length := by
    rw [← List.length_map (·.name), map_name_firstOfName]
  have htexts : (firstOfName requests).filterMap (answer? generate) = texts := by
    rw [hfirst, List.filterMap_filterMap]
    refine List.filterMap_congr fun name _ => ?_
    cases hr : first? name with
    | none => rfl
    | some r =>
      have hname : r.name = name := by simpa using List.find?_some hr
      simp [answer?, hname]
  -- all of an interleaving is read off what every step preserves; a schedule is one interleaving
  refine ⟨fun p hp => ?_, fun schedule hs => ?_⟩
  · have hsound := Sound.of_reached hp
    refine ⟨?_, fun c hc => ?_, hsound.places, ?_, ?_, fun q => remaining_lt, fun hdone => ⟨?_, ?_, ?_⟩⟩
    · rw [← hlimit]
      refine Nat.le_trans ?_ hsound.tasks_le
      simp only [Progress.tasks, List.length_append]
      omega
    · rw [hsound.length_slots]
      exact (List.getElem?_eq_some_iff.mp (hsound.task_at c hc)).1
    · exact hsound.nodup_made (nodup_firstOfNameFrom [] requests)
    · by_cases hdone : p.Done
      · exact .inl hdone
      · exact .inr (exists_step hdone)
    · rw [hsound.docs_of_done hdone, htexts]
    · rw [← hfirst]
      exact hsound.made_of_done hdone
    · rw [hsound.pausedMs_of_done hdone, hlength, hlimit]
  · obtain ⟨p, hp, hdone, hslots, hmade, hpaused⟩ := exists_reached_run generator hs options style requests
    refine ⟨(docs_run generator hs options style requests).trans htexts, ?_, ?_, ?_, p, hp, hdone, hslots,
      hmade, hpaused⟩
    · rw [calls_run, hfirst]
    · exact hlimit ▸ peak_run_le generator schedule options style requests
    · rw [← hpaused, (Sound.of_reached hp).pausedMs_of_done hdone, hlength, hlimit]

/-- Three groups of at most two, ended from last to first, with a name asked for twice, a failure and a dead
call. -/
theorem texts_in_any_order_reversed :
    let request (name body : String) : DocRequest :=
      { name, kind := .function, language := .python, parameters := [], body }
    let requests := [request "a" "1", request "b" "2", request "a" "3", request "c" "4", request "d" "5",
      request "e" "6"]
    let generator : Generator := fun r _ =>
      if r.name = "b" then .failed else if r.name = "d" then .died else .text (r.name ++ r.body)
    let texts := [⟨"a", "a1"⟩, ⟨"c", "c4"⟩, ⟨"e", "e6"⟩]
    let run := run generator List.reverse ⟨2, 100⟩ .google requests
    (∀ group : List Call, group.reverse.Perm group) ∧ run.docs = texts ∧ run.pausedMs = 200 ∧
      run.calls = [request "a" "1", request "b" "2", request "c" "4", request "d" "5", request "e" "6"] ∧
      ∃ p, Reached (generator · .google) ⟨2, 100⟩ (firstOfName requests) p ∧ p.Done ∧ p.docs = texts := by
  intro request requests generator texts run
  have hall := texts_in_any_order generator ⟨2, 100⟩ .google requests
  have hreverse : ∀ group : List Call, group.reverse.Perm group := fun group => group.reverse_perm
  obtain ⟨hdocs, hcalls, -, hpaused, p, hp, hdone, -⟩ := hall.2 List.reverse hreverse
  refine ⟨hreverse, hdocs.trans (by decide +kernel), hpaused.trans (by decide +kernel),
    hcalls.trans (by decide +kernel), p, hp, hdone, ?_⟩
  exact ((hall.1 p hp).2.2.2.2.2.2 hdone).1.trans (by decide +kernel)

end DocComments.Batch
