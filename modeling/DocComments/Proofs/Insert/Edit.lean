import DocComments.Insert

/-! Edits of lines. Edits that keep apart may be made from the lowest up or all at once. -/
namespace DocComments.Insert.Edit
open Text

def shift (n : Nat) (edit : Edit) : Edit :=
  { edit with first := n + edit.first, stop := n + edit.stop }

/-- The edit concerns at most the first `length` lines. -/
structure Within (edit : Edit) (length : Nat) : Prop where
  first_le_stop : edit.first ≤ edit.stop
  stop_le : edit.stop ≤ length

theorem Within.first_le {edit : Edit} {length : Nat} (h : edit.Within length) : edit.first ≤ length :=
  Nat.le_trans h.first_le_stop h.stop_le

def growth (edit : Edit) : Int :=
  edit.block.length - (edit.stop - edit.first)

/-- The lines above an edit, those it replaces and those below it. -/
theorem Within.exists_append {edit : Edit} {lines : List Line} (h : edit.Within lines.length) :
    ∃ kept dropped below : List Line, lines = kept ++ (dropped ++ below) ∧
      kept.length = edit.first ∧ edit.stop = edit.first + dropped.length := by
  have hf := h.first_le
  obtain ⟨hm, hs⟩ := h
  refine ⟨lines.take edit.first, (lines.drop edit.first).take (edit.stop - edit.first),
    (lines.drop edit.first).drop (edit.stop - edit.first), ?_, ?_, ?_⟩
  · rw [List.take_append_drop, List.take_append_drop]
  · rw [List.length_take, Nat.min_eq_left hf]
  · rw [List.length_take, List.length_drop]
    omega

theorem apply_append (edit : Edit) {kept dropped : List Line} (hk : kept.length = edit.first)
    (hd : edit.stop = edit.first + dropped.length) (below : List Line) :
    edit.apply (kept ++ (dropped ++ below)) = kept ++ (edit.block ++ below) := by
  rw [apply, hd, ← hk, List.take_left, List.drop_length_add_append, List.drop_left,
    List.append_assoc]

@[simp] theorem shift_growth (n : Nat) (edit : Edit) : (edit.shift n).growth = edit.growth := by
  simp only [growth, shift]
  omega

theorem length_apply {edit : Edit} {lines : List Line} (h : edit.Within lines.length) :
    ((edit.apply lines).length : Int) = lines.length + edit.growth := by
  obtain ⟨hf, hs⟩ := h
  simp only [apply, growth, List.length_append, List.length_take, List.length_drop]
  omega

/-- An edit acts on its own lines, whatever stands above and below them. -/
theorem apply_shift {edit : Edit} {lines : List Line} (h : edit.Within lines.length)
    (above below : List Line) :
    (edit.shift above.length).apply (above ++ (lines ++ below)) =
      above ++ (edit.apply lines ++ below) := by
  simp only [apply, shift, List.take_length_add_append, List.drop_length_add_append,
    List.take_append_of_le_length h.first_le, List.drop_append_of_le_length h.stop_le,
    List.append_assoc]

/-- Replacing the block just written leaves nothing of it. -/
theorem apply_apply {edit : Edit} {lines : List Line} (h : edit.Within lines.length)
    (block : List Line) :
    apply ⟨edit.first, edit.first + edit.block.length, block⟩ (edit.apply lines) =
      apply { edit with block } lines := by
  obtain ⟨kept, dropped, below, rfl, hk, hd⟩ := h.exists_append
  have hfirst := edit.apply_append hk hd
  have hagain := apply_append ⟨edit.first, edit.first + edit.block.length, block⟩ hk rfl
  have honce := apply_append { edit with block } hk hd
  rw [hfirst, hagain, honce]

theorem getLast?_apply {edit : Edit} {lines : List Line} (hb : edit.block.getLast? ≠ some [])
    (hn : edit.block ≠ []) (h : lines.getLast? ≠ some []) :
    (edit.apply lines).getLast? ≠ some [] := by
  rw [apply, List.getLast?_append, List.getLast?_append, List.getLast?_drop]
  cases hl : edit.block.getLast? with
  | none => exact absurd (List.getLast?_eq_none_iff.mp hl) hn
  | some line =>
    rw [hl] at hb
    split
    · simpa using hb
    · cases hd : lines.getLast? with
      | none => simpa using hb
      | some last => simpa [hd] using h

theorem mem_apply {edit : Edit} {lines : List Line} {line : Line} (h : line ∈ edit.apply lines) :
    line ∈ edit.block ∨ line ∈ lines := by
  simp only [apply, List.mem_append] at h
  rcases h with (h | h) | h
  · exact .inr (List.mem_of_mem_take h)
  · exact .inl h
  · exact .inr (List.mem_of_mem_drop h)

/-- What stands on a line that is replaced does not matter. -/
theorem apply_set {edit : Edit} {n : Nat} (hf : edit.first ≤ n) (hs : n < edit.stop)
    (lines : List Line) (line : Line) : edit.apply (lines.set n line) = edit.apply lines := by
  have habove : (lines.take edit.first).set n line = lines.take edit.first := by
    apply List.set_eq_of_length_le
    rw [List.length_take]
    omega
  rw [apply, apply, List.take_set, habove, List.drop_set, if_pos hs]

/-- The blocks that the edits put in front of the line with the given number. -/
def blocksAt (edits : List Edit) (number : Nat) : List Line :=
  (edits.filter fun edit => edit.first == number).flatMap (·.block)

/-- Whether one of the edits replaces the line with the given number. -/
def replaced (edits : List Edit) (number : Nat) : Bool :=
  edits.any fun edit => edit.first ≤ number && number < edit.stop

/-- All edits made at once. Each line, the first of which has the given number, is kept or dropped
by its number alone, and no edit sees what another does. -/
def atOnce (edits : List Edit) : Nat → List Line → List Line
  | number, [] => blocksAt edits number
  | number, line :: below =>
    blocksAt edits number ++ (if replaced edits number then [] else [line]) ++
      atOnce edits (number + 1) below

private theorem blocksAt_of_lt {edits : List Edit} {number : Nat}
    (h : ∀ edit ∈ edits, number < edit.first) : blocksAt edits number = [] := by
  have hf : edits.filter (fun edit => edit.first == number) = [] := by
    rw [List.filter_eq_nil_iff]
    intro edit he
    have := h edit he
    simp
    omega
  rw [blocksAt, hf, List.flatMap_nil]

private theorem replaced_of_lt {edits : List Edit} {number : Nat}
    (h : ∀ edit ∈ edits, number < edit.first) : replaced edits number = false := by
  rw [replaced, List.any_eq_false]
  intro edit he
  have := h edit he
  simp
  omega

theorem atOnce_append {edits : List Edit} {number : Nat} (kept below : List Line)
    (h : ∀ edit ∈ edits, number + kept.length ≤ edit.first) :
    atOnce edits number (kept ++ below) = kept ++ atOnce edits (number + kept.length) below := by
  induction kept generalizing number with
  | nil => rfl
  | cons line kept ih =>
    simp only [List.length_cons] at h
    have hlt : ∀ edit ∈ edits, number < edit.first := fun edit he => by
      have := h edit he
      omega
    have hk : ∀ edit ∈ edits, number + 1 + kept.length ≤ edit.first := fun edit he => by
      have := h edit he
      omega
    simp only [List.cons_append, atOnce, blocksAt_of_lt hlt, replaced_of_lt hlt, ih hk,
      List.nil_append, List.length_cons]
    simp [Nat.add_right_comm, Nat.add_assoc]

private theorem atOnce_of_above {edit : Edit} {number : Nat} (hf : edit.first < number)
    (hs : edit.stop ≤ number) (edits : List Edit) (lines : List Line) :
    atOnce (edit :: edits) number lines = atOnce edits number lines := by
  have hb {n : Nat} (hn : number ≤ n) : blocksAt (edit :: edits) n = blocksAt edits n := by
    have : edit.first ≠ n := by omega
    simp [blocksAt, this]
  have hr {n : Nat} (hn : number ≤ n) : replaced (edit :: edits) n = replaced edits n := by
    have : ¬ n < edit.stop := by omega
    simp [replaced, this]
  induction lines generalizing number with
  | nil => exact hb (Nat.le_refl number)
  | cons line below ih =>
    rw [atOnce, atOnce, hb (Nat.le_refl number), hr (Nat.le_refl number),
      ih (by omega) (by omega) (fun h => hb (by omega)) (fun h => hr (by omega))]

private theorem atOnce_drop {edit : Edit} {edits : List Edit} {number : Nat}
    (dropped below : List Line) (hf : edit.first < number)
    (hs : edit.stop = number + dropped.length)
    (h : ∀ other ∈ edits, edit.stop ≤ other.first) :
    atOnce (edit :: edits) number (dropped ++ below) = atOnce edits edit.stop below := by
  induction dropped generalizing number with
  | nil =>
    obtain rfl : edit.stop = number := hs
    exact atOnce_of_above hf (Nat.le_refl _) edits below
  | cons line dropped ih =>
    rw [List.length_cons] at hs
    have hlt : ∀ other ∈ edits, number < other.first := fun other ho => by
      have := h other ho
      omega
    have hb : blocksAt (edit :: edits) number = [] := by
      have hne : edit.first ≠ number := by omega
      simpa [blocksAt, hne] using blocksAt_of_lt hlt
    have hr : replaced (edit :: edits) number = true := by
      have hfn : edit.first ≤ number := by omega
      have hns : number < edit.stop := by omega
      simp [replaced, hfn, hns]
    rw [List.cons_append, atOnce, hb, hr, ih (by omega) (by omega)]
    simp

/-- The first edit takes the lines it replaces away and puts its block there. -/
private theorem atOnce_edit {edit : Edit} {edits : List Edit} (dropped below : List Line)
    (hs : edit.stop = edit.first + dropped.length) (h : ∀ other ∈ edits, edit.stop ≤ other.first) :
    atOnce (edit :: edits) edit.first (dropped ++ below) =
      edit.block ++ atOnce edits edit.stop below := by
  have hb : blocksAt (edit :: edits) edit.first = edit.block ++ blocksAt edits edit.first := by
    simp [blocksAt]
  cases dropped with
  | nil =>
    have hs : edit.stop = edit.first := hs
    have hr : replaced (edit :: edits) edit.first = replaced edits edit.first := by
      simp [replaced, hs]
    rw [List.nil_append, hs]
    cases below with
    | nil => exact hb
    | cons line below =>
      rw [atOnce, atOnce, hb, hr, atOnce_of_above (by omega) (by omega)]
      simp
  | cons line dropped =>
    rw [List.length_cons] at hs
    have hlt : ∀ other ∈ edits, edit.first < other.first := fun other ho => by
      have := h other ho
      omega
    have hr : replaced (edit :: edits) edit.first = true := by
      have : edit.first < edit.stop := by omega
      simp [replaced, this]
    rw [List.cons_append, atOnce, hb, hr, blocksAt_of_lt hlt,
      atOnce_drop dropped below (by omega) (by omega) h]
    simp

private theorem atOnce_nil (number : Nat) (lines : List Line) : atOnce [] number lines = lines := by
  induction lines generalizing number with
  | nil => rfl
  | cons line below ih => simp [atOnce, blocksAt, replaced, ih]

/-- Edits in increasing order that do not overlap come to the same when they are made one after the
other from the lowest up. -/
theorem atOnce_eq_foldr {edits : List Edit} {lines : List Line}
    (hp : edits.Pairwise fun upper lower => upper.stop ≤ lower.first)
    (hw : ∀ edit ∈ edits, edit.Within lines.length) :
    atOnce edits 0 lines = edits.foldr Edit.apply lines := by
  induction edits with
  | nil => exact atOnce_nil 0 lines
  | cons edit edits ih =>
    obtain ⟨hlow, hp⟩ := List.pairwise_cons.mp hp
    have ih := ih hp fun other ho => hw other (by simp [ho])
    obtain ⟨kept, dropped, below, rfl, hk, hd⟩ := (hw edit (by simp)).exists_append
    have hlen : (kept ++ dropped).length = edit.stop := by
      rw [List.length_append]
      omega
    -- the edits below see the lines that this one replaces as lines above all of them
    have hupper : ∀ other ∈ edits, 0 + (kept ++ dropped).length ≤ other.first := by
      intro other ho
      have := hlow other ho
      omega
    have htop : ∀ other ∈ edit :: edits, 0 + kept.length ≤ other.first := by
      intro other ho
      rcases List.mem_cons.mp ho with rfl | ho
      · omega
      · have := hlow other ho
        omega
    have hbelow : edits.foldr Edit.apply (kept ++ (dropped ++ below)) =
        kept ++ (dropped ++ atOnce edits edit.stop below) := by
      rw [← ih, ← List.append_assoc, atOnce_append (kept ++ dropped) below hupper, Nat.zero_add,
        hlen, List.append_assoc]
    rw [List.foldr_cons, hbelow, edit.apply_append hk hd, atOnce_append kept (dropped ++ below) htop,
      Nat.zero_add, hk, atOnce_edit dropped below hd hlow]

end DocComments.Insert.Edit
