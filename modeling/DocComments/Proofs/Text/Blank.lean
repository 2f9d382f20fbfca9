import DocComments.Text.Blank
import Mathlib.Data.List.Infix
import Mathlib.Data.List.TakeWhile

/-! What trimming and indentation do to text put together from pieces. -/
namespace DocComments.Text

theorem isIndent_of_mem_indentation {line : List Char} {c : Char} (h : c ∈ indentation line) :
    isIndent c := by
  simpa using List.all_eq_true.mp (List.all_takeWhile (p := isIndent) (l := line)) c h

theorem trimStart_append {indent : List Char} (h : ∀ c ∈ indent, isIndent c) (s : List Char) :
    trimStart (indent ++ s) = trimStart s :=
  List.dropWhile_append_of_pos fun c hc => isBlank_of_isIndent (h c hc)

/-- What trimming takes from the start of a text, whatever stands behind the first character left. -/
theorem exists_of_trimStart_eq_cons {s rest : List Char} {c : Char} (h : trimStart s = c :: rest) :
    ∃ blanks, s = blanks ++ c :: rest ∧ isBlank c = false ∧
      ∀ other, trimStart (blanks ++ c :: other) = c :: other := by
  have hc : isBlank c = false := by
    have hne : s.dropWhile isBlank ≠ [] := by
      rw [← trimStart, h]
      simp
    have hnot := List.head_dropWhile_not isBlank hne
    rw [trimStart] at h
    simpa only [h, List.head_cons] using hnot
  refine ⟨s.takeWhile isBlank, ?_, hc, fun other => ?_⟩
  · rw [← h, trimStart, List.takeWhile_append_dropWhile]
  · rw [trimStart, List.dropWhile_append_of_pos (List.all_eq_true.mp List.all_takeWhile),
      List.dropWhile_cons_of_neg (by simp [hc])]

theorem trimStart_cons {c : Char} (h : isBlank c = false) (s : List Char) :
    trimStart (c :: s) = c :: s :=
  List.dropWhile_cons_of_neg (by simp [h])

/-- Nothing behind a character that is no blank is trimmed from the start. -/
theorem trimStart_append_cons {c : Char} (h : isBlank c = false) (s t : List Char) :
    trimStart (s ++ c :: t) = trimStart s ++ c :: t := by
  have ht : trimStart (c :: t) = c :: t := trimStart_cons h t
  rw [trimStart] at ht
  rw [trimStart, trimStart, List.dropWhile_append]
  split
  · rename_i hs
    rw [ht, List.isEmpty_iff.mp hs, List.nil_append]
  · rfl

theorem trimEnd_append_singleton {c : Char} (h : isBlank c = false) (s : List Char) :
    trimEnd (s ++ [c]) = s ++ [c] := by
  simp [trimEnd, h]

theorem isBlank_of_getLast?_trimEnd {s : List Char} {c : Char} (h : (trimEnd s).getLast? = some c) :
    isBlank c = false := by
  rw [trimEnd, List.getLast?_reverse] at h
  have hne : s.reverse.dropWhile isBlank ≠ [] := by
    rintro he
    simp [he] at h
  have hnot := List.head_dropWhile_not isBlank hne
  rw [List.head?_eq_some_head hne, Option.some.injEq] at h
  rwa [h] at hnot

theorem prefix_trimEnd (s : List Char) : trimEnd s <+: s := by
  rw [trimEnd, ← List.reverse_suffix, List.reverse_reverse]
  exact List.dropWhile_suffix isBlank

theorem indentation_append {indent : List Char} (h : ∀ c ∈ indent, isIndent c) (s : List Char) :
    indentation (indent ++ s) = indent ++ indentation s :=
  List.takeWhile_append_of_pos h

theorem depth_append {indent : List Char} (h : ∀ c ∈ indent, isIndent c) (s : List Char) :
    depth (indent ++ s) = indent.length + depth s := by
  rw [depth, indentation_append h, List.length_append]
  rfl

theorem afterIndent_append {indent : List Char} (h : ∀ c ∈ indent, isIndent c) (s : List Char) :
    afterIndent (indent ++ s) = afterIndent s :=
  List.dropWhile_append_of_pos h

theorem trimEnd_append_of_blank {b : List Char} (hb : allBlank b) (s : List Char) :
    trimEnd (s ++ b) = trimEnd s := by
  have hall : ∀ c ∈ b.reverse, isBlank c := fun c hc =>
    List.all_eq_true.mp hb c (List.mem_reverse.mp hc)
  rw [trimEnd, trimEnd, List.reverse_append, List.dropWhile_append_of_pos hall]

theorem allBlank_eq_false {s : List Char} (hne : s ≠ []) (h : ∀ c ∈ s.getLast?, isBlank c = false) :
    allBlank s = false := by
  have hl := h _ (List.getLast?_eq_some_getLast hne)
  rw [allBlank, List.all_eq_false]
  exact ⟨_, List.getLast_mem hne, by simp [hl]⟩

theorem trimEnd_eq_self {s : List Char} (h : ∀ c ∈ s.getLast?, isBlank c = false) : trimEnd s = s := by
  cases hs : s.reverse with
  | nil => rw [List.reverse_eq_nil_iff.mp hs]; rfl
  | cons c rest =>
    have hc : isBlank c = false := h c (by rw [List.getLast?_eq_head?_reverse, hs]; rfl)
    rw [trimEnd, hs, List.dropWhile_cons_of_neg (by simp [hc]), ← hs, List.reverse_reverse]

/-- What trimming takes from the end of a text. -/
theorem exists_trimEnd_append (s : List Char) : ∃ b, allBlank b ∧ s = trimEnd s ++ b := by
  refine ⟨(s.reverse.takeWhile isBlank).reverse, ?_, ?_⟩
  · rw [allBlank, List.all_reverse]
    exact List.all_takeWhile
  · rw [trimEnd, ← List.reverse_append, List.takeWhile_append_dropWhile, List.reverse_reverse]

/-- Only blanks behind the last character that is none are trimmed. -/
theorem trimEnd_append {s : List Char} (h : ∀ c ∈ s.getLast?, isBlank c = false) (t : List Char) :
    trimEnd (s ++ t) = s ++ trimEnd t := by
  obtain ⟨b, hb, ht⟩ := exists_trimEnd_append t
  have hself : trimEnd (s ++ trimEnd t) = s ++ trimEnd t := by
    apply trimEnd_eq_self
    intro c hc
    rw [List.getLast?_append, Option.mem_def, Option.or_eq_some_iff] at hc
    rcases hc with hc | ⟨-, hc⟩
    · exact isBlank_of_getLast?_trimEnd hc
    · exact h c hc
  have happend := trimEnd_append_of_blank hb (s ++ trimEnd t)
  rw [List.append_assoc, ← ht] at happend
  rw [happend, hself]

theorem trim_of_trimStart_eq_cons {s rest : List Char} {c : Char} (h : trimStart s = c :: rest) :
    trim s = c :: trimEnd rest := by
  obtain ⟨-, -, hc, -⟩ := exists_of_trimStart_eq_cons h
  rw [trim, h]
  exact trimEnd_append (s := [c]) (by simpa using hc) rest

theorem trimEnd_eq_append_iff {s before mark : List Char} (hm : mark ≠ [])
    (h : ∀ c ∈ mark.getLast?, isBlank c = false) :
    trimEnd s = before ++ mark ↔ ∃ after, s = before ++ (mark ++ after) ∧ allBlank after := by
  constructor
  · intro ht
    obtain ⟨b, hb, hs⟩ := exists_trimEnd_append s
    exact ⟨b, by rw [hs, ht, List.append_assoc], hb⟩
  · rintro ⟨after, rfl, hb⟩
    rw [← List.append_assoc, trimEnd_append_of_blank hb]
    apply trimEnd_eq_self
    intro c hc
    rw [List.getLast?_append_of_ne_nil _ hm] at hc
    exact h c hc

theorem allBlank_trimEnd (s : List Char) : allBlank (trimEnd s) = allBlank s := by
  obtain ⟨b, hb, hs⟩ := exists_trimEnd_append s
  conv_rhs => rw [hs, allBlank, List.all_append]
  rw [allBlank] at hb
  rw [hb, Bool.and_true, allBlank]

theorem depth_append_of_not_blank {s : List Char} (h : allBlank s = false) (t : List Char) :
    depth (s ++ t) = depth s := by
  have hlt : (s.takeWhile isIndent).length ≠ s.length := by
    intro he
    have hself := List.takeWhile_eq_self_iff.mp ((List.takeWhile_prefix isIndent).eq_of_length he)
    rw [allBlank, List.all_eq_false] at h
    obtain ⟨c, hc, hb⟩ := h
    exact hb (isBlank_of_isIndent (hself c hc))
  rw [depth, indentation, List.takeWhile_append, if_neg hlt]
  rfl

theorem depth_trimEnd {s : List Char} (h : allBlank s = false) : depth (trimEnd s) = depth s := by
  obtain ⟨b, -, hs⟩ := exists_trimEnd_append s
  have hdepth := depth_append_of_not_blank ((allBlank_trimEnd s).trans h) b
  rw [← hs] at hdepth
  exact hdepth.symm

theorem depth_eq_zero {s : List Char} (h : ∀ c ∈ s.head?, isBlank c = false) : depth s = 0 := by
  cases s with
  | nil => rfl
  | cons c s =>
    have hc : ¬ isIndent c := fun hi => by simpa [h c rfl] using isBlank_of_isIndent hi
    rw [depth, indentation, List.takeWhile_cons_of_neg hc, List.length_nil]

theorem length_take_of_le_depth {line : List Char} {n : Nat} (h : n ≤ depth line) :
    (line.take n).length = n := by
  have hdepth : depth line ≤ line.length := (List.takeWhile_prefix isIndent).length_le
  rw [List.length_take, Nat.min_eq_left (h.trans hdepth)]

theorem isIndent_of_mem_take {line : List Char} {n : Nat} (h : n ≤ depth line) {c : Char}
    (hc : c ∈ line.take n) : isIndent c := by
  rw [← indentation_append_afterIndent line, List.take_append_of_le_length h] at hc
  exact isIndent_of_mem_indentation (List.mem_of_mem_take hc)

theorem allBlank_append_of_isIndent {indent : List Char} (h : ∀ c ∈ indent, isIndent c)
    (s : List Char) : allBlank (indent ++ s) = allBlank s := by
  have hindent : indent.all isBlank := List.all_eq_true.mpr fun c hc => isBlank_of_isIndent (h c hc)
  rw [allBlank, List.all_append, hindent, Bool.true_and, allBlank]

theorem trim_append_of_blank {a b : List Char} (ha : allBlank a) (hb : allBlank b) (s : List Char) :
    trim (a ++ (s ++ b)) = trim s := by
  have hall : ∀ c ∈ a, isBlank c := List.all_eq_true.mp ha
  rw [trim, trim, trimStart, trimStart, List.dropWhile_append_of_pos hall, List.dropWhile_append]
  split
  · rename_i hs
    have hnil : b.dropWhile isBlank = [] := List.dropWhile_eq_nil_iff.mpr (List.all_eq_true.mp hb)
    rw [hnil, List.isEmpty_iff.mp hs]
  · exact trimEnd_append_of_blank hb _

/-- A text that trimming leaves something of, and as it is. -/
structure Trimmed (s : List Char) : Prop where
  ne_nil : s ≠ []
  head : ∀ c ∈ s.head?, isBlank c = false
  last : ∀ c ∈ s.getLast?, isBlank c = false

theorem Trimmed.trim_eq_self {s : List Char} (h : Trimmed s) : trim s = s := by
  obtain ⟨c, rest, rfl⟩ := List.exists_cons_of_ne_nil h.ne_nil
  have hc : isBlank c = false := h.head c rfl
  rw [trim, trimStart, List.dropWhile_cons_of_neg (by simp [hc]), trimEnd_eq_self h.last]

/-- Blanks around a trimmed text are taken away from its content. -/
theorem Trimmed.content?_append {s a b : List Char} (h : Trimmed s) (ha : allBlank a) (hb : allBlank b) :
    content? (a ++ (s ++ b)) = some s := by
  have htrim : trim (a ++ (s ++ b)) = s := (trim_append_of_blank ha hb s).trans h.trim_eq_self
  obtain ⟨c, rest, rfl⟩ := List.exists_cons_of_ne_nil h.ne_nil
  rw [content?, htrim]

theorem Trimmed.append {s t : List Char} (h : Trimmed s) (ht : ∀ c ∈ t.getLast?, isBlank c = false) :
    Trimmed (s ++ t) where
  ne_nil := by simp [h.ne_nil]
  head := by
    intro c hc
    rw [List.head?_append_of_ne_nil _ h.ne_nil] at hc
    exact h.head c hc
  last := by
    intro c hc
    rw [List.getLast?_append, Option.mem_def, Option.or_eq_some_iff] at hc
    rcases hc with hc | ⟨-, hc⟩
    · exact ht c hc
    · exact h.last c hc

theorem Trimmed.of_ends {front back s : List Char} (hf : Trimmed front) (hb : Trimmed back)
    (hp : front <+: s) (hs : back <:+ s) : Trimmed s := by
  refine ⟨fun he => hf.ne_nil (List.prefix_nil.mp (he ▸ hp)), fun c hc => ?_, fun c hc => ?_⟩
  · obtain ⟨rest, rfl⟩ := hp
    rw [List.head?_append_of_ne_nil _ hf.ne_nil] at hc
    exact hf.head c hc
  · obtain ⟨rest, rfl⟩ := hs
    rw [List.getLast?_append_of_ne_nil _ hb.ne_nil] at hc
    exact hb.last c hc

theorem Trimmed.trim_append {s : List Char} (h : Trimmed s) (t : List Char) :
    trim (s ++ t) = s ++ trimEnd t := by
  obtain ⟨c, rest, rfl⟩ := List.exists_cons_of_ne_nil h.ne_nil
  rw [trim, List.cons_append, trimStart_cons (h.head c rfl), ← List.cons_append, trimEnd_append h.last]

theorem Trimmed.last_append {s : List Char} (h : Trimmed s) (front : List Char) :
    ∀ c ∈ (front ++ s).getLast?, isBlank c = false := by
  rw [List.getLast?_append_of_ne_nil _ h.ne_nil]
  exact h.last

theorem Trimmed.content?_space {s : List Char} (h : Trimmed s) : content? (' ' :: s) = some s := by
  have hcut := h.content?_append (a := [' ']) (b := []) rfl rfl
  rwa [List.append_nil, List.singleton_append] at hcut

/-- A text that ends in no blank is trimmed at its start alone. -/
theorem trim_eq_trimStart {s : List Char} (h : ∀ c ∈ s.getLast?, isBlank c = false) :
    trim s = trimStart s := by
  apply trimEnd_eq_self
  intro c hc
  obtain ⟨front, hs⟩ : trimStart s <:+ s := List.dropWhile_suffix isBlank
  rw [← hs, List.getLast?_append] at h
  exact h c (by rw [Option.mem_def.mp hc]; rfl)

theorem trim_isInfix (s : List Char) : trim s <:+: s :=
  (prefix_trimEnd _).isInfix.trans (List.dropWhile_suffix isBlank).isInfix

theorem trimmed_of_content? {s t : List Char} (h : content? s = some t) : Trimmed t ∧ t <:+: s := by
  have ht : t = trim s ∧ t ≠ [] := by
    rw [content?] at h
    split at h
    · simp at h
    · rename_i hs
      obtain rfl := Option.some.inj h
      exact ⟨hs.symm, by simp⟩
  obtain ⟨rfl, hne⟩ := ht
  refine ⟨⟨hne, fun c hc => ?_, fun c hc => isBlank_of_getLast?_trimEnd hc⟩, trim_isInfix s⟩
  obtain ⟨rest, hr⟩ := List.head?_eq_some_iff.mp hc
  -- what is left at the end begins where the blanks in front end
  have hstart : c :: rest <+: trimStart s := hr ▸ prefix_trimEnd (trimStart s)
  obtain ⟨below, hb⟩ := hstart
  obtain ⟨-, -, hblank, -⟩ := exists_of_trimStart_eq_cons hb.symm
  exact hblank

theorem trim_eq_nil_or_trimmed (s : List Char) : trim s = [] ∨ Trimmed (trim s) := by
  cases ht : trim s with
  | nil => exact .inl rfl
  | cons c rest =>
    have hcontent : content? s = some (c :: rest) := by rw [content?, ht]
    exact .inr (trimmed_of_content? hcontent).1

theorem trimEnd_eq_nil {s : List Char} (h : allBlank s) : trimEnd s = [] :=
  trimEnd_append_of_blank h []

theorem trimEnd_ne_nil {s : List Char} (h : allBlank s = false) : trimEnd s ≠ [] := by
  intro he
  rw [← allBlank_trimEnd, he] at h
  exact absurd h (by decide)

theorem trimEnd_cons_trimEnd (c : Char) (s : List Char) :
    trimEnd (c :: trimEnd s) = trimEnd (c :: s) := by
  obtain ⟨b, hb, hs⟩ := exists_trimEnd_append s
  conv_rhs => rw [hs, ← List.cons_append, trimEnd_append_of_blank hb]

/-- A text that is not blank is trimmed at its end whatever stands in front of it. -/
theorem trimEnd_append_of_not_blank {s : List Char} (h : allBlank s = false) (front : List Char) :
    trimEnd (front ++ s) = front ++ trimEnd s := by
  obtain ⟨b, hb, hs⟩ := exists_trimEnd_append s
  have hself : trimEnd (front ++ trimEnd s) = front ++ trimEnd s := by
    apply trimEnd_eq_self
    intro c hc
    rw [List.getLast?_append_of_ne_nil _ (trimEnd_ne_nil h)] at hc
    exact isBlank_of_getLast?_trimEnd hc
  rw [← hself]
  conv_lhs => rw [hs, ← List.append_assoc, trimEnd_append_of_blank hb]

/-- A text ends in no blank if what stands at its end does not. -/
theorem closed_append {s : List Char} (hne : s ≠ []) (h : ∀ c ∈ s.getLast?, isBlank c = false)
    {front : List Char} : ∀ c ∈ (front ++ s).getLast?, isBlank c = false := by
  rwa [List.getLast?_append_of_ne_nil _ hne]

theorem trim_trimEnd (s : List Char) : trim (trimEnd s) = trim s := by
  obtain ⟨b, hb, hs⟩ := exists_trimEnd_append s
  have htrim := trim_append_of_blank (a := []) rfl hb (trimEnd s)
  rw [List.nil_append, ← hs] at htrim
  exact htrim.symm

/-- The two ends of a text are trimmed in any order. -/
theorem trimStart_trimEnd (s : List Char) : trimStart (trimEnd s) = trim s := by
  rw [← trim_trimEnd, trim_eq_trimStart fun c hc => isBlank_of_getLast?_trimEnd hc]

structure Phrase (s : List Char) : Prop extends Trimmed s where
  oneLine : '\n' ∉ s

theorem phrase_of_not_blank {s : List Char} (hne : s ≠ []) (h : ∀ c ∈ s, isBlank c = false) :
    Phrase s where
  ne_nil := hne
  head := fun c hc => h c (List.mem_of_head? hc)
  last := fun c hc => h c (List.mem_of_getLast? hc)
  oneLine := fun hn => absurd (h _ hn) (by decide)

end DocComments.Text
