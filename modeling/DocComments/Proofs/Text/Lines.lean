import DocComments.Text.Lines
import Mathlib.Data.List.Forall2

/-! Lines written and read back: which lines survive being joined and split again. -/
namespace DocComments.Text

/-- A line that no line feed cuts and that ends in no carriage return, which a line feed behind it
would take along. -/
def Plain (line : Line) : Prop :=
  '\n' ∉ line ∧ line.getLast? ≠ some '\r'

instance (line : Line) : Decidable (Plain line) :=
  inferInstanceAs (Decidable (_ ∧ _))

theorem Plain.append {line : Line} (h : Plain line) (hne : line ≠ []) {s : List Char}
    (hs : '\n' ∉ s) : Plain (s ++ line) := by
  obtain ⟨hn, hr⟩ := h
  refine ⟨by simp [hs, hn], ?_⟩
  cases hl : line.getLast? with
  | none => exact absurd (List.getLast?_eq_none_iff.mp hl) hne
  | some c => simpa [List.getLast?_append, hl] using hr

theorem lines_cons {c : Char} {s : List Char} (hc : c ≠ '\n')
    (hr : c = '\r' → s.head? ≠ some '\n') : lines (c :: s) = extendFirst c (lines s) := by
  rw [lines]
  · exact hc
  · rintro rest rfl rfl
    exact hr rfl rfl

private theorem extendFirst_ne_nil (c : Char) (ls : List Line) : extendFirst c ls ≠ [] := by
  cases ls <;> simp [extendFirst]

theorem lines_eq_nil_iff {s : List Char} : lines s = [] ↔ s = [] := by
  fun_cases lines s <;> simp [extendFirst_ne_nil]

theorem not_mem_of_mem_lines {s : List Char} {line : Line} (h : line ∈ lines s) : '\n' ∉ line := by
  fun_induction lines s generalizing line with
  | case1 => simp at h
  | case2 rest ih | case3 rest ih =>
    rcases List.mem_cons.mp h with rfl | h
    · simp
    · exact ih h
  | case4 c rest hc _ ih =>
    have hc : '\n' ≠ c := fun he => hc he.symm
    cases hl : lines rest with
    | nil =>
      simp only [hl, extendFirst, List.mem_singleton] at h
      subst h
      simpa using hc
    | cons first others =>
      simp only [hl, extendFirst, List.mem_cons] at h
      rcases h with rfl | h
      · have hfirst : '\n' ∉ first := ih (by simp [hl])
        simp [hc, hfirst]
      · exact ih (by simp [hl, h])

/-- A text that ends in a line feed is cut into lines on its own. -/
theorem lines_append {s : List Char} (h : endsInNewline s) (t : List Char) :
    lines (s ++ t) = lines s ++ lines t := by
  fun_induction lines s with
  | case1 => simp [endsInNewline] at h
  | case2 rest ih =>
    rw [List.cons_append, lines]
    cases rest with
    | nil => rfl
    | cons c rest => rw [ih (by simpa [endsInNewline] using h), List.cons_append]
  | case3 rest ih =>
    rw [List.cons_append, List.cons_append, lines]
    cases rest with
    | nil => rfl
    | cons c rest => rw [ih (by simpa [endsInNewline] using h), List.cons_append]
  | case4 c rest hc hr ih =>
    have hne : rest ≠ [] := by
      rintro rfl
      exact hc (by simpa [endsInNewline] using h)
    obtain ⟨d, below, rfl⟩ := List.exists_cons_of_ne_nil hne
    obtain ⟨line, others, hl⟩ := List.exists_cons_of_ne_nil (mt lines_eq_nil_iff.mp hne)
    have hcut : c = '\r' → (d :: below ++ t).head? ≠ some '\n' := by
      rintro hcr hd
      exact hr below hcr (by simpa using hd)
    rw [List.cons_append, lines_cons (fun he => hc he) hcut, ih (by simpa [endsInNewline] using h), hl]
    rfl

theorem endsInNewline_append {t : List Char} (ht : t ≠ []) (s : List Char) :
    endsInNewline (s ++ t) = endsInNewline t := by
  rw [endsInNewline, endsInNewline, List.getLast?_append, List.getLast?_eq_some_getLast ht, Option.some_or]

theorem getLast?_lines {s : List Char} (h : endsInNewline s = false) :
    (lines s).getLast? ≠ some [] := by
  fun_induction lines s with
  | case1 => simp
  | case2 rest ih | case3 rest ih =>
    cases rest with
    | nil => simp [endsInNewline] at h
    | cons c rest =>
      have hne : lines (c :: rest) ≠ [] := by simp [lines_eq_nil_iff]
      rw [List.getLast?_cons_of_ne_nil hne]
      exact ih (by simpa [endsInNewline] using h)
  | case4 c rest _ _ ih =>
    cases hl : lines rest with
    | nil => simp [extendFirst]
    | cons first others =>
      cases others with
      | nil => simp [extendFirst]
      | cons second others =>
        have hr : endsInNewline rest = false := by
          cases rest with
          | nil => rfl
          | cons d rest => simpa [endsInNewline] using h
        have hrest := ih hr
        rw [hl, List.getLast?_cons_of_ne_nil (by simp)] at hrest
        rw [extendFirst, List.getLast?_cons_of_ne_nil (by simp)]
        exact hrest

private theorem prefix_of_lines_eq_cons {s : List Char} {first : Line} {others : List Line}
    (h : lines s = first :: others) : first <+: s := by
  fun_induction lines s generalizing first others with
  | case1 => simp at h
  | case2 rest ih | case3 rest ih =>
    obtain ⟨rfl, -⟩ := List.cons_eq_cons.mp h
    exact List.nil_prefix
  | case4 c rest _ _ ih =>
    cases hl : lines rest with
    | nil =>
      rw [hl, extendFirst] at h
      obtain ⟨rfl, -⟩ := List.cons_eq_cons.mp h
      simp
    | cons line below =>
      rw [hl, extendFirst] at h
      obtain ⟨rfl, -⟩ := List.cons_eq_cons.mp h
      simpa using ih hl

/-- Lines are pieces of the text, as they stand there. -/
theorem infix_of_mem_lines {s : List Char} {line : Line} (h : line ∈ lines s) : line <:+: s := by
  fun_induction lines s with
  | case1 => simp at h
  | case2 rest ih =>
    rcases List.mem_cons.mp h with rfl | h
    · exact List.nil_infix
    · exact (ih h).trans (List.suffix_cons _ _).isInfix
  | case3 rest ih =>
    rcases List.mem_cons.mp h with rfl | h
    · exact List.nil_infix
    · exact (ih h).trans ((List.suffix_cons _ _).trans (List.suffix_cons _ _)).isInfix
  | case4 c rest hc hr ih =>
    have hs : lines (c :: rest) = extendFirst c (lines rest) :=
      lines_cons (fun he => hc he) (fun he hd => by
        obtain ⟨tail, rfl⟩ := List.head?_eq_some_iff.mp hd
        exact hr tail he rfl)
    cases hl : lines rest with
    | nil =>
      rw [hl, extendFirst, List.mem_singleton] at h
      exact h ▸ (prefix_of_lines_eq_cons (by rw [hs, hl, extendFirst])).isInfix
    | cons first others =>
      rw [hl, extendFirst] at h
      rcases List.mem_cons.mp h with rfl | h
      · exact (prefix_of_lines_eq_cons (by rw [hs, hl, extendFirst])).isInfix
      · exact (ih (by simp [hl, h])).trans (List.suffix_cons _ _).isInfix

theorem lines_append_newline {line : Line} (h : Plain line) (rest : List Char) :
    lines (line ++ '\n' :: rest) = line :: lines rest := by
  obtain ⟨hn, hr⟩ := h
  induction line with
  | nil => simp
  | cons c line ih =>
    rw [List.mem_cons, not_or] at hn
    have hl : line.getLast? ≠ some '\r' := by
      intro hl
      cases line with
      | nil => simp at hl
      | cons d line => exact hr (by rw [List.getLast?_cons_of_ne_nil (by simp), hl])
    rw [List.cons_append, lines_cons (fun he => hn.1 he.symm), ih hn.2 hl, extendFirst]
    rintro rfl hd
    cases line with
    | nil => simp at hr
    | cons d line => exact hn.2 (by simp_all)

/-- A plain text at the head of another stands on its first line. -/
theorem exists_lines_append {s : List Char} (h : Plain s) (hne : s ≠ []) (t : List Char) :
    ∃ rest below, lines (s ++ t) = (s ++ rest) :: below := by
  obtain ⟨hn, hr⟩ := h
  induction s with
  | nil => exact absurd rfl hne
  | cons c s ih =>
    rw [List.mem_cons, not_or] at hn
    cases s with
    | nil =>
      have hnext : c = '\r' → t.head? ≠ some '\n' := fun he => absurd (he ▸ rfl) hr
      rw [List.cons_append, List.nil_append, lines_cons (Ne.symm hn.1) hnext]
      cases lines t with
      | nil => exact ⟨[], [], rfl⟩
      | cons first others => exact ⟨first, others, rfl⟩
    | cons d s =>
      have hl : (d :: s).getLast? ≠ some '\r' := by rwa [List.getLast?_cons_of_ne_nil (by simp)] at hr
      obtain ⟨rest, below, he⟩ := ih (by simp) hn.2 hl
      have hnext : c = '\r' → (d :: s ++ t).head? ≠ some '\n' := by
        rintro - hd
        exact hn.2 (by simp_all)
      exact ⟨rest, below, by rw [List.cons_append, lines_cons (Ne.symm hn.1) hnext, he]; rfl⟩

theorem lines_of_ne_nil {line : Line} (h : '\n' ∉ line) (hne : line ≠ []) :
    lines line = [line] := by
  induction line with
  | nil => exact absurd rfl hne
  | cons c line ih =>
    rw [List.mem_cons, not_or] at h
    rw [lines_cons (fun he => h.1 he.symm)]
    · cases line with
      | nil => rfl
      | cons d line => rw [ih h.2 (by simp), extendFirst]
    · intro _ hd
      obtain ⟨tail, rfl⟩ := List.head?_eq_some_iff.mp hd
      simp at h

theorem intercalate_newline (ls : List Line) : ['\n'].intercalate ls = joinLines ls := by
  induction ls with
  | nil => rfl
  | cons a ls ih =>
    cases ls with
    | nil => exact List.intercalate_singleton
    | cons b ls => rw [List.intercalate_cons_cons, ih, List.append_assoc]; rfl

theorem joinLines_append {ls ls' : List Line} (h : ls ≠ []) (h' : ls' ≠ []) :
    joinLines (ls ++ ls') = joinLines ls ++ '\n' :: joinLines ls' := by
  induction ls with
  | nil => exact absurd rfl h
  | cons a ls ih =>
    cases ls with
    | nil =>
      obtain ⟨b, below, rfl⟩ := List.exists_cons_of_ne_nil h'
      rfl
    | cons b ls =>
      have ih := ih (by simp)
      rw [List.cons_append] at ih
      rw [List.cons_append, List.cons_append, joinLines_cons_cons, joinLines_cons_cons, ih, List.append_assoc,
        List.cons_append]

theorem joinLines_concat {ls : List Line} (hne : ls ≠ []) (line : Line) :
    joinLines (ls ++ [line]) = joinLines ls ++ '\n' :: line :=
  joinLines_append hne (by simp)

theorem infix_append_newline_iff {piece : List Char} (hn : '\n' ∉ piece) (a s : List Char) :
    piece <:+: a ++ '\n' :: s ↔ piece <:+: a ∨ piece <:+: s := by
  rw [List.infix_append_iff]
  constructor
  · rintro (h | h | ⟨l₁, l₂, rfl, h₁, h₂⟩)
    · exact .inl h
    · rcases List.infix_cons_iff.mp h with h | h
      · cases piece with
        | nil => exact .inr List.nil_infix
        | cons c piece => exact absurd (List.cons_prefix_cons.mp h).1.symm (by simp_all)
      · exact .inr h
    · cases l₂ with
      | nil =>
        rw [List.append_nil]
        exact .inl h₁.isInfix
      | cons c l₂ => exact absurd (List.cons_prefix_cons.mp h₂).1.symm (by simp_all)
  · rintro (h | h)
    · exact .inl h
    · exact .inr (.inl (h.trans (List.suffix_cons _ _).isInfix))

theorem infix_joinLines_iff {piece : List Char} (hn : '\n' ∉ piece) (hp : piece ≠ []) (ls : List Line) :
    piece <:+: joinLines ls ↔ ∃ line ∈ ls, piece <:+: line := by
  induction ls with
  | nil => simp [joinLines, hp]
  | cons a ls ih =>
    cases ls with
    | nil => simp [joinLines]
    | cons b ls =>
      rw [joinLines_cons_cons, infix_append_newline_iff hn, ih]
      simp

theorem exists_joinLines_cons (below : List Line) :
    ∃ rest, ∀ line, joinLines (line :: below) = line ++ rest := by
  cases below with
  | nil => exact ⟨[], fun line => (List.append_nil line).symm⟩
  | cons next below => exact ⟨'\n' :: joinLines (next :: below), fun line => rfl⟩

theorem exists_joinLines_concat (above : List Line) :
    ∃ text, ∀ line, joinLines (above ++ [line]) = text ++ line := by
  by_cases h : above = []
  · exact ⟨[], fun line => by rw [h]; rfl⟩
  · exact ⟨joinLines above ++ ['\n'], fun line => by simp [joinLines_concat h]⟩

theorem joinLines_extendFirst (c : Char) (ls : List Line) : joinLines (extendFirst c ls) = c :: joinLines ls := by
  cases ls with
  | nil => rfl
  | cons line ls => cases ls <;> rfl

/-- Lines of which some are left out and the others cut make a text with characters taken away. -/
theorem joinLines_sublist {ls ls' : List Line} (h : List.SublistForall₂ List.Sublist ls ls') :
    (joinLines ls).Sublist (joinLines ls') := by
  induction h with
  | nil => exact List.nil_sublist _
  | @cons line line' ls ls' hline hrest ih =>
    cases ls with
    | nil =>
      obtain ⟨rest, hjoin⟩ := exists_joinLines_cons ls'
      rw [hjoin]
      exact hline.trans (List.sublist_append_left _ _)
    | cons =>
      cases ls' with
      | nil => cases hrest
      | cons => exact hline.append (ih.cons_cons _)
  | @cons_right line ls ls' hrest ih =>
    cases ls' with
    | nil =>
      cases hrest
      exact List.nil_sublist _
    | cons => exact (ih.cons _).trans (List.sublist_append_right _ _)

/-- The lines put together again lack at most carriage returns and the last line feed. -/
theorem joinLines_lines_sublist (s : List Char) : (joinLines (lines s)).Sublist s := by
  have hcons (rest : List Char) : (joinLines ([] :: lines rest)).Sublist ('\n' :: joinLines (lines rest)) := by
    cases lines rest with
    | nil => exact List.nil_sublist _
    | cons => exact List.Sublist.refl _
  fun_induction lines s with
  | case1 => exact List.nil_sublist _
  | case2 rest ih => exact (hcons rest).trans (ih.cons_cons _)
  | case3 rest ih => exact (hcons rest).trans ((ih.cons_cons _).cons _)
  | case4 c rest _ _ ih =>
    rw [joinLines_extendFirst]
    exact ih.cons_cons _

/-- Lines that are read back from their text, which ends in a line feed or not: all are plain, and
the text tells whether the last of them is empty. -/
structure ReadBack (newline : Bool) (ls : List Line) : Prop where
  plain : ∀ line ∈ ls, Plain line
  ne_nil : newline = true → ls ≠ []
  last : newline = false → ls.getLast? ≠ some []

def terminated (newline : Bool) (ls : List Line) : List Char :=
  joinLines ls ++ if newline then ['\n'] else []

theorem terminated_cons_cons (newline : Bool) (a b : Line) (ls : List Line) :
    terminated newline (a :: b :: ls) = a ++ '\n' :: terminated newline (b :: ls) := by
  simp [terminated, joinLines_cons_cons]

theorem terminated_append (newline : Bool) {ls ls' : List Line} (h : ls ≠ []) (h' : ls' ≠ []) :
    terminated newline (ls ++ ls') = terminated true ls ++ terminated newline ls' := by
  simp [terminated, joinLines_append h h']

theorem ReadBack.tail {newline : Bool} {a b : Line} {ls : List Line}
    (h : ReadBack newline (a :: b :: ls)) : ReadBack newline (b :: ls) where
  plain := fun line hl => h.plain line (List.mem_cons_of_mem a hl)
  ne_nil := fun _ => by simp
  last := fun hn => by simpa using h.last hn

/-- The text of the lines of a text is read as these lines. -/
theorem lines_terminated {newline : Bool} {ls : List Line} (h : ReadBack newline ls) :
    lines (terminated newline ls) = ls := by
  match ls with
  | [] =>
    cases newline with
    | true => exact absurd rfl (h.ne_nil rfl)
    | false => rfl
  | [line] =>
    have hp := h.plain line (by simp)
    cases newline with
    | true => simpa [terminated, joinLines] using lines_append_newline hp []
    | false =>
      have hne : line ≠ [] := by simpa using h.last rfl
      simpa [terminated, joinLines] using lines_of_ne_nil hp.1 hne
  | a :: b :: ls =>
    rw [terminated_cons_cons, lines_append_newline (h.plain a (by simp)), lines_terminated h.tail]

theorem endsInNewline_terminated {newline : Bool} {ls : List Line} (h : ReadBack newline ls) :
    endsInNewline (terminated newline ls) = newline := by
  cases newline with
  | true => simp [terminated, endsInNewline]
  | false =>
    match ls with
    | [] => rfl
    | [line] =>
      have hp := h.plain line (by simp)
      have : line.getLast? ≠ some '\n' := fun hl => hp.1 (List.mem_of_getLast? hl)
      simpa [terminated, joinLines, endsInNewline] using this
    | a :: b :: ls =>
      have ih := endsInNewline_terminated h.tail
      have hne : terminated false (b :: ls) ≠ [] := by
        intro he
        have hl := lines_terminated h.tail
        rw [he] at hl
        simp at hl
      rw [terminated_cons_cons]
      simpa [endsInNewline, List.getLast?_append, List.getLast?_cons_of_ne_nil hne, hne] using ih

/-- Of a text, the lines are read back if none of them ends in a carriage return. -/
theorem readBack_lines {s : List Char} (h : ∀ line ∈ lines s, line.getLast? ≠ some '\r') :
    ReadBack (endsInNewline s) (lines s) where
  plain := fun line hl => ⟨not_mem_of_mem_lines hl, h line hl⟩
  ne_nil := by
    intro hn he
    rw [lines_eq_nil_iff] at he
    simp [he, endsInNewline] at hn
  last := getLast?_lines

end DocComments.Text
