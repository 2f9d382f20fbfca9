import DocComments.Proofs.Text.Blank
import DocComments.Text.Case

/-! Blanks and letters. No blank is part of a word, and none is the upper or the lower case of any
other character. -/
namespace DocComments.Text

def blanks : List Char := [
  '\t', '\n', '\u000b', '\u000c', '\r', ' ', '\u0085', '\u00a0', '\u1680', '\u2000', '\u2001', '\u2002',
  '\u2003', '\u2004', '\u2005', '\u2006', '\u2007', '\u2008', '\u2009', '\u200a', '\u2028', '\u2029',
  '\u202f', '\u205f', '\u3000']

private theorem mem_blanks_of_isBlank {c : Char} (h : isBlank c) : c ∈ blanks := by
  have hcode : c.toNat ∈ blanks.map Char.toNat := by
    simp only [isBlank, Bool.or_eq_true, Bool.and_eq_true, decide_eq_true_eq, beq_iff_eq, Char.le_def,
      UInt32.le_iff_toNat_le, Char.toNat_val, ← Char.toNat_inj] at h
    simp only [blanks, List.map_cons, List.map_nil, List.mem_cons, List.not_mem_nil, or_false]
    simp only [Char.reduceToNat] at h ⊢
    omega
  obtain ⟨blank, hb, he⟩ := List.mem_map.mp hcode
  exact Char.toNat_inj.mp he ▸ hb

/-- What holds of the characters listed holds of every blank. -/
theorem of_isBlank {p : Char → Bool} (h : blanks.all p) {c : Char} (hc : isBlank c) : p c :=
  List.all_eq_true.mp h c (mem_blanks_of_isBlank hc)

theorem isWord_of_isBlank {c : Char} (h : isBlank c) : isWord c = false := by
  have hnone : blanks.all (!isWord ·) := by decide +kernel
  simpa using of_isBlank hnone h

/-- Whether none of the images of a run `(first, last, step, image)` is a blank. -/
def missesBlanks (run : Nat × Nat × Nat × Nat) : Bool :=
  blanks.all fun blank =>
    blank.toNat < run.2.2.2 || run.2.2.2 + (run.2.1 - run.1) < blank.toNat

private theorem toNat_ofNat (n : Nat) : (Char.ofNat n).toNat = n ∨ (Char.ofNat n).toNat = 0 := by
  rw [Char.ofNat]
  by_cases hn : n.isValidChar
  · rw [dif_pos hn]
    exact .inl (BitVec.toNat_ofNatLT ..)
  · rw [dif_neg hn]
    exact .inr rfl

private theorem isBlank_ofNat_imageOnRun? {runs : List (Nat × Nat × Nat × Nat)} (hr : runs.all missesBlanks)
    {n image : Nat} (hi : imageOnRun? runs n = some image) : isBlank (Char.ofNat image) = false := by
  obtain ⟨⟨first, last, step, start⟩, hf, rfl⟩ := Option.map_eq_some_iff.mp hi
  have hon := List.find?_some hf
  simp only [Bool.and_eq_true, decide_eq_true_eq] at hon
  have hmiss := List.all_eq_true.mp hr _ (List.mem_of_find?_eq_some hf)
  by_contra hb
  have hblank : isBlank (Char.ofNat (start + (n - first))) := by simpa using hb
  have hout := of_isBlank hmiss hblank
  simp only [Bool.or_eq_true, decide_eq_true_eq] at hout
  have hpos : blanks.all (·.toNat != 0) := by decide
  have hcode := of_isBlank hpos hblank
  rcases toNat_ofNat (start + (n - first)) with he | he
  · omega
  · simp [he] at hcode

def noBlank (s : List Char) : Bool :=
  s.all (!isBlank ·)

theorem noBlank_iff {s : List Char} : noBlank s ↔ ∀ c ∈ s, isBlank c = false := by
  simp [noBlank]

private theorem noBlank_image {runs : List (Nat × Nat × Nat × Nat)} (hr : runs.all missesBlanks)
    {c : Char} (hc : isBlank c = false) :
    noBlank [Char.ofNat ((imageOnRun? runs c.toNat).getD c.toNat)] := by
  rw [noBlank_iff, List.forall_mem_singleton]
  cases hi : imageOnRun? runs c.toNat with
  | none => rwa [Option.getD_none, Char.ofNat_toNat]
  | some image => exact isBlank_ofNat_imageOnRun? hr hi

theorem ascii_induction {p : Char → Bool} (h : ∀ n < 0x80, p (Char.ofNat n)) {c : Char}
    (hc : c.toNat < 0x80) : p c :=
  Char.ofNat_toNat c ▸ h c.toNat hc

theorem noBlank_lowerLetter {c : Char} (hc : isBlank c = false) : noBlank (lowerLetter c) := by
  by_cases hascii : c.toNat < 0x80
  · have hall : isBlank c || noBlank (lowerLetter c) :=
      ascii_induction (p := fun c => isBlank c || noBlank (lowerLetter c)) (by decide +kernel) hascii
    simpa [hc] using hall
  · have hruns : lowerMapRuns.all missesBlanks := by decide +kernel
    rw [lowerLetter, if_neg hascii]
    split
    · decide
    · exact noBlank_image hruns hc

theorem upperLetter_ne_nil (c : Char) : upperLetter c ≠ [] := by
  rw [upperLetter]
  split
  · simp
  · split
    · rename_i images hl
      have hsome : ∀ entry ∈ upperSequences, entry.2.map Char.ofNat ≠ [] := by decide +kernel
      obtain ⟨above, below, he, -⟩ := List.lookup_eq_some_iff.mp hl
      exact hsome (c.toNat, images) (by simp [he])
    · simp

theorem noBlank_upperLetter {c : Char} (hc : isBlank c = false) : noBlank (upperLetter c) := by
  by_cases hascii : c.toNat < 0x80
  · have hall : isBlank c || noBlank (upperLetter c) :=
      ascii_induction (p := fun c => isBlank c || noBlank (upperLetter c)) (by decide +kernel) hascii
    simpa [hc] using hall
  · have hruns : upperMapRuns.all missesBlanks := by decide +kernel
    have hsequences : ∀ entry ∈ upperSequences, noBlank (entry.2.map Char.ofNat) := by decide +kernel
    rw [upperLetter, if_neg hascii]
    split
    · rename_i images hl
      obtain ⟨above, below, he, -⟩ := List.lookup_eq_some_iff.mp hl
      exact hsequences (c.toNat, images) (by simp [he])
    · exact noBlank_image hruns hc

end DocComments.Text
