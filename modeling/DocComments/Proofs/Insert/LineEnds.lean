import DocComments.Proofs.Insert.Untouched
import Mathlib.Data.List.Infix

/-! Line ends. A source is extracted from and documented line by line, and its lines do not tell which of
its line feeds have a carriage return in front. -/
namespace DocComments
open Text DocComments.Insert

namespace Text

/-- Carriage returns that all stand in front of line feeds show neither in the lines nor at the end of the
text. -/
theorem lines_bare {s : List Char} (h : '\r' ∉ replaceAll ['\r', '\n'] ['\n'] s) :
    lines (replaceAll ['\r', '\n'] ['\n'] s) = lines s ∧
      endsInNewline (replaceAll ['\r', '\n'] ['\n'] s) = endsInNewline s := by
  rw [← terminated_lines] at h ⊢
  have hlast : ∀ line ∈ lines s, line.getLast? ≠ some '\r' := by
    intro line hl hreturn
    have hinfix : ['\r'] <:+: joinLines (lines s) :=
      (infix_joinLines_iff (by decide) (by decide) _).mpr
        ⟨line, hl, (List.singleton_infix_iff _ _).mpr (List.mem_of_getLast? hreturn)⟩
    exact h (List.mem_append_left _ ((List.singleton_infix_iff _ _).mp hinfix))
  have hread := readBack_lines hlast
  exact ⟨lines_terminated hread, endsInNewline_terminated hread⟩

/-- The text with every line feed written as a carriage return and a line feed. -/
def withReturns (s : List Char) : List Char :=
  replaceAll ['\n'] ['\r', '\n'] s

private theorem withReturns_newline (rest : List Char) :
    withReturns ('\n' :: rest) = '\r' :: '\n' :: withReturns rest :=
  replaceAll_append ['\n'] ['\r', '\n'] (by decide) rest

private theorem withReturns_cons {c : Char} (hc : c ≠ '\n') (rest : List Char) :
    withReturns (c :: rest) = c :: withReturns rest :=
  replaceAll_cons fun hpre => hc (List.cons_prefix_cons.mp hpre).1.symm

private theorem head?_withReturns (s : List Char) : (withReturns s).head? ≠ some '\n' := by
  cases s with
  | nil => exact nofun
  | cons c rest =>
    by_cases hc : c = '\n'
    · rw [hc, withReturns_newline]
      simp
    · rw [withReturns_cons hc]
      simpa using hc

/-- The carriage returns that were written are taken off again, and no others. -/
theorem bare_withReturns (s : List Char) : replaceAll ['\r', '\n'] ['\n'] (withReturns s) = s := by
  induction s with
  | nil => rfl
  | cons c rest ih =>
    by_cases hc : c = '\n'
    · have hpiece := replaceAll_append ['\r', '\n'] ['\n'] (by decide) (withReturns rest)
      rw [ih] at hpiece
      rw [hc, withReturns_newline]
      exact hpiece
    · have hno : ¬ ['\r', '\n'] <+: c :: withReturns rest := by
        intro hpre
        obtain ⟨below, hbelow⟩ := (List.cons_prefix_cons.mp hpre).2
        exact head?_withReturns rest (by rw [← hbelow]; rfl)
      rw [withReturns_cons hc, replaceAll_cons hno, ih]

end Text

/-- Sources that differ at their line ends only, however mixed these are in one of them, hold the same
definitions and are documented alike. -/
theorem document_of_bare {source other : String} (hs : '\r' ∉ source.toList)
    (hother : replaceAll ['\r', '\n'] ['\n'] other.toList = source.toList) (language : Language) :
    extract language other = extract language source ∧
      ∀ docs, document language docs other = document language docs source := by
  obtain ⟨hlines, hends⟩ := lines_bare (s := other.toList) (by rwa [hother])
  rw [hother] at hlines hends
  have hextract : extract language other = extract language source := by
    rw [extract, extract, extractWith, extractWith, linesOf, linesOf, hlines]
  refine ⟨hextract, fun docs => ?_⟩
  simp only [document, textOf, linesOf, hextract, hlines, hends]

/-- A source without carriage returns holds the same definitions and is documented alike when each of its
line feeds gets one in front. -/
theorem document_withReturns {source : String} (h : '\r' ∉ source.toList) (language : Language) :
    extract language (String.ofList (withReturns source.toList)) = extract language source ∧
      ∀ docs, document language docs (String.ofList (withReturns source.toList)) =
        document language docs source := by
  apply document_of_bare h
  rw [String.toList_ofList, bare_withReturns]

/-- Blank lines, a line feed in front of the first line and none behind the last. -/
theorem document_withReturns_blank_lines :
    let source := "\n\ndef f():\n\n    return 1\n\n\n    # end"
    let docs : DocMap := fun _ => some "A.\r\n\nB."
    '\r' ∉ source.toList ∧
      String.ofList (withReturns source.toList) =
        "\r\n\r\ndef f():\r\n\r\n    return 1\r\n\r\n\r\n    # end" ∧
      extract .python (String.ofList (withReturns source.toList)) = extract .python source ∧
      document .python docs (String.ofList (withReturns source.toList)) = document .python docs source := by
  intro source docs
  have hreturn : '\r' ∉ source.toList := by decide
  obtain ⟨hextract, hdocument⟩ := document_withReturns hreturn .python
  exact ⟨hreturn, by decide, hextract, hdocument docs⟩

end DocComments
