import DocComments.Proofs.Header.Signature

/-! `def` lines read back. A function whose first line is written out is extracted as it was written,
whatever stands behind the colon and on the lines below. -/
namespace DocComments
open Text

namespace Header.Python
open Parameters
variable {f : Signature}

/-- The first line of a function up to the colon that ends its header. -/
def defLine (f : Signature) : List Char :=
  f.indent ++ written f.isAsync asyncWord ++ ['d', 'e', 'f', ' '] ++ f.name ++
    f.behindName [' ', '-', '>'] [':']

private theorem functionEnd?_eq_none {s : List Char}
    (h : ∀ mark ∈ continuations .python, ¬ mark <+: trimStart s) : functionEnd? s = none := by
  have hcolon := h [':'] (by simp [continuations])
  have harrow := h ['-', '>'] (by simp [continuations])
  rw [functionEnd?]
  split
  · rename_i rest ht
    exact absurd (ht ▸ List.prefix_append [':'] rest) hcolon
  · rename_i rest ht
    exact absurd (ht ▸ List.prefix_append ['-', '>'] rest) harrow
  · rfl

private theorem functionEnd?_arrow (s : List Char) :
    functionEnd? (' ' :: '-' :: '>' :: s) =
      (upTo? ':' s).map fun found => (content? found.1, found.2) := rfl

private theorem functionEnd?_returns (h : f.WellFormed .python) (tail : List Char) :
    functionEnd? (returns [' ', '-', '>'] f.returnType ++ ':' :: tail) = some (f.returnType, tail) := by
  cases hr : f.returnType with
  | none => rfl
  | some type =>
    have hcolon : ':' ∈ stops .python := by simp [stops]
    obtain ⟨hup, htype⟩ := h.upTo?_type hr hcolon [] rfl tail
    have hcut : returns [' ', '-', '>'] (some type) ++ ':' :: tail =
        ' ' :: '-' :: '>' :: (' ' :: type ++ ([] ++ ':' :: tail)) := by simp [returns]
    rw [hcut, functionEnd?_arrow, hup, Option.map_some, htype]

/-- A written `def` line is read as it was written. -/
theorem header?_defLine (h : f.WellFormed .python) (tail : List Char) (number : Nat) :
    header? number (defLine f ++ tail) =
      .ok (some (f.header (if f.indent.isEmpty then .function else .method) tail)) := by
  have hline : defLine f ++ tail = f.indent ++ (written f.isAsync asyncWord ++
      (['d', 'e', 'f'] ++ ' ' :: (f.name ++ (f.behindName [' ', '-', '>'] [':'] ++ tail)))) := by
    simp [defLine]
  have hafter : afterIndent (defLine f ++ tail) = written f.isAsync asyncWord ++
      (['d', 'e', 'f'] ++ ' ' :: (f.name ++ (f.behindName [' ', '-', '>'] [':'] ++ tail))) := by
    rw [hline, afterIndent_append h.isIndent]
    cases f.isAsync <;> rfl
  have hindent : indentation (defLine f ++ tail) = f.indent := by
    rw [hline, indentation_append h.isIndent]
    cases f.isAsync <;> exact List.append_nil _
  have hclose := close?_append (by simp [continuations]) (fun _ => functionEnd?_eq_none) h.closed
    (functionEnd?_returns h tail)
  have hfunction : function? (defLine f ++ tail) = some (f.captures (some f.indent) tail) := by
    rw [function?, hafter, skipAsync_written rfl rfl]
    refine Option.bind_eq_some_iff.mpr ⟨_, keyword?_append _ _, ?_⟩
    rw [trimStart_name h.isName]
    refine Option.bind_eq_some_iff.mpr ⟨_, h.name?_behindName _ _ _, ?_⟩
    rw [Signature.behindName_append]
    refine Option.bind_eq_some_iff.mpr ⟨_, rfl, ?_⟩
    refine Option.bind_eq_some_iff.mpr ⟨_, hclose, ?_⟩
    rw [hindent]
    rfl
  rw [header?, hfunction]
  rfl

private theorem plain_defLine (h : f.WellFormed .python) : Plain (defLine f) := by
  have hbehind : Plain (f.behindName [' ', '-', '>'] [':']) :=
    h.plain_behindName (by decide) (by decide) (by simp)
  have hasync : '\n' ∉ written f.isAsync asyncWord := newline_not_mem_written (by decide) _
  refine hbehind.append (by simp [Signature.behindName]) ?_
  simp [h.newline_not_mem_indent, hasync, h.newline_not_mem_name]

end Header.Python

/-- The first definition of a source that begins with a `def` line is the function on that line: its
name, its parameters without the receiver and its return type are those that are written there, and it
is a method if the line is indented. -/
theorem extract_defLine {f : Header.Signature} (h : f.WellFormed .python) (below : List Char) :
    ∃ d rest, extract .python (String.ofList (Header.Python.defLine f ++ below)) = d :: rest ∧
      d.startLine = 1 ∧ d.name = String.ofList f.name ∧
      d.kind = (if f.indent.isEmpty then .function else .method) ∧ d.isAsync = f.isAsync ∧
      d.returnType = f.returnType.map String.ofList ∧
      d.parameters = Parameters.withoutReceiver (Parameters.parse .python f.parameters) := by
  have hne : Header.Python.defLine f ≠ [] := by simp [Header.Python.defLine]
  obtain ⟨tail, others, hl⟩ := exists_lines_append (Header.Python.plain_defLine h) hne below
  have hhead : (grammarOf .python).Reads (Header.Python.defLine f ++ tail) (some _) :=
    Header.Python.header?_defLine h tail
  exact exists_extract_eq_cons hl hhead

/-- A default value that is a call, a return type in brackets, and a statement behind the colon. -/
theorem extract_defLine_call :
    ∃ d rest, extract .python "  async def f(self, a=g(), b=2) -> List[int]: pass\nx = 1\n" = d :: rest ∧
      d.startLine = 1 ∧ d.name = "f" ∧ d.kind = .method ∧ d.isAsync = true ∧
      d.returnType = some "List[int]" ∧
      d.parameters = [{ name := "a", default := some "g()" }, { name := "b", default := some "2" }] := by
  have hphrase : Phrase "List[int]".toList :=
    phrase_of_not_blank (by decide) (noBlank_iff.mp (by decide))
  have h : Header.Signature.WellFormed .python
      { indent := [' ', ' '], isAsync := true, name := ['f'], parameters := "self, a=g(), b=2".toList,
        returnType := some "List[int]".toList } := {
    isIndent := by simp [isIndent]
    isName := ⟨'f', [], rfl, rfl, by simp⟩
    oneLine := by decide
    closed := by decide
    returnType := by
      rintro type ⟨⟩
      exact ⟨hphrase, by simp [Header.stops]⟩ }
  obtain ⟨d, rest, hd, hline, hname, hkind, hasync, htype, hparameters⟩ :=
    extract_defLine h " pass\nx = 1\n".toList
  refine ⟨d, rest, ?_, hline, hname, hkind, hasync, htype, ?_⟩
  · rw [← hd]
    rfl
  · rw [hparameters]
    decide +kernel

end DocComments
