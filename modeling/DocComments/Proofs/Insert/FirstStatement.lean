import DocComments.Proofs.Header.Captured
import DocComments.Proofs.Insert.RoundTrip

/-! Where a written docstring stands among the statements of its definition. It goes below the header
line, so that it is the first statement unless the header line has one behind its colon. -/
namespace DocComments
open Text Doc DocComments.Insert

namespace Header
open Parameters

/-- What is accepted behind a closing parenthesis stands behind one. -/
theorem exists_of_closeLast? {α : Type} {accept : List Char → Option α} {s : List Char} {a : α}
    (h : closeLast? accept s = some a) : ∃ rest, rest <:+ s ∧ accept rest = some a := by
  induction s with
  | nil => simp [closeLast?] at h
  | cons c s ih =>
    rw [closeLast?] at h
    split at h
    · rename_i hlater
      obtain ⟨rest, hs, ha⟩ := ih (hlater.trans h)
      exact ⟨rest, hs.trans (List.suffix_cons c s), ha⟩
    · split at h
      · exact ⟨s, List.suffix_cons c s, h⟩
      · simp at h

private theorem stop_suffix_of_upTo? {stop : Char} {s text rest : List Char}
    (h : upTo? stop s = some (text, rest)) : stop :: rest <:+ s := by
  rw [upTo?] at h
  split at h
  · rename_i c before d below ht hd
    obtain ⟨-, rfl⟩ := Prod.mk.inj (Option.some.inj h)
    have hstop : d = stop := by
      have hne : s.dropWhile (· != stop) ≠ [] := by simp [hd]
      have hnot := List.head_dropWhile_not (· != stop) hne
      simpa [hd] using hnot
    rw [← hstop, ← hd]
    exact List.dropWhile_suffix _
  · simp at h

namespace Python
variable {line s tail : List Char} {c : Captures}

private theorem colon_suffix_of_functionEnd? {type : Option (List Char)}
    (h : functionEnd? s = some (type, tail)) : ':' :: tail <:+ s := by
  have hs : trimStart s <:+ s := List.dropWhile_suffix isBlank
  rw [functionEnd?] at h
  split at h
  · rename_i rest ht
    obtain ⟨-, rfl⟩ := Prod.mk.inj (Option.some.inj h)
    exact ht ▸ hs
  · rename_i rest ht
    obtain ⟨⟨text, below⟩, hu, he⟩ := Option.map_eq_some_iff.mp h
    obtain ⟨-, rfl⟩ := Prod.mk.inj he
    have harrow : rest <:+ trimStart s := ht ▸ List.suffix_append ['-', '>'] rest
    exact (stop_suffix_of_upTo? hu).trans (harrow.trans hs)
  · simp at h

private theorem colon_suffix_of_classEnd? (h : classEnd? s = some tail) : ':' :: tail <:+ s := by
  rw [classEnd?] at h
  split at h
  · rename_i rest ht
    obtain rfl := Option.some.inj h
    exact ht ▸ List.dropWhile_suffix isBlank
  · simp at h

private theorem colon_suffix_of_function? (h : function? line = some c) :
    ':' :: c.tail <:+ line := by
  simp only [function?, Option.bind_eq_bind, Option.bind_eq_some_iff] at h
  obtain ⟨afterWord, hw, ⟨name, afterName⟩, hn, afterOpen, ho, ⟨parameters, type, tail⟩, hc, he⟩ := h
  obtain rfl := Option.some.inj he
  obtain ⟨-, rest, hrest, hend⟩ := exists_of_close? hc
  have hname : afterName <:+ afterWord := ⟨name, (name?_eq_some hn).1.symm⟩
  have hword : afterWord <:+ line := (suffix_of_keyword? hw).trans
    ((skipAsync_suffix _).trans (List.dropWhile_suffix _))
  exact (colon_suffix_of_functionEnd? hend).trans
    (hrest.trans ((suffix_of_open? ho).trans (hname.trans hword)))

private theorem colon_suffix_of_class? (h : class? line = some c) :
    ':' :: c.tail <:+ line := by
  simp only [class?, Option.bind_eq_bind, Option.bind_eq_some_iff] at h
  obtain ⟨afterWord, hw, ⟨name, afterName⟩, hn, h⟩ := h
  have hword : afterWord <:+ line := (suffix_of_keyword? hw).trans (List.dropWhile_suffix _)
  have hname : afterName <:+ line := List.IsSuffix.trans ⟨name, (name?_eq_some hn).1.symm⟩ hword
  split at h
  · rename_i bases ho
    obtain ⟨tail, hc, he⟩ := Option.bind_eq_some_iff.mp h
    obtain rfl := Option.some.inj he
    obtain ⟨rest, hrest, hend⟩ := exists_of_closeLast? hc
    exact (colon_suffix_of_classEnd? hend).trans (hrest.trans ((suffix_of_open? ho).trans hname))
  · obtain ⟨tail, hend, he⟩ := Option.bind_eq_some_iff.mp h
    obtain rfl := Option.some.inj he
    exact (colon_suffix_of_classEnd? hend).trans hname

/-- The tail of a header is the text behind the colon that ends it. -/
theorem colon_suffix_of_header? {number : Nat} {head : Header} (h : header? number line = .ok (some head)) :
    ':' :: head.tail <:+ line := by
  obtain ⟨c, hmade, ⟨hf, -⟩ | ⟨hf, -⟩⟩ := madeOf_of_header? h
  · exact hmade.tail ▸ colon_suffix_of_function? hf
  · exact hmade.tail ▸ colon_suffix_of_class? hf

end Python
end Header

namespace Part
variable {docs : DocMap}

/-- How many lines below its header the first statement of a Python definition begins. It is on the
header line if the text behind the colon is neither blank nor a comment. -/
def firstStatement (p : Part) : Nat :=
  ((p.head.tail :: p.body).takeWhile Docstring.isSkipped).length

private theorem firstStatement_eq {p : Part} {skipped after : List Line} {line : Line}
    (hbody : p.body = skipped ++ line :: after) (hs : ∀ line ∈ skipped, Docstring.isSkipped line)
    (hline : Docstring.isSkipped line = false) :
    p.firstStatement = if Docstring.isSkipped p.head.tail then skipped.length + 1 else 0 := by
  have hrun : (line :: after).takeWhile Docstring.isSkipped = [] :=
    List.takeWhile_cons_of_neg (by simp [hline])
  rw [firstStatement, List.takeWhile_cons, hbody, List.takeWhile_append_of_pos hs, hrun,
    List.append_nil]
  split <;> rfl

/-- A docstring goes below the header line, behind nothing but blank lines and comments. -/
theorem exists_body_document {p : Part} {block : List Line} (h : p.block? .python docs = some block) :
    ∃ skipped after, (p.document .python docs).body = skipped ++ (block ++ after) ∧
      ∀ line ∈ skipped, Docstring.isSkipped line := by
  obtain ⟨skipped, after, happly, -, hs, -⟩ := exists_regionEdit_apply .python p.body block
  exact ⟨skipped, after, by rw [document_of_some h]; exact happly, hs rfl⟩

/-- What documenting does to a Python definition. Its header line stays, and the text behind the colon
that ends the header plays no part. -/
structure DocumentedBelow (docs : DocMap) (p : Part) : Prop where
  header : (grammarOf .python).Reads p.header (some p.head)
  colon : ':' :: p.head.tail <:+ p.header
  /-- Without a text, nothing is written. -/
  unchanged : hasText docs (p.definition (grammarOf .python) 0) = false → p.document .python docs = p
  /-- With a text, a docstring is written below the header line, with nothing but blank lines and
  comments between. It is the first statement unless one stands behind the colon. -/
  written : ∀ text, docs (String.ofList p.head.name) = some text → normalLines text.toList ≠ [] →
    ∃ skipped after,
      (p.document .python docs).lines = p.gap ++ p.header ::
        (skipped ++ (blockFor .python p.header (normalLines text.toList) ++ after)) ∧
      (∀ line ∈ skipped, Docstring.isSkipped line) ∧
      (p.document .python docs).firstStatement =
        if Docstring.isSkipped p.head.tail then skipped.length + 1 else 0

/-- The first line of a docstring block is a statement. -/
private theorem exists_blockFor_eq_cons (header : Line) (doc : List Line) :
    ∃ line rest, blockFor .python header doc = line :: rest ∧ Docstring.isSkipped line = false := by
  have hi : ∀ c ∈ blockIndent .python header, isIndent c := fun c hc => isIndent_of_mem_blockIndent hc
  exact ⟨_, _, rfl, isSkipped_quotes hi⟩

theorem documentedBelow {p : Part} (h : (grammarOf .python).Reads p.header (some p.head)) :
    p.DocumentedBelow docs where
  header := h
  colon := Header.Python.colon_suffix_of_header? (h 0)
  unchanged := by
    intro hno
    rw [← isSome_edit? .python docs p 0] at hno
    exact document_of_edit?_eq_none (by simpa using hno)
  written := by
    intro text ht hne
    obtain ⟨skipped, after, hbody, hs⟩ := exists_body_document (block?_of_text ht hne)
    obtain ⟨line, rest, hblock, hline⟩ := exists_blockFor_eq_cons p.header (normalLines text.toList)
    refine ⟨skipped, after, ?_, hs, ?_⟩
    · rw [lines, document_gap, document_header, hbody]
    · rw [hblock] at hbody
      have hfirst := firstStatement_eq hbody hs hline
      rwa [document_head] at hfirst

end Part

/-- Every definition that has a text is given its docstring, whatever stands on its header line. The
docstring goes below that line, and so it is the first statement of the definition exactly if the text
behind the colon of the header is blank or a comment. -/
theorem docstring_first_iff (docs : DocMap) (source : String) :
    ∃ o : Outline (grammarOf .python), o.lines = linesOf source ∧
      extract .python source = Part.definitions (grammarOf .python) 0 o.parts ∧
      (document .python docs source).content =
        String.ofList (terminated (endsInNewline source.toList) (o.document docs).lines) ∧
      (document .python docs source).updated =
        o.parts.countP (fun p => hasText docs (p.definition (grammarOf .python) 0)) ∧
      ∀ p ∈ o.parts, p.DocumentedBelow docs := by
  obtain ⟨o, ho⟩ := Outline.exists_lines_eq (grammarOf_local .python) (linesOf source)
  refine ⟨o, ho, o.extract_eq ho, Outline.content_document docs ho, ?_, fun p hp => ?_⟩
  · rw [Outline.updated_document docs ho]
    simp only [isSome_edit? .python docs _ 0]
  · exact Part.documentedBelow (Part.reads_of_mem o.stacked hp)

/-- A definition on one line is complete where its docstring begins. -/
theorem docstring_below_statement :
    document .python (fun _ => some "New.") "def f(): return 1\n" =
        { content := "def f(): return 1\n    \"\"\"\n    New.\n    \"\"\"\n", updated := 1 } ∧
      (∃ head, Header.Python.header? 1 "def f(): return 1".toList = .ok (some head) ∧
        head.tail = " return 1".toList) ∧
      Docstring.isSkipped " return 1".toList = false :=
  ⟨by decide +kernel, ⟨_, rfl, by decide⟩, by decide⟩

end DocComments
