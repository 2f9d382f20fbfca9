import DocComments.Language
import DocComments.Doc
import Mathlib.Data.List.TakeWhile

/-! Where documentation is found. The locators look at nothing but the lines between which a language
puts documentation: a docstring is found in the body and a JSDoc comment in the lines above the
header, wherever these lines stand in the file. -/
namespace DocComments.Doc
open Text

/-- The same block below `n` further lines. -/
def Block.shift (n : Nat) (block : Block) : Block :=
  { block with first := n + block.first, last := n + block.last }

def Block.lines (block : Block) (file : List Line) : List Line :=
  (file.take (block.last + 1)).drop block.first

namespace Docstring

/-- The docstring at the head of a body, the lines of which are counted from zero. -/
def inBody? (body : List Line) : Option Block :=
  atHead? (body.takeWhile isSkipped).length (body.dropWhile isSkipped)

private theorem atHead?_add (n number : Nat) (lines : List Line) :
    atHead? (n + number) lines = (atHead? number lines).map (Block.shift n) := by
  cases lines with
  | nil => rfl
  | cons line rest =>
    rw [atHead?, atHead?]
    cases opening? line with
    | none => rfl
    | some opened =>
      obtain ⟨delimiter, after⟩ := opened
      simp only
      cases splitAt? delimiter after with
      | some inside => rfl
      | none =>
        cases closing? delimiter rest with
        | none => rfl
        | some closed => simp [Block.shift, Nat.add_assoc]

private theorem closing?_length_lt {delimiter before : List Char} {lines between : List Line}
    (h : closing? delimiter lines = some (between, before)) : between.length < lines.length := by
  induction lines generalizing between before with
  | nil => simp [closing?] at h
  | cons line lines ih =>
    rw [closing?] at h
    cases hs : splitAt? delimiter line with
    | some found =>
      rw [hs] at h
      obtain ⟨rfl, -⟩ := Prod.mk.inj (Option.some.inj h)
      simp
    | none =>
      rw [hs] at h
      obtain ⟨⟨rest, _⟩, hc, he⟩ := Option.map_eq_some_iff.mp h
      obtain ⟨rfl, -⟩ := Prod.mk.inj he
      have := ih hc
      simp only [List.length_cons]
      omega

/-- The search stops at the first line that the delimiter stands on. -/
theorem closing?_eq_takeWhile {delimiter : List Char} {lines : List Line}
    (h : ∃ line ∈ lines, (splitAt? delimiter line).isSome) :
    ∃ before, closing? delimiter lines =
      some (lines.takeWhile fun line => (splitAt? delimiter line).isNone, before) := by
  induction lines with
  | nil => simp at h
  | cons line lines ih =>
    rw [closing?]
    cases hs : splitAt? delimiter line with
    | some found => exact ⟨found.1, by simp [hs]⟩
    | none =>
      obtain ⟨before, hc⟩ := ih (by simpa [hs] using h)
      exact ⟨before, by simp [hs, hc]⟩

theorem atHead?_bounds {number : Nat} {lines : List Line} {block : Block}
    (h : atHead? number lines = some block) :
    block.first = number ∧ number ≤ block.last ∧ block.last < number + lines.length := by
  cases lines with
  | nil => simp [atHead?] at h
  | cons line rest =>
    rw [atHead?] at h
    cases ho : opening? line with
    | none => simp [ho] at h
    | some opened =>
      obtain ⟨delimiter, after⟩ := opened
      simp only [ho] at h
      cases hs : splitAt? delimiter after with
      | some inside =>
        simp only [hs, Option.some.injEq] at h
        subst h
        simp
      | none =>
        simp only [hs] at h
        obtain ⟨⟨between, before⟩, hc, he⟩ := Option.map_eq_some_iff.mp h
        have := closing?_length_lt hc
        subst he
        simp only [List.length_cons]
        refine ⟨trivial, ?_, ?_⟩ <;> omega

private theorem inBody?_bounds {body : List Line} {block : Block} (h : inBody? body = some block) :
    block.first ≤ block.last ∧ block.last < body.length := by
  obtain ⟨hf, hl, hb⟩ := atHead?_bounds h
  rw [← List.length_append, List.takeWhile_append_dropWhile] at hb
  omega

private theorem bodyStart_of_lt {lines : List Line} {header : Nat} (h : header < lines.length) :
    bodyStart lines header = header + 1 :=
  if_pos h

/-- The docstring of a definition is the one in its body. -/
theorem locate?_part (above body below : List Line) (header : Line) :
    locate? (above ++ header :: (body ++ below)) above.length (above.length + body.length) =
      (inBody? body).map (Block.shift (above.length + 1)) := by
  have hstart : bodyStart (above ++ header :: (body ++ below)) above.length = above.length + 1 :=
    bodyStart_of_lt (by simp)
  have hbody : Docstring.body (above ++ header :: (body ++ below)) (above.length + 1)
      (above.length + body.length) = body := by
    have htake : (above ++ header :: (body ++ below)).take (above.length + body.length + 1) =
        above ++ header :: body := by
      rw [← List.cons_append, ← List.append_assoc, List.take_left']
      simp
      omega
    rw [Docstring.body, htake, List.drop_length_add_append, List.drop_succ_cons, List.drop_zero]
  have hdrop : body.drop (body.takeWhile isSkipped).length = body.dropWhile isSkipped := by
    have hleft : (body.takeWhile isSkipped ++ body.dropWhile isSkipped).drop
        (body.takeWhile isSkipped).length = body.dropWhile isSkipped := List.drop_left
    rwa [List.takeWhile_append_dropWhile] at hleft
  rw [locate?, hstart, hbody, inBody?, ← atHead?_add, hdrop]

end Docstring

namespace Jsdoc

/-- The comment at the end of the lines above a header, which are counted from zero. -/
def inGap? (gap : List Line) : Option Block :=
  locate? gap gap.length 0

private theorem openerAbove?_lt {lines : List Line} {distance : Nat}
    (h : openerAbove? lines = some distance) : distance < lines.length := by
  induction lines generalizing distance with
  | nil => simp [openerAbove?] at h
  | cons line above ih =>
    rw [openerAbove?] at h
    split at h
    · obtain rfl := Option.some.inj h
      simp
    · split at h
      · simp at h
      · obtain ⟨up, hu, rfl⟩ := Option.map_eq_some_iff.mp h
        have := ih hu
        simp only [List.length_cons]
        omega

/-- The comment of a definition is the one at the end of the lines above its header. -/
theorem locate?_part (above gap below : List Line) :
    locate? (above ++ (gap ++ below)) (above.length + gap.length) above.length =
      (inGap? gap).map (Block.shift above.length) := by
  have htake : (above ++ (gap ++ below)).take (above.length + gap.length) = above ++ gap := by
    rw [← List.append_assoc, List.take_left']
    simp
  have habove : Jsdoc.above (above ++ (gap ++ below)) (above.length + gap.length) above.length =
      Jsdoc.above gap gap.length 0 := by
    rw [Jsdoc.above, Jsdoc.above, htake, List.drop_left, List.take_length, List.drop_zero]
  have hle : above.length + gap.length ≤ (above ++ (gap ++ below)).length := by
    simp only [List.length_append]
    omega
  rw [inGap?, locate?, locate?, if_pos hle, if_pos (Nat.le_refl _), habove, htake]
  have hrev : Jsdoc.above gap gap.length 0 = gap := by simp [Jsdoc.above]
  rw [hrev]
  cases hg : gap.reverse with
  | nil => rfl
  | cons line upward =>
    simp only
    split
    · cases ho : openerAbove? (line :: upward) with
      | none => rfl
      | some distance =>
        have hlt : distance < gap.length := by
          have := openerAbove?_lt ho
          rwa [← hg, List.length_reverse] at this
        have hlast : above.length + gap.length - 1 = above.length + (gap.length - 1) := by omega
        have hstart : above.length + (gap.length - 1) - distance =
            above.length + (gap.length - 1 - distance) := by omega
        simp only [Option.map_some, Block.shift, hstart, hlast, List.drop_length_add_append,
          List.take_length]
    · rfl

theorem inGap?_bounds {gap : List Line} {block : Block} (h : inGap? gap = some block) :
    block.first ≤ block.last ∧ block.last + 1 = gap.length := by
  rw [inGap?, locate?, if_pos (Nat.le_refl _)] at h
  cases hg : (Jsdoc.above gap gap.length 0).reverse with
  | nil => simp [hg] at h
  | cons line upward =>
    simp only [hg] at h
    split at h
    · obtain ⟨distance, ho, rfl⟩ := Option.map_eq_some_iff.mp h
      have hlt := openerAbove?_lt ho
      rw [← hg] at hlt
      simp only [Jsdoc.above, List.take_length, List.drop_zero, List.length_reverse] at hlt
      simp only
      omega
    · simp at h

end Jsdoc

/-- The documentation among the lines where the language puts it: the body of a Python definition,
the lines above a JavaScript header. -/
def located? : Language → List Line → Option Block
  | .python, body => Docstring.inBody? body
  | .javaScript, gap => Jsdoc.inGap? gap

theorem located?_bounds {language : Language} {region : List Line} {block : Block}
    (h : located? language region = some block) :
    block.first ≤ block.last ∧ block.last < region.length := by
  cases language with
  | python => exact Docstring.inBody?_bounds h
  | javaScript =>
    obtain ⟨hf, hl⟩ := Jsdoc.inGap?_bounds h
    omega

end DocComments.Doc
