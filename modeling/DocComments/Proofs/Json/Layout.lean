import DocComments.Proofs.Json.Text
import Mathlib.Data.List.DropRight

/-! JSON text in a layout, with blanks before each part or without. A value made of truth values, whole numbers, texts,
arrays and objects comes back from its text as it was, whatever the layout. -/
namespace DocComments.Json
open Text

/-- A value of which each part is a truth value, a whole number, a text, an array or an object. -/
inductive Written : Json → Prop
  | bool (value : Bool) : Written (.bool value)
  | nat (value : Nat) : Written (.nat value)
  | str (text : String) : Written (.str text)
  | arr {items : List Json} (h : ∀ item ∈ items, Written item) : Written (.arr items)
  | obj {members : List (String × Json)} (h : ∀ member ∈ members, Written member.2) : Written (.obj members)

/-- Whether one value is the other or a part of it. -/
inductive Occurs (part : Json) : Json → Prop
  | self : Occurs part part
  | item {items : List Json} {item : Json} (hitem : item ∈ items) (h : Occurs part item) : Occurs part (.arr items)
  | member {members : List (String × Json)} {member : String × Json} (hmember : member ∈ members)
      (h : Occurs part member.2) : Occurs part (.obj members)

private theorem Written.of_occurs {part value : Json} (hpart : Occurs part value) (h : value.Written) :
    part.Written := by
  induction hpart with
  | self => exact h
  | item hitem _ ih =>
    cases h with
    | arr hitems => exact ih (hitems _ hitem)
  | member hmember _ ih =>
    cases h with
    | obj hmembers => exact ih (hmembers _ hmember)

theorem Written.not_occurs_null {value : Json} (h : value.Written) : ¬ Occurs null value := by
  intro hnull
  cases h.of_occurs hnull

theorem Written.strings (texts : List String) : Written (strings texts) := by
  refine .arr fun item hitem => ?_
  obtain ⟨text, -, rfl⟩ := List.mem_map.mp hitem
  exact .str text

/-- The blanks before a part of a value, by how deep the part is, and those behind a colon. -/
structure Layout where
  gap : Nat → List Char
  behindColon : List Char
  isSpace_gap : ∀ level, ∀ c ∈ gap level, isSpace c
  isSpace_behindColon : ∀ c ∈ behindColon, isSpace c

namespace Layout

mutual

def text (l : Layout) (level : Nat) : Json → List Char
  | arr [] => ['[', ']']
  | arr (item :: items) => '[' :: (l.itemsText (level + 1) (item :: items) ++ (l.gap level ++ [']']))
  | obj [] => ['{', '}']
  | obj (member :: members) => '{' :: (l.membersText (level + 1) (member :: members) ++ (l.gap level ++ ['}']))
  | value => scalarText value

def itemsText (l : Layout) (level : Nat) : List Json → List Char
  | [] => []
  | [item] => l.gap level ++ l.text level item
  | item :: next :: rest => l.gap level ++ (l.text level item ++ ',' :: l.itemsText level (next :: rest))

def membersText (l : Layout) (level : Nat) : List (String × Json) → List Char
  | [] => []
  | [(name, value)] => l.gap level ++ (quoted name ++ ':' :: (l.behindColon ++ l.text level value))
  | (name, value) :: next :: rest =>
    l.gap level ++ (quoted name ++ ':' :: (l.behindColon ++ (l.text level value ++
      ',' :: l.membersText level (next :: rest))))

end

/-! ## The two layouts in use -/

def compact : Layout where
  gap _ := []
  behindColon := []
  isSpace_gap _ := nofun
  isSpace_behindColon := nofun

def indented : Layout where
  gap := newLine
  behindColon := [' ']
  isSpace_gap level c hc := by
    rcases List.mem_cons.mp hc with rfl | hc
    · rfl
    · rw [List.eq_of_mem_replicate hc]
      rfl
  isSpace_behindColon c hc := by
    rw [List.mem_singleton.mp hc]
    rfl

@[simp] theorem compact_gap (level : Nat) : compact.gap level = [] := rfl

@[simp] theorem compact_behindColon : compact.behindColon = [] := rfl

@[simp] theorem indented_gap : indented.gap = newLine := rfl

@[simp] theorem indented_behindColon : indented.behindColon = [' '] := rfl

private theorem compact_itemsText {item : Json} {items : List Json} {level : Nat}
    (h : ∀ value ∈ item :: items, compact.text level value = compactText value) :
    compact.itemsText level (item :: items) ++ [']'] = compactItems (item :: items) := by
  induction items generalizing item with
  | nil => simp [itemsText, compactItems, h]
  | cons next items ih =>
    have hbelow := ih fun value hv => h value (List.mem_cons_of_mem _ hv)
    simp [itemsText, compactItems, hbelow, h item List.mem_cons_self]

private theorem compact_membersText {member : String × Json} {members : List (String × Json)} {level : Nat}
    (h : ∀ m ∈ member :: members, compact.text level m.2 = compactText m.2) :
    compact.membersText level (member :: members) ++ ['}'] = compactMembers (member :: members) := by
  induction members generalizing member with
  | nil => simp [membersText, compactMembers, h member List.mem_cons_self]
  | cons next members ih =>
    have hbelow := ih fun m hm => h m (List.mem_cons_of_mem _ hm)
    simp [membersText, compactMembers, hbelow, h member List.mem_cons_self]

private theorem compact_text {value : Json} (h : value.Written) (level : Nat) :
    compact.text level value = compactText value := by
  induction h generalizing level with
  | bool | nat | str => rfl
  | @arr items _ ih =>
    cases items with
    | nil => rfl
    | cons item items => exact congrArg ('[' :: ·) (compact_itemsText fun value hv => ih value hv (level + 1))
  | @obj members _ ih =>
    cases members with
    | nil => rfl
    | cons member members => exact congrArg ('{' :: ·) (compact_membersText fun m hm => ih m hm (level + 1))

private theorem indented_itemsText {item : Json} {items : List Json} {level : Nat}
    (h : ∀ value ∈ item :: items, indented.text level value = indentedText level value) :
    indented.itemsText level (item :: items) = indentedItems level (item :: items) := by
  induction items generalizing item with
  | nil => simp [itemsText, indentedItems, h]
  | cons next items ih =>
    have hbelow := ih fun value hv => h value (List.mem_cons_of_mem _ hv)
    simp [itemsText, indentedItems, hbelow, h item List.mem_cons_self]

private theorem indented_membersText {member : String × Json} {members : List (String × Json)} {level : Nat}
    (h : ∀ m ∈ member :: members, indented.text level m.2 = indentedText level m.2) :
    indented.membersText level (member :: members) = indentedMembers level (member :: members) := by
  induction members generalizing member with
  | nil => simp [membersText, indentedMembers, h member List.mem_cons_self]
  | cons next members ih =>
    have hbelow := ih fun m hm => h m (List.mem_cons_of_mem _ hm)
    simp [membersText, indentedMembers, hbelow, h member List.mem_cons_self]

private theorem indented_text {value : Json} (h : value.Written) (level : Nat) :
    indented.text level value = indentedText level value := by
  induction h generalizing level with
  | bool | nat | str => rfl
  | @arr items _ ih =>
    cases items with
    | nil => rfl
    | cons item items => simp [text, indentedText, indented_itemsText fun value hv => ih value hv (level + 1)]
  | @obj members _ ih =>
    cases members with
    | nil => rfl
    | cons member members => simp [text, indentedText, indented_membersText fun m hm => ih m hm (level + 1)]

end Layout

/-! ## Reading -/

private theorem skipSpace_cons {c : Char} (h : isSpace c = false) (s : List Char) : skipSpace (c :: s) = c :: s :=
  List.dropWhile_cons_of_neg (by simp [h])

private theorem skipSpace_append {blanks : List Char} (h : ∀ c ∈ blanks, isSpace c) (s : List Char) :
    skipSpace (blanks ++ s) = skipSpace s :=
  List.dropWhile_append_of_pos h

private theorem skipSpace_skipSpace (s : List Char) : skipSpace (skipSpace s) = skipSpace s :=
  List.dropWhile_idempotent _ s

theorem readValue_append {blanks : List Char} (h : ∀ c ∈ blanks, isSpace c) (bound : Nat) (s : List Char) :
    readValue bound (blanks ++ s) = readValue bound s := by
  cases bound with
  | zero => rw [readValue, readValue]
  | succ bound => rw [readValue, readValue, skipSpace_append h]

/-- What opens neither an array nor an object has no parts. -/
theorem readValue_cons {c : Char} (hspace : isSpace c = false) (harr : c ≠ '[') (hobj : c ≠ '{') (bound : Nat)
    (s : List Char) : readValue (bound + 1) (c :: s) = readScalar (c :: s) := by
  rw [readValue, skipSpace_cons hspace]
  split
  · rename_i he
    exact absurd (List.cons_eq_cons.mp he).1 harr
  · rename_i he
    exact absurd (List.cons_eq_cons.mp he).1 hobj
  · rfl

private theorem readItems_skipSpace (bound : Nat) (s : List Char) :
    readItems bound (skipSpace s) = readItems bound s := by
  cases bound with
  | zero => rw [readItems, readItems]
  | succ bound =>
    have hvalue : readValue bound (skipSpace s) = readValue bound s := by
      cases bound with
      | zero => rw [readValue, readValue]
      | succ bound => rw [readValue, readValue, skipSpace_skipSpace]
    rw [readItems, readItems, hvalue]

private theorem readMembers_skipSpace (bound : Nat) (s : List Char) :
    readMembers bound (skipSpace s) = readMembers bound s := by
  cases bound with
  | zero => rw [readMembers, readMembers]
  | succ bound => rw [readMembers, readMembers, skipSpace_skipSpace]

private theorem follows_cons {c : Char} (h : c = ',' ∨ c = ']' ∨ c = '}') (rest : List Char) : Follows (c :: rest) := by
  rintro _ ⟨⟩
  exact .inr h

theorem Follows.append {blanks rest : List Char} (hblanks : ∀ c ∈ blanks, isSpace c) (h : Follows rest) :
    Follows (blanks ++ rest) := by
  cases blanks with
  | nil => exact h
  | cons c blanks =>
    rintro _ ⟨⟩
    exact .inl (hblanks c List.mem_cons_self)

namespace Layout
variable {l : Layout}

/-- Whether the value is read from its text, whatever follows that may. -/
def ReadsBack (l : Layout) (value : Json) : Prop :=
  ∀ (level bound : Nat) (rest : List Char), (l.text level value).length ≤ bound → Follows rest →
    readValue (bound + 1) (l.text level value ++ rest) = (value, some rest)

private theorem readsBack_bool (l : Layout) (value : Bool) : l.ReadsBack (bool value) := by
  intro level bound rest _ _
  cases value <;> rfl

private theorem readsBack_nat (l : Layout) (n : Nat) : l.ReadsBack (nat n) := by
  intro level bound rest _ hrest
  obtain ⟨c, below, hs, hc⟩ := exists_digits_append n rest
  have htext : l.text level (nat n) ++ rest = c :: below := hs
  rw [htext, readValue_cons (isSpace_of_isAsciiDigit hc) (ne_of_isAsciiDigit hc rfl) (ne_of_isAsciiDigit hc rfl),
    ← hs]
  exact readScalar_digits n hrest

private theorem readsBack_str (l : Layout) (text : String) : l.ReadsBack (str text) := by
  intro level bound rest _ _
  have htext : l.text level (str text) ++ rest = '"' :: (text.toList.flatMap escapeChar ++ '"' :: rest) := by
    simp [Layout.text, scalarText, quoted]
  rw [htext, readValue_cons rfl (by decide) (by decide)]
  exact readString_escaped text rest

/-- Items are read up to the closing bracket. -/
theorem readItems_itemsText {item : Json} {items : List Json} (level closing bound : Nat) (rest : List Char)
    (hitems : ∀ value ∈ item :: items, l.ReadsBack value)
    (hbound : (l.itemsText level (item :: items)).length + 1 ≤ bound) :
    readItems (bound + 1) (l.itemsText level (item :: items) ++ (l.gap closing ++ ']' :: rest)) =
      (item :: items, some rest) := by
  induction items generalizing item bound with
  | nil =>
    simp only [itemsText, List.length_append] at hbound
    obtain ⟨bound, rfl⟩ := Nat.exists_eq_add_one.mpr (by omega : 0 < bound)
    have hread := hitems item List.mem_cons_self level bound (l.gap closing ++ ']' :: rest) (by omega)
      ((follows_cons (by decide) rest).append (l.isSpace_gap closing))
    have hclose : skipSpace (l.gap closing ++ ']' :: rest) = ']' :: rest := by
      rw [skipSpace_append (l.isSpace_gap closing), skipSpace_cons rfl]
    rw [itemsText, List.append_assoc, readItems, readValue_append (l.isSpace_gap level), hread]
    simp only [hclose]
  | cons next items ih =>
    simp only [itemsText, List.length_append, List.length_cons] at hbound
    obtain ⟨bound, rfl⟩ := Nat.exists_eq_add_one.mpr (by omega : 0 < bound)
    -- what follows the item starts with a comma, at which a number ends too
    have hread := hitems item List.mem_cons_self level bound
      (',' :: (l.itemsText level (next :: items) ++ (l.gap closing ++ ']' :: rest))) (by omega)
      (follows_cons (by decide) _)
    have hcomma (s : List Char) : skipSpace (',' :: s) = ',' :: s := skipSpace_cons rfl s
    have hbelow : readItems (bound + 1) (l.itemsText level (next :: items) ++ (l.gap closing ++ ']' :: rest)) =
        (next :: items, some rest) := ih bound (fun value hv => hitems value (List.mem_cons_of_mem _ hv)) (by omega)
    rw [itemsText, List.append_assoc, List.append_assoc, List.cons_append, readItems,
      readValue_append (l.isSpace_gap level), hread]
    simp only [hcomma, hbelow]

/-- Members are read up to the closing brace. -/
theorem readMembers_membersText {member : String × Json} {members : List (String × Json)}
    (level closing bound : Nat) (rest : List Char) (hmembers : ∀ m ∈ member :: members, l.ReadsBack m.2)
    (hbound : (l.membersText level (member :: members)).length + 1 ≤ bound) :
    readMembers (bound + 1) (l.membersText level (member :: members) ++ (l.gap closing ++ '}' :: rest)) =
      (member :: members, some rest) := by
  have hname (name : String) (s : List Char) : skipSpace (l.gap level ++ (quoted name ++ s)) =
      '"' :: (name.toList.flatMap escapeChar ++ '"' :: s) := by
    rw [skipSpace_append (l.isSpace_gap level)]
    simp [skipSpace, isSpace, quoted]
  have hcolon (s : List Char) : skipSpace (':' :: s) = ':' :: s := skipSpace_cons rfl s
  induction members generalizing member bound with
  | nil =>
    obtain ⟨name, value⟩ := member
    simp only [membersText, List.length_append, List.length_cons] at hbound
    obtain ⟨bound, rfl⟩ := Nat.exists_eq_add_one.mpr (by omega : 0 < bound)
    have hread := hmembers (name, value) List.mem_cons_self level bound (l.gap closing ++ '}' :: rest)
      (by simp only; omega) ((follows_cons (by decide) rest).append (l.isSpace_gap closing))
    have hclose : skipSpace (l.gap closing ++ '}' :: rest) = '}' :: rest := by
      rw [skipSpace_append (l.isSpace_gap closing), skipSpace_cons rfl]
    simp only [membersText, List.append_assoc, List.cons_append]
    rw [readMembers, hname]
    simp only [readString_escaped, hcolon, readValue_append l.isSpace_behindColon, hread, hclose, List.nil_append]
  | cons next members ih =>
    obtain ⟨name, value⟩ := member
    simp only [membersText, List.length_append, List.length_cons] at hbound
    obtain ⟨bound, rfl⟩ := Nat.exists_eq_add_one.mpr (by omega : 0 < bound)
    have hread := hmembers (name, value) List.mem_cons_self level bound
      (',' :: (l.membersText level (next :: members) ++ (l.gap closing ++ '}' :: rest))) (by simp only; omega)
      (follows_cons (by decide) _)
    have hcomma (s : List Char) : skipSpace (',' :: s) = ',' :: s := skipSpace_cons rfl s
    have hbelow : readMembers (bound + 1) (l.membersText level (next :: members) ++ (l.gap closing ++ '}' :: rest)) =
        (next :: members, some rest) := ih bound (fun m hm => hmembers m (List.mem_cons_of_mem _ hm)) (by omega)
    simp only [membersText, List.append_assoc, List.cons_append]
    rw [readMembers, hname]
    simp only [readString_escaped, hcolon, readValue_append l.isSpace_behindColon, hread, hcomma, hbelow,
      List.nil_append]

/-- How the text of a written value begins. -/
theorem exists_text_eq_cons {value : Json} (h : value.Written) (level : Nat) :
    ∃ c below, l.text level value = c :: below ∧ isSpace c = false ∧ c ≠ ']' := by
  cases h with
  | bool value => cases value <;> exact ⟨_, _, rfl, rfl, by decide⟩
  | nat n =>
    obtain ⟨c, below, hs, hc⟩ := exists_digits_append n []
    exact ⟨c, below, by rw [← hs, List.append_nil]; rfl, isSpace_of_isAsciiDigit hc, ne_of_isAsciiDigit hc rfl⟩
  | str text => exact ⟨_, _, rfl, rfl, by decide⟩
  | @arr items h => cases items <;> exact ⟨_, _, rfl, rfl, by decide⟩
  | @obj members h => cases members <;> exact ⟨_, _, rfl, rfl, by decide⟩

private theorem exists_skipSpace_itemsText {item : Json} (h : item.Written) (items : List Json) (level : Nat)
    (rest : List Char) :
    ∃ c below, skipSpace (l.itemsText level (item :: items) ++ rest) = c :: below ∧ c ≠ ']' := by
  obtain ⟨c, below, htext, hspace, hc⟩ := l.exists_text_eq_cons h level
  obtain ⟨behind, hbehind⟩ : ∃ behind, l.itemsText level (item :: items) ++ rest =
      l.gap level ++ (c :: behind) := by
    cases items with
    | nil => exact ⟨below ++ rest, by rw [itemsText, htext, List.append_assoc]; rfl⟩
    | cons next items => exact ⟨_, by rw [itemsText, htext, List.append_assoc]; rfl⟩
  exact ⟨c, behind, by rw [hbehind, skipSpace_append (l.isSpace_gap level), skipSpace_cons hspace], hc⟩

private theorem exists_skipSpace_membersText (member : String × Json) (members : List (String × Json)) (level : Nat)
    (rest : List Char) :
    ∃ below, skipSpace (l.membersText level (member :: members) ++ rest) = '"' :: below := by
  obtain ⟨behind, hbehind⟩ : ∃ behind, l.membersText level (member :: members) ++ rest =
      l.gap level ++ ('"' :: behind) := by
    cases members <;> exact ⟨_, by rw [membersText, List.append_assoc]; rfl⟩
  exact ⟨behind, by rw [hbehind, skipSpace_append (l.isSpace_gap level), skipSpace_cons rfl]⟩

private theorem readsBack_arr {items : List Json} (hwritten : ∀ item ∈ items, item.Written)
    (hitems : ∀ item ∈ items, l.ReadsBack item) : l.ReadsBack (arr items) := by
  intro level bound rest hbound _
  cases items with
  | nil => rfl
  | cons item items =>
    simp only [text, List.length_cons, List.length_append] at hbound
    obtain ⟨bound, rfl⟩ := Nat.exists_eq_add_one.mpr (by omega : 0 < bound)
    have hread := readItems_itemsText (level + 1) level bound rest hitems (by omega)
    obtain ⟨c, below, hs, hc⟩ := l.exists_skipSpace_itemsText (hwritten item List.mem_cons_self) items (level + 1)
      (l.gap level ++ ']' :: rest)
    rw [← readItems_skipSpace, hs] at hread
    simp only [text, List.cons_append, List.append_assoc, List.nil_append]
    rw [readValue, skipSpace_cons rfl]
    simp only [hs]
    split
    · rename_i he
      exact absurd (List.cons_eq_cons.mp he).1 hc
    · rw [hread]

private theorem readsBack_obj {members : List (String × Json)} (hmembers : ∀ member ∈ members, l.ReadsBack member.2) :
    l.ReadsBack (obj members) := by
  intro level bound rest hbound _
  cases members with
  | nil => rfl
  | cons member members =>
    simp only [text, List.length_cons, List.length_append] at hbound
    obtain ⟨bound, rfl⟩ := Nat.exists_eq_add_one.mpr (by omega : 0 < bound)
    have hread := readMembers_membersText (level + 1) level bound rest hmembers (by omega)
    obtain ⟨below, hs⟩ := l.exists_skipSpace_membersText member members (level + 1) (l.gap level ++ '}' :: rest)
    rw [← readMembers_skipSpace, hs] at hread
    simp only [text, List.cons_append, List.append_assoc, List.nil_append]
    rw [readValue, skipSpace_cons rfl]
    simp only [hs]
    split
    · rename_i he
      exact absurd (List.cons_eq_cons.mp he).1 (by decide)
    · rw [hread]

/-- A value is read back from its text in any layout. Induction on the value; the items of an array and the
members of an object need the statement for all that may follow them. -/
theorem readsBack_of_written {value : Json} (h : value.Written) : l.ReadsBack value := by
  induction h with
  | bool value => exact l.readsBack_bool value
  | nat n => exact l.readsBack_nat n
  | str text => exact l.readsBack_str text
  | arr hitems ih => exact readsBack_arr hitems ih
  | obj _ ih => exact readsBack_obj ih

/-- A written value is what is read from its text. -/
theorem ofText_text {value : Json} (h : value.Written) :
    Document.ofText (String.ofList (l.text 0 value)) = { value, complete := true } := by
  have hread := readsBack_of_written h 0 (l.text 0 value).length [] (Nat.le_refl _) nofun
  rw [List.append_nil] at hread
  rw [Document.ofText, String.toList_ofList, String.length_ofList, hread]
  rfl

end Layout

theorem Written.ofText_compact {value : Json} (h : value.Written) :
    Document.ofText value.compact = { value, complete := true } := by
  rw [Json.compact, ← Layout.compact_text h 0]
  exact Layout.ofText_text h

theorem Written.ofText_indented {value : Json} (h : value.Written) :
    Document.ofText value.indented = { value, complete := true } := by
  rw [Json.indented, ← Layout.indented_text h 0]
  exact Layout.ofText_text h

end DocComments.Json
