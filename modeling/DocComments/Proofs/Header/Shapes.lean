import DocComments.Proofs.Header.Signature

/-! JavaScript headers read back. A header is written in one of three shapes and extracted as it was
written, since the shapes that are tried before its own find nothing on the line. -/
namespace DocComments
open Text

namespace Header.JavaScript
open Parameters

def staticWord : List Char := ['s', 't', 'a', 't', 'i', 'c']

/-- The name of a function with what stands behind it, up to the brace that opens the body. -/
def named (f : Signature) : List Char :=
  f.name ++ f.behindName [':'] [' ', '{']

/-- The name of an arrow function with what it is bound to, up to the brace that opens the body. -/
def binding (f : Signature) : List Char :=
  f.name ++ ' ' :: '=' :: ' ' ::
    (written f.isAsync asyncWord ++ f.behindName [':'] [' ', '=', '>', ' ', '{'])

/-- The shapes of a header, with the words that may stand in front of the name: function statements,
arrow functions, and methods. -/
inductive Shape where
  | statement (exported isDefault : Bool)
  | arrow (exported : Bool) (declarator : { word // word ∈ declarators })
  | method (isStatic : Bool)

namespace Shape

def kind : Shape → DefinitionKind
  | statement .. => .function
  | arrow .. => .function
  | method .. => .method

def text (f : Signature) : Shape → List Char
  | statement exported isDefault =>
    written exported exportWord ++ (written isDefault defaultWord ++
      (written f.isAsync asyncWord ++ (functionWord ++ ' ' :: named f)))
  | arrow exported declarator => written exported exportWord ++ (declarator.val ++ ' ' :: binding f)
  | method isStatic => written isStatic staticWord ++ (written f.isAsync asyncWord ++ named f)

/-- The first line of a function in this shape, up to the brace that opens the body. -/
def line (f : Signature) (shape : Shape) : List Char :=
  f.indent ++ shape.text f

end Shape

variable {f : Signature} {line : Line} {s tail : List Char}

private theorem braceEnd?_eq_none
    (h : ∀ mark ∈ continuations .javaScript, ¬ mark <+: trimStart s) : braceEnd? s = none := by
  have hcolon := h [':'] (by simp [continuations])
  have hbrace := h ['{'] (by simp [continuations])
  rw [braceEnd?]
  split
  · rename_i rest ht
    exact absurd (ht ▸ List.prefix_append ['{'] rest) hbrace
  · rename_i rest ht
    exact absurd (ht ▸ List.prefix_append [':'] rest) hcolon
  · rfl

private theorem arrowEnd?_eq_none
    (h : ∀ mark ∈ continuations .javaScript, ¬ mark <+: trimStart s) : arrowEnd? s = none := by
  have hcolon := h [':'] (by simp [continuations])
  have harrow := h ['=', '>'] (by simp [continuations])
  rw [arrowEnd?]
  split
  · rename_i rest ht
    exact absurd (ht ▸ List.prefix_append ['=', '>'] rest) harrow
  · rename_i rest ht
    exact absurd (ht ▸ List.prefix_append [':'] rest) hcolon
  · rfl

private theorem braceEnd?_colon (s : List Char) :
    braceEnd? (':' :: s) = (upTo? '{' s).map fun found => (content? found.1, found.2) := rfl

private theorem arrowEnd?_colon {type rest : List Char} (h : upTo? '=' s = some (type, '>' :: rest)) :
    arrowEnd? (':' :: s) = (bodyBrace? rest).map fun tail => (content? type, tail) := by
  have ht : trimStart (':' :: s) = ':' :: s := rfl
  rw [arrowEnd?, ht]
  simp only [h]

private theorem braceEnd?_returns (h : f.WellFormed .javaScript) (tail : List Char) :
    braceEnd? (returns [':'] f.returnType ++ ([' ', '{'] ++ tail)) = some (f.returnType, tail) := by
  cases hr : f.returnType with
  | none => rfl
  | some type =>
    have hbrace : '{' ∈ stops .javaScript := by simp [stops]
    obtain ⟨hup, htype⟩ := h.upTo?_type hr hbrace [' '] rfl tail
    have hcut : returns [':'] (some type) ++ ([' ', '{'] ++ tail) =
        ':' :: (' ' :: type ++ ([' '] ++ '{' :: tail)) := by simp [returns]
    rw [hcut, braceEnd?_colon, hup, Option.map_some, htype]

private theorem arrowEnd?_returns (h : f.WellFormed .javaScript) (tail : List Char) :
    arrowEnd? (returns [':'] f.returnType ++ ([' ', '=', '>', ' ', '{'] ++ tail)) =
      some (f.returnType, tail) := by
  cases hr : f.returnType with
  | none => rfl
  | some type =>
    have hequals : '=' ∈ stops .javaScript := by simp [stops]
    obtain ⟨hup, htype⟩ := h.upTo?_type hr hequals [' '] rfl ('>' :: ' ' :: '{' :: tail)
    have hcut : returns [':'] (some type) ++ ([' ', '=', '>', ' ', '{'] ++ tail) =
        ':' :: (' ' :: type ++ ([' '] ++ '=' :: '>' :: ' ' :: '{' :: tail)) := by simp [returns]
    rw [hcut, arrowEnd?_colon hup, htype]
    rfl

private theorem close?_brace (h : f.WellFormed .javaScript) (tail : List Char) :
    close? braceEnd? (f.parameters ++ ')' :: (returns [':'] f.returnType ++ ([' ', '{'] ++ tail))) =
      some (f.parameters, f.returnType, tail) :=
  close?_append (by simp [continuations]) (fun _ => braceEnd?_eq_none) h.closed (braceEnd?_returns h tail)

private theorem close?_arrow (h : f.WellFormed .javaScript) (tail : List Char) :
    close? arrowEnd? (f.parameters ++ ')' ::
        (returns [':'] f.returnType ++ ([' ', '=', '>', ' ', '{'] ++ tail))) =
      some (f.parameters, f.returnType, tail) :=
  close?_append (by simp [continuations]) (fun _ => arrowEnd?_eq_none) h.closed (arrowEnd?_returns h tail)

private theorem trimStart_named (h : f.WellFormed .javaScript) (tail : List Char) :
    trimStart (named f ++ tail) = named f ++ tail := by
  rw [named, List.append_assoc, trimStart_name h.isName]

private theorem identifier?_named (h : f.WellFormed .javaScript) (tail : List Char) :
    identifier? (named f ++ tail) = some (f.name, f.behindName [':'] [' ', '{'] ++ tail) := by
  rw [named, List.append_assoc]
  exact h.name?_behindName _ _ _

/-! Function statements are tried first. -/

/-- No star stands in front of a name. -/
private theorem withoutStar_named (h : f.WellFormed .javaScript) (tail : List Char) :
    withoutPrefix ['*'] (named f ++ tail) = named f ++ tail := by
  have hnone : dropPrefix? ['*'] (named f ++ tail) = none := by
    obtain ⟨c, rest, hname, hc, -⟩ := h.isName
    rw [dropPrefix?_eq_none_iff, named, hname, List.cons_append, List.cons_append,
      List.cons_prefix_cons]
    rintro ⟨rfl, -⟩
    exact absurd hc (by decide)
  rw [withoutPrefix, hnone, Option.getD_none]

private theorem statement?_statement (h : f.WellFormed .javaScript) {exported isDefault : Bool}
    (hl : afterIndent line = (Shape.statement exported isDefault).text f ++ tail) :
    statement? line = some (f.captures none tail) := by
  simp only [Shape.text, List.append_assoc, List.cons_append] at hl
  rw [statement?, hl,
    skipKeyword_written (by cases isDefault <;> cases f.isAsync <;> rfl)
      (by cases isDefault <;> cases f.isAsync <;> rfl),
    skipKeyword_written (by cases f.isAsync <;> rfl) (by cases f.isAsync <;> rfl),
    skipAsync_written rfl rfl]
  have hname : trimStart (withoutPrefix ['*'] (trimStart (' ' :: (named f ++ tail)))) =
      named f ++ tail := by
    have hblank : trimStart (' ' :: (named f ++ tail)) = named f ++ tail := trimStart_named h tail
    rw [hblank, withoutStar_named h, trimStart_named h]
  refine Option.bind_eq_some_iff.mpr ⟨_, dropPrefix?_append _ _, ?_⟩
  refine Option.bind_eq_some_iff.mpr ⟨(), rfl, ?_⟩
  rw [hname]
  refine Option.bind_eq_some_iff.mpr ⟨_, identifier?_named h tail, ?_⟩
  rw [Signature.behindName_append]
  refine Option.bind_eq_some_iff.mpr ⟨_, rfl, ?_⟩
  refine Option.bind_eq_some_iff.mpr ⟨_, rfl, ?_⟩
  exact Option.bind_eq_some_iff.mpr ⟨_, close?_brace h tail, rfl⟩

/-- Behind the words that may stand in front of it, a function statement goes on with its keyword. -/
private theorem statement?_eq_none
    (hf : ¬ functionWord <+:
      (skipAsync (skipKeyword defaultWord (skipKeyword exportWord (afterIndent line)))).2) :
    statement? line = none := by
  rcases hs : skipAsync (skipKeyword defaultWord (skipKeyword exportWord (afterIndent line))) with
    ⟨isAsync, s⟩
  rw [hs] at hf
  rw [statement?]
  dsimp only
  rw [hs]
  dsimp only
  rw [dropPrefix?_eq_none_iff.mpr hf]
  rfl

/-! Arrow functions are tried next. -/

private theorem eq_of_mem_declarators {word : List Char} (hw : word ∈ declarators) :
    word = ['c', 'o', 'n', 's', 't'] ∨ word = ['l', 'e', 't'] ∨ word = ['v', 'a', 'r'] := by
  simpa [declarators] using hw

private theorem statement?_arrow {exported : Bool} {declarator : { word // word ∈ declarators }}
    (hl : afterIndent line = (Shape.arrow exported declarator).text f ++ tail) :
    statement? line = none := by
  obtain ⟨word, hw⟩ := declarator
  simp only [Shape.text, List.append_assoc, List.cons_append] at hl
  apply statement?_eq_none
  rw [hl, ← dropPrefix?_eq_none_iff]
  rcases eq_of_mem_declarators hw with rfl | rfl | rfl <;> cases exported <;> rfl

private theorem skipAsync_open (isAsync : Bool) (s : List Char) :
    skipAsync (trimStart (' ' :: (written isAsync asyncWord ++ '(' :: s))) = (isAsync, '(' :: s) := by
  have hblank : trimStart (' ' :: (written isAsync asyncWord ++ '(' :: s)) =
      written isAsync asyncWord ++ '(' :: s := by cases isAsync <;> rfl
  rw [hblank, skipAsync_written rfl rfl]

private theorem trimStart_binding (h : f.WellFormed .javaScript) (tail : List Char) :
    trimStart (binding f ++ tail) = binding f ++ tail := by
  rw [binding, List.append_assoc, trimStart_name h.isName]

private theorem binding?_binding (h : f.WellFormed .javaScript) (tail : List Char) :
    binding? (binding f ++ tail) = some (f.captures none tail) := by
  have hname : identifier? (binding f ++ tail) = some (f.name, ' ' :: '=' :: ' ' ::
      (written f.isAsync asyncWord ++ (f.behindName [':'] [' ', '=', '>', ' ', '{'] ++ tail))) := by
    simp only [binding, List.append_assoc, List.cons_append]
    exact name?_append h.isName (by rintro c ⟨⟩; rfl)
  rw [binding?]
  refine Option.bind_eq_some_iff.mpr ⟨_, hname, ?_⟩
  refine Option.bind_eq_some_iff.mpr ⟨_, rfl, ?_⟩
  rw [Signature.behindName_append, skipAsync_open]
  refine Option.bind_eq_some_iff.mpr ⟨_, rfl, ?_⟩
  exact Option.bind_eq_some_iff.mpr ⟨_, close?_arrow h tail, rfl⟩

private theorem declaration?_binding (h : f.WellFormed .javaScript) {word : List Char}
    (hw : word ∈ declarators) (tail : List Char) :
    declaration? (word ++ ' ' :: (binding f ++ tail)) = some (f.captures none tail) := by
  have hword : anyKeyword? declarators (word ++ ' ' :: (binding f ++ tail)) =
      some (trimStart (binding f ++ tail)) := by
    rcases eq_of_mem_declarators hw with rfl | rfl | rfl <;> rfl
  rw [declaration?, hword, trimStart_binding h, Option.bind_some, binding?_binding h]
  rfl

private theorem arrow?_arrow (h : f.WellFormed .javaScript) {exported : Bool}
    {declarator : { word // word ∈ declarators }}
    (hl : afterIndent line = (Shape.arrow exported declarator).text f ++ tail) :
    arrow? line = some (f.captures none tail) := by
  obtain ⟨word, hw⟩ := declarator
  simp only [Shape.text, List.append_assoc, List.cons_append] at hl
  have hdeclaration := declaration?_binding h hw tail
  have hword : keyword? exportWord (word ++ ' ' :: (binding f ++ tail)) = none ∧
      trimStart (word ++ ' ' :: (binding f ++ tail)) = word ++ ' ' :: (binding f ++ tail) := by
    rcases eq_of_mem_declarators hw with rfl | rfl | rfl <;> exact ⟨rfl, rfl⟩
  rw [arrow?, hl]
  cases exported with
  | false =>
    rw [written, if_neg Bool.false_ne_true, List.nil_append, hword.1, hdeclaration]
    rfl
  | true =>
    rw [written, if_pos rfl, List.append_assoc, List.cons_append, List.nil_append, keyword?_append,
      hword.2, Option.bind_some, hdeclaration]
    rfl

/-! Methods are tried last. -/

private theorem keyword?_named (h : f.WellFormed .javaScript) {word : List Char} (hw : '(' ∉ word)
    (tail : List Char) : keyword? word (named f ++ tail) = none := by
  rw [named, List.append_assoc, Signature.behindName_append]
  exact keyword?_eq_none hw (by decide) (not_isBlank_of_isName h.isName) _

/-- No word that may stand in front of a function statement or an arrow function opens a method. -/
private theorem keyword?_method (h : f.WellFormed .javaScript) (isStatic : Bool) {word : List Char}
    (hw : word ∈ exportWord :: defaultWord :: declarators) (tail : List Char) :
    keyword? word ((Shape.method isStatic).text f ++ tail) = none := by
  have hopen : ∀ word ∈ exportWord :: defaultWord :: declarators, '(' ∉ word := by decide
  have hname := keyword?_named h (hopen word hw) tail
  simp only [declarators, List.mem_cons, List.not_mem_nil, or_false] at hw
  simp only [Shape.text, List.append_assoc]
  cases isStatic with
  | true => rcases hw with rfl | rfl | rfl | rfl | rfl <;> rfl
  | false =>
    cases f.isAsync with
    | true => rcases hw with rfl | rfl | rfl | rfl | rfl <;> rfl
    | false => exact hname

private theorem statement?_method (h : f.WellFormed .javaScript) (hf : ¬ functionWord <+: f.name)
    {isStatic : Bool} (hl : afterIndent line = (Shape.method isStatic).text f ++ tail) :
    statement? line = none := by
  have hexport : keyword? exportWord ((Shape.method isStatic).text f ++ tail) = none :=
    keyword?_method h isStatic (by simp) tail
  have hdefault : keyword? defaultWord ((Shape.method isStatic).text f ++ tail) = none :=
    keyword?_method h isStatic (by simp) tail
  apply statement?_eq_none
  rw [hl, skipKeyword_of_none hexport, skipKeyword_of_none hdefault]
  cases isStatic with
  | true => exact dropPrefix?_eq_none_iff.mp rfl
  | false =>
    have hasync : skipAsync ((Shape.method false).text f ++ tail) = (f.isAsync, named f ++ tail) := by
      simp only [Shape.text, List.append_assoc]
      exact skipAsync_written (trimStart_named h tail) (keyword?_named h (by decide) tail) f.isAsync
    rw [hasync, named, List.append_assoc, Signature.behindName_append]
    exact not_prefix_append_cons (by decide) hf _

private theorem binding?_eq_none {name rest : List Char} (hn : identifier? s = some (name, rest))
    (hb : bound? rest = none) : binding? s = none := by
  rw [binding?, hn, Option.bind_eq_bind, Option.bind_some]
  dsimp only
  rw [hb]
  rfl

/-- Neither an equals sign nor a colon stands where a name does. -/
private theorem bound?_named (h : f.WellFormed .javaScript) (isAsync : Bool) (tail : List Char) :
    bound? (' ' :: (written isAsync asyncWord ++ (named f ++ tail))) = none := by
  cases isAsync with
  | true => rfl
  | false =>
    have ht : trimStart (' ' :: (written false asyncWord ++ (named f ++ tail))) = named f ++ tail :=
      trimStart_named h tail
    obtain ⟨c, rest, hname, hc, -⟩ := h.isName
    rw [bound?, ht, named, hname]
    split
    · rename_i he
      obtain ⟨rfl, -⟩ := List.cons_eq_cons.mp he
      exact absurd hc (by decide)
    · rename_i he
      obtain ⟨rfl, -⟩ := List.cons_eq_cons.mp he
      exact absurd hc (by decide)
    · rfl

private theorem binding?_method (h : f.WellFormed .javaScript) (isStatic : Bool) (tail : List Char) :
    binding? ((Shape.method isStatic).text f ++ tail) = none := by
  have hbound := bound?_named h
  simp only [Shape.text, List.append_assoc]
  cases isStatic with
  | true =>
    have hname : identifier? (written true staticWord ++ (written f.isAsync asyncWord ++ (named f ++ tail))) =
        some (staticWord, ' ' :: (written f.isAsync asyncWord ++ (named f ++ tail))) := rfl
    exact binding?_eq_none hname (hbound f.isAsync tail)
  | false =>
    cases f.isAsync with
    | true =>
      have hname : identifier? (written true asyncWord ++ (named f ++ tail)) =
          some (asyncWord, ' ' :: (named f ++ tail)) := rfl
      exact binding?_eq_none hname (hbound false tail)
    | false => exact binding?_eq_none (identifier?_named h tail) rfl

private theorem arrow?_method (h : f.WellFormed .javaScript) {isStatic : Bool}
    (hl : afterIndent line = (Shape.method isStatic).text f ++ tail) : arrow? line = none := by
  have hexport : keyword? exportWord ((Shape.method isStatic).text f ++ tail) = none :=
    keyword?_method h isStatic (by simp) tail
  have hdeclarator : anyKeyword? declarators ((Shape.method isStatic).text f ++ tail) = none := by
    rw [anyKeyword?, List.findSome?_eq_none_iff]
    intro word hw
    exact keyword?_method h isStatic (by simp [hw]) tail
  rw [arrow?, hl, hexport, declaration?, hdeclarator, binding?_method h]
  rfl

private theorem signature?_named (h : f.WellFormed .javaScript) (tail : List Char) :
    signature? f.isAsync (named f ++ tail) = some (f.captures none tail) := by
  rw [signature?]
  refine Option.bind_eq_some_iff.mpr ⟨_, identifier?_named h tail, ?_⟩
  rw [Signature.behindName_append]
  refine Option.bind_eq_some_iff.mpr ⟨_, rfl, ?_⟩
  exact Option.bind_eq_some_iff.mpr ⟨_, close?_brace h tail, rfl⟩

private theorem asyncSignature?_named (h : f.WellFormed .javaScript) (tail : List Char) :
    asyncSignature? (written f.isAsync asyncWord ++ (named f ++ tail)) =
      some (f.captures none tail) := by
  have hsignature := signature?_named h tail
  cases hasync : f.isAsync with
  | false =>
    rw [hasync] at hsignature
    rw [written, if_neg Bool.false_ne_true, List.nil_append, asyncSignature?,
      keyword?_named h (by decide), hsignature]
    rfl
  | true =>
    rw [hasync] at hsignature
    rw [written, if_pos rfl, List.append_assoc, List.cons_append, List.nil_append, asyncSignature?,
      keyword?_append, trimStart_named h, Option.bind_some, hsignature]
    rfl

/-- No modifier stands in front of the name but those that are written there. -/
private theorem modified?_named (h : f.WellFormed .javaScript) (n : Nat) (tail : List Char) :
    modified? n (written f.isAsync asyncWord ++ (named f ++ tail)) = some (f.captures none tail) := by
  have hnone : anyKeyword? modifiers (written f.isAsync asyncWord ++ (named f ++ tail)) = none := by
    cases f.isAsync with
    | true => rfl
    | false =>
      have hopen : ∀ word ∈ modifiers, '(' ∉ word := by decide
      rw [anyKeyword?, List.findSome?_eq_none_iff]
      intro word hw
      exact keyword?_named h (hopen word hw) tail
  cases n with
  | zero => exact asyncSignature?_named h tail
  | succ n =>
    rw [modified?, hnone, asyncSignature?_named h]
    rfl

private theorem trimStart_async_named (h : f.WellFormed .javaScript) (isAsync : Bool) (tail : List Char) :
    trimStart (written isAsync asyncWord ++ (named f ++ tail)) =
      written isAsync asyncWord ++ (named f ++ tail) := by
  cases isAsync with
  | true => rfl
  | false => exact trimStart_named h tail

private theorem method?_method (h : f.WellFormed .javaScript) {isStatic : Bool}
    (hl : afterIndent line = (Shape.method isStatic).text f ++ tail) :
    method? line = some (f.captures none tail) := by
  simp only [Shape.text, List.append_assoc] at hl
  rw [method?, hl]
  cases isStatic with
  | false => exact modified?_named h _ tail
  | true =>
    have hstatic : anyKeyword? modifiers
        (written true staticWord ++ (written f.isAsync asyncWord ++ (named f ++ tail))) =
          some (trimStart (written f.isAsync asyncWord ++ (named f ++ tail))) := rfl
    -- the line is as long as the modifiers that may stand on it are many, so there is room for one
    obtain ⟨n, hn⟩ : ∃ n, (written true staticWord ++
        (written f.isAsync asyncWord ++ (named f ++ tail))).length = n + 1 := ⟨_, rfl⟩
    rw [hn, modified?, hstatic, trimStart_async_named h, Option.bind_some, modified?_named h]
    rfl

private theorem trimStart_text (h : f.WellFormed .javaScript) (shape : Shape) (tail : List Char) :
    trimStart (shape.text f ++ tail) = shape.text f ++ tail := by
  cases shape with
  | statement exported isDefault =>
    simp only [Shape.text, List.append_assoc, List.cons_append]
    cases exported <;> cases isDefault <;> cases f.isAsync <;> rfl
  | arrow exported declarator =>
    obtain ⟨word, hw⟩ := declarator
    simp only [Shape.text, List.append_assoc, List.cons_append]
    rcases eq_of_mem_declarators hw with rfl | rfl | rfl <;> cases exported <;> rfl
  | method isStatic =>
    simp only [Shape.text, List.append_assoc]
    cases isStatic with
    | true => rfl
    | false => exact trimStart_async_named h f.isAsync tail

/-- A header that is written in one of the shapes is read as it was written. -/
theorem header?_line (h : f.WellFormed .javaScript) (hr : f.name ∉ reserved)
    (hf : ¬ functionWord <+: f.name) (shape : Shape) (tail : List Char) (number : Nat) :
    header? number (shape.line f ++ tail) = .ok (some (f.header shape.kind tail)) := by
  have hafter : afterIndent (shape.line f ++ tail) = shape.text f ++ tail := by
    rw [Shape.line, List.append_assoc, afterIndent_append h.isIndent]
    exact afterIndent_of_trimStart (trimStart_text h shape tail)
  have hkept {pattern : Pattern} (hp : pattern.captures? (shape.line f ++ tail) = some (f.captures none tail))
      (rest : List Pattern) : firstHeader? number (shape.line f ++ tail) (pattern :: rest) =
        .ok (some (f.header pattern.kind tail)) := by
    simp only [firstHeader?, hp, Signature.captures, required, bind, Except.bind, List.contains_iff_mem,
      hr, if_false]
    rfl
  have hpassed {pattern : Pattern} (hp : pattern.captures? (shape.line f ++ tail) = none)
      (rest : List Pattern) : firstHeader? number (shape.line f ++ tail) (pattern :: rest) =
        firstHeader? number (shape.line f ++ tail) rest := by
    rw [firstHeader?, hp]
  rw [header?, patterns]
  cases shape with
  | statement exported isDefault => exact hkept (statement?_statement h hafter) _
  | arrow exported declarator =>
    rw [hpassed (statement?_arrow hafter)]
    exact hkept (arrow?_arrow h hafter) _
  | method isStatic =>
    rw [hpassed (statement?_method h hf hafter), hpassed (arrow?_method h hafter)]
    exact hkept (method?_method h hafter) _

private theorem plain_line (h : f.WellFormed .javaScript) (shape : Shape) : Plain (shape.line f) := by
  have hbrace : Plain (f.behindName [':'] [' ', '{']) :=
    h.plain_behindName (by decide) (by decide) (by simp)
  have harrow : Plain (f.behindName [':'] [' ', '=', '>', ' ', '{']) :=
    h.plain_behindName (by decide) (by decide) (by simp)
  have hindent := h.newline_not_mem_indent
  have hname := h.newline_not_mem_name
  have hasync : '\n' ∉ written f.isAsync asyncWord := newline_not_mem_written (by decide) _
  cases shape with
  | statement exported isDefault =>
    have hexport : '\n' ∉ written exported exportWord := newline_not_mem_written (by decide) _
    have hdefault : '\n' ∉ written isDefault defaultWord := newline_not_mem_written (by decide) _
    have hfront : '\n' ∉ f.indent ++ (written exported exportWord ++ (written isDefault defaultWord ++
        (written f.isAsync asyncWord ++ (functionWord ++ ' ' :: f.name)))) := by
      simp [hindent, hexport, hdefault, hasync, hname, functionWord]
    simpa [Shape.line, Shape.text, named] using hbrace.append (by simp [Signature.behindName]) hfront
  | arrow exported declarator =>
    obtain ⟨word, hw⟩ := declarator
    have hwords : ∀ word ∈ declarators, '\n' ∉ word := by decide
    have hexport : '\n' ∉ written exported exportWord := newline_not_mem_written (by decide) _
    have hfront : '\n' ∉ f.indent ++ (written exported exportWord ++ (word ++ ' ' :: (f.name ++
        ' ' :: '=' :: ' ' :: written f.isAsync asyncWord))) := by
      simp [hindent, hexport, hwords word hw, hasync, hname]
    simpa [Shape.line, Shape.text, binding] using harrow.append (by simp [Signature.behindName]) hfront
  | method isStatic =>
    have hstatic : '\n' ∉ written isStatic staticWord := newline_not_mem_written (by decide) _
    have hfront : '\n' ∉ f.indent ++ (written isStatic staticWord ++
        (written f.isAsync asyncWord ++ f.name)) := by
      simp [hindent, hstatic, hasync, hname]
    simpa [Shape.line, Shape.text, named] using hbrace.append (by simp [Signature.behindName]) hfront

end Header.JavaScript

/-- The first definition of a source that begins with a header in one of the shapes is the function
written there, with its name, its parameters and its return type. A name that is reserved or begins
with the keyword of function statements is left out: another shape may take it. -/
theorem extract_shapeLine {f : Header.Signature} (h : f.WellFormed .javaScript)
    (hr : f.name ∉ Header.JavaScript.reserved) (hf : ¬ Header.JavaScript.functionWord <+: f.name)
    (shape : Header.JavaScript.Shape) (below : List Char) :
    ∃ d rest, extract .javaScript (String.ofList (shape.line f ++ below)) = d :: rest ∧
      d.startLine = 1 ∧ d.name = String.ofList f.name ∧ d.kind = shape.kind ∧ d.isAsync = f.isAsync ∧
      d.returnType = f.returnType.map String.ofList ∧
      d.parameters = Parameters.parse .javaScript f.parameters := by
  have hplain := Header.JavaScript.plain_line h shape
  have hne : shape.line f ≠ [] := by
    cases shape <;> simp [Header.JavaScript.Shape.line, Header.JavaScript.Shape.text,
      Header.JavaScript.named, Header.JavaScript.binding, Header.Signature.behindName]
  obtain ⟨tail, others, hl⟩ := exists_lines_append hplain hne below
  have hhead : (grammarOf .javaScript).Reads (shape.line f ++ tail) (some _) :=
    Header.JavaScript.header?_line h hr hf shape tail
  exact exists_extract_eq_cons hl hhead

/-- A method behind both of its words, with a default value that is a call. -/
theorem extract_shapeLine_method :
    ∃ d rest, extract .javaScript
        "  static async load(url, opts = f(1)): Promise<string> \x7b return url; \x7d\nlet x;\n" = d :: rest ∧
      d.startLine = 1 ∧ d.name = "load" ∧ d.kind = .method ∧ d.isAsync = true ∧
      d.returnType = some "Promise<string>" ∧
      d.parameters = [{ name := "url" }, { name := "opts", default := some "f(1)" }] := by
  have hphrase : Phrase "Promise<string>".toList :=
    phrase_of_not_blank (by decide) (noBlank_iff.mp (by decide))
  have h : Header.Signature.WellFormed .javaScript
      { indent := [' ', ' '], isAsync := true, name := "load".toList,
        parameters := "url, opts = f(1)".toList, returnType := some "Promise<string>".toList } := {
    isIndent := by simp [isIndent]
    isName := ⟨'l', ['o', 'a', 'd'], rfl, rfl, List.all_eq_true.mp rfl⟩
    oneLine := by decide
    closed := by decide
    returnType := by
      rintro type ⟨⟩
      exact ⟨hphrase, by simp [Header.stops]⟩ }
  obtain ⟨d, rest, hd, hline, hname, hkind, hasync, htype, hparameters⟩ :=
    extract_shapeLine h (by decide) (by decide) (.method true) " return url; \x7d\nlet x;\n".toList
  refine ⟨d, rest, ?_, hline, hname, hkind, hasync, htype, ?_⟩
  · rw [← hd]
    rfl
  · rw [hparameters]
    decide +kernel

end DocComments
