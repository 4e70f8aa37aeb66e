import Mathlib.Data.List.Chain
import Shaderlift.Proofs.Reading.Marks
import Shaderlift.Source.Parser.Pattern

/-!
# Readable trees

A tree is written without parentheses of its own, so that its text need not be read as the same tree.
`OutExpr.Readable` lists what has to hold for it to be: every node stands where its precedence lets it stand,
no sign runs into the next one, names and numbers are single tokens, no comparison looks like type
arguments, and the limits of the reader are kept.

What the reader needs to know of the marks of such a tree is local. Neighbouring marks fit (`beside`), and
brackets are matched with commas only in lists (`nested`).
-/

namespace Shaderlift

open List
open Bool (and_eq_true or_eq_true)

/-! ## Leaves -/

def Lexeme.isName (text : String) : Bool :=
  text.toList.head?.any Text.isIdentStart && text.toList.all Text.isIdentContinue &&
    !reservedWords.contains text

def Lexeme.startsNumber : List Char → Bool
  | c :: rest => c.isDigit || (c == '.' && startsWithDigit rest)
  | [] => false

def Literal.outline? : Literal → Option TokenKind
  | .int text _ _ => some (.int text)
  | .real digits suffix => some (.real (digits ++ (suffix.map RealSuffix.spelling).getD ""))
  | .bool val => some (.word (if val then "true" else "false"))
  | .char _ | .str _ | .null => none

namespace TokenKind

def readsAsNumber (kind : TokenKind) (text : String) : Bool :=
  Lexeme.startsNumber text.toList && (Lexeme.readNumber text.toList).rest.isEmpty &&
    (Lexeme.readNumber text.toList).value == kind

def isLeaf : TokenKind → Bool
  | .ident name => Lexeme.isName name && name != "await"
  | .word text => text == "this" || text == "true" || text == "false"
  | .int text => readsAsNumber (.int text) text && (Literal.ofInt? text).isSome
  | .real text => readsAsNumber (.real text) text && (Literal.ofReal text).outline? == some (.real text)
  | .char _ | .str _ | .punct _ | .eof => false

end TokenKind

/-! ## Neighbouring marks -/

namespace Mark

def startsOperand : Mark → Bool
  | .leaf _ | .before _ | .opens .group | .opens .castType | .opens .braces => true
  | _ => false

def follows : Mark → Bool
  | .dot | .after _ | .between _ | .angle | .opens .args | .opens .index | .comma | .done => true
  | .closes .castType => false
  | .closes _ => true
  | _ => false

/-- Decide whether a sign before an operand runs into the next sign. -/
def fuses : Punct → Mark → Bool
  | .minus, .before .minus | .minus, .before .minusMinus => true
  | .plus, .before .plus | .plus, .before .plusPlus => true
  | .amp, .before .amp => true
  | _, _ => false

def isJoined : Mark → Bool
  | .joined .gt | .joined .gtEq => true
  | _ => false

def isMemberName : Mark → Bool
  | .name _ => true
  | _ => false

def isTypeName : Mark → Bool
  | .typeName _ => true
  | _ => false

/-- Decide whether marks are those of an operator between two operands. -/
def isInfix : List Mark → Bool
  | [.between _] => true
  | [.angle, mark] => mark.isJoined
  | _ => false

def beside (first second : Mark) : Bool :=
  match first with
  | .leaf kind => second.follows && (!kind.isTypeWord || second == .dot || second == .opens .args)
  | .name _ | .after _ => second.follows
  | .closes .group => second.follows && second != .opens .args
  | .closes .castType => second.startsOperand
  | .closes _ => second.follows
  | .dot => second.isMemberName
  | .angle => second.isJoined
  | .typeName _ => second == .closes .castType
  | .opens .castType => second.isTypeName
  | .opens .args => second.startsOperand || second == .closes .args
  | .opens .braces => second.startsOperand || second == .closes .braces
  | .before mark => second.startsOperand && !fuses mark second
  | .opens _ | .between _ | .joined _ | .comma => second.startsOperand
  | .done => false

/-- The marks of a row fit their neighbours. -/
def Linked (marks : List Mark) : Prop := marks.IsChain fun first second => beside first second = true

/-- Decide whether brackets are matched inside given open ones, with commas only in lists. -/
def nested : List Bracket → List Mark → Bool
  | _, [] => true
  | stack, .opens bracket :: rest => nested (bracket :: stack) rest
  | stack, .closes bracket :: rest => stack.head? == some bracket && nested stack.tail rest
  | stack, .comma :: rest => stack.head?.any Bracket.isList && nested stack rest
  | stack, _ :: rest => nested stack rest

def inNames : Mark → Bool
  | .leaf (.ident _) | .name _ | .dot | .comma => true
  | _ => false

def opensParen (mark : Mark) : Bool := mark.kind == .punct .lParen

/-- Decide whether marks after a name read as type arguments of a call: names in angles, or names with such
arguments of their own at the end, and a parenthesis. -/
def readsAsTypeArgs : List Mark → Bool
  | .between .lt :: rest =>
    match rest.dropWhile inNames with
    | .between .gt :: next :: _ => next.opensParen
    | .between .lt :: inner =>
      match inner.dropWhile inNames with
      | .angle :: .joined .gt :: next :: _ => next.opensParen
      | _ => false
    | _ => false
  | _ => false

def isName : Mark → Bool
  | .leaf (.ident _) | .name _ => true
  | _ => false

def freeOfTypeArgs : List Mark → Bool
  | [] => true
  | mark :: rest => !(mark.isName && readsAsTypeArgs rest) && freeOfTypeArgs rest

end Mark

namespace OutExpr

/-! ## Readable trees -/

/-- How tightly an expression binds: assignments, conditionals and `??` least, then the operators by their
precedence, then signs and casts, and most tightly what an access may be applied to. -/
def level : OutExpr → Nat
  | .assign _ _ _ => 0
  | .conditional _ _ _ => 1
  | .binary op _ _ => op.precedence + 2
  | .unary _ _ | .cast _ _ => 13
  | _ => 14

def first : OutExpr → Mark
  | .token kind => .leaf kind
  | .qualified name => .leaf (.ident name)
  | .member target _ => target.first
  | .index target _ => target.first
  | .call callee _ => callee.first
  | .unary op _ => .before op.mark
  | .post _ operand => operand.first
  | .binary _ lhs _ => lhs.first
  | .assign _ target _ => target.first
  | .conditional cond _ _ => cond.first
  | .cast _ _ => .opens .castType
  | .paren _ => .opens .group
  | .braces _ => .opens .braces

def isTypeWord : OutExpr → Bool
  | .token kind => kind.isTypeWord
  | _ => false

/-- Decide whether an expression stands in parentheses. -/
def isParen : OutExpr → Bool
  | .paren _ => true
  | _ => false

def isBraces : OutExpr → Bool
  | .braces _ => true
  | _ => false

/-- The least level of the left operand of an operator. Operators group to the left, except `??`. -/
def leftLevel : BinaryOp → Nat
  | .coalesce => 3
  | op => op.precedence + 2

/-- The least level of the right operand of an operator. -/
def rightLevel : BinaryOp → Nat
  | .coalesce => 2
  | op => op.precedence + 3

def isTypeText (type : String) : Bool := typeWords.contains type || Lexeme.isName type

mutual

/-- Decide whether every node of an expression stands where its precedence lets it stand and runs into
nothing. -/
def formed : OutExpr → Bool
  | .token kind => kind.isLeaf
  | .qualified name => (TokenKind.ident name).isLeaf
  | .member target name => (target.isTypeWord || 14 ≤ target.level && target.formed) && Lexeme.isName name
  | .index target args => 14 ≤ target.level && target.formed && !args.isEmpty && formedList args
  | .call callee args =>
    (callee.isTypeWord || 14 ≤ callee.level && !callee.isParen && callee.formed) && formedList args
  | .unary op operand => 13 ≤ operand.level && operand.formed && !Mark.fuses op.mark operand.first
  | .post op operand => op != .nullForgiving && 14 ≤ operand.level && operand.formed
  | .binary op lhs rhs => leftLevel op ≤ lhs.level && lhs.formed && rightLevel op ≤ rhs.level && rhs.formed
  | .assign _ target val => 2 ≤ target.level && target.formed && val.formed
  | .conditional cond thenExpr elseExpr =>
    2 ≤ cond.level && cond.formed && thenExpr.formed && elseExpr.formed
  | .cast type operand =>
    isTypeText type && 13 ≤ operand.level && operand.formed &&
      Parser.startsCastOperand (typeWords.contains type) operand.first.kind
  | .paren inner => inner.formed
  | .braces items => formedItems items

def formedList : List OutExpr → Bool
  | [] => true
  | item :: rest => item.formed && formedList rest

def formedItems : List OutExpr → Bool
  | [] => true
  | item :: rest => item.formed && (item.isBraces || item.first != .opens .braces) && formedItems rest

end

/-- The levels of nesting that reading an operand with what stands before it takes, or an expression of a
looser kind with its first operand. -/
def reachOf (level depth : Nat) : Nat := if level < 13 then depth else depth + 1

mutual

/-- The levels of nesting that reading an expression takes. -/
def depth : OutExpr → Nat
  | .token _ | .qualified _ => 0
  | .member target _ => target.depth
  | .index target args => max target.depth (depthList args)
  | .call callee args => max callee.depth (depthList args)
  | .unary _ operand => operand.depth + 1
  | .post _ operand => operand.depth
  | .binary op lhs rhs =>
    max (reachOf lhs.level lhs.depth)
      (if op = .coalesce then reachOf rhs.level rhs.depth else reachOf rhs.level rhs.depth + 1)
  | .assign _ target val => max (reachOf target.level target.depth) (reachOf val.level val.depth + 1)
  | .conditional cond thenExpr elseExpr =>
    max (reachOf cond.level cond.depth)
      (max (reachOf thenExpr.level thenExpr.depth + 1) (reachOf elseExpr.level elseExpr.depth + 1))
  | .cast _ operand => operand.depth + 1
  | .paren inner => reachOf inner.level inner.depth + 1
  | .braces items => depthItems items

def depthList : List OutExpr → Nat
  | [] => 0
  | item :: rest => max (reachOf item.level item.depth + 1) (depthList rest)

def depthItems : List OutExpr → Nat
  | [] => 0
  | item :: rest =>
    max (if item.isBraces then item.depth else reachOf item.level item.depth + 1) (depthItems rest)

end

/-- The levels of nesting that reading an expression with its first operand takes. -/
def reach (expr : OutExpr) : Nat := reachOf expr.level expr.depth

/-- What has to hold of a tree for its text to be read as the tree. -/
structure Readable (expr : OutExpr) : Prop where
  formed : expr.formed = true
  free : Mark.freeOfTypeArgs expr.marks = true
  shallow : expr.reach < maxNesting
  short : expr.text.utf8ByteSize ≤ maxSourceBytes

instance (expr : OutExpr) : Decidable expr.Readable :=
  decidable_of_iff
    (expr.formed = true ∧ Mark.freeOfTypeArgs expr.marks = true ∧ expr.reach < maxNesting ∧
      expr.text.utf8ByteSize ≤ maxSourceBytes)
    ⟨fun ⟨hFormed, hFree, hShallow, hShort⟩ => ⟨hFormed, hFree, hShallow, hShort⟩,
      fun h => ⟨h.formed, h.free, h.shallow, h.short⟩⟩

end OutExpr

/-! ## The marks of a formed tree -/

namespace Mark

theorem Linked.cons {first second : Mark} {rest : List Mark} (hBeside : beside first second = true)
    (hRest : Linked (second :: rest)) : Linked (first :: second :: rest) :=
  isChain_cons_cons.mpr ⟨hBeside, hRest⟩

/-- The marks of an operator fit between two operands. -/
theorem Linked.between {marks : List Mark} (hInfix : isInfix marks = true) {next : Mark} {rest : List Mark}
    (hNext : next.startsOperand = true) (hRest : Linked (next :: rest)) :
    ∃ mark more, marks ++ next :: rest = mark :: more ∧ mark.follows = true ∧ mark ≠ .opens .args ∧
      Linked (mark :: more) := by
  unfold isInfix at hInfix
  split at hInfix
  · exact ⟨_, _, rfl, rfl, by simp, .cons hNext hRest⟩
  · rename_i mark
    refine ⟨_, _, rfl, rfl, by simp, .cons hInfix (.cons ?_ hRest)⟩
    cases mark with
    | joined punct => exact hNext
    | _ => simp [isJoined] at hInfix
  · contradiction

end Mark

theorem TokenKind.isTypeWord_of_isLeaf {kind : TokenKind} (hLeaf : kind.isLeaf = true) : kind.isTypeWord = false := by
  cases kind with
  | word text =>
    simp only [isLeaf, or_eq_true, beq_iff_eq] at hLeaf
    rcases hLeaf with (rfl | rfl) | rfl <;> decide
  | _ => rfl

theorem BinaryOp.isInfix_marks (op : BinaryOp) : Mark.isInfix op.marks = true := by
  cases op <;> rfl

theorem AssignOp.isInfix_marks (op : AssignOp) : Mark.isInfix op.marks = true := by
  cases op <;> rfl

namespace OutExpr

open Mark

theorem exists_marks (expr : OutExpr) : ∃ rest, expr.marks = expr.first :: rest := by
  fun_induction first expr with
  | case1 kind => exact ⟨[], by rw [marks]⟩
  | case2 name => exact ⟨[], by rw [marks]⟩
  | case6 op operand => exact ⟨_, by rw [marks]⟩
  | case11 type operand => exact ⟨_, by rw [marks]⟩
  | case12 inner => exact ⟨_, by rw [marks]; rfl⟩
  | case13 items => exact ⟨_, by rw [marks]; rfl⟩
  | _ =>
    rename_i ih
    obtain ⟨rest, hRest⟩ := ih
    exact ⟨_, by simp only [marks, hRest, cons_append]; rfl⟩

theorem first_startsOperand (expr : OutExpr) : expr.first.startsOperand = true := by
  fun_induction first expr <;> simp_all [Mark.startsOperand]

variable {rest : List Mark} {expr : OutExpr}

theorem linked_cons (prev : Mark) (hBeside : beside prev expr.first = true) (hRest : Linked (expr.marks ++ rest)) :
    Linked (prev :: (expr.marks ++ rest)) := by
  obtain ⟨more, hMore⟩ := expr.exists_marks
  rw [hMore, cons_append] at hRest ⊢
  exact .cons hBeside hRest

theorem formedList_of_formedItems {items : List OutExpr} (hItems : formedItems items = true) :
    formedList items = true := by
  induction items with
  | nil => rfl
  | cons item rest ih =>
    simp only [formedItems, formedList, and_eq_true] at hItems ⊢
    exact ⟨hItems.1.1, ih hItems.2⟩

/-- A reserved word for a type fits before an access to a member or a call. -/
theorem linked_typeWord (hWord : expr.isTypeWord = true) {next : Mark}
    (hNext : next = .dot ∨ next = .opens .args) (hRest : Linked (next :: rest)) :
    Linked (expr.marks ++ next :: rest) := by
  cases expr with
  | token kind =>
    refine .cons ?_ hRest
    rcases hNext with rfl | rfl <;> simp [beside, follows]
  | _ => simp [isTypeWord] at hWord

theorem linked_infix {marks : List Mark} (hInfix : isInfix marks = true) {lhs rhs : OutExpr}
    (hRight : Linked (rhs.marks ++ rest)) (hLeft : ∀ {mark more}, mark.follows = true → mark ≠ .opens .args →
      Linked (mark :: more) → Linked (lhs.marks ++ mark :: more)) :
    Linked (lhs.marks ++ (marks ++ (rhs.marks ++ rest))) := by
  obtain ⟨more, hMore⟩ := rhs.exists_marks
  rw [hMore, cons_append] at hRight ⊢
  obtain ⟨mark, tail, hEq, hFollows, hNotArgs, hLinked⟩ := Linked.between hInfix rhs.first_startsOperand hRight
  exact hEq ▸ hLeft hFollows hNotArgs hLinked

attribute [local simp] marks nested

mutual

/-- The marks of a formed tree fit together, and fit with a mark that may follow. -/
theorem linked_marks {expr : OutExpr} (hFormed : expr.formed = true) {next : Mark} {rest : List Mark}
    (hNext : next.follows = true) (hArgs : next = .opens .args → 14 ≤ expr.level ∧ expr.isParen = false)
    (hRest : Linked (next :: rest)) : Linked (expr.marks ++ next :: rest) := by
  -- No arguments follow what binds less tightly than a call.
  have hOpen : ∀ {inner : OutExpr}, ¬14 ≤ expr.level → next = .opens .args → 14 ≤ inner.level ∧ inner.isParen = false :=
    fun hLevel hEq => absurd (hArgs hEq).1 hLevel
  cases expr with
  | token | qualified =>
    rw [formed] at hFormed
    exact .cons (by simp [beside, hNext, TokenKind.isTypeWord_of_isLeaf hFormed]) hRest
  | member target name =>
    simp only [formed, and_eq_true, or_eq_true] at hFormed
    have hDot : Linked (.dot :: .name name :: next :: rest) := .cons rfl (.cons hNext hRest)
    rw [marks, append_assoc]
    rcases hFormed.1 with hWord | hTarget
    · exact linked_typeWord hWord (.inl rfl) hDot
    · exact linked_marks hTarget.2 rfl (by simp) hDot
  | index target args =>
    simp only [formed, and_eq_true, Bool.not_eq_true', isEmpty_eq_false_iff] at hFormed
    obtain ⟨⟨⟨-, hTarget⟩, hNonempty⟩, hItems⟩ := hFormed
    have hList : Linked (.opens .index :: (listMarks args ++ .closes .index :: next :: rest)) :=
      linked_listMarks hItems (.opens .index) .index (fun _ hStart => hStart) (fun hEmpty => absurd hEmpty hNonempty) rfl
        (.cons hNext hRest)
    simpa using linked_marks hTarget rfl (by simp) hList
  | call callee args =>
    simp only [formed, and_eq_true, or_eq_true, Bool.not_eq_true', decide_eq_true_eq] at hFormed
    have hList : Linked (.opens .args :: (listMarks args ++ .closes .args :: next :: rest)) :=
      linked_listMarks hFormed.2 (.opens .args) .args (fun _ hStart => by simp [beside, hStart]) (fun _ => rfl) rfl
        (.cons hNext hRest)
    have hCallee :
        Linked (callee.marks ++ .opens .args :: (listMarks args ++ .closes .args :: next :: rest)) := by
      rcases hFormed.1 with hWord | hCallee
      · exact linked_typeWord hWord (.inr rfl) hList
      · exact linked_marks hCallee.2 rfl (fun _ => hCallee.1) hList
    simpa using hCallee
  | unary op operand =>
    simp only [formed, and_eq_true] at hFormed
    have hOperand := linked_marks hFormed.1.2 hNext (hOpen (by simp [level])) hRest
    exact linked_cons _ (by simp [beside, operand.first_startsOperand, hFormed.2]) hOperand
  | post op operand =>
    simp only [formed, and_eq_true, bne_iff_ne] at hFormed
    have hAfter : ∀ mark, Linked (operand.marks ++ .after mark :: next :: rest) := fun mark =>
      linked_marks hFormed.2 rfl (by simp) (.cons hNext hRest)
    cases op with
    | nullForgiving => simp at hFormed
    | inc | dec => simpa [PostOp.marks] using hAfter _
  | binary op lhs rhs =>
    simp only [formed, and_eq_true, decide_eq_true_eq] at hFormed
    obtain ⟨⟨⟨-, hLeft⟩, -⟩, hRight⟩ := hFormed
    have hLevel : ¬14 ≤ (binary op lhs rhs).level := by cases op <;> simp [level, BinaryOp.precedence]
    have hOperand := linked_marks hRight hNext (hOpen hLevel) hRest
    simpa using linked_infix op.isInfix_marks hOperand fun hFollows hNotArgs hLinked =>
      linked_marks hLeft hFollows (fun hEq => absurd hEq hNotArgs) hLinked
  | assign op target val =>
    simp only [formed, and_eq_true, decide_eq_true_eq] at hFormed
    have hOperand := linked_marks hFormed.2 hNext (hOpen (by simp [level])) hRest
    simpa using linked_infix op.isInfix_marks hOperand fun hFollows hNotArgs hLinked =>
      linked_marks hFormed.1.2 hFollows (fun hEq => absurd hEq hNotArgs) hLinked
  | conditional cond thenExpr elseExpr =>
    simp only [formed, and_eq_true] at hFormed
    obtain ⟨⟨⟨-, hCond⟩, hThen⟩, hElse⟩ := hFormed
    have hLast := linked_cons (.between .colon) elseExpr.first_startsOperand
      (linked_marks hElse hNext (hOpen (by simp [level])) hRest)
    have hMiddle := linked_cons (.between .question) thenExpr.first_startsOperand
      (linked_marks hThen rfl (by simp) hLast)
    simpa using linked_marks hCond rfl (by simp) hMiddle
  | cast type operand =>
    simp only [formed, and_eq_true] at hFormed
    have hOperand := linked_cons (.closes .castType) operand.first_startsOperand
      (linked_marks hFormed.1.2 hNext (hOpen (by simp [level])) hRest)
    exact .cons rfl (.cons rfl hOperand)
  | paren inner =>
    rw [formed] at hFormed
    have hNotArgs : next ≠ .opens .args := fun hEq => absurd (hArgs hEq).2 (by simp [isParen])
    have hClose : Linked (.closes .group :: next :: rest) := .cons (by simp [beside, hNext, hNotArgs]) hRest
    simpa using linked_cons (.opens .group) inner.first_startsOperand
      (linked_marks hFormed rfl (by simp) hClose)
  | braces items =>
    rw [formed] at hFormed
    simpa using linked_listMarks (formedList_of_formedItems hFormed) (.opens .braces)
      .braces (fun _ hStart => by simp [beside, hStart]) (fun _ => rfl) rfl
      (.cons hNext hRest)

theorem linked_listMarks {items : List OutExpr} (hItems : formedList items = true) (prev : Mark)
    (bracket : Bracket) {rest : List Mark} (hPrev : ∀ mark : Mark, mark.startsOperand = true → beside prev mark = true)
    (hEmpty : items = [] → beside prev (.closes bracket) = true) (hList : bracket.isList = true)
    (hRest : Linked (.closes bracket :: rest)) : Linked (prev :: (listMarks items ++ .closes bracket :: rest)) := by
  have hClose : (Mark.closes bracket).follows = true := by cases bracket <;> simp_all [Bracket.isList, follows]
  match items with
  | [] => exact .cons (hEmpty rfl) hRest
  | [item] =>
    simp only [formedList, Bool.and_true] at hItems
    exact linked_cons prev (hPrev _ item.first_startsOperand) (linked_marks hItems hClose (by simp) hRest)
  | item :: next :: others =>
    rw [formedList, and_eq_true] at hItems
    have hOthers := linked_listMarks hItems.2 .comma bracket (fun _ hStart => hStart) (by simp) hList hRest
    rw [listMarks, append_assoc]
    exact linked_cons prev (hPrev _ item.first_startsOperand) (linked_marks hItems.1 rfl (by simp) hOthers)

end

mutual

/-- A tree closes the brackets that it opens. -/
theorem nested_marks (expr : OutExpr) (stack : List Bracket) (rest : List Mark) :
    nested stack (expr.marks ++ rest) = nested stack rest := by
  cases expr with
  | token | qualified => simp
  | member inner | unary _ inner | cast _ inner | paren inner => simp [nested_marks inner]
  | index target args => simp [nested_marks target, nested_listMarks args .index rfl]
  | call callee args => simp [nested_marks callee, nested_listMarks args .args rfl]
  | post op operand => cases op <;> simp [PostOp.marks, nested_marks operand]
  | binary op lhs rhs =>
    cases op <;> simp [BinaryOp.marks, nested_marks lhs, nested_marks rhs]
  | assign op target val =>
    cases op <;> simp [AssignOp.marks, nested_marks target, nested_marks val]
  | conditional cond thenExpr elseExpr =>
    simp [nested_marks cond, nested_marks thenExpr, nested_marks elseExpr]
  | braces items => simp [nested_listMarks items .braces rfl]

theorem nested_listMarks (items : List OutExpr) (bracket : Bracket) (hList : bracket.isList = true)
    (stack : List Bracket) (rest : List Mark) :
    nested (bracket :: stack) (listMarks items ++ rest) = nested (bracket :: stack) rest := by
  match items with
  | [] => rfl
  | [item] => exact nested_marks item _ _
  | item :: next :: others =>
    simp [listMarks, nested_marks item, hList, nested_listMarks (next :: others) bracket hList]

end

end OutExpr

end Shaderlift
