import Shaderlift.Output.Expr
import Shaderlift.Source.Lexeme

/-!
# The marks of a written expression

A written expression is a row of marks: its tokens, each with the part that it plays. The part tells what a
reader may take a token for: a parenthesis may hold an expression, the type of a cast or arguments, and a
closing angle may stand alone or be half of a shift. `OutExpr.marks` lists the marks of a tree, and
`OutExpr.toList_text` says that the text of a tree is the text of its marks.
-/

namespace Shaderlift

open TokenKind (spelling)

/-- The brackets of a written expression, by what they hold. -/
inductive Bracket where
  | group | castType | args | index | braces
  deriving DecidableEq, Repr

namespace Bracket

def opening : Bracket → Punct
  | .index => .lBracket
  | .braces => .lBrace
  | _ => .lParen

def closing : Bracket → Punct
  | .index => .rBracket
  | .braces => .rBrace
  | _ => .rParen

/-- Decide whether brackets hold a list with commas between its items. -/
def isList : Bracket → Bool
  | .args | .index | .braces => true
  | .group | .castType => false

end Bracket

/-- A token of a written expression with the part that it plays. A shift to the right is two marks, of which
the second touches the first. -/
inductive Mark where
  | leaf (kind : TokenKind)
  | dot
  | name (text : String)
  | before (mark : Punct)
  | after (mark : Punct)
  | between (mark : Punct)
  | angle
  | joined (mark : Punct)
  | opens (bracket : Bracket)
  | closes (bracket : Bracket)
  | comma
  | typeName (kind : TokenKind)
  | done
  deriving DecidableEq, Repr

namespace Mark

def kind : Mark → TokenKind
  | .leaf kind => kind
  | .dot => .punct .dot
  | .name text => .ident text
  | .before mark => .punct mark
  | .after mark => .punct mark
  | .between mark => .punct mark
  | .angle => .punct .gt
  | .joined mark => .punct mark
  | .opens bracket => .punct bracket.opening
  | .closes bracket => .punct bracket.closing
  | .comma => .punct .comma
  | .typeName kind => kind
  | .done => .eof

def lead : Mark → List Char
  | .between _ | .angle => [' ']
  | _ => []

def letters (mark : Mark) : List Char := mark.kind.spelling.toList

def trail : Mark → List Char
  | .between _ | .joined _ | .comma => [' ']
  | _ => []

def chars (mark : Mark) : List Char := mark.lead ++ mark.letters ++ mark.trail

def textOf (marks : List Mark) : List Char := marks.flatMap chars

@[simp] theorem textOf_nil : textOf [] = [] := rfl

@[simp] theorem textOf_cons (mark : Mark) (marks : List Mark) :
    textOf (mark :: marks) = mark.chars ++ textOf marks := by
  simp [textOf]

@[simp] theorem textOf_append (front back : List Mark) : textOf (front ++ back) = textOf front ++ textOf back := by
  simp [textOf]

end Mark

def UnaryOp.mark : UnaryOp → Punct
  | .neg => .minus
  | .plus => .plus
  | .not => .bang
  | .bitNot => .tilde
  | .preInc => .plusPlus
  | .preDec => .minusMinus
  | .addressOf => .amp
  | .deref => .star
  | .indexFromEnd => .caret

def PostOp.marks : PostOp → List Mark
  | .inc => [.after .plusPlus]
  | .dec => [.after .minusMinus]
  | .nullForgiving => []

/-- The marks of an operator between two operands. -/
def BinaryOp.marks : BinaryOp → List Mark
  | .mul => [.between .star] | .div => [.between .slash] | .rem => [.between .percent]
  | .add => [.between .plus] | .sub => [.between .minus] | .shl => [.between .shl]
  | .shr => [.angle, .joined .gt] | .lt => [.between .lt] | .gt => [.between .gt]
  | .le => [.between .ltEq] | .ge => [.between .gtEq] | .eq => [.between .eqEq]
  | .ne => [.between .bangEq] | .bitAnd => [.between .amp] | .bitXor => [.between .caret]
  | .bitOr => [.between .pipe] | .and => [.between .ampAmp] | .or => [.between .pipePipe]
  | .coalesce => [.between .questionQuestion]

def AssignOp.marks : AssignOp → List Mark
  | .assign => [.between .eq] | .add => [.between .plusEq] | .sub => [.between .minusEq]
  | .mul => [.between .starEq] | .div => [.between .slashEq] | .rem => [.between .percentEq]
  | .bitAnd => [.between .ampEq] | .bitOr => [.between .pipeEq] | .bitXor => [.between .caretEq]
  | .shl => [.between .shlEq] | .shr => [.angle, .joined .gtEq]
  | .coalesce => [.between .questionQuestionEq]

def TokenKind.ofTypeName (name : String) : TokenKind :=
  if typeWords.contains name then .word name else .ident name

namespace OutExpr

mutual

def marks : OutExpr → List Mark
  | .token kind => [.leaf kind]
  | .qualified name => [.leaf (.ident name)]
  | .member target name => target.marks ++ [.dot, .name name]
  | .index target args => target.marks ++ .opens .index :: listMarks args ++ [.closes .index]
  | .call callee args => callee.marks ++ .opens .args :: listMarks args ++ [.closes .args]
  | .unary op operand => .before op.mark :: operand.marks
  | .post op operand => operand.marks ++ op.marks
  | .binary op lhs rhs => lhs.marks ++ op.marks ++ rhs.marks
  | .assign op target val => target.marks ++ op.marks ++ val.marks
  | .conditional cond thenExpr elseExpr =>
    cond.marks ++ .between .question :: thenExpr.marks ++ .between .colon :: elseExpr.marks
  | .cast type operand =>
    .opens .castType :: .typeName (.ofTypeName type) :: .closes .castType :: operand.marks
  | .paren inner => .opens .group :: inner.marks ++ [.closes .group]
  | .braces items => .opens .braces :: listMarks items ++ [.closes .braces]

def listMarks : List OutExpr → List Mark
  | [] => []
  | [item] => item.marks
  | item :: next :: rest => item.marks ++ .comma :: listMarks (next :: rest)

end

end OutExpr

/-! ## The text of a tree is the text of its marks -/

theorem UnaryOp.spelling_mark (op : UnaryOp) : op.mark.spelling = op.spelling := by
  cases op <;> rfl

theorem PostOp.toList_spelling (op : PostOp) : op.spelling.toList = Mark.textOf op.marks := by
  cases op <;> rfl

theorem BinaryOp.textOf_marks (op : BinaryOp) : Mark.textOf op.marks = ' ' :: op.spelling.toList ++ [' '] := by
  cases op <;> rfl

theorem AssignOp.textOf_marks (op : AssignOp) : Mark.textOf op.marks = ' ' :: op.spelling.toList ++ [' '] := by
  cases op <;> rfl

theorem TokenKind.spelling_ofTypeName (name : String) : (ofTypeName name).spelling = name := by
  unfold ofTypeName
  split <;> rfl

namespace OutExpr

open Mark

attribute [local simp] text marks chars lead letters trail Mark.kind spelling Punct.spelling Bracket.opening
  Bracket.closing

mutual

theorem toList_text (expr : OutExpr) : expr.text.toList = textOf expr.marks := by
  cases expr with
  | token kind | qualified name => simp
  | member target name =>
    have hTarget := toList_text target
    simp [Text.dotted, hTarget]
  | index target args | call target args =>
    have hTarget := toList_text target
    have hArgs := toList_texts args
    simp [hTarget, hArgs]
  | unary op operand =>
    have hOperand := toList_text operand
    simp [hOperand, UnaryOp.spelling_mark, -Punct.spelling]
  | post op operand =>
    have hOperand := toList_text operand
    simp [hOperand, PostOp.toList_spelling]
  | binary op lhs rhs =>
    have hLeft := toList_text lhs
    have hRight := toList_text rhs
    simp [hLeft, hRight, BinaryOp.textOf_marks]
  | assign op target val =>
    have hTarget := toList_text target
    have hVal := toList_text val
    simp [hTarget, hVal, AssignOp.textOf_marks]
  | conditional cond thenExpr elseExpr =>
    have hCond := toList_text cond
    have hThen := toList_text thenExpr
    have hElse := toList_text elseExpr
    simp [hCond, hThen, hElse]
  | cast type operand =>
    have hOperand := toList_text operand
    simp [hOperand, TokenKind.spelling_ofTypeName, -spelling]
    simp
  | paren inner =>
    have hInner := toList_text inner
    simp [hInner]
  | braces items =>
    have hItems := toList_texts items
    simp [hItems]

theorem toList_texts (items : List OutExpr) : (Text.joinWith ", " (texts items)).toList = textOf (listMarks items) := by
  match items with
  | [] => simp [texts, listMarks, Text.joinWith]
  | [item] => simp [texts, listMarks, Text.joinWith, toList_text item]
  | item :: next :: rest =>
    have hItem := toList_text item
    have hRest := toList_texts (next :: rest)
    simp only [texts, Text.joinWith, listMarks, String.toList_append, textOf_append, textOf_cons] at hRest ⊢
    rw [hItem, hRest]
    simp

end

end OutExpr

end Shaderlift
