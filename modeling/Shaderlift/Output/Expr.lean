import Shaderlift.Source.Token
import Shaderlift.Source.Tree.Expr

/-!
Expressions of the output. An expression is lowered to a tree and the tree is written from left to right.
Writing adds no parentheses: those of the source are nodes of the tree.
-/

namespace Shaderlift

def UnaryOp.spelling : UnaryOp → String
  | .neg => "-"
  | .plus => "+"
  | .not => "!"
  | .bitNot => "~"
  | .preInc => "++"
  | .preDec => "--"
  | .addressOf => "&"
  | .deref => "*"
  | .indexFromEnd => "^"

def PostOp.spelling : PostOp → String
  | .inc => "++"
  | .dec => "--"
  | .nullForgiving => ""

def TokenKind.spelling : TokenKind → String
  | .ident name => name
  | .word text => text
  | .int text => text
  | .real text => text
  | .punct mark => mark.spelling
  | .char _ | .str _ | .eof => ""

/-- An expression of the output. Its leaves are names, reserved words and numbers; a name that the source
qualifies is written bare. -/
inductive OutExpr where
  | token (kind : TokenKind)
  | qualified (name : String)
  | member (target : OutExpr) (name : String)
  | index (target : OutExpr) (args : List OutExpr)
  | call (callee : OutExpr) (args : List OutExpr)
  | unary (op : UnaryOp) (operand : OutExpr)
  | post (op : PostOp) (operand : OutExpr)
  | binary (op : BinaryOp) (lhs rhs : OutExpr)
  | assign (op : AssignOp) (target value : OutExpr)
  | conditional (cond thenExpr elseExpr : OutExpr)
  | cast (type : String) (operand : OutExpr)
  | paren (inner : OutExpr)
  | braces (items : List OutExpr)
  deriving Inhabited, Repr

namespace OutExpr

mutual

def text : OutExpr → String
  | .token kind => kind.spelling
  | .qualified name => name
  | .member target name => Text.dotted target.text name
  | .index target args => target.text ++ "[" ++ Text.joinWith ", " (texts args) ++ "]"
  | .call callee args => callee.text ++ "(" ++ Text.joinWith ", " (texts args) ++ ")"
  | .unary op operand => op.spelling ++ operand.text
  | .post op operand => operand.text ++ op.spelling
  | .binary op lhs rhs => lhs.text ++ " " ++ op.spelling ++ " " ++ rhs.text
  | .assign op target value => target.text ++ " " ++ op.spelling ++ " " ++ value.text
  | .conditional cond thenExpr elseExpr => cond.text ++ " ? " ++ thenExpr.text ++ " : " ++ elseExpr.text
  | .cast type operand => "(" ++ type ++ ")" ++ operand.text
  | .paren inner => "(" ++ inner.text ++ ")"
  | .braces items => "\x7b" ++ Text.joinWith ", " (texts items) ++ "\x7d"

def texts : List OutExpr → List String
  | [] => []
  | first :: rest => first.text :: texts rest

end

def ident (name : String) : OutExpr := .token (.ident name)

def word (text : String) : OutExpr := .token (.word text)

def int (text : String) : OutExpr := .token (.int text)

def real (text : String) : OutExpr := .token (.real text)

def typeName (name : String) : OutExpr := if typeWords.contains name then word name else ident name

def pathHead (name : String) : OutExpr := if name == "this" then word name else typeName name

def ofPath (path : String) : OutExpr :=
  match (Text.splitAt '.' path.toList).map String.ofList with
  | first :: rest => rest.foldl .member (pathHead first)
  | [] => pathHead path

end OutExpr

end Shaderlift
