import Shaderlift.Source.Tree.Type

/-!
Expressions and patterns. The tree stays close to the text: parentheses are nodes, and constructs that
no shader may contain are nodes too, so that they can be reported at their place.
-/

namespace Shaderlift

/-- The suffix of an integer literal, whatever its case and order. -/
inductive IntSuffix where
  | none
  | u
  | l
  | ul
  deriving DecidableEq, Repr, Inhabited

def IntSuffix.spelling : IntSuffix → String
  | .none => ""
  | .u => "u"
  | .l => "l"
  | .ul => "ul"

/-- The suffix of a real literal, whatever its case. -/
inductive RealSuffix where
  | f
  | d
  | m
  deriving DecidableEq, Repr, Inhabited

def RealSuffix.spelling : RealSuffix → String
  | .f => "f"
  | .d => "d"
  | .m => "m"

/-- A literal. An integer keeps its text beside its value; a real keeps its digits without underscores. -/
inductive Literal where
  | int (text : String) (value : Nat) (suffix : IntSuffix)
  | real (digits : String) (suffix : Option RealSuffix)
  | bool (value : Bool)
  | char (value : Char)
  | str (value : String)
  | null
  deriving DecidableEq, Repr, Inhabited

/-- Operators before their operand. -/
inductive UnaryOp where
  | neg | plus | not | bitNot | preInc | preDec | addressOf | deref | indexFromEnd
  deriving DecidableEq, Repr, Inhabited

/-- Operators after their operand. -/
inductive PostOp where
  | inc | dec | nullForgiving
  deriving DecidableEq, Repr, Inhabited

/-- Operators between two operands. -/
inductive BinaryOp where
  | mul | div | rem | add | sub | shl | shr | lt | gt | le | ge | eq | ne
  | bitAnd | bitXor | bitOr | and | or | coalesce
  deriving DecidableEq, Repr, Inhabited

namespace BinaryOp

def spelling : BinaryOp → String
  | .mul => "*" | .div => "/" | .rem => "%" | .add => "+" | .sub => "-"
  | .shl => "<<" | .shr => ">>" | .lt => "<" | .gt => ">" | .le => "<=" | .ge => ">="
  | .eq => "==" | .ne => "!=" | .bitAnd => "&" | .bitXor => "^" | .bitOr => "|"
  | .and => "&&" | .or => "||" | .coalesce => "??"

def isComparison : BinaryOp → Bool
  | .lt | .gt | .le | .ge | .eq | .ne => true
  | _ => false

end BinaryOp

/-- Assignment operators. -/
inductive AssignOp where
  | assign | add | sub | mul | div | rem | bitAnd | bitOr | bitXor | shl | shr | coalesce
  deriving DecidableEq, Repr, Inhabited

def AssignOp.spelling : AssignOp → String
  | .assign => "=" | .add => "+=" | .sub => "-=" | .mul => "*=" | .div => "/=" | .rem => "%="
  | .bitAnd => "&=" | .bitOr => "|=" | .bitXor => "^=" | .shl => "<<=" | .shr => ">>="
  | .coalesce => "??="

/-- How a parameter or an argument is passed: by reference in one of three ways, as the receiver of an
extension method, or as the rest of the arguments. -/
inductive Passing where
  | byRef | byOut | byIn | receiver | rest
  deriving DecidableEq, Repr, Inhabited

mutual

/-- An expression with its place. -/
inductive Expr where
  | literal (span : Span) (value : Literal)
  | ident (span : Span) (name : String)
  | selfRef (span : Span)
  | typeWord (span : Span) (name : String)
  | member (span : Span) (target : Expr) (name : String) (conditional : Bool)
  | index (span : Span) (target : Expr) (args : List Argument)
  | call (span : Span) (callee : Expr) (typeArgs : List TypeExpr) (args : List Argument)
  | unary (span : Span) (op : UnaryOp) (operand : Expr)
  | post (span : Span) (op : PostOp) (operand : Expr)
  | binary (span : Span) (op : BinaryOp) (lhs rhs : Expr)
  | assign (span : Span) (op : AssignOp) (target value : Expr)
  | conditional (span : Span) (cond thenExpr elseExpr : Expr)
  | cast (span : Span) (type : TypeExpr) (operand : Expr)
  | asType (span : Span) (operand : Expr) (type : TypeExpr)
  | paren (span : Span) (inner : Expr)
  | construct (span : Span) (type : Option TypeExpr) (args : List Argument) (init : Option (List Expr))
  | newArray (span : Span) (element : TypeExpr) (sizes : List Expr) (init : Option (List Expr))
  | anonymous (span : Span) (members : List AnonymousMember)
  | arrayInit (span : Span) (items : List Expr)
  | defaultOf (span : Span) (type : Option TypeExpr)
  | sizeOfType (span : Span) (type : TypeExpr)
  | typeOfType (span : Span) (type : TypeExpr)
  | stackAlloc (span : Span) (type : TypeExpr) (size : Option Expr) (init : Option (List Expr))
  | checked (span : Span) (unchecked : Bool) (inner : Expr)
  | await (span : Span) (operand : Expr)
  | throwing (span : Span) (operand : Expr)
  | refTo (span : Span) (operand : Expr)
  | isPattern (span : Span) (operand : Expr) (pattern : Pattern)
  | range (span : Span) (start stop : Option Expr)
  | tuple (span : Span) (items : List Argument)
  | query (span : Span) (clauses : List QueryClause)

/-- An argument of a call, an index or a tuple. -/
structure Argument where
  name : Option String
  passing : Option Passing
  value : Expr

/-- A member of an anonymous object. -/
structure AnonymousMember where
  name : Option String
  value : Expr

/-- A pattern. Patterns built from others have the place of their parts. -/
inductive Pattern where
  | discard (span : Span)
  | constant (value : Expr)
  | relational (span : Span) (op : BinaryOp) (value : Expr)
  | recursive (span : Span) (type : Option TypeExpr) (positional properties : Option (List Subpattern))
      (designation : Option String)
  | declaration (span : Span) (type : TypeExpr) (name : String)
  | var (span : Span) (name : String)
  | not (inner : Pattern)
  | and (lhs rhs : Pattern)
  | or (lhs rhs : Pattern)

/-- A pattern inside another, with the name of what it is matched against. -/
structure Subpattern where
  name : Option String
  pattern : Pattern

/-- A clause of a query. -/
inductive QueryClause where
  | fromSource (name : String) (source : Expr)
  | letValue (name : String) (value : Expr)
  | whereTrue (cond : Expr)
  | joinSource (name : String) (source left right : Expr)
  | orderBy (keys : List Expr)
  | selectValue (value : Expr)
  | groupBy (element key : Expr)
  | intoName (name : String)

end

instance : Inhabited Expr := ⟨.selfRef default⟩

instance : Inhabited Pattern := ⟨.discard default⟩

namespace Expr

def span : Expr → Span
  | .literal span _ => span
  | .ident span _ => span
  | .selfRef span => span
  | .typeWord span _ => span
  | .member span _ _ _ => span
  | .index span _ _ => span
  | .call span _ _ _ => span
  | .unary span _ _ => span
  | .post span _ _ => span
  | .binary span _ _ _ => span
  | .assign span _ _ _ => span
  | .conditional span _ _ _ => span
  | .cast span _ _ => span
  | .asType span _ _ => span
  | .paren span _ => span
  | .construct span _ _ _ => span
  | .newArray span _ _ _ => span
  | .anonymous span _ => span
  | .arrayInit span _ => span
  | .defaultOf span _ => span
  | .sizeOfType span _ => span
  | .typeOfType span _ => span
  | .stackAlloc span _ _ _ => span
  | .checked span _ _ => span
  | .await span _ => span
  | .throwing span _ => span
  | .refTo span _ => span
  | .isPattern span _ _ => span
  | .range span _ _ => span
  | .tuple span _ => span
  | .query span _ => span

def ident? : Expr → Option String
  | .ident _ name => some name
  | _ => none

/-- Remove the parentheses around an expression. -/
def unparen : Expr → Expr
  | .paren _ inner => inner.unparen
  | expr => expr

def path? : Expr → Option String
  | .ident _ name => some name
  | .typeWord _ name => some name
  | .member _ target name false => target.path?.map (Text.dotted · name)
  | _ => none

end Expr

def Pattern.span : Pattern → Span
  | .discard span => span
  | .constant value => value.span
  | .relational span _ _ => span
  | .recursive span _ _ _ _ => span
  | .declaration span _ _ => span
  | .var span _ => span
  | .not inner => inner.span
  | .and lhs rhs => lhs.span.through rhs.span
  | .or lhs rhs => lhs.span.through rhs.span

end Shaderlift
