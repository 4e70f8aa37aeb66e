import Shaderlift.Source.Tree.Expr

/-!
Statements and methods. A statement may hold a local function, so both are declared together.
-/

namespace Shaderlift

/-- An attribute; its name is the last segment as written, without the ending `Attribute`. -/
structure Attr where
  name : String
  args : List Argument
  span : Span

/-- The modifiers of a declaration, in the order in which they are listed. -/
inductive Modifier where
  | isPublic | isPrivate | isProtected | isInternal | isFile | isStatic | isReadonly | isConst
  | isUnsafe | isAsync | isPartial | isExternal | isVolatile | isNew | isOverride | isVirtual
  | isAbstract | isSealed | isRef | isFixed | isRequired
  deriving DecidableEq, Repr, Inhabited

def Modifier.all : List Modifier :=
  [.isPublic, .isPrivate, .isProtected, .isInternal, .isFile, .isStatic, .isReadonly, .isConst,
   .isUnsafe, .isAsync, .isPartial, .isExternal, .isVolatile, .isNew, .isOverride, .isVirtual,
   .isAbstract, .isSealed, .isRef, .isFixed, .isRequired]

/-- One name of a declaration, with the size of a fixed buffer and the initial value. -/
structure Declarator where
  name : String
  fixedSize : Option Expr
  init : Option Expr
  span : Span

/-- A parameter. -/
structure Param where
  attributes : List Attr
  passing : Option Passing
  type : TypeExpr
  name : String
  default : Option Expr
  span : Span

/-- A declaration of local variables. -/
structure LocalDecl where
  type : TypeExpr
  declarators : List Declarator
  isConst : Bool
  isUsing : Bool
  span : Span

/-- The start of a `for` loop. -/
inductive ForInit where
  | decl (decl : LocalDecl)
  | exprs (exprs : List Expr)

/-- A label of a switch section. -/
inductive SwitchLabel where
  | case (pattern : Pattern) (guard : Option Expr)
  | otherwise

/-- A method without its body. An explicit interface is named before the method's name. -/
structure MethodHeader where
  attributes : List Attr
  modifiers : List Modifier
  returnType : TypeExpr
  explicitInterface : Option TypeExpr
  name : String
  typeParams : List String
  params : List Param
  span : Span

mutual

/-- A statement with its place. -/
inductive Stmt where
  | block (span : Span) (body : Block)
  | declare (span : Span) (decl : LocalDecl)
  | localFunction (span : Span) (function : MethodDecl)
  | expr (span : Span) (value : Expr)
  | ifElse (span : Span) (cond : Expr) (thenBranch : Stmt) (elseBranch : Option Stmt)
  | whileLoop (span : Span) (cond : Expr) (body : Stmt)
  | doWhile (span : Span) (body : Stmt) (cond : Expr)
  | forLoop (span : Span) (init : Option ForInit) (cond : Option Expr) (step : List Expr) (body : Stmt)
  | forEach (span : Span) (type : TypeExpr) (name : String) (source : Expr) (body : Stmt)
  | switchOn (span : Span) (scrutinee : Expr) (sections : List SwitchSection)
  | returning (span : Span) (value : Option Expr)
  | breaking (span : Span)
  | continuing (span : Span)
  | lock (span : Span) (target : Expr) (body : Stmt)
  | tryCatch (span : Span) (body : Block) (catches : List CatchClause) (last : Option Block)
  | throwing (span : Span) (value : Option Expr)
  | usingBlock (span : Span) (decl : Option LocalDecl) (value : Option Expr) (body : Stmt)
  | yielding (span : Span) (value : Option Expr)
  | checkedBlock (span : Span) (unchecked : Bool) (body : Block)
  | unsafeBlock (span : Span) (body : Block)
  | fixedPointer (span : Span) (decl : LocalDecl) (body : Stmt)
  | empty (span : Span)

/-- A block of statements. -/
structure Block where
  stmts : List Stmt
  span : Span

/-- A section of a switch. -/
structure SwitchSection where
  labels : List SwitchLabel
  stmts : List Stmt
  span : Span

/-- A handler of a `try` statement. -/
structure CatchClause where
  type : Option TypeExpr
  name : Option String
  filter : Option Expr
  body : Block

/-- The body of a method. -/
inductive MethodBody where
  | block (body : Block)
  | expr (value : Expr)

/-- A method: its header and, unless it is only declared, its body. -/
structure MethodDecl where
  header : MethodHeader
  body : Option MethodBody

end

instance : Inhabited Stmt := ⟨.empty default⟩

def Stmt.span : Stmt → Span
  | .block span _ => span
  | .declare span _ => span
  | .localFunction span _ => span
  | .expr span _ => span
  | .ifElse span _ _ _ => span
  | .whileLoop span _ _ => span
  | .doWhile span _ _ => span
  | .forLoop span _ _ _ _ => span
  | .forEach span _ _ _ _ => span
  | .switchOn span _ _ => span
  | .returning span _ => span
  | .breaking span => span
  | .continuing span => span
  | .lock span _ _ => span
  | .tryCatch span _ _ _ => span
  | .throwing span _ => span
  | .usingBlock span _ _ _ => span
  | .yielding span _ => span
  | .checkedBlock span _ _ => span
  | .unsafeBlock span _ => span
  | .fixedPointer span _ _ => span
  | .empty span => span

namespace MethodDecl

def name (method : MethodDecl) : String := method.header.name

def params (method : MethodDecl) : List Param := method.header.params

def span (method : MethodDecl) : Span := method.header.span

end MethodDecl

end Shaderlift
