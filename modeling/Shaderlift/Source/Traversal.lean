import Shaderlift.Source.Tree.Decl

/-!
Walks over trees. A visitor has a hook for each syntactic class; a hook gets the node and the action that
walks the node's parts, and decides what to do before and after it, or whether to walk on at all. Parts
are walked in source order, except that the condition of a `do` loop comes before its body and the type of
an `as` before its operand. Attributes are not walked.
-/

namespace Shaderlift

/-- Hooks around the walk over a tree. The hooks of a fresh visitor do nothing but walk on. -/
structure Visitor (σ : Type) where
  expr : Expr → StateM σ Unit → StateM σ Unit := fun _ walk => walk
  pattern : Pattern → StateM σ Unit → StateM σ Unit := fun _ walk => walk
  stmt : Stmt → StateM σ Unit → StateM σ Unit := fun _ walk => walk
  block : Block → StateM σ Unit → StateM σ Unit := fun _ walk => walk
  decl : LocalDecl → StateM σ Unit → StateM σ Unit := fun _ walk => walk
  method : MethodDecl → StateM σ Unit → StateM σ Unit := fun _ walk => walk
  field : FieldDecl → StateM σ Unit → StateM σ Unit := fun _ walk => walk
  typeDecl : TypeDecl → StateM σ Unit → StateM σ Unit := fun _ walk => walk
  type : TypeExpr → StateM σ Unit := fun _ => pure ()

namespace Visitor

variable {σ : Type} (v : Visitor σ)

def type? : Option TypeExpr → StateM σ Unit
  | some type => v.type type
  | none => pure ()

def types : List TypeExpr → StateM σ Unit
  | [] => pure ()
  | type :: rest => do
    v.type type
    types rest

mutual

def visitExpr (expr : Expr) : StateM σ Unit :=
  match expr with
  | .literal span value => v.expr (.literal span value) (pure ())
  | .ident span name => v.expr (.ident span name) (pure ())
  | .selfRef span => v.expr (.selfRef span) (pure ())
  | .typeWord span name => v.expr (.typeWord span name) (pure ())
  | .member span target name conditional => v.expr (.member span target name conditional) (visitExpr target)
  | .index span target args =>
    v.expr (.index span target args) do
      visitExpr target
      visitArgs args
  | .call span callee typeArgs args =>
    v.expr (.call span callee typeArgs args) do
      visitExpr callee
      v.types typeArgs
      visitArgs args
  | .unary span op operand => v.expr (.unary span op operand) (visitExpr operand)
  | .post span op operand => v.expr (.post span op operand) (visitExpr operand)
  | .binary span op lhs rhs =>
    v.expr (.binary span op lhs rhs) do
      visitExpr lhs
      visitExpr rhs
  | .assign span op target value =>
    v.expr (.assign span op target value) do
      visitExpr target
      visitExpr value
  | .conditional span cond thenExpr elseExpr =>
    v.expr (.conditional span cond thenExpr elseExpr) do
      visitExpr cond
      visitExpr thenExpr
      visitExpr elseExpr
  | .cast span type operand =>
    v.expr (.cast span type operand) do
      v.type type
      visitExpr operand
  | .asType span operand type =>
    v.expr (.asType span operand type) do
      v.type type
      visitExpr operand
  | .paren span inner => v.expr (.paren span inner) (visitExpr inner)
  | .construct span type args init =>
    v.expr (.construct span type args init) do
      v.type? type
      visitArgs args
      visitInit init
  | .newArray span element sizes init =>
    v.expr (.newArray span element sizes init) do
      v.type element
      visitExprs sizes
      visitInit init
  | .anonymous span members => v.expr (.anonymous span members) (visitMembers members)
  | .arrayInit span items => v.expr (.arrayInit span items) (visitExprs items)
  | .defaultOf span type => v.expr (.defaultOf span type) (v.type? type)
  | .sizeOfType span type => v.expr (.sizeOfType span type) (v.type type)
  | .typeOfType span type => v.expr (.typeOfType span type) (v.type type)
  | .stackAlloc span type size init =>
    v.expr (.stackAlloc span type size init) do
      v.type type
      visitExpr? size
      visitInit init
  | .checked span unchecked inner => v.expr (.checked span unchecked inner) (visitExpr inner)
  | .await span operand => v.expr (.await span operand) (visitExpr operand)
  | .throwing span operand => v.expr (.throwing span operand) (visitExpr operand)
  | .refTo span operand => v.expr (.refTo span operand) (visitExpr operand)
  | .isPattern span operand pattern =>
    v.expr (.isPattern span operand pattern) do
      visitExpr operand
      visitPattern pattern
  | .range span start stop =>
    v.expr (.range span start stop) do
      visitExpr? start
      visitExpr? stop
  | .tuple span items => v.expr (.tuple span items) (visitArgs items)
  | .query span clauses => v.expr (.query span clauses) (visitClauses clauses)

def visitExpr? : Option Expr → StateM σ Unit
  | some expr => visitExpr expr
  | none => pure ()

def visitExprs : List Expr → StateM σ Unit
  | [] => pure ()
  | expr :: rest => do
    visitExpr expr
    visitExprs rest

def visitInit : Option (List Expr) → StateM σ Unit
  | some items => visitExprs items
  | none => pure ()

def visitArgs : List Argument → StateM σ Unit
  | [] => pure ()
  | ⟨_, _, value⟩ :: rest => do
    visitExpr value
    visitArgs rest

def visitMembers : List AnonymousMember → StateM σ Unit
  | [] => pure ()
  | ⟨_, value⟩ :: rest => do
    visitExpr value
    visitMembers rest

def visitPattern (pattern : Pattern) : StateM σ Unit :=
  match pattern with
  | .discard span => v.pattern (.discard span) (pure ())
  | .constant value => v.pattern (.constant value) (visitExpr value)
  | .relational span op value => v.pattern (.relational span op value) (visitExpr value)
  | .recursive span type positional properties designation =>
    v.pattern (.recursive span type positional properties designation) do
      v.type? type
      visitSubpatterns? positional
      visitSubpatterns? properties
  | .declaration span type name => v.pattern (.declaration span type name) (v.type type)
  | .var span name => v.pattern (.var span name) (pure ())
  | .not inner => v.pattern (.not inner) (visitPattern inner)
  | .and lhs rhs =>
    v.pattern (.and lhs rhs) do
      visitPattern lhs
      visitPattern rhs
  | .or lhs rhs =>
    v.pattern (.or lhs rhs) do
      visitPattern lhs
      visitPattern rhs

def visitSubpatterns : List Subpattern → StateM σ Unit
  | [] => pure ()
  | ⟨_, pattern⟩ :: rest => do
    visitPattern pattern
    visitSubpatterns rest

def visitSubpatterns? : Option (List Subpattern) → StateM σ Unit
  | some items => visitSubpatterns items
  | none => pure ()

def visitClause : QueryClause → StateM σ Unit
  | .fromSource _ source => visitExpr source
  | .letValue _ value => visitExpr value
  | .whereTrue cond => visitExpr cond
  | .joinSource _ source left right => do
    visitExpr source
    visitExpr left
    visitExpr right
  | .orderBy keys => visitExprs keys
  | .selectValue value => visitExpr value
  | .groupBy element key => do
    visitExpr element
    visitExpr key
  | .intoName _ => pure ()

def visitClauses : List QueryClause → StateM σ Unit
  | [] => pure ()
  | clause :: rest => do
    visitClause clause
    visitClauses rest

end

def visitDeclarator (declarator : Declarator) : StateM σ Unit := do
  v.visitExpr? declarator.fixedSize
  v.visitExpr? declarator.init

def visitDeclarators : List Declarator → StateM σ Unit
  | [] => pure ()
  | declarator :: rest => do
    v.visitDeclarator declarator
    visitDeclarators rest

def visitDecl (decl : LocalDecl) : StateM σ Unit :=
  v.decl decl do
    v.type decl.type
    v.visitDeclarators decl.declarators

def visitDecl? : Option LocalDecl → StateM σ Unit
  | some decl => v.visitDecl decl
  | none => pure ()

def visitForInit : Option ForInit → StateM σ Unit
  | some (.decl decl) => v.visitDecl decl
  | some (.exprs exprs) => v.visitExprs exprs
  | none => pure ()

def visitLabel : SwitchLabel → StateM σ Unit
  | .case pattern guard => do
    v.visitPattern pattern
    v.visitExpr? guard
  | .otherwise => pure ()

def visitLabels : List SwitchLabel → StateM σ Unit
  | [] => pure ()
  | label :: rest => do
    v.visitLabel label
    visitLabels rest

def visitParams : List Param → StateM σ Unit
  | [] => pure ()
  | param :: rest => do
    v.type param.type
    v.visitExpr? param.default
    visitParams rest

mutual

def visitStmt (stmt : Stmt) : StateM σ Unit :=
  match stmt with
  | .block span body => v.stmt (.block span body) (visitBlock body)
  | .declare span decl => v.stmt (.declare span decl) (v.visitDecl decl)
  | .localFunction span function => v.stmt (.localFunction span function) (visitMethod function)
  | .expr span value => v.stmt (.expr span value) (v.visitExpr value)
  | .ifElse span cond thenBranch elseBranch =>
    v.stmt (.ifElse span cond thenBranch elseBranch) do
      v.visitExpr cond
      visitStmt thenBranch
      visitStmt? elseBranch
  | .whileLoop span cond body =>
    v.stmt (.whileLoop span cond body) do
      v.visitExpr cond
      visitStmt body
  | .doWhile span body cond =>
    v.stmt (.doWhile span body cond) do
      v.visitExpr cond
      visitStmt body
  | .forLoop span init cond step body =>
    v.stmt (.forLoop span init cond step body) do
      v.visitForInit init
      v.visitExpr? cond
      v.visitExprs step
      visitStmt body
  | .forEach span type name source body =>
    v.stmt (.forEach span type name source body) do
      v.type type
      v.visitExpr source
      visitStmt body
  | .switchOn span scrutinee sections =>
    v.stmt (.switchOn span scrutinee sections) do
      v.visitExpr scrutinee
      visitSections sections
  | .returning span value => v.stmt (.returning span value) (v.visitExpr? value)
  | .breaking span => v.stmt (.breaking span) (pure ())
  | .continuing span => v.stmt (.continuing span) (pure ())
  | .lock span target body =>
    v.stmt (.lock span target body) do
      v.visitExpr target
      visitStmt body
  | .tryCatch span body catches last =>
    v.stmt (.tryCatch span body catches last) do
      visitBlock body
      visitCatches catches
      visitBlock? last
  | .throwing span value => v.stmt (.throwing span value) (v.visitExpr? value)
  | .usingBlock span decl value body =>
    v.stmt (.usingBlock span decl value body) do
      v.visitDecl? decl
      v.visitExpr? value
      visitStmt body
  | .yielding span value => v.stmt (.yielding span value) (v.visitExpr? value)
  | .checkedBlock span unchecked body => v.stmt (.checkedBlock span unchecked body) (visitBlock body)
  | .unsafeBlock span body => v.stmt (.unsafeBlock span body) (visitBlock body)
  | .fixedPointer span decl body =>
    v.stmt (.fixedPointer span decl body) do
      v.visitDecl decl
      visitStmt body
  | .empty span => v.stmt (.empty span) (pure ())

def visitStmt? : Option Stmt → StateM σ Unit
  | some stmt => visitStmt stmt
  | none => pure ()

def visitStmts : List Stmt → StateM σ Unit
  | [] => pure ()
  | stmt :: rest => do
    visitStmt stmt
    visitStmts rest

def visitBlock (block : Block) : StateM σ Unit :=
  match block with
  | ⟨stmts, span⟩ => v.block ⟨stmts, span⟩ (visitStmts stmts)

def visitBlock? : Option Block → StateM σ Unit
  | some block => visitBlock block
  | none => pure ()

def visitSections : List SwitchSection → StateM σ Unit
  | [] => pure ()
  | ⟨labels, stmts, _⟩ :: rest => do
    v.visitLabels labels
    visitStmts stmts
    visitSections rest

def visitCatches : List CatchClause → StateM σ Unit
  | [] => pure ()
  | ⟨type, _, filter, body⟩ :: rest => do
    v.type? type
    v.visitExpr? filter
    visitBlock body
    visitCatches rest

def visitBody : MethodBody → StateM σ Unit
  | .block body => visitBlock body
  | .expr value => v.visitExpr value

def visitBody? : Option MethodBody → StateM σ Unit
  | some body => visitBody body
  | none => pure ()

def visitMethod (method : MethodDecl) : StateM σ Unit :=
  match method with
  | ⟨header, body⟩ =>
    v.method ⟨header, body⟩ do
      v.type header.returnType
      v.visitParams header.params
      visitBody? body

end

def walkMethod (method : MethodDecl) : StateM σ Unit := do
  v.type method.header.returnType
  v.visitParams method.header.params
  v.visitBody? method.body

def visitField (field : FieldDecl) : StateM σ Unit :=
  v.field field do
    v.type field.type
    v.visitDeclarators field.declarators

def visitAccessors : List Accessor → StateM σ Unit
  | [] => pure ()
  | accessor :: rest => do
    v.visitBody? accessor.body
    visitAccessors rest

def visitProperty (property : PropertyDecl) : StateM σ Unit := do
  v.type property.type
  v.visitAccessors property.accessors
  v.visitExpr? property.exprBody
  v.visitExpr? property.init

def visitConstructor (decl : ConstructorDecl) : StateM σ Unit := do
  v.types (decl.params.map Param.type)
  v.visitBody? decl.body

mutual

def visitTypeDecl (decl : TypeDecl) : StateM σ Unit :=
  match decl with
  | ⟨header, members⟩ =>
    v.typeDecl ⟨header, members⟩ do
      v.types header.bases
      visitTypeMembers members

def visitTypeMembers : List Member → StateM σ Unit
  | [] => pure ()
  | member :: rest => do
    visitMember member
    visitTypeMembers rest

def visitMember : Member → StateM σ Unit
  | .field decl => v.visitField decl
  | .method decl => v.visitMethod decl
  | .property decl => v.visitProperty decl
  | .constructor decl => v.visitConstructor decl
  | .type decl => visitTypeDecl decl

end

end Visitor

end Shaderlift
