import Shaderlift.Source.Traversal

/-!
# Properties of all nodes of a tree

A test looks at one node; `all` asks it of every node at every depth, in the order in which a visitor
walks. The main result relates the two: what each hook of a visitor says about its own node, a whole walk
says about the whole tree (`Visitor.Respects`), and so do two visitors that walk side by side
(`Visitor.Relates`). The relation between an action and what it says is left open, so that one induction over
the syntax serves every pass that is written as a visitor.
-/

namespace Shaderlift

/-- A test of single nodes. -/
structure NodeTest where
  expr : Expr → Bool
  pattern : Pattern → Bool
  stmt : Stmt → Bool
  decl : LocalDecl → Bool

def NodeTest.any : NodeTest := ⟨fun _ => true, fun _ => true, fun _ => true, fun _ => true⟩

/-! ## Expressions and patterns -/

mutual

def Expr.all (test : NodeTest) (expr : Expr) : Bool :=
  match expr with
  | .literal span val => test.expr (.literal span val)
  | .ident span name => test.expr (.ident span name)
  | .selfRef span => test.expr (.selfRef span)
  | .typeWord span name => test.expr (.typeWord span name)
  | .member span target name conditional =>
    test.expr (.member span target name conditional) && target.all test
  | .index span target args => test.expr (.index span target args) && (target.all test && allArgs test args)
  | .call span callee typeArgs args =>
    test.expr (.call span callee typeArgs args) && (callee.all test && allArgs test args)
  | .unary span op operand => test.expr (.unary span op operand) && operand.all test
  | .post span op operand => test.expr (.post span op operand) && operand.all test
  | .binary span op lhs rhs => test.expr (.binary span op lhs rhs) && (lhs.all test && rhs.all test)
  | .assign span op target val =>
    test.expr (.assign span op target val) && (target.all test && val.all test)
  | .conditional span cond thenExpr elseExpr =>
    test.expr (.conditional span cond thenExpr elseExpr) &&
      (cond.all test && (thenExpr.all test && elseExpr.all test))
  | .cast span type operand => test.expr (.cast span type operand) && operand.all test
  | .asType span operand type => test.expr (.asType span operand type) && operand.all test
  | .paren span inner => test.expr (.paren span inner) && inner.all test
  | .construct span type args init =>
    test.expr (.construct span type args init) && (allArgs test args && allInit test init)
  | .newArray span element sizes init =>
    test.expr (.newArray span element sizes init) && (allExprs test sizes && allInit test init)
  | .anonymous span members => test.expr (.anonymous span members) && allMembers test members
  | .arrayInit span items => test.expr (.arrayInit span items) && allExprs test items
  | .defaultOf span type => test.expr (.defaultOf span type)
  | .sizeOfType span type => test.expr (.sizeOfType span type)
  | .typeOfType span type => test.expr (.typeOfType span type)
  | .stackAlloc span type size init =>
    test.expr (.stackAlloc span type size init) && (allExpr? test size && allInit test init)
  | .checked span unchecked inner => test.expr (.checked span unchecked inner) && inner.all test
  | .await span operand => test.expr (.await span operand) && operand.all test
  | .throwing span operand => test.expr (.throwing span operand) && operand.all test
  | .refTo span operand => test.expr (.refTo span operand) && operand.all test
  | .isPattern span operand pattern =>
    test.expr (.isPattern span operand pattern) && (operand.all test && pattern.all test)
  | .range span start stop => test.expr (.range span start stop) && (allExpr? test start && allExpr? test stop)
  | .tuple span items => test.expr (.tuple span items) && allArgs test items
  | .query span clauses => test.expr (.query span clauses) && allClauses test clauses

def allExpr? (test : NodeTest) : Option Expr → Bool
  | some expr => expr.all test
  | none => true

def allExprs (test : NodeTest) : List Expr → Bool
  | [] => true
  | expr :: rest => expr.all test && allExprs test rest

def allInit (test : NodeTest) : Option (List Expr) → Bool
  | some items => allExprs test items
  | none => true

def allArgs (test : NodeTest) : List Argument → Bool
  | [] => true
  | ⟨_, _, val⟩ :: rest => val.all test && allArgs test rest

def allMembers (test : NodeTest) : List AnonymousMember → Bool
  | [] => true
  | ⟨_, val⟩ :: rest => val.all test && allMembers test rest

def Pattern.all (test : NodeTest) (pattern : Pattern) : Bool :=
  match pattern with
  | .discard span => test.pattern (.discard span)
  | .constant val => test.pattern (.constant val) && val.all test
  | .relational span op val => test.pattern (.relational span op val) && val.all test
  | .recursive span type positional properties designation =>
    test.pattern (.recursive span type positional properties designation) &&
      (allSubpatterns? test positional && allSubpatterns? test properties)
  | .declaration span type name => test.pattern (.declaration span type name)
  | .var span name => test.pattern (.var span name)
  | .not inner => test.pattern (.not inner) && inner.all test
  | .and lhs rhs => test.pattern (.and lhs rhs) && (lhs.all test && rhs.all test)
  | .or lhs rhs => test.pattern (.or lhs rhs) && (lhs.all test && rhs.all test)

def allSubpatterns (test : NodeTest) : List Subpattern → Bool
  | [] => true
  | ⟨_, pattern⟩ :: rest => pattern.all test && allSubpatterns test rest

def allSubpatterns? (test : NodeTest) : Option (List Subpattern) → Bool
  | some items => allSubpatterns test items
  | none => true

def QueryClause.all (test : NodeTest) : QueryClause → Bool
  | .fromSource _ src => src.all test
  | .letValue _ val => val.all test
  | .whereTrue cond => cond.all test
  | .joinSource _ src left right => src.all test && (left.all test && right.all test)
  | .orderBy keys => allExprs test keys
  | .selectValue val => val.all test
  | .groupBy element key => element.all test && key.all test
  | .intoName _ => true

def allClauses (test : NodeTest) : List QueryClause → Bool
  | [] => true
  | clause :: rest => clause.all test && allClauses test rest

end

/-! ## Declarations and statements -/

/-- Ask a test of the size and initial value of a declared name. -/
def Declarator.all (test : NodeTest) (declarator : Declarator) : Bool :=
  allExpr? test declarator.fixedSize && allExpr? test declarator.init

def LocalDecl.all (test : NodeTest) (decl : LocalDecl) : Bool :=
  test.decl decl && decl.declarators.all fun declarator => declarator.all test

/-- Ask a test of the start of a `for` loop. -/
def allForInit (test : NodeTest) : Option ForInit → Bool
  | some (.decl decl) => decl.all test
  | some (.exprs exprs) => allExprs test exprs
  | none => true

def SwitchLabel.all (test : NodeTest) : SwitchLabel → Bool
  | .case pattern guard => pattern.all test && allExpr? test guard
  | .otherwise => true

/-- Ask a test of the default values of parameters. -/
def allParams (test : NodeTest) (params : List Param) : Bool :=
  params.all fun param => allExpr? test param.default

mutual

def Stmt.all (test : NodeTest) (stmt : Stmt) : Bool :=
  match stmt with
  | .block span body => test.stmt (.block span body) && body.all test
  | .declare span decl => test.stmt (.declare span decl) && decl.all test
  | .localFunction span function => test.stmt (.localFunction span function) && function.all test
  | .expr span val => test.stmt (.expr span val) && val.all test
  | .ifElse span cond thenBranch elseBranch =>
    test.stmt (.ifElse span cond thenBranch elseBranch) &&
      (cond.all test && (thenBranch.all test && allStmt? test elseBranch))
  | .whileLoop span cond body => test.stmt (.whileLoop span cond body) && (cond.all test && body.all test)
  | .doWhile span body cond => test.stmt (.doWhile span body cond) && (cond.all test && body.all test)
  | .forLoop span init cond step body =>
    test.stmt (.forLoop span init cond step body) &&
      (allForInit test init && (allExpr? test cond && (allExprs test step && body.all test)))
  | .forEach span type name src body =>
    test.stmt (.forEach span type name src body) && (src.all test && body.all test)
  | .switchOn span scrutinee sections =>
    test.stmt (.switchOn span scrutinee sections) && (scrutinee.all test && allSections test sections)
  | .returning span val => test.stmt (.returning span val) && allExpr? test val
  | .breaking span => test.stmt (.breaking span)
  | .continuing span => test.stmt (.continuing span)
  | .lock span target body => test.stmt (.lock span target body) && (target.all test && body.all test)
  | .tryCatch span body catches last =>
    test.stmt (.tryCatch span body catches last) &&
      (body.all test && (allCatches test catches && allBlock? test last))
  | .throwing span val => test.stmt (.throwing span val) && allExpr? test val
  | .usingBlock span decl val body =>
    test.stmt (.usingBlock span decl val body) &&
      ((decl.map (LocalDecl.all test)).getD true && (allExpr? test val && body.all test))
  | .yielding span val => test.stmt (.yielding span val) && allExpr? test val
  | .checkedBlock span unchecked body => test.stmt (.checkedBlock span unchecked body) && body.all test
  | .unsafeBlock span body => test.stmt (.unsafeBlock span body) && body.all test
  | .fixedPointer span decl body => test.stmt (.fixedPointer span decl body) && (decl.all test && body.all test)
  | .empty span => test.stmt (.empty span)

def allStmt? (test : NodeTest) : Option Stmt → Bool
  | some stmt => stmt.all test
  | none => true

def allStmts (test : NodeTest) : List Stmt → Bool
  | [] => true
  | stmt :: rest => stmt.all test && allStmts test rest

def Block.all (test : NodeTest) (block : Block) : Bool :=
  match block with
  | ⟨stmts, _⟩ => allStmts test stmts

def allBlock? (test : NodeTest) : Option Block → Bool
  | some block => block.all test
  | none => true

def allSections (test : NodeTest) : List SwitchSection → Bool
  | [] => true
  | ⟨labels, stmts, _⟩ :: rest =>
    labels.all (SwitchLabel.all test) && (allStmts test stmts && allSections test rest)

def allCatches (test : NodeTest) : List CatchClause → Bool
  | [] => true
  | ⟨_, _, filter, body⟩ :: rest => allExpr? test filter && (body.all test && allCatches test rest)

def MethodBody.all (test : NodeTest) : MethodBody → Bool
  | .block body => body.all test
  | .expr val => val.all test

def allBody? (test : NodeTest) : Option MethodBody → Bool
  | some body => body.all test
  | none => true

def MethodDecl.all (test : NodeTest) (method : MethodDecl) : Bool :=
  match method with
  | ⟨header, body⟩ => allParams test header.params && allBody? test body

end

theorem MethodDecl.allParams_of_all {test : NodeTest} {method : MethodDecl} (hAll : method.all test = true) :
    allParams test method.params = true := by
  match method with
  | ⟨header, body⟩ =>
    unfold MethodDecl.all at hAll
    exact (Bool.and_eq_true_iff.mp hAll).1

/-! ## Walks -/

namespace Visitor

variable {σ τ : Type} {v : Visitor σ} {w : Visitor τ} {test : NodeTest}
  {Says : StateM σ Unit × StateM τ Unit → Prop → Prop}

/-- What the hooks of two visitors say about the expressions that they walk side by side. `Says walks claim`
relates two actions to a claim about the tree that they walk: doing nothing says nothing, actions in a row say
what each of them says, and the hook of a node adds that the node passes the test. -/
structure RelatesExprs (v : Visitor σ) (w : Visitor τ) (test : NodeTest)
    (Says : StateM σ Unit × StateM τ Unit → Prop → Prop) : Prop where
  done : Says (pure (), pure ()) True
  seq : ∀ {first second P Q}, Says first P → Says second Q →
    Says (do first.1; second.1, do first.2; second.2) (P ∧ Q)
  weaken : ∀ {walks P Q}, Says walks P → (P → Q) → Says walks Q
  type : ∀ type, Says (v.type type, w.type type) True
  expr : ∀ expr {walks P}, Says walks P →
    Says (v.expr expr walks.1, w.expr expr walks.2) (test.expr expr = true ∧ P)
  pattern : ∀ pattern {walks P}, Says walks P →
    Says (v.pattern pattern walks.1, w.pattern pattern walks.2) (test.pattern pattern = true ∧ P)

/-- What the hooks of two visitors say about all nodes. -/
structure Relates (v : Visitor σ) (w : Visitor τ) (test : NodeTest)
    (Says : StateM σ Unit × StateM τ Unit → Prop → Prop) : Prop extends v.RelatesExprs w test Says where
  stmt : ∀ stmt {walks P}, Says walks P →
    Says (v.stmt stmt walks.1, w.stmt stmt walks.2) (test.stmt stmt = true ∧ P)
  decl : ∀ decl {walks P}, Says walks P →
    Says (v.decl decl walks.1, w.decl decl walks.2) (test.decl decl = true ∧ P)
  block : ∀ block {walks P}, Says walks P → Says (v.block block walks.1, w.block block walks.2) P
  method : ∀ method {walks P}, Says walks P → Says (v.method method walks.1, w.method method walks.2) P

namespace RelatesExprs

variable (h : v.RelatesExprs w test Says)

include h

theorem yes : Says (pure (), pure ()) (true = true) := h.weaken h.done fun _ => rfl

variable {first second walks : StateM σ Unit × StateM τ Unit} {parts : Bool}

theorem both {a b : Bool} (hFirst : Says first (a = true)) (hSecond : Says second (b = true)) :
    Says (do first.1; second.1, do first.2; second.2) ((a && b) = true) :=
  h.weaken (h.seq hFirst hSecond) fun hBoth => Bool.and_eq_true_iff.mpr hBoth

theorem after {P : Prop} (hFirst : Says first True) (hSecond : Says second P) :
    Says (do first.1; second.1, do first.2; second.2) P :=
  h.weaken (h.seq hFirst hSecond) And.right

theorem atLeaf (expr : Expr) (hWalk : Says walks True) :
    Says (v.expr expr walks.1, w.expr expr walks.2) (test.expr expr = true) :=
  h.weaken (h.expr expr hWalk) And.left

theorem atExpr (expr : Expr) (hWalk : Says walks (parts = true)) :
    Says (v.expr expr walks.1, w.expr expr walks.2) ((test.expr expr && parts) = true) :=
  h.weaken (h.expr expr hWalk) fun hBoth => Bool.and_eq_true_iff.mpr hBoth

theorem atPattern (pattern : Pattern) (hWalk : Says walks (parts = true)) :
    Says (v.pattern pattern walks.1, w.pattern pattern walks.2) ((test.pattern pattern && parts) = true) :=
  h.weaken (h.pattern pattern hWalk) fun hBoth => Bool.and_eq_true_iff.mpr hBoth

theorem type? (type : Option TypeExpr) : Says (v.type? type, w.type? type) True := by
  cases type with
  | none => exact h.done
  | some type => exact h.type type

theorem types (list : List TypeExpr) : Says (v.types list, w.types list) True := by
  induction list with
  | nil => exact h.done
  | cons type rest ih => exact h.after (h.type type) ih

mutual

/-- A walk over an expression says that all its nodes pass the test. -/
theorem visitExpr (expr : Expr) : Says (v.visitExpr expr, w.visitExpr expr) (expr.all test = true) := by
  unfold Visitor.visitExpr Expr.all
  cases expr with
  | literal | ident | selfRef | typeWord => exact h.atLeaf _ h.done
  | member _ target => exact h.atExpr _ (visitExpr target)
  | index _ target args => exact h.atExpr _ (h.both (visitExpr target) (visitArgs args))
  | call _ callee typeArgs args =>
    exact h.atExpr _ (h.both (visitExpr callee) (h.after (h.types typeArgs) (visitArgs args)))
  | unary _ _ operand | post _ _ operand | paren _ operand | checked _ _ operand | await _ operand
  | throwing _ operand | refTo _ operand => exact h.atExpr _ (visitExpr operand)
  | binary _ _ lhs rhs | assign _ _ lhs rhs => exact h.atExpr _ (h.both (visitExpr lhs) (visitExpr rhs))
  | conditional _ cond thenExpr elseExpr =>
    exact h.atExpr _ (h.both (visitExpr cond) (h.both (visitExpr thenExpr) (visitExpr elseExpr)))
  | cast _ type operand | asType _ operand type => exact h.atExpr _ (h.after (h.type type) (visitExpr operand))
  | construct _ type args init => exact h.atExpr _ (h.after (h.type? type) (h.both (visitArgs args) (visitInit init)))
  | newArray _ element sizes init =>
    exact h.atExpr _ (h.after (h.type element) (h.both (visitExprs sizes) (visitInit init)))
  | anonymous _ members => exact h.atExpr _ (visitMembers members)
  | arrayInit _ items => exact h.atExpr _ (visitExprs items)
  | defaultOf _ type => exact h.atLeaf _ (h.type? type)
  | sizeOfType _ type | typeOfType _ type => exact h.atLeaf _ (h.type type)
  | stackAlloc _ type size init =>
    exact h.atExpr _ (h.after (h.type type) (h.both (visitExpr? size) (visitInit init)))
  | isPattern _ operand pattern => exact h.atExpr _ (h.both (visitExpr operand) (visitPattern pattern))
  | range _ start stop => exact h.atExpr _ (h.both (visitExpr? start) (visitExpr? stop))
  | tuple _ items => exact h.atExpr _ (visitArgs items)
  | query _ clauses => exact h.atExpr _ (visitClauses clauses)

theorem visitExpr? (expr : Option Expr) : Says (v.visitExpr? expr, w.visitExpr? expr) (allExpr? test expr = true) := by
  unfold Visitor.visitExpr? allExpr?
  cases expr with
  | none => exact h.yes
  | some expr => exact visitExpr expr

theorem visitExprs (exprs : List Expr) :
    Says (v.visitExprs exprs, w.visitExprs exprs) (allExprs test exprs = true) := by
  unfold Visitor.visitExprs allExprs
  cases exprs with
  | nil => exact h.yes
  | cons expr rest => exact h.both (visitExpr expr) (visitExprs rest)

theorem visitInit (init : Option (List Expr)) :
    Says (v.visitInit init, w.visitInit init) (allInit test init = true) := by
  unfold Visitor.visitInit allInit
  cases init with
  | none => exact h.yes
  | some items => exact visitExprs items

theorem visitArgs (args : List Argument) : Says (v.visitArgs args, w.visitArgs args) (allArgs test args = true) := by
  unfold Visitor.visitArgs allArgs
  match args with
  | [] => exact h.yes
  | ⟨_, _, val⟩ :: rest => exact h.both (visitExpr val) (visitArgs rest)

theorem visitMembers (members : List AnonymousMember) :
    Says (v.visitMembers members, w.visitMembers members) (allMembers test members = true) := by
  unfold Visitor.visitMembers allMembers
  match members with
  | [] => exact h.yes
  | ⟨_, val⟩ :: rest => exact h.both (visitExpr val) (visitMembers rest)

theorem visitPattern (pattern : Pattern) :
    Says (v.visitPattern pattern, w.visitPattern pattern) (pattern.all test = true) := by
  unfold Visitor.visitPattern Pattern.all
  cases pattern with
  | discard | var => exact h.weaken (h.pattern _ h.done) And.left
  | constant val | relational _ _ val => exact h.atPattern _ (visitExpr val)
  | recursive _ type positional properties =>
    exact h.atPattern _
      (h.after (h.type? type) (h.both (visitSubpatterns? positional) (visitSubpatterns? properties)))
  | declaration _ type => exact h.weaken (h.pattern _ (h.type type)) And.left
  | not inner => exact h.atPattern _ (visitPattern inner)
  | and lhs rhs | or lhs rhs => exact h.atPattern _ (h.both (visitPattern lhs) (visitPattern rhs))

theorem visitSubpatterns (items : List Subpattern) :
    Says (v.visitSubpatterns items, w.visitSubpatterns items) (allSubpatterns test items = true) := by
  unfold Visitor.visitSubpatterns allSubpatterns
  match items with
  | [] => exact h.yes
  | ⟨_, pattern⟩ :: rest => exact h.both (visitPattern pattern) (visitSubpatterns rest)

theorem visitSubpatterns? (items : Option (List Subpattern)) :
    Says (v.visitSubpatterns? items, w.visitSubpatterns? items) (allSubpatterns? test items = true) := by
  unfold Visitor.visitSubpatterns? allSubpatterns?
  cases items with
  | none => exact h.yes
  | some items => exact visitSubpatterns items

theorem visitClause (clause : QueryClause) :
    Says (v.visitClause clause, w.visitClause clause) (clause.all test = true) := by
  unfold Visitor.visitClause QueryClause.all
  cases clause with
  | fromSource _ val | letValue _ val | whereTrue val | selectValue val => exact visitExpr val
  | joinSource _ src left right => exact h.both (visitExpr src) (h.both (visitExpr left) (visitExpr right))
  | orderBy keys => exact visitExprs keys
  | groupBy element key => exact h.both (visitExpr element) (visitExpr key)
  | intoName => exact h.yes

theorem visitClauses (clauses : List QueryClause) :
    Says (v.visitClauses clauses, w.visitClauses clauses) (allClauses test clauses = true) := by
  unfold Visitor.visitClauses allClauses
  cases clauses with
  | nil => exact h.yes
  | cons clause rest => exact h.both (visitClause clause) (visitClauses rest)

end

theorem visitDeclarator (declarator : Declarator) :
    Says (v.visitDeclarator declarator, w.visitDeclarator declarator) (declarator.all test = true) :=
  h.both (h.visitExpr? declarator.fixedSize) (h.visitExpr? declarator.init)

theorem visitDeclarators (list : List Declarator) : Says (v.visitDeclarators list, w.visitDeclarators list)
      (list.all (fun declarator => declarator.all test) = true) := by
  induction list with
  | nil => exact h.yes
  | cons declarator rest ih => exact h.both (h.visitDeclarator declarator) ih

theorem visitLabel (label : SwitchLabel) : Says (v.visitLabel label, w.visitLabel label) (label.all test = true) := by
  cases label with
  | case pattern guard => exact h.both (h.visitPattern pattern) (h.visitExpr? guard)
  | otherwise => exact h.yes

theorem visitLabels (labels : List SwitchLabel) :
    Says (v.visitLabels labels, w.visitLabels labels) (labels.all (SwitchLabel.all test) = true) := by
  induction labels with
  | nil => exact h.yes
  | cons label rest ih => exact h.both (h.visitLabel label) ih

theorem visitParams (params : List Param) :
    Says (v.visitParams params, w.visitParams params) (allParams test params = true) := by
  induction params with
  | nil => exact h.yes
  | cons param rest ih => exact h.after (h.type param.type) (h.both (h.visitExpr? param.default) ih)

end RelatesExprs

namespace Relates

variable (h : v.Relates w test Says)

include h

theorem atStmt {walks : StateM σ Unit × StateM τ Unit} {parts : Bool} (stmt : Stmt)
    (hWalk : Says walks (parts = true)) : Says (v.stmt stmt walks.1, w.stmt stmt walks.2) ((test.stmt stmt && parts) = true) :=
  h.weaken (h.stmt stmt hWalk) fun hBoth => Bool.and_eq_true_iff.mpr hBoth

theorem visitDecl (decl : LocalDecl) : Says (v.visitDecl decl, w.visitDecl decl) (decl.all test = true) :=
  h.weaken (h.decl decl (h.after (h.type decl.type) (h.visitDeclarators decl.declarators)))
    fun hBoth => Bool.and_eq_true_iff.mpr hBoth

theorem visitDecl? (decl : Option LocalDecl) :
    Says (v.visitDecl? decl, w.visitDecl? decl) ((decl.map (LocalDecl.all test)).getD true = true) := by
  cases decl with
  | none => exact h.yes
  | some decl => exact h.visitDecl decl

theorem visitForInit (init : Option ForInit) :
    Says (v.visitForInit init, w.visitForInit init) (allForInit test init = true) := by
  match init with
  | none => exact h.yes
  | some (.decl decl) => exact h.visitDecl decl
  | some (.exprs exprs) => exact h.visitExprs exprs

mutual

/-- A walk over a statement says that all its nodes pass the test. -/
theorem visitStmt (stmt : Stmt) : Says (v.visitStmt stmt, w.visitStmt stmt) (stmt.all test = true) := by
  unfold Visitor.visitStmt Stmt.all
  cases stmt with
  | block _ body | checkedBlock _ _ body | unsafeBlock _ body => exact h.atStmt _ (visitBlock body)
  | declare _ decl => exact h.atStmt _ (h.visitDecl decl)
  | localFunction _ fn => exact h.atStmt _ (visitMethod fn)
  | expr _ val => exact h.atStmt _ (h.visitExpr val)
  | ifElse _ cond thenBranch elseBranch =>
    exact h.atStmt _ (h.both (h.visitExpr cond) (h.both (visitStmt thenBranch) (visitStmt? elseBranch)))
  | whileLoop _ cond body | doWhile _ body cond | lock _ cond body =>
    exact h.atStmt _ (h.both (h.visitExpr cond) (visitStmt body))
  | forLoop _ init cond step body =>
    exact h.atStmt _ (h.both (h.visitForInit init)
      (h.both (h.visitExpr? cond) (h.both (h.visitExprs step) (visitStmt body))))
  | forEach _ type _ src body =>
    exact h.atStmt _ (h.after (h.type type) (h.both (h.visitExpr src) (visitStmt body)))
  | switchOn _ scrutinee sections => exact h.atStmt _ (h.both (h.visitExpr scrutinee) (visitSections sections))
  | returning _ val | throwing _ val | yielding _ val => exact h.atStmt _ (h.visitExpr? val)
  | breaking | continuing | empty => exact h.weaken (h.stmt _ h.done) And.left
  | tryCatch _ body catches last =>
    exact h.atStmt _ (h.both (visitBlock body) (h.both (visitCatches catches) (visitBlock? last)))
  | usingBlock _ decl val body =>
    exact h.atStmt _ (h.both (h.visitDecl? decl) (h.both (h.visitExpr? val) (visitStmt body)))
  | fixedPointer _ decl body => exact h.atStmt _ (h.both (h.visitDecl decl) (visitStmt body))

theorem visitStmt? (stmt : Option Stmt) : Says (v.visitStmt? stmt, w.visitStmt? stmt) (allStmt? test stmt = true) := by
  unfold Visitor.visitStmt? allStmt?
  cases stmt with
  | none => exact h.yes
  | some stmt => exact visitStmt stmt

theorem visitStmts (stmts : List Stmt) :
    Says (v.visitStmts stmts, w.visitStmts stmts) (allStmts test stmts = true) := by
  unfold Visitor.visitStmts allStmts
  cases stmts with
  | nil => exact h.yes
  | cons stmt rest => exact h.both (visitStmt stmt) (visitStmts rest)

theorem visitBlock (block : Block) : Says (v.visitBlock block, w.visitBlock block) (block.all test = true) := by
  unfold Visitor.visitBlock Block.all
  match block with
  | ⟨stmts, _⟩ => exact h.block _ (visitStmts stmts)

theorem visitBlock? (block : Option Block) :
    Says (v.visitBlock? block, w.visitBlock? block) (allBlock? test block = true) := by
  unfold Visitor.visitBlock? allBlock?
  cases block with
  | none => exact h.yes
  | some block => exact visitBlock block

theorem visitSections (sections : List SwitchSection) :
    Says (v.visitSections sections, w.visitSections sections) (allSections test sections = true) := by
  unfold Visitor.visitSections allSections
  match sections with
  | [] => exact h.yes
  | ⟨labels, stmts, _⟩ :: rest => exact h.both (h.visitLabels labels) (h.both (visitStmts stmts) (visitSections rest))

theorem visitCatches (catches : List CatchClause) :
    Says (v.visitCatches catches, w.visitCatches catches) (allCatches test catches = true) := by
  unfold Visitor.visitCatches allCatches
  match catches with
  | [] => exact h.yes
  | ⟨type, _, filter, body⟩ :: rest =>
    exact h.after (h.type? type) (h.both (h.visitExpr? filter) (h.both (visitBlock body) (visitCatches rest)))

theorem visitBody (body : MethodBody) : Says (v.visitBody body, w.visitBody body) (body.all test = true) := by
  unfold Visitor.visitBody MethodBody.all
  cases body with
  | block body => exact visitBlock body
  | expr val => exact h.visitExpr val

theorem visitBody? (body : Option MethodBody) :
    Says (v.visitBody? body, w.visitBody? body) (allBody? test body = true) := by
  unfold Visitor.visitBody? allBody?
  cases body with
  | none => exact h.yes
  | some body => exact visitBody body

/-- A walk over a method says that all nodes of its default values and its body pass the test. -/
theorem visitMethod (method : MethodDecl) :
    Says (v.visitMethod method, w.visitMethod method) (method.all test = true) := by
  unfold Visitor.visitMethod MethodDecl.all
  match method with
  | ⟨header, body⟩ =>
    exact h.method _ (h.after (h.type header.returnType) (h.both (h.visitParams header.params) (visitBody? body)))

end

theorem walkMethod (method : MethodDecl) :
    Says (v.walkMethod method, w.walkMethod method) (method.all test = true) := by
  unfold MethodDecl.all
  match method with
  | ⟨header, body⟩ =>
    exact h.after (h.type header.returnType) (h.both (h.visitParams header.params) (h.visitBody? body))

end Relates

/-- What the hooks of a visitor say about the expressions that it walks: they are related to themselves. -/
abbrev RespectsExprs (v : Visitor σ) (test : NodeTest) (Says : StateM σ Unit → Prop → Prop) : Prop :=
  v.RelatesExprs v test fun walks => Says walks.1

/-- What the hooks of a visitor say about all nodes. -/
abbrev Respects (v : Visitor σ) (test : NodeTest) (Says : StateM σ Unit → Prop → Prop) : Prop :=
  v.Relates v test fun walks => Says walks.1

end Visitor

end Shaderlift
