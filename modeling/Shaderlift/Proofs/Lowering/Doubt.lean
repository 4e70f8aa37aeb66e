import Shaderlift.Proofs.Lowering.Meeting

/-!
# Names in doubt

The rules and lowering follow the scope on their own, and there are four places at which they differ. The rules
walk all initial values of a declaration before any of its names is declared. They declare names whose type is
not written, or is no value, under the types of their own initial values, where lowering takes that of the first.
They walk the condition of a `do` loop before its body. They let the sections of a switch share the frame around
it, where lowering gives each section a frame of its own.

A name is in doubt where the two can have different variables of that name, and a call is in doubt if it mentions
such a name. Which names and calls these are is told from the source alone.
-/

namespace Shaderlift

/-- List the calls of an expression that mention a name in doubt. -/
def Expr.doubtful (doubt : List String) (value : Expr) : List Expr :=
  value.calls.filter fun call => !call.avoids doubt

/-! ## Declarations -/

def LocalDecl.names (decl : LocalDecl) : List String := decl.declarators.map Declarator.name

/-- Decide whether all names of a declaration are declared under one type that is not in doubt: a written type of
a value, or that of the only initial value. -/
def LocalDecl.settles (program : Program) (doubt : List String) (decl : LocalDecl) : Bool :=
  if decl.type.isInferred then
    match decl.declarators with
    | [] => true
    | [declarator] => declarator.init.all (Expr.avoids doubt)
    | _ => false
  else (program.valueType? decl.type).isSome

def LocalDecl.doubtAfter (program : Program) (doubt : List String) (decl : LocalDecl) : List String :=
  if decl.settles program doubt then doubt.filter fun name => !decl.names.contains name else decl.names ++ doubt

/-- List the calls in doubt among the initial values of a declaration. Each name is in doubt in the initial
values after its own. -/
def doubtfulInits (doubt : List String) : List Declarator → List Expr
  | [] => []
  | declarator :: rest =>
    (declarator.init.map (Expr.doubtful doubt)).getD [] ++ doubtfulInits (declarator.name :: doubt) rest

def doubtAfterInit (program : Program) (doubt : List String) : Option ForInit → List String
  | some (.decl decl) => decl.doubtAfter program doubt
  | some (.exprs _) => doubt
  | none => doubt

/-- List the calls in doubt of the start of a `for` loop. -/
def doubtfulInit (doubt : List String) : Option ForInit → List Expr
  | some (.decl decl) => doubtfulInits doubt decl.declarators
  | some (.exprs values) => values.flatMap (Expr.doubtful doubt)
  | none => []

/-! ## Statements -/

mutual

/-- List the names that a statement declares for what comes after it, as the rules see it. -/
def Stmt.declared : Stmt → List String
  | .declare _ decl => decl.names
  | .ifElse _ _ thenBranch elseBranch => thenBranch.declared ++ declaredStmt? elseBranch
  | .whileLoop _ _ body => body.declared
  | .doWhile _ body _ => body.declared
  | .switchOn _ _ sections => declaredSections sections
  | .lock _ _ body => body.declared
  | .usingBlock _ decl _ body => (decl.map LocalDecl.names).getD [] ++ body.declared
  | .fixedPointer _ decl body => decl.names ++ body.declared
  | _ => []

def declaredStmt? : Option Stmt → List String
  | some stmt => stmt.declared
  | none => []

def declaredStmts : List Stmt → List String
  | [] => []
  | stmt :: rest => stmt.declared ++ declaredStmts rest

def declaredSections : List SwitchSection → List String
  | [] => []
  | ⟨_, stmts, _⟩ :: rest => declaredStmts stmts ++ declaredSections rest

end

mutual

def Stmt.doubtAfter (program : Program) (doubt : List String) (stmt : Stmt) : List String :=
  match stmt with
  | .declare _ decl => decl.doubtAfter program doubt
  | .ifElse _ _ thenBranch elseBranch =>
    doubtAfterStmt? program (thenBranch.doubtAfter program doubt) elseBranch
  | .whileLoop _ _ body => body.doubtAfter program doubt
  | .doWhile _ body _ => body.doubtAfter program doubt
  | .switchOn _ _ sections => doubtAfterSections doubt sections
  | _ => doubt

def doubtAfterStmt? (program : Program) (doubt : List String) : Option Stmt → List String
  | some stmt => stmt.doubtAfter program doubt
  | none => doubt

def doubtAfterSections (doubt : List String) : List SwitchSection → List String
  | [] => doubt
  | ⟨_, stmts, _⟩ :: rest => doubtAfterSections (declaredStmts stmts ++ doubt) rest

end

def doubtAfterStmts (program : Program) (doubt : List String) : List Stmt → List String
  | [] => doubt
  | stmt :: rest => doubtAfterStmts program (stmt.doubtAfter program doubt) rest

def SwitchLabel.doubtful (doubt : List String) : SwitchLabel → List Expr
  | .case (.constant val) _ => val.doubtful doubt
  | .case _ _ => []
  | .otherwise => []

mutual

/-- List the calls of a statement that mention a name in doubt. -/
def Stmt.doubtful (program : Program) (doubt : List String) (stmt : Stmt) : List Expr :=
  match stmt with
  | .block _ body => body.doubtful program doubt
  | .unsafeBlock _ body => body.doubtful program doubt
  | .declare _ decl => doubtfulInits doubt decl.declarators
  | .localFunction _ function => function.doubtful program doubt
  | .expr _ val => val.doubtful doubt
  | .ifElse _ cond thenBranch elseBranch =>
    cond.doubtful doubt ++ (thenBranch.doubtful program doubt ++
      doubtfulStmt? program (thenBranch.doubtAfter program doubt) elseBranch)
  | .whileLoop _ cond body => cond.doubtful doubt ++ body.doubtful program doubt
  | .doWhile _ body cond =>
    cond.doubtful (body.declared ++ body.doubtAfter program doubt) ++ body.doubtful program doubt
  | .forLoop _ init cond step body =>
    doubtfulInit doubt init ++
      ((cond.map (Expr.doubtful (doubtAfterInit program doubt init))).getD [] ++
        (step.flatMap (Expr.doubtful (doubtAfterInit program doubt init)) ++
          body.doubtful program (doubtAfterInit program doubt init)))
  | .switchOn _ scrutinee sections => scrutinee.doubtful doubt ++ doubtfulSections program doubt sections
  | .returning _ val => (val.map (Expr.doubtful doubt)).getD []
  | _ => []

def doubtfulStmt? (program : Program) (doubt : List String) : Option Stmt → List Expr
  | some stmt => stmt.doubtful program doubt
  | none => []

def doubtfulStmts (program : Program) (doubt : List String) : List Stmt → List Expr
  | [] => []
  | stmt :: rest => stmt.doubtful program doubt ++ doubtfulStmts program (stmt.doubtAfter program doubt) rest

def Block.doubtful (program : Program) (doubt : List String) (block : Block) : List Expr :=
  match block with
  | ⟨stmts, _⟩ => doubtfulStmts program doubt stmts

def doubtfulSections (program : Program) (doubt : List String) : List SwitchSection → List Expr
  | [] => []
  | ⟨labels, stmts, _⟩ :: rest =>
    labels.flatMap (SwitchLabel.doubtful doubt) ++
      (doubtfulStmts program doubt stmts ++ doubtfulSections program (declaredStmts stmts ++ doubt) rest)

def MethodBody.doubtful (program : Program) (doubt : List String) : MethodBody → List Expr
  | .block body => body.doubtful program doubt
  | .expr val => val.doubtful doubt

def doubtfulBody? (program : Program) (doubt : List String) : Option MethodBody → List Expr
  | some body => body.doubtful program doubt
  | none => []

def MethodDecl.doubtful (program : Program) (doubt : List String) (method : MethodDecl) : List Expr :=
  match method with
  | ⟨_, body⟩ => doubtfulBody? program doubt body

end

/-! ## What the rules declare -/

namespace Legality

open Track

/-- A walk of the rules leaves the scope as it was, but for some names. -/
structure Declaring (names : List String) (check : Check Unit) : Prop where
  scope : ∀ rules : Tracked Findings, (check rules).2.scope.AlikeBut names rules.scope

namespace Declaring

variable {names more : List String} {check check₂ : Check Unit}

theorem of_stays (hStays : ∀ rules : Tracked Findings, (check rules).2.scope = rules.scope) : Declaring [] check :=
  ⟨fun rules => (hStays rules).symm ▸ .refl rules.scope []⟩

theorem seq (hFirst : Declaring names check) (hSecond : Declaring more check₂) :
    Declaring (names ++ more) (do check; check₂) :=
  ⟨fun rules => (hSecond.scope _).after (hFirst.scope rules)⟩

theorem before (hFirst : Declaring [] check) (hSecond : Declaring names check₂) :
    Declaring names (do check; check₂) := hFirst.seq hSecond

end Declaring

section Scopes

variable (prog : Program) (owner : String)

theorem declaring_declareAll (type : TypeExpr) (list : List Declarator) :
    Declaring (list.map Declarator.name) (declareAll prog owner type list) := by
  induction list with
  | nil => exact .of_stays fun _ => rfl
  | cons declarator rest ih =>
    constructor
    intro rules
    let known := Site.declaredType ⟨prog, owner, rules.scope⟩ type declarator.init rules.memo
    let next : Tracked Findings :=
      { rules with memo := known.2, scope := rules.scope.declare declarator.name known.1 }
    have hFirst : next.scope.AlikeBut [declarator.name] rules.scope :=
      (Scope.AlikeBut.declare_right (.refl rules.scope []) declarator.name known.1).symm
    exact (ih.scope next).after hFirst

theorem declaring_visitDecl (decl : LocalDecl) : Declaring decl.names ((visitor prog owner).visitDecl decl) := by
  have hDecl := (closed_scope prog owner).checkDecl decl
  have hShape := (closed_scope prog owner).checkShape decl.type
  have hInits := (scope_visitor prog owner).visitDeclarators decl.declarators
  exact .before (.of_stays hDecl) (.before (.before (.of_stays hShape) (.of_stays hInits))
    (declaring_declareAll prog owner decl.type decl.declarators))

theorem declaring_visitDecl? (decl : Option LocalDecl) :
    Declaring ((decl.map LocalDecl.names).getD []) ((visitor prog owner).visitDecl? decl) := by
  cases decl with
  | none => exact .of_stays fun _ => rfl
  | some decl => exact declaring_visitDecl prog owner decl

theorem scope_visitBlock (body : Block) (rules : Tracked Findings) :
    ((visitor prog owner).visitBlock body rules).2.scope = rules.scope := by
  obtain ⟨stmts, close⟩ := body
  unfold Visitor.visitBlock
  rfl

theorem scope_visitBlock? (body : Option Block) (rules : Tracked Findings) :
    ((visitor prog owner).visitBlock? body rules).2.scope = rules.scope := by
  unfold Visitor.visitBlock?
  cases body with
  | none => rfl
  | some body => exact scope_visitBlock prog owner body rules

theorem scope_visitCatches (catches : List CatchClause) (rules : Tracked Findings) :
    ((visitor prog owner).visitCatches catches rules).2.scope = rules.scope := by
  have hExpr := scope_visitor prog owner
  unfold Visitor.visitCatches
  cases catches with
  | nil => rfl
  | cons clause rest =>
    obtain ⟨type, name, filter, body⟩ := clause
    refine (scope_visitCatches rest _).trans ((scope_visitBlock prog owner body _).trans ?_)
    exact (hExpr.visitExpr? filter _).trans (hExpr.type? type rules)

mutual

/-- The rules leave the scope in which they began to walk a statement as it was, but for the names that the
statement declares. -/
theorem declaring_visitStmt (stmt : Stmt) : Declaring stmt.declared ((visitor prog owner).visitStmt stmt) := by
  have hScope := (closed_scope prog owner).checkStmt stmt
  have hCheck : Declaring [] (checkStmt stmt) := .of_stays hScope
  have hExpr : ∀ val, Declaring [] ((visitor prog owner).visitExpr val) :=
    fun val => .of_stays ((scope_visitor prog owner).visitExpr val)
  have hExpr? : ∀ val, Declaring [] ((visitor prog owner).visitExpr? val) :=
    fun val => .of_stays ((scope_visitor prog owner).visitExpr? val)
  have hBlock : ∀ body, Declaring [] ((visitor prog owner).visitBlock body) :=
    fun body => .of_stays (scope_visitBlock prog owner body)
  unfold Visitor.visitStmt Stmt.declared
  cases stmt with
  | block _ body | unsafeBlock _ body | checkedBlock _ _ body => exact .before hCheck (hBlock body)
  | declare _ decl => exact .before hCheck (declaring_visitDecl prog owner decl)
  | localFunction _ fn =>
    obtain ⟨header, body⟩ := fn
    dsimp only
    unfold Visitor.visitMethod
    exact .before hCheck (.of_stays (scope_checkMethod prog owner false ⟨header, body⟩))
  | forLoop | forEach => exact .of_stays fun rules => hScope rules
  | expr _ val => exact .before hCheck (hExpr val)
  | returning _ val | throwing _ val | yielding _ val => exact .before hCheck (hExpr? val)
  | breaking | continuing | empty => exact hCheck
  | ifElse _ cond thenBranch elseBranch =>
    exact .before hCheck (.before (hExpr cond) (.seq (declaring_visitStmt thenBranch) (declaring_visitStmt? elseBranch)))
  | whileLoop _ cond body | doWhile _ body cond | lock _ cond body =>
    exact .before hCheck (.before (hExpr cond) (declaring_visitStmt body))
  | switchOn _ scrutinee sections => exact .before hCheck (.before (hExpr scrutinee) (declaring_visitSections sections))
  | tryCatch _ body catches last =>
    exact .before hCheck (.before (hBlock body) (.before (.of_stays (scope_visitCatches prog owner catches))
      (.of_stays (scope_visitBlock? prog owner last))))
  | usingBlock _ decl val body =>
    exact .before hCheck (.seq (declaring_visitDecl? prog owner decl) (.before (hExpr? val) (declaring_visitStmt body)))
  | fixedPointer _ decl body =>
    exact .before hCheck (.seq (declaring_visitDecl prog owner decl) (declaring_visitStmt body))

theorem declaring_visitStmt? (stmt : Option Stmt) :
    Declaring (declaredStmt? stmt) ((visitor prog owner).visitStmt? stmt) := by
  unfold Visitor.visitStmt? declaredStmt?
  cases stmt with
  | none => exact .of_stays fun _ => rfl
  | some stmt => exact declaring_visitStmt stmt

theorem declaring_visitStmts (list : List Stmt) :
    Declaring (declaredStmts list) ((visitor prog owner).visitStmts list) := by
  unfold Visitor.visitStmts declaredStmts
  cases list with
  | nil => exact .of_stays fun _ => rfl
  | cons stmt rest => exact .seq (declaring_visitStmt stmt) (declaring_visitStmts rest)

theorem declaring_visitSections (list : List SwitchSection) :
    Declaring (declaredSections list) ((visitor prog owner).visitSections list) := by
  unfold Visitor.visitSections declaredSections
  match list with
  | [] => exact .of_stays fun _ => rfl
  | ⟨labels, stmts, _⟩ :: rest =>
    have hLabels := (scope_visitor prog owner).visitLabels labels
    exact .before (.of_stays hLabels) (.seq (declaring_visitStmts stmts) (declaring_visitSections rest))

end

end Scopes

end Legality

end Shaderlift
