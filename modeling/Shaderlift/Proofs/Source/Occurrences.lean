import Shaderlift.Source.Traversal

/-!
# Walks pass every node once

The parts of an expression, a pattern or a statement are those directly below it, and an occurrence is a path of
positions among parts. A walk over a method passes exactly the occurrences in its default values and its body to the
hooks, each of them once and before the occurrences below it (`visitMethod_passes`).
-/

namespace Shaderlift

inductive Node where
  | expr (expr : Expr)
  | pattern (pattern : Pattern)
  | stmt (stmt : Stmt)

/-! ## Parts -/

def QueryClause.parts : QueryClause → List Node
  | .fromSource _ val | .letValue _ val | .whereTrue val | .selectValue val => [.expr val]
  | .joinSource _ src left right => [.expr src, .expr left, .expr right]
  | .orderBy keys => keys.map .expr
  | .groupBy element key => [.expr element, .expr key]
  | .intoName _ => []

def Expr.parts : Expr → List Node
  | .literal .. | .ident .. | .selfRef _ | .typeWord .. | .defaultOf .. | .sizeOfType .. | .typeOfType .. => []
  | .member _ operand _ _ | .unary _ _ operand | .post _ _ operand | .cast _ _ operand | .asType _ operand _
  | .paren _ operand | .checked _ _ operand | .await _ operand | .throwing _ operand | .refTo _ operand =>
    [.expr operand]
  | .index _ target args | .call _ target _ args => .expr target :: args.map (.expr ·.value)
  | .binary _ _ lhs rhs | .assign _ _ lhs rhs => [.expr lhs, .expr rhs]
  | .conditional _ cond thenExpr elseExpr => [.expr cond, .expr thenExpr, .expr elseExpr]
  | .construct _ _ args init => args.map (.expr ·.value) ++ (init.getD []).map .expr
  | .newArray _ _ sizes init => sizes.map .expr ++ (init.getD []).map .expr
  | .anonymous _ members => members.map (.expr ·.value)
  | .arrayInit _ items => items.map .expr
  | .stackAlloc _ _ size init => size.toList.map .expr ++ (init.getD []).map .expr
  | .isPattern _ operand pattern => [.expr operand, .pattern pattern]
  | .range _ start stop => start.toList.map .expr ++ stop.toList.map .expr
  | .tuple _ items => items.map (.expr ·.value)
  | .query _ clauses => clauses.flatMap (·.parts)

def Pattern.parts : Pattern → List Node
  | .discard _ | .declaration .. | .var .. => []
  | .constant val | .relational _ _ val => [.expr val]
  | .recursive _ _ positional properties _ =>
    (positional.getD []).map (.pattern ·.pattern) ++ (properties.getD []).map (.pattern ·.pattern)
  | .not inner => [.pattern inner]
  | .and lhs rhs | .or lhs rhs => [.pattern lhs, .pattern rhs]

def LocalDecl.parts (decl : LocalDecl) : List Node :=
  decl.declarators.flatMap fun declarator => (declarator.fixedSize.toList ++ declarator.init.toList).map .expr

def ForInit.parts : ForInit → List Node
  | .decl names => names.parts
  | .exprs values => values.map .expr

def SwitchLabel.parts : SwitchLabel → List Node
  | .case pattern guard => .pattern pattern :: guard.toList.map .expr
  | .otherwise => []

def SwitchSection.parts (arm : SwitchSection) : List Node := arm.labels.flatMap (·.parts) ++ arm.stmts.map .stmt

def Block.parts (block : Block) : List Node := block.stmts.map .stmt

def MethodBody.parts : MethodBody → List Node
  | .block body => body.parts
  | .expr val => [.expr val]

/-- The parts of a method are the default values of its parameters and what its body holds. -/
def MethodDecl.parts (method : MethodDecl) : List Node :=
  (method.header.params.flatMap fun param => param.default.toList.map .expr) ++ method.body.toList.flatMap (·.parts)

def Stmt.parts : Stmt → List Node
  | .breaking _ | .continuing _ | .empty _ => []
  | .block _ body | .checkedBlock _ _ body | .unsafeBlock _ body => body.parts
  | .declare _ decl => decl.parts
  | .localFunction _ fn => fn.parts
  | .expr _ val => [.expr val]
  | .returning _ val | .throwing _ val | .yielding _ val => val.toList.map .expr
  | .ifElse _ cond thenBranch elseBranch => .expr cond :: .stmt thenBranch :: elseBranch.toList.map .stmt
  | .whileLoop _ cond body | .doWhile _ body cond | .lock _ cond body | .forEach _ _ _ cond body =>
    [.expr cond, .stmt body]
  | .forLoop _ init cond step body =>
    init.toList.flatMap (·.parts) ++ (cond.toList.map .expr ++ (step.map .expr ++ [.stmt body]))
  | .switchOn _ scrutinee sections =>
    .expr scrutinee :: sections.flatMap (·.parts)
  | .tryCatch _ body catches last =>
    body.parts ++ (catches.flatMap (fun handler => handler.filter.toList.map .expr ++ handler.body.parts) ++
      last.toList.flatMap (·.parts))
  | .usingBlock _ decl val body => decl.toList.flatMap (·.parts) ++ (val.toList.map .expr ++ [.stmt body])
  | .fixedPointer _ decl body => decl.parts ++ [.stmt body]

namespace Node

def parts : Node → List Node
  | .expr val => val.parts
  | .pattern form => form.parts
  | .stmt written => written.parts

theorem sizeOf_lt_of_mem_getD {α : Type} [SizeOf α] {item : α} {list : Option (List α)} (hMem : item ∈ list.getD []) :
    sizeOf item < sizeOf list := by
  cases list with
  | none => cases hMem
  | some list =>
    have hLess := List.sizeOf_lt_of_mem (show item ∈ list from hMem)
    simp only [Option.some.sizeOf_spec]
    omega

variable {node part : Node}

theorem sizeOf_lt_expr {expr : Expr} (hMem : part ∈ expr.parts) : sizeOf part < 1 + sizeOf expr := by
  cases expr <;>
    grind [Expr.parts, QueryClause.parts, → List.sizeOf_lt_of_mem, → sizeOf_lt_of_mem_getD, cases Argument, cases AnonymousMember,
      cases QueryClause]

theorem sizeOf_lt_pattern {pattern : Pattern} (hMem : part ∈ pattern.parts) : sizeOf part < 1 + sizeOf pattern := by
  cases pattern <;> grind [Pattern.parts, → sizeOf_lt_of_mem_getD, cases Subpattern]

theorem sizeOf_le_decl {decl : LocalDecl} (hMem : part ∈ decl.parts) : sizeOf part ≤ sizeOf decl := by
  cases decl
  grind [LocalDecl.parts, → List.sizeOf_lt_of_mem, cases Declarator]

theorem sizeOf_le_label {label : SwitchLabel} (hMem : part ∈ label.parts) : sizeOf part ≤ sizeOf label := by
  cases label <;> grind [SwitchLabel.parts]

theorem sizeOf_le_section {arm : SwitchSection} (hMem : part ∈ arm.parts) : sizeOf part ≤ sizeOf arm := by
  cases arm
  grind [SwitchSection.parts, → List.sizeOf_lt_of_mem, → sizeOf_le_label]

theorem sizeOf_le_method {method : MethodDecl} (hMem : part ∈ method.parts) : sizeOf part ≤ sizeOf method := by
  rcases method with ⟨⟨⟩, _⟩
  grind [MethodDecl.parts, MethodBody.parts, Block.parts, → List.sizeOf_lt_of_mem, cases Param, cases MethodBody, cases Block]

theorem sizeOf_lt_stmt {stmt : Stmt} (hMem : part ∈ stmt.parts) : sizeOf part < 1 + sizeOf stmt := by
  cases stmt <;>
    grind [Stmt.parts, ForInit.parts, Block.parts, → List.sizeOf_lt_of_mem, → sizeOf_le_decl, → sizeOf_le_section,
      → sizeOf_le_method, cases ForInit, cases Block, cases CatchClause]

/-- What holds of a node whenever it holds of its parts, holds of all nodes. -/
theorem induction {motive : Node → Prop} (step : ∀ node, (∀ part ∈ node.parts, motive part) → motive node)
    (node : Node) : motive node :=
  step node fun part _ => induction step part
termination_by sizeOf node
decreasing_by
  cases node with
  | expr => simpa using sizeOf_lt_expr ‹_›
  | pattern => simpa using sizeOf_lt_pattern ‹_›
  | stmt => simpa using sizeOf_lt_stmt ‹_›

end Node

/-! ## Walks -/

/-- Record what is passed to the hooks for expressions, patterns and statements. -/
def tracer : Visitor (List Node) where
  expr expr walk := do
    modify (· ++ [.expr expr])
    walk
  pattern pattern walk := do
    modify (· ++ [.pattern pattern])
    walk
  stmt stmt walk := do
    modify (· ++ [.stmt stmt])
    walk

namespace Node

def visit : Node → StateM (List Node) Unit
  | .expr val => tracer.visitExpr val
  | .pattern form => tracer.visitPattern form
  | .stmt written => tracer.visitStmt written

def visitAll : List Node → StateM (List Node) Unit
  | [] => pure ()
  | node :: rest => do
    node.visit
    visitAll rest

theorem visitAll_append (front back : List Node) : visitAll (front ++ back) = (do visitAll front; visitAll back) := by
  induction front with
  | nil => rfl
  | cons node front ih => simp [visitAll, ih]

@[simp] theorem visitAll_singleton (node : Node) : visitAll [node] = node.visit := bind_pure_unit

/-- A walk over a list is the walk over the parts of its items. -/
theorem eq_visitAll {α : Type} {visitList : List α → StateM (List Node) Unit} {parts : α → List Node}
    (hNil : visitList [] = pure ())
    (hCons : ∀ item rest, visitList (item :: rest) = do visitAll (parts item); visitList rest) (list : List α) :
    visitList list = visitAll (list.flatMap parts) := by
  induction list with
  | nil => exact hNil
  | cons item rest ih => rw [hCons, ih, List.flatMap_cons, visitAll_append]

theorem eq_visitAll_map {α : Type} {visitList : List α → StateM (List Node) Unit} {part : α → Node}
    (hNil : visitList [] = pure ())
    (hCons : ∀ item rest, visitList (item :: rest) = do (part item).visit; visitList rest) (list : List α) :
    visitList list = visitAll (list.map part) := by
  rw [List.map_eq_flatMap]
  exact eq_visitAll hNil (by simpa using hCons) list

end Node

namespace Visitor

open Node

attribute [local simp] visitAll visitAll_append visit

@[local simp] theorem visitExprs_eq : ∀ list, tracer.visitExprs list = visitAll (list.map .expr) :=
  eq_visitAll_map rfl fun _ _ => rfl

theorem visitStmts_eq : ∀ list, tracer.visitStmts list = visitAll (list.map .stmt) := eq_visitAll_map rfl fun _ _ => rfl

theorem visitArgs_eq : ∀ list, tracer.visitArgs list = visitAll (list.map (.expr ·.value)) :=
  eq_visitAll_map rfl (by rintro ⟨⟩ _; rfl)

theorem visitMembers_eq : ∀ list, tracer.visitMembers list = visitAll (list.map (.expr ·.value)) :=
  eq_visitAll_map rfl (by rintro ⟨⟩ _; rfl)

theorem visitSubpatterns_eq : ∀ list, tracer.visitSubpatterns list = visitAll (list.map (.pattern ·.pattern)) :=
  eq_visitAll_map rfl (by rintro ⟨⟩ _; rfl)

@[local simp] theorem visitExpr?_eq (val : Option Expr) : tracer.visitExpr? val = visitAll (val.toList.map .expr) := by
  cases val <;> simp [visitExpr?]

theorem visitInit_eq (init : Option (List Expr)) : tracer.visitInit init = visitAll ((init.getD []).map .expr) := by
  cases init <;> simp [visitInit]

theorem visitSubpatterns?_eq (items : Option (List Subpattern)) :
    tracer.visitSubpatterns? items = visitAll ((items.getD []).map (.pattern ·.pattern)) := by
  cases items <;> simp [visitSubpatterns?, visitSubpatterns_eq]

theorem visitClause_eq (clause : QueryClause) : tracer.visitClause clause = visitAll clause.parts := by
  cases clause <;> simp [visitClause, QueryClause.parts]

theorem visitClauses_eq : ∀ list, tracer.visitClauses list = visitAll (list.flatMap (·.parts)) :=
  eq_visitAll rfl (by simp [visitClauses, visitClause_eq])

/-- Types are not recorded. -/
@[simp] theorem type_tracer (type : TypeExpr) : tracer.type type = pure () := rfl

@[simp] theorem type?_tracer (type : Option TypeExpr) : tracer.type? type = pure () := by
  cases type <;> rfl

@[simp] theorem types_tracer (list : List TypeExpr) : tracer.types list = pure () := by
  induction list with
  | nil => rfl
  | cons type rest ih => simp [types, ih]

theorem visitExpr_eq (expr : Expr) : tracer.visitExpr expr = tracer.expr expr (visitAll expr.parts) := by
  cases expr <;>
    simp [visitExpr, Expr.parts, visitArgs_eq, visitMembers_eq, visitInit_eq, visitClauses_eq]

theorem visitPattern_eq (pattern : Pattern) :
    tracer.visitPattern pattern = tracer.pattern pattern (visitAll pattern.parts) := by
  cases pattern <;> simp [visitPattern, Pattern.parts, visitSubpatterns?_eq]

@[local simp] theorem visitDecl_eq (decl : LocalDecl) : tracer.visitDecl decl = visitAll decl.parts := by
  have hList : ∀ list, tracer.visitDeclarators list = visitAll (list.flatMap fun declarator =>
      (declarator.fixedSize.toList ++ declarator.init.toList).map .expr) :=
    eq_visitAll rfl (by simp [visitDeclarators, visitDeclarator])
  exact hList decl.declarators

theorem visitDecl?_eq (decl : Option LocalDecl) : tracer.visitDecl? decl = visitAll (decl.toList.flatMap (·.parts)) := by
  cases decl <;> simp [visitDecl?]

theorem visitForInit_eq (init : Option ForInit) :
    tracer.visitForInit init = visitAll (init.toList.flatMap (·.parts)) := by
  rcases init with _ | _ | _ <;> simp [visitForInit, ForInit.parts]

theorem visitLabel_eq (label : SwitchLabel) : tracer.visitLabel label = visitAll label.parts := by
  cases label <;> simp [visitLabel, SwitchLabel.parts]

theorem visitLabels_eq : ∀ list, tracer.visitLabels list = visitAll (list.flatMap (·.parts)) :=
  eq_visitAll rfl (by simp [visitLabels, visitLabel_eq])

theorem visitSections_eq : ∀ list, tracer.visitSections list = visitAll (list.flatMap (·.parts)) :=
  eq_visitAll rfl
    (by rintro ⟨⟩ _; simp [visitSections, SwitchSection.parts, visitLabels_eq, visitStmts_eq])

@[local simp] theorem visitBlock_eq (block : Block) : tracer.visitBlock block = visitAll block.parts := by
  cases block
  exact visitStmts_eq _

theorem visitBlock?_eq (block : Option Block) : tracer.visitBlock? block = visitAll (block.toList.flatMap (·.parts)) := by
  cases block <;> simp [visitBlock?]

theorem visitCatches_eq : ∀ list, tracer.visitCatches list = visitAll (list.flatMap fun handler =>
    handler.filter.toList.map .expr ++ handler.body.parts) :=
  eq_visitAll rfl (by rintro ⟨⟩ _; simp [visitCatches])

theorem visitBody?_eq (body : Option MethodBody) : tracer.visitBody? body = visitAll (body.toList.flatMap (·.parts)) := by
  rcases body with _ | _ | _ <;> simp [visitBody?, visitBody, MethodBody.parts]

theorem visitMethod_eq (method : MethodDecl) : tracer.visitMethod method = visitAll method.parts := by
  have hParams : ∀ list, tracer.visitParams list = visitAll (list.flatMap fun param => param.default.toList.map .expr) :=
    eq_visitAll rfl (by simp [visitParams])
  obtain ⟨header, body⟩ := method
  rw [MethodDecl.parts, visitAll_append, ← hParams, ← visitBody?_eq]
  rfl

theorem visitStmt?_eq (stmt : Option Stmt) : tracer.visitStmt? stmt = visitAll (stmt.toList.map .stmt) := by
  cases stmt <;> simp [visitStmt?]

theorem visitStmt_eq (stmt : Stmt) : tracer.visitStmt stmt = tracer.stmt stmt (visitAll stmt.parts) := by
  cases stmt <;>
    simp [visitStmt, Stmt.parts, visitDecl?_eq, visitForInit_eq, visitSections_eq, visitBlock?_eq, visitCatches_eq,
      visitMethod_eq, visitStmt?_eq]

end Visitor

/-- A walk records a node and then walks its parts. -/
theorem Node.visit_eq (node : Node) : node.visit = (do modify (· ++ [node]); visitAll node.parts) := by
  cases node with
  | expr expr => exact Visitor.visitExpr_eq expr
  | pattern pattern => exact Visitor.visitPattern_eq pattern
  | stmt stmt => exact Visitor.visitStmt_eq stmt

/-! ## Occurrences -/

/-- A path of positions leads to an occurrence of a node at or below one of some nodes. -/
def Leads (nodes : List Node) : List Nat → Node → Prop
  | [], _ => False
  | index :: path, part => ∃ node, nodes[index]? = some node ∧ (path = [] ∧ part = node ∨ Leads node.parts path part)

/-- Visits cover some nodes: they are the occurrences at or below them, and none of them comes after itself or after an
occurrence below it. -/
structure Covers (nodes : List Node) (visits : List (List Nat × Node)) : Prop where
  mem : ∀ path node, (path, node) ∈ visits ↔ Leads nodes path node
  order : visits.Pairwise fun earlier later => ¬later.1 <+: earlier.1

namespace Covers

variable {node : Node} {rest : List Node} {below others : List (List Nat × Node)}

/-- The same path, from a list with one more node in front. -/
def bump : List Nat → List Nat
  | [] => []
  | index :: path => (index + 1) :: path

theorem bump_eq_iff {path found : List Nat} : bump path = found ↔
    path = [] ∧ found = [] ∨ ∃ index rest, path = index :: rest ∧ found = (index + 1) :: rest := by
  cases path <;> grind [bump]

theorem ne_nil (hCovers : Covers rest others) {path : List Nat} (hMem : (path, node) ∈ others) : path ≠ [] := by
  rintro rfl
  exact (hCovers.mem _ _).mp hMem

theorem nil : Covers [] [] where
  mem path node := by cases path <;> simp [Leads]
  order := .nil

theorem cons (hBelow : Covers node.parts below) (hRest : Covers rest others) : Covers (node :: rest)
    (([0], node) :: (below.map (.map (0 :: ·) id) ++ others.map (.map bump id))) where
  mem path part := by
    rcases path with _ | ⟨_ | index, path⟩
    · simp [Leads, bump_eq_iff, hRest.mem]
    · simp [Leads, bump_eq_iff, hBelow.mem]
    · simp [Leads, bump_eq_iff, hRest.mem]
  order := by
    have hBump : ∀ first second, bump first <+: bump second ↔ first <+: second := by
      rintro (_ | _) (_ | _) <;> simp [bump]
    have hApart : ∀ {path part} after, (path, part) ∈ others → ¬bump path <+: 0 :: after := by
      rintro (_ | _) part after hMem
      · exact absurd rfl (hRest.ne_nil hMem)
      · simp [bump]
    refine List.pairwise_cons.mpr ⟨?_, List.pairwise_append.mpr ⟨?_, ?_, ?_⟩⟩
    · have hFirst : ∀ {path part}, (path, part) ∈ below → ¬0 :: path <+: [0] := fun hMem => by simp [hBelow.ne_nil hMem]
      grind
    · simpa [List.pairwise_map] using hBelow.order
    · simpa [List.pairwise_map, hBump] using hRest.order
    · grind

end Covers

/-- The walk over some nodes passes the visits that cover them. -/
def Passes (nodes : List Node) : Prop :=
  ∃ visits, Covers nodes visits ∧ ∀ log, Node.visitAll nodes log = ((), log ++ visits.map Prod.snd)

theorem passes_of_parts {nodes : List Node} (hParts : ∀ node ∈ nodes, Passes node.parts) : Passes nodes := by
  induction nodes with
  | nil => exact ⟨[], .nil, fun log => congrArg _ log.append_nil.symm⟩
  | cons node rest ih =>
    obtain ⟨below, hBelow, hWalk⟩ := hParts node (by simp)
    obtain ⟨others, hRest, hOthers⟩ := ih fun node hMem => hParts node (by simp [hMem])
    refine ⟨_, .cons hBelow hRest, fun log => ?_⟩
    have hNode : Node.visitAll (node :: rest) log =
        Node.visitAll rest (Node.visitAll node.parts (log ++ [node])).2 := by
      rw [Node.visitAll, Node.visit_eq]
      rfl
    simp [hNode, hWalk, hOthers, Function.comp_def]

/-- A walk over a method passes the occurrences of expressions, patterns and statements in its default values and its
body to the hooks, each of them once and before the occurrences below it. -/
theorem visitMethod_passes (method : MethodDecl) (log : List Node) :
    ∃ visits : List (List Nat × Node),
      tracer.visitMethod method log = ((), log ++ visits.map Prod.snd) ∧
      (∀ path node, (path, node) ∈ visits ↔ Leads method.parts path node) ∧
      (visits.map Prod.fst).Nodup ∧ visits.Pairwise fun earlier later => ¬later.1 <+: earlier.1 := by
  obtain ⟨visits, hCovers, hWalk⟩ : Passes method.parts :=
    passes_of_parts fun node _ => Node.induction (fun _ => passes_of_parts) node
  rw [Visitor.visitMethod_eq]
  refine ⟨visits, hWalk log, hCovers.mem, ?_, hCovers.order⟩
  refine List.pairwise_map.mpr (hCovers.order.imp ?_)
  rintro earlier later hOrder hSame
  exact hOrder (hSame ▸ List.prefix_rfl)

end Shaderlift
