import Shaderlift.Analysis.Legality
import Shaderlift.Proofs.Diagnostic.Reports
import Shaderlift.Proofs.Source.Nodes

/-!
# What the rules on single nodes do

The rules on a single node look at the state, tell types and report, and do nothing else unless the node is a
call. A property of actions that these have, and that is kept by doing one after the other, holds of all of them
(`Legality.Closed`). None of the reports is on the numbering of inputs and textures. What is said about every walk over
an expression is then said about the walk over the members of a shader (`Legality.Sweeps`).
-/

namespace Shaderlift

open List

namespace Legality

open Track

/-- A property of actions is closed under what the rules on single nodes do, seen from a type. -/
structure Closed (program : Program) (owner : String) (Has : ∀ {α : Type}, Check α → Prop) : Prop where
  pure : ∀ {α : Type} (value : α), Has (Pure.pure value : Check α)
  bind : ∀ {α β : Type} {first : Check α} {next : α → Check β},
    Has first → (∀ value, Has (next value)) → Has (first >>= next)
  get : Has (MonadState.get : Check (Tracked Findings))
  report : ∀ {rule : Rule}, rule.isOnIndices = false → ∀ span args, Has (report rule span args)
  infer : ∀ expr, Has (recalling program owner fun site => site.infer expr)

namespace Closed

variable {prog : Program} {owner : String} {Has : ∀ {α : Type}, Check α → Prop}

theorem ite {α : Type} {test : Prop} [Decidable test] {first second : Check α} (hFirst : Has first)
    (hSecond : Has second) : Has (if test then first else second) := by
  split
  · exact hFirst
  · exact hSecond

variable (h : Closed prog owner Has)

include h

theorem done : Has (Pure.pure () : Check Unit) := h.pure ()

/-! ## Types and headers -/

theorem checkModifiers (header : MethodHeader) : Has (checkModifiers header) := by
  have hUnsafe : Has (if header.modifiers.contains .isUnsafe then
      Legality.report .unsafeModifier header.span [header.name] else Pure.pure ()) := ite (h.report rfl _ _) h.done
  unfold Legality.checkModifiers
  dsimp only
  split
  · exact h.bind (h.report rfl _ _) fun _ => hUnsafe
  · exact hUnsafe

mutual

theorem checkShape (type : TypeExpr) : Has (checkShape type) := by
  unfold Legality.checkShape
  cases type with
  | named _ _ args => exact checkShapes args
  | array _ element => exact checkShape element
  | nullable _ target => exact checkShape target
  | pointer | functionPointer | tuple | byRef => exact h.report rfl _ _

theorem checkShapes (types : List TypeExpr) : Has (checkShapes types) := by
  unfold Legality.checkShapes
  cases types with
  | nil => exact h.done
  | cons type rest => exact h.bind (checkShape type) fun _ => checkShapes rest

end

theorem checkBodyType (type : TypeExpr) {rule : Rule} (hRule : rule.isOnIndices = false) :
    Has (checkBodyType prog type rule) := by
  unfold Legality.checkBodyType
  split
  · exact h.report hRule _ _
  · exact h.report hRule _ _
  · exact h.report rfl _ _
  · exact h.done
  · exact h.done

/-! ## Expressions and patterns -/

theorem checkDispatch (expr : Expr) : Has (checkDispatch prog owner expr) := by
  unfold Legality.checkDispatch
  refine h.bind h.get fun st => ?_
  split
  · rename_i info _
    exact ite h.done (h.report (by cases info <;> rfl) _ _)
  · exact h.done

theorem checkIndex (span : Span) (target : Expr) (args : List Argument) :
    Has (checkIndex prog owner span target args) := by
  have hRow : Has (indexesRow prog owner args) := by
    unfold indexesRow
    split
    · exact h.bind (h.infer _) fun _ => h.pure _
    · exact h.pure _
  unfold Legality.checkIndex
  refine h.bind (h.infer target) fun type => ?_
  split
  · exact h.bind hRow fun byRow => ite h.done (h.report rfl _ _)
  · exact h.done

theorem checkLiteral (span : Span) (val : Literal) : Has (checkLiteral span val) := by
  cases val with
  | str | char | null => exact h.report rfl _ _
  | bool => exact h.done
  | real _ suffix =>
    cases suffix with
    | none => exact h.done
    | some suffix =>
      cases suffix with
      | m => exact h.report rfl _ _
      | f | d => exact h.done
  | int _ val suffix =>
    cases suffix with
    | ul | l => exact h.report rfl _ _
    | u | none => exact ite (h.report rfl _ _) h.done

theorem checkConstruct (span : Span) (type : Option TypeExpr) (args : List Argument) (init : Option (List Expr)) :
    Has (checkConstruct prog span type args init) := by
  have hInit : Has (if init.isSome then
      Legality.report .unsupportedExpression span ["object initializer"] else Pure.pure ()) :=
    ite (h.report rfl _ _) h.done
  unfold Legality.checkConstruct
  dsimp only
  split
  · split
    · split
      · exact hInit
      · exact h.bind (h.report rfl _ _) fun _ => hInit
    · exact h.bind (h.checkBodyType _ rfl) fun _ => hInit
  · exact hInit

/-- The rules on an expression other than a call have the property. -/
theorem checkExpr (expr : Expr) (hCall : ∀ span callee types args, expr ≠ .call span callee types args) :
    Has (checkExpr prog owner expr) := by
  cases expr with
  | call => exact absurd rfl (hCall _ _ _ _)
  | ident => exact h.checkDispatch _
  | literal span val => exact h.checkLiteral span val
  | construct span type args init => exact h.checkConstruct span type args init
  | cast _ type => exact h.checkBodyType type rfl
  | index span target args => exact h.checkIndex span target args
  | defaultOf _ type =>
    cases type with
    | none => exact h.done
    | some type => exact h.checkBodyType type rfl
  | unary _ op =>
    cases op with
    | indexFromEnd | addressOf | deref => exact h.report rfl _ _
    | neg | plus | not | bitNot | preInc | preDec => exact h.done
  | binary _ op | assign _ op =>
    cases op with
    | coalesce => exact h.report rfl _ _
    | _ => exact h.done
  | member _ _ _ conditional =>
    cases conditional with
    | true => exact h.report rfl _ _
    | false => exact h.done
  | selfRef | typeWord | post | conditional | paren | arrayInit | isPattern => exact h.done
  | _ => exact h.report rfl _ _

theorem checkPattern (pattern : Pattern) : Has (checkPattern pattern) := by
  cases pattern with
  | recursive | relational | declaration | var | discard => exact h.report rfl _ _
  | constant | not | and | or => exact h.done

/-! ## Statements and declarations -/

theorem checkGuards (labels : List SwitchLabel) : Has (checkGuards labels) := by
  induction labels with
  | nil => exact h.done
  | cons label rest ih =>
    match label with
    | .case _ (some guard) => exact h.bind (h.report rfl _ _) fun _ => ih
    | .case _ none => exact ih
    | .otherwise => exact ih

theorem checkStmt (stmt : Stmt) : Has (checkStmt stmt) := by
  cases stmt with
  | forEach | lock | tryCatch | throwing | usingBlock | yielding | checkedBlock | fixedPointer | unsafeBlock =>
    exact h.report rfl _ _
  | switchOn => exact h.checkGuards _
  | _ => exact h.done

theorem checkDecl (decl : LocalDecl) : Has (checkDecl prog decl) := by
  have hType : Has (if decl.type.isInferred then Pure.pure ()
      else Legality.checkBodyType prog decl.type .invalidLocalType) := ite h.done (h.checkBodyType _ rfl)
  unfold Legality.checkDecl
  dsimp only
  split
  · exact h.bind (h.report rfl _ _) fun _ => hType
  · exact hType

/-- The rules on an expression, which may be a call. -/
theorem checkAnyExpr (hCall : ∀ span callee types args, Has (checkCall prog owner (.call span callee types args) callee args))
    (expr : Expr) : Has (Legality.checkExpr prog owner expr) := by
  cases expr with
  | call span callee types args => exact hCall span callee types args
  | _ => exact h.checkExpr _ fun _ _ _ _ hEq => by cases hEq

end Closed

/-! ## Nodes of all kinds -/

/-- Declaring names changes the scope and what is remembered, but not what is gathered. -/
theorem gathered_declareAll (prog : Program) (owner : String) (type : TypeExpr) (declarators : List Declarator)
    (st : Tracked Findings) : (declareAll prog owner type declarators st).2.gathered = st.gathered := by
  induction declarators generalizing st with
  | nil => rfl
  | cons declarator rest ih => exact ih _

/-- A property of actions is closed under all that the rules do on nodes, seen from a type. -/
structure Walks (program : Program) (owner : String) (Has : ∀ {α : Type}, Check α → Prop) : Prop
    extends Closed program owner Has where
  call : ∀ call callee args, Has (checkCall program owner call callee args)
  note : ∀ {change : Findings → Findings}, (∀ findings, (change findings).found = findings.found) → Has (gather change)
  within : ∀ change {walk : Check Unit}, Has walk → Has (within change walk)
  declare : ∀ type declarators, Has (declareAll program owner type declarators)

namespace Walks

variable {prog : Program} {owner : String} {Has : ∀ {α : Type}, Check α → Prop} (h : Walks prog owner Has)

include h

theorem inside (inEntry : Bool) (method : MethodDecl) {walk : Check Unit} (hWalk : Has walk) :
    Has (inside prog owner inEntry method walk) := by
  refine h.bind (h.checkModifiers method.header) fun _ => h.bind h.get fun before => ?_
  exact h.bind (h.note fun _ => rfl) fun _ => h.bind (h.within _ hWalk) fun _ => h.note fun _ => rfl

theorem visitor : (visitor prog owner).Respects NodeTest.any fun action _ => Has action where
  done := h.done
  seq hFirst hSecond := h.bind hFirst fun _ => hSecond
  weaken hAction _ := hAction
  type type := h.checkShape type
  expr expr _ _ hWalk := h.bind (h.checkAnyExpr (fun _ _ _ _ => h.call _ _ _) expr) fun _ => hWalk
  pattern pattern _ _ hWalk := by
    refine h.bind (h.checkPattern pattern) fun _ => ?_
    cases pattern with
    | recursive => exact h.done
    | _ => exact hWalk
  stmt stmt _ _ hWalk := by
    refine h.bind (h.checkStmt stmt) fun _ => ?_
    cases stmt with
    | forLoop | forEach => exact h.within _ hWalk
    | _ => exact hWalk
  decl decl _ _ hWalk := h.bind (h.checkDecl decl) fun _ => h.bind hWalk fun _ => h.declare _ _
  block _ _ _ hWalk := h.within _ hWalk
  method method _ _ hWalk := h.inside false method hWalk

theorem checkMethod (inEntry : Bool) (method : MethodDecl) : Has (checkMethod prog owner inEntry method) :=
  h.inside inEntry method (h.visitor.walkMethod method)

end Walks

/-! ## Members

The walk over the members of a shader is the same for everything that is said about walks over expressions and about
walks over methods. -/

/-- Ask a test of the initial value of a field. An array itself is not asked, only its parts are. -/
def passesInit (test : NodeTest) : Expr → Bool
  | .newArray _ _ sizes init => allExprs test sizes && allInit test init
  | .arrayInit _ items => allExprs test items
  | init => init.all test

/-- The initial values of declared names pass a test. -/
def passesInits (test : NodeTest) (declarators : List Declarator) : Prop :=
  ∀ declarator ∈ declarators, ∀ init, declarator.init = some init → passesInit test init = true

/-- A member of a shader passes a test: a method anywhere, a field in its initial values. Other members are never
lowered. -/
def PassesMember (test : NodeTest) : Member → Prop
  | .field field => passesInits test field.declarators
  | .method method => method.all test = true
  | _ => True

/-- What the rules say about expressions when they walk the fields of a type. -/
structure Sweeps (program : Program) (owner : String) (test : NodeTest) (Says : Check Unit → Prop → Prop) : Prop where
  exprs : (visitor program owner).RespectsExprs test Says
  note : Says (gather fun findings : Findings => { findings with method := owner ++ ".<field>" }) True
  warn : ∀ span args, Says (report .unsafeModifier span args) True

theorem Walks.sweeps {prog : Program} {owner : String} {Has : ∀ {α : Type}, Check α → Prop}
    (h : Walks prog owner Has) : Sweeps prog owner NodeTest.any fun action _ => Has action where
  exprs := h.visitor.toRelatesExprs
  note := h.note fun _ => rfl
  warn := h.report rfl

namespace Sweeps

variable {prog : Program} {test : NodeTest} {Says : Check Unit → Prop → Prop}

section Fields

variable {owner : String} (h : Sweeps prog owner test Says)

include h

variable {first second : Check Unit} {P Q : Prop}

theorem weaken (hFirst : Says first P) (hClaim : P → Q) : Says first Q :=
  @Visitor.RelatesExprs.weaken _ _ _ _ _ _ h.exprs (first, first) P Q hFirst hClaim

theorem seq (hFirst : Says first P) (hSecond : Says second Q) : Says (do first; second) (P ∧ Q) :=
  @Visitor.RelatesExprs.seq _ _ _ _ _ _ h.exprs (first, first) (second, second) P Q hFirst hSecond

theorem after (hFirst : Says first True) (hSecond : Says second Q) : Says (do first; second) Q :=
  h.weaken (h.seq hFirst hSecond) And.right

theorem checkInit (init : Expr) : Says (checkInit prog owner init) (passesInit test init = true) := by
  have hWalk := h.exprs.visitExpr init
  cases init with
  | newArray _ _ sizes items => exact h.exprs.both (h.exprs.visitExprs sizes) (h.exprs.visitInit items)
  | arrayInit _ items => exact h.exprs.visitExprs items
  | _ => exact hWalk

theorem checkInits (declarators : List Declarator) :
    Says (checkInits prog owner declarators) (passesInits test declarators) := by
  induction declarators with
  | nil => exact h.weaken h.exprs.done fun _ => forall_mem_nil _
  | cons declarator rest ih =>
    unfold Legality.checkInits
    dsimp only
    split
    · rename_i val hVal
      refine h.weaken (h.seq (h.checkInit val) ih) ?_
      rintro ⟨hOwn, hRest⟩
      refine forall_mem_cons.mpr ⟨fun init hInit => ?_, hRest⟩
      rw [hVal] at hInit
      exact Option.some.inj hInit ▸ hOwn
    · rename_i hNone
      refine h.weaken ih fun hRest => forall_mem_cons.mpr ⟨fun init hInit => ?_, hRest⟩
      rw [hNone] at hInit
      cases hInit

theorem checkField (field : FieldDecl) : Says (checkField prog owner field) (passesInits test field.declarators) := by
  have hRest := h.after (h.exprs.type field.type) (h.after h.note (h.checkInits field.declarators))
  unfold Legality.checkField
  dsimp only
  split
  · exact h.after (h.warn _ _) hRest
  · exact hRest

end Fields

variable (h : Sweeps prog prog.shader.name test Says)

include h

theorem checkMembers {Claim : Member → Prop} (hField : ∀ field, passesInits test field.declarators → Claim (.field field))
    (hMethod : ∀ inEntry method, Says (checkMethod prog prog.shader.name inEntry method) (Claim (.method method)))
    (hProperty : ∀ decl, Claim (.property decl)) (hConstructor : ∀ decl, Claim (.constructor decl))
    (hType : ∀ decl, Claim (.type decl)) (pos : Nat) (members : List Member) :
    Says (checkMembers prog pos members) (∀ member ∈ members, Claim member) := by
  induction members generalizing pos with
  | nil => exact h.weaken h.exprs.done fun _ => forall_mem_nil _
  | cons member rest ih =>
    -- Whatever the member is, its own claim joins those of the rest.
    have hJoin : ∀ {action : Check Unit} (next : Nat), Says action (Claim member) →
        Says (do action; Legality.checkMembers prog next rest) (∀ other ∈ member :: rest, Claim other) :=
      fun next hOwn => h.weaken (h.seq hOwn (ih next)) forall_mem_cons.mpr
    have hSkip : Claim member → Says (Legality.checkMembers prog pos rest) (∀ other ∈ member :: rest, Claim other) :=
      fun hOwn => h.weaken (ih pos) fun hRest => forall_mem_cons.mpr ⟨hOwn, hRest⟩
    cases member with
    | field field => exact hJoin pos (h.weaken (h.checkField field) (hField field))
    | method method => exact hJoin (pos + 1) (hMethod _ method)
    | property decl => exact hSkip (hProperty decl)
    | constructor decl => exact hSkip (hConstructor decl)
    | type decl => exact hSkip (hType decl)

theorem checkHelpers {Claim : MethodDecl → Prop}
    (hMethod : ∀ owner method, Says (checkMethod prog owner false method) (Claim method)) (keys : List MethodKey) :
    Says (checkHelpers prog keys) (∀ key ∈ keys, key.owner ≠ prog.shader.name →
      ∀ method, prog.method? key = some method → Claim method) := by
  induction keys with
  | nil => exact h.weaken h.exprs.done fun _ => forall_mem_nil _
  | cons key rest ih =>
    unfold Legality.checkHelpers
    dsimp only
    split
    · rename_i hOwn
      refine h.weaken ih fun hRest => forall_mem_cons.mpr ⟨fun hForeign => ?_, hRest⟩
      exact absurd (by simpa using hOwn) hForeign
    · split
      · rename_i found hFound
        refine h.weaken (h.seq (hMethod key.owner found) ih) fun ⟨hFirst, hRest⟩ => forall_mem_cons.mpr ⟨?_, hRest⟩
        intro _ method hSome
        rw [hFound] at hSome
        exact Option.some.inj hSome ▸ hFirst
      · rename_i hNone
        refine h.weaken ih fun hRest => forall_mem_cons.mpr ⟨fun _ method hSome => ?_, hRest⟩
        rw [hNone] at hSome
        cases hSome

end Sweeps

theorem Walks.checkMembers {prog : Program} {Has : ∀ {α : Type}, Check α → Prop}
    (h : Walks prog prog.shader.name Has) (pos : Nat) (members : List Member) :
    Has (checkMembers prog pos members) :=
  @Sweeps.checkMembers prog NodeTest.any (fun action _ => Has action) h.sweeps (fun _ => True) (fun _ _ => trivial)
    h.checkMethod (fun _ => trivial) (fun _ => trivial) (fun _ => trivial) pos members

end Legality

end Shaderlift
