import Shaderlift.Proofs.Analysis.Checks
import Shaderlift.Proofs.Call.Memo

/-!
# What the rules keep out

A walk that ends without errors vouches for what it has walked: no construct that no shader may contain
occurs there, at any depth. `Vouches` relates an action of the walk to such a claim; errors are never
taken back, so claims add up along a walk, and each of the forbidden constructs is an error by itself.
-/

namespace Shaderlift

/-- Decide whether a case applies only under a condition. -/
def SwitchLabel.isGuarded : SwitchLabel → Bool
  | .case _ guard => guard.isSome
  | .otherwise => false

namespace Legality

open Track

/-! ## Forbidden constructs -/

def allowsLiteral : Literal → Bool
  | .str _ | .char _ | .null => false
  | _ => true

/-- Decide whether an operator may stand before an operand in a shader at all. -/
def allowsPrefix : UnaryOp → Bool
  | .indexFromEnd | .addressOf | .deref => false
  | _ => true

/-- Decide whether an expression may stand in a shader at all, whatever its parts are. -/
def allowsExpr : Expr → Bool
  | .literal _ val => allowsLiteral val
  | .unary _ op _ => allowsPrefix op
  | .newArray _ _ _ _ | .anonymous _ _ | .sizeOfType _ _ | .typeOfType _ _ | .stackAlloc _ _ _ _
  | .checked _ _ _ | .await _ _ | .throwing _ _ | .refTo _ _ | .range _ _ _ | .tuple _ _
  | .query _ _ => false
  | _ => true

/-- Decide whether a statement may stand in a shader at all, whatever its parts are. -/
def allowsStmt : Stmt → Bool
  | .forEach _ _ _ _ _ | .lock _ _ _ | .tryCatch _ _ _ _ | .throwing _ _ | .usingBlock _ _ _ _
  | .yielding _ _ | .checkedBlock _ _ _ | .fixedPointer _ _ _ => false
  | _ => true

/-- The test for constructs that no shader may contain. -/
def allowed : NodeTest :=
  { expr := allowsExpr
    pattern := fun _ => true
    stmt := allowsStmt
    decl := fun decl => !decl.isUsing }

/-- Decide whether a pattern may stand in a shader at all, whatever its parts are. -/
def allowsPattern : Pattern → Bool
  | .constant _ | .not _ | .and _ _ | .or _ _ => true
  | _ => false

/-- Decide whether no case of a statement has a condition of its own. -/
def isUnguarded : Stmt → Bool
  | .switchOn _ _ sections => (sections.flatMap SwitchSection.labels).all fun label => !label.isGuarded
  | _ => true

/-- The test for patterns: they are put together from constants, and they are all that a case depends on. -/
def composed : NodeTest := { NodeTest.any with pattern := allowsPattern, stmt := isUnguarded }

/-- Decide whether an initial value of a field holds no forbidden construct. The value itself may create
an array. -/
def allowsInit : Expr → Bool
  | .newArray _ _ sizes init => allExprs allowed sizes && allInit allowed init
  | .arrayInit _ items => allExprs allowed items
  | init => init.all allowed

/-! ## What a walk vouches for -/

/-- No error has been found. -/
def Quiet (state : Tracked Findings) : Prop := Report.hasErrors state.gathered.found = false

/-- An action keeps the calls that are remembered, and if no error has been found after it, then none had
been found before, and the claim holds. -/
structure Vouches {α : Type} (program : Program) (action : Check α) (claim : Prop) : Prop where
  keeps : Keeps program action
  quiet : ∀ state, Quiet (action state).2 → Quiet state ∧ claim

namespace Vouches

variable {α β : Type} {prog : Program} {P Q : Prop}

variable {action first : Check α} {next : α → Check β}

theorem weaken (hAction : Vouches prog action P) (hClaim : P → Q) : Vouches prog action Q :=
  ⟨hAction.keeps, fun st hQuiet => (hAction.quiet st hQuiet).imp_right hClaim⟩

theorem bind (hFirst : Vouches prog first P) (hNext : ∀ val, Vouches prog (next val) Q) :
    Vouches prog (first >>= next) (P ∧ Q) := by
  refine ⟨hFirst.keeps.bind fun val => (hNext val).keeps, fun st hQuiet => ?_⟩
  obtain ⟨hMiddle, hQ⟩ := (hNext (first st).1).quiet (first st).2 hQuiet
  obtain ⟨hStart, hP⟩ := hFirst.quiet st hMiddle
  exact ⟨hStart, hP, hQ⟩

/-- An action without a claim of its own leaves the claim to what follows. -/
theorem after (hFirst : Vouches prog first True) (hNext : ∀ val, Vouches prog (next val) Q) :
    Vouches prog (first >>= next) Q :=
  (hFirst.bind hNext).weaken And.right

/-- An action that finds nothing has no claim. -/
theorem of_found_eq (hKeeps : Keeps prog action)
    (hFound : ∀ st, (action st).2.gathered.found = st.gathered.found) : Vouches prog action True := by
  refine ⟨hKeeps, fun st hQuiet => ⟨?_, trivial⟩⟩
  unfold Quiet at hQuiet ⊢
  rwa [hFound st] at hQuiet

theorem done (val : α) : Vouches prog (pure val : Check α) True := of_found_eq (.pure val) fun _ => rfl

theorem get : Vouches prog (MonadState.get : Check (Tracked Findings)) True := of_found_eq .get fun _ => rfl

theorem recalling (prog : Program) (owner : String) {action : Site → Recall α}
    (hAction : ∀ scope, Recall.Stable prog (action ⟨prog, owner, scope⟩)) :
    Vouches prog (Track.recalling prog owner action) True :=
  of_found_eq (.recalling prog owner hAction) fun _ => rfl

theorem within (change : Scope → Scope) (hAction : Vouches prog action P) :
    Vouches prog (Track.within change action) P :=
  ⟨hAction.keeps.within change, fun st hQuiet => hAction.quiet { st with scope := change st.scope } hQuiet⟩

theorem report (rule : Rule) (span : Span) (args : List String) : Vouches prog (report rule span args) True := by
  refine ⟨.gather _, fun st hQuiet => ⟨?_, trivial⟩⟩
  exact (Bool.or_eq_false_iff.mp hQuiet).2

theorem reject {rule : Rule} (hRule : rule.severity = .error) (span : Span) (args : List String) :
    Vouches prog (Legality.report rule span args) False := by
  refine ⟨.gather _, fun st hQuiet => ?_⟩
  have hFirst : (Diagnostic.make rule (some span) args).isError = false := (Bool.or_eq_false_iff.mp hQuiet).1
  have hError : (Diagnostic.make rule (some span) args).isError = true := by
    simp [Diagnostic.isError, Diagnostic.severity, Diagnostic.make, hRule]
  rw [hError] at hFirst
  cases hFirst

theorem declareAll (prog : Program) (owner : String) (type : TypeExpr) (declarators : List Declarator) :
    Vouches prog (Track.declareAll prog owner type declarators) True :=
  of_found_eq ((Track.Stable.tracks prog owner).declareAll type declarators).kept
    fun st => congrArg Findings.found (gathered_declareAll prog owner type declarators st)

end Vouches

/-! ## The rules -/

section Rules

variable (prog : Program) (owner : String)

/-- Where nothing is claimed, the rules on single nodes vouch for it. -/
theorem closed_vouches : Closed prog owner fun action => Vouches prog action True where
  pure := .done
  bind := .after
  get := .get
  report _ := .report _
  infer expr := .recalling prog owner fun scope => Site.stable_infer ⟨prog, owner, scope⟩ expr

theorem vouches_checkCall (call callee : Expr) (args : List Argument) :
    Vouches prog (checkCall prog owner call callee args) True := by
  unfold checkCall
  refine .after (.of_found_eq (.meet prog owner call callee args) fun _ => rfl) fun found => ?_
  split
  · exact .report _ _ _
  · exact .report _ _ _
  · exact .done ()

theorem vouches_checkLiteral (span : Span) (val : Literal) :
    Vouches prog (checkLiteral span val) (allowsLiteral val = true) := by
  cases val with
  | str | char | null => exact .weaken (.reject rfl _ _) False.elim
  | bool | real | int => exact .weaken ((closed_vouches prog "").checkLiteral span _) fun _ => rfl

/-- The rules on an expression keep out the forbidden ones. -/
theorem vouches_checkExpr (expr : Expr) : Vouches prog (checkExpr prog owner expr) (allowsExpr expr = true) := by
  have hAny : Vouches prog (checkExpr prog owner expr) True :=
    (closed_vouches prog owner).checkAnyExpr
      (fun span callee types args => vouches_checkCall prog owner (.call span callee types args) callee args) expr
  cases expr with
  | newArray | anonymous | sizeOfType | typeOfType | stackAlloc | checked | await | throwing | refTo | range
  | tuple | query => exact .weaken (.reject rfl _ _) False.elim
  | literal span val => exact vouches_checkLiteral prog span val
  | unary span op =>
    cases op with
    | indexFromEnd | addressOf | deref => exact .weaken (.reject rfl _ _) False.elim
    | neg | plus | not | bitNot | preInc | preDec => exact hAny.weaken fun _ => rfl
  | _ => exact hAny.weaken fun _ => rfl

theorem vouches_checkGuards (labels : List SwitchLabel) :
    Vouches prog (checkGuards labels) ((labels.all fun label => !label.isGuarded) = true) := by
  induction labels with
  | nil => exact .weaken (.done ()) fun _ => rfl
  | cons label rest ih =>
    match label with
    | .case _ (some guard) => exact .weaken (.bind (.reject rfl _ _) fun _ => ih) fun hNever => hNever.1.elim
    | .case _ none => exact ih
    | .otherwise => exact ih

/-- The rules on a statement keep out the forbidden ones, and conditions of cases. -/
theorem vouches_checkStmt (stmt : Stmt) :
    Vouches prog (checkStmt stmt) (allowsStmt stmt = true ∧ isUnguarded stmt = true) := by
  cases stmt with
  | forEach | lock | tryCatch | throwing | usingBlock | yielding | checkedBlock | fixedPointer =>
    exact .weaken (.reject rfl _ _) False.elim
  | switchOn _ _ sections => exact .weaken (vouches_checkGuards prog _) fun hGuards => ⟨rfl, hGuards⟩
  | _ => exact .weaken ((closed_vouches prog "").checkStmt _) fun _ => ⟨rfl, rfl⟩

theorem vouches_checkDecl (decl : LocalDecl) : Vouches prog (checkDecl prog decl) ((!decl.isUsing) = true) := by
  have hType : Vouches prog (if decl.type.isInferred then pure ()
      else checkBodyType prog decl.type .invalidLocalType) True := by
    split
    · exact .done ()
    · exact (closed_vouches prog "").checkBodyType decl.type rfl
  unfold checkDecl
  dsimp only
  split
  · exact .weaken (.bind (.reject rfl _ _) fun _ => hType) fun hNever => hNever.1.elim
  · rename_i hUsing
    exact hType.weaken fun _ => by simpa using hUsing

variable {walk : Check Unit} {P : Prop}

/-- What is inside a recursive pattern is not walked, but the pattern itself is an error. -/
theorem rejects_recursive (span : Span) : Vouches prog (do
    report .recursivePattern span []
    pure ()) False :=
  .weaken (.bind (.reject rfl _ _) fun _ => .done ()) And.left

/-- The rules on a pattern keep out all but those that are put together from constants. -/
theorem vouches_pattern (pattern : Pattern) (hWalk : Vouches prog walk P) :
    Vouches prog ((visitor prog owner).pattern pattern walk) (allowsPattern pattern = true ∧ P) := by
  cases pattern with
  | recursive => exact (rejects_recursive prog _).weaken False.elim
  | relational | declaration | var | discard =>
    exact .weaken (.bind (.reject rfl _ _) fun _ => hWalk) fun hNever => hNever.1.elim
  | constant | not | and | or => exact .after (.done ()) fun _ => hWalk.weaken fun hParts => ⟨rfl, hParts⟩

theorem vouches_stmt (stmt : Stmt) (hWalk : Vouches prog walk P) :
    Vouches prog ((visitor prog owner).stmt stmt walk) ((allowsStmt stmt = true ∧ isUnguarded stmt = true) ∧ P) := by
  refine .bind (vouches_checkStmt prog stmt) fun _ => ?_
  cases stmt with
  | forLoop | forEach => exact hWalk.within _
  | _ => exact hWalk

/-- Noting which method is walked finds no error. -/
theorem vouches_enter (name : String) (inEntry : Bool) :
    Vouches prog (gather fun findings : Findings => { findings with method := name, inEntry }) True :=
  .of_found_eq (.gather _) fun _ => rfl

theorem vouches_inside (inEntry : Bool) (method : MethodDecl) (hWalk : Vouches prog walk P) :
    Vouches prog (inside prog owner inEntry method walk) P := by
  refine .after ((closed_vouches prog owner).checkModifiers method.header) fun _ => .after .get fun before => ?_
  refine .after (vouches_enter prog _ _) fun _ => ?_
  exact .weaken (.bind (hWalk.within _) fun _ => vouches_enter prog _ _) And.left

/-- The hooks that apply the rules keep out what is forbidden. -/
theorem visitor_respects : (visitor prog owner).Respects allowed (Vouches prog) where
  done := .done ()
  seq hFirst hSecond := hFirst.bind fun _ => hSecond
  weaken hAction hClaim := hAction.weaken hClaim
  type type := (closed_vouches prog owner).checkShape type
  expr expr _ _ hWalk := .bind (vouches_checkExpr prog owner expr) fun _ => hWalk
  pattern pattern _ _ hWalk := .weaken (vouches_pattern prog owner pattern hWalk) fun hAll => ⟨rfl, hAll.2⟩
  stmt stmt _ _ hWalk := .weaken (vouches_stmt prog owner stmt hWalk) fun hAll => ⟨hAll.1.1, hAll.2⟩
  decl decl _ _ hWalk :=
    .weaken (.bind (vouches_checkDecl prog decl) fun _ => .bind hWalk fun _ => .declareAll prog owner _ _)
      fun hAll => ⟨hAll.1, hAll.2.1⟩
  block _ _ _ hWalk := hWalk.within _
  method method _ _ hWalk := vouches_inside prog owner false method hWalk

/-- The hooks that apply the rules keep out all patterns but those that are put together from constants, and the
conditions of cases. -/
theorem visitor_respects_composed : (visitor prog owner).Respects composed (Vouches prog) :=
  { visitor_respects prog owner with
    expr := fun expr _ _ hWalk => .weaken ((visitor_respects prog owner).expr expr hWalk) fun hAll => ⟨rfl, hAll.2⟩
    pattern := fun pattern _ _ hWalk => vouches_pattern prog owner pattern hWalk
    stmt := fun stmt _ _ hWalk => .weaken (vouches_stmt prog owner stmt hWalk) fun hAll => ⟨hAll.1.2, hAll.2⟩
    decl := fun decl _ _ hWalk => .weaken ((visitor_respects prog owner).decl decl hWalk) fun hAll => ⟨rfl, hAll.2⟩ }

/-! ## Whole shaders -/

theorem passesInit_allowed (init : Expr) : passesInit allowed init = allowsInit init := by
  cases init <;> rfl

/-- The members of the shader pass a test, and so do the methods of other types that it needs, as they are found in
any later pass. -/
def PassesShader (test : NodeTest) (later : CallMemo) : Prop :=
  (∀ member ∈ prog.shader.members, PassesMember test member) ∧
    ∀ key ∈ (prog.reachableMethods later).1, key.owner ≠ prog.shader.name →
      ∀ method, prog.method? key = some method → method.all test = true

section Passing

variable {prog} {test : NodeTest} (hRules : ∀ owner, (visitor prog owner).Respects test (Vouches prog))

include hRules

theorem passes_checkMethod (owner : String) (inEntry : Bool) (method : MethodDecl) :
    Vouches prog (checkMethod prog owner inEntry method) (method.all test = true) :=
  vouches_inside prog owner inEntry method ((hRules owner).walkMethod method)

theorem sweeps_vouches (owner : String) : Sweeps prog owner test (Vouches prog) where
  exprs := (hRules owner).toRelatesExprs
  note := .of_found_eq (.gather _) fun _ => rfl
  warn := .report .unsafeModifier

theorem passes_checkMembers (pos : Nat) (members : List Member) :
    Vouches prog (checkMembers prog pos members) (∀ member ∈ members, PassesMember test member) :=
  (sweeps_vouches hRules prog.shader.name).checkMembers (fun _ => id) (passes_checkMethod hRules prog.shader.name)
    (fun _ => trivial) (fun _ => trivial) (fun _ => trivial) pos members

theorem passes_checkHelpers (keys : List MethodKey) :
    Vouches prog (checkHelpers prog keys)
      (∀ key ∈ keys, key.owner ≠ prog.shader.name → ∀ method, prog.method? key = some method →
        method.all test = true) :=
  (sweeps_vouches hRules prog.shader.name).checkHelpers (fun owner => passes_checkMethod hRules owner false) keys

end Passing

/-- The rules walk the members of the shader and then, from what is known by then, the methods of other types
that it needs. -/
theorem checkAll_eq (st : Tracked Findings) :
    ∃ start : Tracked Findings, start.memo = st.memo ∧ start.scope = st.scope ∧ start.met = st.met ∧
      start.gathered.inEntry = st.gathered.inEntry ∧
      let members := (checkMembers prog 0 prog.shader.members start).2
      let helpers := prog.reachableMethods members.memo
      (checkAll prog st).2 = (checkHelpers prog helpers.1 { members with memo := helpers.2 }).2 := by
  unfold checkAll
  dsimp only
  split
  · exact ⟨(report .unsafeModifier prog.shader.span [prog.shader.name] st).2, rfl, rfl, rfl, rfl, rfl⟩
  · exact ⟨st, rfl, rfl, rfl, rfl, rfl⟩

theorem passesShader_of_quiet {test : NodeTest}
    (hRules : ∀ owner, (visitor prog owner).Respects test (Vouches prog)) (st : Tracked Findings)
    (hQuiet : Quiet (checkAll prog st).2) (later : CallMemo)
    (hLater : (checkAll prog st).2.memo.Kept prog later) : PassesShader prog test later := by
  obtain ⟨start, -, -, -, -, hAll⟩ := checkAll_eq prog st
  dsimp only at hAll
  rw [hAll] at hQuiet hLater
  have hHelpers := passes_checkHelpers hRules
    (prog.reachableMethods (checkMembers prog 0 prog.shader.members start).2.memo).1
  obtain ⟨hMiddle, hMethods⟩ := hHelpers.quiet _ hQuiet
  obtain ⟨-, hMembers⟩ := (passes_checkMembers hRules 0 prog.shader.members).quiet start hMiddle
  have hSame := prog.stable_reachableMethods.replay _ later ((hHelpers.keeps.memo _).trans hLater)
  refine ⟨hMembers, ?_⟩
  rw [hSame]
  exact hMethods

theorem kept_checkAll (st : Tracked Findings) : st.memo.Kept prog (checkAll prog st).2.memo := by
  obtain ⟨start, hMemo, -, -, -, hAll⟩ := checkAll_eq prog st
  let members := (checkMembers prog 0 prog.shader.members start).2
  let helpers := prog.reachableMethods members.memo
  have hMembers := (passes_checkMembers (visitor_respects prog) 0 prog.shader.members).keeps.memo start
  have hHelpers := (passes_checkHelpers (visitor_respects prog) helpers.1).keeps.memo
    { members with memo := helpers.2 }
  rw [hAll, ← hMemo]
  exact hMembers.trans ((prog.stable_reachableMethods.kept members.memo).trans hHelpers)

/-- Rules that report no error have found none. -/
theorem quiet_checkAll {memo : CallMemo} (hQuiet : Report.hasErrors (prog.legality memo).1 = false) :
    Quiet (checkAll prog (.start memo ⟨"", false, []⟩)).2 := by
  have hFound : Report.hasErrors (checkAll prog (.start memo ⟨"", false, []⟩)).2.gathered.found.reverse = false :=
    hQuiet
  rwa [Report.hasErrors, List.any_reverse] at hFound

end Rules

end Legality

/-- A shader about which the rules report no error passes the tests that they respect where they look. -/
theorem Program.passesShader_of_legality {prog : Program} {test : NodeTest}
    (hRules : ∀ owner, (Legality.visitor prog owner).Respects test (Legality.Vouches prog)) (memo : CallMemo)
    (hQuiet : Report.hasErrors (prog.legality memo).1 = false) (later : CallMemo)
    (hLater : (prog.legality memo).2.Kept prog later) : Legality.PassesShader prog test later :=
  Legality.passesShader_of_quiet prog hRules (.start memo ⟨"", false, []⟩) (Legality.quiet_checkAll prog hQuiet)
    later hLater

end Shaderlift
