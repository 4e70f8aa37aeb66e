import Shaderlift.Proofs.Lowering.Following

/-!
# Lowering follows the rules through methods

One case for each form of statement carries `Follows` from declarations and expressions to whole methods, and the
names in doubt are passed on from statement to statement. What the rules forbid is never lowered, so the forms on
which the two walks differ in other ways do not matter.
-/

namespace Shaderlift

open List

namespace Lower

open Track Legality

/-! ## Expressions -/

section Expressions

variable (ctx : LowerContext) (ref : Reference ctx.program) {doubt : List String}

theorem follows_hinted (hint : Option ValueType) {val : Expr} (hSpares : ref.Spares (val.doubtful doubt)) :
    Follows ref doubt doubt (ctx.rules.visitExpr val) (hinted ctx hint val) :=
  .of_backs (fun scope => (respects_backs ref ctx.owner scope doubt).visitExpr val)
    (fun st => (((plain_matches ctx default).hinted hint val).grown st).memo)
    fun _ hCalls => meets_hinted_of_sparing hint hSpares hCalls

variable {val : Option Expr}

theorem follows_expr? (hSpares : ref.Spares ((val.map (Expr.doubtful doubt)).getD [])) :
    Follows ref doubt doubt (ctx.rules.visitExpr? val) (expr? ctx val) := by
  unfold Visitor.visitExpr?
  cases val with
  | none => exact .done _
  | some val => exact follows_hinted ctx ref none hSpares

theorem follows_exprs {values : List Expr} (hSpares : ref.Spares (values.flatMap (Expr.doubtful doubt))) :
    Follows ref doubt doubt (ctx.rules.visitExprs values) (exprs ctx values) := by
  induction values with
  | nil =>
    unfold Visitor.visitExprs
    exact .done _
  | cons val rest ih =>
    rw [flatMap_cons, Reference.spares_append] at hSpares
    unfold Visitor.visitExprs
    exact .seq (follows_hinted ctx ref none hSpares.1) fun _ => .map (ih hSpares.2)

theorem follows_forInit {init : Option ForInit} (hSpares : ref.Spares (doubtfulInit doubt init)) :
    Follows ref doubt (doubtAfterInit ctx.program doubt init) (ctx.rules.visitForInit init) (forInit ctx init) := by
  match init with
  | none => exact .done _
  | some (.decl decl) => exact follows_localDecl ctx ref hSpares
  | some (.exprs values) => exact .map (follows_exprs ctx ref hSpares)

theorem follows_returnValue {val : Expr} (hSpares : ref.Spares (val.doubtful doubt)) :
    Follows ref doubt doubt (ctx.rules.visitExpr val) (returnValue ctx val) := by
  unfold returnValue
  split
  · exact .map (follows_hinted ctx ref _ hSpares)
  · exact .map (follows_hinted ctx ref _ hSpares)

theorem follows_returnStmt (hSpares : ref.Spares ((val.map (Expr.doubtful doubt)).getD [])) :
    Follows ref doubt doubt (ctx.rules.visitExpr? val) (returnStmt ctx val) := by
  unfold Visitor.visitExpr?
  cases val with
  | none => exact .done _
  | some val => exact follows_returnValue ctx ref hSpares

theorem follows_label {mark : SwitchLabel} (hSpares : ref.Spares (mark.doubtful doubt)) :
    Follows ref doubt doubt (ctx.rules.visitLabel mark) (label ctx mark) := by
  refine .of_backs (fun scope => (respects_backs ref ctx.owner scope doubt).visitLabel mark)
    (fun st => (((plain_matches ctx default).label mark).grown st).memo) fun scope hCalls => ?_
  cases mark with
  | otherwise => exact .pure _
  | case pattern guard =>
    cases pattern with
    | constant val =>
      have hPat := (Bool.and_eq_true_iff.mp hCalls).1
      unfold Pattern.all at hPat
      have hVal := (Bool.and_eq_true_iff.mp hPat).2
      exact .bind (meets_hinted_of_sparing none hSpares hVal) fun _ => .pure _
    | _ => exact .pure _

theorem follows_labels {marks : List SwitchLabel} (hSpares : ref.Spares (marks.flatMap (SwitchLabel.doubtful doubt))) :
    Follows ref doubt doubt (ctx.rules.visitLabels marks) (labels ctx marks) := by
  induction marks with
  | nil => exact .done _
  | cons mark rest ih =>
    rw [flatMap_cons, Reference.spares_append] at hSpares
    exact .seq (follows_label ctx ref hSpares.1) fun _ => .map (ih hSpares.2)

/-- A method is followed if its body is: the rules walk the default values of its parameters as well. -/
theorem follows_functionOf (inEntry : Bool) (name : String) (header : MethodHeader) (written : Option MethodBody)
    {doubt' : List String} {body : Lower (List OutStmt)}
    (hBody : Follows ref doubt doubt' (ctx.rules.visitBody? written) body) :
    Follows ref doubt doubt (checkMethod ctx.program ctx.owner inEntry ⟨header, written⟩)
      (functionOf ctx.program name header body) := by
  have hShape := (closed_beside ctx.program ctx.owner).checkShape header.returnType
  have hParams : Follows ref doubt doubt (ctx.rules.visitParams header.params) (pure ()) :=
    .of_backs (fun scope => (respects_backs ref ctx.owner scope doubt).visitParams header.params)
      (fun st => .refl st.memo) fun _ _ => .pure ()
  have hWalk : Follows ref doubt doubt' (ctx.rules.walkMethod ⟨header, written⟩) body :=
    .before hShape fun _ => hParams.seq fun _ => hBody
  have hInner : Follows ref doubt doubt (inMethod ctx.program ⟨header, written⟩
        (ctx.rules.walkMethod ⟨header, written⟩))
      (within (fun scope => withParams ctx.program header.params scope.push) body) :=
    hWalk.within fun _ _ hAlike => alikeBut_withParams ctx.program header.params hAlike.push
  have h := fun scope => noting_meets ref scope doubt
  refine .prepare (fun scope => (h scope).params ctx.program header.params trivial) fun _ => ?_
  refine .prepare (fun scope => (h scope).spellWritten ctx.program header.returnType trivial) fun _ => ?_
  exact .map (.inside ctx.owner inEntry ⟨header, written⟩ hInner)

end Expressions

/-! ## Statements -/

mutual

theorem follows_stmt (ctx : LowerContext) (ref : Reference ctx.program) (doubt : List String) (written : Stmt)
    (hSpares : ref.Spares (written.doubtful ctx.program doubt)) :
    Follows ref doubt (written.doubtAfter ctx.program doubt) (ctx.rules.visitStmt written) (stmt ctx written) := by
  by_cases hAll : written.all allowed = true
  -- A statement that no shader may contain is never lowered.
  case neg =>
    exact .of_reject (((visitor_respects ctx.program ctx.owner).visitStmt written).weaken hAll)
      fun st => ((Whole.stmt ctx (whole_matches .standard _ _) written).grown st).memo
  have hCheck := (closed_beside ctx.program ctx.owner).checkStmt written
  unfold Visitor.visitStmt stmt Stmt.doubtAfter
  unfold Stmt.doubtful at hSpares
  unfold Stmt.all at hAll
  cases written with
  | forEach | lock | tryCatch | throwing | usingBlock | yielding | checkedBlock | fixedPointer =>
    cases (Bool.and_eq_true_iff.mp hAll).1
  | block _ body | unsafeBlock _ body =>
    exact .before hCheck fun _ => .map (follows_block ctx ref doubt body hSpares)
  | declare _ decl =>
    exact .before hCheck fun _ => .map (follows_localDecl ctx ref hSpares)
  | localFunction _ fn =>
    exact .before hCheck fun _ => .map (follows_lift ctx ref doubt fn hSpares)
  | expr _ val =>
    exact .before hCheck fun _ => .map (follows_hinted ctx ref none hSpares)
  | ifElse _ cond thenBranch elseBranch =>
    rw [Reference.spares_append, Reference.spares_append] at hSpares
    obtain ⟨hCond, hThen, hElse⟩ := hSpares
    refine .before hCheck fun _ => .seq (follows_hinted ctx ref none hCond) fun _ => ?_
    exact .seq (follows_stmt ctx ref doubt thenBranch hThen) fun _ =>
      .map (follows_stmt? ctx ref _ elseBranch hElse)
  | whileLoop _ cond body =>
    obtain ⟨hCond, hBody⟩ := Reference.spares_append.mp hSpares
    exact .before hCheck fun _ => .seq (follows_hinted ctx ref none hCond) fun _ =>
      .map (follows_stmt ctx ref doubt body hBody)
  | doWhile _ body cond =>
    -- The rules walk the condition first, so in it the names of the body are in doubt.
    obtain ⟨hCond, hBody⟩ := Reference.spares_append.mp hSpares
    refine .before hCheck fun _ => .swap (follows_hinted ctx ref none hCond)
      (.of_stays ((scope_visitor ctx.program ctx.owner).visitExpr cond)) ?_
      (follows_stmt ctx ref doubt body hBody) (declaring_visitStmt ctx.program ctx.owner body)
    exact (meets_hinted_listing ref .empty doubt none cond).stays
  | forLoop _ init cond step body =>
    rw [Reference.spares_append, Reference.spares_append, Reference.spares_append] at hSpares
    obtain ⟨hInit, hCond, hStep, hBody⟩ := hSpares
    have hLoop := follows_stmt ctx ref _ body hBody
    exact .before hCheck fun _ => .within (fun _ _ hAlike => hAlike.push)
      (.seq (follows_forInit ctx ref hInit) fun _ => .seq (follows_expr? ctx ref hCond) fun _ =>
        .seq (follows_exprs ctx ref hStep) fun _ => .map hLoop)
  | switchOn _ scrutinee sections =>
    obtain ⟨hScrutinee, hSections⟩ := Reference.spares_append.mp hSpares
    exact .before hCheck fun _ => .seq (follows_hinted ctx ref none hScrutinee) fun _ =>
      .map (follows_switchSections ctx ref doubt sections hSections)
  | returning _ val =>
    exact .before hCheck fun _ => follows_returnStmt ctx ref hSpares
  | breaking | continuing | empty =>
    exact .before hCheck fun _ => .done _

theorem follows_stmt? (ctx : LowerContext) (ref : Reference ctx.program) (doubt : List String)
    (written : Option Stmt) (hSpares : ref.Spares (doubtfulStmt? ctx.program doubt written)) :
    Follows ref doubt (doubtAfterStmt? ctx.program doubt written)
      (ctx.rules.visitStmt? written) (stmt? ctx written) := by
  unfold Visitor.visitStmt? stmt? doubtAfterStmt?
  unfold doubtfulStmt? at hSpares
  cases written with
  | none => exact .done _
  | some written => exact .map (follows_stmt ctx ref doubt written hSpares)

theorem follows_stmts (ctx : LowerContext) (ref : Reference ctx.program) (doubt : List String)
    (list : List Stmt) (hSpares : ref.Spares (doubtfulStmts ctx.program doubt list)) :
    Follows ref doubt (doubtAfterStmts ctx.program doubt list) (ctx.rules.visitStmts list) (stmts ctx list) := by
  unfold Visitor.visitStmts stmts doubtAfterStmts
  unfold doubtfulStmts at hSpares
  cases list with
  | nil => exact .done _
  | cons first rest =>
    obtain ⟨hFirst, hRest⟩ := Reference.spares_append.mp hSpares
    exact .seq (follows_stmt ctx ref doubt first hFirst) fun _ => .map (follows_stmts ctx ref _ rest hRest)

theorem follows_blockStmts (ctx : LowerContext) (ref : Reference ctx.program) (doubt : List String)
    (list : List Stmt) (hSpares : ref.Spares (doubtfulStmts ctx.program doubt list)) :
    Follows ref doubt (doubtAfterStmts ctx.program doubt list) (ctx.rules.visitStmts list) (blockStmts ctx list) := by
  unfold Visitor.visitStmts blockStmts doubtAfterStmts
  unfold doubtfulStmts at hSpares
  match list with
  | [] => exact .done _
  | first :: rest =>
    obtain ⟨hFirst, hRest⟩ := Reference.spares_append.mp hSpares
    cases first with
    | localFunction span fn =>
      have hCheck := (closed_beside ctx.program ctx.owner).checkStmt (.localFunction span fn)
      unfold Stmt.doubtAfter at hRest
      unfold Stmt.doubtful at hFirst
      unfold Visitor.visitStmt Stmt.doubtAfter
      refine .seq (.before hCheck fun _ => ?_) fun _ => follows_blockStmts ctx ref doubt rest hRest
      exact follows_lift ctx ref doubt fn hFirst
    | _ =>
      exact .seq (follows_stmt ctx ref doubt _ hFirst) fun _ =>
        .map (follows_blockStmts ctx ref _ rest hRest)

theorem follows_block (ctx : LowerContext) (ref : Reference ctx.program) (doubt : List String) (body : Block)
    (hSpares : ref.Spares (body.doubtful ctx.program doubt)) :
    Follows ref doubt doubt (ctx.rules.visitBlock body) (block ctx body) := by
  unfold Visitor.visitBlock block
  unfold Block.doubtful at hSpares
  match body with
  | ⟨list, _⟩ =>
    refine .within (fun _ _ hAlike => ?_) (follows_blockStmts ctx ref doubt list hSpares)
    exact alikeBut_withFunctions ctx.program list hAlike.push

theorem follows_switchSections (ctx : LowerContext) (ref : Reference ctx.program) (doubt : List String)
    (list : List SwitchSection) (hSpares : ref.Spares (doubtfulSections ctx.program doubt list)) :
    Follows ref doubt (doubtAfterSections doubt list) (ctx.rules.visitSections list) (switchSections ctx list) := by
  unfold Visitor.visitSections switchSections doubtAfterSections
  unfold doubtfulSections at hSpares
  match list with
  | [] => exact .done _
  | ⟨marks, body, _⟩ :: rest =>
    rw [Reference.spares_append, Reference.spares_append] at hSpares
    obtain ⟨hMarks, hBody, hRest⟩ := hSpares
    have hFramed := Follows.framed_right (declaring_visitStmts ctx.program ctx.owner body)
      (follows_stmts ctx ref doubt body hBody)
    exact .seq (follows_labels ctx ref hMarks) fun _ => .seq hFramed fun _ =>
      .map (follows_switchSections ctx ref _ rest hRest)

theorem follows_lift (ctx : LowerContext) (ref : Reference ctx.program) (doubt : List String)
    (fn : MethodDecl) (hSpares : ref.Spares (fn.doubtful ctx.program doubt)) :
    Follows ref doubt doubt (ctx.rules.visitMethod fn) (lift ctx fn) := by
  unfold Visitor.visitMethod lift
  unfold MethodDecl.doubtful at hSpares
  match fn with
  | ⟨header, body⟩ =>
    have hBody := follows_bodyOf
      { ctx with inEntry := false, returnType := ctx.program.valueType? header.returnType } ref doubt
      header.returnType.isVoid body hSpares
    have hGather : ∀ lifted : OutFunction, Follows ref doubt doubt (pure ())
        (gather fun g : Gathered => { g with helpers := g.helpers ++ [lifted] }) :=
      fun _ => .of_meets fun _ => .gather _
    exact (follows_functionOf ctx ref false _ header body hBody).seq hGather

theorem follows_bodyOf (ctx : LowerContext) (ref : Reference ctx.program) (doubt : List String)
    (isVoid : Bool) (body : Option MethodBody) (hSpares : ref.Spares (doubtfulBody? ctx.program doubt body)) :
    Follows ref doubt doubt (ctx.rules.visitBody? body) (bodyOf ctx isVoid body) := by
  unfold Visitor.visitBody? bodyOf
  unfold doubtfulBody? at hSpares
  match body with
  | none => exact .done _
  | some (.block body) =>
    unfold Visitor.visitBody
    unfold MethodBody.doubtful at hSpares
    exact follows_block ctx ref doubt body hSpares
  | some (.expr val) =>
    unfold Visitor.visitBody
    unfold MethodBody.doubtful at hSpares
    dsimp only
    split
    · exact .map (follows_hinted ctx ref none hSpares)
    · exact .map (follows_returnValue ctx ref hSpares)

end

/-- Lowering follows the rules through a whole method. -/
theorem follows_method (ctx : LowerContext) (ref : Reference ctx.program) (inEntry : Bool) (name : String)
    (written : MethodDecl) (hSpares : ref.Spares (written.doubtful ctx.program [])) :
    Follows ref [] [] (checkMethod ctx.program ctx.owner inEntry written) (method ctx name written) := by
  unfold MethodDecl.doubtful at hSpares
  match written with
  | ⟨header, body⟩ =>
    have hBody := follows_bodyOf { ctx with returnType := ctx.program.valueType? header.returnType } ref []
      header.returnType.isVoid body hSpares
    exact follows_functionOf ctx ref inEntry name header body hBody

end Lower

/-! ## Shaders -/

/-- The calls of a method as they are collected with some calls remembered, the latest first. -/
def Program.collected (program : Program) (owner : String) (method : MethodDecl) (memo : CallMemo) : List MetCall :=
  ((Closure.visitor program owner).visitMethod method (.start memo ())).2.met

namespace Lower

open Track Legality

section Shaders

variable {prog : Program} {last : CallMemo} {log : List MetCall}

/-- A call is collected from a method with the same answer, or it is in doubt there. -/
def ExpectedIn (program : Program) (last : CallMemo) (owner : String) (method : MethodDecl) (met : MetCall) : Prop :=
  met ∈ program.collected owner method last ∨ met.call ∈ method.doubtful program []

/-- A method may meet the calls that are expected in it, and those of values that are pulled in. -/
def methodReference (program : Program) (owner : String) (method : MethodDecl) (last : CallMemo)
    (hMeant : last.Meant program) (start : List MetCall) : Reference program where
  last := last
  meant := hMeant
  start := start
  Good met := ExpectedIn program last owner method met ∨ PullsCall program met.call
  pulled _ _ hPulls := .inr hPulls

variable {inEntry : Bool} {st : Tracked Gathered}

/-- A walk of the rules over a whole method meets the calls that are collected. -/
theorem backed_checkMethod {owner : String} {method : MethodDecl} {rules : Tracked Findings}
    (hMeant : last.Meant prog) (hScope : rules.scope = .empty)
    (hQuiet : Quiet (checkMethod prog owner inEntry method rules).2)
    (hKept : (checkMethod prog owner inEntry method rules).2.memo.Kept prog last) :
    Backed (methodReference prog owner method last hMeant rules.met)
      (checkMethod prog owner inEntry method rules).2 where
  quiet := hQuiet
  memo := hKept
  met new hNew met hMem := by
    obtain ⟨-, -, found, hCollected, hFound⟩ := (agrees_checkMethod prog owner last inEntry method).same
      (.start last ()) rules rfl hScope.symm hQuiet hKept
    have hSame : new = found := append_cancel_right (hNew.symm.trans hFound)
    have hAll : prog.collected owner method last = found ++ [] := hCollected
    rw [hSame] at hMem
    exact .inl (.inl (hAll ▸ mem_append_left [] hMem))

/-- Lowering a method that the rules have walked meets the calls that are expected in it. -/
theorem met_method (ctx : LowerContext) (name : String) {written : MethodDecl} (hMeant : last.Meant ctx.program)
    (hChecked : Checked ctx.program ctx.owner last log inEntry written) (hAlike : Scope.empty.AlikeBut [] st.scope)
    (hKept : (method ctx name written st).2.memo.Kept ctx.program last) :
    Scope.empty.AlikeBut [] (method ctx name written st).2.scope ∧
      ∀ met ∈ (method ctx name written st).2.met, met ∈ st.met ∨
        ExpectedIn ctx.program last ctx.owner written met ∨ PullsCall ctx.program met.call := by
  obtain ⟨rules, hScope, hQuiet, hMemo, -⟩ := hChecked
  let ref := methodReference ctx.program ctx.owner written last hMeant rules.met
  have hSpares : ref.Spares (written.doubtful ctx.program []) := fun _ hCall _ => .inl (.inr hCall)
  have hFollows := (follows_method ctx ref inEntry name written hSpares).follows rules st (suffix_refl _)
    (hScope ▸ hAlike) (backed_checkMethod hMeant hScope hQuiet hMemo) hKept
  rw [scope_checkMethod, hScope] at hFollows
  exact hFollows

variable {model : ShaderModel}

/-- The rules have walked all methods of a list, none as the entry point. -/
def ChecksAll (program : Program) (last : CallMemo) (log : List MetCall) (keys : List MethodKey) : Prop :=
  ∀ key ∈ keys, ∀ found, program.method? key = some found → Checked program key.owner last log false found

def ExpectedFrom (program : Program) (last : CallMemo) (keys : List MethodKey) (met : MetCall) : Prop :=
  ∃ key ∈ keys, ∃ found, program.method? key = some found ∧ ExpectedIn program last key.owner found met

/-- The state in which a method has been written and put among the helpers. -/
def afterHelper (program : Program) (model : ShaderModel) (key : MethodKey) (found : MethodDecl)
    (state : Tracked Gathered) : Tracked Gathered :=
  let first := method ⟨program, model, .standard, key.owner, false, none⟩ (methodName program key) found state
  { first.2 with gathered := { first.2.gathered with helpers := first.2.gathered.helpers ++ [first.1] } }

theorem helperMethods_cons (key : MethodKey) (rest : List MethodKey) (st : Tracked Gathered) :
    helperMethods prog model .standard (key :: rest) st =
      helperMethods prog model .standard rest (((prog.method? key).map fun found =>
        afterHelper prog model key found st).getD st) := by
  rw [helperMethods]
  cases prog.method? key <;> rfl

theorem met_helperMethods (hMeant : last.Meant prog) (keys : List MethodKey)
    (hKeys : ChecksAll prog last log keys) (hAlike : Scope.empty.AlikeBut [] st.scope)
    (hKept : (helperMethods prog model .standard keys st).2.memo.Kept prog last) :
    ∀ met ∈ (helperMethods prog model .standard keys st).2.met, met ∈ st.met ∨
      ExpectedFrom prog last keys met ∨ PullsCall prog met.call := by
  induction keys generalizing st with
  | nil => exact fun _ => .inl
  | cons key rest ih =>
    have hRest : ChecksAll prog last log rest := (forall_mem_cons.mp hKeys).2
    have hLater : ∀ met, ExpectedFrom prog last rest met → ExpectedFrom prog last (key :: rest) met :=
      fun _ ⟨other, hOther, hFound⟩ => ⟨other, mem_cons_of_mem key hOther, hFound⟩
    rw [helperMethods_cons] at hKept ⊢
    intro met hMem
    cases hMethod : prog.method? key with
    | none =>
      rw [hMethod] at hKept hMem
      exact (ih hRest hAlike hKept met hMem).imp_right (Or.imp_left (hLater met))
    | some found =>
      rw [hMethod, Option.map_some, Option.getD_some] at hKept hMem
      have hChecked := hKeys key mem_cons_self found hMethod
      have hGrown := ((Whole.helperMethods (whole_matches .standard prog) model .standard rest).grown
        (afterHelper prog model key found st)).memo
      obtain ⟨hScope, hMet⟩ := met_method ⟨prog, model, .standard, key.owner, false, none⟩
        (methodName prog key) hMeant hChecked hAlike (hGrown.trans hKept)
      have hAfter : Scope.empty.AlikeBut [] (afterHelper prog model key found st).scope := hScope
      rcases ih hRest hAfter hKept met hMem with hBefore | hNew
      · refine (hMet met hBefore).imp_right (Or.imp_left fun hExpected => ?_)
        exact ⟨key, mem_cons_self, found, hMethod, hExpected⟩
      · exact .inr (hNew.imp_left (hLater met))

/-- The static fields of the shader are written with calls of their initial values only. -/
theorem meets_shaderStatics (ctx : LowerContext) (ref : Reference ctx.program) (scope : Scope)
    (fields : List FieldInfo) : Meets ref scope [] (shaderStatics ctx fields) :=
  (noting_meets ref scope []).shaderStatics ctx default fields (fun _ type _ hVal _ _ =>
    meets_exprOn _ ctx ref scope [] (some type) (goodCalls_of_pulls (.ownStatic hVal) ctx.owner)) trivial

/-- Lowering a shader that the rules have walked meets the calls that are expected in the entry point and in the
methods that it needs, and those of values that are pulled in. -/
theorem met_unit {entry : MethodDecl} {memo : CallMemo} (hMeant : last.Meant prog)
    (hEntry : Checked prog prog.shader.name last log inEntry entry) {keys : List MethodKey} (hNeeded :
      (prog.reachableMethods (method ⟨prog, model, .standard, prog.shader.name, true, none⟩ entryPoint entry
      (.start memo .empty)).2.memo).1 = keys) (hKeys : ChecksAll prog last log keys)
    (hKept : (unit prog model .standard entry (.start memo .empty)).2.memo.Kept prog last) :
    ∀ met ∈ (unit prog model .standard entry (.start memo .empty)).2.met,
      ExpectedIn prog last prog.shader.name entry met ∨ ExpectedFrom prog last keys met ∨ PullsCall prog met.call := by
  let first := method ⟨prog, model, .standard, prog.shader.name, true, none⟩ entryPoint entry (.start memo .empty)
  let needed : Tracked Gathered := { first.2 with memo := (prog.reachableMethods first.2.memo).2 }
  let helpers := (helperMethods prog model .standard keys needed).2
  let ctx : LowerContext := ⟨prog, model, .standard, prog.shader.name, false, none⟩
  have hUnit : (unit prog model .standard entry (.start memo .empty)).2 =
      (shaderStatics ctx model.fields helpers).2 := by
    rw [unit_eq]
    dsimp only
    rw [hNeeded]
    rfl
  rw [hUnit] at hKept ⊢
  let ref : Reference prog := ⟨last, hMeant, [], fun met => PullsCall prog met.call, fun _ _ => id⟩
  have hStatics : Meets ref helpers.scope [] (shaderStatics ctx model.fields) :=
    meets_shaderStatics ctx ref helpers.scope model.fields
  have hHelpersKept : helpers.memo.Kept prog last := (hStatics.memo helpers).trans hKept
  have hNeededKept : needed.memo.Kept prog last :=
    ((Whole.helperMethods (whole_matches .standard prog) model .standard keys).grown needed).memo.trans hHelpersKept
  have hFirstKept : first.2.memo.Kept prog last :=
    (prog.stable_reachableMethods.kept first.2.memo).trans hNeededKept
  obtain ⟨hFirst, hFirstMet⟩ := met_method ⟨prog, model, .standard, prog.shader.name, true, none⟩ entryPoint
    hMeant hEntry (.refl .empty []) hFirstKept
  have hNeededScope : Scope.empty.AlikeBut [] needed.scope := hFirst
  intro met hMem
  rcases hStatics.met helpers (.refl helpers.scope []) hKept met hMem with hBefore | hPulled
  · rcases met_helperMethods hMeant keys hKeys hNeededScope hHelpersKept met hBefore with hEarlier | hHelper
    · rcases hFirstMet met hEarlier with hStart | hExpected | hPulled
      · cases hStart
      · exact .inl hExpected
      · exact .inr (.inr hPulled)
    · exact .inr hHelper
  · exact .inr (.inr hPulled)

end Shaders

end Lower

end Shaderlift
