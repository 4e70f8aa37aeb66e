import Shaderlift.Lowering.Unit
import Shaderlift.Proofs.Call.Memo
import Shaderlift.Proofs.Lowering.Closed

/-!
# What lowering is put together from

Writing expressions looks at the state, tells types, meets calls, and notes what it uses (`Simple`). Beside
expressions, the parts of statements declare names and report names without a type (`Plain`); statements and methods
add to this that functions are lifted (`Whole`). A relation of actions that all these have holds of the lowering of
any shader, written with two blanks.
-/

namespace Shaderlift

open List

/-- Decide whether a statement has no form in the output, so that a blank is written. -/
def Stmt.lacksForm : Stmt → Bool
  | .forEach .. | .lock .. | .tryCatch .. | .throwing .. | .usingBlock .. | .yielding .. | .fixedPointer .. => true
  | _ => false

namespace Lower

open Track

/-- A relation of actions is kept by what lowering does below statements, at a place in two settings. -/
structure Plain (context : LowerContext) (setting : Setting) (test : NodeTest)
    (Rel : Prop → ∀ {α : Type}, Lower α → Lower α → Prop) : Prop extends Noting Rel where
  recalling : ∀ {P : Prop} {α : Type} {action : Site → Recall α},
    (∀ scope, Recall.Stable context.program (action ⟨context.program, context.owner, scope⟩)) →
    Rel P (recalling context.program context.owner action) (recalling context.program context.owner action)
  declare : ∀ {P : Prop} name type, Rel P (inScope (·.declare name type) : Lower Unit) (inScope (·.declare name type))
  within : ∀ {P : Prop} {α : Type} change {first second : Lower α},
    Rel P first second → Rel P (within change first) (within change second)
  untyped : ∀ {P : Prop} declarators, Rel P (reportUntyped declarators) (reportUntyped declarators)
  tree : ∀ hint value, Rel (value.all test = true) (tree context hint value)
    (tree (context.under setting) hint value)

/-- A relation of actions is kept by what lowering does, as seen from a type. -/
structure Whole (program : Program) (owner : String) (blank : Blank) (test : NodeTest)
    (Rel : Prop → ∀ {α : Type}, Lower α → Lower α → Prop) : Prop extends Noting Rel where
  plain : ∀ {context : LowerContext}, context.program = program → context.owner = owner →
    Plain context (blank, context.inEntry, context.returnType) test Rel
  lift : ∀ {P : Prop} function, Rel P (gather fun g => { g with helpers := g.helpers ++ [function] })
    (gather fun g => { g with helpers := g.helpers ++ [function] })
  blank : ∀ (stmt : Stmt) (text : String), stmt.lacksForm = true →
    Rel (stmt.all test = true) (Pure.pure (.line text)) (Pure.pure (.line blank.stmt) : Lower OutStmt)

/-! ## Properties of single actions -/

/-- The first of two actions has a property. -/
def First (Has : ∀ {α : Type}, Lower α → Prop) : Prop → ∀ {α : Type}, Lower α → Lower α → Prop :=
  fun _ _ action _ => Has action

theorem First.alone {Has : ∀ {α : Type}, Lower α → Prop} {α : Type} {first second : Lower α}
    (hFirst : First Has True first second) : Has first :=
  hFirst

theorem First.twice {Has : ∀ {α : Type}, Lower α → Prop} {α : Type} {action : Lower α}
    (hAction : First Has True action action) : Has action :=
  hAction

/-- A property of actions is closed under what writing expressions does, whatever is noted beside the lifted functions
and the report. -/
structure Simple (Has : ∀ {α : Type}, Lower α → Prop) : Prop where
  pure : ∀ {α : Type} (value : α), Has (Pure.pure value : Lower α)
  bind : ∀ {α β : Type} {first : Lower α} {next : α → Lower β},
    Has first → (∀ value, Has (next value)) → Has (first >>= next)
  get : Has (MonadState.get : Lower (Tracked Gathered))
  recalling : ∀ {α : Type} program owner (action : Site → Recall α), Has (recalling program owner action)
  note : ∀ {change : Gathered → Gathered}, Notes change → Has (gather change)
  meet : ∀ program owner call callee args, Has (meet program owner call callee args)
  within : ∀ {α : Type} change {action : Lower α}, Has action → Has (within change action)

namespace Simple

variable {Has : ∀ {α : Type}, Lower α → Prop} (h : Simple Has)

include h

theorem noting : Noting (First Has) where
  of_imp hFirst _ := hFirst
  pure := h.pure
  bind := h.bind
  struct _ := h.note fun _ => ⟨rfl, rfl⟩
  note hRemarks := h.note hRemarks.notes

theorem inside {P : Prop} {α : Type} {change : Scope → Scope} {first second : Lower α}
    (hFirst : First Has P first second) : First Has P (Track.within change first) (Track.within change second) :=
  h.within change hFirst

theorem closed {pull : Pull} (hPull : ∀ ctx hint val, Has (pull ctx hint val))
    (ctx : LowerContext) (setting : Setting) : Closed pull pull ctx setting .any (First Has) where
  toNoting := h.noting
  blank _ _ := h.pure _
  site := h.bind h.get fun _ => h.pure _
  infer _ := h.recalling _ _ _
  static owner name := h.noting.bind h.get fun _ => h.noting.ite (h.noting.pure _) <|
    h.noting.bind (h.note fun _ => ⟨rfl, rfl⟩) fun _ => h.noting.declareStatic owner name
      (fun _ => h.note fun _ => ⟨rfl, rfl⟩) fun _ _ _ => h.inside (h.noting.staticInit fun _ _ _ => hPull _ _ _)
  call _ _ _ args _ _ _ hWrite := h.noting.bind (h.meet _ _ _ _ _) fun found =>
    h.noting.call args found (fun _ _ _ _ _ _ _ _ => hPull _ _ _) hWrite

theorem exprOn (fuel : Nat) (ctx : LowerContext) (hint : Option ValueType) (val : Expr) :
    Has (exprOn fuel ctx hint val) := by
  induction fuel generalizing ctx hint val with
  | zero => exact h.pure _
  | succ fuel ih => exact (h.closed ih ctx (.standard, false, none)).exprWith hint val

theorem plain (ctx : LowerContext) (setting : Setting)
    (hDeclare : ∀ name type, Has (inScope (·.declare name type) : Lower Unit))
    (hUntyped : ∀ declarators, Has (reportUntyped declarators)) : Plain ctx setting .any (First Has) where
  toNoting := h.noting
  recalling _ := h.recalling _ _ _
  declare := hDeclare
  within _ := h.inside
  untyped := hUntyped
  tree := h.exprOn _ ctx

end Simple

variable {Rel : Prop → ∀ {α : Type}, Lower α → Lower α → Prop} {P : Prop}

/-! ## Parts of statements -/

theorem Chained.params (h : Chained Rel) (prog : Program) (list : List Param) :
    Rel P (params prog list) (params prog list) := by
  induction list with
  | nil => exact h.pure _
  | cons first rest ih => exact h.bind (h.map (h.spellWritten prog first.type)) fun _ => h.map ih

theorem Chained.shaderStatics (h : Chained Rel) (ctx : LowerContext) (setting : Setting) (fields : List FieldInfo)
    (hTree : ∀ name type val, shaderInit? ctx.program name = some val → val.isSizedArray = false →
      Rel P (tree ctx (some type) val) (tree (ctx.under setting) (some type) val)) :
    Rel P (shaderStatics ctx fields) (shaderStatics (ctx.under setting) fields) := by
  induction fields with
  | nil => exact h.pure _
  | cons field rest ih =>
    unfold Lower.shaderStatics
    split
    · exact h.bind (h.staticInit (hTree _ _)) fun _ => h.bind (h.noteStruct _) fun _ => h.map ih
    · exact ih

namespace Plain

variable {ctx : LowerContext} {setting : Setting} {test : NodeTest} (h : Plain ctx setting test Rel)

include h

theorem functionOf (seen : Program) (name : String) (header : MethodHeader) {body body' : Lower (List OutStmt)}
    (hBody : Rel P body body') : Rel P (functionOf seen name header body) (functionOf seen name header body') :=
  h.bind (h.params seen header.params) fun _ => h.bind (h.spellWritten seen header.returnType) fun _ =>
    h.map (h.within _ hBody)

theorem hinted (hint : Option ValueType) (val : Expr) :
    Rel (val.all test = true) (hinted ctx hint val) (hinted (ctx.under setting) hint val) :=
  h.map (h.tree hint val)

theorem exprs (values : List Expr) :
    Rel (allExprs test values = true) (exprs ctx values) (exprs (ctx.under setting) values) := by
  induction values with
  | nil => exact h.pure _
  | cons val rest ih =>
    unfold Lower.exprs allExprs
    exact h.bind (h.left (h.hinted none val)) fun _ => h.map (h.right ih)

theorem expr? (val : Option Expr) : Rel (allExpr? test val = true) (expr? ctx val) (expr? (ctx.under setting) val) := by
  cases val with
  | none => exact h.pure _
  | some val =>
    unfold allExpr?
    exact h.hinted none val

theorem declType (decl : LocalDecl) : Rel P (declType ctx decl) (declType (ctx.under setting) decl) := by
  have hReport : ∀ inferred : Option ValueType, Rel P
      (do if inferred.isNone then reportUntyped decl.declarators
          Pure.pure inferred)
      (do if inferred.isNone then reportUntyped decl.declarators
          Pure.pure inferred) := by
    intro inferred
    dsimp only
    split
    · exact h.map (h.untyped _)
    · exact h.pure _
  unfold Lower.declType
  refine h.ite ?_ (h.pure _)
  split
  · exact h.bind (h.recalling fun scope => Site.stable_infer ⟨_, _, scope⟩ _) hReport
  · exact hReport none

theorem declarators (type : Option ValueType) (list : List Declarator) :
    Rel ((list.all fun declarator => declarator.all test) = true) (declarators ctx type list)
      (declarators (ctx.under setting) type list) := by
  induction list with
  | nil => exact h.pure _
  | cons declarator rest ih =>
    have hRest : ∀ text : String, Rel (((declarator :: rest).all fun declarator => declarator.all test) = true)
        (do Track.inScope (·.declare declarator.name type)
            let others ← Lower.declarators ctx type rest
            Pure.pure (text :: others))
        (do Track.inScope (·.declare declarator.name type)
            let others ← Lower.declarators (ctx.under setting) type rest
            Pure.pure (text :: others)) :=
      fun _ => h.bind (h.declare _ _) fun _ => h.map (h.right ih)
    unfold Lower.declarators
    cases hInit : declarator.init with
    | none => exact hRest _
    | some init =>
      refine h.bind (h.of_imp (h.hinted type init) fun hAll => ?_) fun _ => hRest _
      rw [all_cons, Declarator.all, hInit, allExpr?] at hAll
      exact (Bool.and_eq_true_iff.mp (Bool.and_eq_true_iff.mp hAll).1).2

theorem localDecl (decl : LocalDecl) :
    Rel (decl.all test = true) (localDecl ctx decl) (localDecl (ctx.under setting) decl) := by
  refine h.bind (h.declType decl) fun type => ?_
  have hParts : Rel (decl.all test = true) (Lower.declarators ctx type decl.declarators)
      (Lower.declarators (ctx.under setting) type decl.declarators) :=
    h.right (h.declarators type decl.declarators)
  cases type with
  | none => exact h.bind (h.pure _) fun _ => h.map hParts
  | some type => exact h.bind (h.spell type) fun _ => h.map hParts

theorem forInit (init : Option ForInit) :
    Rel (allForInit test init = true) (forInit ctx init) (forInit (ctx.under setting) init) := by
  match init with
  | some (.decl decl) => exact h.localDecl decl
  | some (.exprs values) => exact h.map (h.exprs values)
  | none => exact h.pure _

theorem label (mark : SwitchLabel) : Rel (mark.all test = true) (label ctx mark) (label (ctx.under setting) mark) := by
  unfold SwitchLabel.all
  cases mark with
  | otherwise => exact h.pure _
  | case pattern guard =>
    cases pattern with
    | constant val =>
      unfold Pattern.all
      exact h.map (h.left (h.right (h.hinted none val)))
    | _ => exact h.pure _

theorem labels (marks : List SwitchLabel) :
    Rel (marks.all (SwitchLabel.all test) = true) (labels ctx marks) (labels (ctx.under setting) marks) := by
  induction marks with
  | nil => exact h.pure _
  | cons mark rest ih =>
    rw [all_cons]
    exact h.bind (h.left (h.label mark)) fun _ => h.map (h.right ih)

end Plain

theorem Plain.returnValue {ctx : LowerContext} {blank : Blank} {test : NodeTest}
    (h : Plain ctx (blank, ctx.inEntry, ctx.returnType) test Rel) (val : Expr) :
    Rel (val.all test = true) (returnValue ctx val) (returnValue { ctx with blank } val) :=
  h.ite (h.map (h.hinted _ val)) (h.map (h.hinted _ val))

/-! ## Statements and methods -/

namespace Whole

variable {blank : Blank} {test : NodeTest}

theorem here {ctx : LowerContext} (h : Whole ctx.program ctx.owner blank test Rel) :
    Plain ctx (blank, ctx.inEntry, ctx.returnType) test Rel :=
  h.plain rfl rfl

mutual

theorem stmt (ctx : LowerContext) (h : Whole ctx.program ctx.owner blank test Rel) (written : Stmt) :
    Rel (written.all test = true) (stmt ctx written) (stmt { ctx with blank } written) := by
  have hPlain := h.here
  have hBlank := h.blank written ctx.blank.stmt
  unfold Lower.stmt
  unfold Stmt.all at hBlank ⊢
  cases written with
  | block _ body | checkedBlock _ _ body | unsafeBlock _ body => exact h.map (h.right (block ctx h body))
  | declare _ decl => exact h.map (h.right (hPlain.localDecl decl))
  | localFunction _ fn => exact h.map (h.right (liftFunction ctx h fn))
  | expr _ val => exact h.map (h.right (hPlain.hinted none val))
  | ifElse _ cond thenBranch elseBranch =>
    exact h.bind (h.right (h.left (hPlain.hinted none cond))) fun _ =>
      h.bind (h.right (h.right (h.left (stmt ctx h thenBranch)))) fun _ =>
        h.map (h.right (h.right (h.right (stmt? ctx h elseBranch))))
  | whileLoop _ cond body =>
    exact h.bind (h.right (h.left (hPlain.hinted none cond))) fun _ =>
      h.map (h.right (h.right (stmt ctx h body)))
  | doWhile _ body cond =>
    exact h.bind (h.right (h.right (stmt ctx h body))) fun _ =>
      h.map (h.right (h.left (hPlain.hinted none cond)))
  | forLoop _ init cond step body =>
    exact hPlain.within _ <| h.bind (h.right (h.left (hPlain.forInit init))) fun _ =>
      h.bind (h.right (h.right (h.left (hPlain.expr? cond)))) fun _ =>
        h.bind (h.right (h.right (h.right (h.left (hPlain.exprs step))))) fun _ =>
          h.map (h.right (h.right (h.right (h.right (stmt ctx h body)))))
  | switchOn _ scrutinee sections =>
    exact h.bind (h.right (h.left (hPlain.hinted none scrutinee))) fun _ =>
      h.map (h.right (h.right (switchSections ctx h sections)))
  | returning _ val =>
    cases val with
    | none => exact h.pure _
    | some val =>
      unfold allExpr?
      exact h.right (hPlain.returnValue val)
  | breaking | continuing | empty => exact h.pure _
  | forEach | lock | tryCatch | throwing | usingBlock | yielding | fixedPointer => exact hBlank rfl

theorem stmt? (ctx : LowerContext) (h : Whole ctx.program ctx.owner blank test Rel) (written : Option Stmt) :
    Rel (allStmt? test written = true) (stmt? ctx written) (stmt? { ctx with blank } written) := by
  unfold Lower.stmt? allStmt?
  cases written with
  | none => exact h.pure _
  | some written => exact h.map (stmt ctx h written)

theorem stmts (ctx : LowerContext) (h : Whole ctx.program ctx.owner blank test Rel) (list : List Stmt) :
    Rel (allStmts test list = true) (stmts ctx list) (stmts { ctx with blank } list) := by
  unfold Lower.stmts allStmts
  cases list with
  | nil => exact h.pure _
  | cons first rest =>
    exact h.bind (h.left (stmt ctx h first)) fun _ => h.map (h.right (stmts ctx h rest))

theorem blockStmts (ctx : LowerContext) (h : Whole ctx.program ctx.owner blank test Rel) (list : List Stmt) :
    Rel (allStmts test list = true) (blockStmts ctx list) (blockStmts { ctx with blank } list) := by
  unfold Lower.blockStmts allStmts
  match list with
  | [] => exact h.pure _
  | first :: rest =>
    have hRest := blockStmts ctx h rest
    cases first with
    | localFunction _ fn =>
      unfold Stmt.all
      exact h.bind (h.left (h.right (liftFunction ctx h fn))) fun _ => h.right hRest
    | _ => exact h.bind (h.left (stmt ctx h _)) fun _ => h.map (h.right hRest)

theorem block (ctx : LowerContext) (h : Whole ctx.program ctx.owner blank test Rel) (body : Block) :
    Rel (body.all test = true) (block ctx body) (block { ctx with blank } body) := by
  unfold Lower.block Block.all
  match body with
  | ⟨list, _⟩ => exact h.here.within _ (blockStmts ctx h list)

theorem switchSections (ctx : LowerContext) (h : Whole ctx.program ctx.owner blank test Rel)
    (sections : List SwitchSection) : Rel (allSections test sections = true) (switchSections ctx sections)
      (switchSections { ctx with blank } sections) := by
  have hPlain := h.here
  unfold Lower.switchSections allSections
  match sections with
  | [] => exact h.pure _
  | ⟨marks, list, _⟩ :: rest =>
    exact h.bind (h.left (hPlain.labels marks)) fun _ =>
      h.bind (hPlain.within _ (h.right (h.left (stmts ctx h list)))) fun _ =>
        h.map (h.right (h.right (switchSections ctx h rest)))

theorem liftFunction (ctx : LowerContext) (h : Whole ctx.program ctx.owner blank test Rel) (fn : MethodDecl) :
    Rel (fn.all test = true) (Lower.lift ctx fn) (Lower.lift { ctx with blank } fn) := by
  unfold Lower.lift MethodDecl.all
  match fn with
  | ⟨header, body⟩ =>
    have hBody := bodyOf
      { ctx with inEntry := false, returnType := ctx.program.valueType? header.returnType } h
      header.returnType.isVoid body
    exact h.bind (h.here.functionOf _ _ header (h.right hBody)) fun _ => h.lift _

theorem bodyOf (ctx : LowerContext) (h : Whole ctx.program ctx.owner blank test Rel) (isVoid : Bool)
    (body : Option MethodBody) :
    Rel (allBody? test body = true) (bodyOf ctx isVoid body) (bodyOf { ctx with blank } isVoid body) := by
  have hPlain := h.here
  unfold Lower.bodyOf allBody?
  match body with
  | none => exact h.pure _
  | some (.block body) =>
    unfold MethodBody.all
    exact block ctx h body
  | some (.expr val) =>
    unfold MethodBody.all
    exact h.ite (h.map (hPlain.hinted none val)) (h.map (hPlain.returnValue val))

end

/-! ## Whole shaders -/

theorem method (ctx : LowerContext) (h : Whole ctx.program ctx.owner blank test Rel) (name : String)
    (decl : MethodDecl) : Rel (decl.all test = true) (method ctx name decl) (method { ctx with blank } name decl) := by
  unfold MethodDecl.all
  match decl with
  | ⟨header, body⟩ =>
    have hBody := bodyOf { ctx with returnType := ctx.program.valueType? header.returnType } h
      header.returnType.isVoid body
    exact h.here.functionOf _ _ header (h.right hBody)

theorem helperMethods {prog : Program} (h : ∀ owner, Whole prog owner blank test Rel) (model : ShaderModel)
    (used : Blank) (keys : List MethodKey) :
    Rel (∀ key ∈ keys, ∀ found, prog.method? key = some found → found.all test = true)
      (helperMethods prog model used keys) (helperMethods prog model blank keys) := by
  induction keys with
  | nil => exact (h prog.shader.name).pure ()
  | cons key rest ih =>
    have hOwn := h key.owner
    have hRest := hOwn.of_imp ih fun
      (hAll : ∀ other ∈ key :: rest, ∀ found, prog.method? other = some found → found.all test = true) =>
        (forall_mem_cons.mp hAll).2
    unfold Lower.helperMethods
    dsimp only
    split
    · rename_i found hFound
      have hMethod := method ⟨prog, model, used, key.owner, false, none⟩ hOwn (methodName prog key) found
      refine hOwn.bind (hOwn.of_imp hMethod fun hAll => ?_) fun _ => hOwn.bind (hOwn.lift _) fun _ => hRest
      exact hAll key mem_cons_self found hFound
    · exact hRest

end Whole

/-- What is written after the entry point, given the methods that it needs. -/
def afterEntry (program : Program) (model : ShaderModel) (blank : Blank) (written : OutFunction)
    (helpers : List MethodKey) : Lower (OutFunction × List StaticDecl) := do
  helperMethods program model blank helpers
  let statics ← shaderStatics ⟨program, model, blank, program.shader.name, false, none⟩ model.fields
  pure (written, statics)

variable {prog : Program}

theorem Whole.afterEntry {blank : Blank} {test : NodeTest}
    (h : ∀ owner, Whole prog owner blank test Rel) {model : ShaderModel} {used : Blank}
    (hTree : ∀ name type val, shaderInit? prog name = some val → val.isSizedArray = false →
      Rel P (tree ⟨prog, model, used, prog.shader.name, false, none⟩ (some type) val)
        (tree ⟨prog, model, blank, prog.shader.name, false, none⟩ (some type) val))
    (written : OutFunction) (helpers : List MethodKey) :
    Rel ((∀ key ∈ helpers, ∀ found, prog.method? key = some found → found.all test = true) ∧ P)
      (afterEntry prog model used written helpers) (afterEntry prog model blank written helpers) := by
  have hShader := h prog.shader.name
  have hStatics := hShader.shaderStatics ⟨prog, model, used, prog.shader.name, false, none⟩ (blank, false, none)
    model.fields hTree
  exact hShader.bind (hShader.of_imp (helperMethods h model used helpers) And.left) fun _ =>
    hShader.map (hShader.of_imp hStatics And.right)

/-- A property of single actions that all parts of lowering have is had by lowering a shader. -/
theorem Whole.unit {Has : ∀ {α : Type}, Lower α → Prop} {blank : Blank}
    (h : ∀ owner, Whole prog owner blank .any (First Has)) (model : ShaderModel) (used : Blank)
    (entry : MethodDecl) : Has (unit prog model used entry) := by
  have hShader := h prog.shader.name
  have hEntry := method ⟨prog, model, used, prog.shader.name, true, none⟩ hShader entryPoint entry
  have hPlain := @here _ _ _ ⟨prog, model, used, prog.shader.name, false, none⟩ hShader
  have hUnit : First Has True (Lower.unit prog model used entry) (Lower.unit prog model blank entry) :=
    hShader.bind hEntry fun written => hShader.bind (hPlain.recalling fun _ => prog.stable_reachableMethods)
      (afterEntry (P := True) h (fun _ type val _ _ => hPlain.tree (some type) val) written)
  exact hUnit

end Lower

end Shaderlift
