import Shaderlift.Proofs.Lowering.Scoping

/-!
# Where returned values go

The entry point of a shader that is run for each pixel writes the values that it returns to the output texture.
`OutStmt.redirect` does this to written statements: each return of a value, at any depth, becomes a block of the
write and a bare return. The main result of the module, `entry_eq_redirect`, says that this is all that sets the
entry point apart: it is written as a method that returns a pixel would be written anywhere else, and redirected.
Local functions of the entry point are not.
-/

namespace Shaderlift

/-! ## Redirected statements -/

/-- What stands before a value that is written to the output texture. -/
def outputTarget : String := outputTexture ++ "[ThreadIds.xy] = "

mutual

/-- Write the values that a statement returns to the output texture. -/
def OutStmt.redirect : OutStmt → OutStmt
  | .block list => .block (redirectStmts list)
  | .line text => .line text
  | .ifElse cond thenBranch elseBranch => .ifElse cond thenBranch.redirect (redirectStmt? elseBranch)
  | .whileLoop cond body => .whileLoop cond body.redirect
  | .doWhile body cond => .doWhile body.redirect cond
  | .forLoop init cond step body => .forLoop init cond step body.redirect
  | .switchOn scrutinee sections => .switchOn scrutinee (redirectSections sections)
  | .returning (some val) => .block [.line (outputTarget ++ val ++ ";"), .returning none]
  | .returning none => .returning none

def redirectStmt? : Option OutStmt → Option OutStmt
  | some stmt => some stmt.redirect
  | none => none

def redirectStmts : List OutStmt → List OutStmt
  | [] => []
  | stmt :: rest => stmt.redirect :: redirectStmts rest

def redirectSections : List OutSection → List OutSection
  | [] => []
  | ⟨labels, body⟩ :: rest => ⟨labels, redirectStmts body⟩ :: redirectSections rest

end

mutual

/-- Count the lines of a statement that pass a test, and the returned values that pass another. -/
def OutStmt.count (line value : String → Bool) : OutStmt → Nat
  | .block list => countStmts line value list
  | .line text => (line text).toNat
  | .ifElse _ thenBranch elseBranch => thenBranch.count line value + countStmt? line value elseBranch
  | .whileLoop _ body => body.count line value
  | .doWhile body _ => body.count line value
  | .forLoop _ _ _ body => body.count line value
  | .switchOn _ sections => countSections line value sections
  | .returning (some text) => (value text).toNat
  | .returning none => 0

def countStmt? (line value : String → Bool) : Option OutStmt → Nat
  | some stmt => stmt.count line value
  | none => 0

def countStmts (line value : String → Bool) : List OutStmt → Nat
  | [] => 0
  | stmt :: rest => stmt.count line value + countStmts line value rest

def countSections (line value : String → Bool) : List OutSection → Nat
  | [] => 0
  | ⟨_, body⟩ :: rest => countStmts line value body + countSections line value rest

end

/-- Decide whether a line writes to the output texture. -/
def isWrite (text : String) : Bool := outputTarget.toList.isPrefixOf text.toList

/-- Count the writes to the output texture in statements. -/
def writes (list : List OutStmt) : Nat := countStmts isWrite (fun _ => false) list

def valueReturns (list : List OutStmt) : Nat := countStmts (fun _ => false) (fun _ => true) list

theorem isWrite_outputTarget (val : String) : isWrite (outputTarget ++ val) = true := by
  rw [isWrite, String.toList_append, List.isPrefixOf_iff_prefix]
  exact List.prefix_append _ _

section

variable (line val : String → Bool)

mutual

theorem OutStmt.count_redirect (stmt : OutStmt) : stmt.redirect.count line val =
      stmt.count line (fun text => line (outputTarget ++ text ++ ";")) := by
  cases stmt with
  | block list => exact countStmts_redirect list
  | line => rfl
  | ifElse _ thenBranch elseBranch =>
    exact congrArg₂ (· + ·) (thenBranch.count_redirect) (countStmt?_redirect elseBranch)
  | whileLoop _ body | doWhile body | forLoop _ _ _ body => exact body.count_redirect
  | switchOn _ sections => exact countSections_redirect sections
  | returning returned =>
    cases returned with
    | none => rfl
    | some => rfl

theorem countStmt?_redirect (stmt : Option OutStmt) : countStmt? line val (redirectStmt? stmt) =
      countStmt? line (fun text => line (outputTarget ++ text ++ ";")) stmt := by
  cases stmt with
  | none => rfl
  | some stmt => exact stmt.count_redirect

theorem countStmts_redirect (list : List OutStmt) : countStmts line val (redirectStmts list) =
      countStmts line (fun text => line (outputTarget ++ text ++ ";")) list := by
  match list with
  | [] => rfl
  | stmt :: rest =>
    exact congrArg₂ (· + ·) (stmt.count_redirect) (countStmts_redirect rest)

theorem countSections_redirect (sections : List OutSection) : countSections line val (redirectSections sections) =
      countSections line (fun text => line (outputTarget ++ text ++ ";")) sections := by
  match sections with
  | [] => rfl
  | ⟨_, body⟩ :: rest =>
    exact congrArg₂ (· + ·) (countStmts_redirect body) (countSections_redirect rest)

end

mutual

theorem OutStmt.count_eq_add (stmt : OutStmt) :
    stmt.count line val = stmt.count line (fun _ => false) + stmt.count (fun _ => false) val := by
  cases stmt with
  | block list => exact countStmts_eq_add list
  | line => rfl
  | ifElse _ thenBranch elseBranch =>
    have hThen := thenBranch.count_eq_add
    have hElse := countStmt?_eq_add elseBranch
    simp only [OutStmt.count]
    omega
  | whileLoop _ body | doWhile body | forLoop _ _ _ body => exact body.count_eq_add
  | switchOn _ sections => exact countSections_eq_add sections
  | returning returned =>
    cases returned with
    | none => rfl
    | some => simp [OutStmt.count]

theorem countStmt?_eq_add (stmt : Option OutStmt) :
    countStmt? line val stmt = countStmt? line (fun _ => false) stmt + countStmt? (fun _ => false) val stmt := by
  cases stmt with
  | none => rfl
  | some stmt => exact stmt.count_eq_add

theorem countStmts_eq_add (list : List OutStmt) :
    countStmts line val list = countStmts line (fun _ => false) list + countStmts (fun _ => false) val list := by
  match list with
  | [] => rfl
  | stmt :: rest =>
    have hFirst := stmt.count_eq_add
    have hRest := countStmts_eq_add rest
    simp only [countStmts]
    omega

theorem countSections_eq_add (sections : List OutSection) : countSections line val sections =
      countSections line (fun _ => false) sections + countSections (fun _ => false) val sections := by
  match sections with
  | [] => rfl
  | ⟨_, body⟩ :: rest =>
    have hBody := countStmts_eq_add body
    have hRest := countSections_eq_add rest
    simp only [countSections]
    omega

end

end

theorem valueReturns_redirectStmts (list : List OutStmt) : valueReturns (redirectStmts list) = 0 := by
  have hNone := countStmts_eq_add (fun _ => false) (fun _ => false) list
  rw [valueReturns, countStmts_redirect]
  omega

/-- Redirected statements write each returned value once, besides what they wrote before. -/
theorem writes_redirectStmts (list : List OutStmt) : writes (redirectStmts list) = valueReturns list + writes list := by
  have hVal : (fun text => isWrite (outputTarget ++ text ++ ";")) = fun _ => true := by
    funext text
    rw [String.append_assoc]
    exact isWrite_outputTarget _
  rw [writes, countStmts_redirect, hVal, countStmts_eq_add, Nat.add_comm]
  rfl

/-! ## Return sites of the source -/

mutual

/-- Count the returns of values in a statement, outside its local functions. -/
def Stmt.returnSites : Stmt → Nat
  | .block _ body | .checkedBlock _ _ body | .unsafeBlock _ body => body.returnSites
  | .ifElse _ _ thenBranch elseBranch => thenBranch.returnSites + returnSites? elseBranch
  | .whileLoop _ _ body | .doWhile _ body _ | .forLoop _ _ _ _ body | .forEach _ _ _ _ body | .lock _ _ body
  | .usingBlock _ _ _ body | .fixedPointer _ _ body => body.returnSites
  | .switchOn _ _ sections => sectionSites sections
  | .tryCatch _ body catches last => body.returnSites + catchSites catches + blockSites? last
  | .returning _ (some _) => 1
  | .returning _ none | .declare _ _ | .localFunction _ _ | .expr _ _ | .breaking _ | .continuing _ | .throwing _ _
  | .yielding _ _ | .empty _ => 0

def returnSites? : Option Stmt → Nat
  | some stmt => stmt.returnSites
  | none => 0

def listSites : List Stmt → Nat
  | [] => 0
  | stmt :: rest => stmt.returnSites + listSites rest

def Block.returnSites : Block → Nat
  | ⟨list, _⟩ => listSites list

def blockSites? : Option Block → Nat
  | some body => body.returnSites
  | none => 0

def sectionSites : List SwitchSection → Nat
  | [] => 0
  | ⟨_, list, _⟩ :: rest => listSites list + sectionSites rest

def catchSites : List CatchClause → Nat
  | [] => 0
  | ⟨_, _, _, body⟩ :: rest => body.returnSites + catchSites rest

end

/-- Count the returns of values in a method, outside its local functions. An expression for a body returns its
value unless the method returns nothing. -/
def MethodDecl.returnSites (method : MethodDecl) : Nat :=
  match method.body with
  | some (.block body) => body.returnSites
  | some (.expr _) => (!method.header.returnType.isVoid).toNat
  | none => 0

mutual

theorem count_of_mirrors {stmt : Stmt} {out : OutStmt} (hMirrors : Mirrors false stmt out) :
    out.count (fun _ => false) (fun _ => true) = stmt.returnSites := by
  cases hMirrors with
  | block hList | unsafeBlock hList => exact count_of_mirrorsBlock hList
  | ifElse hThen hElse => exact congrArg₂ (· + ·) (count_of_mirrors hThen) (count_of_mirrorsElse hElse)
  | whileLoop hBody | doWhile hBody | forLoop hBody =>
    have hCount := count_of_mirrors hBody
    exact hCount
  | switchOn hSections => exact count_of_mirrorsSections hSections
  | write hWrites => cases hWrites
  | declare | localFunction | expr | returning | value | breaking | continuing | empty => rfl

theorem count_of_mirrorsElse {stmt : Option Stmt} {out : Option OutStmt} (hMirrors : MirrorsElse false stmt out) :
    countStmt? (fun _ => false) (fun _ => true) out = returnSites? stmt := by
  cases hMirrors with
  | none => rfl
  | some hStmt => exact count_of_mirrors hStmt

theorem count_of_mirrorsBlock {list : List Stmt} {outs : List OutStmt} (hMirrors : MirrorsBlock false list outs) :
    countStmts (fun _ => false) (fun _ => true) outs = listSites list := by
  cases hMirrors with
  | nil => rfl
  | function hRest => exact (count_of_mirrorsBlock hRest).trans (Nat.zero_add _).symm
  | cons _ hFirst hRest => exact congrArg₂ (· + ·) (count_of_mirrors hFirst) (count_of_mirrorsBlock hRest)

theorem count_of_mirrorsList {list : List Stmt} {outs : List OutStmt} (hMirrors : MirrorsList false list outs) :
    countStmts (fun _ => false) (fun _ => true) outs = listSites list := by
  cases hMirrors with
  | nil => rfl
  | cons hFirst hRest => exact congrArg₂ (· + ·) (count_of_mirrors hFirst) (count_of_mirrorsList hRest)

theorem count_of_mirrorsSections {list : List SwitchSection} {outs : List OutSection}
    (hMirrors : MirrorsSections false list outs) :
    countSections (fun _ => false) (fun _ => true) outs = sectionSites list := by
  cases hMirrors with
  | nil => rfl
  | cons _ hBody hRest => exact congrArg₂ (· + ·) (count_of_mirrorsList hBody) (count_of_mirrorsSections hRest)

end

/-- A body that keeps the returns of a method returns as many values as there are sites. -/
theorem valueReturns_of_mirrors {method : MethodDecl} {outs : List OutStmt} (hMirrors : MirrorsBody false method outs) :
    valueReturns outs = method.returnSites := by
  cases hMirrors with
  | block hList => exact count_of_mirrorsBlock hList
  | none => rfl
  | line hVoid hOut =>
    rw [MethodDecl.returnSites, hVoid]
    cases hOut
    rfl
  | value hVoid hOut =>
    rw [MethodDecl.returnSites, hVoid]
    cases hOut with
    | value => rfl
    | write hWrites => cases hWrites

/-! ## The entry point as a method elsewhere -/

/-- The setting of a place outside the entry point, in a method that returns a pixel. -/
abbrev LowerContext.pixelSetting (context : LowerContext) : Setting := (context.blank, false, context.model.pixelType)

/-- A place that is like another, but outside the entry point and in a method that returns a pixel. -/
def LowerContext.elsewhere (context : LowerContext) : LowerContext :=
  { context with inEntry := false, returnType := context.model.pixelType }

@[simp]
theorem LowerContext.program_elsewhere (ctx : LowerContext) : ctx.elsewhere.program = ctx.program := rfl

namespace Lower

open Track Legality

/-- Two actions are the same. -/
def Same : Prop → ∀ {α : Type}, Lower α → Lower α → Prop := fun _ _ first second => second = first

theorem noting_same : Noting Same where
  of_imp hSame _ := hSame
  pure _ := rfl
  bind hFirst hNext := by rw [Same, hFirst, funext hNext]
  struct _ := rfl
  note _ := rfl

/-- Writing an expression looks at neither the entry point nor the returned type. -/
theorem exprOn_elsewhere (fuel : Nat) (ctx : LowerContext) (hint : Option ValueType) (val : Expr) :
    exprOn fuel ctx.elsewhere hint val = exprOn fuel ctx hint val := by
  induction fuel generalizing ctx hint val with
  | zero => rfl
  | succ fuel ih =>
    have hSame : Closed (exprOn fuel) (exprOn fuel) ctx ctx.pixelSetting .any Same :=
      { noting_same with
        blank := fun _ _ => rfl
        site := rfl
        infer := fun _ => rfl
        static := fun owner name =>
          noting_same.bind rfl fun _ => noting_same.ite rfl <| noting_same.bind rfl fun _ =>
            noting_same.declareStatic owner name (fun _ => rfl) fun type _ _ =>
              congrArg (within _) <| noting_same.staticInit (P := True) fun val _ _ =>
                ih { ctx with owner } (some type) val
        call := fun _ _ _ args _ _ _ hWrite =>
          noting_same.bind rfl fun found =>
            noting_same.call args found (fun _ _ _ _ _ _ val _ => ih ctx none val) hWrite }
    exact hSame.exprWith hint val

/-! ## Parts of statements -/

theorem plain_same (ctx : LowerContext) : Plain ctx ctx.pixelSetting .any Same :=
  { noting_same with
    recalling := fun _ => rfl
    declare := fun _ _ => rfl
    within := fun change _ _ hSame => congrArg (Track.within change) hSame
    untyped := fun _ => rfl
    tree := exprOn_elsewhere _ ctx }

variable {ctx : LowerContext}

theorem hinted_elsewhere (hint : Option ValueType) (val : Expr) :
    hinted ctx.elsewhere hint val = hinted ctx hint val := (plain_same ctx).hinted hint val

theorem expr_elsewhere (val : Expr) : expr ctx.elsewhere val = expr ctx val :=
  hinted_elsewhere none val

theorem exprs_elsewhere (values : List Expr) : exprs ctx.elsewhere values = exprs ctx values :=
  (plain_same ctx).exprs values

theorem expr?_elsewhere (val : Option Expr) : expr? ctx.elsewhere val = expr? ctx val :=
  (plain_same ctx).expr? val

theorem localDecl_elsewhere (decl : LocalDecl) : localDecl ctx.elsewhere decl = localDecl ctx decl :=
  (plain_same ctx).localDecl decl

theorem forInit_elsewhere (init : Option ForInit) : forInit ctx.elsewhere init = forInit ctx init :=
  (plain_same ctx).forInit init

theorem labels_elsewhere (list : List SwitchLabel) : labels ctx.elsewhere list = labels ctx list :=
  (plain_same ctx).labels list

/-! ## Statements -/

theorem map_within {α β : Type} (result : α → β) (change : Scope → Scope) (action : Lower α) :
    result <$> within change action = within change (result <$> action) := rfl

/-- What is returned is the pixel that the entry point writes. -/
def Redirects (context : LowerContext) : Prop := (context.inEntry && context.program.kind == .pixel) = true

theorem returnValue_eq_redirect (hRedirects : Redirects ctx) (val : Expr) :
    returnValue ctx val = OutStmt.redirect <$> returnValue ctx.elsewhere val := by
  unfold Redirects at hRedirects
  unfold returnValue
  rw [if_pos hRedirects, if_neg (by simp [LowerContext.elsewhere]), hinted_elsewhere]
  simp only [map_bind, map_pure]
  rfl

attribute [local simp] stmt stmt? stmts blockStmts switchSections OutStmt.redirect redirectStmt? redirectStmts
  redirectSections expr_elsewhere

mutual

/-- A statement of the entry point is written as it would be elsewhere, and redirected. -/
theorem stmt_eq_redirect {ctx : LowerContext} (hRedirects : Redirects ctx) (written : Stmt) :
    stmt ctx written = OutStmt.redirect <$> stmt ctx.elsewhere written := by
  cases written with
  | block _ body | checkedBlock _ _ body | unsafeBlock _ body => simp [block_eq_redirect hRedirects body]
  | declare _ decl => simp [localDecl_elsewhere]
  | localFunction _ fn => simp [lift_elsewhere ctx fn]
  | expr _ val => simp
  | ifElse _ cond thenBranch elseBranch =>
    simp [stmt_eq_redirect hRedirects thenBranch, stmt?_eq_redirect hRedirects elseBranch]
  | whileLoop _ cond body | doWhile _ body cond => simp [stmt_eq_redirect hRedirects body]
  | forLoop _ init cond step body =>
    simp [framed, map_within, forInit_elsewhere, expr?_elsewhere, exprs_elsewhere, stmt_eq_redirect hRedirects body]
  | switchOn _ scrutinee sections => simp [switchSections_eq_redirect hRedirects sections]
  | returning _ val =>
    cases val with
    | none => rfl
    | some val => exact returnValue_eq_redirect hRedirects val
  | breaking | continuing | empty | forEach | lock | tryCatch | throwing | usingBlock | yielding | fixedPointer => rfl

theorem stmt?_eq_redirect {ctx : LowerContext} (hRedirects : Redirects ctx) (written : Option Stmt) :
    stmt? ctx written = redirectStmt? <$> stmt? ctx.elsewhere written := by
  cases written with
  | none => rfl
  | some written => simp [stmt_eq_redirect hRedirects written]

theorem stmts_eq_redirect {ctx : LowerContext} (hRedirects : Redirects ctx) (list : List Stmt) :
    stmts ctx list = redirectStmts <$> stmts ctx.elsewhere list := by
  match list with
  | [] => rfl
  | first :: rest => simp [stmt_eq_redirect hRedirects first, stmts_eq_redirect hRedirects rest]

theorem blockStmts_eq_redirect {ctx : LowerContext} (hRedirects : Redirects ctx) (list : List Stmt) :
    blockStmts ctx list = redirectStmts <$> blockStmts ctx.elsewhere list := by
  match list with
  | [] => rfl
  | first :: rest =>
    have hRest := blockStmts_eq_redirect hRedirects rest
    have hFirst := stmt_eq_redirect hRedirects first
    cases first with
    | localFunction _ fn => simp [lift_elsewhere ctx fn, hRest]
    | _ => simp [hFirst, hRest, -stmt]

theorem block_eq_redirect {ctx : LowerContext} (hRedirects : Redirects ctx) (body : Block) :
    block ctx body = redirectStmts <$> block ctx.elsewhere body := by
  match body with
  | ⟨list, _⟩ => simp [block, inBlock, map_within, blockStmts_eq_redirect hRedirects list]

theorem switchSections_eq_redirect {ctx : LowerContext} (hRedirects : Redirects ctx) (sections : List SwitchSection) :
    switchSections ctx sections = redirectSections <$> switchSections ctx.elsewhere sections := by
  match sections with
  | [] => rfl
  | ⟨marks, list, _⟩ :: rest =>
    simp [framed, labels_elsewhere, stmts_eq_redirect hRedirects list, ← map_within,
      switchSections_eq_redirect hRedirects rest]

/-- A local function is the same function whether it stands in the entry point or not. -/
theorem lift_elsewhere (ctx : LowerContext) (fn : MethodDecl) : lift ctx fn = lift ctx.elsewhere fn := by
  match fn with
  | ⟨header, body⟩ => rfl

end

theorem bodyOf_eq_redirect {ctx : LowerContext} (hRedirects : Redirects ctx) (isVoid : Bool)
    (body : Option MethodBody) : bodyOf ctx isVoid body = redirectStmts <$> bodyOf ctx.elsewhere isVoid body := by
  rcases body with _ | (body | val)
  · rfl
  · exact block_eq_redirect hRedirects body
  · unfold bodyOf
    split
    · simp
    · simp [returnValue_eq_redirect hRedirects]

/-! ## The entry point -/

def redirectBody (function : OutFunction) : OutFunction := { function with body := redirectStmts function.body }

/-- Write the entry point as a method that returns a pixel. -/
def plainEntry (program : Program) (model : ShaderModel) (entry : MethodDecl) : Lower OutFunction :=
  functionOf program entryPoint entry.header
    (bodyOf ⟨program, model, .standard, program.shader.name, false, model.pixelType⟩
      entry.header.returnType.isVoid entry.body)

/-- The entry point of a shader that is run for each pixel is written as a method that returns a pixel, with the
same effects, and redirected. -/
theorem entry_eq_redirect {prog : Program} (hPixel : prog.kind = .pixel) (model : ShaderModel) (entry : MethodDecl) :
    method ⟨prog, model, .standard, prog.shader.name, true, none⟩ entryPoint entry =
      redirectBody <$> plainEntry prog model entry := by
  have hBody := @bodyOf_eq_redirect ⟨prog, model, .standard, prog.shader.name, true,
    prog.valueType? entry.header.returnType⟩ (by simp [Redirects, hPixel]) entry.header.returnType.isVoid entry.body
  unfold method
  dsimp only
  rw [hBody]
  simp only [plainEntry, functionOf, ← map_within, map_bind, bind_map_left, map_pure]
  rfl

/-- Before it is redirected, the entry point stands for its method as any other function does, returned values
included. -/
theorem Ending.Follows.standsFor_plainEntry {ending : Ending} {model : ShaderModel} {entry : MethodDecl}
    {start : Tracked Gathered} {needed : List MethodKey} (hFollows : ending.Follows model entry start needed)
    (hFair : ending.Fair) (hPixel : ending.program.kind = .pixel) :
    StandsFor ending false (entryPoint, entry) (plainEntry ending.program model entry start).1 := by
  have hEntry := congrArg (fun action => (action start).2) (entry_eq_redirect hPixel model entry)
  have hLater : Later ending.program (plainEntry ending.program model entry start).2 ending.last :=
    (show _ = (plainEntry ending.program model entry start).2 from hEntry) ▸ hFollows.later_entry hFair
  have hAll := hFollows.passes
  unfold MethodDecl.all at hAll
  obtain ⟨header, body⟩ := entry
  have hHosts : ending.Hosts ⟨ending.program, model, .standard, ending.program.shader.name, false, model.pixelType⟩ :=
    ⟨rfl, rfl, hFollows.pixelType, hFollows.pixelType⟩
  have hPlain : Scopes ending True (liftedBody body) (StandsFor ending false (entryPoint, ⟨header, body⟩))
      (plainEntry ending.program model ⟨header, body⟩) :=
    scopes_functionOf entryPoint ⟨header, body⟩
      (scopes_bodyOf hFair hHosts header body (Bool.and_eq_true_iff.mp hAll).2)
  exact (hPlain.holds trivial start hFollows.sound hLater).2.1

end Lower

end Shaderlift
