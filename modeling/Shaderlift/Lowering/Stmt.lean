import Shaderlift.Lowering.Expr

/-!
Writing statements and methods in the output language. Control flow is kept statement by statement. Local
functions become functions of their own, and a shader that is run for each pixel writes to its output
texture where its entry point returns a value.
-/

namespace Shaderlift

def outputTexture : String := "__outputTexture"

namespace Lower

open Track

def passingText : Option Passing → String
  | some .byRef => "inout "
  | some .byOut => "out "
  | some .byIn => "in "
  | _ => ""

def param (program : Program) (param : Param) : Lower String := do
  let type ← spellWritten program param.type
  let suffix := ((program.valueType? param.type).map ValueType.suffix).getD ""
  pure (passingText param.passing ++ type ++ " " ++ Reserved.identifier param.name ++ suffix)

def params (program : Program) : List Param → Lower (List String)
  | [] => pure []
  | first :: rest => do
    let text ← param program first
    let others ← params program rest
    pure (text :: others)

/-- Report the names of a declaration whose type cannot be told. -/
def reportUntyped (declarators : List Declarator) : Lower Unit :=
  gather fun g =>
    { g with
      report := g.report ++ declarators.map fun declarator =>
        Diagnostic.make .uninferrableLocalType (some declarator.span) [declarator.name] }

/-- Find the type of a declaration: the written type, or the type of the first initial value. -/
def declType (context : LowerContext) (decl : LocalDecl) : Lower (Option ValueType) :=
  if decl.type.isInferred then do
    let inferred ←
      match decl.declarators.head?.bind Declarator.init with
      | some init => look context fun site => site.infer init
      | none => pure none
    if inferred.isNone then reportUntyped decl.declarators
    pure inferred
  else pure (context.program.valueType? decl.type)

/-- Write declared names in order, declaring each after its initial value. -/
def declarators (context : LowerContext) (type : Option ValueType) : List Declarator → Lower (List String)
  | [] => pure []
  | declarator :: rest => do
    let name := Reserved.identifier declarator.name
    let text ←
      match declarator.init with
      | some init => do pure (name ++ " = " ++ (← hinted context type init))
      | none => pure name
    inScope (·.declare declarator.name type)
    let others ← declarators context type rest
    pure (text :: others)

/-- Write a local declaration without the mark at its end. -/
def localDecl (context : LowerContext) (decl : LocalDecl) : Lower String := do
  let type ← declType context decl
  let spelled ←
    match type with
    | some type => spell type
    | none => pure decl.type.render
  let parts ← declarators context type decl.declarators
  pure ((if decl.isConst then "const " else "") ++ spelled ++ " " ++ Text.joinWith ", " parts)

def expr? (context : LowerContext) : Option Expr → Lower String
  | some value => expr context value
  | none => pure ""

def forInit (context : LowerContext) : Option ForInit → Lower String
  | some (.decl decl) => localDecl context decl
  | some (.exprs values) => do pure (Text.joinWith ", " (← exprs context values))
  | none => pure ""

def returnValue (context : LowerContext) (value : Expr) : Lower OutStmt :=
  if context.inEntry && context.program.kind == .pixel then do
    let text ← hinted context context.model.pixelType value
    pure (.block [.line (outputTexture ++ "[ThreadIds.xy] = " ++ text ++ ";"), .returning none])
  else do pure (.returning (some (← hinted context context.returnType value)))

def returnStmt (context : LowerContext) : Option Expr → Lower OutStmt
  | some value => returnValue context value
  | none => pure (.returning none)

def label (context : LowerContext) : SwitchLabel → Lower String
  | .case (.constant value) _ => do pure ("case " ++ (← expr context value) ++ ":")
  | .case _ _ => pure "default:"
  | .otherwise => pure "default:"

def labels (context : LowerContext) : List SwitchLabel → Lower (List String)
  | [] => pure []
  | first :: rest => do
    let text ← label context first
    let others ← labels context rest
    pure (text :: others)

def functionOf (program : Program) (name : String) (header : MethodHeader) (body : Lower (List OutStmt)) :
    Lower OutFunction := do
  let texts ← params program header.params
  let returnType ← spellWritten program header.returnType
  let stmts ← within (fun scope => withParams program header.params scope.push) body
  pure ⟨name, returnType, texts, [], stmts⟩

mutual

def stmt (context : LowerContext) : Stmt → Lower OutStmt
  | .block _ body => do pure (.block (← block context body))
  | .declare _ decl => do pure (.line ((← localDecl context decl) ++ ";"))
  | .localFunction _ function => do
    lift context function
    pure (.line ";")
  | .expr _ value => do pure (.line ((← expr context value) ++ ";"))
  | .ifElse _ cond thenBranch elseBranch => do
    let test ← expr context cond
    let first ← stmt context thenBranch
    let second ← stmt? context elseBranch
    pure (.ifElse test first second)
  | .whileLoop _ cond body => do
    let test ← expr context cond
    pure (.whileLoop test (← stmt context body))
  | .doWhile _ body cond => do
    let inner ← stmt context body
    pure (.doWhile inner (← expr context cond))
  | .forLoop _ init cond step body => framed do
      let start ← forInit context init
      let test ← expr? context cond
      let steps ← exprs context step
      let inner ← stmt context body
      pure (.forLoop start test (Text.joinWith ", " steps) inner)
  | .switchOn _ scrutinee sections => do
    let subject ← expr context scrutinee
    pure (.switchOn subject (← switchSections context sections))
  | .returning _ value => returnStmt context value
  | .checkedBlock _ _ body => do pure (.block (← block context body))
  | .unsafeBlock _ body => do pure (.block (← block context body))
  | .breaking _ => pure (.line "break;")
  | .continuing _ => pure (.line "continue;")
  | .empty _ => pure (.line ";")
  | _ => pure (.line context.blank.stmt)

def stmt? (context : LowerContext) : Option Stmt → Lower (Option OutStmt)
  | some body => do pure (some (← stmt context body))
  | none => pure none

def stmts (context : LowerContext) : List Stmt → Lower (List OutStmt)
  | [] => pure []
  | first :: rest => do
    let text ← stmt context first
    let others ← stmts context rest
    pure (text :: others)

/-- Write the statements of a block; its local functions leave no statement behind. -/
def blockStmts (context : LowerContext) : List Stmt → Lower (List OutStmt)
  | [] => pure []
  | .localFunction _ function :: rest => do
    lift context function
    blockStmts context rest
  | first :: rest => do
    let text ← stmt context first
    let others ← blockStmts context rest
    pure (text :: others)

def block (context : LowerContext) (body : Block) : Lower (List OutStmt) :=
  match body with
  | ⟨list, _⟩ => inBlock context.program list (blockStmts context list)

def switchSections (context : LowerContext) : List SwitchSection → Lower (List OutSection)
  | [] => pure []
  | ⟨marks, list, _⟩ :: rest => do
    let texts ← labels context marks
    let body ← framed (stmts context list)
    let others ← switchSections context rest
    pure (⟨texts, body⟩ :: others)

def lift (context : LowerContext) (function : MethodDecl) : Lower Unit :=
  match function with
  | ⟨header, body⟩ => do
    let inner :=
      { context with inEntry := false, returnType := context.program.valueType? header.returnType }
    let lifted ←
      functionOf context.program (Reserved.identifier header.name) header
        (bodyOf inner header.returnType.isVoid body)
    gather fun g => { g with helpers := g.helpers ++ [lifted] }

def bodyOf (context : LowerContext) (isVoid : Bool) : Option MethodBody → Lower (List OutStmt)
  | some (.block body) => block context body
  | some (.expr value) =>
    if isVoid then do pure [.line ((← expr context value) ++ ";")]
    else do pure [← returnValue context value]
  | none => pure []

end

def method (context : LowerContext) (name : String) (method : MethodDecl) : Lower OutFunction :=
  let inner := { context with returnType := context.program.valueType? method.header.returnType }
  functionOf context.program name method.header (bodyOf inner method.header.returnType.isVoid method.body)

end Lower

end Shaderlift
