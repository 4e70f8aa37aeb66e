import Shaderlift.Call.Closure

/-!
Which constructs a shader may contain. The shader type and every method that it needs are walked once;
each rule looks at one node, and nothing stops the walk, so all broken rules are found.
-/

namespace Shaderlift

namespace Legality

open Track

/-- What the walk knows and finds: the method it is in, whether that is the entry point outside local
functions, and the broken rules, the latest first. -/
structure Findings where
  method : String
  inEntry : Bool
  found : List Diagnostic

abbrev Check := Track Findings

def report (rule : Rule) (span : Span) (args : List String) : Check Unit :=
  gather fun findings => { findings with found := Diagnostic.make rule (some span) args :: findings.found }

def checkModifiers (header : MethodHeader) : Check Unit := do
  if header.modifiers.contains .isAsync then report .asyncModifier header.span [header.name]
  if header.modifiers.contains .isUnsafe then report .unsafeModifier header.span [header.name]

mutual

def checkShape : TypeExpr → Check Unit
  | .pointer span _ => report .pointerType span []
  | .functionPointer span _ => report .functionPointerType span []
  | .tuple span _ => report .tupleType span []
  | .byRef span _ _ => report .refType span []
  | .named _ _ args => checkShapes args
  | .array _ element _ => checkShape element
  | .nullable _ target => checkShape target

def checkShapes : List TypeExpr → Check Unit
  | [] => pure ()
  | type :: rest => do
    checkShape type
    checkShapes rest

end

/-- Report a type without counterpart; a reference type or resource breaks the given rule. -/
def checkBodyType (program : Program) (type : TypeExpr) (rule : Rule) : Check Unit :=
  match program.meaning type with
  | .managed name => report rule type.span [name]
  | .resource _ => report rule type.span [type.render]
  | .unsupported name => report .invalidDiscoveredType type.span [name]
  | .value _ => pure ()
  | .forbidden _ => pure ()

def dispatchRule : DispatchInfo → Rule
  | .threadIds => .invalidThreadIdsUsage
  | .groupIds => .invalidGroupIdsUsage
  | .gridIds => .invalidGridIdsUsage
  | .groupSize => .invalidGroupSizeUsage
  | .dispatchSize => .invalidDispatchSizeUsage

/-- Report coordinates outside the entry point of a dispatched shader. -/
def checkDispatch (program : Program) (owner : String) (expr : Expr) : Check Unit := do
  let state ← get
  match Site.dispatchInfo? ⟨program, owner, state.scope⟩ expr with
  | some info =>
    if state.gathered.inEntry && program.kind.isDispatched then pure ()
    else report (dispatchRule info) expr.span [state.gathered.method]
  | none => pure ()

/-- Report a call of nothing, or of several things. -/
def checkCall (program : Program) (owner : String) (call callee : Expr) (args : List Argument) :
    Check Unit := do
  match ← meet program owner call callee args with
  | .unknown name => report .invalidMethodCall call.span [name]
  | .ambiguous name => report .ambiguousMethodCall call.span [name]
  | _ => pure ()

def isRowIndex : Option ValueType → Bool
  | some (.scalar .int) => true
  | some (.scalar .uint) => true
  | _ => false

def indexesRow (program : Program) (owner : String) (args : List Argument) : Check Bool :=
  match args with
  | [arg] => do pure (isRowIndex (← recalling program owner fun site => site.infer arg.value))
  | _ => pure false

/-- Report an access to a matrix by anything but constant positions or a row. -/
def checkIndex (program : Program) (owner : String) (span : Span) (target : Expr) (args : List Argument) :
    Check Unit := do
  match ← recalling program owner fun site => site.infer target with
  | some (.matrix _ _ _) =>
    let byRow ← indexesRow program owner args
    let constant := args.all fun arg => (Swizzle.index? arg.value).isSome
    if constant || byRow then pure () else report .nonConstantMatrixSwizzle span []
  | _ => pure ()

def checkLiteral (span : Span) : Literal → Check Unit
  | .str _ => report .stringLiteral span []
  | .char _ => report .unsupportedExpression span ["character literal"]
  | .null => report .unsupportedExpression span ["null literal"]
  | .real _ (some .m) => report .invalidDiscoveredType span ["decimal"]
  | .int _ _ .ul => report .invalidDiscoveredType span ["ulong"]
  | .int _ _ .l => report .invalidDiscoveredType span ["long"]
  | .int _ value .u => if value > 4294967295 then report .invalidDiscoveredType span ["ulong"] else pure ()
  | .int _ value .none =>
    if value > 4294967295 then report .invalidDiscoveredType span ["long"] else pure ()
  | _ => pure ()

/-- Report the creation of what a shader cannot create. -/
def checkConstruct (program : Program) (span : Span) (type : Option TypeExpr) (args : List Argument)
    (init : Option (List Expr)) : Check Unit := do
  match type with
  | some type =>
    match program.meaning type with
    | .value (.struct _) =>
      if args.isEmpty then pure () else report .invalidObjectCreation type.span [type.render]
    | _ => checkBodyType program type .invalidObjectCreation
  | none => pure ()
  if init.isSome then report .unsupportedExpression span ["object initializer"]

/-- Report what is wrong with an expression itself. -/
def checkExpr (program : Program) (owner : String) (expr : Expr) : Check Unit :=
  match expr with
  | .ident _ _ => checkDispatch program owner expr
  | .anonymous span _ => report .anonymousObject span []
  | .await span _ => report .awaitExpression span []
  | .checked span _ _ => report .checkedExpression span []
  | .query span _ => report .queryExpression span []
  | .range span _ _ => report .rangeExpression span []
  | .refTo span _ => report .refType span []
  | .sizeOfType span _ => report .sizeOfUse span []
  | .stackAlloc span _ _ _ => report .stackAlloc span []
  | .throwing span _ => report .throwing span []
  | .tuple span _ => report .tupleType span []
  | .unary span .indexFromEnd _ => report .rangeExpression span []
  | .unary span .addressOf _ => report .pointerType span []
  | .unary span .deref _ => report .pointerType span []
  | .literal span value => checkLiteral span value
  | .typeOfType span _ => report .unsupportedExpression span ["typeof"]
  | .asType span _ _ => report .unsupportedExpression span ["as"]
  | .binary span .coalesce _ _ => report .unsupportedExpression span ["null-coalescing"]
  | .assign span .coalesce _ _ => report .unsupportedExpression span ["null-coalescing"]
  | .member span _ _ true => report .unsupportedExpression span ["null-conditional access"]
  | .construct span type args init => checkConstruct program span type args init
  | .newArray span element _ _ => report .invalidObjectCreation span [element.render ++ "[]"]
  | .cast _ type _ => checkBodyType program type .invalidObjectCreation
  | .defaultOf _ (some type) => checkBodyType program type .invalidObjectCreation
  | .call _ callee _ args => checkCall program owner expr callee args
  | .index span target args => checkIndex program owner span target args
  | _ => pure ()

def checkPattern : Pattern → Check Unit
  | .recursive span _ _ _ _ => report .recursivePattern span []
  | .relational span _ _ => report .relationalPattern span []
  | .declaration span _ _ => report .unsupportedExpression span ["declaration pattern"]
  | .var span _ => report .unsupportedExpression span ["declaration pattern"]
  | .discard span => report .unsupportedExpression span ["discard pattern"]
  | _ => pure ()

def checkGuards : List SwitchLabel → Check Unit
  | [] => pure ()
  | .case _ (some guard) :: rest => do
    report .unsupportedExpression guard.span ["switch case guard"]
    checkGuards rest
  | _ :: rest => checkGuards rest

def checkStmt : Stmt → Check Unit
  | .forEach span _ _ _ _ => report .forEachStatement span []
  | .switchOn _ _ sections => checkGuards (sections.flatMap SwitchSection.labels)
  | .lock span _ _ => report .lockStatement span []
  | .tryCatch span _ _ _ => report .tryCatch span []
  | .throwing span _ => report .throwing span []
  | .usingBlock span _ _ _ => report .usingStatement span []
  | .yielding span _ => report .yielding span []
  | .checkedBlock span _ _ => report .checkedStatement span []
  | .unsafeBlock span _ => report .unsafeStatement span []
  | .fixedPointer span _ _ => report .fixedStatement span []
  | _ => pure ()

/-- Report what is wrong with a local declaration itself. -/
def checkDecl (program : Program) (decl : LocalDecl) : Check Unit := do
  if decl.isUsing then report .usingStatement decl.span []
  if decl.type.isInferred then pure () else checkBodyType program decl.type .invalidLocalType

/-- Walk a method in a frame of its own, knowing whether it is the entry point. -/
def inside (program : Program) (owner : String) (inEntry : Bool) (method : MethodDecl)
    (walk : Check Unit) : Check Unit := do
  checkModifiers method.header
  let before := (← get).gathered
  gather fun findings => { findings with method := Text.dotted owner method.name, inEntry }
  inMethod program method walk
  gather fun findings => { findings with method := before.method, inEntry := before.inEntry }

/-- The hooks that apply the rules. What is inside a recursive pattern is not looked at. -/
def visitor (program : Program) (owner : String) : Visitor (Tracked Findings) :=
  { type := checkShape
    expr := fun expr walk => do
      checkExpr program owner expr
      walk
    pattern := fun pattern walk => do
      checkPattern pattern
      match pattern with
      | .recursive _ _ _ _ _ => pure ()
      | _ => walk
    block := fun block walk => inBlock program block.stmts walk
    stmt := fun stmt walk => do
      checkStmt stmt
      match stmt with
      | .forLoop _ _ _ _ _ => framed walk
      | .forEach _ _ name _ _ => within (fun scope => scope.push.declare name none) walk
      | _ => walk
    decl := fun decl walk => do
      checkDecl program decl
      walk
      declareAll program owner decl.type decl.declarators
    method := fun method walk => inside program owner false method walk }

def checkMethod (program : Program) (owner : String) (inEntry : Bool) (method : MethodDecl) : Check Unit :=
  inside program owner inEntry method ((visitor program owner).walkMethod method)

/-- Walk the initial value of a field. The items of an array are walked without the array itself, since
fields may be arrays. -/
def checkInit (program : Program) (owner : String) : Expr → Check Unit
  | .newArray _ _ sizes init => do
    (visitor program owner).visitExprs sizes
    (visitor program owner).visitInit init
  | .arrayInit _ items => (visitor program owner).visitExprs items
  | init => (visitor program owner).visitExpr init

/-- Walk the initial values of declared names in order. -/
def checkInits (program : Program) (owner : String) : List Declarator → Check Unit
  | [] => pure ()
  | declarator :: rest => do
    match declarator.init with
    | some init => checkInit program owner init
    | none => pure ()
    checkInits program owner rest

def checkField (program : Program) (owner : String) (field : FieldDecl) : Check Unit := do
  if field.modifiers.contains .isUnsafe then
    report .unsafeModifier field.span [(field.declarators.head?.map Declarator.name).getD ""]
  checkShape field.type
  gather fun findings => { findings with method := owner ++ ".<field>" }
  checkInits program owner field.declarators

/-- Walk the fields and methods of the shader in order; `position` counts the methods. -/
def checkMembers (program : Program) (position : Nat) : List Member → Check Unit
  | [] => pure ()
  | .field field :: rest => do
    checkField program program.shader.name field
    checkMembers program position rest
  | .method method :: rest => do
    let isEntry := program.entry.map Prod.fst == some position
    checkMethod program program.shader.name isEntry method
    checkMembers program (position + 1) rest
  | _ :: rest => checkMembers program position rest

def checkHelpers (program : Program) : List MethodKey → Check Unit
  | [] => pure ()
  | key :: rest => do
    if key.owner == program.shader.name then pure ()
    else
      match program.method? key with
      | some method => checkMethod program key.owner false method
      | none => pure ()
    checkHelpers program rest

/-- Walk the shader and the methods that it needs. -/
def checkAll (program : Program) : Check Unit := do
  if program.shader.header.modifiers.contains .isUnsafe then
    report .unsafeModifier program.shader.span [program.shader.name]
  checkMembers program 0 program.shader.members
  let helpers ← recalling program program.shader.name fun _ => program.reachableMethods
  checkHelpers program helpers

end Legality

def Program.legality (program : Program) : Recall Report :=
  fun memo =>
    let (_, state) := Legality.checkAll program (.start memo ⟨"", false, []⟩)
    (state.gathered.found.reverse, state.memo)

end Shaderlift
