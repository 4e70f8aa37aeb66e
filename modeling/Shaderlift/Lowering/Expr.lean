import Shaderlift.Builtin.Constant
import Shaderlift.Builtin.Swizzle
import Shaderlift.Lowering.Basic

/-!
Writing expressions in the output language. An expression may pull in others from elsewhere: the default
values of parameters, and the initial values of static fields of other types. What is pulled in is written
by a parameter of the writer, which is tied to the writer itself a bounded number of times.
-/

namespace Shaderlift

namespace Literal

def isMarkedReal (digits : String) : Bool :=
  digits.toList.any fun c => c == '.' || c == 'e' || c == 'E'

def realDigits (digits : String) : String := if isMarkedReal digits then digits else digits ++ ".0"

def written : Literal → OutExpr
  | .int _ value suffix =>
    .int (if suffix == .u || suffix == .ul || value > 2147483647 then toString value ++ "u"
      else toString value)
  | .real digits (some .f) => .real (realDigits digits ++ "f")
  | .real digits _ => .real (realDigits digits ++ "L")
  | .bool true => .word "true"
  | .bool false => .word "false"
  | .char value => .int (toString value.toNat)
  | .str _ => .int "0"
  | .null => .int "0"

end Literal

def AssignOp.written : AssignOp → AssignOp
  | .coalesce => .assign
  | op => op

namespace Lower

open Track

abbrev Pull := LowerContext → Option ValueType → Expr → Lower OutExpr

def extent (kind : ShaderKind) : List OutExpr :=
  [.ident "__x", .ident "__y", if kind == .pixel then .int "1" else .ident "__z"]

def noteIds (change : SpecialIds → SpecialIds) : Lower Unit :=
  gather fun g => { g with ids := change g.ids }

def noteGroupSize : Lower Unit := gather fun g => { g with usesGroupSize := true }

def dispatchValue (kind : ShaderKind) : DispatchInfo → Lower OutExpr
  | .threadIds => pure (.cast "int3" (.ident "ThreadIds"))
  | .groupIds => do
    noteIds fun ids => { ids with groupThreadIds := true }
    pure (.cast "int3" (.ident "GroupIds"))
  | .gridIds => do
    noteIds fun ids => { ids with gridIds := true }
    pure (.cast "int3" (.ident "GridIds"))
  | .groupSize => do
    noteGroupSize
    pure (.ident "__GroupSize")
  | .dispatchSize => pure (.call (.ident "int3") (extent kind))

def dispatchSwizzle (base name : String) : OutExpr :=
  .member (.ident base) ((Swizzle.ofName? name 3).getD name)

def extentComponent (kind : ShaderKind) (c : Char) : OutExpr :=
  if c == 'x' || c == 'r' then .ident "__x"
  else if c == 'y' || c == 'g' then .ident "__y"
  else if kind == .pixel then .int "1"
  else .ident "__z"

def extentSwizzle (kind : ShaderKind) (name : String) : OutExpr :=
  match Swizzle.ofName? name 3 with
  | none => .member (.ident "DispatchSize") name
  | some swizzle =>
    match swizzle.toList.map (extentComponent kind) with
    | [single] => single
    | several => .call (.ident ("uint" ++ toString several.length)) several

def extentCount (kind : ShaderKind) : OutExpr :=
  let area := OutExpr.binary .mul (.ident "__x") (.ident "__y")
  .paren (if kind == .pixel then area else .binary .mul area (.ident "__z"))

def dispatchMember (kind : ShaderKind) (info : DispatchInfo) (name : String) : Lower OutExpr :=
  match info with
  | .threadIds =>
    if name == "Normalized" then
      pure (.paren (.binary .div (.cast "float3" (.ident "ThreadIds")) (.call (.ident "float3") (extent kind))))
    else pure (dispatchSwizzle "ThreadIds" name)
  | .groupIds =>
    if name == "Index" then do
      noteIds fun ids => { ids with groupIndex := true }
      pure (.ident "__GroupIds__get_Index")
    else do
      noteIds fun ids => { ids with groupThreadIds := true }
      pure (dispatchSwizzle "GroupIds" name)
  | .gridIds => do
    noteIds fun ids => { ids with gridIds := true }
    pure (dispatchSwizzle "GridIds" name)
  | .groupSize => do
    noteGroupSize
    pure (if name == "Count" then .ident "__GroupSize__Count" else dispatchSwizzle "__GroupSize" name)
  | .dispatchSize => pure (if name == "Count" then extentCount kind else extentSwizzle kind name)

/-- Join the name of a type and the name of its member into a name of the output. -/
def globalName (owner name : String) : String := owner ++ "__" ++ name

def declaratorOf? (fields : List FieldDecl) (name : String) : Option (FieldDecl × Declarator) :=
  fields.findSome? fun field =>
    (field.declarators.find? fun declarator => declarator.name == name).map fun declarator =>
      (field, declarator)

/-- Write the initial value of a static field unless it only sizes an array. -/
def staticInit (write : Expr → Lower OutExpr) (init : Option Expr) : Lower (Option String) :=
  match init with
  | some value => if value.isSizedArray then pure none else do pure (some (← write value).text)
  | none => pure none

/-- Name a static field of another type, and declare it when it is named for the first time. Its initial
value is written as seen from that type, outside all methods. -/
def externalStatic (pull : Pull) (context : LowerContext) (owner name : String) : Lower OutExpr := do
  let global := globalName owner name
  if (← get).gathered.seenStatics.contains (owner, name) then pure (.ident global)
  else
    gather fun g => { g with seenStatics := (owner, name) :: g.seenStatics }
    let program := context.program
    match (program.typeDecl? owner).bind fun decl => declaratorOf? decl.fields name with
    | none => pure (.ident global)
    | some (field, declarator) =>
      match program.staticValueType? field.type declarator.init with
      | none => pure (.ident global)
      | some type =>
        let init ←
          within (fun _ => Scope.empty)
            (staticInit (pull { context with owner } (some type)) declarator.init)
        noteStruct type
        gather fun g => { g with statics := g.statics ++ [⟨global, type, field.isConstant, init⟩] }
        pure (.ident global)

def sourceName (name : String) : OutExpr := .ident (Reserved.identifier name)

/-- Write a name of the shader that the source qualifies, by `this` or by the type of the shader. -/
def qualifiedName (name : String) : OutExpr := .qualified (Reserved.identifier name)

def ident (pull : Pull) (context : LowerContext) (expr : Expr) (name : String) : Lower OutExpr := do
  let site ← site context
  if site.scope.contains name then pure (sourceName name)
  else
    match site.dispatchInfo? expr with
    | some info => dispatchValue context.program.kind info
    | none =>
      match context.program.field? context.owner name with
      | some field =>
        if field.isStatic && context.owner != context.program.shader.name then
          externalStatic pull context context.owner name
        else pure (sourceName name)
      | none => pure (sourceName name)

def staticMember (pull : Pull) (context : LowerContext) (path name : String) : Lower OutExpr :=
  match Constant.scalar? path name, Constant.typedVector? path name with
  | some value, _ => pure value
  | none, some (value, _) => pure value
  | none, none =>
    match context.program.index.find? path with
    | some entry =>
      if (context.program.field? entry.name name).isSome then
        if entry.name == context.program.shader.name then pure (qualifiedName name)
        else externalStatic pull context entry.name name
      else pure (.member (.ofPath path) name)
    | none => pure (.member (.ofPath path) name)

def propertyName (type : Option ValueType) (name : String) : String :=
  let known :=
    match type with
    | some (.scalar _) => Swizzle.ofName? name 1
    | some (.vector _ width) => Swizzle.ofName? name width
    | some (.matrix _ rows cols) => Swizzle.element? name rows cols
    | _ => none
  known.getD (Reserved.identifier name)

def property (context : LowerContext) (target : Expr) (name : String) (write : Lower OutExpr) :
    Lower OutExpr := do
  let type ← look context fun site => site.infer target
  let written ← write
  pure (.member written (propertyName type name))

def plainMember (pull : Pull) (context : LowerContext) (target : Expr) (name : String)
    (write : Lower OutExpr) : Lower OutExpr := do
  let site ← site context
  match target.path? with
  | none => property context target name write
  | some path =>
    if !site.startsAtVariable path then staticMember pull context path name
    else
      match (site.resource? path).bind (ResourceProperty.ofName? · name) with
      | some size =>
        let field := Reserved.identifier path
        gather fun g => { g with sizes := addNew ⟨field, size⟩ g.sizes }
        pure (.call (.ident ("__" ++ field ++ "__get_" ++ size.name)) [])
      | none => property context target name write

def member (pull : Pull) (context : LowerContext) (target : Expr) (name : String) (write : Lower OutExpr) :
    Lower OutExpr := do
  let site ← site context
  match site.dispatchInfo? target, target with
  | some info, _ => dispatchMember context.program.kind info name
  | none, .selfRef _ => pure (qualifiedName name)
  | none, _ => plainMember pull context target name write

def matrixElements? (args : List Argument) : Option String :=
  match args.mapM fun arg => Swizzle.index? arg.value with
  | some [] => none
  | some positions => some (String.join (positions.map fun (row, col) => Swizzle.elementName row col))
  | none => none

def indexEach (target : OutExpr) (indices : List OutExpr) : OutExpr :=
  match indices with
  | [] => .index target []
  | first :: rest => rest.foldl (fun inner arg => .index inner [arg]) (.index target [first])

/-- Write an access by index to anything but a resource. -/
def plainIndex (context : LowerContext) (target : Expr) (args : List Argument) (write : Lower OutExpr)
    (indices : Lower (List OutExpr)) : Lower OutExpr := do
  let type ← look context fun site => site.infer target
  match type, matrixElements? args with
  | some (.matrix _ _ _), some elements => do pure (.member (← write) elements)
  | _, _ => do
    let written ← write
    let values ← indices
    pure (indexEach written values)

def index (context : LowerContext) (target : Expr) (args : List Argument) (write : Lower OutExpr)
    (indices : Lower (List OutExpr)) : Lower OutExpr := do
  let site ← site context
  match target.ident?.bind fun name => (site.resource? name).map (name, ·) with
  | some (name, resource) =>
    let coordinates ← indices
    let field := sourceName name
    if resource.dims?.isSome && args.length > 1 then
      pure (.index field [.call (.ident ("int" ++ toString args.length)) coordinates])
    else pure (.index field coordinates)
  | none => plainIndex context target args write indices

def zero (type : Option ValueType) : Lower OutExpr :=
  match type with
  | some type => do pure (.cast (← spell type) (.int "0"))
  | none => pure (.int "0")

def writtenOr (program : Program) (type : Option TypeExpr) (hint : Option ValueType) : Option ValueType :=
  match type.bind program.valueType? with
  | some type => some type
  | none => hint

def itemHint : Option ValueType → Option ValueType
  | some (.array element _) => some element
  | _ => none

/-- Find the parameter position that each argument is for: by name, or by counting the arguments without a
name. -/
def argSlots (method : MethodDecl) (position : Nat) : List Argument → List (Option Nat)
  | [] => []
  | arg :: rest =>
    match arg.name with
    | some name =>
      method.params.findIdx? (fun param => param.name == name) :: argSlots method position rest
    | none => some position :: argSlots method (position + 1) rest

/-- Find the type expected at a parameter position. -/
def slotHint (program : Program) (method : MethodDecl) (slot : Option Nat) : Option ValueType := do
  let position ← slot
  let param ← method.params[position]?
  program.valueType? param.type

/-- Put written arguments at their positions; those without one come after. -/
def placeArgs (slots : List (Option OutExpr)) (extra : List OutExpr) :
    List (Option Nat × OutExpr) → List (Option OutExpr) × List OutExpr
  | [] => (slots, extra)
  | (some position, written) :: rest =>
    if position < slots.length then placeArgs (slots.set position (some written)) extra rest
    else placeArgs slots (extra ++ [written]) rest
  | (none, written) :: rest => placeArgs slots (extra ++ [written]) rest

def fillDefaults (write : Expr → Lower OutExpr) : List (Option OutExpr × Param) → Lower (List OutExpr)
  | [] => pure []
  | (some written, _) :: rest => do pure (written :: (← fillDefaults write rest))
  | (none, param) :: rest =>
    match param.default with
    | some value => do
      let written ← write value
      pure (written :: (← fillDefaults write rest))
    | none => fillDefaults write rest

/-- Order the written arguments of a call of a method by its parameters. -/
def methodArgs (pull : Pull) (context : LowerContext) (method : MethodDecl) (slots : List (Option Nat))
    (values : List OutExpr) : Lower (List OutExpr) := do
  let (placed, extra) := placeArgs (method.params.map fun _ => none) [] (slots.zip values)
  let filled ← fillDefaults (pull context none) (placed.zip method.params)
  pure (filled ++ extra)

def methodName (program : Program) (key : MethodKey) : String :=
  if key.owner == program.shader.name then Reserved.identifier key.name
  else globalName key.owner key.name

def sampled (field : String) (method : ResourceMethod) (args : List OutExpr) : OutExpr :=
  -- the text after the sampler is written even when nothing follows it
  let rest := if args.isEmpty then [.ident ""] else args
  .call (.member (.ident field) method.name) (.ident ("__sampler__" ++ field) :: rest)

/-- Write a call. The arguments are written under the types that the parameters expect. -/
def call (pull : Pull) (context : LowerContext) (args : List Argument) (callee : Callee)
    (write : List (Option ValueType) → Lower (List OutExpr)) : Lower OutExpr :=
  match callee with
  | .intrinsic intrinsic => do pure (.call (.ident intrinsic.name) (← write []))
  | .source key => do
    let name := OutExpr.ident (methodName context.program key)
    match context.program.method? key with
    | some method =>
      let slots := argSlots method 0 args
      let values ← write (slots.map (slotHint context.program method))
      pure (.call name (← methodArgs pull context method slots values))
    | none => pure (.call name (← write []))
  | .localFunction name => do pure (.call (sourceName name) (← write []))
  | .resourceMember field method => do pure (sampled (Reserved.identifier field) method (← write []))
  | .unknown name => do pure (.call (.ofPath name) (← write []))
  | .ambiguous name => do pure (.call (.ofPath name) (← write []))

mutual

def exprWith (pull : Pull) (context : LowerContext) (hint : Option ValueType) : Expr → Lower OutExpr
  | .literal _ value => pure value.written
  | .ident span name => ident pull context (.ident span name) name
  | .selfRef _ => pure (.word "this")
  | .typeWord _ name => pure (.word name)
  | .member _ target name _ => member pull context target name (exprWith pull context none target)
  | .index _ target args =>
    index context target args (exprWith pull context none target) (argsWith pull context [] args)
  | .call span callee types args => do
    let resolved ← meet context.program context.owner (.call span callee types args) callee args
    call pull context args resolved fun hints => argsWith pull context hints args
  | .unary _ op operand => do pure (.unary op (← exprWith pull context none operand))
  | .post _ .nullForgiving operand => exprWith pull context none operand
  | .post _ op operand => do pure (.post op (← exprWith pull context none operand))
  | .binary _ op lhs rhs => do
    let left ← exprWith pull context none lhs
    let right ← exprWith pull context none rhs
    pure (.binary op left right)
  | .assign _ op target value => do
    let expected ← look context fun site => site.infer target
    let left ← exprWith pull context none target
    let right ← exprWith pull context expected value
    pure (.assign op.written left right)
  | .conditional _ cond thenExpr elseExpr => do
    let test ← exprWith pull context none cond
    let first ← exprWith pull context hint thenExpr
    let second ← exprWith pull context hint elseExpr
    pure (.conditional test first second)
  | .cast _ type operand => do
    let spelled ← spellWritten context.program type
    pure (.cast spelled (← exprWith pull context none operand))
  | .asType _ operand _ => exprWith pull context none operand
  | .checked _ _ inner => exprWith pull context none inner
  | .paren _ inner => do pure (.paren (← exprWith pull context hint inner))
  | .construct _ type args _ =>
    match writtenOr context.program type hint with
    | some type =>
      if args.isEmpty then zero (some type)
      else do
        let name ← spell type
        pure (.call (.typeName name) (← argsWith pull context [] args))
    | none => pure (.int "0")
  | .newArray _ _ _ (some items) => do pure (.braces (← itemsWith pull context (itemHint hint) items))
  | .arrayInit _ items => do pure (.braces (← itemsWith pull context (itemHint hint) items))
  | .defaultOf _ type => zero (writtenOr context.program type hint)
  | .isPattern _ operand pattern => do
    let subject ← exprWith pull context none operand
    patternWith pull context subject pattern
  | _ => pure context.blank.expr

def argsWith (pull : Pull) (context : LowerContext) (hints : List (Option ValueType)) :
    List Argument → Lower (List OutExpr)
  | [] => pure []
  | ⟨_, _, value⟩ :: rest => do
    let written ← exprWith pull context hints.head?.join value
    let others ← argsWith pull context hints.tail rest
    pure (written :: others)

def itemsWith (pull : Pull) (context : LowerContext) (hint : Option ValueType) :
    List Expr → Lower (List OutExpr)
  | [] => pure []
  | item :: rest => do
    let written ← exprWith pull context hint item
    let others ← itemsWith pull context hint rest
    pure (written :: others)

def patternWith (pull : Pull) (context : LowerContext) (subject : OutExpr) : Pattern → Lower OutExpr
  | .constant value => do pure (.paren (.binary .eq subject (← exprWith pull context none value)))
  | .relational _ op value => do pure (.paren (.binary op subject (← exprWith pull context none value)))
  | .not inner => do pure (.unary .not (← patternWith pull context subject inner))
  | .and lhs rhs => do
    let left ← patternWith pull context subject lhs
    let right ← patternWith pull context subject rhs
    pure (.paren (.binary .and left right))
  | .or lhs rhs => do
    let left ← patternWith pull context subject lhs
    let right ← patternWith pull context subject rhs
    pure (.paren (.binary .or left right))
  | .discard _ => pure (.word "true")
  | .var _ _ => pure (.word "true")
  | .recursive _ _ _ _ _ => pure (.word "false")
  | .declaration _ _ _ => pure (.word "false")

end

def exprOn : Nat → Pull
  | 0, _, _, _ => pure (.int "0")
  | fuel + 1, context, hint, value => exprWith (exprOn fuel) context hint value

def optionalParams (program : Program) : List Param :=
  program.allMethods.flatMap fun method => method.params.filter fun param => param.default.isSome

/-- How deep expressions may be pulled in. A static field is written once, and between two static fields
default values that do not need themselves are nested no deeper than their number. -/
def pullDepth (program : Program) : Nat :=
  (program.allDeclarators.length + 1) * ((optionalParams program).length + 1) + 1

def tree (context : LowerContext) (hint : Option ValueType) (value : Expr) : Lower OutExpr :=
  exprOn (pullDepth context.program) context hint value

def hinted (context : LowerContext) (hint : Option ValueType) (value : Expr) : Lower String := do
  pure (← tree context hint value).text

def expr (context : LowerContext) (value : Expr) : Lower String := hinted context none value

def exprs (context : LowerContext) : List Expr → Lower (List String)
  | [] => pure []
  | value :: rest => do
    let text ← expr context value
    let others ← exprs context rest
    pure (text :: others)

end Lower

end Shaderlift
