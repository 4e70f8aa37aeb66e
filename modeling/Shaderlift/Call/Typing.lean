import Shaderlift.Builtin.Constant
import Shaderlift.Builtin.Dispatch
import Shaderlift.Builtin.Swizzle
import Shaderlift.Call.Callee

/-!
The types of expressions, as far as they can be told. A type may stay unknown. Telling the type of a call
classifies the call, so actions that tell types remember calls; operands are looked at only where the
answer needs them.
-/

namespace Shaderlift

/-- Where an expression stands: the program, the type that owns the method, and the scope. -/
structure Site where
  program : Program
  owner : String
  scope : Scope

/-- An argument whose type has not been told yet. -/
structure PendingArg where
  name : Option String
  type : Recall (Option ValueType)

def Literal.type? : Literal → Option ValueType
  | .int _ value .none => if value > 2147483647 then some .uint else some .int
  | .int _ _ .u => some .uint
  | .int _ _ _ => none
  | .real _ (some .f) => some .float
  | .real _ none => some (.scalar .double)
  | .real _ (some .d) => some (.scalar .double)
  | .real _ (some .m) => none
  | .bool _ => some .bool
  | _ => none

namespace ValueType

/-- Give a matrix the wider component type of its own and that of another operand. -/
def widenMatrix (kind : Scalar) (rows cols : Nat) (other : ValueType) : ValueType :=
  .matrix (kind.wider (other.scalar?.getD .float)) rows cols

def combine : ValueType → ValueType → ValueType
  | .scalar s, .scalar t => .scalar (s.wider t)
  | .vector s n, .scalar t => .vector (s.wider t) n
  | .scalar t, .vector s n => .vector (s.wider t) n
  | .vector s n, .vector t m => .vector (s.wider t) (min n m)
  | .matrix s rows cols, other => widenMatrix s rows cols other
  | other, .matrix s rows cols => widenMatrix s rows cols other
  | type, _ => type

def combine? : Option ValueType → Option ValueType → Option ValueType
  | some a, some b => some (combine a b)
  | some a, none => some a
  | none, b => b

def ofComponents (kind : Scalar) (count : Nat) : ValueType :=
  if count == 1 then .scalar kind else .vector kind count

def product : ValueType → ValueType → ValueType
  | .matrix kind rows _, .vector _ _ => .vector kind rows
  | .vector _ _, .matrix kind _ cols => .vector kind cols
  | .matrix kind rows _, .matrix _ _ cols => .matrix kind rows cols
  | a, b => combine a b

def transposed : ValueType → ValueType
  | .matrix kind rows cols => .matrix kind cols rows
  | type => type

end ValueType

namespace Program

def memberType? (program : Program) (type : ValueType) (name : String) : Option ValueType :=
  match type with
  | .scalar kind => (Swizzle.ofName? name 1).map fun swizzle => .ofComponents kind swizzle.length
  | .vector kind width => (Swizzle.ofName? name width).map fun swizzle => .ofComponents kind swizzle.length
  | .matrix kind rows cols => (Swizzle.element? name rows cols).map fun _ => .scalar kind
  | .struct struct => do
    let fields ← program.structFields? struct
    let field ← fields.find? fun field => field.name == name
    pure field.type
  | _ => none

def staticType? (program : Program) (path name : String) : Option ValueType :=
  match Constant.known? path name, Constant.vector? path name with
  | some text, _ => some (Constant.typeOf text)
  | none, some (_, type) => some type
  | none, none => do
    let entry ← program.index.find? path
    let type ← program.fieldType? entry.name name
    program.valueType? type

end Program

namespace Site

/-- Find what the type of a field of the owner means, unless a local variable hides it. -/
def field? (site : Site) (name : String) : Option Meaning :=
  if site.scope.contains name then none
  else (site.program.fieldType? site.owner name).map site.program.meaning

def resource? (site : Site) (name : String) : Option Resource :=
  match site.field? name with
  | some (.resource resource) => some resource
  | _ => none

/-- Find the coordinates that an expression refers to, unless a variable hides them. -/
def dispatchInfo? (site : Site) (expr : Expr) : Option DispatchInfo :=
  match expr.ident? with
  | some name =>
    if site.scope.contains name || (site.field? name).isSome then none else DispatchInfo.ofName? name
  | none => none

def startsAtVariable (site : Site) (path : String) : Bool :=
  site.program.isVariable site.owner (Text.firstSegment path) site.scope

def nameType? (site : Site) (name : String) : Option ValueType :=
  match site.scope.local? name with
  | some type => type
  | none =>
    match site.field? name with
    | some meaning => meaning.value?
    | none => (DispatchInfo.ofName? name).map fun _ => .vector .int 3

def dispatchType? (info : DispatchInfo) (name : String) : Option ValueType :=
  match info, name with
  | .threadIds, "Normalized" => some (.vector .float 3)
  | _, "Count" => some .int
  | _, "Index" => some .int
  | _, _ => (Swizzle.ofName? name 3).map fun swizzle => .ofComponents .int swizzle.length

def propertyType (site : Site) (name : String) (target : Recall (Option ValueType)) :
    Recall (Option ValueType) := do
  pure ((← target).bind (site.program.memberType? · name))

def memberType (site : Site) (target : Expr) (name : String) (targetType : Recall (Option ValueType)) :
    Recall (Option ValueType) :=
  match site.dispatchInfo? target, target.path? with
  | some info, _ => pure (dispatchType? info name)
  | none, some path =>
    if !site.startsAtVariable path then pure (site.program.staticType? path name)
    else
      match site.resource? path with
      | some resource => pure ((ResourceProperty.ofName? resource name).map fun _ => .int)
      | none => site.propertyType name targetType
  | none, none => site.propertyType name targetType

/-- Find the element type of a field that is a resource or an array; the outer answer is missing when the
field is neither. -/
def elementType? (site : Site) (name : String) : Option (Option ValueType) :=
  match site.field? name, site.program.fieldType? site.owner name with
  | some (.resource resource), _ => some (some resource.element)
  | some (.managed _), some (.array _ element _) => some (site.program.valueType? element)
  | _, _ => none

def indexedType (args : List Argument) : ValueType → Option ValueType
  | .vector kind _ => some (.scalar kind)
  | .matrix kind _ cols =>
    if !args.isEmpty && args.all (fun arg => (Swizzle.index? arg.value).isSome) then
      if args.length == 1 then some (.scalar kind) else some (.vector kind (min args.length 4))
    else some (.vector kind cols)
  | .array element _ => some element
  | _ => none

def indexType (site : Site) (target : Expr) (args : List Argument)
    (targetType : Recall (Option ValueType)) : Recall (Option ValueType) :=
  match target.ident?.bind site.elementType? with
  | some type => pure type
  | none => do pure ((← targetType).bind (indexedType args))

def settleArgs : List PendingArg → Recall (List CallArg)
  | [] => pure []
  | arg :: rest => do
    let type ← arg.type
    let others ← settleArgs rest
    pure (⟨arg.name, type⟩ :: others)

def combineArgs (known : Option ValueType) : List PendingArg → Recall (Option ValueType)
  | [] => pure known
  | arg :: rest => do
    let type ← arg.type
    combineArgs (ValueType.combine? known type) rest

def argType (args : List PendingArg) (position : Nat) : Recall (Option ValueType) :=
  match args[position]? with
  | some arg => arg.type
  | none => pure none

def mapFirst (args : List PendingArg) (change : ValueType → Option ValueType) :
    Recall (Option ValueType) := do
  pure ((← argType args 0).bind change)

def productType (args : List PendingArg) : Recall (Option ValueType) := do
  match ← argType args 0 with
  | none => pure none
  | some a => pure ((← argType args 1).map (ValueType.product a))

def intrinsicType (name : String) (args : List PendingArg) : Recall (Option ValueType) :=
  let as (kind : Scalar) : Recall (Option ValueType) := mapFirst args fun type => some (type.withScalar kind)
  if ["dot", "length", "distance", "determinant"].contains name then
    mapFirst args fun type => type.scalar?.map .scalar
  else if ["all", "any"].contains name then pure (some .bool)
  else if ["isnan", "isinf", "isfinite"].contains name then as .bool
  else if ["asfloat", "f16tof32"].contains name then as .float
  else if name == "asint" then as .int
  else if ["asuint", "countbits", "firstbithigh", "firstbitlow", "reversebits", "f32tof16"].contains name then
    as .uint
  else if name == "asdouble" then pure (some (.scalar .double))
  else if name == "mul" then productType args
  else if name == "transpose" then mapFirst args fun type => some type.transposed
  else if Text.startsWith "D2D" name then pure (some (.vector .float 4))
  else if Text.contains "Barrier" name || Text.startsWith "Interlocked" name then
    pure (some .void)
  else combineArgs none args

/-- Classify a call whose arguments have not been looked at. -/
def calleeOf (site : Site) (callee : Expr) (args : List PendingArg) : Recall Callee := do
  let settled ← settleArgs args
  site.program.callee site.owner callee settled site.scope

def callType (site : Site) (callee : Expr) (args : List PendingArg) : Recall (Option ValueType) := do
  match ← site.calleeOf callee args with
  | .intrinsic intrinsic => intrinsicType intrinsic.name args
  | .source key =>
    pure ((site.program.method? key).bind fun method => site.program.valueType? method.header.returnType)
  | .localFunction name => pure (site.scope.function? name).join
  | .resourceMember field _ => pure ((site.resource? field).map Resource.element)
  | .unknown _ => pure none
  | .ambiguous _ => pure none

/-- Tell the type of an operation on two operands. -/
def binaryType (op : BinaryOp) (lhs rhs : Recall (Option ValueType)) : Recall (Option ValueType) := do
  let left ← lhs
  match op with
  | .and | .or => pure (some .bool)
  | .shl | .shr => pure left
  | _ =>
    let combined := ValueType.combine? left (← rhs)
    pure (if op.isComparison then combined.map (ValueType.withScalar .bool) else combined)

mutual

def infer (site : Site) : Expr → Recall (Option ValueType)
  | .literal _ value => pure value.type?
  | .ident _ name => pure (site.nameType? name)
  | .member _ target name _ => site.memberType target name (site.infer target)
  | .index _ target args => site.indexType target args (site.infer target)
  | .call _ callee _ args => site.callType callee (site.pendingArgs args)
  | .unary _ .not _ => pure (some .bool)
  | .unary _ _ operand => site.infer operand
  | .post _ _ operand => site.infer operand
  | .paren _ inner => site.infer inner
  | .checked _ _ inner => site.infer inner
  | .binary _ op lhs rhs => binaryType op (site.infer lhs) (site.infer rhs)
  | .assign _ _ target _ => site.infer target
  | .conditional _ _ thenExpr elseExpr => do
    match ← site.infer thenExpr with
    | some type => pure (some type)
    | none => site.infer elseExpr
  | .cast _ type _ => pure (site.program.valueType? type)
  | .construct _ (some type) _ _ => pure (site.program.valueType? type)
  | .defaultOf _ (some type) => pure (site.program.valueType? type)
  | .isPattern _ _ _ => pure (some .bool)
  | _ => pure none

/-- Take arguments without looking at their types. -/
def pendingArgs (site : Site) : List Argument → List PendingArg
  | [] => []
  | ⟨name, _, value⟩ :: rest => ⟨name, site.infer value⟩ :: site.pendingArgs rest

end

def resolveCall (site : Site) (callee : Expr) (args : List Argument) : Recall Callee :=
  site.calleeOf callee (site.pendingArgs args)

/-- Find the types under which the names of a declaration are declared: the written type, or the type of
the initial value. -/
def declaredType (site : Site) (type : TypeExpr) (init : Option Expr) : Recall (Option ValueType) :=
  match if type.isInferred then none else site.program.valueType? type, init with
  | some known, _ => pure (some known)
  | none, some value => site.infer value
  | none, none => pure none

end Site

end Shaderlift
