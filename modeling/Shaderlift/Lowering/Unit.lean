import Shaderlift.Call.Closure
import Shaderlift.Lowering.Stmt

/-!
Lowering a whole shader: the entry point with its parameters and the guard that keeps threads inside the
dispatch, the methods that it needs, static values and constants.
-/

namespace Shaderlift

/-- A lowered shader. Static values come after those that they need. -/
structure LoweredUnit where
  entry : OutFunction
  ids : SpecialIds
  helpers : List OutFunction
  statics : List StaticDecl
  constants : List String
  structs : List String
  sizes : List SizeRead

namespace Lower

open Track

/-- The parameters of the entry point of a dispatched shader. -/
def entryParams (ids : SpecialIds) : List String :=
  ["uint3 ThreadIds : SV_DispatchThreadID"] ++
    (if ids.groupThreadIds then ["uint3 GroupIds : SV_GroupThreadID"] else []) ++
    (if ids.groupIndex then ["uint __GroupIds__get_Index : SV_GroupIndex"] else []) ++
    (if ids.gridIds then ["uint3 GridIds : SV_GroupID"] else [])

/-- The guard that keeps threads inside the dispatch. -/
def guardText (kind : ShaderKind) : String :=
  if kind == .pixel then "ThreadIds.x < __x && ThreadIds.y < __y"
  else "ThreadIds.x < __x && ThreadIds.y < __y && ThreadIds.z < __z"

def groupText (size : GroupSize) : String :=
  toString size.x.toNat ++ ", " ++ toString size.y.toNat ++ ", " ++ toString size.z.toNat

/-- Turn the written entry method into the entry point of a kind of shader. -/
def entryPointOf (model : ShaderModel) (ids : SpecialIds) (entry : OutFunction) : OutFunction :=
  if model.kind.isDispatched then
    { entry with
      attributes := ["[numthreads(" ++ groupText model.dispatch.groupSize ++ ")]"]
      returnType := "void"
      params := entryParams ids
      body := [.ifElse (guardText model.kind) (.block entry.body) none] }
  else entry

def helperMethods (program : Program) (model : ShaderModel) (blank : Blank) : List MethodKey → Lower Unit
  | [] => pure ()
  | key :: rest => do
    match program.method? key with
    | some found =>
      let function ← method ⟨program, model, blank, key.owner, false, none⟩ (methodName program key) found
      gather fun g => { g with helpers := g.helpers ++ [function] }
    | none => pure ()
    helperMethods program model blank rest

/-- Find the initial value of a static field of the shader. -/
def shaderInit? (program : Program) (name : String) : Option Expr :=
  (declaratorOf? program.shader.fields name).bind fun (_, declarator) => declarator.init

def shaderStatics (context : LowerContext) : List FieldInfo → Lower (List StaticDecl)
  | [] => pure []
  | field :: rest =>
    match field.role, field.type with
    | .static isConstant, .value type => do
      let init ← staticInit (tree context (some type)) (shaderInit? context.program field.name)
      noteStruct type
      let others ← shaderStatics context rest
      pure (⟨Reserved.identifier field.name, type, isConstant, init⟩ :: others)
    | _, _ => shaderStatics context rest

def groupConstants (size : GroupSize) : List String :=
  ["static const int3 __GroupSize = int3(" ++ groupText size ++ ");",
   "static const int __GroupSize__Count = " ++ toString size.threads ++ ";"]

def orderedNames (names : List String) : List String := names.mergeSort fun a b => compare a b != .gt

def orderedSizes (sizes : List SizeRead) : List SizeRead :=
  sizes.mergeSort fun a b =>
    (compare a.field b.field).then (compare a.property.rank b.property.rank) != .gt

def unit (program : Program) (model : ShaderModel) (blank : Blank) (entry : MethodDecl) :
    Lower (OutFunction × List StaticDecl) := do
  let shader := program.shader.name
  let written ← method ⟨program, model, blank, shader, true, none⟩ entryPoint entry
  let helpers ← recalling program shader fun _ => program.reachableMethods
  helperMethods program model blank helpers
  let statics ← shaderStatics ⟨program, model, blank, shader, false, none⟩ model.fields
  pure (written, statics)

end Lower

/-- Lower a shader from its entry point; report the declarations whose type cannot be told. -/
def Program.lower (program : Program) (model : ShaderModel) (blank : Blank) (entry : MethodDecl) :
    Recall (LoweredUnit × Report) :=
  fun memo =>
    let ((written, statics), state) := Lower.unit program model blank entry (.start memo .empty)
    let gathered := state.gathered
    let lowered : LoweredUnit :=
      { entry := Lower.entryPointOf model gathered.ids written
        ids := gathered.ids
        helpers := gathered.helpers
        statics := gathered.statics ++ statics
        constants := if gathered.usesGroupSize then Lower.groupConstants model.dispatch.groupSize else []
        structs := Lower.orderedNames gathered.structs
        sizes := Lower.orderedSizes gathered.sizes }
    ((lowered, gathered.report), state.memo)

end Shaderlift
