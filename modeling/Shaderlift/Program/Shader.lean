import Shaderlift.Diagnostic.Report
import Shaderlift.Program.Kind
import Shaderlift.Program.Structs

/-!
A source text seen from one of its types as the shader: the kind of the shader, its entry point, and what
all names mean.
-/

namespace Shaderlift

def entryPoint : String := "Execute"

/-- A method of a type, by its owner, its name and its place among the methods of the owner. -/
structure MethodKey where
  owner : String
  name : String
  index : Nat
  deriving DecidableEq, Repr, Inhabited

/-- A field of a struct with its type. -/
structure StructField where
  name : String
  type : ValueType
  deriving DecidableEq, Repr

/-- A source text seen from a shader. The entry point comes with its place among the shader's methods. -/
structure Program where
  shader : TypeDecl
  kind : ShaderKind
  pixelType : Option ValueType
  entry : Option (Nat × MethodDecl)
  table : TypeTable
  index : TypeIndex
  staticUsings : List String

def TypeDecl.shaderInterfaces (decl : TypeDecl) (table : TypeTable) :
    List (ShaderKind × Option ValueType) :=
  decl.header.bases.filterMap fun base =>
    match base.simpleName?, base.arguments with
    | some "IComputeShader", [] => some (.compute, none)
    | some "IComputeShader", [pixel] => some (.pixel, (pixel.meaning table).value?)
    | some "ID2D1PixelShader", [] => some (.effect, none)
    | _, _ => none

def TypeDecl.shaderKind (decl : TypeDecl) (table : TypeTable) :
    Except Rule (ShaderKind × Option ValueType) :=
  match decl.shaderInterfaces table with
  | [] => .error .missingShaderInterface
  | [found] => .ok found
  | _ => .error .multipleShaderInterfaces

def MethodDecl.isEntryPoint (method : MethodDecl) : Bool :=
  method.name == entryPoint && method.params.isEmpty && method.body.isSome

namespace Program

def findEntry (decl : TypeDecl) : Option (Nat × MethodDecl) :=
  (decl.methods.zipIdx.find? fun (method, _) => method.isEntryPoint).map fun (method, i) => (i, method)

/-- See a source text from a type. There is no program when the kind of the shader cannot be told; a
program without entry point is reported. -/
def build (unit : SourceUnit) (shader : TypeDecl) : Option Program × Report :=
  let index := TypeIndex.build unit
  let table := TypeTable.build unit index
  match shader.shaderKind table with
  | .error rule => (none, [Diagnostic.make rule (some shader.span) [shader.name]])
  | .ok (kind, pixelType) =>
    let entry := findEntry shader
    let staticUsings := (unit.usings.filter UsingDirective.isStatic).map fun u => u.target.render
    let report :=
      if entry.isSome then []
      else [Diagnostic.make .missingExecuteMethod (some shader.span) [shader.name]]
    (some { shader, kind, pixelType, entry, table, index, staticUsings }, report)

def meaning (program : Program) (type : TypeExpr) : Meaning := type.meaning program.table

def valueType? (program : Program) (type : TypeExpr) : Option ValueType := (program.meaning type).value?

/-- Find the declaration of a type by the last segment of its name. -/
def typeDecl? (program : Program) (name : String) : Option TypeDecl :=
  (program.index.get? name).map TypeEntry.decl

def methodsOf (program : Program) (owner : String) : List MethodDecl :=
  match program.typeDecl? owner with
  | some decl => decl.methods
  | none => []

def accepts (method : MethodDecl) (name : String) (arity : Nat) : Bool :=
  let required := (method.params.filter fun param => param.default.isNone).length
  method.name == name && required ≤ arity && arity ≤ method.params.length

/-- List the methods of a type that have a name and take a number of arguments, with their places. -/
def overloads (program : Program) (owner name : String) (arity : Nat) : List (Nat × MethodDecl) :=
  (program.methodsOf owner).zipIdx.filterMap fun (method, i) =>
    if accepts method name arity then some (i, method) else none

def method? (program : Program) (key : MethodKey) : Option MethodDecl :=
  match (program.methodsOf key.owner)[key.index]? with
  | some method => if method.name == key.name then some method else none
  | none => none

/-- Find the field declaration of a type that declares a name. -/
def field? (program : Program) (owner name : String) : Option FieldDecl :=
  match program.typeDecl? owner with
  | some decl => decl.fields.find? fun field => field.declarators.any fun d => d.name == name
  | none => none

def fieldType? (program : Program) (owner name : String) : Option TypeExpr :=
  (program.field? owner name).map FieldDecl.type

def allDeclarators (program : Program) : List Declarator :=
  program.index.entries.flatMap fun entry => entry.decl.fields.flatMap FieldDecl.declarators

def allMethods (program : Program) : List MethodDecl :=
  program.index.entries.flatMap fun entry => entry.decl.methods

def resolveFields (program : Program) : List FieldDecl → Option (List StructField)
  | [] => some []
  | field :: rest => do
    let type ← program.valueType? field.type
    let others ← resolveFields program rest
    pure (field.declarators.map (fun declarator => ⟨declarator.name, type⟩) ++ others)

def structFields? (program : Program) (name : String) : Option (List StructField) := do
  let decl ← program.typeDecl? name
  program.resolveFields decl.instanceFields

end Program

end Shaderlift
