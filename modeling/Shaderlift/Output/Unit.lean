import Shaderlift.Lowering.Unit
import Shaderlift.Model.Binding
import Shaderlift.Output.Printer

/-!
Printing a lowered shader: what an image effect defines first, structs after those that they hold, static
values, constant buffers, resources, shared memory, functions that return sizes, and the methods.
-/

namespace Shaderlift

namespace StructOrder

/-- The structs met so far and those written, in order. -/
structure Order where
  seen : List String
  written : List String

/-- Write a struct after those that it holds, on a bound for the nesting. -/
def visit (program : Program) : Nat → Order → String → Order
  | 0, order, _ => order
  | depth + 1, order, name =>
    if order.seen.contains name then order
    else
      let held := ((program.structFields? name).getD []).filterMap fun field => field.type.struct?
      let after := held.foldl (visit program depth) { order with seen := name :: order.seen }
      { after with written := after.written ++ [name] }

/-- List the structs that a shader names, each after those that it holds. No chain of structs is longer
than the number of types. -/
def build (program : Program) (model : ShaderModel) (structs : List String) : List String :=
  let named := structs ++ model.fields.filterMap fun field => field.elementType.struct?
  let roots := Lower.orderedNames named.eraseDups
  (roots.foldl (visit program (program.index.entries.length + 1)) ⟨[], []⟩).written

end StructOrder

namespace OutUnit

def declared (type : ValueType) (name : String) : String :=
  type.spelling ++ " " ++ Reserved.identifier name ++ type.suffix

/-- Print what an image effect says of its inputs. -/
def effectLines (model : ShaderModel) : Lines :=
  let mode (index : Nat) : String := if model.inputs.simple.contains index then "SIMPLE" else "COMPLEX"
  ["#define D2D_INPUT_COUNT " ++ toString model.inputs.count] ++
    (List.range model.inputs.count).map
      (fun index => "#define D2D_INPUT" ++ toString index ++ "_" ++ mode index) ++
    (if model.requiresScenePosition then ["#define D2D_REQUIRES_SCENE_POSITION"] else []) ++
    ["", "#include \"d2d1effecthelpers.hlsli\"", ""]

def structLines (program : Program) (name : String) : Lines :=
  let fields := (program.structFields? name).getD []
  ("struct " ++ name) ::
    Lines.braced (fields.map fun field => declared field.type field.name ++ ";") ";" ++ [""]

/-- Print lines with an empty one after them; nothing for none. -/
def paragraph (lines : Lines) : Lines := if lines.isEmpty then [] else lines ++ [""]

def bufferLines (name register : String) (lines : Lines) : Lines :=
  ("cbuffer " ++ name ++ " : register(" ++ register ++ ")") :: Lines.braced lines ""

def dispatchLines : Lines :=
  bufferLines "_" ("b" ++ toString Binding.dispatchRegister) ["uint __x;", "uint __y;", "uint __z;"] ++ [""]

def fieldLines (model : ShaderModel) : Lines :=
  if model.layout.isEmpty then []
  else
    let register := if model.kind.isEffect then Binding.effectRegister else Binding.fieldRegister
    bufferLines "__fields" ("b" ++ toString register)
      (model.layout.fields.map fun field =>
        declared field.type field.name ++ " : packoffset(" ++ field.packOffset ++ ");") ++ [""]

def resourceLines (program : Program) (binding : Binding) (field : String) (resource : Resource) : Lines :=
  let name := Reserved.identifier field
  let register := binding.register.render
  let object := resource.objectType?.getD "" ++ " " ++ name ++ " : register(" ++ register ++ ");"
  match binding.kind with
  | .constantBuffer =>
    let capacity := constantBufferCapacity resource.element program.structFields?
    bufferLines ("_" ++ name) register
      [resource.element.spelling ++ " " ++ name ++ "[" ++ toString capacity ++ "];"]
  | .resourceTexture =>
    [object,
     "SamplerState __sampler__" ++ name ++ " : register(s" ++ toString binding.register.index ++ ");"]
  | _ => [object]

def bindingLines (program : Program) (model : ShaderModel) (binding : Binding) : Lines :=
  match binding.field with
  | none =>
    let pixel := model.pixelType.getD (.vector .float 4)
    ["RWTexture2D<unorm " ++ pixel.spelling ++ "> " ++ outputTexture ++ " : register(" ++
      binding.register.render ++ ");"]
  | some field =>
    match (model.field? field).bind FieldInfo.resource? with
    | some resource => resourceLines program binding field resource
    | none => []

def sharedLines (model : ShaderModel) : Lines :=
  model.fields.filterMap fun field =>
    match field.role, field.type with
    | .groupShared _, .value type => some ("groupshared " ++ declared type field.name ++ ";")
    | _, _ => none

def sizeBody (program : Program) (object : String) (property : ResourceProperty) (resource : Resource) :
    Lines :=
  match resource.dims? with
  | none =>
    if resource.kind == .constantBuffer then
      ["return " ++ toString (constantBufferCapacity resource.element program.structFields?) ++ ";"]
    else ["uint width, stride;", object ++ ".GetDimensions(width, stride);", "return width;"]
  | some dims =>
    let used := Text.joinWith ", " (["width", "height", "depth"].take dims)
    let result :=
      match property with
      | .height => "height"
      | .depth => "depth"
      | _ => "width"
    ["uint " ++ used ++ ";", object ++ ".GetDimensions(" ++ used ++ ");", "return " ++ result ++ ";"]

def sizeLines (program : Program) (model : ShaderModel) (size : SizeRead) : Lines :=
  match (model.field? size.field).bind FieldInfo.resource? with
  | some resource =>
    ("int __" ++ size.field ++ "__get_" ++ size.property.name ++ "()") ::
      Lines.braced (sizeBody program (Reserved.identifier size.field) size.property resource) "" ++ [""]
  | none => []

/-- Print the methods: all signatures first. -/
def helperLines (helpers : List OutFunction) : Lines :=
  if helpers.isEmpty then []
  else
    helpers.map (fun helper => helper.signature ++ ";") ++ [""] ++
      helpers.flatMap fun helper => helper.lines ++ [""]

def entryLines (model : ShaderModel) (entry : OutFunction) : Lines :=
  if model.kind.isEffect then ("D2D_PS_ENTRY(" ++ entryPoint ++ ")") :: entry.bodyLines
  else entry.lines

def lines (program : Program) (model : ShaderModel) (unit : LoweredUnit) (bindings : List Binding) :
    Lines :=
  (if model.kind.isEffect then effectLines model else []) ++
    (StructOrder.build program model unit.structs).flatMap (structLines program) ++
    paragraph (unit.constants ++ unit.statics.map StaticDecl.declaration) ++
    (if model.kind.isDispatched then dispatchLines else []) ++
    fieldLines model ++
    (if bindings.isEmpty then [] else bindings.flatMap (bindingLines program model) ++ [""]) ++
    paragraph (sharedLines model) ++
    unit.sizes.flatMap (sizeLines program model) ++
    helperLines unit.helpers ++
    entryLines model unit.entry

def render (program : Program) (model : ShaderModel) (unit : LoweredUnit) (bindings : List Binding) :
    String :=
  Lines.text (lines program model unit bindings)

end OutUnit

end Shaderlift
