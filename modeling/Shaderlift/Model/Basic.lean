import Shaderlift.Config.Basic
import Shaderlift.Layout.Packing

/-!
Shader models: what a shader captures, binds and is configured with.
-/

namespace Shaderlift

/-- The type of a field. -/
inductive FieldType where
  | value (type : ValueType)
  | resource (resource : Resource)
  deriving DecidableEq, Repr, Inhabited

/-- What a field is to a shader: captured data, a resource, memory shared by a group of known length, the
texture of an index, or a static value that may be constant. -/
inductive FieldRole where
  | plainData
  | bufferResource
  | textureResource
  | groupShared (length : Nat)
  | textureIndex (index : Nat)
  | static (isConstant : Bool)
  deriving DecidableEq, Repr, Inhabited

/-- A field of a shader. -/
structure FieldInfo where
  name : String
  type : FieldType
  role : FieldRole
  span : Span
  deriving DecidableEq, Repr, Inhabited

namespace FieldInfo

def resource? (field : FieldInfo) : Option Resource :=
  match field.type with
  | .resource resource => some resource
  | .value _ => none

def value? (field : FieldInfo) : Option ValueType :=
  match field.type with
  | .value type => some type
  | .resource _ => none

def elementType (field : FieldInfo) : ValueType :=
  match field.type with
  | .value type => type
  | .resource resource => resource.element

end FieldInfo

/-- How a shader is dispatched. -/
structure Dispatch where
  groupSize : GroupSize
  axes : DispatchAxes
  deriving DecidableEq, Repr, Inhabited

/-- The inputs of an image effect: their number, which are simple and which complex, and what is said of
them. -/
structure Inputs where
  count : Nat
  simple : List Nat
  complex : List Nat
  descriptions : List InputDescription
  deriving DecidableEq, Repr, Inhabited

/-- A texture of an image effect. -/
structure TextureInfo where
  field : String
  index : Nat
  dims : Nat
  element : ValueType
  deriving DecidableEq, Repr, Inhabited

/-- A shader model. The fields are in source order. -/
structure ShaderModel where
  typeName : String
  kind : ShaderKind
  pixelType : Option ValueType
  fields : List FieldInfo
  layout : Layout
  dispatch : Dispatch
  inputs : Inputs
  textures : List TextureInfo
  requiresScenePosition : Bool
  outputBuffer : OutputBuffer
  profile : Profile
  compileOptions : CompileOptions
  effect : EffectInfo
  deriving DecidableEq, Repr, Inhabited

namespace ShaderModel

def field? (model : ShaderModel) (name : String) : Option FieldInfo :=
  model.fields.find? fun field => field.name == name

def plainData (model : ShaderModel) : List FieldInfo :=
  model.fields.filter fun field => field.role == .plainData

def resources (model : ShaderModel) : List FieldInfo :=
  model.fields.filter fun field => field.resource?.isSome

def dataLimit (model : ShaderModel) : Nat :=
  match model.kind with
  | .compute | .pixel => Limits.capturedBytes
  | .effect => Limits.effectBytes

end ShaderModel

def FieldType.toJson : FieldType → Json
  | .value type => .obj [("Value", type.toJson)]
  | .resource held => .obj [("Resource", held.toJson)]

def FieldRole.toJson : FieldRole → Json
  | .plainData => .str "PlainData"
  | .bufferResource => .str "BufferResource"
  | .textureResource => .str "TextureResource"
  | .groupShared length => .obj [("GroupShared", .obj [("length", .ofNat length)])]
  | .textureIndex index => .obj [("ResourceTextureIndex", .ofNat index)]
  | .static isConstant => .obj [("Static", .obj [("constant", .bool isConstant)])]

def FieldInfo.toJson (field : FieldInfo) : Json :=
  .obj [("name", .str field.name), ("ty", field.type.toJson), ("role", field.role.toJson),
    ("span", field.span.toJson)]

def FieldLayout.toJson (field : FieldLayout) : Json :=
  .obj [("name", .str field.name), ("ty", field.type.toJson), ("offset", .ofNat field.offset),
    ("size", .ofNat field.size)]

def Layout.toJson (layout : Layout) : Json :=
  .obj [("fields", .ofList FieldLayout.toJson layout.fields), ("size", .ofNat layout.size)]

def Dispatch.toJson (dispatch : Dispatch) : Json :=
  .obj [("thread_group_size", dispatch.groupSize.toJson), ("axes", .str dispatch.axes.render)]

def Inputs.toJson (inputs : Inputs) : Json :=
  .obj [("count", .ofNat inputs.count), ("simple", .ofList .ofNat inputs.simple),
    ("complex", .ofList .ofNat inputs.complex),
    ("descriptions", .ofList InputDescription.toJson inputs.descriptions)]

def TextureInfo.toJson (texture : TextureInfo) : Json :=
  .obj [("field", .str texture.field), ("index", .ofNat texture.index), ("dims", .ofNat texture.dims),
    ("element", texture.element.toJson)]

def ShaderModel.toJson (model : ShaderModel) : Json :=
  .obj [("type_name", .str model.typeName), ("kind", .str model.kind.name),
    ("pixel_type", .ofOption ValueType.toJson model.pixelType),
    ("fields", .ofList FieldInfo.toJson model.fields), ("layout", model.layout.toJson),
    ("dispatch", model.dispatch.toJson), ("inputs", model.inputs.toJson),
    ("resource_textures", .ofList TextureInfo.toJson model.textures),
    ("requires_scene_position", .bool model.requiresScenePosition),
    ("output_buffer", model.outputBuffer.toJson), ("profile", .str model.profile.name),
    ("compile_options", .str model.compileOptions.render), ("effect", model.effect.toJson)]

end Shaderlift
