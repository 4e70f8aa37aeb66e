import Shaderlift.Model.Effect

/-!
Building the model of a shader. A model is always built; what is wrong is reported beside it, in the order
in which the parts are looked at.
-/

namespace Shaderlift

namespace Dispatch

def isValidSize (size : GroupSize) : Bool :=
  0 < size.x.toNat && 0 < size.y.toNat && 0 < size.z.toNat && size.x.toNat ≤ Limits.groupExtent &&
    size.y.toNat ≤ Limits.groupExtent && size.z.toNat ≤ Limits.groupDepth &&
    size.threads ≤ Limits.groupThreads

def renderSize (size : GroupSize) : String :=
  "(" ++ toString size.x.toNat ++ ", " ++ toString size.y.toNat ++ ", " ++ toString size.z.toNat ++ ")"

def build (program : Program) (config : Config) : Dispatch × Report :=
  if !program.kind.isDispatched then (⟨⟨1, 1, 1⟩, ⟨0⟩⟩, [])
  else
    match config.groupSize? with
    | none => (⟨⟨1, 1, 1⟩, config.dispatchAxes⟩, [program.complainHere .invalidDispatchAxis []])
    | some size =>
      (⟨size, config.dispatchAxes⟩,
        if isValidSize size then []
        else [program.complainHere .invalidThreadGroupSize [renderSize size]])

end Dispatch

namespace ShaderModel

def checkProperties (program : Program) : Report :=
  program.shader.members.filterMap fun
    | .property property =>
      some (program.complain .propertyDeclaration property.span [property.name])
    | _ => none

def checkOptions (program : Program) (config : Config) : Report :=
  let options := config.optionsFor program.kind
  (if options.columnMajor then [program.complainHere .columnMajorPackingOption []] else []) ++
    (if options.linking && config.hasComplexInputs then
      [program.complainHere .enableLinkingWithComplexInputs []]
    else [])

/-- List the structs that the fields of a struct hold, the last first. -/
def heldStructs (program : Program) (name : String) : List String :=
  (((program.structFields? name).getD []).filterMap fun field => field.type.struct?).reverse

/-- Find a struct that cannot be seen from outside among some and those that they hold. -/
def hidden? (program : Program) : Nat → List String → List String → Option String
  | 0, _, _ => none
  | _ + 1, _, [] => none
  | fuel + 1, visited, name :: pending =>
    if visited.contains name then hidden? program fuel visited pending
    else if (program.index.get? name).any fun entry => !entry.isAccessible then some name
    else hidden? program fuel (name :: visited) (heldStructs program name ++ pending)

/-- Report a field whose type cannot be seen from outside. A struct is entered once, so the number of
fields bounds the search. -/
def checkField (program : Program) (field : FieldInfo) : Report :=
  match hidden? program (program.allDeclarators.length + 2) [] field.elementType.struct?.toList with
  | some name => [program.complain .inaccessibleFieldType field.span [field.name, name]]
  | none => []

def checkAccess (program : Program) (config : Config) (fields : List FieldInfo) : Report :=
  if !config.generateDescriptor then []
  else
    (if (program.index.get? program.shader.name).any TypeEntry.isAccessible then []
      else [program.complainHere .inaccessibleTargetType []]) ++
      fields.flatMap (checkField program)

def bindsResource (field : FieldInfo) : Bool :=
  match field.role with
  | .bufferResource | .textureResource => true
  | _ => false

/-- Report a model that captures too much, or cannot have an effect. -/
def checkWhole (program : Program) (model : ShaderModel) : Report :=
  (if model.layout.size > model.dataLimit then
      [program.complainHere .dispatchDataSizeExceeded [toString model.layout.size, toString model.dataLimit]]
    else []) ++
    (if model.kind == .compute && !model.fields.any bindsResource then
      [program.complainHere .missingShaderResources []]
    else [])

def layoutOf (program : Program) (fields : List FieldInfo) : Layout :=
  let captured := fields.filterMap fun field =>
    match field.role, field.type with
    | .plainData, .value type => some (StructField.mk field.name type)
    | _, _ => none
  Layout.build captured program.structFields?

def build (program : Program) (config : Config) : Recall (ShaderModel × Report) := do
  let (dispatch, dispatchReport) := Dispatch.build program config
  let (fields, fieldReport) := program.fieldInfos config dispatch
  let textures := fields.filterMap TextureInfo.ofField?
  let (inputs, inputReport) := Inputs.build program config
  let sceneReport ← ScenePosition.check program config
  let model : ShaderModel :=
    { typeName := program.shader.name
      kind := program.kind
      pixelType := program.pixelType
      fields
      layout := layoutOf program fields
      dispatch
      inputs
      textures
      requiresScenePosition := config.requiresScenePosition
      outputBuffer := config.outputBuffer
      profile := config.profileFor program.kind
      compileOptions := config.optionsFor program.kind
      effect := config.effect }
  pure (model,
    dispatchReport ++ fieldReport ++ checkProperties program ++ TextureInfo.checkNames program config fields ++
      inputReport ++ TextureInfo.checkIndices program inputs.count [] textures ++ sceneReport ++
      checkOptions program config ++ checkAccess program config fields ++
      EffectInfo.check program config.effect ++ checkWhole program model)

end ShaderModel

end Shaderlift
