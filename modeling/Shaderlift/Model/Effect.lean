import Shaderlift.Call.Closure
import Shaderlift.Model.Field

/-!
The rules on image effects: the numbering of inputs and textures, the scene position, and how an effect
may be called.
-/

namespace Shaderlift

namespace Inputs

/-- List the indices that are given again, each once, in the order of their second appearance. -/
def repeatedFrom (seen reported : List Nat) : List Nat → List Nat
  | [] => []
  | index :: rest =>
    if !seen.contains index then repeatedFrom (index :: seen) reported rest
    else if reported.contains index then repeatedFrom seen reported rest
    else index :: repeatedFrom seen (index :: reported) rest

def repeated (indices : List Nat) : List Nat := repeatedFrom [] [] indices

/-- Put indices in order and drop repetitions. -/
def ordered (indices : List Nat) : List Nat := indices.eraseDups.mergeSort (· ≤ ·)

def countOf (program : Program) (config : Config) : Nat × Report :=
  match config.inputCount with
  | none => (0, [program.complainHere .missingD2DInputCount []])
  | some count =>
    if count.toNat > Limits.effectInputs then
      (Limits.effectInputs, [program.complainHere .invalidD2DInputCount [toString count.toNat]])
    else (count.toNat, [])

/-- Report what is wrong with the descriptions of inputs; `seen` holds the indices described before. -/
def checkDescriptions (program : Program) (count : Nat) (seen : List Nat) :
    List InputDescription → Report
  | [] => []
  | description :: rest =>
    let index := description.index.toNat
    (if index ≥ count then
        [program.complainHere .d2dInputDescriptionIndexOutOfRange [toString index, toString count]]
      else []) ++
      (if seen.contains index then
        [program.complainHere .repeatedD2DInputDescriptionIndex [toString index]]
      else []) ++
      checkDescriptions program count (index :: seen) rest

/-- The inputs of a shader, and what is wrong with them. Only image effects have inputs. -/
def build (program : Program) (config : Config) : Inputs × Report :=
  if !program.kind.isEffect then (⟨0, [], [], []⟩, [])
  else
    let (count, countReport) := countOf program config
    let simple := config.simpleInputs.map UInt32.toNat
    let complex := config.complexInputs.map UInt32.toNat
    let simpleSet := ordered simple
    let complexSet := ordered complex
    let report :=
      countReport ++
        (repeated simple).map (fun i => program.complainHere .repeatedD2DSimpleInputIndex [toString i]) ++
        (repeated complex).map (fun i => program.complainHere .repeatedD2DComplexInputIndex [toString i]) ++
        (simpleSet.filter complexSet.contains).map
          (fun i => program.complainHere .overlappingD2DInputIndex [toString i]) ++
        ((ordered (simple ++ complex)).filter (· ≥ count)).map
          (fun i => program.complainHere .d2dInputIndexOutOfRange [toString i, toString count]) ++
        checkDescriptions program count [] config.inputDescriptions
    (⟨count, simpleSet, complexSet, config.inputDescriptions⟩, report)

end Inputs

namespace TextureInfo

def ofField? (field : FieldInfo) : Option TextureInfo :=
  match field.role, field.type with
  | .textureIndex index, .resource resource =>
    resource.dims?.map fun dims => ⟨field.name, index, dims, resource.element⟩
  | _, _ => none

def isDeclared (program : Program) (name : String) : Bool :=
  match (program.fieldType? program.shader.name name).map program.meaning with
  | some (.resource resource) => resource.isEffectTexture
  | _ => false

def checkNames (program : Program) (config : Config) (fields : List FieldInfo) : Report :=
  let isTexture (name : String) : Bool :=
    fields.any fun field =>
      field.name == name &&
        match field.role with
        | .textureIndex _ => true
        | _ => false
  (config.resourceTextures.entries.filter fun (name, _) => !isTexture name && !isDeclared program name).map
    fun (name, _) => program.complainHere .resourceTextureIndexOnInvalidField [name]

def place (program : Program) (texture : TextureInfo) : Span :=
  match program.shader.fields.find? fun field => field.declarators.any fun d => d.name == texture.field with
  | some field => field.span
  | none => program.shader.span

def checkIndex (program : Program) (inputCount : Nat) (texture : TextureInfo) : Report :=
  let index := toString texture.index
  if texture.index ≥ Limits.effectTextures then
    [program.complain .resourceTextureIndexOutOfRange (texture.place program) [texture.field, index]]
  else if texture.index < inputCount then
    [program.complain .resourceTextureIndexOverlapsInput (texture.place program)
      [texture.field, index, toString inputCount]]
  else []

def checkIndices (program : Program) (inputCount : Nat) (seen : List Nat) : List TextureInfo → Report
  | [] => []
  | texture :: rest =>
    checkIndex program inputCount texture ++
      (if seen.contains texture.index then
        [program.complain .repeatedResourceTextureIndex (texture.place program)
          [texture.field, toString texture.index]]
      else []) ++
      checkIndices program inputCount (texture.index :: seen) rest

end TextureInfo

namespace ScenePosition

open Track

/-- The hooks that find the first call that reads the scene position. Arguments count as unknown and no
variable is known; once a call is found, blocks are passed over. -/
def visitor (program : Program) (owner : String) : Visitor (Tracked (Option Span)) :=
  { block := fun _ walk => do
      if (← get).gathered.isNone then walk
    expr := fun expr walk => do
      match expr with
      | .call span callee _ args =>
        let unknown := args.map fun _ => CallArg.mk none none
        match ← recalling program owner fun _ => program.callee owner callee unknown .empty with
        | .intrinsic intrinsic =>
          if intrinsic.readsScenePosition then gather fun found => some (found.getD span)
        | _ => pure ()
      | _ => pure ()
      walk }

def visitMethods (program : Program) : List MethodKey → Track (Option Span) Unit
  | [] => pure ()
  | key :: rest => do
    match program.method? key with
    | some method => (visitor program key.owner).visitMethod method
    | none => pure ()
    visitMethods program rest

/-- Find the first call that reads the scene position in the entry point and the methods it needs. -/
def find (program : Program) : Track (Option Span) Unit := do
  match program.entry with
  | some (_, entry) => (visitor program program.shader.name).visitMethod entry
  | none => pure ()
  let helpers ← recalling program program.shader.name fun _ => program.reachableMethods
  visitMethods program helpers

/-- Report a shader that reads the scene position without saying so. -/
def check (program : Program) (config : Config) : Recall Report :=
  if !program.kind.isEffect || config.requiresScenePosition then pure []
  else fun memo =>
    let (_, state) := find program (.start memo none)
    match state.gathered with
    | some span => ([program.complain .missingScenePositionCapability span []], state.memo)
    | none => ([], state.memo)

end ScenePosition

namespace EffectInfo

def groupLengths : List Nat := [8, 4, 4, 4, 12]

def withoutBraces (text : List Char) : List Char :=
  match text with
  | '{' :: rest => (Text.stripEnd ['}'] rest).getD text
  | _ => text

/-- Decide whether a text is an identifier: five groups of hexadecimal digits, in braces or not. -/
def isIdentifier (text : String) : Bool :=
  let groups := Text.splitAt '-' (withoutBraces text.toList)
  groups.map List.length == groupLengths && groups.all fun group => group.all fun c => (Json.hexDigit? c).isSome

def isUnfit (text : String) : Bool :=
  text.toList.all Text.isBlank || text.toList.any Text.isControl

def check (program : Program) (effect : EffectInfo) : Report :=
  let badId :=
    match effect.id with
    | some id => if isIdentifier id then [] else [program.complainHere .invalidEffectId [id]]
    | none => []
  let texts : List (Option String × Rule) :=
    [(effect.displayName, .invalidEffectDisplayName), (effect.description, .invalidEffectDescription),
     (effect.category, .invalidEffectCategory), (effect.author, .invalidEffectAuthor)]
  badId ++ (texts.filter fun (text, _) => text.any isUnfit).map fun (_, rule) => program.complainHere rule []

end EffectInfo

end Shaderlift
