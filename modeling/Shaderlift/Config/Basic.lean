import Shaderlift.Config.Options
import Shaderlift.Types.Encoded

/-!
Configurations: what is said of a shader beside its source text, with the value of everything left unsaid,
and how a configuration is written as JSON.
-/

namespace Shaderlift

/-- Numbers by name, in the order of the names. -/
structure NameTable where
  entries : List (String × UInt32)
  ordered : entries.Pairwise fun a b => a.1 < b.1
  deriving DecidableEq

namespace NameTable

def empty : NameTable := ⟨[], .nil⟩

/-- Put a number among others; an older number of the name is lost. -/
def insertEntry (name : String) (value : UInt32) : List (String × UInt32) → List (String × UInt32)
  | [] => [(name, value)]
  | (other, number) :: rest =>
    if name < other then (name, value) :: (other, number) :: rest
    else if name = other then (name, value) :: rest
    else (other, number) :: insertEntry name value rest

theorem mem_insertEntry {name : String} {value : UInt32} {entry : String × UInt32} :
    ∀ {entries : List (String × UInt32)},
      entry ∈ insertEntry name value entries → entry = (name, value) ∨ entry ∈ entries
  | [] => by simp [insertEntry]
  | (other, number) :: rest => by
    intro h
    simp only [insertEntry] at h
    split at h
    · simpa using h
    · split at h
      · rcases List.mem_cons.mp h with h | h
        · exact .inl h
        · exact .inr (List.mem_cons_of_mem _ h)
      · rcases List.mem_cons.mp h with h | h
        · exact .inr (by simp [h])
        · rcases mem_insertEntry h with h | h
          · exact .inl h
          · exact .inr (List.mem_cons_of_mem _ h)

theorem insertEntry_ordered (name : String) (value : UInt32) :
    ∀ {entries : List (String × UInt32)}, (entries.Pairwise fun a b => a.1 < b.1) →
      (insertEntry name value entries).Pairwise fun a b => a.1 < b.1
  | [], _ => by simp [insertEntry]
  | (other, number) :: rest, h => by
    obtain ⟨first, ordered⟩ := List.pairwise_cons.mp h
    simp only [insertEntry]
    split
    · rename_i before
      refine List.pairwise_cons.mpr ⟨?_, h⟩
      intro entry member
      rcases List.mem_cons.mp member with rfl | member
      · exact before
      · exact String.lt_trans before (first _ member)
    · split
      · rename_i same
        refine List.pairwise_cons.mpr ⟨?_, ordered⟩
        intro entry member
        exact same ▸ first _ member
      · rename_i notBefore different
        refine List.pairwise_cons.mpr ⟨?_, insertEntry_ordered name value ordered⟩
        intro entry member
        rcases mem_insertEntry member with rfl | member
        · exact Decidable.byContradiction fun after =>
            different (String.le_antisymm (String.not_lt.mp after) (String.not_lt.mp notBefore))
        · exact first _ member

/-- Give a name a number; an older number of the name is lost. -/
def insert (table : NameTable) (name : String) (value : UInt32) : NameTable :=
  ⟨insertEntry name value table.entries, insertEntry_ordered name value table.ordered⟩

end NameTable

/-- A configuration. -/
structure Config where
  threadGroupSize : Option GroupSize
  dispatchAxes : DispatchAxes
  inputCount : Option UInt32
  simpleInputs : List UInt32
  complexInputs : List UInt32
  inputDescriptions : List InputDescription
  resourceTextures : NameTable
  requiresScenePosition : Bool
  profile : Option Profile
  compileOptions : Option CompileOptions
  outputBuffer : OutputBuffer
  effect : EffectInfo
  generateDescriptor : Bool
  deriving DecidableEq

def OutputBuffer.unspecified : OutputBuffer := ⟨.unknown, .unspecified⟩

def EffectInfo.unnamed : EffectInfo := ⟨none, none, none, none, none⟩

namespace Config

/-- The configuration of a shader of which nothing is said. -/
def unspecified : Config :=
  { threadGroupSize := none
    dispatchAxes := .xy
    inputCount := none
    simpleInputs := []
    complexInputs := []
    inputDescriptions := []
    resourceTextures := .empty
    requiresScenePosition := false
    profile := none
    compileOptions := none
    outputBuffer := .unspecified
    effect := .unnamed
    generateDescriptor := true }

def groupSize? (config : Config) : Option GroupSize :=
  match config.threadGroupSize with
  | some size => some size
  | none => config.dispatchAxes.groupSize?

def profileFor (config : Config) (kind : ShaderKind) : Profile :=
  config.profile.getD (.defaults kind)

def hasComplexInputs (config : Config) : Bool := !config.complexInputs.isEmpty

def optionsFor (config : Config) (kind : ShaderKind) : CompileOptions :=
  config.compileOptions.getD (.defaults kind config.hasComplexInputs)

end Config

def Json.ofWord (word : UInt32) : Json := .ofNat word.toNat

def GroupSize.toJson (size : GroupSize) : Json :=
  .arr [.ofWord size.x, .ofWord size.y, .ofWord size.z]

def InputDescription.toJson (description : InputDescription) : Json :=
  .obj [("index", .ofWord description.index), ("filter", .str description.filter.name),
    ("level_of_detail", .ofOption .ofWord description.levelOfDetail)]

def OutputBuffer.toJson (output : OutputBuffer) : Json :=
  .obj [("precision", .str output.precision.name), ("channel_depth", .str output.channelDepth.name)]

def EffectInfo.toJson (effect : EffectInfo) : Json :=
  .obj [("id", .ofOption .str effect.id), ("display_name", .ofOption .str effect.displayName),
    ("description", .ofOption .str effect.description), ("category", .ofOption .str effect.category),
    ("author", .ofOption .str effect.author)]

def NameTable.toJson (table : NameTable) : Json :=
  .obj (table.entries.map fun entry => (entry.1, .ofWord entry.2))

/-- Encode a configuration with everything that it says or leaves unsaid. -/
def Config.toJson (config : Config) : Json :=
  .obj [("thread_group_size", .ofOption GroupSize.toJson config.threadGroupSize),
    ("dispatch_axes", .str config.dispatchAxes.render),
    ("input_count", .ofOption .ofWord config.inputCount),
    ("simple_inputs", .ofList .ofWord config.simpleInputs),
    ("complex_inputs", .ofList .ofWord config.complexInputs),
    ("input_descriptions", .ofList InputDescription.toJson config.inputDescriptions),
    ("resource_textures", config.resourceTextures.toJson),
    ("requires_scene_position", .bool config.requiresScenePosition),
    ("profile", .ofOption (fun profile => .str profile.name) config.profile),
    ("compile_options", .ofOption (fun options => .str options.render) config.compileOptions),
    ("output_buffer", config.outputBuffer.toJson),
    ("effect", config.effect.toJson),
    ("generate_descriptor", .bool config.generateDescriptor)]

end Shaderlift
