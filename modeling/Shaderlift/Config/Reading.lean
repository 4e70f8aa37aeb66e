import Shaderlift.Config.Basic

/-!
Reading configurations from JSON. A record is an object of named fields, where unknown fields are skipped
and a known one may not repeat, or an array of its first fields in order. What is left out keeps its value
in the configuration of which nothing is said.
-/

namespace Shaderlift

/-- A field of a record: its name, whether it may be left out, and how its value changes the record. -/
structure FieldReader (σ : Type) where
  name : String
  required : Bool
  read : Json → σ → Option σ

namespace FieldReader

def omittable {σ α : Type} (name : String) (decode : Json → Option α) (store : α → σ → σ) : FieldReader σ :=
  ⟨name, false, fun json record => (decode json).map (store · record)⟩

def needed {σ α : Type} (name : String) (decode : Json → Option α) (store : α → σ → σ) : FieldReader σ :=
  ⟨name, true, fun json record => (decode json).map (store · record)⟩

variable {σ : Type}

/-- Read members in order. A member without a field is skipped. -/
def readMembers (fields : List (FieldReader σ)) : σ → List (String × Json) → Option σ
  | record, [] => some record
  | record, (name, value) :: rest =>
    match fields.find? fun field => field.name == name with
    | some field => do readMembers fields (← field.read value record) rest
    | none => readMembers fields record rest

def noneTwice (fields : List (FieldReader σ)) (members : List (String × Json)) : Bool :=
  fields.all fun field => (members.filter fun entry => entry.1 == field.name).length ≤ 1

def noneMissing (fields : List (FieldReader σ)) (members : List (String × Json)) : Bool :=
  fields.all fun field => !field.required || members.any fun entry => entry.1 == field.name

def readItems : List (FieldReader σ) → σ → List Json → Option σ
  | [], record, [] => some record
  | [], _, _ :: _ => none
  | fields@(_ :: _), record, [] => if fields.any FieldReader.required then none else some record
  | field :: fields, record, item :: rest => do readItems fields (← field.read item record) rest

def readRecord (fields : List (FieldReader σ)) (start : σ) : Json → Option σ
  | .obj members =>
    if noneTwice fields members && noneMissing fields members then readMembers fields start members
    else none
  | .arr items => readItems fields start items
  | _ => none

end FieldReader

namespace Json

def word? (json : Json) : Option UInt32 :=
  match json.nat? with
  | some n => if n < UInt32.size then some (UInt32.ofNat n) else none
  | none => none

def bool? : Json → Option Bool
  | .bool value => some value
  | _ => none

def nullable? {α : Type} (decode : Json → Option α) : Json → Option (Option α)
  | .null => some none
  | json => (decode json).map some

def list? {α : Type} (decode : Json → Option α) : Json → Option (List α)
  | .arr items => items.mapM decode
  | _ => none

def choiceName? : Json → Option String
  | .str name => some name
  | .obj [(name, .null)] => some name
  | _ => none

def choice? {α : Type} (all : List α) (name : α → String) (json : Json) : Option α := do
  let text ← json.choiceName?
  all.find? fun value => name value == text

def groupSize? : Json → Option GroupSize
  | .arr [x, y, z] => do pure ⟨← x.word?, ← y.word?, ← z.word?⟩
  | _ => none

def nameTable? : Json → Option NameTable
  | .obj members =>
    members.foldlM (fun table entry => (entry.2.word?).map (table.insert entry.1 ·)) NameTable.empty
  | _ => none

end Json

open FieldReader (omittable needed)

def InputDescription.readers : List (FieldReader InputDescription) :=
  [needed "index" Json.word? fun index record => { record with index },
   omittable "filter" (Json.choice? Filter.all Filter.name) fun filter record => { record with filter },
   omittable "level_of_detail" (Json.nullable? Json.word?)
    fun levelOfDetail record => { record with levelOfDetail }]

def InputDescription.ofJson? : Json → Option InputDescription :=
  FieldReader.readRecord readers ⟨0, .point, none⟩

def OutputBuffer.readers : List (FieldReader OutputBuffer) :=
  [omittable "precision" (Json.choice? Precision.all Precision.name)
    fun precision record => { record with precision },
   omittable "channel_depth" (Json.choice? ChannelDepth.all ChannelDepth.name)
    fun channelDepth record => { record with channelDepth }]

def OutputBuffer.ofJson? : Json → Option OutputBuffer :=
  FieldReader.readRecord readers .unspecified

def EffectInfo.readers : List (FieldReader EffectInfo) :=
  [omittable "id" (Json.nullable? Json.str?) fun id record => { record with id },
   omittable "display_name" (Json.nullable? Json.str?) fun displayName record => { record with displayName },
   omittable "description" (Json.nullable? Json.str?) fun description record => { record with description },
   omittable "category" (Json.nullable? Json.str?) fun category record => { record with category },
   omittable "author" (Json.nullable? Json.str?) fun author record => { record with author }]

def EffectInfo.ofJson? : Json → Option EffectInfo :=
  FieldReader.readRecord readers .unnamed

namespace Config

def flags? {α : Type} (read : String → Option α) (json : Json) : Option α := json.str?.bind read

def readers : List (FieldReader Config) :=
  [omittable "thread_group_size" (Json.nullable? Json.groupSize?)
    fun threadGroupSize config => { config with threadGroupSize },
   omittable "dispatch_axes" (flags? DispatchAxes.read)
    fun dispatchAxes config => { config with dispatchAxes },
   omittable "input_count" (Json.nullable? Json.word?) fun inputCount config => { config with inputCount },
   omittable "simple_inputs" (Json.list? Json.word?) fun simpleInputs config => { config with simpleInputs },
   omittable "complex_inputs" (Json.list? Json.word?)
    fun complexInputs config => { config with complexInputs },
   omittable "input_descriptions" (Json.list? InputDescription.ofJson?)
    fun inputDescriptions config => { config with inputDescriptions },
   omittable "resource_textures" Json.nameTable?
    fun resourceTextures config => { config with resourceTextures },
   omittable "requires_scene_position" Json.bool?
    fun requiresScenePosition config => { config with requiresScenePosition },
   omittable "profile" (Json.nullable? (Json.choice? Profile.all Profile.name))
    fun profile config => { config with profile },
   omittable "compile_options" (Json.nullable? (flags? CompileOptions.read))
    fun compileOptions config => { config with compileOptions },
   omittable "output_buffer" OutputBuffer.ofJson? fun outputBuffer config => { config with outputBuffer },
   omittable "effect" EffectInfo.ofJson? fun effect config => { config with effect },
   omittable "generate_descriptor" Json.bool?
    fun generateDescriptor config => { config with generateDescriptor }]

def ofJson? : Json → Option Config := FieldReader.readRecord readers unspecified

def read (text : String) : Option Config := (Json.read text).bind ofJson?

end Config

end Shaderlift
