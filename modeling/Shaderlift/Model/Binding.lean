import Shaderlift.Model.Basic

/-!
Where resources are bound. Slots count the resources in source order; registers count them within their
class. Dispatched shaders keep the first two constant registers for themselves; the textures of image
effects are bound by their own indices.
-/

namespace Shaderlift

/-- What is bound. -/
inductive SlotKind where
  | constantBuffer | readOnlyBuffer | readWriteBuffer | readOnlyTexture | readWriteTexture | resourceTexture
  deriving DecidableEq, Repr, Inhabited

namespace SlotKind

def ofResource (resource : Resource) : SlotKind :=
  match resource.kind with
  | .constantBuffer => .constantBuffer
  | .readOnlyBuffer => .readOnlyBuffer
  | .readWriteBuffer => .readWriteBuffer
  | .readOnlyTexture _ _ => .readOnlyTexture
  | .readWriteTexture _ _ => .readWriteTexture
  | .effectTexture _ => .resourceTexture

def name : SlotKind → String
  | .constantBuffer => "ConstantBuffer"
  | .readOnlyBuffer => "ReadOnlyBuffer"
  | .readWriteBuffer => "ReadWriteBuffer"
  | .readOnlyTexture => "ReadOnlyTexture"
  | .readWriteTexture => "ReadWriteTexture"
  | .resourceTexture => "ResourceTexture"

end SlotKind

/-- The classes of registers. -/
inductive RegisterClass where
  | constantBuffer | shaderResource | unorderedAccess | sampler
  deriving DecidableEq, Repr, Inhabited

namespace RegisterClass

def letter : RegisterClass → String
  | .constantBuffer => "b"
  | .shaderResource => "t"
  | .unorderedAccess => "u"
  | .sampler => "s"

def name : RegisterClass → String
  | .constantBuffer => "ConstantBuffer"
  | .shaderResource => "ShaderResource"
  | .unorderedAccess => "UnorderedAccess"
  | .sampler => "Sampler"

end RegisterClass

/-- A register. -/
structure Register where
  kind : RegisterClass
  index : Nat
  deriving DecidableEq, Repr, Inhabited

def Register.render (register : Register) : String := register.kind.letter ++ toString register.index

/-- A bound resource: its slot, what it is, its register and its field. The output texture of a shader that
is run for each pixel has no field. -/
structure Binding where
  slot : Nat
  kind : SlotKind
  register : Register
  field : Option String
  deriving DecidableEq, Repr, Inhabited

namespace Binding

def dispatchRegister : Nat := 0

def fieldRegister : Nat := 1

def firstConstantBuffer : Nat := 2

def effectRegister : Nat := 0

/-- The next free register of each class. -/
structure Free where
  constantBuffers : Nat
  shaderResources : Nat
  unorderedAccess : Nat
  deriving DecidableEq, Repr, Inhabited

namespace Free

def take (free : Free) (role : FieldRole) (kind : SlotKind) : Register × Free :=
  match role, kind with
  | .textureIndex index, _ => (⟨.shaderResource, index⟩, free)
  | _, .constantBuffer =>
    (⟨.constantBuffer, free.constantBuffers⟩, { free with constantBuffers := free.constantBuffers + 1 })
  | _, .readWriteBuffer =>
    (⟨.unorderedAccess, free.unorderedAccess⟩, { free with unorderedAccess := free.unorderedAccess + 1 })
  | _, .readWriteTexture =>
    (⟨.unorderedAccess, free.unorderedAccess⟩, { free with unorderedAccess := free.unorderedAccess + 1 })
  | _, _ =>
    (⟨.shaderResource, free.shaderResources⟩, { free with shaderResources := free.shaderResources + 1 })

end Free

def bindFields (free : Free) (slot : Nat) : List FieldInfo → List Binding
  | [] => []
  | field :: rest =>
    match field.type with
    | .value _ => bindFields free slot rest
    | .resource resource =>
      let kind := SlotKind.ofResource resource
      let (register, free) := free.take field.role kind
      ⟨slot, kind, register, some field.name⟩ :: bindFields free (slot + 1) rest

/-- Bind the resources of a shader. The output texture of a shader that is run for each pixel comes
first. -/
def table (model : ShaderModel) : List Binding :=
  if model.kind == .pixel then
    ⟨0, .readWriteTexture, ⟨.unorderedAccess, 0⟩, none⟩ ::
      bindFields ⟨firstConstantBuffer, 0, 1⟩ 1 model.fields
  else bindFields ⟨firstConstantBuffer, 0, 0⟩ 0 model.fields

def toJson (binding : Binding) : Json :=
  .obj [("slot", .ofNat binding.slot), ("kind", .str binding.kind.name),
    ("register", .obj [("class", .str binding.register.kind.name), ("index", .ofNat binding.register.index)]),
    ("field", .ofOption .str binding.field)]

def tableToJson (bindings : List Binding) : Json := .obj [("bindings", .ofList toJson bindings)]

end Binding

end Shaderlift
