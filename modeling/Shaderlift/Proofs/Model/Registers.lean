import Mathlib.Data.List.Nodup
import Shaderlift.Model.Binding
import Shaderlift.Model.Effect

/-!
# Where resources are bound

Slots are counted, and the bound fields are the resources in the order of the fields. Registers come from two
sources. A resource without an index of its own takes the next free register of its class, so two of them never
share one; the textures of an image effect are bound by their indices.
-/

namespace Shaderlift

open List

namespace Binding

/-! ## Slots and fields -/

section Step

variable {field : FieldInfo} (free : Free) (slot : Nat) (rest : List FieldInfo)

theorem bindFields_value {type : ValueType} (hType : field.type = .value type) :
    bindFields free slot (field :: rest) = bindFields free slot rest := by
  rw [bindFields, hType]

theorem bindFields_resource {res : Resource} (hType : field.type = .resource res) :
    let taken := free.take field.role (SlotKind.ofResource res)
    bindFields free slot (field :: rest) =
      ⟨slot, SlotKind.ofResource res, taken.1, some field.name⟩ :: bindFields taken.2 (slot + 1) rest := by
  rw [bindFields, hType]

end Step

theorem slots_bindFields (free : Free) (slot : Nat) (fields : List FieldInfo) :
    (bindFields free slot fields).map Binding.slot = List.range' slot (bindFields free slot fields).length := by
  induction fields generalizing free slot with
  | nil => rfl
  | cons field rest ih =>
    cases hType : field.type with
    | value => rw [bindFields_value _ _ _ hType, ih]
    | resource =>
      rw [bindFields_resource _ _ _ hType]
      rw [map_cons, length_cons, List.range'_succ, ih]

theorem fields_bindFields (free : Free) (slot : Nat) (fields : List FieldInfo) :
    (bindFields free slot fields).map Binding.field =
      (fields.filter fun field => field.resource?.isSome).map fun field => some field.name := by
  induction fields generalizing free slot with
  | nil => rfl
  | cons field rest ih =>
    cases hType : field.type with
    | value => rw [bindFields_value _ _ _ hType, ih, filter_cons_of_neg (by simp [FieldInfo.resource?, hType])]
    | resource =>
      rw [bindFields_resource _ _ _ hType, filter_cons_of_pos (by simp [FieldInfo.resource?, hType])]
      exact congrArg _ (ih _ _)

/-! ## Counted registers -/

def Free.next (free : Free) : RegisterClass → Nat
  | .constantBuffer => free.constantBuffers
  | .shaderResource => free.shaderResources
  | .unorderedAccess => free.unorderedAccess
  | .sampler => 0

/-- A resource without an index takes the next free register of its class, and no class runs back. -/
theorem Free.take_next (free : Free) {role : FieldRole} (hRole : ∀ index, role ≠ .textureIndex index)
    (kind : SlotKind) :
    let taken := free.take role kind
    taken.1.index = free.next taken.1.kind ∧ taken.2.next taken.1.kind = taken.1.index + 1 ∧
      ∀ other, free.next other ≤ taken.2.next other := by
  cases role with
  | textureIndex index => exact absurd rfl (hRole index)
  | plainData | bufferResource | textureResource | groupShared | static =>
    cases kind <;> refine ⟨rfl, rfl, fun other => ?_⟩ <;> cases other <;> simp [take, next]

/-- No field among some has an index of its own. -/
def Unindexed (fields : List FieldInfo) : Prop := ∀ field ∈ fields, ∀ index, field.role ≠ .textureIndex index

variable {fields : List FieldInfo}

/-- Counted registers are taken once, and none before the next free one of its class. -/
theorem registers_bindFields (free : Free) (slot : Nat) (hFields : Unindexed fields) :
    (∀ binding ∈ bindFields free slot fields, free.next binding.register.kind ≤ binding.register.index) ∧
      ((bindFields free slot fields).map Binding.register).Nodup := by
  induction fields generalizing free slot with
  | nil => exact ⟨fun _ hNone => absurd hNone not_mem_nil, .nil⟩
  | cons field rest ih =>
    obtain ⟨hField, hRest⟩ := forall_mem_cons.mp hFields
    cases hType : field.type with
    | value =>
      rw [bindFields_value _ _ _ hType]
      exact ih free slot hRest
    | resource res =>
      obtain ⟨hIdx, hTaken, hAfter⟩ := free.take_next hField (SlotKind.ofResource res)
      rw [bindFields_resource _ _ _ hType]
      obtain ⟨hBeyond, hOnce⟩ := ih (free.take field.role (SlotKind.ofResource res)).2 (slot + 1) hRest
      refine ⟨forall_mem_cons.mpr ⟨Nat.le_of_eq hIdx.symm, fun later hLater => ?_⟩,
        nodup_cons.mpr ⟨fun hAgain => ?_, hOnce⟩⟩
      · exact Nat.le_trans (hAfter _) (hBeyond later hLater)
      · -- A later register of the same class lies beyond the one that has been taken.
        obtain ⟨later, hLater, hSame⟩ := mem_map.mp hAgain
        have hNext := hBeyond later hLater
        rw [hSame, hTaken] at hNext
        exact Nat.not_succ_le_self _ hNext

/-! ## Registers by index -/

/-- Where every resource is a texture with an index, the registers are those of the indices. -/
theorem registers_bindFields_of_indexed (free : Free) (slot : Nat)
    (hFields : ∀ field ∈ fields, field.resource?.isSome → (TextureInfo.ofField? field).isSome) :
    (bindFields free slot fields).map Binding.register =
      (fields.filterMap TextureInfo.ofField?).map fun texture => ⟨.shaderResource, texture.index⟩ := by
  induction fields generalizing free slot with
  | nil => rfl
  | cons field rest ih =>
    obtain ⟨hField, hRest⟩ := forall_mem_cons.mp hFields
    cases hType : field.type with
    | value =>
      rw [bindFields_value _ _ _ hType, filterMap_cons_none (by simp [TextureInfo.ofField?, hType])]
      exact ih free slot hRest
    | resource res =>
      obtain ⟨texture, hTexture⟩ := Option.isSome_iff_exists.mp (hField (by rw [FieldInfo.resource?, hType]; rfl))
      rw [bindFields_resource _ _ _ hType, filterMap_cons_some hTexture]
      unfold TextureInfo.ofField? at hTexture
      split at hTexture
      · rename_i hRole _
        obtain ⟨dims, -, rfl⟩ := Option.map_eq_some_iff.mp hTexture
        rw [hRole]
        exact congrArg _ (ih _ _ hRest)
      · cases hTexture

/-! ## Whole tables -/

/-- What is bound before the fields of a shader: the output texture of a shader that is run for each pixel. -/
def outputs (kind : ShaderKind) : List Binding :=
  if kind == .pixel then [⟨0, .readWriteTexture, ⟨.unorderedAccess, 0⟩, none⟩] else []

def Free.start (kind : ShaderKind) : Free := ⟨firstConstantBuffer, 0, (outputs kind).length⟩

theorem table_eq (model : ShaderModel) :
    table model = outputs model.kind ++ bindFields (.start model.kind) (outputs model.kind).length model.fields := by
  unfold table outputs Free.start
  cases model.kind <;> rfl

theorem slots_table (model : ShaderModel) : (table model).map Binding.slot = List.range (table model).length := by
  have hOutputs : (outputs model.kind).map Binding.slot = List.range' 0 (outputs model.kind).length := by
    cases model.kind <;> rfl
  rw [table_eq, map_append, length_append, slots_bindFields, hOutputs, range_eq_range',
    ← List.range'_append_1, Nat.zero_add]

/-- Counted registers avoid those of the output. -/
theorem nodup_registers_table {model : ShaderModel} (hFields : Unindexed model.fields) :
    ((table model).map Binding.register).Nodup := by
  rw [table_eq, map_append]
  obtain ⟨hNext, hOnce⟩ := registers_bindFields (.start model.kind) (outputs model.kind).length hFields
  refine nodup_append'.mpr ⟨?_, hOnce, fun register hOutput hField => ?_⟩
  · cases model.kind <;> decide
  · obtain ⟨output, hOutput, rfl⟩ := mem_map.mp hOutput
    obtain ⟨binding, hBinding, hSame⟩ := mem_map.mp hField
    have hBeyond := hNext binding hBinding
    rw [hSame] at hBeyond
    cases hKind : model.kind with
    | pixel =>
      rw [hKind] at hOutput hBeyond
      rw [mem_singleton.mp hOutput] at hBeyond
      exact absurd hBeyond (by decide)
    | compute | effect =>
      rw [hKind] at hOutput
      cases hOutput

end Binding

end Shaderlift
