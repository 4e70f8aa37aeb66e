import Shaderlift.Proofs.Accepted.Basic
import Shaderlift.Proofs.Model.Indices
import Shaderlift.Proofs.Model.Registers

/-!
# The registers of accepted shaders

Two unrelated mechanisms keep the registers of an accepted shader apart. A dispatched shader counts the registers
of each class; the textures of an image effect are bound by their indices, which the checks on indices keep
distinct and between the inputs and the limit.
-/

namespace Shaderlift

open List

open Report

/-- A binding table of a program is in order: slots are counted, the bound fields are the resources of the model
after the output texture, these are the declared ones, and registers are distinct and in their ranges. -/
structure Program.Binds (program : Program) (config : Config) (model : ShaderModel) (bindings : List Binding) :
    Prop where
  slots : bindings.map Binding.slot = List.range bindings.length
  fields : ∃ bound, bindings = Binding.outputs program.kind ++ bound ∧
    bound.map Binding.field = model.resources.map fun field => some field.name
  declared : model.resources.map FieldInfo.name = program.resourceNames
  registers : (bindings.map Binding.register).Nodup
  constants : program.kind.isDispatched = true → ∀ binding ∈ bindings,
    binding.register.kind = .constantBuffer → 2 ≤ binding.register.index
  textures : program.kind.isEffect = true → ∃ count, config.inputCount = some count ∧ ∀ binding ∈ bindings,
    binding.register.kind = .shaderResource ∧ count.toNat ≤ binding.register.index ∧ binding.register.index < 16

namespace Program

variable {prog : Program} {cfg : Config} {dispatch : Dispatch}

/-- The resources of a dispatched shader have no indices of their own. -/
theorem unindexed_fieldInfos (hKind : prog.kind.isEffect = false) :
    Binding.Unindexed (prog.fieldInfos cfg dispatch).1 := by
  intro info hInfo
  obtain ⟨field, declarator, hJudged⟩ := prog.judged_of_mem_fieldInfos cfg dispatch hInfo
  cases hJudged with
  | value _ hRole | resource _ _ hRole => exact hRole
  | texture hEffect => cases hKind.symm.trans hEffect

theorem indexed_fieldInfos (hKind : prog.kind.isEffect = true) :
    ∀ info ∈ (prog.fieldInfos cfg dispatch).1, info.resource?.isSome → (TextureInfo.ofField? info).isSome := by
  intro info hInfo hRes
  obtain ⟨field, declarator, hJudged⟩ := prog.judged_of_mem_fieldInfos cfg dispatch hInfo
  cases hJudged with
  | value => cases hRes
  | resource hOther => cases hKind.symm.trans hOther
  | texture _ _ _ hDims =>
    unfold TextureInfo.ofField?
    dsimp only
    rwa [Option.isSome_map]

/-- If nothing is wrong with the model of an image effect, then its textures have indices of their own between the
number of inputs and the limit. -/
theorem textures_of_quiet (hKind : prog.kind.isEffect = true) {memo : CallMemo}
    (hQuiet : hasErrors (ShaderModel.build prog cfg memo).1.2 = false) :
    let textures := (ShaderModel.build prog cfg memo).1.1.fields.filterMap TextureInfo.ofField?
    ∃ count, cfg.inputCount = some count ∧ (textures.map TextureInfo.index).Nodup ∧
      ∀ texture ∈ textures, count.toNat ≤ texture.index ∧ texture.index < 16 := by
  have hSpares := sparesIndices_of_quiet hQuiet
  rw [ShaderModel.report_build] at hSpares
  simp only [sparesIndices_append, and_assoc] at hSpares
  obtain ⟨-, -, -, -, hInputs, hIndices, -⟩ := hSpares
  obtain ⟨count, hCount, hSmall, -⟩ := (Inputs.sparesIndices_build hKind).mp hInputs
  rw [Inputs.count_build hKind hCount hSmall, TextureInfo.sparesIndices_checkIndices] at hIndices
  exact ⟨count, hCount, hIndices.1.1, hIndices.2⟩

theorem registers_of_dispatched (hKind : prog.kind.isEffect = false) (memo : CallMemo) :
    let bindings := Binding.table (ShaderModel.build prog cfg memo).1.1
    (bindings.map Binding.register).Nodup ∧
      ∀ binding ∈ bindings, binding.register.kind = .constantBuffer → 2 ≤ binding.register.index := by
  intro bindings
  have hFields : Binding.Unindexed (ShaderModel.build prog cfg memo).1.1.fields := unindexed_fieldInfos hKind
  refine ⟨Binding.nodup_registers_table hFields, fun binding hBinding hClass => ?_⟩
  change binding ∈ Binding.table _ at hBinding
  rw [Binding.table_eq] at hBinding
  rcases mem_append.mp hBinding with hOutput | hField
  · unfold Binding.outputs at hOutput
    split at hOutput
    · cases mem_singleton.mp hOutput ▸ hClass
    · cases hOutput
  · have hNext := (Binding.registers_bindFields _ _ hFields).1 _ hField
    rwa [hClass] at hNext

/-- The registers of an image effect are the indices of its textures. -/
theorem registers_of_effect (hKind : prog.kind.isEffect = true) (memo : CallMemo) :
    let model := (ShaderModel.build prog cfg memo).1.1
    (Binding.table model).map Binding.register =
      (model.fields.filterMap TextureInfo.ofField?).map fun texture => ⟨.shaderResource, texture.index⟩ := by
  intro model
  have hOutputs : Binding.outputs prog.kind = [] := by
    rw [eq_of_beq hKind]
    rfl
  rw [Binding.table_eq, show model.kind = prog.kind from rfl, hOutputs, nil_append]
  exact Binding.registers_bindFields_of_indexed _ _ (indexed_fieldInfos hKind)

/-- If nothing is wrong with a model, then its binding table is in order. -/
theorem binds_of_quiet {memo : CallMemo} (hQuiet : hasErrors (ShaderModel.build prog cfg memo).1.2 = false) :
    let model := (ShaderModel.build prog cfg memo).1.1
    prog.Binds cfg model (Binding.table model) := by
  intro model
  have hFields : hasErrors (prog.fieldInfos cfg (Dispatch.build prog cfg).1).2 = false := by
    rw [ShaderModel.report_build] at hQuiet
    simp only [hasErrors_append, and_assoc] at hQuiet
    exact hQuiet.2.1
  refine
    { slots := Binding.slots_table model
      fields := ⟨_, Binding.table_eq model, Binding.fields_bindFields _ _ _⟩
      declared := prog.resources_fieldInfos cfg _ hFields
      registers := ?_
      constants := fun hDispatched => (registers_of_dispatched ((Bool.not_eq_true' _).mp hDispatched) memo).2
      textures := fun hKind => ?_ }
  · cases hKind : prog.kind.isEffect with
    | false => exact (registers_of_dispatched hKind memo).1
    | true =>
      obtain ⟨count, -, hDistinct, -⟩ := textures_of_quiet hKind hQuiet
      rw [registers_of_effect hKind]
      exact .of_map Register.index (by rwa [map_map])
  · obtain ⟨count, hCount, -, hRange⟩ := textures_of_quiet hKind hQuiet
    refine ⟨count, hCount, fun binding hBinding => ?_⟩
    have hRegister := mem_map_of_mem (f := Binding.register) hBinding
    rw [registers_of_effect hKind] at hRegister
    obtain ⟨texture, hTexture, hSame⟩ := mem_map.mp hRegister
    rw [← hSame]
    exact ⟨rfl, hRange texture hTexture⟩

end Program

/-- The binding table of an accepted shader is in order. -/
theorem transpile_binds (source name : String) (config : Config) (out : Transpiled)
    (hOk : transpile source name config = .ok out) :
    ∃ run, loweringRun? source name config = some run ∧ run.program.Binds config out.model out.bindings := by
  obtain ⟨run, hRun, hAccepted⟩ := accepted_of_ok hOk
  refine ⟨run, hRun, ?_⟩
  rw [hAccepted.bindings, hAccepted.model]
  exact Program.binds_of_quiet hAccepted.modelQuiet

/-! ## A shader of each mechanism -/

/-- A shader that is run for each pixel, with resources of all classes. -/
def mixedShader : String :=
  "struct S : IComputeShader<float4> \x7b ReadWriteTexture2D<float4> paint; ConstantBuffer<float> gain; float x; " ++
    "ReadOnlyBuffer<float> first, second; float4 Execute() \x7b return first[0] * gain[0]; \x7d \x7d"

/-- An image effect whose textures are given their indices in the other order. -/
def layeredShader : String :=
  "struct S : ID2D1PixelShader \x7b D2D1ResourceTexture2D<float4> wood; float gain; " ++
    "D2D1ResourceTexture1D<float> grain; float4 Execute() \x7b return gain; \x7d \x7d"

/-- The textures of an effect with one input. -/
def layeredConfig : Config :=
  { Config.unspecified with
    inputCount := some 1
    resourceTextures := (NameTable.empty.insert "wood" 15).insert "grain" 1 }

set_option maxRecDepth 100000 in
theorem registers_mixedShader :
    (transpile mixedShader "S" .unspecified).toOption.map (fun out => out.bindings.map Binding.register) =
      some [⟨.unorderedAccess, 0⟩, ⟨.unorderedAccess, 1⟩, ⟨.constantBuffer, 2⟩, ⟨.shaderResource, 0⟩,
        ⟨.shaderResource, 1⟩] := by decide +kernel

set_option maxRecDepth 100000 in
theorem registers_layeredShader :
    (transpile layeredShader "S" layeredConfig).toOption.map (fun out => out.bindings.map Binding.register) =
      some [⟨.shaderResource, 15⟩, ⟨.shaderResource, 1⟩] := by decide +kernel

/-- Both shaders are accepted, and their tables are in order. -/
theorem transpile_binds_both :
    (∃ out, transpile mixedShader "S" .unspecified = .ok out ∧ ∃ run,
      loweringRun? mixedShader "S" .unspecified = some run ∧
        run.program.Binds .unspecified out.model out.bindings) ∧
    ∃ out, transpile layeredShader "S" layeredConfig = .ok out ∧ ∃ run,
      loweringRun? layeredShader "S" layeredConfig = some run ∧
        run.program.Binds layeredConfig out.model out.bindings := by
  constructor
  · have hRegisters := registers_mixedShader
    cases hOut : transpile mixedShader "S" .unspecified with
    | error => simp [hOut, Except.toOption] at hRegisters
    | ok out => exact ⟨out, rfl, transpile_binds _ _ _ out hOut⟩
  · have hRegisters := registers_layeredShader
    cases hOut : transpile layeredShader "S" layeredConfig with
    | error => simp [hOut, Except.toOption] at hRegisters
    | ok out => exact ⟨out, rfl, transpile_binds _ _ _ out hOut⟩

end Shaderlift
