import Shaderlift.Proofs.Accepted.Calls
import Shaderlift.Proofs.Lowering.CoordinatesUnit

/-!
# Coordinates of accepted shaders

The entry point of an accepted shader has the parameters of the coordinates that it uses, and no others, except for
coordinates that stray into the output from elsewhere. The rules do not walk the initial values of static fields of
other types, they read default values in other places than lowering does, and the names that they see declared in one
section of a switch hide coordinates from them in the next.
-/

namespace Shaderlift

open Legality Lower

namespace LoweringRun

variable (run : LoweringRun)

/-- Decide whether no field of the shader hides coordinates. -/
def shows (id : SpecialId) : Bool := (run.program.fieldType? run.program.shader.name id.source).isNone

/-- Decide whether the entry point uses coordinates in any case. -/
def surelyUses (config : Config) (id : SpecialId) : Bool :=
  run.entry.uses run.program id false (resultType? run.program (run.program.modelOf config) run.entry).isSome
    (run.shows id)

/-- Decide whether the entry point uses coordinates if a type is expected of every creation without one. -/
def possiblyUses (id : SpecialId) : Bool := run.entry.uses run.program id true true (run.shows id)

/-- The rules do not see coordinates in the default values of a method: they do not walk it or walk it as the entry
point, or a field or a parameter hides the coordinates there. -/
def Overlooks (id : SpecialId) (key : MethodKey) (method : MethodDecl) : Prop :=
  (key.owner ≠ run.program.shader.name ∧ key ∉ run.needed) ∨ run.program.isEntry key = true ∨
    run.program.fieldType? key.owner id.source ≠ none ∨ id.source ∈ method.params.map Param.name

/-- The places from which coordinates come into the output although the entry point may not use them. -/
inductive Strays (id : SpecialId) : Prop
  | default {key : MethodKey} {method : MethodDecl} {param : Param} {value : Expr} :
      run.program.method? key = some method → run.Overlooks id key method → param ∈ method.params →
      param.default = some value → value.uses run.program id true true = true → Strays id
  | static {owner name : String} {value : Expr} :
      owner ≠ run.program.shader.name → run.program.fieldType? owner id.source = none →
      fieldInit? run.program owner name = some value → value.uses run.program id true true = true → Strays id
  | hidden {owner : String} {method : MethodDecl} :
      run.Lowers owner method → method.all (.sectionsSpare id.source) = false → Strays id

end LoweringRun

namespace Accepted

variable {cfg : Config} {out : Transpiled} {run : LoweringRun} (hAccepted : Accepted cfg out run)

include hAccepted

variable {id : SpecialId} {val : Expr}

/-- The initial values of the fields of the shader use no coordinates. -/
theorem uses_eq_false_of_init (hField : run.program.fieldType? run.program.shader.name id.source = none) {name : String}
    (hInit : shaderInit? run.program name = some val) : val.uses run.program id true true = false := by
  obtain ⟨field, declarator, hMember, hDeclarator, hVal⟩ := exists_declarator_of_init hInit
  have hSpares := passesInits_of_quiet run.program id.isSome_ofName?_source
    (quiet_checkAll run.program hAccepted.quiet) hField field hMember declarator hDeclarator val hVal
  rw [passesInit_without] at hSpares
  exact Expr.uses_eq_false_of_all hSpares

/-- A default value uses coordinates only if the rules do not see them there. -/
theorem overlooks_of_uses {key : MethodKey} {method : MethodDecl} (hMethod : run.program.method? key = some method)
    {param : Param} (hParam : param ∈ method.params) (hDefault : param.default = some val)
    (hUses : val.uses run.program id true true = true) : run.Overlooks id key method := by
  by_contra hSeen
  rw [LoweringRun.Overlooks, not_or, not_or, not_or] at hSeen
  obtain ⟨hWalked, hEntry, hField, hNames⟩ := hSeen
  have hKey : key.owner = run.program.shader.name ∨ key ∈ run.needed := by
    rwa [not_and_or, not_not, not_not] at hWalked
  have hChecked := hAccepted.checked_method hMethod (Bool.eq_false_of_not_eq_true hEntry) hKey
  have hSpared := uses_eq_false_of_default hChecked (not_not.mp hField)
    (Bool.eq_false_of_not_eq_true fun hMem => hNames (List.contains_iff_mem.mp hMem)) hParam hDefault
  rw [hSpared] at hUses
  cases hUses

theorem sparesPulled (hStrays : ¬run.Strays id) : SparesPulled run.program id := by
  intro owner val hPulls hField
  refine Bool.eq_false_of_not_eq_true fun hUses => ?_
  cases hPulls with
  | default hDefault =>
    obtain ⟨key, method, param, hMethod, hParam, hVal⟩ := hDefault
    exact hStrays (.default hMethod (hAccepted.overlooks_of_uses hMethod hParam hVal hUses) hParam hVal hUses)
  | ownStatic hInit =>
    rw [hAccepted.uses_eq_false_of_init hField hInit] at hUses
    cases hUses
  | static hInit =>
    by_cases hOwner : owner = run.program.shader.name
    · rw [hOwner] at hField
      rw [hOwner, fieldInit?, hAccepted.seen.shader] at hInit
      rw [hAccepted.uses_eq_false_of_init hField hInit] at hUses
      cases hUses
    · exact hStrays (.static hOwner hField hInit hUses)

theorem noted_last (id : SpecialId) : (run.surelyUses cfg id = true → Noted run.last id) ∧
      (Noted run.last id → run.possiblyUses id = true ∨ run.Strays id) := by
  have hSections : ∀ owner method, run.Lowers owner method → ¬run.Strays id →
      method.all (.sectionsSpare id.source) = true := fun owner method hLowers hStrays => by
    by_contra hHides
    exact hStrays (.hidden hLowers (Bool.eq_false_of_not_eq_true hHides))
  obtain ⟨inEntry, hEntry⟩ := hAccepted.checked_entry
  -- All is clear if the coordinates do not stray.
  obtain ⟨hSure, hPossible⟩ := noted_unit hAccepted.sparesPulled Option.isSome_iff_ne_none.mp rfl hEntry
    hAccepted.needed_eq hAccepted.checksAll_needed fun hStrays => ⟨hSections _ _ .entry hStrays,
      fun key hKey found hFound => hSections key.owner found (.helper hKey hFound) hStrays⟩
  rw [hAccepted.last_eq]
  refine ⟨hSure, fun hNoted => ?_⟩
  by_cases hStrays : run.Strays id
  · exact .inr hStrays
  · exact .inl (hPossible hStrays hNoted)

/-- The coordinates that have been noted at the end of the run are the parameters of a dispatched entry point. -/
theorem mem_params_iff (hDispatched : out.model.kind.isDispatched = true) (id : SpecialId) :
    id.param ∈ (run.program.loweredOf cfg run.entry).entry.params ↔ Noted run.last id := by
  have hParams : (run.program.loweredOf cfg run.entry).entry.params = entryParams run.last.gathered.ids := by
    rw [hAccepted.last_eq]
    rw [hAccepted.model] at hDispatched
    show (entryPointOf _ _ _).params = _
    unfold entryPointOf
    rw [if_pos hDispatched]
    rfl
  rw [hParams]
  exact mem_entryParams _ id

end Accepted

/-- The entry point of an accepted shader has the parameters of the coordinates that it uses in any case, and each of
these parameters belongs to coordinates that it may use or that stray into the output. -/
theorem transpile_injects (source name : String) (config : Config) (out : Transpiled)
    (hOk : transpile source name config = .ok out) (hDispatched : out.model.kind.isDispatched = true) :
    ∃ run lowered, loweringRun? source name config = some run ∧
      out.hlsl = OutUnit.render run.program out.model lowered out.bindings ∧
      ∀ id : SpecialId, (out.ids.has id = true ↔ id.param ∈ lowered.entry.params) ∧
        (run.surelyUses config id = true → id.param ∈ lowered.entry.params) ∧
        (id.param ∈ lowered.entry.params → run.possiblyUses id = true ∨ run.Strays id) := by
  obtain ⟨run, hRun, hAccepted⟩ := accepted_of_ok hOk
  refine ⟨run, run.program.loweredOf config run.entry, hRun, hAccepted.hlsl, fun id => ?_⟩
  have hIds : out.ids.has id = true ↔ Noted run.last id := by
    rw [hAccepted.ids, hAccepted.last_eq]
    exact Iff.rfl
  rw [hAccepted.mem_params_iff hDispatched]
  exact ⟨hIds, hAccepted.noted_last id⟩

/-- A shader that uses the coordinates of a thread in its group, and in which a variable has the name of the
coordinates of the group. -/
def groupedShader : String :=
  "struct S : IComputeShader \x7b ReadWriteBuffer<int> b; void Execute() \x7b \x7b int GridIds = 1; " ++
    "b[0] = GridIds; \x7d b[1] = GroupIds.X + GroupIds.Index; \x7d \x7d"

set_option maxRecDepth 100000 in
theorem uses_groupedShader :
    (transpile groupedShader "S" .unspecified).toOption.map (fun out => out.model.kind.isDispatched) = some true ∧
      (loweringRun? groupedShader "S" .unspecified).map (fun run =>
        (run.surelyUses .unspecified .groupThreadIds, run.surelyUses .unspecified .groupIndex,
          run.possiblyUses .gridIds)) = some (true, true, false) := by decide +kernel

/-- Two parameters are there, and the third would be there only if its coordinates strayed into the output. -/
theorem transpile_injects_groupedShader :
    ∃ (out : Transpiled) (run : LoweringRun) (lowered : LoweredUnit),
      transpile groupedShader "S" .unspecified = .ok out ∧
      out.hlsl = OutUnit.render run.program out.model lowered out.bindings ∧
      "uint3 GroupIds : SV_GroupThreadID" ∈ lowered.entry.params ∧
      "uint __GroupIds__get_Index : SV_GroupIndex" ∈ lowered.entry.params ∧
      ("uint3 GridIds : SV_GroupID" ∈ lowered.entry.params → run.Strays .gridIds) := by
  obtain ⟨hOk, hFacts⟩ := uses_groupedShader
  cases hOut : transpile groupedShader "S" .unspecified with
  | error =>
    rw [hOut] at hOk
    cases hOk
  | ok out =>
    rw [hOut] at hOk
    obtain ⟨run, lowered, hRun, hHlsl, hIds⟩ :=
      transpile_injects groupedShader "S" .unspecified out hOut (Option.some.inj hOk)
    rw [hRun, Option.map_some, Option.some.injEq, Prod.mk.injEq, Prod.mk.injEq] at hFacts
    obtain ⟨hThread, hIndex, hGrid⟩ := hFacts
    refine ⟨out, run, lowered, rfl, hHlsl, (hIds .groupThreadIds).2.1 hThread, (hIds .groupIndex).2.1 hIndex,
      fun hParam => ((hIds .gridIds).2.2 hParam).resolve_left ?_⟩
    rw [hGrid]
    exact Bool.false_ne_true

end Shaderlift
