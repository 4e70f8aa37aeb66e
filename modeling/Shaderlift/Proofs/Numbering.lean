import Shaderlift.Proofs.Analysis.Findings
import Shaderlift.Proofs.Gate
import Shaderlift.Proofs.Lowering.Actions
import Shaderlift.Proofs.Model.Indices

/-!
# The numbering of an image effect is checked

What is reported about a shader comes from its type, from the rules on constructs, from its model and from
lowering. Only the model has something to say about the numbering of inputs and textures, so that the checks on
indices decide, for any source text, whether an image effect is well numbered.
-/

namespace Shaderlift

open List

open Report

theorem Report.sparesIndices_sorted {report : Report} : SparesIndices report.sorted ↔ SparesIndices report := by
  refine forall_congr' fun diagnostic => imp_congr ?_ Iff.rfl
  rw [sorted, mem_dropRepeats, mem_mergeSort]

/-! ## Lowering -/

namespace Lower

/-- An action reports nothing about the numbering of inputs and textures. -/
def Spares {α : Type} (action : Lower α) : Prop :=
  ∀ state, SparesIndices state.gathered.report → SparesIndices (action state).2.gathered.report

theorem simple_spares : Simple Spares where
  pure _ _ hSt := hSt
  bind hFirst hNext st hSt := hNext _ _ (hFirst st hSt)
  get _ hSt := hSt
  recalling _ _ _ _ hSt := hSt
  note hNotes st hSt := by
    have hReport := (hNotes st.gathered).2
    exact hReport.symm ▸ hSt
  meet _ _ _ _ _ _ hSt := hSt
  within change _ hAction st hSt := hAction { st with scope := change st.scope } hSt

theorem spares_reportUntyped (declarators : List Declarator) : Spares (reportUntyped declarators) := by
  intro st hSt
  exact sparesIndices_append.mpr ⟨hSt, forall_mem_map.mpr fun _ _ => rfl⟩

/-- Lowering reports names without a type only. -/
theorem whole_spares (prog : Program) (owner : String) : Whole prog owner .standard .any (First Spares) where
  toNoting := simple_spares.noting
  plain _ _ := simple_spares.plain _ _ (fun _ _ _ hSt => hSt) spares_reportUntyped
  lift _ _ hSt := hSt
  blank _ _ _ := simple_spares.pure _

end Lower

namespace Program

theorem sparesIndices_lower (prog : Program) (model : ShaderModel) (blank : Blank) (entry : MethodDecl)
    (memo : CallMemo) : SparesIndices (prog.lower model blank entry memo).1.2 :=
  Lower.Whole.unit (Lower.whole_spares prog) model blank entry (.start memo .empty) sparesIndices_nil

/-! ## Whole reports -/

theorem sparesIndices_start {unit : SourceUnit} {decl : TypeDecl} {prog : Program} {start : Report}
    (hBuild : Program.build unit decl = (some prog, start)) : SparesIndices start := by
  unfold Program.build at hBuild
  dsimp only at hBuild
  split at hBuild
  · cases hBuild
  · cases hBuild
    split
    · exact sparesIndices_nil
    · exact forall_mem_singleton.mpr rfl

end Program

def reported : Except TranspileError Transpiled → Report
  | .ok out => out.report
  | .error (.rejected report) => report
  | .error _ => []

namespace Program

variable (prog : Program) (cfg : Config) {start : Report}

theorem sparesIndices_reportOf (hStart : SparesIndices start) : SparesIndices (prog.reportOf cfg start) ↔
      SparesIndices (ShaderModel.build prog cfg (prog.legality .empty).2).1.2 := by
  rw [reportOf, sparesIndices_sorted, sparesIndices_append, sparesIndices_append]
  exact and_iff_right ⟨hStart, prog.sparesIndices_legality .empty⟩

/-- Whether a shader is rejected or not, what is said about its numbering is what its model gives rise to. -/
theorem sparesIndices_transpile (hStart : SparesIndices start) :
    SparesIndices (reported (prog.transpile .standard cfg start)) ↔
      SparesIndices (ShaderModel.build prog cfg (prog.legality .empty).2).1.2 := by
  rw [← prog.sparesIndices_reportOf cfg hStart, transpile_eq]
  split
  · exact Iff.rfl
  · split
    · rename_i entry hEntry
      have hLower := prog.sparesIndices_lower (prog.modelOf cfg) .standard entry (prog.startOf cfg).memo
      unfold finish
      dsimp only
      split
      rename_i hLowered
      rw [hLowered] at hLower
      split
      · exact sparesIndices_sorted.trans (sparesIndices_append.trans (and_iff_left hLower))
      · exact sparesIndices_append.trans (and_iff_left hLower)
    · exact Iff.rfl

end Program

/-- The checks on indices decide whether an image effect is well numbered: for any source text and any
configuration, something is reported about the numbering of inputs and textures exactly when it is not. -/
theorem transpile_sparesIndices_iff (source name : String) (config : Config) {unit : SourceUnit} {decl : TypeDecl}
    {program : Program} {start : Report} (hFound : findShader source name = .ok (unit, decl))
    (hBuild : Program.build unit decl = (some program, start)) (hKind : program.kind = .effect)
    (hNames : program.declaredNames.Nodup) :
    SparesIndices (reported (transpile source name config)) ↔ program.WellNumbered config := by
  have hSeen := Program.isSeen_of_found hFound hBuild
  have hTranspile : transpile source name config = program.transpile .standard config start := by
    rw [transpile, transpileWith, hFound]
    dsimp only
    rw [hBuild]
  have hEffect : program.kind.isEffect = true := by rw [hKind]; rfl
  rw [hTranspile, program.sparesIndices_transpile config (Program.sparesIndices_start hBuild)]
  exact ShaderModel.sparesIndices_build_iff config hEffect hSeen.shader hNames _

/-! ## An image effect with two textures -/

/-- An image effect with two textures and a value. -/
def grainShader : String :=
  "struct S : ID2D1PixelShader \x7b D2D1ResourceTexture2D<float4> wood; D2D1ResourceTexture1D<float> grain; " ++
    "float gain; float4 Execute() \x7b return gain; \x7d \x7d"

/-- The first and the last index that the textures of an effect with two inputs can have. -/
def grainConfig : Config :=
  { Config.unspecified with
    inputCount := some 2
    simpleInputs := [1]
    complexInputs := [0]
    resourceTextures := (NameTable.empty.insert "wood" 2).insert "grain" 15 }

set_option maxRecDepth 100000 in
theorem names_grainShader :
    ((findShader grainShader "S").toOption.bind fun (unit, decl) => (Program.build unit decl).1).any
      (fun prog => prog.kind == .effect && prog.declaredNames == ["wood", "grain", "gain"] &&
        prog.textureNames == ["wood", "grain"] && prog.declaredTextures == ["wood", "grain"]) = true := by
  decide +kernel

/-- The effect is well numbered, so nothing is reported about its numbering. -/
theorem transpile_sparesIndices_iff_grainShader :
    ∃ unit decl program start, findShader grainShader "S" = .ok (unit, decl) ∧
      Program.build unit decl = (some program, start) ∧ program.kind = .effect ∧ program.declaredNames.Nodup ∧
      program.WellNumbered grainConfig ∧ SparesIndices (reported (transpile grainShader "S" grainConfig)) := by
  have hNames := names_grainShader
  cases hFound : findShader grainShader "S" with
  | error => simp [hFound, Except.toOption] at hNames
  | ok found =>
    obtain ⟨unit, decl⟩ := found
    cases hBuild : Program.build unit decl with
    | mk built start =>
      cases built with
      | none => simp [hFound, hBuild, Except.toOption] at hNames
      | some program =>
        simp only [hFound, hBuild, Except.toOption, Option.bind_some, Option.any_some, Bool.and_eq_true,
          beq_iff_eq] at hNames
        obtain ⟨⟨⟨hKind, hDeclared⟩, hTextures⟩, hTyped⟩ := hNames
        have hNodup : program.declaredNames.Nodup := by rw [hDeclared]; decide
        have hNumbered : program.WellNumbered grainConfig := by
          refine ⟨2, rfl, by decide, ⟨by decide, by decide, ?_, ?_, by decide, by decide⟩, ⟨?_, ?_, ?_⟩⟩
          · simp [grainConfig]
          · simp [grainConfig]
          · rw [hTextures]
            refine forall_mem_cons.mpr ⟨⟨2, by decide⟩, ?_⟩
            exact forall_mem_singleton.mpr ⟨15, by decide⟩
          · rw [hTextures]
            decide
          · rw [hTyped]
            decide
        exact ⟨unit, decl, program, start, rfl, hBuild, hKind, hNodup, hNumbered,
          (transpile_sparesIndices_iff grainShader "S" grainConfig hFound hBuild hKind hNodup).mpr hNumbered⟩

end Shaderlift
