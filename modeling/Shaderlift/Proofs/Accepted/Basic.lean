import Shaderlift.Proofs.Call.Shapes
import Shaderlift.Proofs.Gate

/-!
# Accepted shaders

What is known of a shader for which there is output: it has a run, the rules report no error about it, and
the output is its lowered form in print. The methods that are lowered are the same whichever memo of the run
they are looked for in, and the rules have walked them all.
-/

namespace Shaderlift

open Legality Lower

def Program.loweredOf (program : Program) (config : Config) (entry : MethodDecl) : LoweredUnit :=
  (program.lower (program.modelOf config) .standard entry (program.startOf config).memo).1.1

/-- The calls that finding the needed methods has answered stay answered until the end of the run. -/
theorem Lower.kept_needed (prog : Program) (model : ShaderModel) (entry : MethodDecl)
    (start : Tracked Gathered) :
    let first := method ⟨prog, model, .standard, prog.shader.name, true, none⟩ entryPoint entry start
    (prog.reachableMethods first.2.memo).2.Kept prog (unit prog model .standard entry start).2.memo := by
  intro first
  exact ((matches_afterEntry .standard prog model first.1 _).grown
    { first.2 with memo := (prog.reachableMethods first.2.memo).2 }).memo

/-- Some output is that of a run about which neither the rules nor the model report an error, nor is one reported in
its course. -/
structure Accepted (config : Config) (out : Transpiled) (run : LoweringRun) : Prop where
  seen : run.program.IsSeen
  quiet : Report.hasErrors (run.program.legality .empty).1 = false
  modelQuiet : Report.hasErrors (ShaderModel.build run.program config (run.program.legality .empty).2).1.2 = false
  found : run.program.run? config = some run
  pixelType : ValueType.Proper? run.program.pixelType
  runQuiet : Report.hasErrors run.last.gathered.report = false
  model : out.model = run.program.modelOf config
  bindings : out.bindings = Binding.table out.model
  hlsl : out.hlsl = OutUnit.render run.program out.model (run.program.loweredOf config run.entry) out.bindings
  ids : out.ids = (run.program.loweredOf config run.entry).ids

theorem Program.output_of_ok {prog : Program} {cfg : Config} {start : Report} {out : Transpiled}
    {run : LoweringRun} (hRun : prog.run? cfg = some run) (hOk : prog.transpile .standard cfg start = .ok out) :
    Report.hasErrors run.last.gathered.report = false ∧ out.model = prog.modelOf cfg ∧
      out.bindings = Binding.table out.model ∧
      out.hlsl = OutUnit.render prog out.model (prog.loweredOf cfg run.entry) out.bindings ∧
      out.ids = (prog.loweredOf cfg run.entry).ids := by
  obtain ⟨⟨pos, entry⟩, hEntry, rfl⟩ := Option.map_eq_some_iff.mp hRun
  rw [transpile_eq, hEntry] at hOk
  split at hOk
  · cases hOk
  · unfold finish at hOk
    dsimp only at hOk
    split at hOk
    rename_i lowered found _ hLower
    split at hOk
    · cases hOk
    · rename_i hErrors
      cases hOk
      rw [Bool.not_eq_true, Report.hasErrors_append] at hErrors
      have hReport : (unit prog (prog.modelOf cfg) .standard entry (prog.startOf cfg)).2.gathered.report =
          found := congrArg (fun result => result.1.2) hLower
      refine ⟨(congrArg Report.hasErrors hReport).trans hErrors.2, rfl, rfl, ?_, ?_⟩ <;> rw [loweredOf, hLower]

/-- A shader for which there is output has been accepted. -/
theorem accepted_of_ok {src name : String} {cfg : Config} {out : Transpiled} (hOk : transpile src name cfg = .ok out) :
    ∃ run, loweringRun? src name cfg = some run ∧ Accepted cfg out run := by
  unfold transpile transpileWith at hOk
  unfold loweringRun?
  cases hFound : findShader src name with
  | error => simp [hFound] at hOk
  | ok found =>
    obtain ⟨unit, decl⟩ := found
    cases hBuild : Program.build unit decl with
    | mk built report =>
      cases built with
      | none => simp [hFound, hBuild] at hOk
      | some prog =>
        simp only [hFound, hBuild] at hOk ⊢
        obtain ⟨-, run, hRun⟩ := Program.exists_run_of_ok hOk
        have hProg : run.program = prog := by
          obtain ⟨-, -, rfl⟩ := Option.map_eq_some_iff.mp hRun
          rfl
        subst hProg
        obtain ⟨hQuiet, hModelQuiet⟩ := Program.quiet_of_ok hOk
        obtain ⟨hRunQuiet, hModel, hBindings, hHlsl, hIds⟩ := Program.output_of_ok hRun hOk
        exact ⟨run, hRun, Program.isSeen_of_found hFound hBuild, hQuiet, hModelQuiet, hRun,
          Program.proper_pixelType hBuild, hRunQuiet, hModel, hBindings, hHlsl, hIds⟩

namespace Accepted

variable {cfg : Config} {out : Transpiled} {run : LoweringRun} (hAccepted : Accepted cfg out run)

include hAccepted

theorem walked : run.Walked := Program.walked_of_run hAccepted.seen hAccepted.quiet hAccepted.found

theorem last_eq : run.last = (Lower.unit run.program (run.program.modelOf cfg) .standard run.entry
      (run.program.startOf cfg)).2 := by
  obtain ⟨found, -, hRun⟩ := Option.map_eq_some_iff.mp hAccepted.found
  rw [← congrArg LoweringRun.last hRun, ← congrArg LoweringRun.entry hRun]

theorem exists_entry : ∃ pos, run.program.entry = some (pos, run.entry) := by
  obtain ⟨⟨pos, entry⟩, hEntry, hRun⟩ := Option.map_eq_some_iff.mp hAccepted.found
  refine ⟨pos, hEntry.trans ?_⟩
  rw [← congrArg LoweringRun.entry hRun]

/-- The calls that the rules have met stay answered until the end of the run. -/
theorem kept_legality : (run.program.legality .empty).2.Kept run.program run.last.memo := by
  obtain ⟨hFirst, hLast⟩ := grown_unit run.program (run.program.modelOf cfg) run.entry (run.program.startOf cfg)
  rw [hAccepted.last_eq]
  exact (run.program.kept_startOf cfg).trans (hFirst.trans hLast).memo

/-- The methods that are written after the entry point are those that are needed at the end of the run. -/
theorem needed_eq : (run.program.reachableMethods (method ⟨run.program, run.program.modelOf cfg, .standard,
      run.program.shader.name, true, none⟩ entryPoint run.entry (run.program.startOf cfg)).2.memo).1 =
        (run.program.reachableMethods run.last.memo).1 := by
  have hKept := kept_needed run.program (run.program.modelOf cfg) run.entry (run.program.startOf cfg)
  rw [← hAccepted.last_eq] at hKept
  rw [run.program.stable_reachableMethods.replay _ _ hKept]

end Accepted

end Shaderlift
