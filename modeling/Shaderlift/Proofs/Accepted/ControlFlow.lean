import Shaderlift.Proofs.Accepted.Accounts

/-!
# The control flow of accepted shaders

The output of an accepted shader is printed from functions that mirror its methods, with one guard around the
body of a dispatched entry point and nothing else.
-/

namespace Shaderlift

open Lower

/-- The body of an entry point of a kind: a dispatched shader keeps threads inside the dispatch. -/
def ShaderKind.guarded (kind : ShaderKind) (body : List OutStmt) : List OutStmt :=
  if kind.isDispatched then [.ifElse (guardText kind) (.block body) none] else body

theorem Lower.body_entryPointOf (model : ShaderModel) (ids : SpecialIds) (entry : OutFunction) :
    (entryPointOf model ids entry).body = model.kind.guarded entry.body := by
  unfold entryPointOf ShaderKind.guarded
  split <;> rfl

/-- The lowered form of an accepted shader keeps the control flow of its methods. -/
theorem Accepted.mirrors {cfg : Config} {out : Transpiled} {run : LoweringRun}
    (hAccepted : Accepted cfg out run) :
    let lowered := run.program.loweredOf cfg run.entry
    (∃ body, MirrorsBody (run.program.kind == .pixel) run.entry body ∧
      lowered.entry.body = run.program.kind.guarded body) ∧
    List.Forall₂ (MirrorsMethod false) run.functions lowered.helpers := by
  obtain ⟨⟨written, hWritten, hEntry⟩, hHelpers, -⟩ := hAccepted.scopes
  refine ⟨⟨written.body, hWritten.mirrorsMethod.body, ?_⟩, hHelpers.imp fun _ _ hFn => hFn.mirrorsMethod⟩
  rw [hEntry]
  exact body_entryPointOf (run.program.modelOf cfg) _ _

/-- The output of an accepted shader is the print of functions that keep the control flow of its methods. The
entry point keeps that of its method inside one guard if the shader is dispatched, and writes the values that
the method returns if it colours pixels; every other function keeps that of one of the other methods, and there
is one for each of them, in order. -/
theorem transpile_mirrors (source name : String) (config : Config) (out : Transpiled)
    (hOk : transpile source name config = .ok out) :
    ∃ run lowered, loweringRun? source name config = some run ∧
      out.hlsl = OutUnit.render run.program out.model lowered out.bindings ∧
      (∃ body, MirrorsBody (run.program.kind == .pixel) run.entry body ∧
        lowered.entry.body = run.program.kind.guarded body) ∧
      List.Forall₂ (MirrorsMethod false) run.functions lowered.helpers := by
  obtain ⟨run, hRun, hAccepted⟩ := accepted_of_ok hOk
  exact ⟨run, run.program.loweredOf config run.entry, hRun, hAccepted.hlsl, hAccepted.mirrors⟩

/-- A shader that returns from inside loops, branches and sections, with a local function and a method. -/
def branchingShader : String :=
  "struct S : IComputeShader<float4> \x7b float t; static float F(float x) => x * 2; " ++
    "float4 Execute() \x7b float G(float y) \x7b while (y > 1) \x7b y = F(y); if (y > 9) break; else continue; \x7d " ++
    "return y; \x7d switch ((int)t) \x7b case 1: return t; default: break; \x7d " ++
    "if (G(t) > 1) \x7b return t; \x7d return 0; \x7d \x7d"

set_option maxRecDepth 100000 in
theorem functions_branchingShader :
    (transpile branchingShader "S" .unspecified).toBool = true ∧
      (loweringRun? branchingShader "S" .unspecified).map
        (fun run => (run.program.kind == .pixel, run.functions.map Prod.fst)) =
      some (true, ["G", "F"]) := by decide +kernel

/-- The returned values are written in the entry point, and neither the local function nor the method writes
one. -/
theorem transpile_mirrors_branchingShader :
    ∃ (out : Transpiled) (run : LoweringRun) (lowered : LoweredUnit), transpile branchingShader "S" .unspecified = .ok out ∧
      out.hlsl = OutUnit.render run.program out.model lowered out.bindings ∧
      (∃ body, MirrorsBody true run.entry body ∧ lowered.entry.body = run.program.kind.guarded body) ∧
      ∃ first second, run.functions = [("G", first), ("F", second)] ∧
        ∃ outG outF, lowered.helpers = [outG, outF] ∧ MirrorsBody false first outG.body ∧
          MirrorsBody false second outF.body := by
  obtain ⟨hOk, hShape⟩ := functions_branchingShader
  obtain ⟨out, hOut⟩ := exists_of_toBool hOk
  obtain ⟨run, lowered, hRun, hHlsl, hEntry, hHelpers⟩ :=
    transpile_mirrors branchingShader "S" .unspecified out hOut
  rw [hRun, Option.map_some, Option.some.injEq, Prod.mk.injEq] at hShape
  obtain ⟨hKind, hNames⟩ := hShape
  rw [hKind] at hEntry
  refine ⟨out, run, lowered, hOut, hHlsl, hEntry, ?_⟩
  match hFunctions : run.functions, hNames with
  | [(_, first), (_, second)], hNames =>
    cases hNames
    rw [hFunctions, List.forall₂_cons_left_iff] at hHelpers
    obtain ⟨outG, others, hG, hOthers, hHelpers⟩ := hHelpers
    obtain ⟨outF, rest, hF, hRest, rfl⟩ := List.forall₂_cons_left_iff.mp hOthers
    cases hRest
    exact ⟨first, second, rfl, outG, outF, hHelpers, hG.body, hF.body⟩

end Shaderlift
