import Shaderlift.Proofs.Accepted.ControlFlow
import Shaderlift.Proofs.Analysis.Reach
import Shaderlift.Proofs.Lowering.FollowingUnit

/-!
# The calls of accepted shaders

Three passes meet the calls of an accepted shader: the rules, the search for the methods that it needs, and
lowering. The first two always give the same answers. Lowering agrees with them on every call that mentions no
name in doubt, except that it also meets the calls of values that it pulls in, which the others do not look for
there. The methods that are called have been found by the search, so they are among the functions of the output.
-/

namespace Shaderlift

open List

open Legality Lower

namespace LoweringRun

variable (run : LoweringRun)

def needed : List MethodKey := (run.program.reachableMethods run.last.memo).1

/-- The methods whose bodies are lowered, with the types that they are methods of. -/
inductive Lowers : String → MethodDecl → Prop
  | entry : Lowers run.program.shader.name run.entry
  | helper {key : MethodKey} {method : MethodDecl} :
      key ∈ run.needed → run.program.method? key = some method → Lowers key.owner method

/-- The calls that are collected from a method in the search for the methods that are needed, the latest
first. -/
def collected (owner : String) (method : MethodDecl) : List MetCall :=
  run.program.collected owner method run.last.memo

/-- The calls that the rules meet, the latest first. -/
def checked : List MetCall := (checkAll run.program (.start .empty ⟨"", false, []⟩)).2.met

/-- List the calls of the lowered methods that mention a name in doubt. -/
def doubtful : List Expr :=
  run.entry.doubtful run.program [] ++ run.needed.flatMap fun key =>
    ((run.program.method? key).map fun method => method.doubtful run.program []).getD []

variable {run}

theorem mem_doubtful {owner : String} {method : MethodDecl} (hLowers : run.Lowers owner method) {call : Expr}
    (hCall : call ∈ method.doubtful run.program []) : call ∈ run.doubtful := by
  cases hLowers with
  | entry => exact mem_append_left _ hCall
  | @helper key method hKey hMethod =>
    refine mem_append_right _ (mem_flatMap.mpr ⟨key, hKey, ?_⟩)
    rw [hMethod]
    exact hCall

end LoweringRun

namespace Accepted

variable {cfg : Config} {out : Transpiled} {run : LoweringRun} (hAccepted : Accepted cfg out run)

include hAccepted

/-- The rules have walked the entry point. -/
theorem checked_entry : ∃ inEntry,
    Checked run.program run.program.shader.name run.last.memo run.checked inEntry run.entry := by
  obtain ⟨hMembers, -⟩ := checked_all (.start .empty ⟨"", false, []⟩) rfl
    (quiet_checkAll run.program hAccepted.quiet) hAccepted.kept_legality
  obtain ⟨index, hIdx⟩ := mem_iff_getElem?.mp hAccepted.walked.entry
  exact ⟨_, hMembers index run.entry hIdx⟩

variable {method : MethodDecl} {owner : String}

/-- The rules have walked the methods of the shader and those that are needed, only one as the entry point. -/
theorem checked_method {key : MethodKey} (hMethod : run.program.method? key = some method)
    (hEntry : run.program.isEntry key = false) (hKey : key.owner = run.program.shader.name ∨ key ∈ run.needed) :
    Checked run.program key.owner run.last.memo run.checked false method := by
  obtain ⟨hMembers, hNeeded⟩ := checked_all (.start .empty ⟨"", false, []⟩) rfl
    (quiet_checkAll run.program hAccepted.quiet) hAccepted.kept_legality
  by_cases hOwner : key.owner = run.program.shader.name
  · have hIdx := hAccepted.seen.getElem?_methods hOwner hMethod
    rw [hOwner, ← Program.fst_entry_ne hEntry hOwner hMethod]
    exact hMembers key.index method hIdx
  · exact hNeeded key (hKey.resolve_left hOwner) hOwner method hMethod

theorem checksAll_needed : ChecksAll run.program run.last.memo run.checked run.needed :=
  fun _ hKey _ hMethod =>
    hAccepted.checked_method hMethod (Program.isEntry_eq_false_of_reachable hKey) (.inr hKey)

/-- The rules have walked every method that is lowered. -/
theorem checked_of_lowers (hLowers : run.Lowers owner method) :
    ∃ inEntry, Checked run.program owner run.last.memo run.checked inEntry method := by
  cases hLowers with
  | entry => exact hAccepted.checked_entry
  | helper hKey hMethod => exact ⟨false, hAccepted.checksAll_needed _ hKey _ hMethod⟩

/-- The calls that are collected from a method are those that the rules meet in it, in the same order and with
the same answers. -/
theorem collected_infix_checked (hLowers : run.Lowers owner method) : run.collected owner method <:+: run.checked := by
  obtain ⟨inEntry, rules, hScope, hQuiet, hKept, before, hMet⟩ := hAccepted.checked_of_lowers hLowers
  obtain ⟨-, -, found, hCollected, hFound⟩ :=
    (agrees_checkMethod run.program owner run.last.memo inEntry method).same (.start run.last.memo ()) rules rfl
      hScope.symm hQuiet hKept
  have hAll : run.collected owner method = found ++ [] := hCollected
  refine ⟨before, rules.met, ?_⟩
  rw [hAll, append_nil, append_assoc, ← hFound, hMet]

/-- Every answer at the end of the run is what its call means. -/
theorem meant_last : run.last.memo.Meant run.program := by
  have hRules : CallMemo.empty.Kept run.program (run.program.legality .empty).2 :=
    kept_checkAll run.program (.start .empty ⟨"", false, []⟩)
  have hEmpty : CallMemo.empty.Meant run.program := fun _ _ hLookup => by cases hLookup
  exact hEmpty.of_kept (hRules.trans hAccepted.kept_legality)

/-- Lowering meets calls that are collected, calls in doubt, and calls of values that are pulled in. -/
theorem met_last {met : MetCall} (hMet : met ∈ run.last.met) :
    (∃ owner method, run.Lowers owner method ∧ met ∈ run.collected owner method) ∨ met.call ∈ run.doubtful ∨
      PullsCall run.program met.call := by
  have hExpected : ∀ owner method, run.Lowers owner method →
      ExpectedIn run.program run.last.memo owner method met →
        (∃ owner method, run.Lowers owner method ∧ met ∈ run.collected owner method) ∨ met.call ∈ run.doubtful :=
    fun owner method hLowers hIn =>
      hIn.imp (fun hMem => ⟨owner, method, hLowers, hMem⟩) fun hMem => run.mem_doubtful hLowers hMem
  have hLast := hAccepted.last_eq
  have hKept : (Lower.unit run.program (run.program.modelOf cfg) .standard run.entry
      (run.program.startOf cfg)).2.memo.Kept run.program run.last.memo := by
    rw [← hLast]
    exact .refl run.last.memo
  rw [hLast] at hMet
  refine or_assoc.mp ?_
  obtain ⟨_, hEntry⟩ := hAccepted.checked_entry
  rcases met_unit hAccepted.meant_last hEntry hAccepted.needed_eq hAccepted.checksAll_needed hKept met hMet
    with hEntry | ⟨key, hKey, method, hMethod, hHelper⟩ | hPulled
  · exact .inl (hExpected _ _ .entry hEntry)
  · exact .inl (hExpected _ _ (.helper hKey hMethod) hHelper)
  · exact .inr hPulled

/-- The methods that are needed exist, and what lowered methods call is the entry point or one of them. -/
theorem needed_closed : (∀ key ∈ run.needed, (run.program.method? key).isSome = true) ∧
      ∀ owner method, run.Lowers owner method → ∀ met ∈ run.collected owner method, ∀ key,
        met.callee = .source key → run.program.isEntry key = true ∨ key ∈ run.needed := by
  obtain ⟨pos, hEntry⟩ := hAccepted.exists_entry
  obtain ⟨hDeclared, hFirst, hNeeded⟩ := Program.legality_closed hAccepted.seen hEntry hAccepted.kept_legality rfl
  refine ⟨fun key hKey => (hDeclared key hKey).found, fun owner method hLowers met hMet key hSource => ?_⟩
  have hCalled : key ∈ (run.program.callsOf owner method run.last.memo).1 := by
    refine mem_filterMap.mpr ⟨met, mem_reverse.mpr hMet, ?_⟩
    unfold MetCall.key?
    rw [hSource]
  cases hLowers with
  | entry => exact hFirst key hCalled
  | helper hKey hMethod => exact hNeeded _ hKey _ hMethod key hCalled

end Accepted

/-- A method of the source is among the functions of a lowered shader, under its name in the output and with
its control flow. -/
def LoweredUnit.Emits (lowered : LoweredUnit) (program : Program) (key : MethodKey) : Prop :=
  ∃ method function, program.method? key = some method ∧ function ∈ lowered.helpers ∧
    MirrorsMethod false (methodName program key, method) function

theorem exists_of_forall₂ {α β : Type} {R : α → β → Prop} {first : List α} {second : List β}
    (hAll : List.Forall₂ R first second) {a : α} (hMem : a ∈ first) : ∃ b ∈ second, R a b := by
  induction hAll with
  | nil => cases hMem
  | cons hHead _ ih =>
    rcases mem_cons.mp hMem with rfl | hTail
    · exact ⟨_, mem_cons_self, hHead⟩
    · obtain ⟨b, hB, hRel⟩ := ih hTail
      exact ⟨b, mem_cons_of_mem _ hB, hRel⟩

theorem Accepted.emits_of_needed {cfg : Config} {out : Transpiled} {run : LoweringRun}
    (hAccepted : Accepted cfg out run) {key : MethodKey} (hKey : key ∈ run.needed) :
    (run.program.loweredOf cfg run.entry).Emits run.program key := by
  obtain ⟨method, hMethod⟩ := Option.isSome_iff_exists.mp (hAccepted.needed_closed.1 key hKey)
  have hMem : (methodName run.program key, method) ∈ run.functions := by
    refine mem_append_right _ (mem_flatMap.mpr ⟨key, hKey, ?_⟩)
    unfold liftedMethod
    rw [hMethod]
    exact mem_append_right _ (mem_singleton_self _)
  obtain ⟨fn, hFn, hMirrors⟩ := exists_of_forall₂ hAccepted.mirrors.2 hMem
  exact ⟨method, fn, hMethod, hFn, hMirrors⟩

/-- A shader in which a local variable hides a field of another type, so that the same call means two methods. -/
def shadowingShader : String :=
  "struct S : IComputeShader \x7b ReadWriteBuffer<int> b; float a; static int F(float x) => 1; " ++
    "static int F(int x) => x; void Execute() \x7b \x7b int a = 1; b[0] = F(a); \x7d b[1] = F(a); \x7d \x7d"

set_option maxRecDepth 100000 in
theorem callees_shadowingShader :
    (transpile shadowingShader "S" .unspecified).toBool = true ∧
      (loweringRun? shadowingShader "S" .unspecified).map
        (fun run => (run.doubtful.length, run.last.met.map MetCall.callee)) =
      some (0, [.source ⟨"S", "F", 0⟩, .source ⟨"S", "F", 1⟩]) := by decide +kernel

/-- The search for needed methods and the rules give the same answers to all calls of an accepted shader, in the
same order. Lowering gives these answers as well to all calls that it meets, except for those that mention a name
in doubt and those in values that it pulls in. -/
theorem transpile_passes_agree (source name : String) (config : Config) (out : Transpiled)
    (hOk : transpile source name config = .ok out) :
    ∃ run, loweringRun? source name config = some run ∧
      (∀ owner method, run.Lowers owner method → run.collected owner method <:+: run.checked) ∧
      ∀ met ∈ run.last.met, (∃ owner method, run.Lowers owner method ∧ met ∈ run.collected owner method) ∨
        met.call ∈ run.doubtful ∨ PullsCall run.program met.call := by
  obtain ⟨run, hRun, hAccepted⟩ := accepted_of_ok hOk
  exact ⟨run, hRun, fun _ _ hLowers => hAccepted.collected_infix_checked hLowers, fun _ hMet => hAccepted.met_last hMet⟩

/-- Outside the block the call takes the field, inside it takes the variable, in all passes. -/
theorem transpile_passes_agree_shadowingShader :
    ∃ (out : Transpiled) (run : LoweringRun), transpile shadowingShader "S" .unspecified = .ok out ∧
      run.last.met.map MetCall.callee = [.source ⟨"S", "F", 0⟩, .source ⟨"S", "F", 1⟩] ∧
      (∀ owner method, run.Lowers owner method → run.collected owner method <:+: run.checked) ∧
      ∀ met ∈ run.last.met, (∃ owner method, run.Lowers owner method ∧ met ∈ run.collected owner method) ∨
        PullsCall run.program met.call := by
  obtain ⟨hOk, hFacts⟩ := callees_shadowingShader
  obtain ⟨out, hOut⟩ := exists_of_toBool hOk
  obtain ⟨run, hRun, hRules, hMet⟩ := transpile_passes_agree shadowingShader "S" .unspecified out hOut
  rw [hRun, Option.map_some, Option.some.injEq, Prod.mk.injEq] at hFacts
  refine ⟨out, run, hOut, hFacts.2, hRules, fun met hMem => (hMet met hMem).imp_right ?_⟩
  rintro (hDoubtful | hPulled)
  · exact absurd hDoubtful (eq_nil_of_length_eq_zero hFacts.1 ▸ not_mem_nil)
  · exact hPulled

/-- Every method of the source that is called in the lowered methods of an accepted shader is the entry point or
among the functions of the output, as far as the search for needed methods tells. This holds as well of all calls
that lowering meets, except for those that mention a name in doubt and those in values that it pulls in. -/
theorem transpile_calls_closed (source name : String) (config : Config) (out : Transpiled)
    (hOk : transpile source name config = .ok out) :
    ∃ run lowered, loweringRun? source name config = some run ∧
      out.hlsl = OutUnit.render run.program out.model lowered out.bindings ∧
      (∀ owner method, run.Lowers owner method → ∀ met ∈ run.collected owner method, ∀ key,
        met.callee = .source key → run.program.isEntry key = true ∨ lowered.Emits run.program key) ∧
      ∀ met ∈ run.last.met, ∀ key, met.callee = .source key →
        (run.program.isEntry key = true ∨ lowered.Emits run.program key) ∨
          met.call ∈ run.doubtful ∨ PullsCall run.program met.call := by
  obtain ⟨run, hRun, hAccepted⟩ := accepted_of_ok hOk
  have hCollected : ∀ owner method, run.Lowers owner method → ∀ met ∈ run.collected owner method, ∀ key,
      met.callee = .source key → run.program.isEntry key = true ∨
        (run.program.loweredOf config run.entry).Emits run.program key :=
    fun owner method hLowers met hMet key hSource =>
      (hAccepted.needed_closed.2 owner method hLowers met hMet key hSource).imp_right hAccepted.emits_of_needed
  refine ⟨run, run.program.loweredOf config run.entry, hRun, hAccepted.hlsl, hCollected, ?_⟩
  intro met hMet key hSource
  exact (hAccepted.met_last hMet).imp_left fun ⟨owner, method, hLowers, hMem⟩ =>
    hCollected owner method hLowers met hMem key hSource

/-- Both methods that the call means are written. -/
theorem transpile_calls_closed_shadowingShader :
    ∃ (out : Transpiled) (run : LoweringRun) (lowered : LoweredUnit),
      transpile shadowingShader "S" .unspecified = .ok out ∧
      out.hlsl = OutUnit.render run.program out.model lowered out.bindings ∧
      ∀ key ∈ [⟨"S", "F", 0⟩, ⟨"S", "F", 1⟩], ∃ met ∈ run.last.met, met.callee = .source key ∧
        ((run.program.isEntry key = true ∨ lowered.Emits run.program key) ∨ PullsCall run.program met.call) := by
  obtain ⟨hOk, hFacts⟩ := callees_shadowingShader
  obtain ⟨out, hOut⟩ := exists_of_toBool hOk
  obtain ⟨run, lowered, hRun, hHlsl, -, hMet⟩ := transpile_calls_closed shadowingShader "S" .unspecified out hOut
  rw [hRun, Option.map_some, Option.some.injEq, Prod.mk.injEq] at hFacts
  refine ⟨out, run, lowered, hOut, hHlsl, fun key hKey => ?_⟩
  have hCallee : Callee.source key ∈ run.last.met.map MetCall.callee := by
    rw [hFacts.2]
    simpa using hKey
  obtain ⟨met, hMem, hSource⟩ := mem_map.mp hCallee
  refine ⟨met, hMem, hSource, (hMet met hMem key hSource).imp_right ?_⟩
  rintro (hDoubtful | hPulled)
  · exact absurd hDoubtful (eq_nil_of_length_eq_zero hFacts.1 ▸ not_mem_nil)
  · exact hPulled

end Shaderlift
