import Shaderlift.Proofs.Accepted.Scoping

/-!
# Switches in accepted shaders

The rules let through the patterns that are put together from constants by `not`, `and` and `or`, in cases without a
condition of their own. Lowering knows constants only: any other pattern is written as the default. So a switch of
the output has as many defaults as the switch of the source has labels that are no constants, which may be several.
-/

namespace Shaderlift

open List

open Legality Lower

/-- A switch of the output stands for one of the source, label by label: a constant is written as what it is lowered
to, and everything else as the default. -/
structure SwitchesLike (program : Program) (labels : List SwitchLabel) (outs : List (Option OutExpr)) : Prop where
  values : List.Forall₂ (fun label out => Option.Rel (Yields program) label.value? out) labels outs
  defaults : outs.countP Option.isNone = labels.countP fun label => label.value?.isNone

/-- A function of the output is written from code whose switches stand for those of a method, one by one. -/
def SwitchesMethod (program : Program) (writes : Bool) (method : MethodDecl) (function : OutFunction) : Prop :=
  ∃ code : FunctionCode, code.Prints writes function ∧
    List.Forall₂ (SwitchesLike program) (MethodBody.switches? method.body) (Code.switchesOfAll code.body)

variable {cfg : Config} {run : LoweringRun} {ending : Ending} {writes : Bool} {src : String × MethodDecl}
  {fn : OutFunction}

theorem Lower.Ending.Labels.rel {label : SwitchLabel} {out : Option OutExpr} (hLabel : ending.Labels label out) :
    Option.Rel (Yields ending.program) label.value? out := by
  unfold Ending.Labels at hLabel
  generalize label.value? = val at hLabel ⊢
  cases hLabel with
  | none => exact .none
  | some hVal => exact .some hVal.yields

theorem switchesLike_of_labels {labels : List SwitchLabel} {outs : List (Option OutExpr)}
    (hLabels : List.Forall₂ ending.Labels labels outs) : SwitchesLike ending.program labels outs := by
  refine ⟨hLabels.imp fun _ _ hLabel => hLabel.rel, ?_⟩
  induction hLabels with
  | nil => rfl
  | @cons label out _ _ hLabel _ ih =>
    have hNone : out.isNone = label.value?.isNone := by
      have hRel := hLabel.rel
      generalize label.value? = val at hRel ⊢
      cases hRel <;> rfl
    rw [countP_cons, countP_cons, ih, hNone]

theorem Lower.StandsFor.switchesMethod (hFn : StandsFor ending writes src fn) :
    SwitchesMethod ending.program writes src.2 fn := by
  obtain ⟨code, -, hPrints, hMethod⟩ := hFn.code
  exact ⟨code, hPrints, hMethod.body.switches.imp fun _ _ => switchesLike_of_labels⟩

/-- The entry point keeps the switches of the entry method, inside its guard if it has one. -/
theorem Lower.StandsFor.switchesEntry (hFn : StandsFor ending writes src fn) (model : ShaderModel)
    (ids : SpecialIds) : SwitchesMethod ending.program writes src.2 (entryPointOf model ids fn) := by
  obtain ⟨code, hGuard, hPrints, hMethod⟩ := hFn.code
  have hBody : (code.entryPointOf model.kind ids).body = code.body := by
    unfold FunctionCode.entryPointOf
    split <;> rfl
  refine ⟨_, code.prints_entryPointOf hGuard hPrints model ids, ?_⟩
  rw [hBody]
  exact hMethod.body.switches.imp fun _ _ => switchesLike_of_labels

/-- In an accepted shader every pattern of a method that is lowered is put together from constants, and no case has a
condition. The output is the print of functions whose switches are those of the methods, label by label: a constant is
a case of what it is lowered to, and every other pattern is one more default. -/
theorem transpile_switches (source name : String) (config : Config) (out : Transpiled)
    (hOk : transpile source name config = .ok out) :
    ∃ run lowered, loweringRun? source name config = some run ∧
      out.hlsl = OutUnit.render run.program out.model lowered out.bindings ∧
      (∀ decl, run.Contributes (.method decl) → decl.all composed = true) ∧
      SwitchesMethod run.program (run.program.kind == .pixel) run.entry lowered.entry ∧
      List.Forall₂ (fun source => SwitchesMethod run.program false source.2) run.functions lowered.helpers := by
  obtain ⟨run, hRun, hAccepted⟩ := accepted_of_ok hOk
  have hPasses := hAccepted.passesShader (visitor_respects_composed run.program)
  obtain ⟨⟨written, hWritten, hEntry⟩, hHelpers, -⟩ := hAccepted.scopes
  refine ⟨run, run.program.loweredOf config run.entry, hRun, hAccepted.hlsl,
    fun _ hContributes => hAccepted.passes_contributing hPasses hContributes, ?_,
    hHelpers.imp fun _ _ hFunction => hFunction.switchesMethod⟩
  rw [hEntry]
  exact hWritten.switchesEntry _ _

/-- A shader with a switch whose first case is for two constants. -/
def eitherShader : String :=
  "struct S : IComputeShader \x7b ReadWriteBuffer<float> b; void Execute() \x7b int x = 1; " ++
    "switch (x) \x7b case 1 or 2: b[0] = 1; break; default: b[0] = 2; break; \x7d \x7d \x7d"

set_option maxRecDepth 100000 in
theorem switches_eitherShader :
    (transpile eitherShader "S" .unspecified).toBool = true ∧
      (loweringRun? eitherShader "S" .unspecified).map (fun run => run.program.kind == .pixel) = some false ∧
      (loweringRun? eitherShader "S" .unspecified).map (fun run => (MethodBody.switches? run.entry.body).map fun labels =>
        (labels.countP fun label => label.value?.isNone, labels.length)) = some [(2, 2)] := by decide +kernel

/-- The only switch of the output has two labels, and both of them are the default. -/
theorem transpile_switches_eitherShader :
    ∃ (out : Transpiled) (run : LoweringRun) (lowered : LoweredUnit) (code : FunctionCode)
      (labels : List (Option OutExpr)),
      transpile eitherShader "S" .unspecified = .ok out ∧
      out.hlsl = OutUnit.render run.program out.model lowered out.bindings ∧
      run.entry.all composed = true ∧ code.Prints false lowered.entry ∧ Code.switchesOfAll code.body = [labels] ∧
      labels.length = 2 ∧ labels.countP Option.isNone = 2 := by
  obtain ⟨hOk, hKind, hCounts⟩ := switches_eitherShader
  obtain ⟨out, hOut⟩ := exists_of_toBool hOk
  obtain ⟨run, lowered, hRun, hHlsl, hComposed, ⟨code, hPrints, hSwitches⟩, -⟩ :=
    transpile_switches eitherShader "S" .unspecified out hOut
  rw [hRun, Option.map_some, Option.some.injEq] at hKind hCounts
  obtain ⟨labels, hOnly, hCount⟩ := map_eq_singleton_iff.mp hCounts
  obtain ⟨hDefaults, hLength⟩ := Prod.mk.inj hCount
  rw [hOnly, forall₂_cons_left_iff] at hSwitches
  obtain ⟨outs, others, hLike, hNone, hCode⟩ := hSwitches
  cases hNone
  rw [hKind] at hPrints
  exact ⟨out, run, lowered, code, outs, hOut, hHlsl, hComposed _ .entry, hPrints, hCode,
    hLike.values.length_eq.symm.trans hLength, hLike.defaults.trans hDefaults⟩

end Shaderlift
