import Shaderlift.Analysis.Legality
import Shaderlift.Lowering.Unit
import Shaderlift.Model.Binding
import Shaderlift.Model.Build

/-!
All stages on one program, one after the other, whatever rules the program breaks.
-/

namespace Shaderlift

/-- What each stage gives for a program. Without an entry point nothing is lowered. -/
structure Stages where
  reachable : List MethodKey
  legality : Report
  model : ShaderModel
  modelReport : Report
  bindings : List Binding
  lowered : Option (LoweredUnit × Report)

/-- Run every stage on a program once. The calls that one stage has resolved are known to the next. -/
def Program.stages (program : Program) (config : Config) : Stages :=
  let (reachable, memo) := program.reachableMethods .empty
  let (legality, memo) := program.legality memo
  let ((model, modelReport), memo) := ShaderModel.build program config memo
  let lowered := program.entry.map fun (_, entry) => (program.lower model .standard entry memo).1
  ⟨reachable, legality, model, modelReport, Binding.table model, lowered⟩

end Shaderlift
