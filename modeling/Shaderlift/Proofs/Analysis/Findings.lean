import Shaderlift.Proofs.Analysis.Checks

/-!
# What the rules on constructs report

The rules on constructs say nothing about the numbering of inputs and textures: no rule on a single node does,
and a walk only adds up what the rules on its nodes report.
-/

namespace Shaderlift

open List

namespace Legality

open Track Report

/-- An action adds nothing about the numbering of inputs and textures to what has been found. -/
def Spares {α : Type} (action : Check α) : Prop :=
  ∀ state, SparesIndices state.gathered.found → SparesIndices (action state).2.gathered.found

namespace Spares

variable {α β : Type}

theorem of_found_eq {action : Check α}
    (hFound : ∀ st, (action st).2.gathered.found = st.gathered.found) : Spares action :=
  fun st hSt => (hFound st).symm ▸ hSt

theorem bind {first : Check α} {next : α → Check β} (hFirst : Spares first) (hNext : ∀ val, Spares (next val)) :
    Spares (first >>= next) :=
  fun st hSt => hNext _ _ (hFirst st hSt)

theorem within {action : Check α} (change : Scope → Scope) (hAction : Spares action) :
    Spares (Track.within change action) :=
  fun st hSt => hAction { st with scope := change st.scope } hSt

end Spares

section Rules

variable (prog : Program) (owner : String)

theorem walks_spares : Walks prog owner Spares where
  pure _ := .of_found_eq fun _ => rfl
  bind := .bind
  get := .of_found_eq fun _ => rfl
  report hRule _ _ _ hSt := forall_mem_cons.mpr ⟨hRule, hSt⟩
  infer _ := .of_found_eq fun _ => rfl
  call call callee args := by
    refine .bind (.of_found_eq fun _ => rfl) fun found => ?_
    cases found with
    | unknown | ambiguous => exact fun _ hSt => forall_mem_cons.mpr ⟨rfl, hSt⟩
    | _ => exact .of_found_eq fun _ => rfl
  note hFound := .of_found_eq fun st => hFound st.gathered
  within change _ hWalk := hWalk.within change
  declare type list := .of_found_eq fun st => congrArg Findings.found (gathered_declareAll prog owner type list st)

theorem spares_checkHelpers (keys : List MethodKey) : Spares (checkHelpers prog keys) :=
  @Sweeps.checkHelpers prog NodeTest.any (fun action _ => Spares action) (walks_spares prog _).sweeps (fun _ => True)
    (fun owner => (walks_spares prog owner).checkMethod false) keys

theorem spares_checkAll : Spares (checkAll prog) := by
  have hRest : Spares (do
      checkMembers prog 0 prog.shader.members
      let helpers ← recalling prog prog.shader.name fun _ => prog.reachableMethods
      checkHelpers prog helpers) :=
    .bind ((walks_spares prog _).checkMembers 0 _) fun _ => .bind (.of_found_eq fun _ => rfl) fun _ =>
      spares_checkHelpers prog _
  unfold checkAll
  dsimp only
  split
  · exact .bind ((walks_spares prog "").report rfl _ _) fun _ => hRest
  · exact hRest

end Rules

end Legality

/-- The rules on constructs say nothing about the numbering of inputs and textures. -/
theorem Program.sparesIndices_legality (prog : Program) (memo : CallMemo) :
    Report.SparesIndices (prog.legality memo).1 :=
  fun _ hDiagnostic => Legality.spares_checkAll prog (.start memo ⟨"", false, []⟩) Report.sparesIndices_nil _
    (mem_reverse.mp hDiagnostic)

end Shaderlift
