import Shaderlift.Proofs.Analysis.Agreement
import Shaderlift.Proofs.Call.Alike
import Shaderlift.Proofs.Lowering.BlankUnit
import Shaderlift.Proofs.Lowering.Closed

/-!
# The calls that lowering meets

Writing an expression meets the calls that stand in it, each with the answer that it has at the end of the run as
seen from there, and the calls of values that are pulled in: default values of parameters and initial values of
static fields. `Meets` says so of every action that writing an expression is made of.
-/

namespace Shaderlift

open List

/-! ## Calls of an expression -/

def callLister : Visitor (List Expr) :=
  { expr := fun expr walk => do
      match expr with
      | .call span callee types args => modify (Expr.call span callee types args :: ·)
      | _ => pure ()
      walk }

def Expr.calls (expr : Expr) : List Expr := (callLister.visitExpr expr []).2

/-- A question of which every listed call is worthy is passed by the whole expression. -/
theorem Expr.all_ofCalls_of_calls {Ok : Expr → Expr → List Argument → Prop} {expr : Expr}
    (hCalls : ∀ span callee types args, Expr.call span callee types args ∈ expr.calls →
      Ok (.call span callee types args) callee args) : expr.all (.ofCalls Ok) = true := by
  -- Listing only adds to the list, so what is asked of the final list has been asked of every call.
  have hList : callLister.RespectsExprs (.ofCalls Ok) fun action claim =>
      ∀ list, list ⊆ (action list).2 ∧
        ((∀ span callee types args, Expr.call span callee types args ∈ (action list).2 →
          Ok (.call span callee types args) callee args) → claim) :=
    { done := fun list => ⟨fun _ hMem => hMem, fun _ => trivial⟩
      seq := fun {first second P Q} hFirst hSecond list => by
        obtain ⟨hGrown, hP⟩ := hFirst list
        obtain ⟨hMore, hQ⟩ := hSecond (first.1 list).2
        exact ⟨List.Subset.trans hGrown hMore, fun hAll =>
          ⟨hP fun _ _ _ _ hMem => hAll _ _ _ _ (hMore hMem), hQ hAll⟩⟩
      weaken := fun hAction hClaim list => ⟨(hAction list).1, fun hAll => hClaim ((hAction list).2 hAll)⟩
      type := fun _ list => ⟨fun _ hMem => hMem, fun _ => trivial⟩
      expr := fun expr {walk P} hWalk list => by
        cases expr with
        | call span callee types args =>
          obtain ⟨hGrown, hP⟩ := hWalk (.call span callee types args :: list)
          refine ⟨fun _ hMem => hGrown (mem_cons_of_mem _ hMem), fun hAll => ⟨?_, hP hAll⟩⟩
          exact NodeTest.ofCalls_call.mpr (hAll span callee types args (hGrown mem_cons_self))
        | _ => exact ⟨(hWalk list).1, fun hAll => ⟨by simp [NodeTest.ofCalls], (hWalk list).2 hAll⟩⟩
      pattern := fun _ _ _ hWalk list => ⟨(hWalk list).1, fun hAll => ⟨rfl, (hWalk list).2 hAll⟩⟩ }
  exact (hList.visitExpr expr []).2 hCalls

namespace Lower

open Track Legality

/-- The values that lowering can pull in: default values of parameters, and initial values of static fields. -/
inductive Pulls (program : Program) : Expr → Prop
  | default {value : Expr} : IsDefault program value → Pulls program value
  | static {owner name : String} {value : Expr} : fieldInit? program owner name = some value → Pulls program value
  | ownStatic {name : String} {value : Expr} : shaderInit? program name = some value → Pulls program value

def PullsCall (program : Program) (call : Expr) : Prop := ∃ value, Pulls program value ∧ call ∈ value.calls

/-- What lowering is compared with: the memo at the end of the run, the calls that the rules had met before the
method, and which calls may be met from then on. Calls of values that are pulled in may. -/
structure Reference (program : Program) where
  last : CallMemo
  meant : last.Meant program
  start : List MetCall
  Good : MetCall → Prop
  pulled : ∀ call callee, PullsCall program call → Good ⟨call, callee⟩

/-! ## Expressions -/

section Expressions

variable {α β : Type}

/-- An action of lowering leaves the scope alone and keeps what is remembered, and from a scope that looks
like a given one, but for some names in doubt, it meets only good calls. -/
structure Meets {program : Program} (ref : Reference program) (scope : Scope) (doubt : List String)
    (action : Lower α) : Prop where
  memo : ∀ state : Tracked Gathered, state.memo.Kept program (action state).2.memo
  stays : ∀ state : Tracked Gathered, (action state).2.scope = state.scope
  met : ∀ state : Tracked Gathered, scope.AlikeBut doubt state.scope →
    (action state).2.memo.Kept program ref.last → ∀ met ∈ (action state).2.met, met ∈ state.met ∨ ref.Good met

/-- The answer to a call at the end of the run. -/
def Reference.answer {program : Program} (ref : Reference program) (owner : String) (scope : Scope) (callee : Expr)
    (args : List Argument) : Callee :=
  (Site.resolveCall ⟨program, owner, scope⟩ callee args ref.last).1

variable {prog : Program} {ref : Reference prog} {scope : Scope} {doubt : List String}

namespace Meets

theorem of_eq {action : Lower α} (hMemo : ∀ st : Tracked Gathered, st.memo.Kept prog (action st).2.memo)
    (hScope : ∀ st, (action st).2.scope = st.scope)
    (hMet : ∀ st, (action st).2.met = st.met) : Meets ref scope doubt action :=
  ⟨hMemo, hScope, fun st _ _ _ hMem => .inl (hMet st ▸ hMem)⟩

theorem pure (val : α) : Meets ref scope doubt (Pure.pure val) :=
  .of_eq (fun st => .refl st.memo) (fun _ => rfl) fun _ => rfl

theorem get : Meets ref scope doubt MonadState.get :=
  .of_eq (fun st => .refl st.memo) (fun _ => rfl) fun _ => rfl

theorem gather (change : Gathered → Gathered) : Meets ref scope doubt (gather change) :=
  .of_eq (fun st => .refl st.memo) (fun _ => rfl) fun _ => rfl

theorem bind {first : Lower α} {next : α → Lower β} (hFirst : Meets ref scope doubt first)
    (hNext : ∀ val, Meets ref scope doubt (next val)) : Meets ref scope doubt (first >>= next) where
  memo st := (hFirst.memo st).trans ((hNext _).memo _)
  stays st := ((hNext _).stays _).trans (hFirst.stays st)
  met st hAlike hKept met hMem := by
    have hMiddle : scope.AlikeBut doubt (first st).2.scope := hFirst.stays st ▸ hAlike
    rcases (hNext _).met _ hMiddle hKept met hMem with hBefore | hGood
    · exact hFirst.met st hAlike (((hNext _).memo _).trans hKept) met hBefore
    · exact .inr hGood

theorem ite {test : Prop} [Decidable test] {first second : Lower α} (hFirst : Meets ref scope doubt first)
    (hSecond : Meets ref scope doubt second) : Meets ref scope doubt (if test then first else second) := by
  split
  · exact hFirst
  · exact hSecond

/-- What is done in a fixed scope of its own. -/
theorem within (inner : Scope) {action : Lower α} (hAction : Meets ref inner [] action) :
    Meets ref scope doubt (within (fun _ => inner) action) where
  memo st := hAction.memo { st with scope := inner }
  stays _ := rfl
  met st _ := hAction.met { st with scope := inner } (.refl inner [])

theorem meet (owner : String) {call callee : Expr} {args : List Argument}
    (hGood : ∀ seen : Scope, scope.AlikeBut doubt seen → ref.Good ⟨call, ref.answer owner seen callee args⟩) :
    Meets ref scope doubt (meet prog owner call callee args) where
  memo := (Keeps.meet prog owner call callee args).memo
  stays _ := rfl
  met st hAlike hKept met hMem := by
    rw [meet_eq] at hKept hMem
    dsimp only at hKept hMem
    have hStable := Site.stable_resolveCall ⟨prog, owner, st.scope⟩ callee args
    have hAnswer : ref.answer owner st.scope callee args =
        (Site.resolveCall ⟨prog, owner, st.scope⟩ callee args st.memo).1 := by
      unfold Reference.answer
      rw [hStable.replay st.memo ref.last hKept]
    rcases mem_cons.mp hMem with rfl | hBefore
    · exact .inr (hAnswer ▸ hGood st.scope hAlike)
    · exact .inl hBefore

end Meets

/-- The first of two actions meets good calls only, under a condition. -/
def MeetsIf (ref : Reference prog) (scope : Scope) (doubt : List String) (P : Prop) {α : Type}
    (first _second : Lower α) : Prop :=
  P → Meets ref scope doubt first

theorem MeetsIf.within {P : Prop} {first second : Lower α} (hFirst : MeetsIf ref .empty [] P first second) :
    MeetsIf ref scope doubt P (Track.within (fun _ => .empty) first) (Track.within (fun _ => .empty) second) :=
  fun hHolds => .within .empty (hFirst hHolds)

theorem noting_meets (ref : Reference prog) (scope : Scope) (doubt : List String) :
    Noting (MeetsIf ref scope doubt) where
  of_imp hMeets hCondition hHolds := hMeets (hCondition hHolds)
  pure val _ := .pure val
  bind hFirst hNext hHolds := .bind (hFirst hHolds) fun val => hNext val hHolds
  struct _ _ := .gather _
  note _ _ := .gather _

/-- Values that are pulled in are written with good calls only, wherever that is done. -/
def PullsWell {context : LowerContext} (ref : Reference context.program) (pull : Pull) : Prop :=
  ∀ (owner : String) (hint : Option ValueType) (value : Expr), Pulls context.program value →
    ∀ scope doubt, Meets ref scope doubt (pull { context with owner } hint value)

variable {ctx : LowerContext} {pull : Pull} {val : Expr}

/-- What writing an expression does meets good calls only, if the calls of the expression are good. -/
theorem closed_meets (ref : Reference ctx.program) (hPull : PullsWell ref pull) (scope : Scope)
    (doubt : List String) :
    Closed pull pull ctx (.standard, false, none)
      (.ofCalls fun call callee args =>
        ∀ seen, scope.AlikeBut doubt seen → ref.Good ⟨call, ref.answer ctx.owner seen callee args⟩)
      (MeetsIf ref scope doubt) where
  toNoting := noting_meets ref scope doubt
  blank _ _ _ := .pure _
  site _ := .bind .get fun _ => .pure _
  infer target _ := .of_eq
    (fun st => (Site.stable_infer ⟨ctx.program, ctx.owner, st.scope⟩ target).kept st.memo)
    (fun _ => rfl) fun _ => rfl
  static owner name := by
    have h := noting_meets ref scope doubt
    refine h.bind (fun _ => .get) fun _ => h.ite (h.pure _) (h.bind (fun _ => .gather _) fun _ => ?_)
    refine h.declareStatic owner name (fun _ _ => .gather _) fun type init hInit => .within ?_
    refine (noting_meets ref .empty []).staticInit fun val hVal _ _ => ?_
    exact hPull owner (some type) val (.static (hInit.symm.trans hVal)) .empty []
  call _ _ _ args _ _ hOk hWrite := by
    have h := noting_meets ref scope doubt
    refine h.bind (fun hHolds => .meet ctx.owner (NodeTest.ofCalls_call.mp (hOk hHolds))) fun found => ?_
    exact h.call args found (fun key method _ hMethod param hParam val hVal _ =>
      hPull ctx.owner none val (.default ⟨key, method, param, hMethod, hParam, hVal⟩) scope doubt) hWrite

/-- The calls of an expression are good as seen from a scope, whatever the names in doubt are. -/
def GoodCalls {program : Program} (ref : Reference program) (owner : String) (scope : Scope) (doubt : List String)
    (value : Expr) : Prop :=
  value.all (.ofCalls fun call callee args =>
    ∀ seen, scope.AlikeBut doubt seen → ref.Good ⟨call, ref.answer owner seen callee args⟩) = true

theorem goodCalls_of_pulls (hPulls : Pulls prog val) (owner : String) : GoodCalls ref owner scope doubt val :=
  Expr.all_ofCalls_of_calls fun span callee types args hMem _ _ =>
    ref.pulled (.call span callee types args) _ ⟨val, hPulls, hMem⟩

theorem meets_exprOn (fuel : Nat) (ctx : LowerContext) (ref : Reference ctx.program) (scope : Scope)
    (doubt : List String) (hint : Option ValueType) (hCalls : GoodCalls ref ctx.owner scope doubt val) :
    Meets ref scope doubt (exprOn fuel ctx hint val) := by
  induction fuel generalizing ctx scope doubt hint val with
  | zero => exact .pure _
  | succ fuel ih =>
    have hPull : PullsWell ref (exprOn fuel) := by
      intro owner hint val hPulls scope doubt
      exact ih { ctx with owner } ref scope doubt hint (goodCalls_of_pulls hPulls owner)
    exact (closed_meets ref hPull scope doubt).exprWith hint val hCalls

theorem meets_hinted {ref : Reference ctx.program} (hint : Option ValueType)
    (hCalls : GoodCalls ref ctx.owner scope doubt val) : Meets ref scope doubt (hinted ctx hint val) :=
  .bind (meets_exprOn _ ctx ref scope doubt hint hCalls) fun _ => .pure _

end Expressions

end Lower

end Shaderlift
