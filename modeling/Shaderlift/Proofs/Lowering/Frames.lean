import Shaderlift.Proofs.Analysis.Agreement
import Shaderlift.Proofs.Lowering.Actions

/-!
# Frames are closed where they were opened

Lowering, the rules and the collector of calls open frames for blocks, loops, sections and methods. What they do
inside a frame changes nothing outside of it, so that closing the frame gives back the scope in which it was opened,
and a method leaves the scope as it was. The rules also know again which method they are in and whether it is the
entry point. Lowering cannot forget its owner, the entry point or the type to return: they are given to it, not
kept in its state.
-/

namespace Shaderlift

open Track

variable {ρ α : Type}

/-- Open a frame that holds some names. -/
def Tracked.opened (st : Tracked ρ) (top : Frame) : Tracked ρ := { st with scope := ⟨top, st.scope.frames⟩ }

/-- An action leaves a view of the state as it was. -/
def Track.Preserves {κ : Type} (view : Tracked ρ → κ) (action : Track ρ α) : Prop :=
  ∀ st, view (action st).2 = view st

/-- The frames around the innermost one. -/
def Tracked.around (st : Tracked ρ) : List Frame := st.scope.outer

theorem Tracked.pop_eq {st later : Tracked ρ} (top : Frame) (hAround : later.around = (st.opened top).around) :
    later.scope.pop = st.scope := by
  have hOuter : later.scope.outer = st.scope.top :: st.scope.outer := hAround
  simp only [Scope.pop, hOuter]

/-- Following the scope through a method leaves the frames around the innermost one alone. -/
theorem tracks_around (prog : Program) (owner : String) :
    Tracks prog owner fun {α} (action : Track ρ α) => Preserves Tracked.around action where
  pure _ _ := rfl
  bind hFirst hNext st := (hNext _ _).trans (hFirst st)
  type _ _ _ := rfl
  declare _ _ _ := rfl
  within _ _ _ _ := rfl
  meet _ _ _ _ := rfl

/-! ## Lowering -/

namespace Lower

/-- Expressions leave the scope alone, and with it the frames around the innermost one. -/
theorem simple_preserves {κ : Type} (view : Scope → κ) :
    Simple (fun {α} (action : Lower α) => Preserves (fun st => view st.scope) action) where
  pure _ _ := rfl
  bind hFirst hNext st := (hNext _ _).trans (hFirst st)
  get _ := rfl
  recalling _ _ _ _ := rfl
  note _ _ := rfl
  meet _ _ _ _ _ _ := rfl
  within _ _ _ _ := rfl

theorem whole_around (prog : Program) (owner : String) :
    Whole prog owner .standard .any (First fun {α} (action : Lower α) => Preserves Tracked.around action) where
  toNoting := (simple_preserves Scope.outer).noting
  plain _ _ := (simple_preserves Scope.outer).plain _ _ (fun _ _ _ => rfl) fun _ _ => rfl
  lift _ _ := rfl
  blank _ _ _ _ := rfl

theorem scope_method (ctx : LowerContext) (name : String) (written : MethodDecl) (st : Tracked Gathered) :
    (method ctx name written st).2.scope = st.scope := by
  have hNoting := (simple_preserves id).noting
  have hParams := hNoting.params (P := True) ctx.program written.header.params
  have hType := hNoting.spellWritten (P := True) ctx.program written.header.returnType
  exact (hType _).trans (hParams st)

end Lower

/-! ## Rules and calls -/

namespace Legality

/-- The method that the rules are in, and whether it is the entry point. -/
def current (rules : Tracked Findings) : String × Bool := (rules.gathered.method, rules.gathered.inEntry)

/-- The frames around the innermost one, and the method that the rules are in. -/
def place (rules : Tracked Findings) : List Frame × String × Bool := (rules.around, current rules)

theorem closed_place (prog : Program) (owner : String) :
    Closed prog owner fun {α} (action : Check α) => Preserves place action where
  pure _ _ := rfl
  bind hFirst hNext rules := (hNext _ _).trans (hFirst rules)
  get _ := rfl
  report _ _ _ _ := rfl
  infer _ _ := rfl

theorem preserves_within {walk : Check Unit} (hWalk : Preserves place walk) (change : Scope → Scope) :
    Preserves place (within change walk) :=
  fun rules => congrArg (fun after => (rules.around, after.2)) (hWalk { rules with scope := change rules.scope })

/-- The rules leave all frames but the innermost alone, and come back to the method that they were in. -/
theorem respects_place (prog : Program) (owner : String) :
    (visitor prog owner).Respects NodeTest.any fun action _ => Preserves place action where
  done _ := rfl
  seq hFirst hSecond rules := (hSecond _).trans (hFirst rules)
  weaken hAction _ := hAction
  type type := (closed_place prog owner).checkShape type
  expr expr _ _ hWalk rules := by
    refine (hWalk _).trans ((closed_place prog owner).checkAnyExpr (fun _ callee _ args rules => ?_) expr rules)
    obtain ⟨report, hReport⟩ := checkCall_eq prog owner _ callee args rules
    rw [hReport]
    rfl
  pattern pattern _ _ hWalk rules := by
    have hCheck := (closed_place prog owner).checkPattern pattern rules
    cases pattern with
    | recursive => exact hCheck
    | _ => exact (hWalk _).trans hCheck
  stmt stmt _ _ hWalk rules := by
    have hCheck := (closed_place prog owner).checkStmt stmt rules
    cases stmt with
    | forLoop => exact (preserves_within hWalk Scope.push _).trans hCheck
    | forEach _ _ name => exact (preserves_within hWalk (·.push.declare name none) _).trans hCheck
    | _ => exact (hWalk _).trans hCheck
  decl decl _ _ hWalk rules := by
    have hDeclare : Preserves place (declareAll prog owner decl.type decl.declarators) := fun rules =>
      Prod.ext ((tracks_around prog owner).declareAll _ _ rules)
        (congrArg (fun found => (found.method, found.inEntry)) (gathered_declareAll _ _ _ _ rules))
    exact (hDeclare _).trans ((hWalk _).trans ((closed_place prog owner).checkDecl decl rules))
  block _ _ _ hWalk := preserves_within hWalk _
  method method _ _ _ := (closed_place prog owner).checkModifiers method.header

end Legality

end Shaderlift
