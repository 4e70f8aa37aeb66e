import Shaderlift.Proofs.Lowering.Blank

/-!
# Whole shaders without blanks

The comparison of runs under other blanks is carried from expressions to statements, methods and the whole
of a shader: if the entry point, the methods that it needs and the initial values of the static fields hold
no forbidden construct, then lowering does not depend on the blanks.
-/

namespace Shaderlift

namespace Lower

open Track Legality

/-- What stands below statements is written without blanks if it holds no forbidden construct. -/
theorem plain_matches (ctx : LowerContext) (setting : Setting) :
    Plain ctx setting allowed fun P _ first second => Matches ctx.program P first second where
  toNoting := noting_matches ctx.program
  recalling := matches_recalling ctx
  declare _ _ := ⟨fun _ => ⟨.refl _, fun _ hField => hField⟩, fun _ _ _ => rfl⟩
  within _ := .within _
  untyped _ := .gather fun _ _ hField => hField
  tree hint val := (noting_matches ctx.program).of_imp
    (alikePulls_exprOn setting (pullDepth ctx.program) ctx hint val) writable_of_all

variable (blank : Blank)

/-- Statements without forbidden constructs are written without blanks. -/
theorem whole_matches (prog : Program) (owner : String) :
    Whole prog owner blank allowed fun P _ first second => Matches prog P first second where
  toNoting := noting_matches prog
  plain := by
    rintro ctx rfl -
    exact plain_matches ctx _
  lift _ := .gather fun _ _ hField => hField
  blank stmt _ hLacks := by
    refine ⟨fun st => .refl st, fun hAll => ?_⟩
    unfold Stmt.all at hAll
    cases stmt <;> simp [allowed, allowsStmt, Stmt.lacksForm] at hAll hLacks

/-- Everything that is lowered without being pulled in holds no forbidden construct: the entry point, the
methods that it needs as any pass with these calls remembered finds them, and the initial values of the
static fields of the shader. -/
structure AllowsUnit (program : Program) (entry : MethodDecl) (memo : CallMemo) : Prop where
  entry : entry.all allowed = true
  helpers : ∀ later, memo.Kept program later → ∀ key ∈ (program.reachableMethods later).1, ∀ found,
    program.method? key = some found → found.all allowed = true
  statics : ∀ name init, shaderInit? program name = some init → allowsInit init = true

theorem unit_eq (prog : Program) (model : ShaderModel) (entry : MethodDecl) (start : Tracked Gathered) :
    let first := method ⟨prog, model, blank, prog.shader.name, true, none⟩ entryPoint entry start
    let needed := prog.reachableMethods first.2.memo
    unit prog model blank entry start =
      afterEntry prog model blank first.1 needed.1 { first.2 with memo := needed.2 } :=
  rfl

theorem matches_afterEntry (prog : Program) (model : ShaderModel) (written : OutFunction)
    (helpers : List MethodKey) :
    Matches prog
      ((∀ key ∈ helpers, ∀ found, prog.method? key = some found → found.all allowed = true) ∧
        ∀ name init, shaderInit? prog name = some init → allowsInit init = true)
      (afterEntry prog model .standard written helpers) (afterEntry prog model blank written helpers) :=
  Whole.afterEntry (whole_matches blank prog) (fun name type val hInit hSized =>
    (noting_matches prog).of_imp
      (alikePulls_exprOn (blank, false, none) (pullDepth prog)
        ⟨prog, model, .standard, prog.shader.name, false, none⟩ (some type) val)
      fun hAll => ⟨hAll name val hInit, hSized⟩) written helpers

/-- The parts of a run only add to the state. -/
theorem grown_unit (prog : Program) (model : ShaderModel) (entry : MethodDecl) (start : Tracked Gathered) :
    let first := method ⟨prog, model, .standard, prog.shader.name, true, none⟩ entryPoint entry start
    Grown prog start first.2 ∧ Grown prog first.2 (unit prog model .standard entry start).2 := by
  intro first
  have hNeeded : Grown prog first.2 { first.2 with memo := (prog.reachableMethods first.2.memo).2 } :=
    ⟨prog.stable_reachableMethods.kept first.2.memo, fun _ hField => hField⟩
  have hEntry := Whole.method ⟨prog, model, .standard, prog.shader.name, true, none⟩
    (whole_matches .standard prog prog.shader.name) entryPoint entry
  refine ⟨hEntry.grown start, hNeeded.trans ?_⟩
  exact (matches_afterEntry .standard prog model first.1 _).grown _

/-- A run that ends in a fine state is the same under all blanks. -/
theorem unit_eq_of_fine (prog : Program) (model : ShaderModel) (entry : MethodDecl)
    (start : Tracked Gathered) (hAllows : AllowsUnit prog entry start.memo)
    (hFine : Fine prog (unit prog model .standard entry start).2) :
    unit prog model blank entry start = unit prog model .standard entry start := by
  obtain ⟨hFirst, hLast⟩ := grown_unit prog model entry start
  have hEntry := (Whole.method ⟨prog, model, .standard, prog.shader.name, true, none⟩
    (whole_matches blank prog prog.shader.name) entryPoint entry).same hAllows.entry start (hFine.of_grown hLast)
  -- Which methods are needed is told by the memo after the entry point.
  have hNeeded := hAllows.helpers _ hFirst.memo
  have hAfter := (matches_afterEntry blank prog model _ _).same ⟨hNeeded, hAllows.statics⟩ _ hFine
  rw [unit_eq, unit_eq]
  dsimp only at hEntry ⊢
  rw [hEntry]
  exact hAfter

end Lower

end Shaderlift
