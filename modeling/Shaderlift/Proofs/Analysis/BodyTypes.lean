import Shaderlift.Proofs.Analysis.Rejection

/-!
# Types in the bodies of methods

The rules look at the types of local variables and of casts, and reject those that mean a reference, a resource or
nothing that a shader knows. A pointer, a tuple or a reference is rejected where it is written out, but not where
an alias stands for it. So a type in a body that the rules have walked means a value, unless it is such an alias.
The types of parameters and of returned values are not looked at in this way.
-/

namespace Shaderlift

/-- A type that may stand in a body: it means a value, or it stands for a shape that no shader can have. -/
def Program.Bears (program : Program) (type : TypeExpr) : Prop :=
  program.valueType? type = none → ∃ shape, program.meaning type = .forbidden shape

namespace Legality

open Classical in
/-- The test for the types of local variables and casts. Which types casts may have is left open; statements are
those that may stand in a shader. -/
noncomputable def typed (program : Program) (Casts : TypeExpr → Prop) : NodeTest :=
  { NodeTest.any with
    expr := fun expr =>
      match expr with
      | .cast _ type _ => decide (Casts type)
      | _ => true
    stmt := allowsStmt
    decl := fun decl => decl.type.isInferred || decide (program.Bears decl.type) }

variable {prog : Program} {Casts : TypeExpr → Prop}

theorem typed_cast {span : Span} {type : TypeExpr} {operand : Expr} :
    (typed prog Casts).expr (.cast span type operand) = true ↔ Casts type := by
  simp [typed]

theorem typed_decl {decl : LocalDecl} :
    (typed prog Casts).decl decl = true ↔ decl.type.isInferred = true ∨ prog.Bears decl.type := by
  simp [typed]

/-- Collect the types of casts, the last first. -/
def castCollector : Visitor (List TypeExpr) where
  expr expr walk :=
    match expr with
    | .cast _ type _ => do
      modify (type :: ·)
      walk
    | _ => walk

/-- An expression passes the test if its casts have types that casts may have. -/
theorem all_typed {expr : Expr} (hTypes : ∀ type ∈ (castCollector.visitExpr expr []).2, Casts type) :
    expr.all (typed prog Casts) = true := by
  -- A walk only adds to the types, so those at its end are those of all parts.
  have hWalk : castCollector.RespectsExprs (typed prog Casts) fun action claim =>
      (∀ types, ∀ type ∈ types, type ∈ (action types).2) ∧
        ∀ types, (∀ type ∈ (action types).2, Casts type) → claim :=
    { done := ⟨fun _ _ hMem => hMem, fun _ _ => trivial⟩
      seq := fun {first _ _ _} hFirst hSecond =>
        ⟨fun types type hMem => hSecond.1 _ type (hFirst.1 types type hMem), fun types hCasts =>
          ⟨hFirst.2 types fun type hMem => hCasts type (hSecond.1 (first.1 types).2 type hMem), hSecond.2 _ hCasts⟩⟩
      weaken := fun hAction hWeaker => ⟨hAction.1, fun types hCasts => hWeaker (hAction.2 types hCasts)⟩
      type := fun _ => ⟨fun _ _ hMem => hMem, fun _ _ => trivial⟩
      expr := fun expr walk _ hWalk => by
        cases expr with
        | cast span type operand =>
          refine ⟨fun types other hMem => hWalk.1 _ other (List.mem_cons_of_mem _ hMem), fun types hCasts => ?_⟩
          exact ⟨typed_cast.mpr (hCasts type (hWalk.1 _ type List.mem_cons_self)), hWalk.2 (type :: types) hCasts⟩
        | _ => exact ⟨hWalk.1, fun types hCasts => ⟨rfl, hWalk.2 types hCasts⟩⟩
      pattern := fun _ _ _ hWalk => ⟨hWalk.1, fun types hCasts => ⟨rfl, hWalk.2 types hCasts⟩⟩ }
  exact (hWalk.visitExpr expr).2 [] hTypes

/-- The parts of an array that is an initial value are all that matters in it. -/
theorem all_typed_of_passesInit {init : Expr} (hInit : passesInit (typed prog Casts) init = true) :
    init.all (typed prog Casts) = true := by
  cases init with
  | newArray | arrayInit =>
    unfold Expr.all
    exact Bool.and_eq_true_iff.mpr ⟨rfl, hInit⟩
  | _ => exact hInit

theorem bears_checkBodyType (type : TypeExpr) {rule : Rule} (hRule : rule.severity = .error) :
    Vouches prog (checkBodyType prog type rule) (prog.Bears type) := by
  unfold checkBodyType
  split
  · exact .weaken (.reject hRule _ _) False.elim
  · exact .weaken (.reject hRule _ _) False.elim
  · exact .weaken (.reject rfl _ _) False.elim
  · rename_i hMeaning
    refine .weaken (.done ()) fun _ hNone => ?_
    rw [Program.valueType?, hMeaning] at hNone
    cases hNone
  · rename_i shape hMeaning
    exact .weaken (.done ()) fun _ _ => ⟨shape, hMeaning⟩

variable (hCasts : ∀ type, prog.Bears type → Casts type) (owner : String)

include hCasts in
theorem typed_checkExpr (expr : Expr) :
    Vouches prog (checkExpr prog owner expr) ((typed prog Casts).expr expr = true) := by
  cases expr with
  | cast _ type =>
    refine .weaken (bears_checkBodyType type rfl) fun hBears => ?_
    exact typed_cast.mpr (hCasts type hBears)
  | _ => exact .weaken (vouches_checkExpr prog owner _) fun _ => rfl

theorem typed_checkDecl (decl : LocalDecl) :
    Vouches prog (checkDecl prog decl) ((typed prog Casts).decl decl = true) := by
  have hType : Vouches prog (if decl.type.isInferred then pure ()
      else checkBodyType prog decl.type .invalidLocalType) ((typed prog Casts).decl decl = true) := by
    split
    · rename_i hInferred
      exact .weaken (.done ()) fun _ => typed_decl.mpr (.inl hInferred)
    · exact .weaken (bears_checkBodyType decl.type rfl) fun hBears => typed_decl.mpr (.inr hBears)
  unfold checkDecl
  dsimp only
  split
  · exact .after (.report _ _ _) fun _ => hType
  · exact hType

include hCasts in
/-- The hooks that apply the rules keep out types that may not stand in a body. -/
theorem visitor_respects_typed : (visitor prog owner).Respects (typed prog Casts) (Vouches prog) :=
  { visitor_respects prog owner with
    expr := fun expr _ _ hWalk => .bind (typed_checkExpr hCasts owner expr) fun _ => hWalk
    decl := fun decl _ _ hWalk =>
      .weaken (.bind (typed_checkDecl decl) fun _ => .bind hWalk fun _ => .declareAll prog owner _ _)
        fun hAll => ⟨hAll.1, hAll.2.1⟩ }

end Legality

end Shaderlift
