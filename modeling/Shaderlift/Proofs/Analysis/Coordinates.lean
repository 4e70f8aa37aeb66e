import Shaderlift.Proofs.Analysis.Agreement

/-!
# Coordinates outside the entry point

The rules allow coordinates in the entry point only, and not in its local functions. So an expression that they
walk anywhere else without an error mentions no name of coordinates, unless a variable or a field hides it there.
-/

namespace Shaderlift

/-- Decide whether neither a variable nor a field has a name, as seen from a site. -/
def Site.shows (site : Site) (name : String) : Bool :=
  !site.scope.contains name && (site.program.fieldType? site.owner name).isNone

namespace Site

variable {site : Site} {name : String}

theorem shows_iff :
    site.shows name = true ↔ site.scope.contains name = false ∧ site.program.fieldType? site.owner name = none := by
  simp [shows]

theorem field?_eq_none_of_shows (hShows : site.shows name = true) : site.field? name = none := by
  obtain ⟨hScope, hField⟩ := shows_iff.mp hShows
  simp [field?, hScope, hField]

/-- A name refers to coordinates if it is one of theirs and nothing else has it. -/
theorem dispatchInfo?_ident_eq_some_iff {span : Span} {info : DispatchInfo} :
    site.dispatchInfo? (.ident span name) = some info ↔
      site.shows name = true ∧ DispatchInfo.ofName? name = some info := by
  constructor
  · intro hInfo
    unfold dispatchInfo? Expr.ident? at hInfo
    dsimp only at hInfo
    split at hInfo
    · cases hInfo
    · rename_i hHidden
      obtain ⟨hScope, hField⟩ := Bool.or_eq_false_iff.mp (Bool.not_eq_true _ |>.mp hHidden)
      refine ⟨shows_iff.mpr ⟨hScope, ?_⟩, hInfo⟩
      simpa [field?, hScope] using hField
  · rintro ⟨hShows, hInfo⟩
    simp [dispatchInfo?, Expr.ident?, (shows_iff.mp hShows).1, field?_eq_none_of_shows hShows, hInfo]

end Site

/-- The test that every node passes but the mention of a name. -/
def NodeTest.without (name : String) : NodeTest :=
  { NodeTest.any with
    expr := fun expr =>
      match expr with
      | .ident _ other => other != name
      | _ => true }

namespace Legality

open Track

variable {prog : Program} {owner : String} {α β : Type}

/-- An action of the rules does not change whether they are in the entry point. -/
def Steady (action : Check α) : Prop := ∀ rules, (action rules).2.gathered.inEntry = rules.gathered.inEntry

theorem closed_steady (prog : Program) (owner : String) : Closed prog owner Steady where
  pure _ _ := rfl
  bind hFirst hNext rules := (hNext _ _).trans (hFirst rules)
  get _ := rfl
  report _ _ _ _ := rfl
  infer _ _ := rfl

theorem steady_checkCall (call callee : Expr) (args : List Argument) :
    Steady (checkCall prog owner call callee args) := by
  intro rules
  obtain ⟨report, hReport⟩ := checkCall_eq prog owner call callee args rules
  rw [hReport]
  rfl

theorem steady_checkExpr (expr : Expr) : Steady (checkExpr prog owner expr) :=
  (closed_steady prog owner).checkAnyExpr (fun _ callee _ args => steady_checkCall _ callee args) expr

/-- A part of the walk over expressions leaves the scope alone, and outside the entry point it vouches for a claim
wherever a name is not hidden. -/
structure Denies (program : Program) (owner name : String) (action : Check Unit) (claim : Prop) : Prop where
  vouches : Vouches program action True
  scope : ∀ rules, (action rules).2.scope = rules.scope
  steady : Steady action
  holds : ∀ rules, Quiet (action rules).2 → rules.gathered.inEntry = false →
    Site.shows ⟨program, owner, rules.scope⟩ name = true → claim

/-- Report coordinates that are mentioned outside the entry point. -/
def reportDispatch (program : Program) (span : Span) (findings : Findings) : Option DispatchInfo → Check Unit
  | some info =>
    if findings.inEntry && program.kind.isDispatched then pure ()
    else report (dispatchRule info) span [findings.method]
  | none => pure ()

namespace Denies

variable {name : String} {first second : Check Unit} {P Q : Prop}

theorem of_beside (hCheck : Beside prog owner first) (hSteady : Steady first) :
    Denies prog owner name first True :=
  ⟨hCheck.vouches, hCheck.scope, hSteady, fun _ _ _ _ => trivial⟩

theorem weaken (hAction : Denies prog owner name first P) (hClaim : P → Q) : Denies prog owner name first Q :=
  ⟨hAction.vouches, hAction.scope, hAction.steady, fun rules hQuiet hEntry hShows =>
    hClaim (hAction.holds rules hQuiet hEntry hShows)⟩

theorem seq (hFirst : Denies prog owner name first P) (hSecond : Denies prog owner name second Q) :
    Denies prog owner name (do first; second) (P ∧ Q) where
  vouches := hFirst.vouches.after fun _ => hSecond.vouches
  scope rules := (hSecond.scope _).trans (hFirst.scope rules)
  steady rules := (hSecond.steady _).trans (hFirst.steady rules)
  holds rules hQuiet hEntry hShows := by
    have hMiddle := (hSecond.vouches.quiet (first rules).2 hQuiet).1
    refine ⟨hFirst.holds rules hMiddle hEntry hShows, hSecond.holds (first rules).2 hQuiet ?_ ?_⟩
    · exact (hFirst.steady rules).trans hEntry
    · rwa [hFirst.scope rules]

/-- A name of coordinates is an error outside the entry point. -/
theorem ident (hName : (DispatchInfo.ofName? name).isSome = true) (span : Span) :
    Denies prog owner name (checkExpr prog owner (.ident span name)) False := by
  have hCheck := (closed_beside prog owner).checkExpr (.ident span name) nofun
  refine ⟨hCheck.vouches, hCheck.scope, steady_checkExpr _, fun rules hQuiet hEntry hShows => ?_⟩
  obtain ⟨info, hInfo⟩ := Option.isSome_iff_exists.mp hName
  have hFound : Site.dispatchInfo? ⟨prog, owner, rules.scope⟩ (.ident span name) = some info :=
    Site.dispatchInfo?_ident_eq_some_iff.mpr ⟨hShows, hInfo⟩
  have hRun : checkExpr prog owner (.ident span name) rules =
      reportDispatch prog span rules.gathered
        (Site.dispatchInfo? ⟨prog, owner, rules.scope⟩ (.ident span name)) rules := rfl
  rw [hRun, hFound, reportDispatch, hEntry] at hQuiet
  have hError : (dispatchRule info).severity = .error := by cases info <;> rfl
  have hReject : Vouches prog (report (dispatchRule info) span [rules.gathered.method]) False := .reject hError _ _
  exact (hReject.quiet rules hQuiet).2

end Denies

/-- Outside the entry point, expressions that the rules walk do not mention a name of coordinates. -/
theorem respects_denies (prog : Program) (owner : String) {name : String}
    (hName : (DispatchInfo.ofName? name).isSome = true) :
    (visitor prog owner).RespectsExprs (.without name) (Denies prog owner name) where
  done := ⟨.done (), fun _ => rfl, fun _ => rfl, fun _ _ _ _ => trivial⟩
  seq := .seq
  weaken := .weaken
  type type :=
    .of_beside ((closed_beside prog owner).checkShape type) ((closed_steady prog owner).checkShape type)
  expr expr _ _ hWalk := by
    have hVouches := (vouches_checkExpr prog owner expr).weaken fun _ => trivial
    have hOther : Denies prog owner name (checkExpr prog owner expr) True :=
      ⟨hVouches, scope_checkExpr prog owner expr, steady_checkExpr expr, fun _ _ _ _ => trivial⟩
    cases expr with
    | ident span other =>
      by_cases hSame : other = name
      · subst hSame
        exact .weaken (.seq (.ident hName span) hWalk) fun hBoth => hBoth.1.elim
      · exact .weaken (.seq hOther hWalk) fun hBoth => ⟨bne_iff_ne.mpr hSame, hBoth.2⟩
    | _ => exact .weaken (.seq hOther hWalk) fun hBoth => ⟨rfl, hBoth.2⟩
  pattern pattern _ _ hWalk := by
    have hCheck := (closed_beside prog owner).checkPattern pattern
    have hSteady := (closed_steady prog owner).checkPattern pattern
    cases pattern with
    | recursive span =>
      exact ⟨hCheck.vouches, hCheck.scope, hSteady, fun rules hQuiet _ _ =>
        ((rejects_recursive prog span).quiet rules hQuiet).2.elim⟩
    | _ => exact .weaken (.seq (.of_beside hCheck hSteady) hWalk) fun hBoth => ⟨rfl, hBoth.2⟩

/-! ## Fields -/

section Fields

variable (prog : Program) (owner : String) {name : String} (hName : (DispatchInfo.ofName? name).isSome = true)

theorem passesInit_without (init : Expr) : passesInit (.without name) init = init.all (.without name) := by
  cases init with
  | newArray | arrayInit =>
    unfold Expr.all
    rfl
  | _ => rfl

include hName

theorem sweeps_denies : Sweeps prog owner (.without name) (Denies prog owner name) where
  exprs := respects_denies prog owner hName
  note := ⟨.of_found_eq (.gather _) fun _ => rfl, fun _ => rfl, fun _ => rfl, fun _ _ _ _ => trivial⟩
  warn _ _ := ⟨.report _ _ _, fun _ => rfl, fun _ => rfl, fun _ _ _ _ => trivial⟩

/-- The initial values of the fields of the shader are outside the entry point. -/
theorem denies_checkMembers (pos : Nat) (members : List Member) :
    Denies prog prog.shader.name name (checkMembers prog pos members)
      (∀ member ∈ members, ∀ field, member = .field field → passesInits (.without name) field.declarators) := by
  refine (sweeps_denies prog _ hName).checkMembers (fun field hInits other hSame => ?_) (fun inEntry method => ?_)
    (fun _ _ hSame => by cases hSame) (fun _ _ hSame => by cases hSame) (fun _ _ hSame => by cases hSame) pos members
  · cases hSame
    exact hInits
  · exact ⟨(passes_checkMethod (visitor_respects prog) prog.shader.name inEntry method).weaken fun _ => trivial,
      scope_checkMethod prog prog.shader.name inEntry method,
      fun rules => (closed_steady prog prog.shader.name).checkModifiers method.header rules,
      fun _ _ _ _ _ hSame => by cases hSame⟩

/-- The initial values of the fields of a shader about which the rules report no error do not mention coordinates,
unless a field hides them. -/
theorem passesInits_of_quiet (hQuiet : Quiet (checkAll prog (.start .empty ⟨"", false, []⟩)).2)
    (hField : prog.fieldType? prog.shader.name name = none) :
    ∀ field, .field field ∈ prog.shader.members → passesInits (.without name) field.declarators := by
  obtain ⟨start, -, hScope, -, hEntry, hAll⟩ := checkAll_eq prog (.start .empty ⟨"", false, []⟩)
  rw [hAll] at hQuiet
  have hMembers := ((passes_checkHelpers (visitor_respects prog) _).quiet _ hQuiet).1
  have hShows : Site.shows ⟨prog, prog.shader.name, start.scope⟩ name = true := by
    rw [hScope]
    exact Site.shows_iff.mpr ⟨rfl, hField⟩
  exact fun field hMember =>
    (denies_checkMembers prog hName 0 prog.shader.members).holds start hMembers hEntry hShows _ hMember field rfl

end Fields

end Legality

end Shaderlift
