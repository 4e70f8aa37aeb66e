import Shaderlift.Proofs.Analysis.Rejection
import Shaderlift.Proofs.Lowering.Actions

/-!
# Blanks are not written

Where lowering meets a construct that no shader may contain it writes a blank. A run is compared with the
same run under other blanks: as long as only trees without forbidden constructs are written, both are
equal. What is written includes expressions that are pulled in from elsewhere; which ones these are is
told by the state at the end of the run, since the static fields that have been seen and the calls that
are remembered only grow.
-/

namespace Shaderlift

open List

namespace Lower

open Track Legality

/-! ## Growing states -/

/-- The calls that are remembered and the static fields that have been seen are still there later. -/
structure Grown (program : Program) (before later : Tracked Gathered) : Prop where
  memo : before.memo.Kept program later.memo
  statics : ∀ field ∈ before.gathered.seenStatics, field ∈ later.gathered.seenStatics

theorem Grown.refl {prog : Program} (st : Tracked Gathered) : Grown prog st st :=
  ⟨.refl _, fun _ hField => hField⟩

theorem Grown.trans {prog : Program} {first second third : Tracked Gathered}
    (hFirst : Grown prog first second) (hSecond : Grown prog second third) : Grown prog first third :=
  ⟨hFirst.memo.trans hSecond.memo, fun field hField => hSecond.statics field (hFirst.statics field hField)⟩

/-- Nothing forbidden can have been pulled in before a state: not with the initial values of the static
fields that have been seen, and not with the default values of methods that have been called. -/
structure Fine (program : Program) (state : Tracked Gathered) : Prop where
  statics : ∀ field ∈ state.gathered.seenStatics, ∀ init,
    fieldInit? program field.1 field.2 = some init → allowsInit init = true
  defaults : ∀ call key method, state.memo.entries.lookup call = some (.source key) →
    program.method? key = some method → allParams allowed method.params = true

theorem Fine.of_grown {prog : Program} {before later : Tracked Gathered} (hFine : Fine prog later)
    (hGrown : Grown prog before later) : Fine prog before where
  statics field hField := hFine.statics field (hGrown.statics field hField)
  defaults call key method hCall := hFine.defaults call key method (hGrown.memo.lookup call _ hCall)

/-! ## Runs that match -/

/-- Two actions match under a condition: the first only adds to the state, and if the condition holds and
the first ends in a fine state, then the second does the same. -/
structure Matches {α : Type} (program : Program) (condition : Prop) (first second : Lower α) : Prop where
  grown : ∀ state, Grown program state (first state).2
  same : condition → ∀ state, Fine program (first state).2 → second state = first state

namespace Matches

variable {α β : Type} {prog : Program} {P Q : Prop}

variable {first second first' : Lower α}

theorem pure (val : α) : Matches prog P (Pure.pure val) (Pure.pure val) :=
  ⟨fun st => .refl st, fun _ _ _ => rfl⟩

theorem bind {next next' : α → Lower β} (hFirst : Matches prog P first first')
    (hNext : ∀ val, Matches prog P (next val) (next' val)) :
    Matches prog P (first >>= next) (first' >>= next') where
  grown st := (hFirst.grown st).trans ((hNext (first st).1).grown (first st).2)
  same hP st hFine := by
    have hMiddle : Fine prog (first st).2 := hFine.of_grown ((hNext (first st).1).grown (first st).2)
    have hSame : first' st = first st := hFirst.same hP st hMiddle
    show next' (first' st).1 (first' st).2 = next (first st).1 (first st).2
    rw [hSame]
    exact (hNext (first st).1).same hP (first st).2 hFine

theorem gather {change : Gathered → Gathered}
    (hStatics : ∀ gathered, ∀ field ∈ gathered.seenStatics, field ∈ (change gathered).seenStatics) :
    Matches prog P (Track.gather change) (Track.gather change) :=
  ⟨fun st => ⟨.refl _, hStatics st.gathered⟩, fun _ _ _ => rfl⟩

theorem within (change : Scope → Scope) (hAction : Matches prog P first second) :
    Matches prog P (Track.within change first) (Track.within change second) where
  grown st :=
    have hGrown := hAction.grown { st with scope := change st.scope }
    ⟨hGrown.memo, hGrown.statics⟩
  same hP st hFine := by
    have hSame := hAction.same hP { st with scope := change st.scope } ⟨hFine.statics, hFine.defaults⟩
    show ((second { st with scope := change st.scope }).1,
      { (second { st with scope := change st.scope }).2 with scope := st.scope }) = _
    rw [hSame]
    rfl

/-- A condition that holds whenever the first action ends in a fine state need not be asked for. -/
theorem of_fine (hMatch : Matches prog P first second) (hFine : ∀ st, Fine prog (first st).2 → P) :
    Matches prog Q first second :=
  ⟨hMatch.grown, fun _ st hEnd => hMatch.same (hFine st hEnd) st hEnd⟩

end Matches

theorem noting_matches (prog : Program) : Noting fun P _ first second => Matches prog P first second where
  of_imp hMatch hCondition := ⟨hMatch.grown, fun hHolds => hMatch.same (hCondition hHolds)⟩
  pure := .pure
  bind := .bind
  struct _ := .gather fun _ _ hField => hField
  note hRemarks := .gather fun gathered _ hField => hRemarks.seen gathered ▸ hField

/-! ## What is pulled in -/

/-- An expression that can be pulled in: nothing in it is forbidden, except that it may be an array of
items itself. -/
def Writable (value : Expr) : Prop := allowsInit value = true ∧ value.isSizedArray = false

theorem writable_of_all {val : Expr} (hAll : val.all allowed = true) : Writable val := by
  cases val with
  | newArray => simp [Expr.all, allowed, allowsExpr] at hAll
  | arrayInit span items =>
    rw [Expr.all, Bool.and_eq_true_iff] at hAll
    exact ⟨hAll.2, rfl⟩
  | _ => exact ⟨hAll, rfl⟩

/-- Two writers of expressions from elsewhere match in another setting. -/
def AlikePulls (setting : Setting) (pull pull' : Pull) : Prop :=
  ∀ (context : LowerContext) (hint : Option ValueType) (value : Expr),
    Matches context.program (Writable value) (pull context hint value) (pull' (context.under setting) hint value)

section Pulling

variable {P : Prop} {setting : Setting} {pull pull' : Pull} (hPull : AlikePulls setting pull pull')
  (ctx : LowerContext)

include hPull

/-- A static field of another type is seen before its initial value is written, so that a fine end shows
the value to be free of forbidden constructs. -/
theorem matches_externalStatic (owner name : String) : Matches ctx.program P (externalStatic pull ctx owner name)
      (externalStatic pull' (ctx.under setting) owner name) := by
  have h := noting_matches ctx.program
  have hDeclare := @Chained.declareStatic _
    (∀ val, fieldInit? ctx.program owner name = some val → allowsInit val = true) h.toChained pull pull'
    ctx setting owner name (fun _ => .gather fun _ _ hField => hField) fun type init hInit =>
      .within _ (h.staticInit fun val hVal hSized =>
        h.of_imp (hPull { ctx with owner } (some type) val) fun hAllows =>
          ⟨hAllows val (hInit.symm.trans hVal), hSized⟩)
  refine h.bind ⟨fun st => .refl st, fun _ _ _ => rfl⟩ fun st => h.ite (h.pure _) ?_
  refine (h.bind (.gather fun _ _ hField => mem_cons_of_mem _ hField) fun _ => hDeclare).of_fine
    fun st hFine val hVal => ?_
  have hSeen := (hDeclare.grown { st with gathered :=
    { st.gathered with seenStatics := (owner, name) :: st.gathered.seenStatics } }).statics
      (owner, name) mem_cons_self
  exact hFine.statics (owner, name) hSeen val hVal

/-- A call is remembered before its arguments are written, so that a fine end shows the default values of
the method to be free of forbidden constructs. -/
theorem matches_call (whole callee : Expr) (args : List Argument)
    {write write' : List (Option ValueType) → Lower (List OutExpr)}
    (hWrite : ∀ hints, Matches ctx.program P (write hints) (write' hints)) :
    Matches ctx.program P
      (do let found ← meet ctx.program ctx.owner whole callee args
          call pull ctx args found write)
      (do let found ← meet ctx.program ctx.owner whole callee args
          call pull' (ctx.under setting) args found write') := by
  have h := noting_matches ctx.program
  let Fits (found : Callee) : Prop := ∀ key method, found = .source key → ctx.program.method? key = some method →
    allParams allowed method.params = true
  have hCall : ∀ found, Matches ctx.program (P ∧ Fits found) (call pull ctx args found write)
      (call pull' (ctx.under setting) args found write') := by
    refine fun found => h.call args found (fun key method hSrc hMethod param hParam val hVal => ?_) fun hints =>
      h.of_imp (hWrite hints) And.left
    refine h.of_imp (hPull ctx none val) fun hBoth => writable_of_all ?_
    have hAll := all_eq_true.mp (hBoth.2 key method hSrc hMethod) param hParam
    rwa [hVal, allExpr?] at hAll
  have hMeet : Matches ctx.program P (meet ctx.program ctx.owner whole callee args)
      (meet ctx.program ctx.owner whole callee args) :=
    ⟨fun st => ⟨(Keeps.meet _ ctx.owner whole callee args).memo st, fun _ hField => hField⟩, fun _ _ _ => rfl⟩
  refine ⟨fun st => (hMeet.grown st).trans ((hCall _).grown _), fun hP st hFine => ?_⟩
  refine (hCall _).same ⟨hP, fun key method hSrc hMethod => ?_⟩ _ hFine
  obtain ⟨remembered, hRemembered⟩ := Site.records_resolveCall
    ⟨ctx.program, ctx.owner, st.scope⟩ callee args st.memo key hSrc
  exact hFine.defaults remembered key method (((hCall _).grown _).memo.lookup remembered _ hRemembered) hMethod

omit hPull in
theorem matches_recalling {α : Type} {action : Site → Recall α}
    (hAction : ∀ scope, Recall.Stable ctx.program (action ⟨ctx.program, ctx.owner, scope⟩)) :
    Matches ctx.program P (recalling ctx.program ctx.owner action)
      (recalling ctx.program ctx.owner action) :=
  ⟨fun st => ⟨(hAction st.scope).kept st.memo, fun _ hField => hField⟩, fun _ _ _ => rfl⟩

/-- An expression without forbidden constructs is written without blanks. -/
theorem closed_matches : Closed pull pull' ctx setting allowed fun P _ first second =>
    Matches ctx.program P first second where
  toNoting := noting_matches ctx.program
  blank expr hLacks := by
    refine ⟨fun st => .refl st, fun hAll => ?_⟩
    unfold Expr.all at hAll
    cases expr <;> simp [allowed, allowsExpr, Expr.lacksForm] at hAll hLacks
  site := .bind ⟨fun st => .refl st, fun _ _ _ => rfl⟩ fun _ => .pure _
  infer target := matches_recalling ctx fun scope => Site.stable_infer ⟨_, _, scope⟩ target
  static := matches_externalStatic hPull ctx
  call span callee types args _ _ _ := matches_call hPull ctx (.call span callee types args) callee args

theorem matches_writable (hint : Option ValueType) (val : Expr) :
    Matches ctx.program (Writable val) (exprWith pull ctx hint val) (exprWith pull' (ctx.under setting) hint val) := by
  have h := closed_matches hPull ctx
  cases val with
  | newArray _ _ _ init =>
    unfold exprWith
    cases init with
    | none => exact ⟨fun st => .refl st, fun hWritable => nomatch hWritable.2⟩
    | some items =>
      exact h.map (h.of_imp (h.itemsWith _ items) fun hWritable => (Bool.and_eq_true_iff.mp hWritable.1).2)
  | arrayInit _ items =>
    unfold exprWith
    exact h.map (h.of_imp (h.itemsWith _ items) And.left)
  | _ => exact h.of_imp (h.exprWith hint _) And.left

end Pulling

theorem alikePulls_exprOn (setting : Setting) (fuel : Nat) : AlikePulls setting (exprOn fuel) (exprOn fuel) := by
  induction fuel with
  | zero => exact fun _ _ _ => .pure _
  | succ fuel ih => exact fun ctx hint val => matches_writable ih ctx hint val

end Lower

end Shaderlift
