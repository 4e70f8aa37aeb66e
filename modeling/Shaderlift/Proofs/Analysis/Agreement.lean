import Shaderlift.Proofs.Analysis.Checks
import Shaderlift.Proofs.Analysis.Rejection

/-!
# The rules and the collector meet the same calls

The pass that applies the rules and the one that collects calls follow the scope on their own. Where the rules
find no error the two have the same scope at every node, so they meet the same calls in the same order and
give the same answers. The comparison is made at a memo that comes after the rules: collecting the calls of a
method once more from there changes nothing in it.
-/

namespace Shaderlift

open List

/-- An action that remembers calls keeps an invariant of the memo. -/
structure Recall.Carries {α : Type} (Inv : CallMemo → Prop) (action : Recall α) : Prop where
  holds : ∀ memo, Inv memo → Inv (action memo).2

namespace Legality

open Track

/-! ## Checks on the side -/

/-- A check stands aside: it meets no call and leaves the scope alone, and it remembers calls only where it
tells types. -/
structure Aside {α : Type} (program : Program) (owner : String) (action : Check α) : Prop where
  scope : ∀ state, (action state).2.scope = state.scope
  met : ∀ state, (action state).2.met = state.met
  memo : ∀ {Inv : CallMemo → Prop},
    (∀ scope expr, Recall.Carries Inv (Site.infer ⟨program, owner, scope⟩ expr)) →
      ∀ state, Inv state.memo → Inv (action state).2.memo

section Aside

variable {prog : Program} {owner : String} {α β : Type}

namespace Aside

theorem pure (val : α) : Aside prog owner (Pure.pure val) := ⟨fun _ => rfl, fun _ => rfl, fun _ _ => id⟩

theorem get : Aside prog owner MonadState.get := ⟨fun _ => rfl, fun _ => rfl, fun _ _ => id⟩

theorem gather (change : Findings → Findings) : Aside prog owner (Track.gather change) :=
  ⟨fun _ => rfl, fun _ => rfl, fun _ _ => id⟩

theorem report (rule : Rule) (span : Span) (args : List String) : Aside prog owner (report rule span args) :=
  .gather _

theorem infer (expr : Expr) : Aside prog owner (recalling prog owner fun site => site.infer expr) :=
  ⟨fun _ => rfl, fun _ => rfl, fun hInfer st => (hInfer st.scope expr).holds st.memo⟩

theorem bind {first : Check α} {next : α → Check β} (hFirst : Aside prog owner first)
    (hNext : ∀ val, Aside prog owner (next val)) : Aside prog owner (first >>= next) where
  scope st := ((hNext _).scope _).trans (hFirst.scope st)
  met st := ((hNext _).met _).trans (hFirst.met st)
  memo hInfer st hInv := (hNext _).memo hInfer _ (hFirst.memo hInfer st hInv)

end Aside

/-- A check on the side that claims nothing. -/
structure Beside (program : Program) (owner : String) (action : Check α) : Prop extends Aside program owner action where
  vouches : Vouches program action True

theorem closed_beside (prog : Program) (owner : String) : Closed prog owner (Beside prog owner) where
  pure val := ⟨.pure val, .done val⟩
  bind hFirst hNext :=
    ⟨hFirst.toAside.bind fun val => (hNext val).toAside, hFirst.vouches.after fun val => (hNext val).vouches⟩
  get := ⟨.get, .get⟩
  report _ _ _ := ⟨.report _ _ _, .report _ _ _⟩
  infer expr := ⟨.infer expr, (closed_vouches prog owner).infer expr⟩

theorem beside_enter (prog : Program) (owner name : String) (inEntry : Bool) :
    Beside prog owner (gather fun findings : Findings => { findings with method := name, inEntry }) :=
  ⟨.gather _, vouches_enter prog name inEntry⟩

end Aside

/-! ## Both passes at once -/

/-- A walk of the collector agrees with one of the rules. From the same scope, if the rules end without an
error and their answers are kept in the last memo, then the collector at the last memo leaves the memo as it
is, ends in the same scope and meets the same calls with the same answers. -/
structure Agrees (program : Program) (last : CallMemo) (walk : Track Unit Unit) (check : Check Unit) : Prop where
  vouches : Vouches program check True
  same : ∀ (state : Tracked Unit) (rules : Tracked Findings), state.memo = last → state.scope = rules.scope →
    Quiet (check rules).2 → (check rules).2.memo.Kept program last →
      (walk state).2.memo = last ∧ (walk state).2.scope = (check rules).2.scope ∧
        ∃ new, (walk state).2.met = new ++ state.met ∧ (check rules).2.met = new ++ rules.met

/-- Report that a call means nothing, or several things. -/
def reportCallee (call : Expr) : Callee → Check Unit
  | .unknown name => report .invalidMethodCall call.span [name]
  | .ambiguous name => report .ambiguousMethodCall call.span [name]
  | _ => pure ()

/-- After it has met a call, the check of the call only adds to the report. -/
theorem checkCall_eq (prog : Program) (owner : String) (call callee : Expr) (args : List Argument)
    (st : Tracked Findings) :
    let met := (meet prog owner call callee args st).2
    ∃ report, (checkCall prog owner call callee args st).2 =
      { met with gathered := { met.gathered with found := report } } := by
  have hReport : ∀ (found : Callee) (met : Tracked Findings), ∃ report,
      (reportCallee call found met).2 = { met with gathered := { met.gathered with found := report } } := by
    intro found met
    cases found with
    | _ => exact ⟨_, rfl⟩
  exact hReport _ (meet prog owner call callee args st).2

theorem state_checkCall (prog : Program) (owner : String) (call callee : Expr) (args : List Argument)
    (st : Tracked Findings) :
    let answer := Site.resolveCall ⟨prog, owner, st.scope⟩ callee args st.memo
    let later := (checkCall prog owner call callee args st).2
    later.memo = answer.2 ∧ later.scope = st.scope ∧ later.met = ⟨call, answer.1⟩ :: st.met := by
  obtain ⟨report, hReport⟩ := checkCall_eq prog owner call callee args st
  dsimp only
  rw [hReport]
  exact ⟨rfl, rfl, rfl⟩

namespace Agrees

variable {prog : Program} {owner : String} {last : CallMemo} {walk : Track Unit Unit} {check : Check Unit}

theorem seq {walk₂ : Track Unit Unit} {check₂ : Check Unit} (hFirst : Agrees prog last walk check)
    (hSecond : Agrees prog last walk₂ check₂) :
    Agrees prog last (do walk; walk₂) (do check; check₂) where
  vouches := hFirst.vouches.after fun _ => hSecond.vouches
  same st rules hMemo hScope hQuiet hKept := by
    obtain ⟨hMiddle, -⟩ := hSecond.vouches.quiet (check rules).2 hQuiet
    have hBefore := (hSecond.vouches.keeps.memo (check rules).2).trans hKept
    obtain ⟨hMemo₁, hScope₁, new₁, hWalk₁, hCheck₁⟩ := hFirst.same st rules hMemo hScope hMiddle hBefore
    obtain ⟨hMemo₂, hScope₂, new₂, hWalk₂, hCheck₂⟩ := hSecond.same _ _ hMemo₁ hScope₁ hQuiet hKept
    refine ⟨hMemo₂, hScope₂, new₂ ++ new₁, ?_, ?_⟩
    · rw [append_assoc, ← hWalk₁]
      exact hWalk₂
    · rw [append_assoc, ← hCheck₁]
      exact hCheck₂

theorem before {α : Type} {first : Check α} {next : α → Check Unit} (hFirst : Beside prog owner first)
    (hNext : ∀ val, Agrees prog last walk (next val)) : Agrees prog last walk (first >>= next) where
  vouches := hFirst.vouches.after fun val => (hNext val).vouches
  same st rules hMemo hScope hQuiet hKept := by
    have hSame := (hNext (first rules).1).same st (first rules).2 hMemo
      (hScope.trans (hFirst.scope rules).symm) hQuiet hKept
    rw [hFirst.met rules] at hSame
    exact hSame

theorem done : Agrees prog last (pure ()) (pure ()) where
  vouches := .done ()
  same _ _ hMemo hScope _ _ := ⟨hMemo, hScope, [], rfl, rfl⟩

theorem afterwards {next : Check Unit} (hWalk : Agrees prog last walk check)
    (hNext : Beside prog owner next) : Agrees prog last walk (do check; next) := by
  have hBoth : Agrees prog last (do walk; pure ()) (do check; next; pure ()) := hWalk.seq (.before hNext fun _ => .done)
  exact hBoth

theorem of_reject (hReject : Vouches prog check False) : Agrees prog last walk check where
  vouches := hReject.weaken fun _ => trivial
  same _ rules _ _ hQuiet _ := (hReject.quiet rules hQuiet).2.elim

theorem within (change : Scope → Scope) (hWalk : Agrees prog last walk check) :
    Agrees prog last (within change walk) (within change check) where
  vouches := hWalk.vouches.within change
  same st rules hMemo hScope hQuiet hKept := by
    obtain ⟨hMemo₁, -, hMet⟩ := hWalk.same { st with scope := change st.scope }
      { rules with scope := change rules.scope } hMemo (congrArg change hScope) hQuiet hKept
    exact ⟨hMemo₁, hScope, hMet⟩

/-- Both passes meet a call with the same answer. -/
theorem call (span : Span) (callee : Expr) (types : List TypeExpr) (args : List Argument) :
    Agrees prog last
      (do let _ ← meet prog owner (.call span callee types args) callee args)
      (checkCall prog owner (.call span callee types args) callee args) where
  vouches := vouches_checkCall prog owner _ callee args
  same st rules hMemo hScope _ hKept := by
    obtain ⟨hRulesMemo, hRulesScope, hRulesMet⟩ := state_checkCall prog owner (.call span callee types args)
      callee args rules
    rw [hRulesMemo] at hKept
    have hAgain := (Site.stable_resolveCall ⟨prog, owner, rules.scope⟩ callee args).replay rules.memo last hKept
    rw [← hScope, ← hMemo] at hAgain
    refine ⟨?_, hScope.trans hRulesScope.symm, [⟨.call span callee types args, _⟩], ?_, hRulesMet⟩
    · show (meet prog owner _ callee args st).2.memo = last
      rw [meet_eq, hAgain, hMemo]
    · show (meet prog owner _ callee args st).2.met = _
      rw [meet_eq, hAgain, hScope]
      rfl

/-- Both passes declare names under the same types. -/
theorem declareAll (type : TypeExpr) (declarators : List Declarator) :
    Agrees prog last (declareAll prog owner type declarators) (declareAll prog owner type declarators) := by
  induction declarators with
  | nil => exact .done
  | cons declarator rest ih =>
    have hDeclare : Agrees prog last
        (do
          let known ← recalling prog owner fun site => site.declaredType type declarator.init
          inScope (·.declare declarator.name known))
        (do
          let known ← recalling prog owner fun site => site.declaredType type declarator.init
          inScope (·.declare declarator.name known)) :=
      { vouches := .after (.recalling prog owner fun scope =>
          Site.stable_declaredType ⟨prog, owner, scope⟩ type declarator.init) fun _ =>
            .of_found_eq (.inScope _) fun _ => rfl
        same := fun st rules hMemo hScope _ hKept => by
          have hAgain := (Site.stable_declaredType ⟨prog, owner, rules.scope⟩ type declarator.init).replay
            rules.memo last hKept
          rw [← hScope, ← hMemo] at hAgain
          refine ⟨?_, ?_, [], rfl, rfl⟩
          · show (Site.declaredType ⟨prog, owner, st.scope⟩ type declarator.init st.memo).2 = last
            rw [hAgain, hMemo]
          · show st.scope.declare declarator.name
              (Site.declaredType ⟨prog, owner, st.scope⟩ type declarator.init st.memo).1 =
                rules.scope.declare declarator.name
                  (Site.declaredType ⟨prog, owner, rules.scope⟩ type declarator.init rules.memo).1
            rw [hAgain, hScope] }
    exact hDeclare.seq ih

theorem inside (inEntry : Bool) (method : MethodDecl) (hWalk : Agrees prog last walk check) :
    Agrees prog last (inMethod prog method walk) (inside prog owner inEntry method check) := by
  have hClosed := closed_beside prog owner
  refine .before (hClosed.checkModifiers method.header) fun _ => .before hClosed.get fun before => ?_
  exact .before (beside_enter prog owner _ _) fun _ =>
    .afterwards (hWalk.within _) (beside_enter prog owner _ _)

end Agrees

/-- The hooks of the collector agree with those of the rules. -/
theorem pairs_collector (prog : Program) (owner : String) (last : CallMemo) :
    (Closure.visitor prog owner).Relates (visitor prog owner) .any fun walks _ => Agrees prog last walks.1 walks.2 where
  done := .done
  seq := .seq
  weaken hWalk _ := hWalk
  type type := .before ((closed_beside prog owner).checkShape type) fun _ => .done
  expr expr _ _ hWalk := by
    cases expr with
    | call span callee types args => exact (Agrees.call span callee types args).seq hWalk
    | _ => exact .before ((closed_beside prog owner).checkExpr _ fun _ _ _ _ => nofun) fun _ => hWalk
  pattern pattern _ _ hWalk := by
    have hCheck := (closed_beside prog owner).checkPattern pattern
    cases pattern with
    | recursive => exact .of_reject (rejects_recursive prog _)
    | _ => exact .before hCheck fun _ => hWalk
  stmt stmt _ _ hWalk := by
    have hCheck := (closed_beside prog owner).checkStmt stmt
    cases stmt with
    | forLoop => exact .before hCheck fun _ => hWalk.within _
    | forEach =>
      exact .of_reject (.weaken (.bind (.reject rfl _ _) fun _ => hWalk.vouches.within _) And.left)
    | _ => exact .before hCheck fun _ => hWalk
  decl decl _ _ hWalk :=
    .before ((closed_beside prog owner).checkDecl decl) fun _ => hWalk.seq (.declareAll decl.type decl.declarators)
  block _ _ _ hWalk := hWalk.within _
  method method _ _ hWalk := hWalk.inside false method

/-- The collector and the rules agree on every method. -/
theorem agrees_checkMethod (prog : Program) (owner : String) (last : CallMemo) (inEntry : Bool) (method : MethodDecl) :
    Agrees prog last ((Closure.visitor prog owner).visitMethod method) (checkMethod prog owner inEntry method) := by
  unfold Visitor.visitMethod
  obtain ⟨header, body⟩ := method
  exact ((pairs_collector prog owner last).walkMethod ⟨header, body⟩).inside inEntry ⟨header, body⟩

/-! ## Whole shaders -/

section Shaders

variable (prog : Program) (owner : String)

theorem closed_scope : Closed prog owner fun {α} (action : Check α) => ∀ st, (action st).2.scope = st.scope where
  pure _ _ := rfl
  bind hFirst hNext st := (hNext _ _).trans (hFirst st)
  get _ := rfl
  report _ _ _ _ := rfl
  infer _ _ := rfl

theorem scope_checkExpr (expr : Expr) (st : Tracked Findings) :
    (checkExpr prog owner expr st).2.scope = st.scope :=
  (closed_scope prog owner).checkAnyExpr (fun _ callee _ args st => (state_checkCall prog owner _ callee args st).2.1)
    expr st

/-- Walking expressions leaves the scope alone. -/
theorem scope_visitor : (visitor prog owner).RespectsExprs NodeTest.any
    fun action _ => ∀ st, (action st).2.scope = st.scope where
  done _ := rfl
  seq hFirst hSecond st := (hSecond _).trans (hFirst st)
  weaken hAction _ := hAction
  type type := (closed_scope prog owner).checkShape type
  expr expr _ _ hWalk st := (hWalk _).trans (scope_checkExpr prog owner expr st)
  pattern pattern _ _ hWalk st := by
    have hPat := (closed_scope prog owner).checkPattern pattern st
    cases pattern with
    | recursive => exact hPat
    | _ => exact (hWalk _).trans hPat

theorem sweeps_scope : Sweeps prog owner NodeTest.any fun action _ => ∀ st, (action st).2.scope = st.scope where
  exprs := scope_visitor prog owner
  note _ := rfl
  warn _ _ _ := rfl

theorem scope_checkMethod (inEntry : Bool) (method : MethodDecl) (st : Tracked Findings) :
    (checkMethod prog owner inEntry method st).2.scope = st.scope :=
  (closed_scope prog owner).checkModifiers method.header st

theorem scope_checkMembers (members : List Member) (pos : Nat) (st : Tracked Findings) :
    (checkMembers prog pos members st).2.scope = st.scope :=
  @Sweeps.checkMembers prog NodeTest.any _ (sweeps_scope prog _) (fun _ => True) (fun _ _ => trivial)
    (scope_checkMethod prog _) (fun _ => trivial) (fun _ => trivial) (fun _ => trivial) pos members st

/-- The rules have walked a method in full, as the entry point or not, in a pass that has met the calls of a
log. -/
def Checked (last : CallMemo) (log : List MetCall) (inEntry : Bool) (method : MethodDecl) : Prop :=
  ∃ rules, rules.scope = .empty ∧
    Quiet (checkMethod prog owner inEntry method rules).2 ∧
    (checkMethod prog owner inEntry method rules).2.memo.Kept prog last ∧
    (checkMethod prog owner inEntry method rules).2.met <:+ log

variable {prog} {last : CallMemo}

def methodsIn (members : List Member) : List MethodDecl :=
  members.filterMap fun
    | .method method => some method
    | _ => none

variable {method : MethodDecl}

/-- The method at the position of the entry point is walked as the entry point, and no other is. -/
theorem checked_members (members : List Member) (pos : Nat) (st : Tracked Findings)
    (hScope : st.scope = .empty) (hQuiet : Quiet (checkMembers prog pos members st).2)
    (hKept : (checkMembers prog pos members st).2.memo.Kept prog last) {index : Nat}
    (hMethod : (methodsIn members)[index]? = some method) :
    Checked prog prog.shader.name last (checkMembers prog pos members st).2.met
      (prog.entry.map Prod.fst == some (pos + index)) method := by
  induction members generalizing pos st index with
  | nil => cases hMethod
  | cons member rest ih =>
    cases member with
    | method first =>
      have hRest := passes_checkMembers (visitor_respects prog) (pos + 1) rest
      cases index with
      | zero =>
        cases hMethod
        exact ⟨st, hScope, (hRest.quiet _ hQuiet).1, (hRest.keeps.memo _).trans hKept, hRest.keeps.met _⟩
      | succ index =>
        rw [Nat.add_comm index 1, ← Nat.add_assoc]
        exact ih (pos + 1) _ ((scope_checkMethod prog _ _ first st).trans hScope) hQuiet hKept hMethod
    | field field => exact ih pos _ (((sweeps_scope prog _).checkField field st).trans hScope) hQuiet hKept hMethod
    | property | constructor | type => exact ih pos st hScope hQuiet hKept hMethod

theorem checked_helpers (keys : List MethodKey) (st : Tracked Findings)
    (hScope : st.scope = .empty) (hQuiet : Quiet (checkHelpers prog keys st).2)
    (hKept : (checkHelpers prog keys st).2.memo.Kept prog last) {key : MethodKey} (hKey : key ∈ keys)
    (hOwner : key.owner ≠ prog.shader.name) (hMethod : prog.method? key = some method) :
    Checked prog key.owner last (checkHelpers prog keys st).2.met false method := by
  induction keys generalizing st with
  | nil => cases hKey
  | cons first rest ih =>
    have hRest := passes_checkHelpers (visitor_respects prog) rest
    unfold checkHelpers at hQuiet hKept ⊢
    dsimp only at hQuiet hKept ⊢
    by_cases hOwn : (first.owner == prog.shader.name) = true
    · rw [if_pos hOwn] at hQuiet hKept ⊢
      have hMem : key ∈ rest := by
        refine (mem_cons.mp hKey).resolve_left ?_
        rintro rfl
        exact hOwner (beq_iff_eq.mp hOwn)
      exact ih st hScope hQuiet hKept hMem
    · rw [if_neg hOwn] at hQuiet hKept ⊢
      cases hFirst : prog.method? first with
      | none =>
        rw [hFirst] at hQuiet hKept
        have hMem : key ∈ rest := by
          refine (mem_cons.mp hKey).resolve_left ?_
          rintro rfl
          rw [hFirst] at hMethod
          cases hMethod
        exact ih st hScope hQuiet hKept hMem
      | some found =>
        rw [hFirst] at hQuiet hKept
        rcases mem_cons.mp hKey with rfl | hMem
        · rw [hFirst] at hMethod
          cases hMethod
          exact ⟨st, hScope, (hRest.quiet _ hQuiet).1, (hRest.keeps.memo _).trans hKept,
            hRest.keeps.met _⟩
        · exact ih _ ((scope_checkMethod prog _ _ found st).trans hScope) hQuiet hKept hMem

/-- The rules that end without an error have walked the methods of the shader and those of other types that it
needs. -/
theorem checked_all (st : Tracked Findings) (hScope : st.scope = .empty)
    (hQuiet : Quiet (checkAll prog st).2) (hKept : (checkAll prog st).2.memo.Kept prog last) :
    (∀ index method, prog.shader.methods[index]? = some method →
        Checked prog prog.shader.name last (checkAll prog st).2.met (prog.entry.map Prod.fst == some index) method) ∧
      ∀ key ∈ (prog.reachableMethods last).1, key.owner ≠ prog.shader.name → ∀ method, prog.method? key = some method →
          Checked prog key.owner last (checkAll prog st).2.met false method := by
  obtain ⟨start, -, hStart, -, -, hAll⟩ := checkAll_eq prog st
  let members := (checkMembers prog 0 prog.shader.members start).2
  let helpers := prog.reachableMethods members.memo
  let middle : Tracked Findings := { members with memo := helpers.2 }
  have hEnd : (checkAll prog st).2 = (checkHelpers prog helpers.1 middle).2 := hAll
  rw [hEnd] at hQuiet hKept ⊢
  have hHelpers := passes_checkHelpers (visitor_respects prog) helpers.1
  have hNeeded : helpers.2.Kept prog last := (hHelpers.keeps.memo middle).trans hKept
  have hEmpty := hStart.trans hScope
  constructor
  · intro index method hMethod
    change (methodsIn _)[index]? = _ at hMethod
    obtain ⟨rules, hRules, hDone, hMemo, hMet⟩ := checked_members prog.shader.members 0 start hEmpty
      (hHelpers.quiet middle hQuiet).1 ((prog.stable_reachableMethods.kept members.memo).trans hNeeded) hMethod
    rw [Nat.zero_add] at hDone hMemo hMet
    have hMore : members.met <:+ (checkHelpers prog helpers.1 middle).2.met := hHelpers.keeps.met middle
    exact ⟨rules, hRules, hDone, hMemo, hMet.trans hMore⟩
  · intro key hKey hOwner method hMethod
    rw [prog.stable_reachableMethods.replay members.memo last hNeeded] at hKey
    have hMiddle : middle.scope = .empty :=
      (scope_checkMembers prog prog.shader.members 0 start).trans hEmpty
    exact checked_helpers helpers.1 middle hMiddle hQuiet hKept hKey hOwner hMethod

end Shaders

end Legality

end Shaderlift
