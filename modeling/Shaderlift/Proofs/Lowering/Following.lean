import Shaderlift.Proofs.Lowering.Doubt

/-!
# Lowering follows the rules

`Follows` compares a part of lowering with the walk of the rules over the same source: from scopes that are alike
but for the names in doubt both end in such scopes, and lowering meets only calls that the rules have met there,
with the same answers, calls that are in doubt, or calls of values that are pulled in from elsewhere.
-/

namespace Shaderlift

open List

/-- The walk of the rules over what is lowered in a context. -/
abbrev LowerContext.rules (context : LowerContext) := Legality.visitor context.program context.owner

namespace Lower

open Track Legality

variable {α β γ : Type} {prog : Program} {ref : Reference prog} {owner : String} {doubt doubt' : List String}

/-! ## Calls in doubt -/

namespace Reference

def Spares (ref : Reference prog) (calls : List Expr) : Prop := ∀ call ∈ calls, ∀ callee, ref.Good ⟨call, callee⟩

theorem spares_append {calls more : List Expr} :
    ref.Spares (calls ++ more) ↔ ref.Spares calls ∧ ref.Spares more := forall_mem_append

def sparing (ref : Reference prog) (doubt : List String) : Reference prog :=
  { ref with
    Good := fun met => ref.Good met ∨ met.call.avoids doubt = false
    pulled := fun call callee hPulls => .inl (ref.pulled call callee hPulls) }

def listing (ref : Reference program) (calls : List Expr) : Reference program :=
  { ref with
    Good := fun met => met.call ∈ calls ∨ PullsCall program met.call
    pulled := fun _ _ hPulls => .inr hPulls }

end Reference

variable {scope first second : Scope} {ctx : LowerContext} {rules : Tracked Findings} {decl : LocalDecl}
  {st : Tracked Gathered} {list : List Declarator}

theorem Meets.of_sparing {calls : List Expr} {action : Lower α}
    (hSpares : ref.Spares (calls.filter fun call => !call.avoids doubt))
    (hListed : Meets (ref.listing calls) scope doubt action) (hAction : Meets (ref.sparing doubt) scope doubt action) :
    Meets ref scope doubt action where
  memo := hAction.memo
  stays := hAction.stays
  met st hAlike hKept met hMem := by
    rcases hAction.met st hAlike hKept met hMem with hBefore | hGood | hDoubtful
    · exact .inl hBefore
    · exact .inr hGood
    · rcases hListed.met st hAlike hKept met hMem with hBefore | hCall | hPulls
      · exact .inl hBefore
      · exact .inr (hSpares met.call (mem_filter.mpr ⟨hCall, by simpa using hDoubtful⟩) met.callee)
      · exact .inr (ref.pulled met.call met.callee hPulls)

/-- The calls that are met in writing an expression stand in it, or are pulled in. -/
theorem meets_hinted_listing (ref : Reference ctx.program) (scope : Scope) (doubt : List String)
    (hint : Option ValueType) (val : Expr) :
    Meets (ref.listing val.calls) scope doubt (hinted ctx hint val) :=
  meets_hinted hint (Expr.all_ofCalls_of_calls fun _ _ _ _ hMem _ _ => .inl hMem)

theorem meets_hinted_of_sparing {ref : Reference ctx.program} (hint : Option ValueType) {val : Expr}
    (hSpares : ref.Spares (val.doubtful doubt))
    (hCalls : GoodCalls (ref.sparing doubt) ctx.owner scope doubt val) :
    Meets ref scope doubt (hinted ctx hint val) :=
  .of_sparing hSpares (meets_hinted_listing ref scope doubt hint val) (meets_hinted hint hCalls)

/-! ## What the rules have seen -/

/-- The rules have come to a state without an error, their answers are kept until the end of the run, and all
calls that they have met since the start are good. -/
structure Backed (ref : Reference prog) (rules : Tracked Findings) : Prop where
  quiet : Quiet rules
  memo : rules.memo.Kept prog ref.last
  met : ∀ new, rules.met = new ++ ref.start → ∀ met ∈ new, ref.Good met

theorem Backed.before {check : Check α} {P : Prop} (hCheck : Vouches prog check P)
    (hBacked : Backed ref (check rules).2) : Backed ref rules where
  quiet := (hCheck.quiet rules hBacked.quiet).1
  memo := (hCheck.keeps.memo rules).trans hBacked.memo
  met new hNew met hMem := by
    obtain ⟨more, hMore⟩ := hCheck.keeps.met rules
    rw [hNew, ← append_assoc] at hMore
    exact hBacked.met (more ++ new) hMore.symm met (mem_append_right more hMem)

/-- A walk of the rules over expressions backs a claim about what is seen from a scope. -/
structure Backs (ref : Reference prog) (scope : Scope) (check : Check Unit) (claim : Prop) : Prop where
  vouches : Vouches prog check True
  stays : ∀ rules : Tracked Findings, (check rules).2.scope = rules.scope
  holds : ∀ rules : Tracked Findings, rules.scope = scope → ref.start <:+ rules.met →
    Backed ref (check rules).2 → claim

namespace Backs

variable {scope : Scope} {check check₂ : Check Unit} {P Q : Prop}

theorem of_beside (hCheck : Beside prog owner check) : Backs ref scope check True :=
  ⟨hCheck.vouches, hCheck.scope, fun _ _ _ _ => trivial⟩

theorem weaken (hCheck : Backs ref scope check P) (hClaim : P → Q) : Backs ref scope check Q :=
  ⟨hCheck.vouches, hCheck.stays, fun rules hScope hStart hBacked => hClaim (hCheck.holds rules hScope hStart hBacked)⟩

theorem seq (hFirst : Backs ref scope check P) (hSecond : Backs ref scope check₂ Q) :
    Backs ref scope (do check; check₂) (P ∧ Q) where
  vouches := hFirst.vouches.after fun _ => hSecond.vouches
  stays rules := (hSecond.stays _).trans (hFirst.stays rules)
  holds rules hScope hStart hBacked := by
    refine ⟨hFirst.holds rules hScope hStart (hBacked.before hSecond.vouches), ?_⟩
    exact hSecond.holds (check rules).2 ((hFirst.stays rules).trans hScope)
      (hStart.trans (hFirst.vouches.keeps.met rules)) hBacked

/-- The rules meet a call with the answer that it has at the end of the run, wherever it is seen from, if it is
not in doubt. -/
theorem call (doubt : List String) (span : Span) (callee : Expr) (types : List TypeExpr) (args : List Argument) :
    Backs ref scope (checkCall prog owner (.call span callee types args) callee args)
      (∀ seen, scope.AlikeBut doubt seen →
        (ref.sparing doubt).Good ⟨.call span callee types args, ref.answer owner seen callee args⟩) where
  vouches := vouches_checkCall prog owner (.call span callee types args) callee args
  stays rules := (state_checkCall prog owner (.call span callee types args) callee args rules).2.1
  holds rules hScope hStart hBacked seen hAlike := by
    by_cases hCall : (Expr.call span callee types args).avoids doubt = true
    · obtain ⟨hMemo, -, hMet⟩ := state_checkCall prog owner (.call span callee types args) callee args rules
      obtain ⟨earlier, hEarlier⟩ := hStart
      have hKept := hBacked.memo
      rw [hMemo] at hKept
      have hSame := (Site.same_resolveCall hAlike prog owner hCall).same ref.last ref.meant
      have hAgain := (Site.stable_resolveCall ⟨prog, owner, rules.scope⟩ callee args).replay rules.memo ref.last
        hKept
      have hAnswer : ref.answer owner seen callee args =
          (Site.resolveCall ⟨prog, owner, rules.scope⟩ callee args rules.memo).1 := by
        rw [Reference.answer, ← hSame, ← hScope, hAgain]
      rw [hAnswer]
      refine .inl (hBacked.met (⟨.call span callee types args, _⟩ :: earlier) ?_ _ mem_cons_self)
      rw [hMet, ← hEarlier, cons_append]
    · exact .inr (Bool.not_eq_true _ |>.mp hCall)

end Backs

/-- The rules back all calls of an expression that they walk, but for those in doubt. -/
theorem respects_backs (ref : Reference prog) (owner : String) (scope : Scope) (doubt : List String) :
    (visitor prog owner).RespectsExprs
      (.ofCalls fun call callee args => ∀ seen, scope.AlikeBut doubt seen →
        (ref.sparing doubt).Good ⟨call, (ref.sparing doubt).answer owner seen callee args⟩)
      (Backs ref scope) where
  done := ⟨.done (), fun _ => rfl, fun _ _ _ _ => trivial⟩
  seq := .seq
  weaken := .weaken
  type type := .of_beside ((closed_beside prog owner).checkShape type)
  expr expr _ _ hWalk := by
    by_cases hCall : ∃ span callee types args, expr = .call span callee types args
    · obtain ⟨span, callee, types, args, rfl⟩ := hCall
      exact .weaken (.seq (.call doubt span callee types args) hWalk) fun hBoth => ⟨NodeTest.ofCalls_call.mpr hBoth.1, hBoth.2⟩
    · have hOther : ∀ span callee types args, expr ≠ .call span callee types args :=
        fun span callee types args hEq => hCall ⟨span, callee, types, args, hEq⟩
      have hCheck := (closed_beside prog owner).checkExpr expr hOther
      refine .weaken (.seq (.of_beside hCheck) hWalk) fun hBoth => ⟨?_, hBoth.2⟩
      cases expr with
      | call span callee types args => exact absurd rfl (hOther span callee types args)
      | _ => rfl
  pattern pattern _ _ hWalk := by
    have hCheck := (closed_beside prog owner).checkPattern pattern
    cases pattern with
    | recursive span =>
      exact ⟨hCheck.vouches, hCheck.scope, fun rules _ _ hBacked =>
        ((rejects_recursive prog span).quiet rules hBacked.quiet).2.elim⟩
    | _ => exact .weaken (.seq (.of_beside hCheck) hWalk) fun hBoth => ⟨rfl, hBoth.2⟩

/-! ## Following -/

/-- A part of lowering follows a walk of the rules. From scopes that are alike but for some names in doubt, if the
rules end backed and the answers of lowering are kept until the end of the run, then both end in scopes that are
alike but for other names in doubt, and lowering has met good calls only. -/
structure Follows (ref : Reference prog) (doubt doubt' : List String) (check : Check Unit) (write : Lower α) :
    Prop where
  vouches : Vouches prog check True
  memo : ∀ state : Tracked Gathered, state.memo.Kept prog (write state).2.memo
  follows : ∀ (rules : Tracked Findings) (state : Tracked Gathered), ref.start <:+ rules.met →
    rules.scope.AlikeBut doubt state.scope → Backed ref (check rules).2 →
      (write state).2.memo.Kept prog ref.last →
        (check rules).2.scope.AlikeBut doubt' (write state).2.scope ∧
          ∀ met ∈ (write state).2.met, met ∈ state.met ∨ ref.Good met

namespace Follows

variable {check check₂ : Check Unit} {write : Lower α} {doubt'' : List String}

theorem seq {next : α → Lower β} (hFirst : Follows ref doubt doubt' check write)
    (hSecond : ∀ val, Follows ref doubt' doubt'' check₂ (next val)) :
    Follows ref doubt doubt'' (do check; check₂) (write >>= next) where
  vouches := hFirst.vouches.after fun _ => (hSecond (write (.start .empty .empty)).1).vouches
  memo st := (hFirst.memo st).trans ((hSecond _).memo _)
  follows rules st hStart hAlike hBacked hKept := by
    have hNext := hSecond (write st).1
    obtain ⟨hMiddle, hMet₁⟩ := hFirst.follows rules st hStart hAlike (hBacked.before hNext.vouches)
      ((hNext.memo _).trans hKept)
    obtain ⟨hEnd, hMet₂⟩ := hNext.follows (check rules).2 (write st).2
      (hStart.trans (hFirst.vouches.keeps.met rules)) hMiddle hBacked hKept
    refine ⟨hEnd, fun met hMem => ?_⟩
    rcases hMet₂ met hMem with hBefore | hGood
    · exact hMet₁ met hBefore
    · exact .inr hGood

theorem map {result : α → β} (hWrite : Follows ref doubt doubt' check write) :
    Follows ref doubt doubt' check (do let val ← write; pure (result val)) :=
  ⟨hWrite.vouches, hWrite.memo, hWrite.follows⟩

/-- The rules check something on the side first. -/
theorem before {first : Check β} {next : β → Check Unit} (hFirst : Beside prog owner first)
    (hNext : ∀ val, Follows ref doubt doubt' (next val) write) : Follows ref doubt doubt' (first >>= next) write where
  vouches := hFirst.vouches.after fun val => (hNext val).vouches
  memo := (hNext (first (.start .empty ⟨"", false, []⟩)).1).memo
  follows rules st hStart hAlike hBacked hKept := by
    refine (hNext (first rules).1).follows (first rules).2 st ?_ ?_ hBacked hKept
    · exact hStart.trans (hFirst.vouches.keeps.met rules)
    · rw [hFirst.scope rules]
      exact hAlike

theorem of_reject (hReject : Vouches prog check False)
    (hMemo : ∀ st : Tracked Gathered, st.memo.Kept prog (write st).2.memo) :
    Follows ref doubt doubt' check write where
  vouches := hReject.weaken fun _ => trivial
  memo := hMemo
  follows rules _ _ _ hBacked _ := (hReject.quiet rules hBacked.quiet).2.elim

/-- What the rules back about expressions is all that writing them needs. -/
theorem of_backs {claim : Scope → Prop} (hCheck : ∀ scope, Backs ref scope check (claim scope))
    (hMemo : ∀ st : Tracked Gathered, st.memo.Kept prog (write st).2.memo)
    (hWrite : ∀ scope, claim scope → Meets ref scope doubt write) : Follows ref doubt doubt check write where
  vouches := (hCheck .empty).vouches
  memo := hMemo
  follows rules st hStart hAlike hBacked hKept := by
    have hMeets := hWrite rules.scope ((hCheck rules.scope).holds rules rfl hStart hBacked)
    rw [(hCheck rules.scope).stays rules, hMeets.stays st]
    exact ⟨hAlike, hMeets.met st hAlike hKept⟩

/-- Lowering does something in which the rules have no part. -/
theorem of_meets (hWrite : ∀ scope, Meets ref scope doubt write) : Follows ref doubt doubt (pure ()) write := by
  have hNothing : ∀ scope, Backs ref scope (pure ()) True :=
    fun _ => ⟨.done (), fun _ => rfl, fun _ _ _ _ => trivial⟩
  exact .of_backs hNothing (hWrite .empty).memo fun scope _ => hWrite scope

theorem done (val : α) : Follows ref doubt doubt (pure ()) (pure val) := .of_meets fun _ => .pure val

/-- The rules check something on the side last. -/
theorem afterwards (hWrite : Follows ref doubt doubt' check write) (hNext : Beside prog owner check₂) :
    Follows ref doubt doubt' (do check; check₂) write := by
  have hBoth : Follows ref doubt doubt' (do check; check₂; pure ()) (write >>= pure) :=
    hWrite.seq fun val => .before hNext fun _ => .done val
  exact hBoth

/-- Both go into scopes that are alike and come back. -/
theorem within {change change' : Scope → Scope} (hChange : ∀ scope seen : Scope, scope.AlikeBut doubt seen →
      (change scope).AlikeBut doubt (change' seen)) (hWrite : Follows ref doubt doubt' check write) :
    Follows ref doubt doubt (within change check) (within change' write) where
  vouches := hWrite.vouches.within change
  memo st := hWrite.memo { st with scope := change' st.scope }
  follows rules st hStart hAlike hBacked hKept := by
    have hInner : Backed ref (check { rules with scope := change rules.scope }).2 :=
      ⟨hBacked.quiet, hBacked.memo, hBacked.met⟩
    obtain ⟨-, hMet⟩ := hWrite.follows { rules with scope := change rules.scope }
      { st with scope := change' st.scope } hStart (hChange _ _ hAlike) hInner hKept
    exact ⟨hAlike, hMet⟩

/-- Lowering does something first in which the rules have no part. -/
theorem prepare {first : Lower β} {next : β → Lower α} (hFirst : ∀ scope, Meets ref scope doubt first)
    (hNext : ∀ val, Follows ref doubt doubt' check (next val)) : Follows ref doubt doubt' check (first >>= next) :=
  (of_meets hFirst).seq hNext

theorem inside (owner : String) (inEntry : Bool) (method : MethodDecl)
    (hWrite : Follows ref doubt doubt' (inMethod prog method check) write) :
    Follows ref doubt doubt' (Legality.inside prog owner inEntry method check) write := by
  have hClosed := closed_beside prog owner
  refine .before (hClosed.checkModifiers method.header) fun _ => .before hClosed.get fun before => ?_
  exact .before (beside_enter prog owner _ _) fun _ => .afterwards hWrite (beside_enter prog owner _ _)

variable {names : List String}

/-- Lowering takes a frame of its own. What the rules have declared is in doubt from then on. -/
theorem framed_right (hNames : Declaring names check)
    (hWrite : Follows ref doubt doubt' check write) : Follows ref doubt (names ++ doubt) check (framed write) where
  vouches := hWrite.vouches
  memo st := hWrite.memo { st with scope := st.scope.push }
  follows rules st hStart hAlike hBacked hKept := by
    obtain ⟨-, hMet⟩ := hWrite.follows rules { st with scope := st.scope.push } hStart hAlike.push_right hBacked
      hKept
    exact ⟨(hNames.scope rules).trans hAlike, hMet⟩

/-- Lowering takes two parts in the other order. In the part that it takes last, what the other part declares is in
doubt. -/
theorem swap {write₂ : Lower β} {result : β → α → γ}
    (hFirst : Follows ref (names ++ doubt') doubt'' check write) (hStays : Declaring [] check)
    (hWriteStays : ∀ st : Tracked Gathered, (write st).2.scope = st.scope)
    (hSecond : Follows ref doubt doubt' check₂ write₂) (hNames : Declaring names check₂) :
    Follows ref doubt doubt' (do check; check₂) (do
      let second ← write₂
      let first ← write
      pure (result second first)) where
  vouches := hFirst.vouches.after fun _ => hSecond.vouches
  memo st := (hSecond.memo st).trans (hFirst.memo _)
  follows rules st hStart hAlike hBacked hKept := by
    have hMiddle : (check rules).2.scope.AlikeBut doubt st.scope := (hStays.scope rules).trans hAlike
    obtain ⟨hEnd, hMet₂⟩ := hSecond.follows (check rules).2 st
      (hStart.trans (hFirst.vouches.keeps.met rules)) hMiddle hBacked ((hFirst.memo _).trans hKept)
    have hNamed : rules.scope.AlikeBut (names ++ doubt') (write₂ st).2.scope :=
      ((hStays.scope rules).symm.trans (hNames.scope (check rules).2).symm).trans hEnd
    obtain ⟨-, hMet₁⟩ := hFirst.follows rules (write₂ st).2 hStart hNamed (hBacked.before hSecond.vouches) hKept
    refine ⟨?_, fun met hMem => ?_⟩
    · show (check₂ (check rules).2).2.scope.AlikeBut doubt' (write (write₂ st).2).2.scope
      rw [hWriteStays]
      exact hEnd
    · rcases hMet₁ met hMem with hBefore | hGood
      · exact hMet₂ met hBefore
      · exact .inr hGood

end Follows

/-! ## Declarations -/

def declareEach (type : Option ValueType) (list : List Declarator) (scope : Scope) : Scope :=
  list.foldl (fun scope declarator => scope.declare declarator.name type) scope

/-- Names that are declared under one type on both sides are no longer in doubt. -/
theorem alikeBut_declareEach (type : Option ValueType) (list : List Declarator) (h : first.AlikeBut doubt second) :
    (declareEach type list first).AlikeBut (doubt.filter fun name => !(list.map Declarator.name).contains name)
      (declareEach type list second) := by
  induction list generalizing first second doubt with
  | nil => exact h.mono fun name hName => mem_filter.mpr ⟨hName, rfl⟩
  | cons declarator rest ih =>
    refine (ih (h.declare declarator.name type)).mono fun name hName => ?_
    simpa [and_assoc, and_comm] using hName

/-- Names that are declared on one side come in doubt. -/
theorem alikeBut_declareEach_right (type : Option ValueType) (list : List Declarator) (scope : Scope) :
    scope.AlikeBut (list.map Declarator.name) (declareEach type list scope) := by
  induction list generalizing scope with
  | nil => exact .refl scope []
  | cons declarator rest ih =>
    have hFirst : scope.AlikeBut [declarator.name] (scope.declare declarator.name type) :=
      (Scope.AlikeBut.refl scope []).declare_right declarator.name type
    exact hFirst.trans (ih _)

/-- The type of a declaration at the end of the run: the written type, or that of the first initial value. -/
def Reference.typeOf (ref : Reference prog) (owner : String) (scope : Scope) (decl : LocalDecl) :
    Option ValueType :=
  if decl.type.isInferred then
    match decl.declarators.head?.bind Declarator.init with
    | some init => (Site.infer ⟨prog, owner, scope⟩ init ref.last).1
    | none => none
  else prog.valueType? decl.type

theorem scope_declareAll_written {type : TypeExpr} {known : ValueType} (hWritten : ¬type.isInferred = true)
    (hKnown : prog.valueType? type = some known) (list : List Declarator) (rules : Tracked Findings) :
    (declareAll prog owner type list rules).2.scope = declareEach (some known) list rules.scope := by
  have hDeclared : ∀ scope init, Site.declaredType ⟨prog, owner, scope⟩ type init = pure (some known) := by
    intro scope init
    unfold Site.declaredType
    rw [if_neg hWritten, hKnown]
  induction list generalizing rules with
  | nil => rfl
  | cons declarator rest ih =>
    refine (ih _).trans (congrArg (declareEach (some known) rest) ?_)
    show rules.scope.declare declarator.name
      (Site.declaredType ⟨prog, owner, rules.scope⟩ type declarator.init rules.memo).1 = _
    rw [hDeclared]
    rfl

/-- The rules declare the names of a declaration that settles them under its type. -/
theorem scope_declareAll (hSettles : decl.settles prog doubt = true) (rules : Tracked Findings)
    (hKept : (declareAll prog owner decl.type decl.declarators rules).2.memo.Kept prog ref.last) :
    (declareAll prog owner decl.type decl.declarators rules).2.scope =
      declareEach (ref.typeOf owner rules.scope decl) decl.declarators rules.scope := by
  unfold LocalDecl.settles at hSettles
  by_cases hInferred : decl.type.isInferred = true
  · rw [if_pos hInferred] at hSettles
    match hList : decl.declarators, hSettles with
    | [], _ => rfl
    | [declarator], _ =>
      rw [hList] at hKept
      have hAgain := (Site.stable_declaredType ⟨prog, owner, rules.scope⟩ decl.type declarator.init).replay
        rules.memo ref.last hKept
      have hTypeOf : ref.typeOf owner rules.scope decl =
          (Site.declaredType ⟨prog, owner, rules.scope⟩ decl.type declarator.init ref.last).1 := by
        unfold Reference.typeOf Site.declaredType
        rw [if_pos hInferred, if_pos hInferred, hList]
        show (match declarator.init with | some init => _ | none => none) = _
        cases declarator.init <;> rfl
      rw [hTypeOf, hAgain]
      rfl
    | _ :: _ :: _, hSettles => cases hSettles
  · rw [if_neg hInferred] at hSettles
    obtain ⟨known, hKnown⟩ := Option.isSome_iff_exists.mp hSettles
    rw [scope_declareAll_written hInferred hKnown, Reference.typeOf, if_neg hInferred, hKnown]

/-- A declaration that settles its names has one type as seen from both sides. -/
theorem Reference.typeOf_alike (hSettles : decl.settles prog doubt = true) (h : first.AlikeBut doubt second) :
    ref.typeOf owner first decl = ref.typeOf owner second decl := by
  unfold LocalDecl.settles at hSettles
  unfold Reference.typeOf
  split
  · rename_i hInferred
    rw [if_pos hInferred] at hSettles
    match hList : decl.declarators, hSettles with
    | [], _ => rfl
    | [declarator], hSettles =>
      show (match declarator.init with | some init => _ | none => none) =
        (match declarator.init with | some init => _ | none => none)
      cases hInit : declarator.init with
      | none => rfl
      | some init =>
        have hAvoids : declarator.init.all (Expr.avoids doubt) = true := hSettles
        rw [hInit] at hAvoids
        exact congrArg Prod.fst ((Site.same_infer prog owner h init hAvoids).same ref.last ref.meant)
    | _ :: _ :: _, hSettles => cases hSettles
  · rfl

/-- Finding the type of a declaration meets no call. -/
theorem meets_declType {ref : Reference ctx.program} (decl : LocalDecl) :
    Meets ref scope doubt (declType ctx decl) := by
  have hInfer : ∀ init, Meets ref scope doubt (look ctx fun site => site.infer init) := fun init =>
    .of_eq (fun st => (Site.stable_infer ⟨ctx.program, ctx.owner, st.scope⟩ init).kept st.memo)
      (fun _ => rfl) fun _ => rfl
  have hReport : ∀ found : Option ValueType, Meets ref scope doubt (do
      if found.isNone then reportUntyped decl.declarators
      pure found) := by
    intro found
    cases found with
    | none => exact .bind (.gather _) fun _ => .pure _
    | some found => exact .pure _
  unfold declType
  refine .ite ?_ (.pure _)
  split
  · exact .bind (hInfer _) hReport
  · exact hReport none

/-- Lowering finds the type of a declaration. -/
theorem declType_eq {ref : Reference ctx.program} (decl : LocalDecl)
    (hKept : (declType ctx decl st).2.memo.Kept ctx.program ref.last) :
    (declType ctx decl st).1 = ref.typeOf ctx.owner st.scope decl := by
  unfold declType at hKept ⊢
  unfold Reference.typeOf
  split
  · rename_i hInferred
    rw [if_pos hInferred] at hKept
    have hReport : ∀ (found : Option ValueType) (next : Tracked Gathered),
        let reported := (do
          if found.isNone then reportUntyped decl.declarators
          pure found : Lower (Option ValueType)) next
        reported.1 = found ∧ reported.2.memo = next.memo := by
      intro found next
      cases found with
      | _ => exact ⟨rfl, rfl⟩
    cases hInit : decl.declarators.head?.bind Declarator.init with
    | none => rfl
    | some init =>
      rw [hInit] at hKept
      obtain ⟨hType, hMemo⟩ := hReport
        (Site.infer ⟨ctx.program, ctx.owner, st.scope⟩ init st.memo).1
        { st with memo := (Site.infer ⟨ctx.program, ctx.owner, st.scope⟩ init st.memo).2 }
      have hEnd := Eq.mp (congrArg (fun memo : CallMemo => memo.Kept ctx.program ref.last) hMemo) hKept
      have hAgain := (Site.stable_infer ⟨ctx.program, ctx.owner, st.scope⟩ init).replay st.memo
        ref.last hEnd
      refine hType.trans ?_
      show _ = (Site.infer ⟨ctx.program, ctx.owner, st.scope⟩ init ref.last).1
      rw [hAgain]
  · rfl

def namePart (context : LowerContext) (type : Option ValueType) (declarator : Declarator) : Lower String :=
  match declarator.init with
  | some init => do pure (Reserved.identifier declarator.name ++ " = " ++ (← hinted context type init))
  | none => pure (Reserved.identifier declarator.name)

theorem declarators_cons (ctx : LowerContext) (type : Option ValueType) (declarator : Declarator)
    (rest : List Declarator) :
    declarators ctx type (declarator :: rest) =
      (do
        let text ← namePart ctx type declarator
        inScope (·.declare declarator.name type)
        let others ← declarators ctx type rest
        pure (text :: others)) := by
  rw [declarators, namePart]
  cases declarator.init <;> rfl

/-- The initial values of a declaration whose parts pass a test pass it. -/
theorem all_init {test : NodeTest} (hAll : list.all (fun declarator => declarator.all test) = true)
    {declarator : Declarator} (hMem : declarator ∈ list) {init : Expr} (hInit : declarator.init = some init) :
    init.all test = true := by
  have hParts := all_eq_true.mp hAll declarator hMem
  have hVal := (Bool.and_eq_true_iff.mp hParts).2
  rw [hInit] at hVal
  unfold allExpr? at hVal
  exact hVal

/-- Lowering declares names under the type that it has found, and meets good calls in their initial values. The
rules have seen these values from the scope before the declaration, so each name is in doubt after its own. -/
theorem declarators_follow {ref : Reference ctx.program} (type : Option ValueType)
    (hAlike : scope.AlikeBut doubt st.scope) (hGood : ∀ declarator ∈ list, ∀ init, declarator.init = some init → ∀
      doubt, GoodCalls (ref.sparing doubt) ctx.owner scope doubt init) (hSpares : ref.Spares (doubtfulInits doubt list))
    (hKept : (declarators ctx type list st).2.memo.Kept ctx.program ref.last) :
    (declarators ctx type list st).2.scope = declareEach type list st.scope ∧
      ∀ met ∈ (declarators ctx type list st).2.met, met ∈ st.met ∨ ref.Good met := by
  induction list generalizing doubt st with
  | nil => exact ⟨rfl, fun _ => .inl⟩
  | cons declarator rest ih =>
    obtain ⟨hOwn, hOthers⟩ := Reference.spares_append.mp hSpares
    have hPart : Meets ref scope doubt (namePart ctx type declarator) := by
      unfold namePart
      split
      · rename_i init hInit
        rw [hInit] at hOwn
        exact .bind (meets_hinted_of_sparing type hOwn (hGood declarator mem_cons_self init hInit doubt))
          fun _ => .pure _
      · exact .pure _
    rw [declarators_cons] at hKept ⊢
    let middle : Tracked Gathered :=
      { (namePart ctx type declarator st).2 with
        scope := (namePart ctx type declarator st).2.scope.declare declarator.name type }
    have hScope : middle.scope = st.scope.declare declarator.name type :=
      congrArg (fun scope : Scope => scope.declare declarator.name type) (hPart.stays st)
    have hMiddle : scope.AlikeBut (declarator.name :: doubt) middle.scope :=
      hScope ▸ hAlike.declare_right declarator.name type
    have hRestKept : (declarators ctx type rest middle).2.memo.Kept ctx.program ref.last := hKept
    obtain ⟨hEnd, hMet⟩ := ih hMiddle (forall_mem_cons.mp hGood).2 hOthers hRestKept
    refine ⟨hEnd.trans (congrArg (declareEach type rest) hScope), fun met hMem => ?_⟩
    rcases hMet met hMem with hBefore | hGood
    · refine hPart.met st hAlike ?_ met hBefore
      exact (((plain_matches ctx default).declarators type rest).grown middle).memo.trans hRestKept
    · exact .inr hGood

def typeText (decl : LocalDecl) : Option ValueType → Lower String
  | some type => spell type
  | none => pure decl.type.render

theorem meets_typeText (decl : LocalDecl) (type : Option ValueType) : Meets ref scope doubt (typeText decl type) := by
  cases type with
  | none => exact .pure _
  | some type => exact (noting_meets ref scope doubt).spell type trivial

theorem localDecl_eq (ctx : LowerContext) (decl : LocalDecl) :
    localDecl ctx decl =
      (do
        let type ← declType ctx decl
        let spelled ← typeText decl type
        let parts ← declarators ctx type decl.declarators
        pure ((if decl.isConst then "const " else "") ++ spelled ++ " " ++ Text.joinWith ", " parts)) := by
  unfold localDecl
  refine bind_congr fun type => ?_
  cases type <;> rfl

/-- The scopes after a declaration are alike but for the names that are in doubt then. -/
theorem alikeBut_declared {seen : Scope} (hAlike : rules.scope.AlikeBut doubt seen)
    (hKept : (declareAll prog owner decl.type decl.declarators rules).2.memo.Kept prog ref.last) :
    (declareAll prog owner decl.type decl.declarators rules).2.scope.AlikeBut (decl.doubtAfter prog doubt)
      (declareEach (ref.typeOf owner seen decl) decl.declarators seen) := by
  unfold LocalDecl.doubtAfter
  split
  · rename_i hSettles
    rw [scope_declareAll hSettles rules hKept, Reference.typeOf_alike hSettles hAlike]
    exact alikeBut_declareEach _ decl.declarators hAlike
  · have hRules := (declaring_declareAll prog owner decl.type decl.declarators).scope rules
    have hWritten := alikeBut_declareEach_right (ref.typeOf owner seen decl) decl.declarators seen
    refine ((hRules.trans hAlike).trans hWritten).mono (append_subset.mpr ⟨fun _ hMem => hMem, ?_⟩)
    exact subset_append_left _ _

/-- A declaration is followed. The rules walk all its initial values before they declare a name. -/
theorem follows_localDecl (ctx : LowerContext) (ref : Reference ctx.program)
    (hSpares : ref.Spares (doubtfulInits doubt decl.declarators)) :
    Follows ref doubt (decl.doubtAfter ctx.program doubt)
      (ctx.rules.visitDecl decl) (localDecl ctx decl) where
  vouches := ((visitor_respects ctx.program ctx.owner).visitDecl decl).weaken fun _ => trivial
  memo st := (((plain_matches ctx default).localDecl decl).grown st).memo
  follows rules st hStart hAlike hBacked hKept := by
    have hFirst : Backs ref rules.scope (checkDecl ctx.program decl) True :=
      .of_beside ((closed_beside ctx.program ctx.owner).checkDecl decl)
    have hBacks := fun doubt =>
      let hWalk := respects_backs ref ctx.owner rules.scope doubt
      hFirst.seq (.seq (hWalk.type decl.type) (hWalk.visitDeclarators decl.declarators))
    let walked := ((do
      checkDecl ctx.program decl
      checkShape decl.type
      ctx.rules.visitDeclarators decl.declarators : Check Unit) rules).2
    have hScope : walked.scope = rules.scope := (hBacks doubt).stays rules
    have hWalked : Backed ref walked :=
      hBacked.before (Vouches.declareAll ctx.program ctx.owner decl.type decl.declarators)
    have hGood := fun doubt => ((hBacks doubt).holds rules rfl hStart hWalked).2.2
    -- Lowering finds the type, spells it and writes the names.
    let typed := declType ctx decl st
    let spelled := (typeText decl typed.1 typed.2).2
    have hType : Meets ref rules.scope doubt (declType ctx decl) := meets_declType decl
    have hSpell : Meets ref rules.scope doubt (typeText decl typed.1) := meets_typeText decl typed.1
    rw [localDecl_eq] at hKept ⊢
    have hPartsKept : (declarators ctx typed.1 decl.declarators spelled).2.memo.Kept ctx.program ref.last :=
      hKept
    have hSpelledKept : spelled.memo.Kept ctx.program ref.last :=
      (((plain_matches ctx default).declarators typed.1 decl.declarators).grown spelled).memo.trans hPartsKept
    have hTypedKept : typed.2.memo.Kept ctx.program ref.last := (hSpell.memo typed.2).trans hSpelledKept
    have hTypedScope : typed.2.scope = st.scope := hType.stays st
    have hSpelledScope : spelled.scope = st.scope := (hSpell.stays typed.2).trans hTypedScope
    have hTypeOf : typed.1 = ref.typeOf ctx.owner st.scope decl := declType_eq decl hTypedKept
    obtain ⟨hEnd, hMet⟩ := declarators_follow typed.1 (hSpelledScope.symm ▸ hAlike)
      (fun declarator hMem init hInit doubt => all_init (hGood doubt) hMem hInit) hSpares hPartsKept
    refine ⟨?_, fun met hMem => ?_⟩
    · show (declareAll ctx.program ctx.owner decl.type decl.declarators walked).2.scope.AlikeBut _
        (declarators ctx typed.1 decl.declarators spelled).2.scope
      rw [hEnd, hSpelledScope, hTypeOf]
      exact alikeBut_declared (hScope.symm ▸ hAlike) hBacked.memo
    · rcases hMet met hMem with hBefore | hGood
      · rcases hSpell.met typed.2 (hTypedScope.symm ▸ hAlike) hSpelledKept met hBefore with hEarlier | hGood
        · exact hType.met st hAlike hTypedKept met hEarlier
        · exact .inr hGood
      · exact .inr hGood

end Lower

end Shaderlift
