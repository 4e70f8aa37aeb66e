import Shaderlift.Proofs.Call.Memo

/-!
# Scopes that look alike

A scope is only ever asked for names, so opening an empty frame cannot be seen. Two scopes are alike but for
some names in doubt if every other local variable is the same in both, and every local function is. From places
with such scopes an expression that mentions no name in doubt has the same type, and a call calls the same.

The types of calls depend on the calls that are remembered. The comparison is made at memos in which every
answer is what its call means: such an answer never names a variable.
-/

namespace Shaderlift

open List
open Bool (and_eq_true_iff)

namespace Scope

/-- Two scopes have the same local variables, except that those of some names are in doubt, and the same local
functions. -/
structure AlikeBut (first : Scope) (doubt : List String) (second : Scope) : Prop where
  local? : ∀ name, name ∉ doubt → first.local? name = second.local? name
  function? : ∀ name, first.function? name = second.function? name

theorem local?_declare (scope : Scope) (declared name : String) (type : Option ValueType) :
    (scope.declare declared type).local? name = if name = declared then some type else scope.local? name := by
  unfold Scope.local? frames declare
  rw [List.findSome?_cons, List.findSome?_cons, lookup_cons]
  by_cases hName : name = declared
  · rw [if_pos hName, beq_iff_eq.mpr hName]
  · rw [if_neg hName, beq_false_of_ne hName]

theorem function?_declareFunction (scope : Scope) (declared name : String) (type : Option ValueType) :
    (scope.declareFunction declared type).function? name =
      if name = declared then some type else scope.function? name := by
  unfold Scope.function? frames declareFunction
  rw [List.findSome?_cons, List.findSome?_cons, lookup_cons]
  by_cases hName : name = declared
  · rw [if_pos hName, beq_iff_eq.mpr hName]
  · rw [if_neg hName, beq_false_of_ne hName]

namespace AlikeBut

variable {first second third : Scope} {doubt more : List String}

theorem refl (scope : Scope) (doubt : List String) : scope.AlikeBut doubt scope := ⟨fun _ _ => rfl, fun _ => rfl⟩

variable (h : first.AlikeBut doubt second)

include h

theorem mono (hMore : doubt ⊆ more) : first.AlikeBut more second :=
  ⟨fun name hName => h.local? name fun hMem => hName (hMore hMem), h.function?⟩

theorem trans (hNext : second.AlikeBut more third) : first.AlikeBut (doubt ++ more) third where
  local? name hName := by
    rw [mem_append, not_or] at hName
    exact (h.local? name hName.1).trans (hNext.local? name hName.2)
  function? name := (h.function? name).trans (hNext.function? name)

theorem symm : second.AlikeBut doubt first :=
  ⟨fun name hName => (h.local? name hName).symm, fun name => (h.function? name).symm⟩

/-- A scope changes in two steps. -/
theorem after (hBefore : second.AlikeBut more third) : first.AlikeBut (more ++ doubt) third :=
  (h.trans hBefore).mono (append_subset.mpr ⟨subset_append_right _ _, subset_append_left _ _⟩)

/-- An empty frame cannot be seen. -/
theorem push_right : first.AlikeBut doubt second.push := ⟨h.local?, h.function?⟩

theorem push : first.push.AlikeBut doubt second.push := ⟨h.local?, h.function?⟩

/-- A name that is declared under one type in both scopes is no longer in doubt. -/
theorem declare (name : String) (type : Option ValueType) :
    (first.declare name type).AlikeBut (doubt.filter (· != name)) (second.declare name type) := by
  constructor
  · intro other hOther
    rw [local?_declare, local?_declare]
    by_cases hName : other = name
    · rw [if_pos hName, if_pos hName]
    · rw [if_neg hName, if_neg hName]
      exact h.local? other fun hMem => hOther (mem_filter.mpr ⟨hMem, by simpa using hName⟩)
  · exact h.function?

/-- A name that is declared in one of the scopes comes in doubt. -/
theorem declare_right (name : String) (type : Option ValueType) :
    first.AlikeBut (name :: doubt) (second.declare name type) := by
  constructor
  · intro other hOther
    rw [mem_cons, not_or] at hOther
    rw [local?_declare, if_neg hOther.1]
    exact h.local? other hOther.2
  · exact h.function?

theorem declareFunction (name : String) (type : Option ValueType) :
    (first.declareFunction name type).AlikeBut doubt (second.declareFunction name type) := by
  constructor
  · exact h.local?
  · intro other
    rw [function?_declareFunction, function?_declareFunction, h.function?]

theorem contains {name : String} (hName : name ∉ doubt) : first.contains name = second.contains name := by
  unfold Scope.contains
  rw [h.local? name hName]

end AlikeBut

end Scope

namespace Track

variable {first second : Scope} {doubt : List String}

theorem alikeBut_withParams (prog : Program) (params : List Param) (h : first.AlikeBut doubt second) :
    (withParams prog params first).AlikeBut doubt (withParams prog params second) := by
  induction params generalizing first second with
  | nil => exact h
  | cons param rest ih => exact ih ((h.declare _ _).mono filter_sublist.subset)

theorem alikeBut_withFunctions (prog : Program) (stmts : List Stmt) (h : first.AlikeBut doubt second) :
    (withFunctions prog stmts first).AlikeBut doubt (withFunctions prog stmts second) := by
  induction stmts generalizing first second with
  | nil => exact h
  | cons stmt rest ih =>
    cases stmt with
    | localFunction => exact ih (h.declareFunction _ _)
    | _ => exact ih h

end Track

/-! ## Names in doubt -/

/-- The test that no path of names is or starts with a name in doubt. -/
def NodeTest.avoiding (doubt : List String) : NodeTest :=
  { NodeTest.any with
    expr := fun expr =>
      expr.path?.all fun path => !doubt.contains path && !doubt.contains (Text.firstSegment path) }

def Expr.avoids (doubt : List String) (expr : Expr) : Bool := expr.all (.avoiding doubt)

variable {expr : Expr} {doubt : List String}

/-- What is asked of all nodes is asked of the expression itself. -/
theorem Expr.test_of_all {test : NodeTest} (hAll : expr.all test = true) : test.expr expr = true := by
  unfold Expr.all at hAll
  cases expr with
  | literal | ident | selfRef | typeWord | defaultOf | sizeOfType | typeOfType => exact hAll
  | _ => exact (and_eq_true_iff.mp hAll).1

theorem Expr.not_mem_of_avoids {path : String} (hAvoids : expr.avoids doubt = true) (hPath : expr.path? = some path) :
    path ∉ doubt ∧ Text.firstSegment path ∉ doubt := by
  have hTest : (expr.path?.all fun path => !doubt.contains path && !doubt.contains (Text.firstSegment path)) = true :=
    Expr.test_of_all hAvoids
  rw [hPath] at hTest
  simpa using hTest

theorem Expr.not_mem_of_ident? {name : String} (hAvoids : expr.avoids doubt = true) (hName : expr.ident? = some name) :
    name ∉ doubt := by
  cases expr with
  | ident _ own =>
    cases hName
    exact (Expr.not_mem_of_avoids hAvoids rfl).1
  | _ => cases hName

/-! ## Actions that do the same -/

/-- Every remembered answer is what its call means in one of the ways to write it. -/
def CallMemo.Meant (program : Program) (memo : CallMemo) : Prop :=
  ∀ key callee, memo.entries.lookup key = some callee → ∃ form : CallForm, callee = form.meaning program key

theorem CallMemo.Meant.of_kept {prog : Program} {before later : CallMemo} (hMeant : before.Meant prog)
    (hKept : before.Kept prog later) : later.Meant prog := by
  intro key callee hLookup
  rcases hKept.fresh key callee hLookup with hBefore | hForm
  · exact hMeant key callee hBefore
  · exact hForm

/-- Two actions do the same at memos in which every answer is what its call means, and keep what is
remembered. -/
structure Recall.Same {α : Type} (program : Program) (first second : Recall α) : Prop where
  kept : ∀ memo : CallMemo, memo.Kept program (first memo).2
  same : ∀ memo : CallMemo, memo.Meant program → first memo = second memo

namespace Recall.Same

variable {α β : Type} {prog : Program}

theorem of_stable {action : Recall α} (hStable : Stable prog action) : Same prog action action :=
  ⟨hStable.kept, fun _ _ => rfl⟩

theorem pure (val : α) : Same prog (Pure.pure val) (Pure.pure val) := .of_stable (.pure val)

variable {first second : Recall α} {next next' : α → Recall β}

/-- What comes next does the same with every result that the first action can have. -/
theorem bind_of (hFirst : Same prog first second)
    (hKept : ∀ (val : α) (memo : CallMemo), memo.Kept prog (next val memo).2)
    (hNext : ∀ memo : CallMemo, memo.Meant prog → Same prog (next (first memo).1) (next' (first memo).1)) :
    Same prog (first >>= next) (second >>= next') where
  kept memo := (hFirst.kept memo).trans (hKept _ _)
  same memo hMeant := by
    show next (first memo).1 (first memo).2 = next' (second memo).1 (second memo).2
    rw [← hFirst.same memo hMeant]
    exact (hNext memo hMeant).same _ (hMeant.of_kept (hFirst.kept memo))

theorem bind (hFirst : Same prog first second) (hNext : ∀ val, Same prog (next val) (next' val)) :
    Same prog (first >>= next) (second >>= next') :=
  hFirst.bind_of (fun val => (hNext val).kept) fun _ _ => hNext _

theorem chained (prog : Program) : Recall.Chained (Same prog) := ⟨.pure, .bind⟩

end Recall.Same

namespace Site

/-- Arguments have the same names, and telling their types does the same. -/
def SameArgs (program : Program) : List PendingArg → List PendingArg → Prop :=
  List.Forall₂ fun arg arg' => arg.name = arg'.name ∧ Recall.Same program arg.type arg'.type

/-- Tell the type of a call from what it calls. -/
def answerType (site : Site) (args : List PendingArg) : Callee → Recall (Option ValueType)
  | .intrinsic intrinsic => intrinsicType intrinsic.name args
  | .source key =>
    pure ((site.program.method? key).bind fun method => site.program.valueType? method.header.returnType)
  | .localFunction name => pure (site.scope.function? name).join
  | .resourceMember field _ => pure ((site.resource? field).map Resource.element)
  | .unknown _ => pure none
  | .ambiguous _ => pure none

theorem callType_eq (site : Site) (callee : Expr) (args : List PendingArg) :
    site.callType callee args = site.calleeOf callee args >>= site.answerType args := by
  unfold callType
  refine bind_congr fun found => ?_
  cases found <;> rfl

theorem kept_answerType (site : Site) {args args' : List PendingArg} (hArgs : SameArgs site.program args args')
    (found : Callee) (memo : CallMemo) : memo.Kept site.program (site.answerType args found memo).2 := by
  cases found with
  | intrinsic intrinsic => exact (related_intrinsicType (Recall.Same.chained _) hArgs intrinsic.name).kept memo
  | _ => exact .refl memo

end Site

/-! ## Calls name no variables that are in doubt -/

namespace Program

variable {prog : Program} {owner : String}

variable {field : String} {args : List CallArg} {method : ResourceMethod} {memo : CallMemo}

theorem sourceMethod?_ne_resourceMember {name : String} :
    prog.sourceMethod? owner name args ≠ some (.resourceMember field method) := by
  unfold sourceMethod?
  split
  · simp
  · simp
  · split <;> simp

theorem meaning_ne_resourceMember {call : CallKey} {form : CallForm} :
    form.meaning prog call ≠ .resourceMember field method := by
  rcases form.meaning_cases prog call with ⟨intrinsic, hMeaning⟩ | ⟨text, hMeaning⟩ | ⟨owner, hFound, -⟩
  · simp [hMeaning]
  · simp [hMeaning]
  · exact fun hEq => sourceMethod?_ne_resourceMember (hFound.trans (congrArg some hEq))

theorem remember_ne_resourceMember (call : CallKey) (form : CallForm) (hMeant : memo.Meant prog) :
    (CallMemo.remember call (form.meaning prog call) memo).1 ≠ .resourceMember field method := by
  cases hLookup : memo.entries.lookup call with
  | none =>
    rw [CallMemo.remember_of_new _ hLookup]
    exact meaning_ne_resourceMember
  | some known =>
    rw [CallMemo.remember_of_known _ hLookup]
    obtain ⟨form, rfl⟩ := hMeant call known hLookup
    exact meaning_ne_resourceMember

theorem path?_of_resourceMember {callee : Expr} {scope : Scope} (hMeant : memo.Meant prog)
    (hFound : (prog.callee owner callee args scope memo).1 = .resourceMember field method) :
    ∃ span target name, callee = .member span target name false ∧ target.path? = some field := by
  unfold Program.callee at hFound
  split at hFound
  · split at hFound
    · cases hFound
    · exact absurd hFound (remember_ne_resourceMember _ .bare hMeant)
  · exact absurd hFound (remember_ne_resourceMember _ .onSelf hMeant)
  · rename_i span target name _
    cases hPath : target.path? with
    | none =>
      rw [hPath] at hFound
      cases hFound
    | some path =>
      rw [hPath] at hFound
      dsimp only at hFound
      split at hFound
      · refine ⟨span, target, name, rfl, hPath.trans ?_⟩
        have hVariable : prog.variableCallee owner path name scope = .resourceMember field method := hFound
        unfold variableCallee at hVariable
        dsimp only at hVariable
        split at hVariable
        · cases hVariable
        · split at hVariable
          · split at hVariable
            · cases hVariable
              rfl
            · cases hVariable
          · cases hVariable
      · exact absurd hFound (remember_ne_resourceMember _ .onType hMeant)
  · cases hFound

end Program

/-! ## Places -/

section Places

variable {first second : Scope} {doubt : List String} (h : first.AlikeBut doubt second) (prog : Program)
  (owner : String)

include h

theorem Program.isVariable_alike {name : String} (hName : name ∉ doubt) :
    prog.isVariable owner name first = prog.isVariable owner name second := by
  unfold isVariable
  rw [h.contains hName]

/-- A callee that mentions no name in doubt is classified in the same way. -/
theorem Program.callee_alike {callee : Expr} (hCallee : callee.avoids doubt = true) (args : List CallArg) :
    prog.callee owner callee args first = prog.callee owner callee args second := by
  unfold Program.callee
  split
  · rw [h.function?]
  · rfl
  · rename_i target name _
    unfold Expr.avoids Expr.all at hCallee
    have hTarget : target.avoids doubt = true := (and_eq_true_iff.mp hCallee).2
    split
    · rfl
    · rename_i path hPath
      obtain ⟨hPathIn, hFirst⟩ := Expr.not_mem_of_avoids hTarget hPath
      have hVariable : prog.variableCallee owner path name first = prog.variableCallee owner path name second := by
        unfold variableCallee
        rw [h.contains hPathIn]
      rw [prog.isVariable_alike h owner hFirst, hVariable]
  · rfl

namespace Site

variable {name : String} {target callee : Expr} {type type' : Recall (Option ValueType)} {args args' : List PendingArg}

theorem field?_alike (hName : name ∉ doubt) : field? ⟨prog, owner, first⟩ name = field? ⟨prog, owner, second⟩ name := by
  unfold field?
  rw [h.contains hName]

theorem resource?_alike (hName : name ∉ doubt) :
    resource? ⟨prog, owner, first⟩ name = resource? ⟨prog, owner, second⟩ name := by
  unfold resource?
  rw [field?_alike h prog owner hName]

theorem dispatchInfo?_alike {expr : Expr} (hExpr : expr.avoids doubt = true) :
    dispatchInfo? ⟨prog, owner, first⟩ expr = dispatchInfo? ⟨prog, owner, second⟩ expr := by
  unfold dispatchInfo?
  split
  · rename_i name hName
    have hOut := Expr.not_mem_of_ident? hExpr hName
    rw [field?_alike h prog owner hOut]
    dsimp only
    rw [h.contains hOut]
  · rfl

theorem nameType?_alike (hName : name ∉ doubt) :
    nameType? ⟨prog, owner, first⟩ name = nameType? ⟨prog, owner, second⟩ name := by
  unfold nameType?
  rw [h.local? name hName, field?_alike h prog owner hName]

theorem same_memberType (hTarget : target.avoids doubt = true) (name : String) (hType : Recall.Same prog type type') :
    Recall.Same prog (memberType ⟨prog, owner, first⟩ target name type)
      (memberType ⟨prog, owner, second⟩ target name type') := by
  have hProperty : Recall.Same prog (propertyType ⟨prog, owner, first⟩ name type)
      (propertyType ⟨prog, owner, second⟩ name type') := .bind hType fun _ => .pure _
  unfold memberType
  rw [dispatchInfo?_alike h prog owner hTarget]
  cases dispatchInfo? ⟨prog, owner, second⟩ target with
  | some info => exact .pure _
  | none =>
    cases hPath : target.path? with
    | none => exact hProperty
    | some path =>
      obtain ⟨hOut, hFirst⟩ := Expr.not_mem_of_avoids hTarget hPath
      have hStart : startsAtVariable ⟨prog, owner, first⟩ path =
          startsAtVariable ⟨prog, owner, second⟩ path := prog.isVariable_alike h owner hFirst
      dsimp only
      rw [hStart, resource?_alike h prog owner hOut]
      split
      · exact .pure _
      · split
        · exact .pure _
        · exact hProperty

theorem same_indexType (hTarget : target.avoids doubt = true) (args : List Argument)
    (hType : Recall.Same prog type type') : Recall.Same prog (indexType ⟨prog, owner, first⟩ target args type)
      (indexType ⟨prog, owner, second⟩ target args type') := by
  have hElement : target.ident?.bind (elementType? ⟨prog, owner, first⟩) =
      target.ident?.bind (elementType? ⟨prog, owner, second⟩) := by
    cases hName : target.ident? with
    | none => rfl
    | some name =>
      show elementType? _ name = elementType? _ name
      unfold elementType?
      rw [field?_alike h prog owner (Expr.not_mem_of_ident? hTarget hName)]
  unfold indexType
  rw [hElement]
  split
  · exact .pure _
  · exact .bind hType fun _ => .pure _

theorem same_calleeOf (hCallee : callee.avoids doubt = true) (hArgs : SameArgs prog args args') :
    Recall.Same prog (calleeOf ⟨prog, owner, first⟩ callee args) (calleeOf ⟨prog, owner, second⟩ callee args') := by
  refine .bind (related_settleArgs (Recall.Same.chained _) hArgs) fun settled => ?_
  dsimp only
  rw [prog.callee_alike h owner hCallee]
  exact .of_stable (Program.closed_callee (Recall.closed_stable prog owner) callee settled second)

theorem same_answerType (hArgs : SameArgs prog args args') {found : Callee}
    (hField : ∀ field method, found = .resourceMember field method → field ∉ doubt) :
    Recall.Same prog (answerType ⟨prog, owner, first⟩ args found) (answerType ⟨prog, owner, second⟩ args' found) := by
  cases found with
  | intrinsic intrinsic => exact related_intrinsicType (Recall.Same.chained _) hArgs intrinsic.name
  | source key => exact .pure _
  | localFunction name =>
    unfold answerType
    dsimp only
    rw [h.function?]
    exact .pure _
  | resourceMember field method =>
    unfold answerType
    dsimp only
    rw [resource?_alike h prog owner (hField field method rfl)]
    exact .pure _
  | unknown | ambiguous => exact .pure _

theorem same_callType (hCallee : callee.avoids doubt = true) (hArgs : SameArgs prog args args') :
    Recall.Same prog (callType ⟨prog, owner, first⟩ callee args) (callType ⟨prog, owner, second⟩ callee args') := by
  rw [callType_eq, callType_eq]
  refine (same_calleeOf h prog owner hCallee hArgs).bind_of (fun found memo => ?_) fun memo hMeant => ?_
  · exact kept_answerType ⟨prog, owner, first⟩ hArgs found memo
  · refine same_answerType h prog owner hArgs fun field method hFound => ?_
    -- A method of a variable is called on the variable, which is not in doubt.
    have hLater := hMeant.of_kept ((related_settleArgs (Recall.Same.chained _) hArgs).kept memo)
    obtain ⟨span, target, name, rfl, hPath⟩ := Program.path?_of_resourceMember hLater hFound
    unfold Expr.avoids Expr.all at hCallee
    exact (Expr.not_mem_of_avoids (and_eq_true_iff.mp hCallee).2 hPath).1

omit h

mutual

/-- From places with scopes that are alike, an expression that mentions no name in doubt has the same type. -/
theorem same_infer (h : first.AlikeBut doubt second) (expr : Expr) (hExpr : expr.avoids doubt = true) :
    Recall.Same prog (infer ⟨prog, owner, first⟩ expr) (infer ⟨prog, owner, second⟩ expr) := by
  have hOwn : ∀ name, expr.ident? = some name → name ∉ doubt := fun _ => Expr.not_mem_of_ident? hExpr
  unfold Expr.avoids Expr.all at hExpr
  unfold infer
  cases expr with
  | ident _ name =>
    dsimp only
    rw [nameType?_alike h prog owner (hOwn name rfl)]
    exact .pure _
  | member _ target name =>
    have hTarget := (and_eq_true_iff.mp hExpr).2
    exact same_memberType h prog owner hTarget name (same_infer h target hTarget)
  | index _ target args =>
    have hTarget := (and_eq_true_iff.mp (and_eq_true_iff.mp hExpr).2).1
    exact same_indexType h prog owner hTarget args (same_infer h target hTarget)
  | call _ callee _ args =>
    obtain ⟨hCallee, hArgs⟩ := and_eq_true_iff.mp (and_eq_true_iff.mp hExpr).2
    exact same_callType h prog owner hCallee (same_pendingArgs h args hArgs)
  | unary _ op operand =>
    have hOperand := (and_eq_true_iff.mp hExpr).2
    cases op with
    | not => exact .pure _
    | _ => exact same_infer h operand hOperand
  | post _ _ operand | paren _ operand | checked _ _ operand =>
    exact same_infer h operand (and_eq_true_iff.mp hExpr).2
  | binary _ op lhs rhs =>
    obtain ⟨hLeft, hRight⟩ := and_eq_true_iff.mp (and_eq_true_iff.mp hExpr).2
    exact related_binaryType (Recall.Same.chained _) op _ _ _ _ (same_infer h lhs hLeft) (same_infer h rhs hRight)
  | assign _ _ target val =>
    exact same_infer h target (and_eq_true_iff.mp (and_eq_true_iff.mp hExpr).2).1
  | conditional _ _ thenExpr elseExpr =>
    obtain ⟨-, -, hThen, hElse⟩ : _ ∧ _ ∧ _ ∧ _ := by simpa only [Bool.and_eq_true] using hExpr
    refine .bind (same_infer h thenExpr hThen) fun type => ?_
    cases type with
    | none => exact same_infer h elseExpr hElse
    | some type => exact .pure _
  | construct _ type | defaultOf _ type =>
    cases type with
    | none => exact .pure _
    | some type => exact .pure _
  | _ => exact .pure _

theorem same_pendingArgs (h : first.AlikeBut doubt second) (args : List Argument)
    (hArgs : allArgs (.avoiding doubt) args = true) :
    SameArgs prog (pendingArgs ⟨prog, owner, first⟩ args) (pendingArgs ⟨prog, owner, second⟩ args) := by
  unfold allArgs at hArgs
  match args with
  | [] =>
    rw [pendingArgs, pendingArgs]
    exact .nil
  | ⟨name, _, val⟩ :: rest =>
    obtain ⟨hVal, hRest⟩ := and_eq_true_iff.mp hArgs
    rw [pendingArgs, pendingArgs]
    exact .cons ⟨rfl, same_infer h val hVal⟩ (same_pendingArgs h rest hRest)

end

include h

/-- From places with scopes that are alike, a call that mentions no name in doubt calls the same. -/
theorem same_resolveCall {span : Span} {types : List TypeExpr} {args : List Argument}
    (hCall : (Expr.call span callee types args).avoids doubt = true) :
    Recall.Same prog (resolveCall ⟨prog, owner, first⟩ callee args)
      (resolveCall ⟨prog, owner, second⟩ callee args) := by
  unfold Expr.avoids Expr.all at hCall
  obtain ⟨hCallee, hArgs⟩ := and_eq_true_iff.mp (and_eq_true_iff.mp hCall).2
  exact same_calleeOf h prog owner hCallee (same_pendingArgs prog owner h args hArgs)

end Site

end Places

end Shaderlift
