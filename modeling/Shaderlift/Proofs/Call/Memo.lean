import Mathlib.Data.List.Forall2
import Shaderlift.Call.Closure
import Shaderlift.Proofs.Source.Nodes

/-!
# Remembered calls stay

The memo of calls only grows, and an answer that has been given is given again. An action that remembers
calls is therefore stable: run once more, from any later memo, it returns what it returned before and
remembers nothing new. Classifying calls, telling types and collecting the methods that a shader needs
are all stable, so every pass over a shader sees the same methods.
-/

namespace Shaderlift

open List

/-- The ways to write a call that is remembered: by a bare name, on the shader itself, or on a type. -/
inductive CallForm where
  | bare | onSelf | onType
  deriving DecidableEq, Repr

/-- What a call means by itself, written in a way. -/
def CallForm.meaning (program : Program) (key : CallKey) : CallForm → Callee
  | .bare => program.unqualifiedCallee key.owner key.name key.args
  | .onSelf => program.selfCallee key.owner key.name key.args
  | .onType => program.qualifiedCallee key.owner key.name key.args

/-- A call means something built in, nothing, or what its name is among the methods of a type: of its owner, unless it is
written on a type, or of a type that has been looked for. -/
theorem CallForm.meaning_cases (prog : Program) (key : CallKey) (form : CallForm) :
    (∃ intrinsic, form.meaning prog key = .intrinsic intrinsic) ∨ (∃ text, form.meaning prog key = .unknown text) ∨
      ∃ owner, prog.sourceMethod? owner key.name key.args = some (form.meaning prog key) ∧
        (form ≠ .onType ∧ owner = key.owner ∨ (∃ target, owner = Text.lastSegment target) ∨
          ∃ path entry, prog.index.find? path = some entry ∧ owner = entry.name) := by
  cases form with
  | bare =>
    simp only [meaning, Program.unqualifiedCallee]
    split
    · exact .inr (.inr ⟨_, ‹_›, .inl ⟨by simp, rfl⟩⟩)
    · cases hThrough : prog.staticUsings.findSome? fun target => prog.calleeThrough? target key.name key.args with
      | none => exact .inr (.inl ⟨_, rfl⟩)
      | some callee =>
        obtain ⟨target, -, hTarget⟩ := exists_of_findSome?_eq_some hThrough
        unfold Program.calleeThrough? at hTarget
        split at hTarget
        · cases hTarget
          exact .inl ⟨_, rfl⟩
        · exact .inr (.inr ⟨_, hTarget, .inr (.inl ⟨target, rfl⟩)⟩)
  | onSelf =>
    simp only [meaning, Program.selfCallee]
    cases hFound : prog.sourceMethod? key.owner key.name key.args with
    | none => exact .inr (.inl ⟨_, rfl⟩)
    | some callee => exact .inr (.inr ⟨_, hFound, .inl ⟨by simp, rfl⟩⟩)
  | onType =>
    simp only [meaning, Program.qualifiedCallee]
    split
    · split
      · exact .inl ⟨_, rfl⟩
      · exact .inr (.inl ⟨_, rfl⟩)
    · split
      · rename_i entry hEntry
        cases hFound : prog.sourceMethod? entry.name key.name key.args with
        | none => exact .inr (.inl ⟨_, rfl⟩)
        | some callee => exact .inr (.inr ⟨_, hFound, .inr (.inr ⟨_, entry, hEntry, rfl⟩)⟩)
      · exact .inr (.inl ⟨_, rfl⟩)

namespace CallMemo

/-- Every answer of a memo is still there later, and every answer that has come since is what the call means
in one of the ways to write it. -/
structure Kept (program : Program) (before later : CallMemo) : Prop where
  lookup : ∀ key callee, before.entries.lookup key = some callee → later.entries.lookup key = some callee
  fresh : ∀ key callee, later.entries.lookup key = some callee →
    before.entries.lookup key = some callee ∨ ∃ form : CallForm, callee = form.meaning program key

variable {prog : Program}

theorem Kept.refl (memo : CallMemo) : memo.Kept prog memo := ⟨fun _ _ => id, fun _ _ => .inl⟩

theorem Kept.trans {first second third : CallMemo} (hFirst : first.Kept prog second)
    (hSecond : second.Kept prog third) : first.Kept prog third where
  lookup key callee hLookup := hSecond.lookup key callee (hFirst.lookup key callee hLookup)
  fresh key callee hLookup := (hSecond.fresh key callee hLookup).elim (hFirst.fresh key callee) .inr

theorem get_bind {α : Type} (next : CallMemo → Recall α) (memo : CallMemo) :
    (get >>= next) memo = next memo memo :=
  rfl

variable {memo : CallMemo} {key : CallKey}

theorem remember_of_known {known : Callee} (fresh : Callee)
    (hLookup : memo.entries.lookup key = some known) : remember key fresh memo = (known, memo) := by
  rw [remember, get_bind, hLookup]
  rfl

theorem remember_of_new (fresh : Callee) (hLookup : memo.entries.lookup key = none) :
    remember key fresh memo = (fresh, ⟨(key, fresh) :: memo.entries⟩) := by
  rw [remember, get_bind, hLookup]
  rfl

theorem lookup_remember (key : CallKey) (fresh : Callee) (memo : CallMemo) :
    (remember key fresh memo).2.entries.lookup key = some (remember key fresh memo).1 := by
  cases hLookup : memo.entries.lookup key with
  | some known => rw [remember_of_known fresh hLookup, hLookup]
  | none =>
    rw [remember_of_new fresh hLookup]
    exact lookup_cons_self

theorem kept_remember (key : CallKey) (form : CallForm) (memo : CallMemo) :
    memo.Kept prog (remember key (form.meaning prog key) memo).2 := by
  cases hLookup : memo.entries.lookup key with
  | some known =>
    rw [remember_of_known _ hLookup]
    exact .refl memo
  | none =>
    rw [remember_of_new _ hLookup]
    constructor
    · intro other callee hOther
      have hDifferent : other ≠ key := by
        rintro rfl
        rw [hLookup] at hOther
        cases hOther
      rw [lookup_cons, beq_false_of_ne hDifferent]
      exact hOther
    · intro other callee hOther
      by_cases hSame : other = key
      · subst hSame
        rw [lookup_cons_self] at hOther
        exact .inr ⟨form, (Option.some.inj hOther).symm⟩
      · rw [lookup_cons, beq_false_of_ne hSame] at hOther
        exact .inl hOther

end CallMemo

namespace Recall

variable {α β : Type} {prog : Program}

/-- An action keeps what is remembered, and run again later it returns the same and remembers nothing
new. -/
structure Stable (program : Program) (action : Recall α) : Prop where
  kept : ∀ memo : CallMemo, memo.Kept program (action memo).2
  replay : ∀ memo later : CallMemo, (action memo).2.Kept program later →
    action later = ((action memo).1, later)

namespace Stable

theorem pure (val : α) : Stable prog (Pure.pure val) := ⟨fun memo => .refl memo, fun _ _ _ => rfl⟩

theorem bind {first : Recall α} {next : α → Recall β} (hFirst : Stable prog first)
    (hNext : ∀ val, Stable prog (next val)) : Stable prog (first >>= next) where
  kept memo := (hFirst.kept memo).trans ((hNext (first memo).1).kept (first memo).2)
  replay memo later hLater := by
    have hMiddle : (first memo).2.Kept prog later := ((hNext (first memo).1).kept (first memo).2).trans hLater
    have hAgain : first later = ((first memo).1, later) := hFirst.replay memo later hMiddle
    show next (first later).1 (first later).2 = _
    rw [hAgain]
    exact (hNext (first memo).1).replay (first memo).2 later hLater

theorem remember (key : CallKey) (form : CallForm) :
    Stable prog (CallMemo.remember key (form.meaning prog key)) where
  kept memo := CallMemo.kept_remember key form memo
  replay memo _ hLater :=
    CallMemo.remember_of_known _ (hLater.lookup key _ (CallMemo.lookup_remember key _ memo))

end Stable

/-- If the answer of an action is a method of the source, then some call is remembered to mean it. -/
def Records (action : Recall Callee) : Prop :=
  ∀ (memo : CallMemo) (key : MethodKey), (action memo).1 = .source key →
    ∃ call, (action memo).2.entries.lookup call = some (.source key)

namespace Records

theorem pure {callee : Callee} (hCallee : ∀ key, callee ≠ .source key) : Records (Pure.pure callee) :=
  fun _ key hSrc => absurd hSrc (hCallee key)

theorem bind {first : Recall α} {next : α → Recall Callee} (hNext : ∀ val, Records (next val)) :
    Records (first >>= next) :=
  fun memo key hSrc => hNext (first memo).1 (first memo).2 key hSrc

theorem remember (key : CallKey) (fresh : Callee) : Records (CallMemo.remember key fresh) :=
  fun memo _ hSrc => ⟨key, hSrc ▸ CallMemo.lookup_remember key fresh memo⟩

end Records

end Recall

/-! ## Calls and types -/

open Recall

theorem Program.variableCallee_ne_source (prog : Program) (owner path name : String) (scope : Scope)
    (key : MethodKey) : prog.variableCallee owner path name scope ≠ .source key := by
  unfold Program.variableCallee
  dsimp only
  split
  · simp
  · split
    · split <;> simp
    · simp

/-- A property of actions is closed under what is done to classify calls and to tell types from the methods
of a type: answers are remembered one after the other, and each answer to a call of a bare name or on the
shader itself is remembered under that type. -/
structure Recall.Closed (program : Program) (owner : String) (Has : ∀ {α : Type}, Recall α → Prop) : Prop where
  pure : ∀ {α : Type} (value : α), Has (Pure.pure value : Recall α)
  bind : ∀ {α β : Type} {first : Recall α} {next : α → Recall β},
    Has first → (∀ value, Has (next value)) → Has (first >>= next)
  remember : ∀ (key : CallKey) (form : CallForm), form = .onType ∨ key.owner = owner →
    Has (CallMemo.remember key (form.meaning program key))

theorem Recall.closed_stable (prog : Program) (owner : String) : Closed prog owner (Stable prog) where
  pure := .pure
  bind := .bind
  remember key form _ := .remember key form

theorem Program.closed_callee {prog : Program} {owner : String} {Has : ∀ {α : Type}, Recall α → Prop}
    (h : Recall.Closed prog owner Has) (callee : Expr) (args : List CallArg) (scope : Scope) :
    Has (prog.callee owner callee args scope) := by
  unfold Program.callee
  split
  · split
    · exact h.pure _
    · exact h.remember _ .bare (.inr rfl)
  · exact h.remember _ .onSelf (.inr rfl)
  · split
    · exact h.pure _
    · split
      · exact h.pure _
      · exact h.remember _ .onType (.inl rfl)
  · exact h.pure _

/-- Calls that mean a method of the source are remembered as such. -/
theorem Program.records_callee (prog : Program) (owner : String) (callee : Expr) (args : List CallArg)
    (scope : Scope) : Records (prog.callee owner callee args scope) := by
  unfold Program.callee
  split
  · split
    · exact .pure (by simp)
    · exact .remember _ _
  · exact .remember _ _
  · split
    · exact .pure (by simp)
    · split
      · exact .pure (prog.variableCallee_ne_source owner _ _ scope)
      · exact .remember _ _
  · exact .pure (by simp)

/-- A relation of actions is kept by doing one after the other. -/
structure Recall.Chained (Rel : ∀ {α : Type}, Recall α → Recall α → Prop) : Prop where
  pure : ∀ {α : Type} (value : α), Rel (Pure.pure value) (Pure.pure value)
  bind : ∀ {α β : Type} {first first' : Recall α} {next next' : α → Recall β},
    Rel first first' → (∀ value, Rel (next value) (next' value)) → Rel (first >>= next) (first' >>= next')

namespace Site

section Chained

variable {Rel : ∀ {α : Type}, Recall α → Recall α → Prop} (h : Recall.Chained Rel)

include h

theorem related_binaryType (op : BinaryOp) (lhs lhs' rhs rhs' : Recall (Option ValueType)) (hLeft : Rel lhs lhs')
    (hRight : Rel rhs rhs') : Rel (binaryType op lhs rhs) (binaryType op lhs' rhs') := by
  refine h.bind hLeft fun left => ?_
  cases op with
  | and | or | shl | shr => exact h.pure _
  | _ => exact h.bind hRight fun _ => h.pure _

variable {args args' : List PendingArg}
  (hArgs : List.Forall₂ (fun arg arg' => arg.name = arg'.name ∧ Rel arg.type arg'.type) args args')

include hArgs

theorem related_settleArgs : Rel (settleArgs args) (settleArgs args') := by
  induction hArgs with
  | nil => exact h.pure _
  | @cons arg arg' rest rest' hHead _ ih =>
    unfold settleArgs
    rw [hHead.1]
    exact h.bind hHead.2 fun _ => h.bind ih fun _ => h.pure _

theorem related_combineArgs (known : Option ValueType) : Rel (combineArgs known args) (combineArgs known args') := by
  induction hArgs generalizing known with
  | nil => exact h.pure _
  | cons hHead _ ih => exact h.bind hHead.2 fun _ => ih _

theorem related_argType (pos : Nat) : Rel (argType args pos) (argType args' pos) := by
  induction hArgs generalizing pos with
  | nil => exact h.pure _
  | cons hHead _ ih =>
    cases pos with
    | zero => exact hHead.2
    | succ pos => exact ih pos

theorem related_productType : Rel (productType args) (productType args') := by
  refine h.bind (related_argType h hArgs 0) fun first => ?_
  cases first with
  | none => exact h.pure _
  | some first => exact h.bind (related_argType h hArgs 1) fun _ => h.pure _

theorem related_intrinsicType (name : String) : Rel (intrinsicType name args) (intrinsicType name args') := by
  have hIte : ∀ {test : Prop} [Decidable test] {first first' second second' : Recall (Option ValueType)},
      Rel first first' → Rel second second' →
        Rel (if test then first else second) (if test then first' else second') := by
    intro test _ first first' second second' hFirst hSecond
    split
    · exact hFirst
    · exact hSecond
  have hFirst (change : ValueType → Option ValueType) : Rel (mapFirst args change) (mapFirst args' change) :=
    h.bind (related_argType h hArgs 0) fun _ => h.pure _
  have hPure : ∀ type : Option ValueType, Rel (pure type) (pure type) := h.pure
  exact hIte (hFirst _) <| hIte (hPure _) <| hIte (hFirst _) <| hIte (hFirst _) <| hIte (hFirst _) <|
    hIte (hFirst _) <| hIte (hPure _) <| hIte (related_productType h hArgs) <| hIte (hFirst _) <| hIte (hPure _) <|
    hIte (hPure _) (related_combineArgs h hArgs none)

end Chained

section Closed

variable {site : Site} {Has : ∀ {α : Type}, Recall α → Prop} (h : Recall.Closed site.program site.owner Has)

include h

variable {args : List PendingArg} {targetType : Recall (Option ValueType)}

/-- What is closed is related to itself. -/
theorem chained_of_closed : Recall.Chained fun action _ => Has action := ⟨h.pure, h.bind⟩

omit h in
theorem self_related (hArgs : ∀ arg ∈ args, Has arg.type) :
    List.Forall₂ (fun arg arg' => arg.name = arg'.name ∧ Has arg.type) args args :=
  forall₂_same.mpr fun arg hArg => ⟨rfl, hArgs arg hArg⟩

theorem closed_calleeOf (callee : Expr) (hArgs : ∀ arg ∈ args, Has arg.type) : Has (site.calleeOf callee args) :=
  h.bind (related_settleArgs (chained_of_closed h) (self_related hArgs)) fun _ =>
    Program.closed_callee h callee _ site.scope

theorem closed_callType (callee : Expr) (hArgs : ∀ arg ∈ args, Has arg.type) : Has (site.callType callee args) := by
  refine h.bind (closed_calleeOf h callee hArgs) fun found => ?_
  split
  · exact related_intrinsicType (chained_of_closed h) (self_related hArgs) _
  · exact h.pure _
  · exact h.pure _
  · exact h.pure _
  · exact h.pure _
  · exact h.pure _

theorem closed_memberType (target : Expr) (name : String) (hTarget : Has targetType) :
    Has (site.memberType target name targetType) := by
  have hProperty : Has (site.propertyType name targetType) := h.bind hTarget fun _ => h.pure _
  unfold memberType
  split
  · exact h.pure _
  · split
    · exact h.pure _
    · split
      · exact h.pure _
      · exact hProperty
  · exact hProperty

theorem closed_indexType (target : Expr) (args : List Argument) (hTarget : Has targetType) :
    Has (site.indexType target args targetType) := by
  unfold indexType
  split
  · exact h.pure _
  · exact h.bind hTarget fun _ => h.pure _

omit h

mutual

/-- Telling the type of an expression has every property that is closed. -/
theorem closed_infer {site : Site} (h : Recall.Closed site.program site.owner Has) (expr : Expr) :
    Has (site.infer expr) := by
  unfold infer
  cases expr with
  | member _ target name => exact closed_memberType h target name (closed_infer h target)
  | index _ target args => exact closed_indexType h target args (closed_infer h target)
  | call _ callee _ args => exact closed_callType h callee (closed_pendingArgs h args)
  | unary _ op operand =>
    cases op with
    | not => exact h.pure _
    | _ => exact closed_infer h operand
  | post _ _ operand | paren _ operand | checked _ _ operand => exact closed_infer h operand
  | binary _ op lhs rhs =>
    exact related_binaryType (chained_of_closed h) op _ (site.infer lhs) _ (site.infer rhs) (closed_infer h lhs)
      (closed_infer h rhs)
  | assign _ _ target => exact closed_infer h target
  | conditional _ _ thenExpr elseExpr =>
    refine h.bind (closed_infer h thenExpr) fun first => ?_
    split
    · exact h.pure _
    · exact closed_infer h elseExpr
  | construct _ type | defaultOf _ type =>
    cases type with
    | none => exact h.pure _
    | some type => exact h.pure _
  | _ => exact h.pure _

theorem closed_pendingArgs {site : Site} (h : Recall.Closed site.program site.owner Has)
    (args : List Argument) : ∀ arg ∈ site.pendingArgs args, Has arg.type := by
  unfold pendingArgs
  match args with
  | [] => exact forall_mem_nil _
  | ⟨name, _, val⟩ :: rest => exact forall_mem_cons.mpr ⟨closed_infer h val, closed_pendingArgs h rest⟩

end

include h

theorem closed_resolveCall (callee : Expr) (args : List Argument) : Has (site.resolveCall callee args) :=
  closed_calleeOf h callee (closed_pendingArgs h args)

theorem closed_declaredType (type : TypeExpr) (init : Option Expr) : Has (site.declaredType type init) := by
  unfold declaredType
  split
  · exact h.pure _
  · exact closed_infer h _
  · exact h.pure _

end Closed

/-- Telling the type of an expression is stable. -/
theorem stable_infer (site : Site) (expr : Expr) : Stable site.program (site.infer expr) :=
  closed_infer (closed_stable site.program site.owner) expr

theorem stable_resolveCall (site : Site) (callee : Expr) (args : List Argument) :
    Stable site.program (site.resolveCall callee args) :=
  closed_resolveCall (closed_stable site.program site.owner) callee args

theorem stable_declaredType (site : Site) (type : TypeExpr) (init : Option Expr) :
    Stable site.program (site.declaredType type init) :=
  closed_declaredType (closed_stable site.program site.owner) type init

theorem records_resolveCall (site : Site) (callee : Expr) (args : List Argument) :
    Records (site.resolveCall callee args) :=
  .bind fun settled => site.program.records_callee site.owner callee settled site.scope

end Site

/-! ## Passes -/

namespace Track

variable {ρ α β : Type} {prog : Program}

theorem meet_eq (prog : Program) (owner : String) (call callee : Expr) (args : List Argument)
    (st : Tracked ρ) :
    meet prog owner call callee args st =
      ((Site.resolveCall ⟨prog, owner, st.scope⟩ callee args st.memo).1,
        { st with
          memo := (Site.resolveCall ⟨prog, owner, st.scope⟩ callee args st.memo).2
          met := ⟨call, (Site.resolveCall ⟨prog, owner, st.scope⟩ callee args st.memo).1⟩ :: st.met }) :=
  rfl

/-- A property of actions is closed under what following the scope through a method does, seen from a type. -/
structure Tracks (program : Program) (owner : String) (Has : ∀ {α : Type}, Track ρ α → Prop) : Prop where
  pure : ∀ {α : Type} (value : α), Has (Pure.pure value : Track ρ α)
  bind : ∀ {α β : Type} {first : Track ρ α} {next : α → Track ρ β},
    Has first → (∀ value, Has (next value)) → Has (first >>= next)
  type : ∀ type init, Has (recalling program owner fun site => site.declaredType type init)
  declare : ∀ name type, Has (inScope (·.declare name type))
  within : ∀ {α : Type} change {action : Track ρ α}, Has action → Has (within change action)
  meet : ∀ call callee args, Has (meet program owner call callee args)

theorem Tracks.declareAll {Has : ∀ {α : Type}, Track ρ α → Prop} (h : Tracks prog owner Has) (type : TypeExpr)
    (declarators : List Declarator) : Has (Track.declareAll prog owner type declarators) := by
  induction declarators with
  | nil => exact h.pure ()
  | cons declarator rest ih => exact h.bind (h.type type declarator.init) fun _ => h.bind (h.declare _ _) fun _ => ih

theorem Tracks.visitor {Has : ∀ {α : Type}, Track Unit α → Prop} (h : Tracks prog owner Has) :
    (Closure.visitor prog owner).Respects NodeTest.any fun action _ => Has action where
  done := h.pure ()
  seq hFirst hSecond := h.bind hFirst fun _ => hSecond
  weaken hAction _ := hAction
  type _ := h.pure ()
  expr expr walk _ hWalk := by
    cases expr with
    | call _ callee _ args => exact h.bind (h.meet _ callee args) fun _ => hWalk
    | _ => exact hWalk
  pattern _ _ _ hWalk := hWalk
  stmt stmt _ _ hWalk := by
    cases stmt with
    | forLoop | forEach => exact h.within _ hWalk
    | _ => exact hWalk
  decl decl _ _ hWalk := h.bind hWalk fun _ => h.declareAll decl.type decl.declarators
  block _ _ _ hWalk := h.within _ hWalk
  method _ _ _ hWalk := h.within _ hWalk

/-- An action of a pass keeps the calls that are remembered and those that have been met. -/
structure Keeps (program : Program) (action : Track ρ α) : Prop where
  memo : ∀ state : Tracked ρ, state.memo.Kept program (action state).2.memo
  met : ∀ state : Tracked ρ, state.met <:+ (action state).2.met

namespace Keeps

/-- An action that leaves the memo and the calls alone keeps them. -/
theorem of_eq {action : Track ρ α} (hMemo : ∀ st, (action st).2.memo = st.memo)
    (hMet : ∀ st, (action st).2.met = st.met) : Keeps prog action where
  memo st := by
    rw [hMemo]
    exact .refl st.memo
  met st := (hMet st).symm ▸ suffix_refl st.met

theorem pure (val : α) : Keeps prog (Pure.pure val : Track ρ α) := .of_eq (fun _ => rfl) fun _ => rfl

theorem get : Keeps prog (MonadState.get : Track ρ (Tracked ρ)) := .of_eq (fun _ => rfl) fun _ => rfl

theorem bind {first : Track ρ α} {next : α → Track ρ β} (hFirst : Keeps prog first)
    (hNext : ∀ val, Keeps prog (next val)) : Keeps prog (first >>= next) where
  memo st := (hFirst.memo st).trans ((hNext (first st).1).memo (first st).2)
  met st := (hFirst.met st).trans ((hNext (first st).1).met (first st).2)

theorem gather (change : ρ → ρ) : Keeps prog (Track.gather change) := .of_eq (fun _ => rfl) fun _ => rfl

theorem inScope (change : Scope → Scope) : Keeps prog (Track.inScope change : Track ρ Unit) :=
  .of_eq (fun _ => rfl) fun _ => rfl

theorem within {action : Track ρ α} (change : Scope → Scope) (hAction : Keeps prog action) :
    Keeps prog (Track.within change action) where
  memo st := hAction.memo { st with scope := change st.scope }
  met st := hAction.met { st with scope := change st.scope }

theorem recalling (prog : Program) (owner : String) {action : Site → Recall α}
    (hAction : ∀ scope, Recall.Stable prog (action ⟨prog, owner, scope⟩)) :
    Keeps prog (Track.recalling prog owner action : Track ρ α) where
  memo st := (hAction st.scope).kept st.memo
  met st := suffix_refl st.met

theorem meet (prog : Program) (owner : String) (call callee : Expr) (args : List Argument) :
    Keeps prog (Track.meet prog owner call callee args : Track ρ Callee) where
  memo st := (Site.stable_resolveCall ⟨prog, owner, st.scope⟩ callee args).kept st.memo
  met _ := suffix_cons _ _

end Keeps

/-- An action of a pass is stable as far as it remembers calls. -/
structure Stable (program : Program) (action : Track ρ α) : Prop where
  kept : Keeps program action
  replay : ∀ (state : Tracked ρ) (later : CallMemo), (action state).2.memo.Kept program later →
    action { state with memo := later } = ((action state).1, { (action state).2 with memo := later })

namespace Stable

theorem pure (val : α) : Stable prog (Pure.pure val : Track ρ α) := ⟨.pure val, fun _ _ _ => rfl⟩

theorem bind {first : Track ρ α} {next : α → Track ρ β} (hFirst : Stable prog first)
    (hNext : ∀ val, Stable prog (next val)) : Stable prog (first >>= next) where
  kept := hFirst.kept.bind fun val => (hNext val).kept
  replay st later hLater := by
    have hMiddle : (first st).2.memo.Kept prog later :=
      ((hNext (first st).1).kept.memo (first st).2).trans hLater
    have hAgain := hFirst.replay st later hMiddle
    show next (first { st with memo := later }).1 (first { st with memo := later }).2 = _
    rw [hAgain]
    exact (hNext (first st).1).replay (first st).2 later hLater

theorem inScope (change : Scope → Scope) : Stable prog (Track.inScope change : Track ρ Unit) :=
  ⟨.inScope change, fun _ _ _ => rfl⟩

theorem within {action : Track ρ α} (change : Scope → Scope) (hAction : Stable prog action) :
    Stable prog (Track.within change action) where
  kept := hAction.kept.within change
  replay st later hLater := by
    have hAgain := hAction.replay { st with scope := change st.scope } later hLater
    show ((action { st with memo := later, scope := change st.scope }).1,
      { (action { st with memo := later, scope := change st.scope }).2 with scope := st.scope }) = _
    rw [hAgain]
    rfl

theorem recalling (prog : Program) (owner : String) {action : Site → Recall α}
    (hAction : ∀ scope, Recall.Stable prog (action ⟨prog, owner, scope⟩)) :
    Stable prog (Track.recalling prog owner action : Track ρ α) where
  kept := .recalling prog owner hAction
  replay st later hLater := by
    have hAgain := (hAction st.scope).replay st.memo later hLater
    show ((action ⟨prog, owner, st.scope⟩ later).1,
      { st with memo := (action ⟨prog, owner, st.scope⟩ later).2 }) = _
    rw [hAgain]
    rfl

theorem meet (prog : Program) (owner : String) (call callee : Expr) (args : List Argument) :
    Stable prog (Track.meet prog owner call callee args : Track ρ Callee) where
  kept := .meet prog owner call callee args
  replay st later hLater := by
    have hAgain := (Site.stable_resolveCall ⟨prog, owner, st.scope⟩ callee args).replay st.memo later hLater
    rw [meet_eq, meet_eq]
    dsimp only
    rw [hAgain]

theorem tracks (prog : Program) (owner : String) :
    Tracks prog owner fun {α} (action : Track ρ α) => Stable prog action where
  pure := .pure
  bind := .bind
  type type init := .recalling prog owner fun scope => Site.stable_declaredType ⟨prog, owner, scope⟩ type init
  declare _ _ := .inScope _
  within change _ hAction := hAction.within change
  meet := .meet prog owner

end Stable

end Track

/-! ## The methods that a shader needs -/

namespace Program

theorem stable_callsOf (prog : Program) (owner : String) (method : MethodDecl) :
    Recall.Stable prog (prog.callsOf owner method) := by
  have hVisit := (Track.Stable.tracks prog owner).visitor.visitMethod method
  refine ⟨fun memo => hVisit.kept.memo (.start memo ()), fun memo later hLater => ?_⟩
  have hAgain : (Closure.visitor prog owner).visitMethod method (.start later ()) = _ :=
    hVisit.replay (.start memo ()) later hLater
  simp only [callsOf]
  rw [hAgain]
  rfl

theorem stable_explore (prog : Program) (fuel : Nat) (frontier : Frontier) :
    Recall.Stable prog (prog.explore fuel frontier) := by
  induction fuel generalizing frontier with
  | zero => exact .pure _
  | succ fuel ih =>
    unfold explore
    split
    · exact .pure _
    · exact .bind (prog.stable_callsOf _ _) fun found => ih _

/-- The methods that a shader needs are the same in every pass. -/
theorem stable_reachableMethods (prog : Program) : Recall.Stable prog prog.reachableMethods := by
  unfold reachableMethods
  split
  · exact prog.stable_explore _ _
  · exact .pure _

end Program

end Shaderlift
