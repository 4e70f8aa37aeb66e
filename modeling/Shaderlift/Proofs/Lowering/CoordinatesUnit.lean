import Shaderlift.Proofs.Lowering.Coordinates
import Shaderlift.Proofs.Lowering.FollowingUnit
import Shaderlift.Proofs.Lowering.Frames

/-!
# Coordinates through methods

Which coordinates the statements of the entry point note is told from the source: a name counts from where nothing
hides it (`Stmt.uses`). The functions and methods outside the entry point note none, since the rules forbid it.
There is one gap: the rules let the sections of a switch share the frame around it, so a variable of a section hides
a name from them where it does not hide it from lowering. `Tells` compares the two walks statement by statement.
-/

namespace Shaderlift

open List
open Bool (and_eq_true_iff or_eq_true_iff)

/-! ## References in statements -/

mutual

/-- Decide whether a statement declares a name for what comes after it. -/
def Stmt.hides (name : String) (stmt : Stmt) : Bool :=
  match stmt with
  | .declare _ decl => decl.names.contains name
  | .ifElse _ _ thenBranch elseBranch => thenBranch.hides name || hidesStmt? name elseBranch
  | .whileLoop _ _ body => body.hides name
  | .doWhile _ body _ => body.hides name
  | _ => false

/-- Decide whether a statement that may be left out declares a name for what comes after it. -/
def hidesStmt? (name : String) : Option Stmt → Bool
  | some stmt => stmt.hides name
  | none => false

end

/-- Decide whether the start of a `for` loop declares a name. -/
def hidesInit (name : String) : Option ForInit → Bool
  | some (.decl decl) => decl.names.contains name
  | _ => false

/-- Decide whether initial values use coordinates. Each name hides them from the initial values after its own. -/
def usesInits (program : Program) (id : SpecialId) (loose typed shown : Bool) : List Declarator → Bool
  | [] => false
  | declarator :: rest =>
    (shown && declarator.init.any (Expr.uses program id loose typed)) ||
      usesInits program id loose typed (shown && declarator.name != id.source) rest

/-- Decide whether a written type says what is expected of initial values. -/
def LocalDecl.isTyped (program : Program) (decl : LocalDecl) : Bool :=
  !decl.type.isInferred && (program.valueType? decl.type).isSome

def LocalDecl.uses (program : Program) (id : SpecialId) (loose shown : Bool) (decl : LocalDecl) : Bool :=
  usesInits program id loose (loose || decl.isTyped program) shown decl.declarators

/-- Decide whether the start of a `for` loop uses coordinates. -/
def usesInit (program : Program) (id : SpecialId) (loose shown : Bool) : Option ForInit → Bool
  | some (.decl decl) => decl.uses program id loose shown
  | some (.exprs values) => shown && usesItems program id loose values
  | none => false

def SwitchLabel.uses (program : Program) (id : SpecialId) (loose : Bool) : SwitchLabel → Bool
  | .case (.constant val) _ => val.uses program id loose loose
  | .case _ _ => false
  | .otherwise => false

mutual

/-- Decide whether a statement uses coordinates outside local functions. `shown` says that nothing hides them at its
start, and `returns` that a type is expected of returned values. -/
def Stmt.uses (program : Program) (id : SpecialId) (loose returns shown : Bool) (stmt : Stmt) : Bool :=
  match stmt with
  | .block _ body => body.uses program id loose returns shown
  | .unsafeBlock _ body => body.uses program id loose returns shown
  | .declare _ decl => decl.uses program id loose shown
  | .expr _ val => shown && val.uses program id loose loose
  | .ifElse _ cond thenBranch elseBranch =>
    (shown && cond.uses program id loose loose) ||
      (thenBranch.uses program id loose returns shown ||
        usesStmt? program id loose returns (shown && !thenBranch.hides id.source) elseBranch)
  | .whileLoop _ cond body =>
    (shown && cond.uses program id loose loose) || body.uses program id loose returns shown
  | .doWhile _ body cond =>
    body.uses program id loose returns shown ||
      ((shown && !body.hides id.source) && cond.uses program id loose loose)
  | .forLoop _ init cond step body =>
    let inside := shown && !hidesInit id.source init
    usesInit program id loose shown init || ((inside && cond.any (Expr.uses program id loose loose)) ||
      ((inside && usesItems program id loose step) || body.uses program id loose returns inside))
  | .switchOn _ scrutinee sections =>
    (shown && scrutinee.uses program id loose loose) || usesSections program id loose returns shown sections
  | .returning _ val => shown && val.any (Expr.uses program id loose returns)
  | _ => false

def usesStmt? (program : Program) (id : SpecialId) (loose returns shown : Bool) : Option Stmt → Bool
  | some stmt => stmt.uses program id loose returns shown
  | none => false

def usesStmts (program : Program) (id : SpecialId) (loose returns shown : Bool) : List Stmt → Bool
  | [] => false
  | stmt :: rest =>
    stmt.uses program id loose returns shown ||
      usesStmts program id loose returns (shown && !stmt.hides id.source) rest

def Block.uses (program : Program) (id : SpecialId) (loose returns shown : Bool) (block : Block) : Bool :=
  match block with
  | ⟨stmts, _⟩ => usesStmts program id loose returns shown stmts

def usesSections (program : Program) (id : SpecialId) (loose returns shown : Bool) : List SwitchSection → Bool
  | [] => false
  | ⟨marks, stmts, _⟩ :: rest =>
    (shown && marks.any (SwitchLabel.uses program id loose)) ||
      (usesStmts program id loose returns shown stmts || usesSections program id loose returns shown rest)

end

theorem Stmt.hides_localFunction (name : String) (span : Span) (fn : MethodDecl) :
    (Stmt.localFunction span fn).hides name = false := by
  unfold Stmt.hides
  rfl

theorem Stmt.uses_localFunction (prog : Program) (id : SpecialId) (loose returns shown : Bool) (span : Span)
    (fn : MethodDecl) : (Stmt.localFunction span fn).uses prog id loose returns shown = false := by
  unfold Stmt.uses
  rfl

/-- Decide whether the body of a method uses coordinates outside local functions. -/
def usesBody (program : Program) (id : SpecialId) (loose returns shown isVoid : Bool) : Option MethodBody → Bool
  | some (.block body) => body.uses program id loose returns shown
  | some (.expr val) => shown && val.uses program id loose (if isVoid then loose else returns)
  | none => false

/-- Decide whether a method uses coordinates outside local functions. -/
def MethodDecl.uses (program : Program) (id : SpecialId) (loose returns shown : Bool) (method : MethodDecl) : Bool :=
  usesBody program id loose returns (shown && !(method.params.map Param.name).contains id.source)
    method.header.returnType.isVoid method.body

def NodeTest.sectionsSpare (name : String) : NodeTest :=
  { NodeTest.any with
    stmt := fun stmt =>
      match stmt with
      | .switchOn _ _ sections => !(declaredSections sections).contains name
      | _ => true }

namespace Lower

open Track Legality

/-! ## Both walks at once -/

variable {α β γ : Type}

def shows (program : Program) (owner : String) (id : SpecialId) (scope : Scope) : Bool :=
  Site.shows ⟨program, owner, scope⟩ id.source

/-- What a part of lowering does beside a part of the walk of the rules. The rules stay in the entry point or outside
it; lowering ends where coordinates are hidden or not, as `shown'` says, keeps what has been noted and notes what it
must. If all is clear and the rules can see what lowering can, then this is so afterwards as well, and nothing is
noted but what may be. -/
structure Told (program : Program) (owner : String) (id : SpecialId) (Clear : Prop) (shown shown' may must : Bool)
    (rules rules' : Tracked Findings) (state state' : Tracked Gathered) : Prop where
  entry : rules'.gathered.inEntry = rules.gathered.inEntry
  scope : shows program owner id state'.scope = shown'
  keeps : Noted state id → Noted state' id
  noted : must = true → Noted state' id
  seen : Clear → (shown = true → shows program owner id rules.scope = true) →
    shown' = true → shows program owner id rules'.scope = true
  bounded : Clear → (shown = true → shows program owner id rules.scope = true) →
    Noted state' id → Noted state id ∨ may = true

theorem Told.trans {prog : Program} {owner : String} {id : SpecialId} {Clear : Prop} {shown shown' shown'' : Bool}
    {may must may' must' : Bool} {rules rules' rules'' : Tracked Findings} {st state' state'' : Tracked Gathered}
    (hFirst : Told prog owner id Clear shown shown' may must rules rules' st state')
    (hSecond : Told prog owner id Clear shown' shown'' may' must' rules' rules'' state' state'') :
    Told prog owner id Clear shown shown'' (may || may') (must || must') rules rules'' st state'' where
  entry := hSecond.entry.trans hFirst.entry
  scope := hSecond.scope
  keeps hNoted := hSecond.keeps (hFirst.keeps hNoted)
  noted hMust := by
    rcases or_eq_true_iff.mp hMust with hThis | hThat
    · exact hSecond.keeps (hFirst.noted hThis)
    · exact hSecond.noted hThat
  seen hClear hShows := hSecond.seen hClear (hFirst.seen hClear hShows)
  bounded hClear hShows hNoted := by
    rcases hSecond.bounded hClear (hFirst.seen hClear hShows) hNoted with hMiddle | hMay
    · exact (hFirst.bounded hClear hShows hMiddle).imp_right fun hMay => by rw [hMay, Bool.true_or]
    · exact .inr (by rw [hMay, Bool.or_true])

/-- A part of lowering goes beside a part of the walk of the rules. -/
structure Tells (program : Program) (owner : String) (id : SpecialId) (Clear : Prop)
    (inEntry shown shown' may must : Bool) (check : Check Unit) (write : Lower α) : Prop where
  vouches : Vouches program check True
  told : ∀ rules state, rules.gathered.inEntry = inEntry → shows program owner id state.scope = shown →
    Quiet (check rules).2 →
      Told program owner id Clear shown shown' (inEntry && may) must rules (check rules).2 state (write state).2

namespace Tells

variable {prog : Program} {owner : String} {id : SpecialId} {Clear : Prop}
  {inEntry shown shown' shown'' may must may' must' : Bool} {check check₂ : Check Unit} {write : Lower α}

theorem seq {next : α → Lower β} (hFirst : Tells prog owner id Clear inEntry shown shown' may must check write)
    (hSecond : ∀ val, Tells prog owner id Clear inEntry shown' shown'' may' must' check₂ (next val)) :
    Tells prog owner id Clear inEntry shown shown'' (may || may') (must || must') (do check; check₂)
      (write >>= next) where
  vouches := hFirst.vouches.after fun _ => (hSecond (write (.start .empty .empty)).1).vouches
  told rules st hEntry hShown hQuiet := by
    have hNext := hSecond (write st).1
    have hThis := hFirst.told rules st hEntry hShown (hNext.vouches.quiet _ hQuiet).1
    have hThat := hNext.told _ _ (hThis.entry.trans hEntry) hThis.scope hQuiet
    rw [Bool.and_or_distrib_left]
    exact hThis.trans hThat

theorem map {result : α → β} (hWrite : Tells prog owner id Clear inEntry shown shown' may must check write) :
    Tells prog owner id Clear inEntry shown shown' may must check (do let val ← write; pure (result val)) :=
  ⟨hWrite.vouches, hWrite.told⟩

/-- What is an error need not be told. -/
theorem of_reject (hReject : Vouches prog check False) :
    Tells prog owner id Clear inEntry shown shown' may must check write where
  vouches := hReject.weaken fun _ => trivial
  told rules _ _ _ hQuiet := (hReject.quiet rules hQuiet).2.elim

variable {claim : Prop} {names : List String}

/-- Expressions outside the entry point use no coordinates that lowering can see, since the rules would see them. -/
theorem of_uses (hCheck : Denies prog owner id.source check claim)
    (hWrite : ∀ scope, Uses (⟨prog, owner, scope⟩) id Clear may must write) (hClaim : claim → may = false) :
    Tells prog owner id Clear inEntry shown shown (shown && may) (shown && must) check write where
  vouches := hCheck.vouches
  told rules st hEntry hShown hQuiet := by
    have hUses := hWrite st.scope
    have hScope : (write st).2.scope = st.scope := hUses.stays st rfl
    refine
      { entry := hCheck.steady rules
        scope := by rw [hScope, hShown]
        keeps := hUses.keeps st rfl
        noted := fun hMust => ?_
        seen := fun _ hShows => by rwa [hCheck.scope rules]
        bounded := fun hClear hShows hNoted => ?_ }
    · obtain ⟨hThere, hMust⟩ := and_eq_true_iff.mp hMust
      exact hUses.noted st rfl (hShown.trans hThere) hMust
    · refine (hUses.bounded hClear st rfl hNoted).imp_right fun ⟨hThere, hMay⟩ => ?_
      have hTrue : shown = true := hShown.symm.trans hThere
      cases inEntry with
      | true => rw [hTrue, hMay]; rfl
      | false =>
        rw [hClaim (hCheck.holds rules hQuiet hEntry (hShows hTrue))] at hMay
        cases hMay

/-- Lowering does something that has no part in coordinates. -/
theorem of_walk (hCheck : Denies prog owner id.source check claim)
    (hWrite : ∀ site : Site, Uses site id Clear false false write) :
    Tells prog owner id Clear inEntry shown shown false false check write := by
  have hTells : Tells prog owner id Clear inEntry shown shown (shown && false) (shown && false) check write :=
    .of_uses hCheck (fun _ => hWrite _) fun _ => rfl
  rwa [Bool.and_false] at hTells

/-- The rules check something on the side first. -/
theorem before {first : Check Unit} {next : Unit → Check Unit} (hFirst : Beside prog owner first)
    (hSteady : Steady first) (hNext : ∀ val, Tells prog owner id Clear inEntry shown shown' may must (next val) write) :
    Tells prog owner id Clear inEntry shown shown' may must (first >>= next) write :=
  (of_walk (.of_beside hFirst hSteady) fun _ => .pure ()).seq fun _ => hNext ()

/-- Lowering does something in which neither the rules nor coordinates have a part. -/
theorem of_nothing (hWrite : ∀ site : Site, Uses site id Clear false false write) :
    Tells prog owner id Clear inEntry shown shown false false (pure ()) write := by
  have hNothing : Denies prog owner id.source (pure ()) True :=
    ⟨.done (), fun _ => rfl, fun _ => rfl, fun _ _ _ _ => trivial⟩
  exact .of_walk hNothing hWrite

theorem done (val : α) : Tells prog owner id Clear inEntry shown shown false false (pure ()) (pure val) :=
  .of_nothing fun _ => .pure val

theorem prepare {first : Lower β} {next : β → Lower α} (hFirst : ∀ site : Site, Uses site id Clear false false first)
    (hNext : ∀ val, Tells prog owner id Clear inEntry shown shown' may must check (next val)) :
    Tells prog owner id Clear inEntry shown shown' may must check (first >>= next) :=
  (of_nothing hFirst).seq hNext

/-- Both go into a scope in which coordinates may be hidden, and come back. -/
theorem within {change change' : Scope → Scope} {inner : Bool}
    (hCheck : ∀ scope, shows prog owner id (change scope) = (shows prog owner id scope && inner))
    (hWrite : ∀ scope, shows prog owner id (change' scope) = (shows prog owner id scope && inner))
    (hInner : Tells prog owner id Clear inEntry (shown && inner) shown' may must check write) :
    Tells prog owner id Clear inEntry shown shown may must (within change check) (within change' write) where
  vouches := hInner.vouches.within change
  told rules st hEntry hShown hQuiet := by
    have hThere : shows prog owner id (change' st.scope) = (shown && inner) := by rw [hWrite, hShown]
    have hTold := hInner.told { rules with scope := change rules.scope } { st with scope := change' st.scope }
      hEntry hThere hQuiet
    refine
      { entry := hTold.entry
        scope := hShown
        keeps := hTold.keeps
        noted := hTold.noted
        seen := fun _ hShows => hShows
        bounded := fun hClear hShows => hTold.bounded hClear fun hBoth => ?_ }
    obtain ⟨hTrue, hOpen⟩ := and_eq_true_iff.mp hBoth
    rw [hCheck, hShows hTrue, hOpen]
    rfl

/-- Both go into a scope in which the same is hidden, and come back. -/
theorem aside {change : Scope → Scope}
    (hChange : ∀ scope, shows prog owner id (change scope) = shows prog owner id scope)
    (hInner : Tells prog owner id Clear inEntry shown shown' may must check write) :
    Tells prog owner id Clear inEntry shown shown may must (Track.within change check) (Track.within change write) := by
  have hOpen := fun scope => (hChange scope).trans (Bool.and_true _).symm
  rw [← Bool.and_true shown] at hInner
  exact hInner.within hOpen hOpen

theorem shows_eq_of_alike {scope scope' : Scope} (hAlike : scope.AlikeBut names scope') (hName : id.source ∉ names) :
    shows prog owner id scope = shows prog owner id scope' := by
  unfold shows Site.shows
  rw [hAlike.contains hName]

/-- Lowering takes a frame of its own, where the rules take none. -/
theorem framed_right (hNames : Declaring names check) (hSpared : Clear → id.source ∉ names)
    (hWrite : Tells prog owner id Clear inEntry shown shown' may must check write) :
    Tells prog owner id Clear inEntry shown shown may must check (Track.framed write) where
  vouches := hWrite.vouches
  told rules st hEntry hShown hQuiet := by
    have hTold := hWrite.told rules { st with scope := st.scope.push } hEntry hShown hQuiet
    refine
      { entry := hTold.entry
        scope := hShown
        keeps := hTold.keeps
        noted := hTold.noted
        seen := fun hClear hShows hTrue => ?_
        bounded := hTold.bounded }
    rw [shows_eq_of_alike (hNames.scope rules) (hSpared hClear)]
    exact hShows hTrue

/-- Lowering takes an expression last that the rules walk first. -/
theorem swap {write₂ : Lower β} {result : β → α → γ} (hLess : shown' = true → shown = true)
    (hCheck : Denies prog owner id.source check claim)
    (hWrite : ∀ scope, Uses (⟨prog, owner, scope⟩) id Clear may' must' write) (hClaim : claim → may' = false)
    (hSecond : Tells prog owner id Clear inEntry shown shown' may must check₂ write₂) :
    Tells prog owner id Clear inEntry shown shown' (may || (shown' && may')) (must || (shown' && must'))
      (do check; check₂) (do
      let second ← write₂
      let first ← write
      pure (result second first)) where
  vouches := hCheck.vouches.after fun _ => hSecond.vouches
  told rules st hEntry hShown hQuiet := by
    have hMiddle := (hCheck.steady rules).trans hEntry
    have hBody := hSecond.told (check rules).2 st hMiddle hShown hQuiet
    have hLast := (of_uses hCheck hWrite hClaim).told rules (write₂ st).2 hEntry hBody.scope
      (hSecond.vouches.quiet _ hQuiet).1
    refine
      { entry := hBody.entry.trans (hCheck.steady rules)
        scope := hLast.scope
        keeps := fun hNoted => hLast.keeps (hBody.keeps hNoted)
        noted := fun hMust => ?_
        seen := fun hClear hShows => hBody.seen hClear (hCheck.scope rules ▸ hShows)
        bounded := fun hClear hShows hNoted => ?_ }
    · rcases or_eq_true_iff.mp hMust with hThis | hThat
      · exact hLast.keeps (hBody.noted hThis)
      · exact hLast.noted hThat
    · rw [Bool.and_or_distrib_left]
      rcases hLast.bounded hClear (fun hTrue => hShows (hLess hTrue)) hNoted with hBefore | hMay
      · refine (hBody.bounded hClear (hCheck.scope rules ▸ hShows) hBefore).imp_right fun hMay => ?_
        rw [hMay, Bool.true_or]
      · exact .inr (by rw [hMay, Bool.or_true])

end Tells

abbrev TellsIn (context : LowerContext) (id : SpecialId) (Clear : Prop) (inEntry shown shown' may must : Bool)
    (check : Check Unit) (write : Lower α) : Prop :=
  Tells context.program context.owner id Clear inEntry shown shown' may must check write

/-! ## Scopes -/

section Scopes

variable (prog : Program) (owner : String) (id : SpecialId)

theorem shows_push (scope : Scope) : shows prog owner id scope.push = shows prog owner id scope := rfl

theorem shows_declare (scope : Scope) (name : String) (type : Option ValueType) :
    shows prog owner id (scope.declare name type) = (shows prog owner id scope && name != id.source) := by
  unfold shows Site.shows Scope.contains
  dsimp only
  rw [Scope.local?_declare]
  by_cases hName : id.source = name
  · rw [if_pos hName, hName]
    simp
  · rw [if_neg hName, bne_iff_ne.mpr (Ne.symm hName), Bool.and_true]

theorem shows_withFunctions (list : List Stmt) (scope : Scope) :
    shows prog owner id (withFunctions prog list scope) = shows prog owner id scope := by
  induction list generalizing scope with
  | nil => rfl
  | cons first rest ih =>
    refine (ih _).trans ?_
    cases first <;> rfl

theorem shows_withParams (params : List Param) (scope : Scope) : shows prog owner id (withParams prog params scope) =
      (shows prog owner id scope && !(params.map Param.name).contains id.source) := by
  induction params generalizing scope with
  | nil => exact (Bool.and_true _).symm
  | cons param rest ih =>
    refine (ih _).trans ?_
    rw [shows_declare, map_cons, contains_cons, Bool.not_or, Bool.and_assoc, bne, BEq.comm]

end Scopes

/-! ## Declarations -/

section Declarations

variable {ctx : LowerContext} {id : SpecialId} {Clear : Prop} (hClear : Clear → SparesPulled ctx.program id)

theorem usesInits_hidden (prog : Program) (loose typed : Bool) (list : List Declarator) :
    usesInits prog id loose typed false list = false := by
  induction list with
  | nil => rfl
  | cons declarator rest ih => exact ih

variable {typed shown : Bool} {st : Tracked Gathered} {type : Option ValueType}

theorem usesInits_eq_false_of_all {prog : Program} {loose : Bool} {list : List Declarator}
    (hAll : (list.all fun declarator => declarator.all (.without id.source)) = true) :
    usesInits prog id loose typed shown list = false := by
  induction list generalizing shown with
  | nil => rfl
  | cons declarator rest ih =>
    obtain ⟨hFirst, hRest⟩ := and_eq_true_iff.mp hAll
    have hInit := (and_eq_true_iff.mp hFirst).2
    refine Bool.or_eq_false_iff.mpr ⟨Bool.and_eq_false_iff.mpr (.inr ?_), ih hRest⟩
    cases hSome : declarator.init with
    | none => rfl
    | some init =>
      rw [hSome] at hInit
      unfold allExpr? at hInit
      exact Expr.uses_eq_false_of_all hInit

theorem uses_declType (site : Site) (decl : LocalDecl) : Uses site id Clear false false (declType ctx decl) := by
  have hReport : ∀ inferred : Option ValueType, Uses site id Clear false false (do
      if inferred.isNone then reportUntyped decl.declarators
      pure inferred) := by
    intro inferred
    dsimp only
    split
    · exact .after (.gather fun _ => rfl) fun _ => .pure _
    · exact .pure _
  unfold declType
  refine .ite ?_ (.pure _)
  split
  · exact .after (.look ctx _) hReport
  · exact hReport none

/-- The state in which the names of a declaration are written: its type has been found and spelled. -/
def atNames (context : LowerContext) (decl : LocalDecl) (state : Tracked Gathered) : Tracked Gathered :=
  (typeText decl (declType context decl state).1 (declType context decl state).2).2

theorem uses_typeText (site : Site) (decl : LocalDecl) (type : Option ValueType) :
    Uses site id Clear false false (typeText decl type) := by
  cases type with
  | none => exact .pure _
  | some type => exact (Uses.chained.spell type).alone

/-- A type is expected of the initial values of a declaration that is typed. -/
theorem declType_ne_none {decl : LocalDecl} (hTyped : decl.isTyped ctx.program = true) (st : Tracked Gathered) :
    (declType ctx decl st).1 ≠ none := by
  obtain ⟨hWritten, hVal⟩ := and_eq_true_iff.mp hTyped
  unfold declType
  rw [if_neg (by simpa using hWritten)]
  intro hNone
  have hSame : ctx.program.valueType? decl.type = none := hNone
  rw [hSame] at hVal
  cases hVal

/-- What a part of lowering does by itself: it ends where coordinates are hidden or not, keeps what has been noted,
notes what it must, and if all is clear notes nothing but what it may. -/
structure Written (context : LowerContext) (id : SpecialId) (Clear : Prop) (shown' may must : Bool)
    (state state' : Tracked Gathered) : Prop where
  scope : shows context.program context.owner id state'.scope = shown'
  keeps : Noted state id → Noted state' id
  noted : must = true → Noted state' id
  bounded : Clear → Noted state' id → Noted state id ∨ may = true

theorem Written.trans {shown' shown'' may must may' must' : Bool} {state' state'' : Tracked Gathered}
    (hFirst : Written ctx id Clear shown' may must st state')
    (hSecond : Written ctx id Clear shown'' may' must' state' state'') :
    Written ctx id Clear shown'' (may || may') (must || must') st state'' where
  scope := hSecond.scope
  keeps hNoted := hSecond.keeps (hFirst.keeps hNoted)
  noted hMust := by
    rcases or_eq_true_iff.mp hMust with hThis | hThat
    · exact hSecond.keeps (hFirst.noted hThis)
    · exact hSecond.noted hThat
  bounded hAll hNoted := by
    rcases hSecond.bounded hAll hNoted with hMiddle | hMay
    · exact (hFirst.bounded hAll hMiddle).imp_right fun hMay => by rw [hMay, Bool.true_or]
    · exact .inr (by rw [hMay, Bool.or_true])

/-- The state in which a name has been written and declared. -/
def afterName (context : LowerContext) (type : Option ValueType) (declarator : Declarator)
    (state : Tracked Gathered) : Tracked Gathered :=
  let first := (namePart context type declarator state).2
  { first with scope := first.scope.declare declarator.name type }

include hClear

/-- A declared name is hidden after its own initial value. -/
theorem written_afterName (hTyped : typed = true → type ≠ none) (declarator : Declarator)
    (hShown : shows ctx.program ctx.owner id st.scope = shown) :
    Written ctx id Clear (shown && declarator.name != id.source)
      (shown && declarator.init.any (Expr.uses ctx.program id true true))
      (shown && declarator.init.any (Expr.uses ctx.program id false typed)) st (afterName ctx type declarator st) := by
  have hText : Uses (siteIn ctx st.scope) id Clear
      (declarator.init.any (Expr.uses ctx.program id true true))
      (declarator.init.any (Expr.uses ctx.program id false typed)) (namePart ctx type declarator) := by
    unfold namePart
    cases declarator.init with
    | none => exact .pure _
    | some init => exact .map (uses_hinted hClear st.scope hTyped init)
  constructor
  · have hScope : (namePart ctx type declarator st).2.scope = st.scope := hText.stays st rfl
    rw [← hShown, ← hScope]
    exact shows_declare ctx.program ctx.owner id _ declarator.name type
  · exact hText.keeps st rfl
  · intro hMust
    obtain ⟨hThere, hInit⟩ := and_eq_true_iff.mp hMust
    exact hText.noted st rfl (hShown.trans hThere) hInit
  · intro hAll hNoted
    refine (hText.bounded hAll st rfl hNoted).imp_right fun ⟨hThere, hInit⟩ => ?_
    exact and_eq_true_iff.mpr ⟨hShown.symm.trans hThere, hInit⟩

theorem written_declarators (hTyped : typed = true → type ≠ none) (list : List Declarator)
    (hShown : shows ctx.program ctx.owner id st.scope = shown) :
    Written ctx id Clear (shown && !(list.map Declarator.name).contains id.source)
      (usesInits ctx.program id true true shown list) (usesInits ctx.program id false typed shown list) st
      (declarators ctx type list st).2 := by
  induction list generalizing st shown with
  | nil => exact ⟨hShown.trans (Bool.and_true _).symm, fun hNoted => hNoted, nofun, fun _ hNoted => .inl hNoted⟩
  | cons declarator rest ih =>
    have hFirst := written_afterName hClear hTyped declarator hShown
    rw [declarators_cons, map_cons, contains_cons, Bool.not_or, ← Bool.and_assoc, BEq.comm]
    exact hFirst.trans (ih hFirst.scope)

/-- A declaration is told. The rules walk its initial values before any of its names is declared, so they see what
lowering sees in each. -/
theorem tells_localDecl {inEntry : Bool} (decl : LocalDecl) :
    TellsIn ctx id Clear inEntry shown (shown && !decl.names.contains id.source)
      (decl.uses ctx.program id true shown) (decl.uses ctx.program id false shown)
      (ctx.rules.visitDecl decl) (localDecl ctx decl) := by
  have hCheck : Denies ctx.program ctx.owner id.source (checkDecl ctx.program decl) True :=
    .of_beside ((closed_beside ctx.program ctx.owner).checkDecl decl)
      ((closed_steady ctx.program ctx.owner).checkDecl decl)
  have hWalk := respects_denies ctx.program ctx.owner id.isSome_ofName?_source
  have hParts := hCheck.seq ((hWalk.type decl.type).seq (hWalk.visitDeclarators decl.declarators))
  have hDeclare : Vouches ctx.program (declareAll ctx.program ctx.owner decl.type decl.declarators) True :=
    .declareAll ctx.program ctx.owner decl.type decl.declarators
  refine ⟨hParts.vouches.after fun _ => hDeclare, fun rules st hEntry hShown hQuiet => ?_⟩
  have hStart : Uses (siteIn ctx st.scope) id Clear false false (declType ctx decl >>= typeText decl) :=
    .after (uses_declType _ decl) fun type => uses_typeText _ decl type
  have hScope : (atNames ctx decl st).scope = st.scope := hStart.stays st rfl
  have hRun : (localDecl ctx decl st).2 =
      (declarators ctx (declType ctx decl st).1 decl.declarators (atNames ctx decl st)).2 := by
    rw [localDecl_eq]
    rfl
  have hTyped : decl.isTyped ctx.program = true → (declType ctx decl st).1 ≠ none :=
    fun hTyped => declType_ne_none hTyped st
  have hWritten := written_declarators hClear hTyped decl.declarators (hScope.symm ▸ hShown)
  rw [← hRun] at hWritten
  refine
    { entry := (congrArg Findings.inEntry (gathered_declareAll _ _ _ _ _)).trans (hParts.steady rules)
      scope := hWritten.scope
      keeps := fun hNoted => hWritten.keeps (hStart.keeps st rfl hNoted)
      noted := hWritten.noted
      seen := fun _ hShows hOpen => ?_
      bounded := fun hAll hShows hNoted => ?_ }
  · obtain ⟨hTrue, hFree⟩ := and_eq_true_iff.mp hOpen
    have hNames := (declaring_visitDecl ctx.program ctx.owner decl).scope rules
    rw [Tells.shows_eq_of_alike hNames (by simpa using hFree)]
    exact hShows hTrue
  · rcases hWritten.bounded hAll hNoted with hMiddle | hUses
    · exact .inl ((hStart.bounded hAll st rfl hMiddle).resolve_right nofun)
    · -- Outside the entry point the rules would have reported what an initial value uses.
      refine .inr (and_eq_true_iff.mpr ⟨?_, hUses⟩)
      cases inEntry with
      | true => rfl
      | false =>
        cases shown with
        | false =>
          rw [usesInits_hidden] at hUses
          cases hUses
        | true =>
          have hInits := hParts.holds rules (hDeclare.quiet _ hQuiet).1 hEntry (hShows rfl)
          rw [usesInits_eq_false_of_all hInits.2.2] at hUses
          cases hUses

end Declarations

/-! ## Expressions -/

section Expressions

variable {ctx : LowerContext} {id : SpecialId} {Clear : Prop} (hClear : Clear → SparesPulled ctx.program id)
  {inEntry shown : Bool}

include hClear

theorem tells_hinted {hint : Option ValueType} {typed : Bool} (hTyped : typed = true → hint ≠ none) (val : Expr) :
    TellsIn ctx id Clear inEntry shown shown (shown && val.uses ctx.program id true true)
      (shown && val.uses ctx.program id false typed)
      (ctx.rules.visitExpr val) (hinted ctx hint val) :=
  .of_uses ((respects_denies ctx.program ctx.owner id.isSome_ofName?_source).visitExpr val)
    (fun scope => uses_hinted hClear scope hTyped val) Expr.uses_eq_false_of_all

theorem tells_expr? (val : Option Expr) : TellsIn ctx id Clear inEntry shown shown
      (shown && val.any (Expr.uses ctx.program id true true)) (shown && val.any (Expr.uses ctx.program id false false))
      (ctx.rules.visitExpr? val) (expr? ctx val) := by
  unfold Visitor.visitExpr?
  cases val with
  | none =>
    rw [Option.any_none, Option.any_none, Bool.and_false]
    exact .done _
  | some val => exact tells_hinted hClear (untyped none) val

theorem uses_exprs (scope : Scope) (values : List Expr) :
    Uses (siteIn ctx scope) id Clear (usesItems ctx.program id true values)
      (usesItems ctx.program id false values) (exprs ctx values) := by
  induction values with
  | nil =>
    unfold usesItems
    exact .pure _
  | cons val rest ih =>
    unfold usesItems
    exact .bind (uses_hinted hClear scope (untyped none) val) fun _ => .map ih

theorem tells_exprs (values : List Expr) :
    TellsIn ctx id Clear inEntry shown shown (shown && usesItems ctx.program id true values)
      (shown && usesItems ctx.program id false values)
      (ctx.rules.visitExprs values) (exprs ctx values) :=
  .of_uses ((respects_denies ctx.program ctx.owner id.isSome_ofName?_source).visitExprs values)
    (fun scope => uses_exprs hClear scope values) usesItems_eq_false_of_all

theorem tells_forInit (init : Option ForInit) : TellsIn ctx id Clear inEntry shown (shown && !hidesInit id.source init)
      (usesInit ctx.program id true shown init) (usesInit ctx.program id false shown init)
      (ctx.rules.visitForInit init) (forInit ctx init) := by
  match init with
  | none =>
    unfold hidesInit
    rw [Bool.not_false, Bool.and_true]
    exact .done _
  | some (.decl decl) => exact tells_localDecl hClear decl
  | some (.exprs values) =>
    unfold hidesInit
    rw [Bool.not_false, Bool.and_true]
    exact .map (tells_exprs hClear values)

/-- The type that is expected of the values that a method returns. -/
def returned (context : LowerContext) : Option ValueType :=
  if context.inEntry && context.program.kind == .pixel then context.model.pixelType else context.returnType

theorem tells_returnValue {returns : Bool} (hReturns : returns = true → returned ctx ≠ none) (val : Expr) :
    TellsIn ctx id Clear inEntry shown shown (shown && val.uses ctx.program id true true)
      (shown && val.uses ctx.program id false returns) (ctx.rules.visitExpr val) (returnValue ctx val) := by
  unfold returnValue
  unfold returned at hReturns
  split
  · rename_i hPixel
    rw [if_pos hPixel] at hReturns
    exact .map (tells_hinted hClear hReturns val)
  · rename_i hPlain
    rw [if_neg hPlain] at hReturns
    exact .map (tells_hinted hClear hReturns val)

theorem tells_returnStmt {returns : Bool} (hReturns : returns = true → returned ctx ≠ none) (val : Option Expr) :
    TellsIn ctx id Clear inEntry shown shown (shown && val.any (Expr.uses ctx.program id true true))
      (shown && val.any (Expr.uses ctx.program id false returns)) (ctx.rules.visitExpr? val) (returnStmt ctx val) := by
  unfold Visitor.visitExpr?
  cases val with
  | none =>
    rw [Option.any_none, Option.any_none, Bool.and_false]
    exact .done _
  | some val => exact tells_returnValue hClear hReturns val

theorem tells_label (mark : SwitchLabel) :
    TellsIn ctx id Clear inEntry shown shown (shown && mark.uses ctx.program id true)
      (shown && mark.uses ctx.program id false) (ctx.rules.visitLabel mark) (label ctx mark) := by
  refine .of_uses ((respects_denies ctx.program ctx.owner id.isSome_ofName?_source).visitLabel mark)
    (fun scope => ?_) fun hAll => ?_
  · match mark with
    | .otherwise => exact .pure _
    | .case pattern guard =>
      cases pattern with
      | constant val => exact .map (uses_hinted hClear scope (untyped none) val)
      | _ => exact .pure _
  · match mark with
    | .otherwise => rfl
    | .case pattern guard =>
      cases pattern with
      | constant val =>
        have hPat := (and_eq_true_iff.mp hAll).1
        unfold Pattern.all at hPat
        exact Expr.uses_eq_false_of_all (and_eq_true_iff.mp hPat).2
      | _ => rfl

theorem tells_labels (marks : List SwitchLabel) : TellsIn ctx id Clear inEntry shown shown
      (shown && marks.any (SwitchLabel.uses ctx.program id true))
      (shown && marks.any (SwitchLabel.uses ctx.program id false))
      (ctx.rules.visitLabels marks) (labels ctx marks) := by
  induction marks with
  | nil =>
    rw [any_nil, any_nil, Bool.and_false]
    exact .done _
  | cons mark rest ih =>
    rw [any_cons, any_cons, Bool.and_or_distrib_left, Bool.and_or_distrib_left]
    exact .seq (tells_label hClear mark) fun _ => .map ih

end Expressions

/-! ## Methods and statements -/

section Methods

variable {ctx : LowerContext} {id : SpecialId} {Clear : Prop} {shown shown' may must : Bool}

/-- A method is told if its body is: what it notes counts only if it is the entry point. -/
theorem told_functionOf (isEntry : Bool) (name : String) (header : MethodHeader) (written : Option MethodBody)
    {body : Lower (List OutStmt)} (hBody : TellsIn ctx id Clear isEntry
      (shown && !(header.params.map Param.name).contains id.source) shown' may must (ctx.rules.visitBody? written) body)
    {rules : Tracked Findings} {st : Tracked Gathered} (hShown : shows ctx.program ctx.owner id st.scope = shown)
    (hQuiet : Quiet (checkMethod ctx.program ctx.owner isEntry ⟨header, written⟩ rules).2) :
    Told ctx.program ctx.owner id Clear shown shown (isEntry && may) must rules
      (checkMethod ctx.program ctx.owner isEntry ⟨header, written⟩ rules).2 st
      (functionOf ctx.program name header body st).2 := by
  have hWalk := respects_denies ctx.program ctx.owner id.isSome_ofName?_source
  have hShape := (closed_beside ctx.program ctx.owner).checkShape header.returnType
  have hSteady := (closed_steady ctx.program ctx.owner).checkShape header.returnType
  have hParts : TellsIn ctx id Clear isEntry
      (shown && !(header.params.map Param.name).contains id.source) shown' may must
      (ctx.rules.walkMethod ⟨header, written⟩) body :=
    .before hShape hSteady fun _ =>
      (Tells.of_walk (hWalk.visitParams header.params) fun _ => .pure ()).seq fun _ => hBody
  have hInside := hParts.within
    (fun scope => shows_withParams ctx.program ctx.owner id header.params scope.push)
    (fun scope => shows_withParams ctx.program ctx.owner id header.params scope.push)
  have hMethod : TellsIn ctx id Clear isEntry shown shown may must
      (inMethod ctx.program ⟨header, written⟩
        (ctx.rules.walkMethod ⟨header, written⟩))
      (functionOf ctx.program name header body) :=
    .prepare (fun _ => (Uses.chained.params ctx.program header.params).alone) fun _ =>
      .prepare (fun _ => (Uses.chained.spellWritten ctx.program header.returnType).alone) fun _ => .map hInside
  have hModifiers := (closed_scope ctx.program ctx.owner).checkModifiers header
  have hEntry := (closed_steady ctx.program ctx.owner).checkModifiers header
  -- The rules enter the method after its modifiers, knowing whether it is the entry point, and go back afterwards.
  let start := (checkModifiers header rules).2
  let named := Text.dotted ctx.owner header.name
  have hTold := hMethod.told
    { start with gathered := { start.gathered with method := named, inEntry := isEntry } } st rfl hShown hQuiet
  have hScope : start.scope = rules.scope := hModifiers rules
  exact
    { hTold with
      entry := hEntry rules
      seen := fun _ hShows hOpen => by
        rw [scope_checkMethod]
        exact hShows hOpen
      bounded := fun hClear hShows => hTold.bounded hClear (hScope.symm ▸ hShows) }

end Methods

section Statements

/-- A place at which methods are told: coordinates are spared by what is pulled in if all is clear, and a type is
expected of returned values if `returns` says so. -/
structure Telling (id : SpecialId) (Clear : Prop) (returns : Bool) (context : LowerContext) : Prop where
  clear : Clear → SparesPulled context.program id
  returned : returns = true → returned context ≠ none

variable {id : SpecialId} {Clear : Prop}

mutual

/-- A statement is told: what it notes in the entry point is what it uses, and it notes nothing anywhere else. -/
theorem tells_stmt {returns : Bool} {ctx : LowerContext} (h : Telling id Clear returns ctx)
    (inEntry shown : Bool) (written : Stmt) (hSections : Clear → written.all (.sectionsSpare id.source) = true) :
    TellsIn ctx id Clear inEntry shown (shown && !written.hides id.source)
      (written.uses ctx.program id true true shown) (written.uses ctx.program id false returns shown)
      (ctx.rules.visitStmt written) (stmt ctx written) := by
  by_cases hAll : written.all allowed = true
  -- A statement that no shader may contain is never lowered.
  case neg => exact .of_reject (((visitor_respects ctx.program ctx.owner).visitStmt written).weaken hAll)
  have hCheck := (closed_beside ctx.program ctx.owner).checkStmt written
  have hSteady := (closed_steady ctx.program ctx.owner).checkStmt written
  have hOpen : (shown && !false) = shown := Bool.and_true shown
  unfold Visitor.visitStmt stmt Stmt.hides Stmt.uses
  unfold Stmt.all at hAll hSections
  cases written with
  | forEach | lock | tryCatch | throwing | usingBlock | yielding | checkedBlock | fixedPointer =>
    cases (and_eq_true_iff.mp hAll).1
  | block _ body | unsafeBlock _ body =>
    rw [hOpen]
    exact .before hCheck hSteady fun _ =>
      .map (tells_block h inEntry shown body (of_and_right hSections))
  | declare _ decl =>
    exact .before hCheck hSteady fun _ => .map (tells_localDecl h.clear decl)
  | localFunction _ fn =>
    rw [hOpen]
    exact .before hCheck hSteady fun _ =>
      .map (tells_lift h inEntry shown fn (of_and_right hSections))
  | expr _ val =>
    rw [hOpen]
    exact .before hCheck hSteady fun _ => .map (tells_hinted h.clear (untyped none) val)
  | ifElse _ cond thenBranch elseBranch =>
    have hParts := of_and_right (of_and_right hSections)
    have hThen := tells_stmt h inEntry shown thenBranch (of_and_left hParts)
    have hElse := tells_stmt? h inEntry (shown && !thenBranch.hides id.source) elseBranch (of_and_right hParts)
    rw [Bool.not_or, ← Bool.and_assoc]
    exact .before hCheck hSteady fun _ => .seq (tells_hinted h.clear (untyped none) cond) fun _ =>
      .seq hThen fun _ => .map hElse
  | whileLoop _ cond body =>
    have hBody := tells_stmt h inEntry shown body (of_and_right (of_and_right hSections))
    exact .before hCheck hSteady fun _ => .seq (tells_hinted h.clear (untyped none) cond) fun _ => .map hBody
  | doWhile _ body cond =>
    -- The rules walk the condition first, where they see at least as much as lowering does after the body.
    have hBody := tells_stmt h inEntry shown body (of_and_right (of_and_right hSections))
    have hCond := (respects_denies ctx.program ctx.owner id.isSome_ofName?_source).visitExpr cond
    exact .before hCheck hSteady fun _ => .swap (fun hTrue => (and_eq_true_iff.mp hTrue).1) hCond
      (fun scope => uses_hinted h.clear scope (untyped none) cond) Expr.uses_eq_false_of_all hBody
  | forLoop _ init cond step body =>
    have hBody := tells_stmt h inEntry (shown && !hidesInit id.source init) body
      (of_and_right (of_and_right (of_and_right (of_and_right hSections))))
    rw [hOpen]
    exact .before hCheck hSteady fun _ => .aside (fun _ => rfl) (.seq (tells_forInit h.clear init) fun _ =>
      .seq (tells_expr? h.clear cond) fun _ => .seq (tells_exprs h.clear step) fun _ => .map hBody)
  | switchOn _ scrutinee sections =>
    have hDeclared : Clear → id.source ∉ declaredSections sections := by
      intro hAll hMem
      have hTest := of_and_left hSections hAll
      simp [NodeTest.sectionsSpare, hMem] at hTest
    have hInside := tells_switchSections h inEntry shown sections hDeclared
      (of_and_right (of_and_right hSections))
    rw [hOpen]
    exact .before hCheck hSteady fun _ => .seq (tells_hinted h.clear (untyped none) scrutinee) fun _ =>
      .map hInside
  | returning _ val =>
    rw [hOpen]
    exact .before hCheck hSteady fun _ => tells_returnStmt h.clear h.returned val
  | breaking | continuing | empty =>
    rw [hOpen]
    exact .before hCheck hSteady fun _ => .done _

theorem tells_stmt? {returns : Bool} {ctx : LowerContext} (h : Telling id Clear returns ctx) (inEntry shown : Bool)
    (written : Option Stmt) (hSections : Clear → allStmt? (.sectionsSpare id.source) written = true) :
    TellsIn ctx id Clear inEntry shown (shown && !hidesStmt? id.source written)
      (usesStmt? ctx.program id true true shown written) (usesStmt? ctx.program id false returns shown written)
      (ctx.rules.visitStmt? written) (stmt? ctx written) := by
  unfold Visitor.visitStmt? stmt? usesStmt? hidesStmt?
  unfold allStmt? at hSections
  cases written with
  | none =>
    rw [Bool.not_false, Bool.and_true]
    exact .done _
  | some written => exact .map (tells_stmt h inEntry shown written hSections)

theorem tells_stmts {returns : Bool} {ctx : LowerContext} (h : Telling id Clear returns ctx)
    (inEntry shown : Bool) (list : List Stmt) (hSections : Clear → allStmts (.sectionsSpare id.source) list = true) :
    ∃ shown', TellsIn ctx id Clear inEntry shown shown'
      (usesStmts ctx.program id true true shown list) (usesStmts ctx.program id false returns shown list)
      (ctx.rules.visitStmts list) (stmts ctx list) := by
  unfold Visitor.visitStmts stmts usesStmts
  unfold allStmts at hSections
  cases list with
  | nil => exact ⟨shown, .done _⟩
  | cons first rest =>
    have hFirst := tells_stmt h inEntry shown first (of_and_left hSections)
    obtain ⟨shown', hRest⟩ := tells_stmts h inEntry (shown && !first.hides id.source) rest
      (of_and_right hSections)
    exact ⟨shown', hFirst.seq fun _ => .map hRest⟩

theorem tells_blockStmts {returns : Bool} {ctx : LowerContext} (h : Telling id Clear returns ctx)
    (inEntry shown : Bool) (list : List Stmt) (hSections : Clear → allStmts (.sectionsSpare id.source) list = true) :
    ∃ shown', TellsIn ctx id Clear inEntry shown shown'
      (usesStmts ctx.program id true true shown list) (usesStmts ctx.program id false returns shown list)
      (ctx.rules.visitStmts list) (blockStmts ctx list) := by
  unfold Visitor.visitStmts blockStmts usesStmts
  unfold allStmts at hSections
  match list with
  | [] => exact ⟨shown, .done _⟩
  | first :: rest =>
    have hFirst := of_and_left hSections
    obtain ⟨shown', hRest⟩ := tells_blockStmts h inEntry (shown && !first.hides id.source) rest
      (of_and_right hSections)
    refine ⟨shown', ?_⟩
    cases first with
    | localFunction span fn =>
      have hCheck := (closed_beside ctx.program ctx.owner).checkStmt (.localFunction span fn)
      unfold Stmt.all at hFirst
      rw [Stmt.hides_localFunction, Bool.not_false, Bool.and_true] at hRest
      dsimp only
      rw [Stmt.uses_localFunction, Stmt.uses_localFunction, Stmt.hides_localFunction, Bool.not_false, Bool.and_true]
      unfold Visitor.visitStmt
      refine .seq (.before hCheck (fun _ => rfl) fun _ => ?_) fun _ => hRest
      exact tells_lift h inEntry shown fn (of_and_right hFirst)
    | _ => exact .seq (tells_stmt h inEntry shown _ hFirst) fun _ => .map hRest

theorem tells_block {returns : Bool} {ctx : LowerContext} (h : Telling id Clear returns ctx)
    (inEntry shown : Bool) (body : Block) (hSections : Clear → body.all (.sectionsSpare id.source) = true) :
    TellsIn ctx id Clear inEntry shown shown
      (body.uses ctx.program id true true shown) (body.uses ctx.program id false returns shown)
      (ctx.rules.visitBlock body) (block ctx body) := by
  unfold Visitor.visitBlock block Block.uses
  unfold Block.all at hSections
  match body with
  | ⟨list, _⟩ =>
    obtain ⟨shown', hInside⟩ := tells_blockStmts h inEntry shown list hSections
    exact hInside.aside fun scope => shows_withFunctions ctx.program ctx.owner id list scope.push

theorem tells_switchSections {returns : Bool} {ctx : LowerContext} (h : Telling id Clear returns ctx)
    (inEntry shown : Bool) (list : List SwitchSection) (hDeclared : Clear → id.source ∉ declaredSections list)
    (hSections : Clear → allSections (.sectionsSpare id.source) list = true) : TellsIn ctx id Clear inEntry shown shown
      (usesSections ctx.program id true true shown list) (usesSections ctx.program id false returns shown list)
      (ctx.rules.visitSections list) (switchSections ctx list) := by
  unfold Visitor.visitSections switchSections usesSections
  unfold declaredSections at hDeclared
  unfold allSections at hSections
  match list with
  | [] => exact .done _
  | ⟨marks, body, _⟩ :: rest =>
    have hParts := of_and_right hSections
    have hNames := fun hAll => not_or.mp (mt mem_append.mpr (hDeclared hAll))
    obtain ⟨shown', hBody⟩ := tells_stmts h inEntry shown body (of_and_left hParts)
    have hFramed := hBody.framed_right (declaring_visitStmts ctx.program ctx.owner body) fun hAll =>
      (hNames hAll).1
    have hRest := tells_switchSections h inEntry shown rest (fun hAll => (hNames hAll).2) (of_and_right hParts)
    exact .seq (tells_labels h.clear marks) fun _ => .seq hFramed fun _ => .map hRest

theorem tells_lift {returns : Bool} {ctx : LowerContext} (h : Telling id Clear returns ctx)
    (inEntry shown : Bool) (fn : MethodDecl) (hSections : Clear → fn.all (.sectionsSpare id.source) = true) :
    TellsIn ctx id Clear inEntry shown shown false false (ctx.rules.visitMethod fn) (lift ctx fn) := by
  unfold Visitor.visitMethod lift
  unfold MethodDecl.all at hSections
  match fn with
  | ⟨header, body⟩ =>
    let inner :=
      { ctx with inEntry := false, returnType := ctx.program.valueType? header.returnType }
    have hInner : Telling id Clear false inner := ⟨h.clear, untyped _⟩
    have hBody := tells_bodyOf hInner false (shown && !(header.params.map Param.name).contains id.source)
      header.returnType.isVoid body (of_and_right hSections)
    have hFn : TellsIn ctx id Clear inEntry shown shown false false
        (checkMethod ctx.program ctx.owner false ⟨header, body⟩)
        (functionOf ctx.program (Reserved.identifier header.name) header
          (bodyOf inner header.returnType.isVoid body)) := by
      refine ⟨(passes_checkMethod (visitor_respects ctx.program) ctx.owner false ⟨header, body⟩).weaken fun _ => trivial, ?_⟩
      intro rules st _ hShown hQuiet
      have hTold := told_functionOf false (Reserved.identifier header.name) header body hBody hShown hQuiet
      exact
        { hTold with
          noted := nofun
          bounded := fun hAll hShows hNoted => .inl ((hTold.bounded hAll hShows hNoted).resolve_right nofun) }
    exact hFn.seq fun _ => .of_nothing fun _ => .gather fun _ => rfl

theorem tells_bodyOf {returns : Bool} {ctx : LowerContext} (h : Telling id Clear returns ctx)
    (inEntry shown isVoid : Bool)
    (body : Option MethodBody) (hSections : Clear → allBody? (.sectionsSpare id.source) body = true) :
    TellsIn ctx id Clear inEntry shown shown (usesBody ctx.program id true true shown isVoid body)
      (usesBody ctx.program id false returns shown isVoid body)
      (ctx.rules.visitBody? body) (bodyOf ctx isVoid body) := by
  unfold Visitor.visitBody? bodyOf usesBody
  unfold allBody? at hSections
  match body with
  | none => exact .done _
  | some (.block body) =>
    unfold Visitor.visitBody
    unfold MethodBody.all at hSections
    exact tells_block h inEntry shown body hSections
  | some (.expr val) =>
    unfold Visitor.visitBody
    dsimp only
    split
    · exact .map (tells_hinted h.clear (untyped none) val)
    · exact .map (tells_returnValue h.clear h.returned val)

end

end Statements

/-! ## Shaders -/

section Shaders

variable {prog : Program} {model : ShaderModel} {id : SpecialId} {Clear : Prop}

variable {shown : Bool} {last : CallMemo} {log : List MetCall}

theorem told_method (ctx : LowerContext) (hClear : Clear → SparesPulled ctx.program id) (isEntry : Bool)
    (name : String) (written : MethodDecl) {returns : Bool} (hReturns : returns = true → returned { ctx with
      returnType := ctx.program.valueType? written.header.returnType } ≠ none)
    (hSections : Clear → written.all (.sectionsSpare id.source) = true) {rules : Tracked Findings}
    (st : Tracked Gathered) (hShown : shows ctx.program ctx.owner id st.scope = shown)
    (hQuiet : Quiet (checkMethod ctx.program ctx.owner isEntry written rules).2) :
    Told ctx.program ctx.owner id Clear shown shown (isEntry && written.uses ctx.program id true true shown)
      (written.uses ctx.program id false returns shown) rules
      (checkMethod ctx.program ctx.owner isEntry written rules).2 st
      (method ctx name written st).2 := by
  unfold MethodDecl.all at hSections
  match written with
  | ⟨header, body⟩ =>
    have hInner : Telling id Clear returns
        { ctx with returnType := ctx.program.valueType? header.returnType } := ⟨hClear, hReturns⟩
    have hBody := tells_bodyOf hInner isEntry (shown && !(header.params.map Param.name).contains id.source)
      header.returnType.isVoid body (of_and_right hSections)
    exact told_functionOf isEntry name header body hBody hShown hQuiet

/-- The default values of a method that the rules have walked outside the entry point use no coordinates, unless a
field or a parameter hides them there. -/
theorem uses_eq_false_of_default {owner : String} {written : MethodDecl}
    (hChecked : Checked prog owner last log false written) (hField : prog.fieldType? owner id.source = none)
    (hNames : (written.params.map Param.name).contains id.source = false) {param : Param}
    (hParam : param ∈ written.params) {val : Expr} (hDefault : param.default = some val) :
    val.uses prog id true true = false := by
  obtain ⟨rules, hScope, hQuiet, -⟩ := hChecked
  have hWalk := (respects_denies prog owner id.isSome_ofName?_source)
  have hParams := hWalk.after (hWalk.type written.header.returnType) (hWalk.visitParams written.params)
  let start := (checkModifiers written.header rules).2
  have hStart : start.scope = .empty := ((closed_scope prog owner).checkModifiers written.header rules).trans hScope
  -- The state in which the rules walk the parameters.
  let inner : Tracked Findings :=
    { start with
      scope := withParams prog written.params start.scope.push
      gathered := { start.gathered with method := Text.dotted owner written.name, inEntry := false } }
  have hShows : shows prog owner id inner.scope = true := by
    have hOpen : shows prog owner id start.scope.push = true := by
      rw [shows_push, hStart]
      exact Site.shows_iff.mpr ⟨rfl, hField⟩
    rw [shows_withParams, hOpen, hNames]
    rfl
  have hBody := ((visitor_respects prog owner).visitBody? written.body).quiet _ hQuiet
  have hAll := hParams.holds inner hBody.1 rfl hShows
  have hVal := all_eq_true.mp hAll param hParam
  rw [hDefault, allExpr?] at hVal
  exact Expr.uses_eq_false_of_all hVal

/-- The methods that the entry point needs keep what has been noted, and note nothing if all is clear. -/
theorem noted_helperMethods (model : ShaderModel) (hClear : Clear → SparesPulled prog id) (keys : List MethodKey)
    (hKeys : ChecksAll prog last log keys) (hSections : Clear → ∀ key ∈ keys, ∀ found, prog.method? key = some
      found → found.all (.sectionsSpare id.source) = true) {st : Tracked Gathered} (hScope : st.scope = .empty) :
    (helperMethods prog model .standard keys st).2.scope = .empty ∧
      (Noted st id → Noted (helperMethods prog model .standard keys st).2 id) ∧
      (Clear → Noted (helperMethods prog model .standard keys st).2 id → Noted st id) := by
  induction keys generalizing st with
  | nil => exact ⟨hScope, fun hNoted => hNoted, fun _ hNoted => hNoted⟩
  | cons key rest ih =>
    have hRest : ChecksAll prog last log rest := (forall_mem_cons.mp hKeys).2
    have hSpared := fun hAll => (forall_mem_cons.mp (hSections hAll)).2
    rw [helperMethods_cons]
    cases hMethod : prog.method? key with
    | none => exact ih hRest hSpared hScope
    | some found =>
      obtain ⟨rules, hRules, hQuiet, -⟩ := hKeys key mem_cons_self found hMethod
      have hTold := told_method ⟨prog, model, .standard, key.owner, false, none⟩ hClear false
        (methodName prog key) found (untyped _) (fun hAll => hSections hAll key mem_cons_self found hMethod)
        st rfl hQuiet
      have hAfter : (afterHelper prog model key found st).scope = .empty :=
        (scope_method _ (methodName prog key) found st).trans hScope
      -- Both walks start outside all methods, so the rules see what lowering does.
      have hSees : shows prog key.owner id st.scope = true →
          shows prog key.owner id rules.scope = true := by
        rw [hRules, hScope]
        exact fun hShows => hShows
      obtain ⟨hEnd, hKeeps, hBounded⟩ := ih hRest hSpared hAfter
      refine ⟨hEnd, fun hNoted => hKeeps (hTold.keeps hNoted), fun hAll hNoted => ?_⟩
      exact (hTold.bounded hAll hSees (hBounded hAll hNoted)).resolve_right nofun

theorem uses_shaderStatics (ctx : LowerContext) (hOwner : ctx.owner = ctx.program.shader.name)
    (hClear : Clear → SparesPulled ctx.program id) (site : Site) (fields : List FieldInfo) :
    Uses site id Clear false false (shaderStatics ctx fields) := by
  refine (Uses.chained.shaderStatics ctx (ctx.blank, ctx.inEntry, ctx.returnType) fields
    fun name type val hVal _ => ?_).alone
  exact pullsNothing_exprOn hClear _ ctx.owner (some type) val (hOwner ▸ .ownStatic hVal) site

/-- The type that is expected of the values that an entry point returns. -/
def resultType? (program : Program) (model : ShaderModel) (entry : MethodDecl) : Option ValueType :=
  if program.kind == .pixel then model.pixelType else program.valueType? entry.header.returnType

/-- A lowered shader has noted the coordinates that its entry point must note, and if all is clear only those that it
may note. -/
theorem noted_unit (hClear : Clear → SparesPulled prog id) {entry : MethodDecl} {memo : CallMemo}
    {inEntry returns : Bool} (hReturns : returns = true → resultType? prog model entry ≠ none)
    (hShown : shows prog prog.shader.name id .empty = shown)
    (hEntry : Checked prog prog.shader.name last log inEntry entry) {keys : List MethodKey} (hNeeded :
      (prog.reachableMethods (method ⟨prog, model, .standard, prog.shader.name, true, none⟩ entryPoint entry
      (.start memo .empty)).2.memo).1 = keys) (hKeys : ChecksAll prog last log keys) (hSections : Clear → entry.all
      (.sectionsSpare id.source) = true ∧ ∀ key ∈ keys, ∀ found, prog.method? key = some found → found.all
      (.sectionsSpare id.source) = true) : (entry.uses prog id false returns shown = true →
        Noted (unit prog model .standard entry (.start memo .empty)).2 id) ∧
      (Clear → Noted (unit prog model .standard entry (.start memo .empty)).2 id →
        entry.uses prog id true true shown = true) := by
  let start : Tracked Gathered := .start memo .empty
  let first := method ⟨prog, model, .standard, prog.shader.name, true, none⟩ entryPoint entry start
  let needed : Tracked Gathered := { first.2 with memo := (prog.reachableMethods first.2.memo).2 }
  let helpers := (helperMethods prog model .standard keys needed).2
  let ctx : LowerContext := ⟨prog, model, .standard, prog.shader.name, false, none⟩
  have hUnit : (unit prog model .standard entry start).2 = (shaderStatics ctx model.fields helpers).2 := by
    rw [unit_eq]
    dsimp only
    rw [hNeeded]
    rfl
  rw [hUnit]
  have hStatics := uses_shaderStatics ctx rfl hClear ⟨prog, prog.shader.name, helpers.scope⟩ model.fields
  obtain ⟨rules, hRules, hQuiet, -⟩ := hEntry
  have hTold := told_method ⟨prog, model, .standard, prog.shader.name, true, none⟩ hClear inEntry entryPoint entry
    hReturns (fun hAll => (hSections hAll).1) start hShown hQuiet
  have hScope : needed.scope = .empty := scope_method _ entryPoint entry start
  obtain ⟨-, hKeeps, hBounded⟩ := noted_helperMethods model hClear keys hKeys (fun hAll => (hSections hAll).2) hScope
  refine ⟨fun hMust => hStatics.keeps helpers rfl (hKeeps (hTold.noted hMust)), fun hAll hNoted => ?_⟩
  have hBefore : Noted helpers id := (hStatics.bounded hAll helpers rfl hNoted).resolve_right fun hMay => nomatch hMay.2
  have hSees : shown = true → shows prog prog.shader.name id rules.scope = true := by
    rw [hRules, hShown]
    exact fun hTrue => hTrue
  have hStart : ¬Noted start id := by
    cases id <;> exact nofun
  have hMay := (hTold.bounded hAll hSees (hBounded hAll hBefore)).resolve_left hStart
  exact (and_eq_true_iff.mp hMay).2

end Shaders

end Lower

end Shaderlift
