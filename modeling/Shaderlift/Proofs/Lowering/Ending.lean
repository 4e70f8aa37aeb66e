import Mathlib.Data.List.Forall2
import Shaderlift.Proofs.Analysis.BodyTypes
import Shaderlift.Proofs.Call.Shapes
import Shaderlift.Proofs.Lowering.Blank

/-!
# Looking back from the end of a run

What a written expression refers to is gathered while it is written: the structs whose names it spells, the sizes of
resources that it reads, the calls that it makes. Nothing gathered is lost (`Later`), so an expression can be judged
by the state in which the whole run ends (`Ending.Accounts`). `Writes` says of an action that its result is good in
this sense if the run goes on to that end. That an action only adds to the state holds in any case, and has to be
known of what comes after an action before anything is known of its result.
-/

namespace Shaderlift

open List

/-! ## Parts of an expression -/

namespace OutExpr

mutual

/-- List an expression and all expressions inside it. -/
def parts : OutExpr → List OutExpr
  | .token kind => [.token kind]
  | .qualified name => [.qualified name]
  | .member target name => .member target name :: parts target
  | .index target args => .index target args :: (parts target ++ partsOfAll args)
  | .call callee args => .call callee args :: (parts callee ++ partsOfAll args)
  | .unary op operand => .unary op operand :: parts operand
  | .post op operand => .post op operand :: parts operand
  | .binary op lhs rhs => .binary op lhs rhs :: (parts lhs ++ parts rhs)
  | .assign op target val => .assign op target val :: (parts target ++ parts val)
  | .conditional cond thenExpr elseExpr =>
    .conditional cond thenExpr elseExpr :: (parts cond ++ (parts thenExpr ++ parts elseExpr))
  | .cast type operand => .cast type operand :: parts operand
  | .paren inner => .paren inner :: parts inner
  | .braces items => .braces items :: partsOfAll items

def partsOfAll : List OutExpr → List OutExpr
  | [] => []
  | first :: rest => parts first ++ partsOfAll rest

end

theorem mem_partsOfAll {part : OutExpr} {items : List OutExpr} :
    part ∈ partsOfAll items ↔ ∃ item ∈ items, part ∈ item.parts := by
  induction items with
  | nil => simp [partsOfAll]
  | cons first rest ih => simp [partsOfAll, ih]

end OutExpr

/-! ## Names of functions -/

def SizeRead.function (size : SizeRead) : String := "__" ++ size.field ++ "__get_" ++ size.property.name

/-- Find the size of a name that a resource has, if a type declares the resource as a field. -/
def Program.sizeOf? (program : Program) (owner path property : String) : Option ResourceProperty := do
  let type ← program.fieldType? owner path
  match program.meaning type with
  | .resource res => ResourceProperty.ofName? res property
  | _ => none

/-- A size is that of a resource that a type declares as a field. -/
structure Program.HasSize (program : Program) (owner path : String) (size : SizeRead) : Prop where
  field : size.field = Reserved.identifier path
  property : ∃ property, program.sizeOf? owner path property = some size.property

/-- Name in the output what a call of the source calls. -/
def Callee.written (program : Program) : Callee → OutExpr
  | .intrinsic found => .ident found.name
  | .source key => .ident (Lower.methodName program key)
  | .localFunction name => Lower.sourceName name
  | .resourceMember field method => .member (.ident (Reserved.identifier field)) method.name
  | .unknown name => .ofPath name
  | .ambiguous name => .ofPath name

namespace Lower

open Track Legality ValueType

/-! ## Growing states -/

/-- Everything that has been gathered is still there. -/
structure Within (before later : Gathered) : Prop where
  report : ∀ diagnostic ∈ before.report, diagnostic ∈ later.report
  structs : ∀ name ∈ before.structs, name ∈ later.structs
  sizes : ∀ size ∈ before.sizes, size ∈ later.sizes
  seen : ∀ field ∈ before.seenStatics, field ∈ later.seenStatics

theorem Within.refl (gathered : Gathered) : Within gathered gathered :=
  ⟨fun _ => id, fun _ => id, fun _ => id, fun _ => id⟩

theorem Within.trans {first second third : Gathered} (hFirst : Within first second) (hSecond : Within second third) :
    Within first third where
  report diagnostic hMem := hSecond.report diagnostic (hFirst.report diagnostic hMem)
  structs name hMem := hSecond.structs name (hFirst.structs name hMem)
  sizes size hMem := hSecond.sizes size (hFirst.sizes size hMem)
  seen field hMem := hSecond.seen field (hFirst.seen field hMem)

/-- The calls that are remembered, the calls that have been met and what has been gathered are still there. -/
structure Later (program : Program) (before later : Tracked Gathered) : Prop where
  memo : before.memo.Kept program later.memo
  met : ∀ call ∈ before.met, call ∈ later.met
  gathered : Within before.gathered later.gathered

variable {prog : Program}

theorem Later.refl (st : Tracked Gathered) : Later prog st st :=
  ⟨.refl _, fun _ => id, .refl _⟩

theorem Later.trans {first second third : Tracked Gathered} (hFirst : Later prog first second)
    (hSecond : Later prog second third) : Later prog first third :=
  ⟨hFirst.memo.trans hSecond.memo, fun call hMem => hSecond.met call (hFirst.met call hMem),
    hFirst.gathered.trans hSecond.gathered⟩

theorem mem_addNew {α : Type} [BEq α] [LawfulBEq α] (val : α) (list : List α) : val ∈ addNew val list := by
  unfold addNew
  split
  · rename_i hContains
    simpa using hContains
  · simp

theorem mem_addNew_of_mem {α : Type} [BEq α] {val other : α} {list : List α} (hOther : other ∈ list) :
    other ∈ addNew val list := by
  unfold addNew
  split
  · exact hOther
  · exact mem_append_left _ hOther

/-! ## The end of a run -/

/-- An expression of the output is what the writer makes of an expression of the source somewhere in a program, on
some fuel. -/
def YieldsOn (program : Program) (value : Expr) (out : OutExpr) : Prop :=
  ∃ fuel context hint state, context.program = program ∧ (exprOn fuel context hint value state).1 = out

/-- Name a static field of a type in the output. -/
def staticName (program : Program) (owner name : String) : String :=
  if owner = program.shader.name then Reserved.identifier name else globalName owner name

/-- The end of a run: the program and the last state, and the types that casts may have in the source. -/
structure Ending where
  program : Program
  last : Tracked Gathered
  Casts : TypeExpr → Prop

namespace Ending

variable (ending : Ending)

/-- A type has dimensions that the output language knows, and if it is a struct or an array of one, then the struct
has been noted. -/
def Knows (type : ValueType) : Prop :=
  type.Proper ∧ ∀ name, type.struct? = some name → name ∈ ending.last.gathered.structs

def Spells (text : String) : Prop := ∃ type, ending.Knows type ∧ type.spelling = text

/-- A text is what is written for a type of the source: the name of the value that the type means or, if it means
none, the type as it is written. -/
def SpellsWritten (written : TypeExpr) (text : String) : Prop :=
  (∃ type, ending.program.valueType? written = some type ∧ ending.Knows type ∧ type.spelling = text) ∨
    ending.program.valueType? written = none ∧ text = written.render

/-- A size is read of a resource that is a field of some type. -/
structure Measures (size : SizeRead) : Prop where
  noted : size ∈ ending.last.gathered.sizes
  source : ∃ owner path, ending.program.HasSize owner path size

/-- What a call of the output calls: a type that is known, a numeric type by its bare name, the coordinates of a
texture, the reading of a bit pattern, the function that returns a size, or what a call of the source calls. -/
inductive Calls : OutExpr → List OutExpr → Prop
  | construct {type : ValueType} {args : List OutExpr} : ending.Knows type → Calls (.typeName type.spelling) args
  | components {kind : Scalar} {width : Nat} {args : List OutExpr} : 1 ≤ width → width ≤ 4 →
      Calls (.ident (ValueType.vector kind width).spelling) args
  | coordinates {args : List OutExpr} : 1 < args.length → Calls (.ident ("int" ++ toString args.length)) args
  | bits {pattern : String} : Calls (.ident "asfloat") [.int pattern]
  | size {size : SizeRead} : ending.Measures size → Calls (.ident size.function) []
  | source {call : MetCall} {args : List OutExpr} : call ∈ ending.last.met →
      Calls (call.callee.written ending.program) args

/-- A cast or a call of the output can be accounted for. The type of a cast is known, or it is that of a cast of the
source, as it is written there. -/
def Explains : OutExpr → Prop
  | .cast type _ => ending.Spells type ∨ ∃ written, ending.Casts written ∧ ending.program.valueType? written = none ∧
      type = written.render
  | .call callee args => ending.Calls callee args
  | _ => True

/-- All casts and calls in an expression of the output can be accounted for. -/
def Accounts (out : OutExpr) : Prop := ∀ part ∈ out.parts, ending.Explains part

/-- What is written for an initial value, if anything is, can be accounted for. -/
def Starts (init : Option Expr) (written : Option String) : Prop :=
  ∀ text, written = some text → ∃ value out, init = some value ∧ YieldsOn ending.program value out ∧
    ending.Accounts out ∧ text = out.text

/-- A static value is of a known type, and its initial value is written from that of a field of the source. -/
structure Lists (decl : StaticDecl) : Prop where
  known : ending.Knows decl.type
  source : ∃ owner name, decl.name = staticName ending.program owner name ∧
    ending.Starts (fieldInit? ending.program owner name) decl.init

/-- The variables in scope have types with dimensions that the output language knows, and the static values that have
been gathered can be accounted for. -/
structure Sound (state : Tracked Gathered) : Prop where
  scope : state.scope.Proper
  statics : ∀ decl ∈ state.gathered.statics, ending.Lists decl

/-- The test for the expressions and statements that lead to the end. -/
noncomputable def test : NodeTest := typed ending.program ending.Casts

/-- What has been pulled in passes the test, and no error has been reported. -/
structure Fair : Prop where
  statics : ∀ field ∈ ending.last.gathered.seenStatics, ∀ init,
    fieldInit? ending.program field.1 field.2 = some init → init.all ending.test = true
  defaults : ∀ call key method, ending.last.memo.entries.lookup call = some (.source key) →
    ending.program.method? key = some method → allParams ending.test method.params = true
  report : Report.hasErrors ending.last.gathered.report = false

/-! ## Accounting for expressions -/

variable {ending}

theorem accounts_of_parts {out : OutExpr} {below : List OutExpr} (hParts : out.parts = out :: below)
    (hSelf : ending.Explains out) (hBelow : ∀ part ∈ below, ending.Explains part) : ending.Accounts out := by
  unfold Accounts
  rw [hParts]
  exact forall_mem_cons.mpr ⟨hSelf, hBelow⟩

theorem explains_parts {items : List OutExpr} (hItems : ∀ item ∈ items, ending.Accounts item) :
    ∀ part ∈ OutExpr.partsOfAll items, ending.Explains part := by
  intro part hPart
  obtain ⟨item, hItem, hMem⟩ := OutExpr.mem_partsOfAll.mp hPart
  exact hItems item hItem part hMem

namespace Accounts

theorem token (kind : TokenKind) : ending.Accounts (.token kind) :=
  accounts_of_parts rfl trivial (forall_mem_nil _)

theorem qualified (name : String) : ending.Accounts (.qualified name) :=
  accounts_of_parts rfl trivial (forall_mem_nil _)

theorem typeName (name : String) : ending.Accounts (.typeName name) := by
  unfold OutExpr.typeName
  split
  · exact token _
  · exact token _

variable {first second third : OutExpr} (hFirst : ending.Accounts first) (hSecond : ending.Accounts second)
  (hThird : ending.Accounts third) {items : List OutExpr} (hItems : ∀ item ∈ items, ending.Accounts item)

include hFirst

theorem member (name : String) : ending.Accounts (.member first name) := accounts_of_parts rfl trivial hFirst

theorem unary (op : UnaryOp) : ending.Accounts (.unary op first) := accounts_of_parts rfl trivial hFirst

theorem post (op : PostOp) : ending.Accounts (.post op first) := accounts_of_parts rfl trivial hFirst

theorem paren : ending.Accounts (.paren first) := accounts_of_parts rfl trivial hFirst

theorem cast {type : String} (hType : ending.Spells type ∨ ∃ written, ending.Casts written ∧
    ending.program.valueType? written = none ∧ type = written.render) : ending.Accounts (.cast type first) :=
  accounts_of_parts rfl hType hFirst

include hItems in
theorem index : ending.Accounts (.index first items) :=
  accounts_of_parts rfl trivial (forall_mem_append.mpr ⟨hFirst, explains_parts hItems⟩)

include hItems in
theorem call (hCalls : ending.Calls first items) : ending.Accounts (.call first items) :=
  accounts_of_parts rfl hCalls (forall_mem_append.mpr ⟨hFirst, explains_parts hItems⟩)

include hSecond

theorem binary (op : BinaryOp) : ending.Accounts (.binary op first second) :=
  accounts_of_parts rfl trivial (forall_mem_append.mpr ⟨hFirst, hSecond⟩)

theorem assign (op : AssignOp) : ending.Accounts (.assign op first second) :=
  accounts_of_parts rfl trivial (forall_mem_append.mpr ⟨hFirst, hSecond⟩)

include hThird in
theorem conditional : ending.Accounts (.conditional first second third) :=
  accounts_of_parts rfl trivial (forall_mem_append.mpr ⟨hFirst, forall_mem_append.mpr ⟨hSecond, hThird⟩⟩)

omit hFirst hSecond

include hItems in
theorem braces : ending.Accounts (.braces items) := accounts_of_parts rfl trivial (explains_parts hItems)

end Accounts

theorem accounts_ofPath (path : String) : ending.Accounts (.ofPath path) := by
  have hHead : ∀ name, ending.Accounts (.pathHead name) := by
    intro name
    unfold OutExpr.pathHead
    split
    · exact .token _
    · exact .typeName _
  have hMembers : ∀ (names : List String) (out : OutExpr), ending.Accounts out →
      ending.Accounts (names.foldl .member out) := by
    intro names
    induction names with
    | nil => exact fun _ hOut => hOut
    | cons name rest ih => exact fun out hOut => ih _ (hOut.member name)
  unfold OutExpr.ofPath
  split
  · exact hMembers _ _ (hHead _)
  · exact hHead _

theorem knows_numeric {type : ValueType} (hProper : type.Proper) (hNumeric : type.struct? = none) : ending.Knows type :=
  ⟨hProper, fun name hName => by rw [hNumeric] at hName; cases hName⟩

end Ending

/-! ## Actions that lead to the end -/

/-- An action only adds to the state. If a condition holds and the run goes on to its end, then the state stays
sound, the result is good, and the functions that are lifted stand for the given methods. -/
structure Writes {α : Type} (ending : Ending) (Stands : String × MethodDecl → OutFunction → Prop) (P : Prop)
    (sources : List (String × MethodDecl)) (Good : α → Prop) (action : Lower α) : Prop where
  grows : ∀ state, Later ending.program state (action state).2
  holds : P → ∀ state, ending.Sound state → Later ending.program (action state).2 ending.last →
    ending.Sound (action state).2 ∧ Good (action state).1 ∧
      ∃ added, (action state).2.gathered.helpers = state.gathered.helpers ++ added ∧ List.Forall₂ Stands sources added

namespace Writes

variable {α β : Type} {ending : Ending} {Stands : String × MethodDecl → OutFunction → Prop} {P : Prop}
  {sources others : List (String × MethodDecl)} {First : α → Prop} {Good : β → Prop}

variable {Q : Prop} {action : Lower β} {first : Lower α} {change : Gathered → Gathered}

theorem weaken {Other : β → Prop} (hAction : Writes ending Stands P sources Good action) (hCondition : Q → P)
    (hGood : Q → ∀ val, Good val → Other val) : Writes ending Stands Q sources Other action where
  grows := hAction.grows
  holds hQ st hSound hEnd := by
    obtain ⟨hAfter, hVal, hAdded⟩ := hAction.holds (hCondition hQ) st hSound hEnd
    exact ⟨hAfter, hGood hQ _ hVal, hAdded⟩

theorem of_imp (hAction : Writes ending Stands P sources Good action) (hCondition : Q → P) :
    Writes ending Stands Q sources Good action :=
  hAction.weaken hCondition fun _ _ hVal => hVal

theorem pure {val : β} (hVal : P → Good val) : Writes ending Stands P [] Good (Pure.pure val : Lower β) where
  grows st := .refl st
  holds hP _ hSound _ := ⟨hSound, hVal hP, [], (append_nil _).symm, .nil⟩

theorem bind {next : α → Lower β} (hFirst : Writes ending Stands P sources First first)
    (hNext : ∀ val, Writes ending Stands (P ∧ First val) others Good (next val)) :
    Writes ending Stands P (sources ++ others) Good (first >>= next) where
  grows st := (hFirst.grows st).trans ((hNext (first st).1).grows (first st).2)
  holds hP st hSound hEnd := by
    have hMiddle := ((hNext (first st).1).grows (first st).2).trans hEnd
    obtain ⟨hBetween, hVal, before, hBefore, hSources⟩ := hFirst.holds hP st hSound hMiddle
    obtain ⟨hAfter, hGood, after, hHelpers, hOthers⟩ :=
      (hNext (first st).1).holds ⟨hP, hVal⟩ (first st).2 hBetween hEnd
    refine ⟨hAfter, hGood, before ++ after, ?_, rel_append hSources hOthers⟩
    calc (next (first st).1 (first st).2).2.gathered.helpers
        = (first st).2.gathered.helpers ++ after := hHelpers
      _ = st.gathered.helpers ++ (before ++ after) := by rw [hBefore, append_assoc]

/-- What is done first lifts nothing. -/
theorem next {next : α → Lower β} (hFirst : Writes ending Stands P [] First first)
    (hNext : ∀ val, Writes ending Stands (P ∧ First val) others Good (next val)) :
    Writes ending Stands P others Good (first >>= next) :=
  hFirst.bind hNext

/-- What is done last lifts nothing. -/
theorem before {next : α → Lower β} (hFirst : Writes ending Stands P sources First first)
    (hNext : ∀ val, Writes ending Stands (P ∧ First val) [] Good (next val)) :
    Writes ending Stands P sources Good (first >>= next) := by
  have hBoth := hFirst.bind hNext
  rwa [append_nil] at hBoth

/-- What is done last only puts the results together. -/
theorem map {result : α → β} (hFirst : Writes ending Stands P sources First first)
    (hResult : P → ∀ val, First val → Good (result val)) :
    Writes ending Stands P sources Good (do let val ← first; Pure.pure (result val)) :=
  hFirst.before fun val => pure fun hBoth => hResult hBoth.1 val hBoth.2

theorem ite {test : Prop} [Decidable test] {first second : Lower β} (hFirst : Writes ending Stands P sources Good first)
    (hSecond : Writes ending Stands P sources Good second) :
    Writes ending Stands P sources Good (if test then first else second) := by
  split
  · exact hFirst
  · exact hSecond

theorem get : Writes ending Stands P [] (fun st => st.scope.Proper)
    (MonadState.get : Lower (Tracked Gathered)) where
  grows st := .refl st
  holds _ _ hSound _ := ⟨hSound, hSound.scope, [], (append_nil _).symm, .nil⟩

/-- A change of what is gathered that leaves the lifted functions alone. -/
theorem gather {Good : Unit → Prop} (hWithin : ∀ gathered, Within gathered (change gathered))
    (hHelpers : ∀ gathered, (change gathered).helpers = gathered.helpers)
    (hStatics : P → ∀ gathered, ∀ decl ∈ (change gathered).statics, decl ∈ gathered.statics ∨ ending.Lists decl)
    (hGood : ∀ gathered, Within (change gathered) ending.last.gathered → Good ()) :
    Writes ending Stands P [] Good (Track.gather change) where
  grows st := ⟨.refl _, fun _ => id, hWithin st.gathered⟩
  holds hP st hSound hEnd := by
    refine ⟨⟨hSound.scope, fun decl hDecl => ?_⟩, hGood _ hEnd.gathered, [], ?_, .nil⟩
    · rcases hStatics hP st.gathered decl hDecl with hOld | hNew
      · exact hSound.statics decl hOld
      · exact hNew
    · rw [append_nil]
      exact hHelpers st.gathered

/-- A note leaves the lifted functions and the static values alone. -/
theorem note {Good : Unit → Prop} (hWithin : ∀ gathered, Within gathered (change gathered))
    (hSame : ∀ gathered, (change gathered).helpers = gathered.helpers ∧ (change gathered).statics = gathered.statics)
    (hGood : ∀ gathered, Within (change gathered) ending.last.gathered → Good ()) :
    Writes ending Stands P [] Good (Track.gather change) :=
  gather hWithin (fun gathered => (hSame gathered).1)
    (fun _ gathered _ hDecl => .inl ((hSame gathered).2 ▸ hDecl)) hGood

theorem inScope {change : Scope → Scope} (hChange : P → ∀ scope : Scope, scope.Proper → (change scope).Proper) :
    Writes ending Stands P [] (fun _ => True) (Track.inScope change : Lower Unit) where
  grows _ := ⟨.refl _, fun _ => id, .refl _⟩
  holds hP st hSound _ :=
    ⟨⟨hChange hP st.scope hSound.scope, hSound.statics⟩, trivial, [], (append_nil _).symm, .nil⟩

theorem within {change : Scope → Scope} (hChange : P → ∀ scope : Scope, scope.Proper → (change scope).Proper)
    (hAction : Writes ending Stands P sources Good action) :
    Writes ending Stands P sources Good (Track.within change action) where
  grows st :=
    have hGrows := hAction.grows { st with scope := change st.scope }
    ⟨hGrows.memo, hGrows.met, hGrows.gathered⟩
  holds hP st hSound hEnd := by
    obtain ⟨hAfter, hGood, hAdded⟩ := hAction.holds hP { st with scope := change st.scope }
      ⟨hChange hP st.scope hSound.scope, hSound.statics⟩ ⟨hEnd.memo, hEnd.met, hEnd.gathered⟩
    exact ⟨⟨hSound.scope, hAfter.statics⟩, hGood, hAdded⟩

/-- Looking at something that only remembers calls. -/
theorem recalling {owner : String} {action : Site → Recall β}
    (hStable : ∀ scope, Recall.Stable ending.program (action ⟨ending.program, owner, scope⟩))
    (hGood : ∀ scope : Scope, scope.Proper → ∀ memo, Good (action ⟨ending.program, owner, scope⟩ memo).1) :
    Writes ending Stands P [] Good (Track.recalling ending.program owner action) where
  grows st := ⟨(hStable st.scope).kept st.memo, fun _ => id, .refl _⟩
  holds _ st hSound _ :=
    ⟨⟨hSound.scope, hSound.statics⟩, hGood st.scope hSound.scope st.memo, [], (append_nil _).symm, .nil⟩

/-- A call that is met is among those met in the end, and a method of the source that it calls is remembered. -/
theorem meet (owner : String) (call callee : Expr) (args : List Argument) :
    Writes ending Stands P []
      (fun found => (∃ met ∈ ending.last.met, met.callee = found) ∧ ∀ key, found = .source key →
        ∃ remembered, ending.last.memo.entries.lookup remembered = some (.source key))
      (Track.meet ending.program owner call callee args) where
  grows st :=
    have hKeeps : Track.Keeps ending.program (Track.meet ending.program owner call callee args : Lower Callee) :=
      .meet ending.program owner call callee args
    ⟨hKeeps.memo st, fun _ hMem => (hKeeps.met st).subset hMem, .refl _⟩
  holds _ st hSound hEnd := by
    refine ⟨⟨hSound.scope, hSound.statics⟩, ⟨⟨_, hEnd.met _ mem_cons_self, rfl⟩, fun key hSrc => ?_⟩, [],
      (append_nil _).symm, .nil⟩
    obtain ⟨remembered, hRemembered⟩ := Site.records_resolveCall ⟨ending.program, owner, st.scope⟩ callee args
      st.memo key hSrc
    exact ⟨remembered, hEnd.memo.lookup remembered _ hRemembered⟩

/-- A function is put after those that have been lifted. -/
theorem add {src : String × MethodDecl} {fn : OutFunction} (hFn : P → Stands src fn) :
    Writes ending Stands P [src] (fun _ => True)
      (Track.gather fun g : Gathered => { g with helpers := g.helpers ++ [fn] }) where
  grows _ := ⟨.refl _, fun _ => id, ⟨fun _ => id, fun _ => id, fun _ => id, fun _ => id⟩⟩
  holds hP _ hSound _ := ⟨⟨hSound.scope, hSound.statics⟩, trivial, [fn], rfl, .cons (hFn hP) .nil⟩

end Writes

end Lower

end Shaderlift
