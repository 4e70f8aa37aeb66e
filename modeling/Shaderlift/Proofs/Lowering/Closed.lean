import Shaderlift.Lowering.Expr
import Shaderlift.Proofs.Source.Nodes

/-!
# What writing an expression does

Writing an expression is put together from few actions: it looks at the state, tells types, meets calls,
notes what it uses, names static fields of other types and pulls in default values. Here an expression is
written at two places that differ in their blanks and in the method around it. A relation of actions that all
these have, and that is kept by doing one after the other, holds of writing any expression at both places
(`Closed.exprWith`). The relation may hold under a condition on the expression only. A property of single
actions is a relation that does not look at the second.
-/

namespace Shaderlift

open List

open Classical in
noncomputable def NodeTest.ofCalls (Ok : Expr → Expr → List Argument → Prop) : NodeTest :=
  { NodeTest.any with
    expr := fun expr =>
      match expr with
      | .call _ callee _ args => decide (Ok expr callee args)
      | _ => true }

theorem NodeTest.ofCalls_call {Ok : Expr → Expr → List Argument → Prop} {span : Span} {callee : Expr}
    {types : List TypeExpr} {args : List Argument} :
    (ofCalls Ok).expr (.call span callee types args) = true ↔ Ok (.call span callee types args) callee args := by
  simp [ofCalls]

/-- Decide whether an expression has no form in the output, so that a blank is written. -/
def Expr.lacksForm : Expr → Bool
  | .anonymous .. | .sizeOfType .. | .typeOfType .. | .stackAlloc .. | .await .. | .throwing .. | .refTo ..
  | .range .. | .tuple .. | .query .. | .newArray _ _ _ none => true
  | _ => false

/-- What sets places of one type apart: the blanks, whether it is the entry point, and the type that is returned. -/
abbrev Setting := Blank × Bool × Option ValueType

/-- The same place in another setting. -/
abbrev LowerContext.under (context : LowerContext) (setting : Setting) : LowerContext :=
  { context with blank := setting.1, inEntry := setting.2.1, returnType := setting.2.2 }

namespace Lower

open Track

/-- Find the initial value of a static field of a type. -/
def fieldInit? (program : Program) (owner name : String) : Option Expr :=
  ((program.typeDecl? owner).bind fun decl => declaratorOf? decl.fields name).bind fun (_, declarator) =>
    declarator.init

/-- Declare a static field of another type that has just been marked as seen. -/
def declareStatic (pull : Pull) (context : LowerContext) (owner name : String) : Lower OutExpr :=
  let prog := context.program
  match (prog.typeDecl? owner).bind fun decl => declaratorOf? decl.fields name with
  | none => pure (.ident (globalName owner name))
  | some (field, declarator) =>
    match prog.staticValueType? field.type declarator.init with
    | none => pure (.ident (globalName owner name))
    | some type => do
      let init ← within (fun _ => .empty) (staticInit (pull { context with owner } (some type)) declarator.init)
      noteStruct type
      gather fun g => { g with statics := g.statics ++ [⟨globalName owner name, type, field.isConstant, init⟩] }
      pure (.ident (globalName owner name))

def IsDefault (program : Program) (value : Expr) : Prop :=
  ∃ key method param, program.method? key = some method ∧ param ∈ method.params ∧ param.default = some value

/-- A change only notes something: it leaves the lifted functions and the report alone. -/
def Notes (change : Gathered → Gathered) : Prop :=
  ∀ gathered, (change gathered).helpers = gathered.helpers ∧ (change gathered).report = gathered.report

/-- A change only remarks on what is used: it leaves the static fields alone, too. -/
structure Remarks (change : Gathered → Gathered) : Prop where
  notes : Notes change
  statics : ∀ gathered, (change gathered).statics = gathered.statics
  seen : ∀ gathered, (change gathered).seenStatics = gathered.seenStatics

/-! ## Types and default values -/

/-- A relation of actions is kept by doing one after the other, and by naming structs. -/
structure Chained (Rel : Prop → ∀ {α : Type}, Lower α → Lower α → Prop) : Prop where
  of_imp : ∀ {P Q : Prop} {α : Type} {first second : Lower α}, Rel P first second → (Q → P) → Rel Q first second
  pure : ∀ {P : Prop} {α : Type} (value : α), Rel P (Pure.pure value : Lower α) (Pure.pure value)
  bind : ∀ {P : Prop} {α β : Type} {first first' : Lower α} {next next' : α → Lower β},
    Rel P first first' → (∀ value, Rel P (next value) (next' value)) → Rel P (first >>= next) (first' >>= next')
  struct : ∀ {P : Prop} (name : String),
    Rel P (gather fun g => { g with structs := addNew name g.structs })
      (gather fun g => { g with structs := addNew name g.structs })

variable {Rel : Prop → ∀ {α : Type}, Lower α → Lower α → Prop} {P : Prop} {α β : Type} {a b : Bool}

/-- What holds of both parts of a test holds of the first. -/
theorem of_and_left (hBoth : P → (a && b) = true) (hP : P) : a = true :=
  (Bool.and_eq_true_iff.mp (hBoth hP)).1

theorem of_and_right (hBoth : P → (a && b) = true) (hP : P) : b = true :=
  (Bool.and_eq_true_iff.mp (hBoth hP)).2

theorem Chained.ite (_ : Chained Rel) {test : Prop} [Decidable test] {first first' second second' : Lower α}
    (hFirst : Rel P first first') (hSecond : Rel P second second') :
    Rel P (if test then first else second) (if test then first' else second') := by
  split
  · exact hFirst
  · exact hSecond

namespace Chained

variable (h : Chained Rel)

include h

theorem left {first second : Lower α} (hFirst : Rel (a = true) first second) : Rel ((a && b) = true) first second :=
  h.of_imp hFirst (of_and_left id)

theorem right {first second : Lower α} (hSecond : Rel (b = true) first second) : Rel ((a && b) = true) first second :=
  h.of_imp hSecond (of_and_right id)

/-- An action whose result is only used, without doing more. -/
theorem map {first first' : Lower α} {result : α → β} (hFirst : Rel P first first') :
    Rel P (do let val ← first; Pure.pure (result val)) (do let val ← first'; Pure.pure (result val)) :=
  h.bind hFirst fun _ => h.pure _

theorem noteStruct (type : ValueType) : Rel P (noteStruct type) (noteStruct type) := by
  unfold Lower.noteStruct
  split
  · exact h.struct _
  · exact h.pure ()

theorem spell (type : ValueType) : Rel P (spell type) (spell type) := h.map (h.noteStruct type)

theorem spellWritten (prog : Program) (type : TypeExpr) : Rel P (spellWritten prog type) (spellWritten prog type) := by
  unfold Lower.spellWritten
  split
  · exact h.spell _
  · exact h.pure _

theorem zero (type : Option ValueType) : Rel P (zero type) (zero type) := by
  cases type with
  | none => exact h.pure _
  | some type => exact h.map (h.spell type)

theorem staticInit {write write' : Expr → Lower OutExpr} {init : Option Expr}
    (hWrite : ∀ val, init = some val → val.isSizedArray = false → Rel P (write val) (write' val)) :
    Rel P (staticInit write init) (staticInit write' init) := by
  cases init with
  | none => exact h.pure _
  | some val =>
    cases hSized : val.isSizedArray with
    | true => simpa [Lower.staticInit, hSized] using h.pure none
    | false => simpa [Lower.staticInit, hSized] using h.map (hWrite val rfl hSized)

variable {pull pull' : Pull} {ctx : LowerContext} {setting : Setting}

theorem declareStatic (owner name : String)
    (hDeclare : ∀ decl, Rel P (gather fun g : Gathered => { g with statics := g.statics ++ [decl] })
      (gather fun g : Gathered => { g with statics := g.statics ++ [decl] }))
    (hInit : ∀ type init, init = fieldInit? ctx.program owner name →
      Rel P (within (fun _ => .empty) (Lower.staticInit (pull { ctx with owner } (some type)) init))
        (within (fun _ => .empty) (Lower.staticInit (pull' { ctx.under setting with owner } (some type)) init))) :
    Rel P (declareStatic pull ctx owner name) (declareStatic pull' (ctx.under setting) owner name) := by
  unfold Lower.declareStatic
  dsimp only
  split
  · exact h.pure _
  · rename_i field declarator hFound
    split
    · exact h.pure _
    · exact h.bind (hInit _ _ (by rw [fieldInit?, hFound]; rfl)) fun _ => h.bind (h.noteStruct _) fun _ =>
        h.map (hDeclare _)

theorem fillDefaults {write write' : Expr → Lower OutExpr} (entries : List (Option OutExpr × Param))
    (hWrite : ∀ entry ∈ entries, ∀ val, entry.2.default = some val → Rel P (write val) (write' val)) :
    Rel P (fillDefaults write entries) (fillDefaults write' entries) := by
  induction entries with
  | nil => exact h.pure _
  | cons entry rest ih =>
    have hRest := ih (forall_mem_cons.mp hWrite).2
    match entry with
    | (some _, _) => exact h.map hRest
    | (none, param) =>
      simp only [Lower.fillDefaults]
      split
      · rename_i val hVal
        exact h.bind (hWrite (none, param) mem_cons_self val hVal) fun _ => h.map hRest
      · exact hRest

/-- The arguments of a call are written, and the default values of the method that it means. -/
theorem call (args : List Argument) (callee : Callee) {write write' : List (Option ValueType) → Lower (List OutExpr)}
    (hDefault : ∀ key method, callee = .source key → ctx.program.method? key = some method →
      ∀ param ∈ method.params, ∀ val, param.default = some val →
        Rel P (pull ctx none val) (pull' (ctx.under setting) none val))
    (hWrite : ∀ hints, Rel P (write hints) (write' hints)) :
    Rel P (call pull ctx args callee write) (call pull' (ctx.under setting) args callee write') := by
  cases callee with
  | source key =>
    simp only [Lower.call]
    split
    · rename_i method hMethod
      refine h.bind (hWrite _) fun values => h.map (h.map (h.fillDefaults _ fun entry hEntry => ?_))
      exact hDefault key method rfl hMethod entry.2 (of_mem_zip hEntry).2
    · exact h.map (hWrite _)
  | intrinsic | localFunction | resourceMember | unknown | ambiguous => exact h.map (hWrite _)

end Chained

/-! ## Names -/

/-- A relation of actions is kept by remarks, one after the other. -/
structure Noting (Rel : Prop → ∀ {α : Type}, Lower α → Lower α → Prop) : Prop extends Chained Rel where
  note : ∀ {P : Prop} {change : Gathered → Gathered}, Remarks change → Rel P (gather change) (gather change)

namespace Noting

variable (h : Noting Rel)

include h

theorem noteIds (change : SpecialIds → SpecialIds) : Rel P (noteIds change) (noteIds change) :=
  h.note ⟨fun _ => ⟨rfl, rfl⟩, fun _ => rfl, fun _ => rfl⟩

theorem noteGroupSize : Rel P noteGroupSize noteGroupSize :=
  h.note ⟨fun _ => ⟨rfl, rfl⟩, fun _ => rfl, fun _ => rfl⟩

theorem dispatchValue (kind : ShaderKind) (info : DispatchInfo) :
    Rel P (dispatchValue kind info) (dispatchValue kind info) := by
  cases info with
  | threadIds | dispatchSize => exact h.pure _
  | groupIds | gridIds => exact h.map (h.noteIds _)
  | groupSize => exact h.map h.noteGroupSize

theorem dispatchMember (kind : ShaderKind) (info : DispatchInfo) (name : String) :
    Rel P (dispatchMember kind info name) (dispatchMember kind info name) := by
  cases info with
  | threadIds => exact h.ite (h.pure _) (h.pure _)
  | groupIds => exact h.ite (h.map (h.noteIds _)) (h.map (h.noteIds _))
  | gridIds => exact h.map (h.noteIds _)
  | groupSize => exact h.map h.noteGroupSize
  | dispatchSize => exact h.pure _

end Noting

/-- A relation of actions is kept by what writing expressions does at a place in two settings, if the nodes of the
expressions pass a test. -/
structure Closed (pull pull' : Pull) (context : LowerContext) (setting : Setting) (test : NodeTest)
    (Rel : Prop → ∀ {α : Type}, Lower α → Lower α → Prop) : Prop extends Noting Rel where
  blank : ∀ expr : Expr, expr.lacksForm = true →
    Rel (expr.all test = true) (Pure.pure context.blank.expr) (Pure.pure setting.1.expr)
  site : ∀ {P : Prop}, Rel P (site context) (site context)
  infer : ∀ {P : Prop} target, Rel P (look context fun site => site.infer target)
    (look context fun site => site.infer target)
  static : ∀ {P : Prop} owner name,
    Rel P (externalStatic pull context owner name) (externalStatic pull' (context.under setting) owner name)
  call : ∀ {P : Prop} span callee types args {write write' : List (Option ValueType) → Lower (List OutExpr)},
    (P → test.expr (.call span callee types args) = true) → (∀ hints, Rel P (write hints) (write' hints)) →
    Rel P
      (do let found ← meet context.program context.owner (.call span callee types args) callee args
          call pull context args found write)
      (do let found ← meet context.program context.owner (.call span callee types args) callee args
          call pull' (context.under setting) args found write')

namespace Closed

variable {pull pull' : Pull} {ctx : LowerContext} {setting : Setting} {test : NodeTest}
  (h : Closed pull pull' ctx setting test Rel)

include h

theorem ident (expr : Expr) (name : String) :
    Rel P (ident pull ctx expr name) (ident pull' (ctx.under setting) expr name) := by
  unfold Lower.ident
  refine h.bind h.site fun site => h.ite (h.pure _) ?_
  dsimp only
  split
  · exact h.dispatchValue _ _
  · split
    · exact h.ite (h.static _ name) (h.pure _)
    · exact h.pure _

/-! ## Members and elements -/

theorem staticMember (path name : String) :
    Rel P (staticMember pull ctx path name) (staticMember pull' (ctx.under setting) path name) := by
  unfold Lower.staticMember
  split
  · exact h.pure _
  · exact h.pure _
  · dsimp only
    split
    · exact h.ite (h.ite (h.pure _) (h.static _ name)) (h.pure _)
    · exact h.pure _

variable {write write' : Lower OutExpr}

theorem property (target : Expr) (name : String) (hWrite : Rel P write write') :
    Rel P (property ctx target name write) (property (ctx.under setting) target name write') :=
  h.bind (h.infer target) fun _ => h.map hWrite

theorem member (target : Expr) (name : String) (hWrite : Rel P write write') :
    Rel P (member pull ctx target name write) (member pull' (ctx.under setting) target name write') := by
  have hPlain : Rel P (plainMember pull ctx target name write)
      (plainMember pull' (ctx.under setting) target name write') := by
    unfold plainMember
    refine h.bind h.site fun site => ?_
    split
    · exact h.property target name hWrite
    · split
      · exact h.staticMember _ name
      · split
        · exact h.map (h.note ⟨fun _ => ⟨rfl, rfl⟩, fun _ => rfl, fun _ => rfl⟩)
        · exact h.property target name hWrite
  unfold Lower.member
  refine h.bind h.site fun site => ?_
  split
  · exact h.dispatchMember _ _ _
  · exact h.pure _
  · exact hPlain

theorem index (target : Expr) (args : List Argument) {indices indices' : Lower (List OutExpr)}
    (hWrite : Rel P write write') (hIndices : Rel P indices indices') : Rel P (index ctx target args write indices)
      (index (ctx.under setting) target args write' indices') := by
  have hPlain : Rel P (plainIndex ctx target args write indices)
      (plainIndex (ctx.under setting) target args write' indices') := by
    unfold plainIndex
    refine h.bind (h.infer target) fun type => ?_
    split
    · exact h.map hWrite
    · exact h.bind hWrite fun _ => h.map hIndices
  unfold Lower.index
  refine h.bind h.site fun site => ?_
  split
  · exact h.bind hIndices fun _ => h.ite (h.pure _) (h.pure _)
  · exact hPlain

/-! ## Expressions -/

mutual

/-- Writing an expression keeps the relation if its nodes pass the test. -/
theorem exprWith (hint : Option ValueType) (expr : Expr) : Rel (expr.all test = true) (exprWith pull ctx hint expr)
      (exprWith pull' (ctx.under setting) hint expr) := by
  have hBlank := h.blank expr
  unfold Lower.exprWith
  unfold Expr.all at hBlank ⊢
  cases expr with
  | literal | selfRef | typeWord => exact h.pure _
  | ident span name => exact h.ident (.ident span name) name
  | member _ target name => exact h.member target name (h.right (exprWith none target))
  | index _ target args =>
    exact h.index target args (h.right (h.left (exprWith none target))) (h.right (h.right (argsWith [] args)))
  | call span callee types args =>
    exact h.call span callee types args (fun hAll => (Bool.and_eq_true_iff.mp hAll).1) fun hints =>
      h.right (h.right (argsWith hints args))
  | unary _ _ operand => exact h.map (h.right (exprWith none operand))
  | post _ op operand =>
    cases op with
    | nullForgiving => exact h.right (exprWith none operand)
    | inc | dec => exact h.map (h.right (exprWith none operand))
  | binary _ _ lhs rhs =>
    exact h.bind (h.right (h.left (exprWith none lhs))) fun _ => h.map (h.right (h.right (exprWith none rhs)))
  | assign _ _ target val =>
    exact h.bind (h.infer target) fun expected => h.bind (h.right (h.left (exprWith none target))) fun _ =>
      h.map (h.right (h.right (exprWith expected val)))
  | conditional _ cond thenExpr elseExpr =>
    exact h.bind (h.right (h.left (exprWith none cond))) fun _ =>
      h.bind (h.right (h.right (h.left (exprWith hint thenExpr)))) fun _ =>
        h.map (h.right (h.right (h.right (exprWith hint elseExpr))))
  | cast _ type operand => exact h.bind (h.spellWritten _ type) fun _ => h.map (h.right (exprWith none operand))
  | asType _ operand | checked _ _ operand => exact h.right (exprWith none operand)
  | paren _ inner => exact h.map (h.right (exprWith hint inner))
  | construct _ type args =>
    dsimp only
    split
    · exact h.ite (h.zero _) (h.bind (h.spell _) fun _ => h.map (h.right (h.left (argsWith [] args))))
    · exact h.pure _
  | newArray _ _ _ init =>
    cases init with
    | none => exact hBlank rfl
    | some items => exact h.map (h.right (h.right (itemsWith _ items)))
  | arrayInit _ items => exact h.map (h.right (itemsWith _ items))
  | defaultOf _ type => exact h.zero _
  | isPattern _ operand pattern =>
    exact h.bind (h.right (h.left (exprWith none operand))) fun subject =>
      h.right (h.right (patternWith subject pattern))
  | anonymous | sizeOfType | typeOfType | stackAlloc | await | throwing | refTo | range | tuple | query =>
    exact hBlank rfl

theorem argsWith (hints : List (Option ValueType)) (args : List Argument) :
    Rel (allArgs test args = true) (argsWith pull ctx hints args) (argsWith pull' (ctx.under setting) hints args) := by
  unfold Lower.argsWith allArgs
  match args with
  | [] => exact h.pure _
  | ⟨_, _, val⟩ :: rest =>
    exact h.bind (h.left (exprWith _ val)) fun _ => h.map (h.right (argsWith _ rest))

theorem itemsWith (hint : Option ValueType) (items : List Expr) :
    Rel (allExprs test items = true) (itemsWith pull ctx hint items)
      (itemsWith pull' (ctx.under setting) hint items) := by
  unfold Lower.itemsWith allExprs
  cases items with
  | nil => exact h.pure _
  | cons item rest => exact h.bind (h.left (exprWith hint item)) fun _ => h.map (h.right (itemsWith hint rest))

theorem patternWith (subject : OutExpr) (pattern : Pattern) :
    Rel (pattern.all test = true) (patternWith pull ctx subject pattern)
      (patternWith pull' (ctx.under setting) subject pattern) := by
  unfold Lower.patternWith Pattern.all
  cases pattern with
  | constant val | relational _ _ val => exact h.map (h.right (exprWith none val))
  | not inner => exact h.map (h.right (patternWith subject inner))
  | and lhs rhs | or lhs rhs =>
    exact h.bind (h.right (h.left (patternWith subject lhs))) fun _ =>
      h.map (h.right (h.right (patternWith subject rhs)))
  | discard | var | recursive | declaration => exact h.pure _

end

end Closed

end Lower

end Shaderlift
