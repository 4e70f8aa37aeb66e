import Mathlib.Algebra.Group.Nat.Defs
import Shaderlift.Lowering.Stmt

/-!
# Promotion of operands

An operation on numbers has the least type that each of its operands widens to. What is told as the type of
an expression is the least such type of the operands that are looked at: a field written after `this` is never
looked at, the second branch of a conditional only where the first one tells nothing, and a negation hides its
operand. So what is told is never wider than the promoted type, and it is that type exactly when no operand
is wider than what is told.
-/

namespace Shaderlift

open List

namespace ValueType

/-- Decide whether a number becomes a number of another type without loss: the components are of no lower
rank, and there are as many of them unless a single one is repeated. -/
def widensTo : ValueType → ValueType → Bool
  | .scalar kind, .scalar wider => kind.rank ≤ wider.rank
  | .scalar kind, .vector wider _ => kind.rank ≤ wider.rank
  | .vector kind width, .vector wider count => kind.rank ≤ wider.rank && width == count
  | _, _ => false

variable {a b c : ValueType}

theorem widensTo_trans (hFirst : a.widensTo b) (hSecond : b.widensTo c) : a.widensTo c := by
  cases a <;> cases b <;> cases c <;> grind [widensTo]

theorem widensTo_antisymm (hFirst : a.widensTo b) (hSecond : b.widensTo a) : a = b := by
  have hRank : ∀ kind other : Scalar, kind.rank ≤ other.rank → other.rank ≤ kind.rank → kind = other := by
    intro kind other
    cases kind <;> cases other <;> simp [Scalar.rank]
  cases a <;> cases b <;> grind [widensTo]

/-- Types that widen to a common one combine to the least type that both widen to. -/
theorem widensTo_combine (hFirst : a.widensTo c) (hSecond : b.widensTo c) :
    a.widensTo (combine a b) ∧ b.widensTo (combine a b) ∧ (combine a b).widensTo c := by
  cases a <;> cases b <;> cases c <;> grind [widensTo, combine, Scalar.wider]

end ValueType

/-- A type is the promotion of operands: each of them widens to it, and it widens to every such type. -/
structure Promotion (operands : List ValueType) (type : ValueType) : Prop where
  above : ∀ operand ∈ operands, operand.widensTo type
  least : ∀ other : ValueType, (∀ operand ∈ operands, operand.widensTo other) → type.widensTo other

namespace Promotion

variable {operands others : List ValueType} {type second bound : ValueType}

theorem single (hPlain : type.widensTo type) : Promotion [type] type where
  above operand hOperand := by rwa [mem_singleton.mp hOperand]
  least other hOther := hOther _ (mem_singleton.mpr rfl)

theorem ne_nil (h : Promotion operands type) : operands ≠ [] := by
  rintro rfl
  have hVoid : type.widensTo .void := h.least .void (by simp)
  cases type <;> cases hVoid

theorem combine (hFirst : Promotion operands type) (hSecond : Promotion others second)
    (hBound : ∀ operand ∈ operands ++ others, operand.widensTo bound) :
    Promotion (operands ++ others) (type.combine second) := by
  have hBoth : ∀ {other : ValueType}, (∀ operand ∈ operands ++ others, operand.widensTo other) →
      type.widensTo other ∧ second.widensTo other := by
    intro other hOther
    obtain ⟨hLeft, hRight⟩ := forall_mem_append.mp hOther
    exact ⟨hFirst.least other hLeft, hSecond.least other hRight⟩
  constructor
  · obtain ⟨hLeft, hRight, -⟩ := ValueType.widensTo_combine (hBoth hBound).1 (hBoth hBound).2
    exact forall_mem_append.mpr ⟨fun operand hIn => ValueType.widensTo_trans (hFirst.above operand hIn) hLeft,
      fun operand hIn => ValueType.widensTo_trans (hSecond.above operand hIn) hRight⟩
  · intro other hOther
    exact (ValueType.widensTo_combine (hBoth hOther).1 (hBoth hOther).2).2.2

end Promotion

/-! ## Operands -/

/-- The component type of a literal by its form. -/
inductive Literal.OfKind : Literal → Scalar → Prop
  | int (text : String) {value : Nat} : value < 2 ^ 31 → OfKind (.int text value .none) .int
  | large (text : String) {value : Nat} : 2 ^ 31 ≤ value → OfKind (.int text value .none) .uint
  | uint (text : String) (value : Nat) : OfKind (.int text value .u) .uint
  | float (digits : String) : OfKind (.real digits (some .f)) .float
  | double (digits : String) : OfKind (.real digits none) .double
  | marked (digits : String) : OfKind (.real digits (some .d)) .double
  | bool (value : Bool) : OfKind (.bool value) .bool

theorem Literal.OfKind.type_eq {val : Literal} {kind : Scalar} (hKind : val.OfKind kind) :
    val.type? = some (.scalar kind) := by
  cases hKind with
  | int _ hVal => exact if_neg (by omega)
  | large _ hVal => exact if_pos (by omega)
  | _ => rfl

def BinaryOp.isArithmetic (op : BinaryOp) : Bool :=
  [BinaryOp.mul, .div, .rem, .add, .sub, .bitAnd, .bitXor, .bitOr].contains op

/-- The types of the operands of an expression on numbers, and the types of those that are looked at. -/
inductive Site.Operands (site : Site) : Expr → List ValueType → List ValueType → Prop
  | literal (span : Span) {value : Literal} {kind : Scalar} : value.OfKind kind →
    site.Operands (.literal span value) [.scalar kind] [.scalar kind]
  | named (span : Span) {name : String} {type : ValueType} : site.scope.local? name = some (some type) →
    type.widensTo type → site.Operands (.ident span name) [type] [type]
  | field (span : Span) {name : String} {written : TypeExpr} {type : ValueType} :
    site.scope.local? name = none → site.program.fieldType? site.owner name = some written →
    site.program.meaning written = .value type → type.widensTo type →
    site.Operands (.ident span name) [type] [type]
  | ofSelf (span inner : Span) {name : String} (isConditional : Bool) {written : TypeExpr} {type : ValueType} :
    site.program.fieldType? site.owner name = some written → site.program.meaning written = .value type →
    site.Operands (.member span (.selfRef inner) name isConditional) [type] []
  | paren (span : Span) {inner : Expr} {all seen : List ValueType} : site.Operands inner all seen →
    site.Operands (.paren span inner) all seen
  | unary (span : Span) {op : UnaryOp} {operand : Expr} {all seen : List ValueType} : op ≠ .not →
    site.Operands operand all seen → site.Operands (.unary span op operand) all seen
  | not (span : Span) {operand : Expr} {all seen : List ValueType} : site.Operands operand all seen →
    site.Operands (.unary span .not operand) (all.map (ValueType.withScalar .bool)) [.bool]
  | binary (span : Span) {op : BinaryOp} {lhs rhs : Expr} {left leftSeen right rightSeen : List ValueType} :
    op.isArithmetic → site.Operands lhs left leftSeen → site.Operands rhs right rightSeen →
    site.Operands (.binary span op lhs rhs) (left ++ right) (leftSeen ++ rightSeen)
  | conditional (span : Span) (cond : Expr) {thenExpr elseExpr : Expr}
    {first firstSeen second secondSeen : List ValueType} :
    site.Operands thenExpr first firstSeen → site.Operands elseExpr second secondSeen →
    site.Operands (.conditional span cond thenExpr elseExpr) (first ++ second)
      (if firstSeen = [] then secondSeen else firstSeen)

namespace Site.Operands

variable {site : Site} {expr : Expr} {all seen : List ValueType} {bound : ValueType}

theorem ne_nil (h : site.Operands expr all seen) : all ≠ [] := by
  induction h with
  | paren _ _ ih | unary _ _ _ ih => exact ih
  | not _ _ ih => simpa using ih
  | binary _ _ _ _ ih | conditional _ _ _ _ ih => simp [ih]
  | _ => simp

/-- What is looked at widens to all that the operands widen to. -/
theorem seen_widensTo (h : site.Operands expr all seen) (hBound : ∀ operand ∈ all, operand.widensTo bound) :
    ∀ operand ∈ seen, operand.widensTo bound := by
  induction h with
  | literal | named | field => exact hBound
  | ofSelf => simp
  | paren _ _ ih | unary _ _ _ ih => exact ih hBound
  | not _ hOperand =>
    -- the truth value is below every operand of the negation, and there is one
    obtain ⟨first, hFirst⟩ := exists_mem_of_ne_nil _ hOperand.ne_nil
    have hWidens := hBound _ (mem_map_of_mem hFirst)
    intro operand hSingle
    rw [mem_singleton.mp hSingle]
    cases first <;> cases bound <;> grind [ValueType.widensTo, ValueType.withScalar, ValueType.bool, Scalar.rank]
  | binary _ _ _ _ ihLeft ihRight =>
    obtain ⟨hLeft, hRight⟩ := forall_mem_append.mp hBound
    exact forall_mem_append.mpr ⟨ihLeft hLeft, ihRight hRight⟩
  | conditional _ _ _ _ ihThen ihElse =>
    obtain ⟨hThen, hElse⟩ := forall_mem_append.mp hBound
    split
    · exact ihElse hElse
    · exact ihThen hThen

/-- What is told of operands: nothing if none of them is looked at, or else their promotion. -/
def Told (seen : List ValueType) (told : Option ValueType) : Prop :=
  told.elim (seen = []) (Promotion seen)

theorem Told.eq_none_iff {told : Option ValueType} (hTold : Told seen told) : told = none ↔ seen = [] := by
  cases told with
  | none => exact iff_of_true rfl hTold
  | some type => exact iff_of_false (by simp) (Promotion.ne_nil hTold)

/-- Operands that are looked at together are promoted together. -/
theorem Told.append {first second : List ValueType} {left right : Option ValueType} (hLeft : Told first left)
    (hRight : Told second right) (hBound : ∀ operand ∈ first ++ second, operand.widensTo bound) :
    Told (first ++ second) (ValueType.combine? left right) := by
  cases left with
  | none =>
    obtain rfl : first = [] := hLeft
    exact hRight
  | some left =>
    cases right with
    | none =>
      obtain rfl : second = [] := hRight
      rw [append_nil]
      exact hLeft
    | some right => exact Promotion.combine hLeft hRight hBound

/-- Telling the type of an expression on numbers promotes the operands that are looked at. -/
theorem infer_told (h : site.Operands expr all seen) (hBound : ∀ operand ∈ all, operand.widensTo bound) :
    ∃ told, site.infer expr = pure told ∧ Told seen told := by
  induction h with
  | @literal _ _ kind hKind =>
    have hPlain : (ValueType.scalar kind).widensTo (.scalar kind) := by simp [ValueType.widensTo]
    exact ⟨some _, by rw [infer, hKind.type_eq], Promotion.single hPlain⟩
  | named _ hLocal hPlain => exact ⟨some _, by rw [infer, nameType?, hLocal], Promotion.single hPlain⟩
  | field _ hLocal hType hMeaning hPlain =>
    refine ⟨some _, ?_, Promotion.single hPlain⟩
    simp [infer, nameType?, hLocal, field?, Scope.contains, hType, hMeaning, Meaning.value?]
  | ofSelf => exact ⟨none, rfl, rfl⟩
  | paren _ _ ih =>
    rw [infer]
    exact ih hBound
  | unary _ hOp _ ih =>
    rw [infer]
    · exact ih hBound
    · exact hOp
  | not => exact ⟨some _, rfl, Promotion.single rfl⟩
  | @binary span op _ _ _ _ _ _ hOp hLeft hRight ihLeft ihRight =>
    obtain ⟨hLeftBound, hRightBound⟩ := forall_mem_append.mp hBound
    obtain ⟨left, hLeftInfer, hLeftTold⟩ := ihLeft hLeftBound
    obtain ⟨right, hRightInfer, hRightTold⟩ := ihRight hRightBound
    have hSeen := (hLeft.binary span hOp hRight).seen_widensTo hBound
    refine ⟨ValueType.combine? left right, ?_, hLeftTold.append hRightTold hSeen⟩
    rw [infer, hLeftInfer, hRightInfer]
    cases op with
    | mul | div | rem | add | sub | bitAnd | bitXor | bitOr => rfl
    | _ => cases hOp
  | conditional _ _ _ _ ihThen ihElse =>
    obtain ⟨hThenBound, hElseBound⟩ := forall_mem_append.mp hBound
    obtain ⟨first, hInfer, hTold⟩ := ihThen hThenBound
    rw [infer, hInfer]
    cases first with
    | none =>
      rw [if_pos (hTold.eq_none_iff.mp rfl)]
      exact ihElse hElseBound
    | some type =>
      rw [if_neg (Promotion.ne_nil hTold)]
      exact ⟨_, rfl, hTold⟩

end Site.Operands

/-- A declaration without a written type whose first initial value is an expression. -/
def LocalDecl.Infers (decl : LocalDecl) (init : Expr) : Prop :=
  decl.type.isInferred = true ∧ decl.declarators.head?.bind Declarator.init = some init

/-- What a declaration without a written type starts with is the type that is told of its initial value. -/
theorem Lower.localDecl_of_told {ctx : LowerContext} {st : Tracked Gathered} {decl : LocalDecl}
    {init : Expr} {type : ValueType} (hDecl : decl.Infers init)
    (hInfer : Site.infer ⟨ctx.program, ctx.owner, st.scope⟩ init = pure (some type)) :
    ∃ names, (localDecl ctx decl st).1 =
      (if decl.isConst then "const " else "") ++ type.spelling ++ " " ++ names := by
  have hLook : look ctx (fun site => site.infer init) st = (some type, st) := by
    show ((Site.infer ⟨ctx.program, ctx.owner, st.scope⟩ init st.memo).1,
      { st with memo := (Site.infer ⟨ctx.program, ctx.owner, st.scope⟩ init st.memo).2 }) = _
    rw [hInfer]
    rfl
  have hType : declType ctx decl st = (some type, st) := by
    rw [declType, if_pos hDecl.1, hDecl.2]
    dsimp only [bind, StateT.bind]
    rw [hLook]
    rfl
  dsimp only [localDecl, bind, StateT.bind]
  rw [hType]
  exact ⟨_, rfl⟩

/-- Telling the type of an expression on numbers needs no memory. It tells the promotion of the operands that
are looked at, which is never wider than the promotion of all operands and is the same exactly if no operand
is wider; a declaration without a written type is given that type. -/
theorem Site.Operands.infer_promotes {site : Site} {expr : Expr} {all seen : List ValueType} {type : ValueType}
    (h : site.Operands expr all seen) (hType : Promotion all type) :
    ∃ told, site.infer expr = pure told ∧ (told = none ↔ seen = []) ∧
      ∀ narrow, told = some narrow →
        Promotion seen narrow ∧ narrow.widensTo type ∧
        (narrow = type ↔ ∀ operand ∈ all, operand.widensTo narrow) ∧
        ∀ (context : LowerContext) (state : Tracked Gathered) (decl : LocalDecl),
          site = ⟨context.program, context.owner, state.scope⟩ → decl.Infers expr →
          ∃ names, (Lower.localDecl context decl state).1 =
            (if decl.isConst then "const " else "") ++ narrow.spelling ++ " " ++ names := by
  obtain ⟨told, hInfer, hTold⟩ := h.infer_told hType.above
  refine ⟨told, hInfer, hTold.eq_none_iff, ?_⟩
  rintro narrow rfl
  have hNarrow : narrow.widensTo type := hTold.least type (h.seen_widensTo hType.above)
  refine ⟨hTold, hNarrow, ⟨?_, fun hAbove => ?_⟩, ?_⟩
  · rintro rfl
    exact hType.above
  · exact ValueType.widensTo_antisymm hNarrow (hType.least narrow hAbove)
  · rintro context state decl rfl hDecl
    exact Lower.localDecl_of_told hDecl hInfer

/-- A method of a shader with a field `f` of type `float`, where a local `n` of type `int` is in scope. -/
def scaledSite : Site :=
  let field : FieldDecl := ⟨[], [], .word "float" default, [⟨"f", none, none, default⟩], default⟩
  let shader : TypeDecl := ⟨⟨[], [], .struct, "S", [], [], none, default⟩, [.field field]⟩
  { program :=
      { shader, kind := .compute, pixelType := none, entry := none, table := .empty, index := ⟨[⟨shader, []⟩]⟩,
        staticUsings := [] }
    owner := "S"
    scope := Scope.empty.declare "n" (some .int) }

/-- The expression `n + this.f` needs `float`, and `int` is told. -/
theorem Site.Operands.infer_promotes_scaledSite :
    let sum := Expr.binary default .add (.ident default "n") (.member default (.selfRef default) "f" false)
    scaledSite.Operands sum [.int, .float] [.int] ∧ Promotion [.int, .float] .float ∧
      scaledSite.infer sum = pure (some .int) := by
  intro sum
  have hOperands : scaledSite.Operands sum [.int, .float] [.int] :=
    .binary default rfl (.named default rfl rfl) (.ofSelf default default false rfl rfl)
  have hPromotion : Promotion [.int, .float] .float := ⟨by decide, fun other hOther => hOther .float (by decide)⟩
  obtain ⟨told, hInfer, hNone, hSome⟩ := hOperands.infer_promotes hPromotion
  cases told with
  | none => exact absurd (hNone.mp rfl) (by simp)
  | some narrow =>
    obtain ⟨hSeen, -⟩ := hSome narrow rfl
    have hInt : narrow = .int := ValueType.widensTo_antisymm (hSeen.least .int (by decide)) (hSeen.above .int (by decide))
    exact ⟨hOperands, hPromotion, hInt ▸ hInfer⟩

end Shaderlift
