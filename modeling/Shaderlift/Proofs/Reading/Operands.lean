import Shaderlift.Proofs.Reading.Attempts

/-!
# Operands at a row of marks

An operand is read as a primary expression, extended by accesses, calls and operators after it. `Chain` says that
reading starts with some primary expression and extends it, step by step, to a given tree. `ReadsUnary` adds what
stands before an operand.
-/

namespace Shaderlift

open List
open TokenKind (isLeaf isTypeWord ofTypeName)

/-! ## Trees that are read -/

def Expr.token? : Expr → Option TokenKind
  | .literal _ val => val.outline?
  | .ident _ name => some (.ident name)
  | .selfRef _ => some (.word "this")
  | .typeWord _ name => some (.word name)
  | _ => none

mutual

/-- A tree that has been read is a tree of the output, node by node. Places are left aside, and so is whether the
source qualifies a name. -/
inductive Outlines : Expr → OutExpr → Prop
  | token {value : Expr} {kind : TokenKind} : value.token? = some kind → Outlines value (.token kind)
  | qualified {value : Expr} {name : String} : value.token? = some (.ident name) → Outlines value (.qualified name)
  | member {span : Span} {value : Expr} {target : OutExpr} {name : String} :
      Outlines value target → Outlines (.member span value name false) (.member target name)
  | index {span : Span} {value : Expr} {target : OutExpr} {args : List Argument} {outs : List OutExpr} :
      Outlines value target → OutlinesArgs args outs → Outlines (.index span value args) (.index target outs)
  | call {span : Span} {value : Expr} {callee : OutExpr} {args : List Argument} {outs : List OutExpr} :
      Outlines value callee → OutlinesArgs args outs → Outlines (.call span value [] args) (.call callee outs)
  | unary {span : Span} {op : UnaryOp} {value : Expr} {operand : OutExpr} :
      Outlines value operand → Outlines (.unary span op value) (.unary op operand)
  | post {span : Span} {op : PostOp} {value : Expr} {operand : OutExpr} :
      Outlines value operand → Outlines (.post span op value) (.post op operand)
  | binary {span : Span} {op : BinaryOp} {left right : Expr} {lhs rhs : OutExpr} :
      Outlines left lhs → Outlines right rhs → Outlines (.binary span op left right) (.binary op lhs rhs)
  | assign {span : Span} {op : AssignOp} {left right : Expr} {target value : OutExpr} :
      Outlines left target → Outlines right value → Outlines (.assign span op left right) (.assign op target value)
  | conditional {span : Span} {test first second : Expr} {cond thenExpr elseExpr : OutExpr} :
      Outlines test cond → Outlines first thenExpr → Outlines second elseExpr →
      Outlines (.conditional span test first second) (.conditional cond thenExpr elseExpr)
  | cast {span place : Span} {type : String} {value : Expr} {operand : OutExpr} :
      Outlines value operand → Outlines (.cast span (.named place type []) value) (.cast type operand)
  | paren {span : Span} {value : Expr} {inner : OutExpr} :
      Outlines value inner → Outlines (.paren span value) (.paren inner)
  | braces {span : Span} {values : List Expr} {items : List OutExpr} :
      OutlinesItems values items → Outlines (.arrayInit span values) (.braces items)

/-- Arguments that have been read are neither named nor passed by reference. -/
inductive OutlinesArgs : List Argument → List OutExpr → Prop
  | nil : OutlinesArgs [] []
  | cons {value : Expr} {out : OutExpr} {args : List Argument} {outs : List OutExpr} :
      Outlines value out → OutlinesArgs args outs → OutlinesArgs (⟨none, none, value⟩ :: args) (out :: outs)

/-- Items that have been read, one by one. -/
inductive OutlinesItems : List Expr → List OutExpr → Prop
  | nil : OutlinesItems [] []
  | cons {value : Expr} {out : OutExpr} {values : List Expr} {outs : List OutExpr} :
      Outlines value out → OutlinesItems values outs → OutlinesItems (value :: values) (out :: outs)

end

namespace OutExpr

mutual

/-- Forget which names the source qualifies. -/
def unqualified : OutExpr → OutExpr
  | .token kind => .token kind
  | .qualified name => .token (.ident name)
  | .member target name => .member target.unqualified name
  | .index target args => .index target.unqualified (unqualifiedAll args)
  | .call callee args => .call callee.unqualified (unqualifiedAll args)
  | .unary op operand => .unary op operand.unqualified
  | .post op operand => .post op operand.unqualified
  | .binary op lhs rhs => .binary op lhs.unqualified rhs.unqualified
  | .assign op target val => .assign op target.unqualified val.unqualified
  | .conditional cond thenExpr elseExpr =>
    .conditional cond.unqualified thenExpr.unqualified elseExpr.unqualified
  | .cast type operand => .cast type operand.unqualified
  | .paren inner => .paren inner.unqualified
  | .braces items => .braces (unqualifiedAll items)

def unqualifiedAll : List OutExpr → List OutExpr
  | [] => []
  | item :: rest => item.unqualified :: unqualifiedAll rest

end

end OutExpr

section Unique

open OutExpr

mutual

/-- An expression is one tree only, up to which names the source qualifies. -/
theorem Outlines.unique {val : Expr} {first second : OutExpr} (hFirst : Outlines val first)
    (hSecond : Outlines val second) : first.unqualified = second.unqualified := by
  cases hFirst with
  | token hKind | qualified hKind =>
    cases hSecond with
    | token hOther | qualified hOther => simp_all [unqualified]
    | _ => cases hKind
  | member hInner | unary hInner | post hInner | cast hInner | paren hInner | braces hInner =>
    cases hSecond with
    | token hKind | qualified hKind => cases hKind
    | _ hOther => simp only [unqualified, hInner.unique hOther]
  | index hLeft hRight | call hLeft hRight | binary hLeft hRight | assign hLeft hRight =>
    cases hSecond with
    | token hKind | qualified hKind => cases hKind
    | _ =>
      rename_i hOther hOthers
      simp only [unqualified, hLeft.unique hOther, hRight.unique hOthers]
  | conditional hTest hThen hElse =>
    cases hSecond with
    | token hKind | qualified hKind => cases hKind
    | conditional hOther hOthers hLast =>
      simp only [unqualified, hTest.unique hOther, hThen.unique hOthers, hElse.unique hLast]

theorem OutlinesArgs.unique {args : List Argument} {first second : List OutExpr} (hFirst : OutlinesArgs args first)
    (hSecond : OutlinesArgs args second) : unqualifiedAll first = unqualifiedAll second := by
  cases hFirst with
  | nil =>
    cases hSecond
    rfl
  | cons hVal hArgs =>
    cases hSecond with
    | cons hOther hOthers => simp only [unqualifiedAll, hVal.unique hOther, hArgs.unique hOthers]

theorem OutlinesItems.unique {values : List Expr} {first second : List OutExpr} (hFirst : OutlinesItems values first)
    (hSecond : OutlinesItems values second) : unqualifiedAll first = unqualifiedAll second := by
  cases hFirst with
  | nil =>
    cases hSecond
    rfl
  | cons hVal hItems =>
    cases hSecond with
    | cons hOther hOthers => simp only [unqualifiedAll, hVal.unique hOther, hItems.unique hOthers]

end

end Unique

/-! ## Places where something is read -/

def Mark.endsOperand : Mark → Bool
  | .between _ | .angle | .comma | .done => true
  | .closes .castType => false
  | .closes _ => true
  | _ => false

/-- Where marks are read: the tokens, the rounds that are left and the levels that have been entered. -/
structure Spot where
  tokens : Array Token
  rounds : Nat
  depth : Nat

namespace Spot

abbrev parsers (spot : Spot) : ExprParsers := .on spot.rounds

/-- One level deeper, with a round less. -/
def deeper (spot : Spot) : Spot := ⟨spot.tokens, spot.rounds - 1, spot.depth + 1⟩

/-- On the same level, with a round less. -/
def fed (spot : Spot) : Spot := ⟨spot.tokens, spot.rounds - 1, spot.depth⟩

def Fits (spot : Spot) (levels : Nat) : Prop := spot.depth + levels ≤ maxNesting

/-- Marks stand at a cursor, and there are rounds to read them. -/
structure Stands (spot : Spot) (cursor : Cursor) (marks : List Mark) : Prop where
  row : Row spot.tokens cursor.pos marks
  level : cursor.depth = spot.depth
  ready : maxNesting + marks.length < spot.rounds + spot.depth

/-- A parser reads something at a cursor, behind which marks stand. -/
def Reads {α : Type} (spot : Spot) (parser : Parser α) (cursor : Cursor) (Good : α → Prop) (back : List Mark) : Prop :=
  ∃ value after, parser spot.tokens cursor = .ok (value, after) ∧ Good value ∧ spot.Stands after back

variable {α : Type} {spot : Spot} {cur : Cursor} {mark : Mark} {marks rest : List Mark}
  {levels : Nat} {parser : Parser α} {Good : α → Prop} {back : List Mark}

theorem Fits.mono {more : Nat} (hFits : spot.Fits more) (hLe : levels ≤ more) : spot.Fits levels :=
  Nat.le_trans (Nat.add_le_add_left hLe _) hFits

theorem Fits.deeper (hFits : spot.Fits (levels + 1)) : spot.deeper.Fits levels := by
  change spot.depth + 1 + levels ≤ _
  change spot.depth + (levels + 1) ≤ _ at hFits
  omega

theorem Stands.tail (stands : spot.Stands cur (mark :: rest)) (hMark : mark ≠ .done) :
    spot.Stands ⟨cur.pos + 1, cur.depth⟩ rest := by
  obtain ⟨next, more, rfl⟩ := stands.row.exists_next hMark
  exact ⟨stands.row.tail, stands.level, Nat.lt_of_succ_lt stands.ready⟩

theorem Stands.deeper (stands : spot.Stands cur marks) : spot.deeper.Stands ⟨cur.pos, cur.depth + 1⟩ marks where
  row := stands.row
  level := congrArg (· + 1) stands.level
  ready := by
    have hReady := stands.ready
    change _ < spot.rounds - 1 + (spot.depth + 1)
    omega

/-- A mark that has been read pays for a round. -/
theorem Stands.fed (stands : spot.Stands cur (mark :: rest)) (hMark : mark ≠ .done) :
    spot.fed.Stands ⟨cur.pos + 1, cur.depth⟩ rest := by
  have hReady := stands.ready
  rw [length_cons] at hReady
  refine ⟨(stands.tail hMark).row, stands.level, ?_⟩
  change _ < spot.rounds - 1 + spot.depth
  omega

theorem Stands.parsers_eq (stands : spot.Stands cur marks) (hFits : spot.Fits levels) :
    spot.parsers = (ExprParsers.on (spot.rounds - 1)).deeper := by
  have hReady := stands.ready
  change spot.depth + levels ≤ _ at hFits
  obtain ⟨fewer, hFewer⟩ : ∃ fewer, spot.rounds = fewer + 1 := ⟨spot.rounds - 1, by omega⟩
  rw [parsers, hFewer]
  rfl

theorem Reads.nested (stands : spot.Stands cur marks) (hFits : spot.Fits (levels + 1))
    (hReads : spot.deeper.Reads parser ⟨cur.pos, cur.depth + 1⟩ Good back) :
    spot.Reads (Parser.nested parser) cur Good back := by
  obtain ⟨val, after, hRun, hGood, hBack⟩ := hReads
  change spot.depth + (levels + 1) ≤ _ at hFits
  have hLevel := stands.level
  have hAfter : after = ⟨after.pos, cur.depth + 1⟩ := by
    rw [hLevel]
    exact congrArg (Cursor.mk after.pos) hBack.level
  rw [hAfter] at hRun
  refine ⟨val, ⟨after.pos, cur.depth⟩, Parser.nested_apply (by omega) hRun, hGood, hBack.row, hLevel, ?_⟩
  have hReady := hBack.ready
  have hRounds := stands.ready
  change _ < spot.rounds - 1 + (spot.depth + 1) at hReady
  omega

theorem Reads.unfed (hReads : spot.fed.Reads parser cur Good back) : spot.Reads parser cur Good back := by
  obtain ⟨val, after, hRun, hGood, hBack⟩ := hReads
  exact ⟨val, after, hRun, hGood, hBack.row, hBack.level,
    Nat.lt_of_lt_of_le hBack.ready (Nat.add_le_add_right (Nat.sub_le _ _) _)⟩

theorem Stands.first {expr : OutExpr} (stands : spot.Stands cur (expr.marks ++ back)) :
    ∃ second others, spot.Stands cur (expr.first :: second :: others) := by
  obtain ⟨more, hMore⟩ := expr.exists_marks
  rw [hMore, cons_append] at stands
  have hFirst : expr.first ≠ .done := fun hDone => by
    have hStarts := expr.first_startsOperand
    rw [hDone] at hStarts
    cases hStarts
  obtain ⟨second, others, hNext⟩ := stands.row.exists_next hFirst
  exact ⟨second, others, hNext ▸ stands⟩

end Spot

theorem Row.length_eq {toks : Array Token} {pos : Nat} {marks : List Mark} (row : Row toks pos marks) :
    marks.length = toks.size - pos := by
  rw [← row.spelled.length_eq, length_drop, Array.length_toList]

namespace Parser

open Mark

variable {toks : Array Token} {cur : Cursor} {self : ExprParsers}

/-! ## Loops that extend -/

section Extends

variable {α : Type} {step : α → Parser (Option α)} {val longer last : α} {mid after : Cursor}

/-- A loop comes from a value at a cursor to another at another, a token at least for each of its steps. -/
def Extends (tokens : Array Token) (step : α → Parser (Option α)) (value : α) (cursor : Cursor) (last : α)
    (after : Cursor) : Prop :=
  ∃ steps, steps + cursor.pos ≤ after.pos ∧
    ∀ fuel, extendOn step (fuel + steps) value tokens cursor = extendOn step fuel last tokens after

theorem Extends.refl : Extends toks step val cur val cur := ⟨0, by omega, fun _ => rfl⟩

theorem Extends.next (hExtends : Extends toks step val cur longer mid)
    (hRun : step longer toks mid = .ok (some last, after)) (hPos : mid.pos < after.pos) :
    Extends toks step val cur last after := by
  obtain ⟨steps, hSteps, hLoop⟩ := hExtends
  refine ⟨steps + 1, by omega, fun fuel => ?_⟩
  -- The last step comes after all others, so it is paid for with the fuel that they leave.
  rw [show fuel + (steps + 1) = fuel + 1 + steps by omega, hLoop]
  simp [extendOn, hRun]

/-- Each step has read a token, so the fuel of the loop, one more than there are tokens, outlasts them. -/
theorem Extends.extend (hExtends : Extends toks step val cur last after)
    (hStop : step last toks after = .ok (none, after)) (hSize : after.pos < toks.size) :
    extend step val toks cur = .ok (last, after) := by
  obtain ⟨steps, hSteps, hLoop⟩ := hExtends
  have hRun := hLoop (toks.size - steps + 1)
  rw [show toks.size - steps + 1 + steps = toks.size + 1 by omega] at hRun
  simp only [Parser.extend, bind_apply, read_apply, ok_bind, hRun]
  simp [extendOn, hStop]

end Extends

/-! ## Suffixes -/

variable {spot : Spot} {next : Mark} {rest front back : List Mark} {expr : OutExpr} {text : String}

theorem exprSuffix_none (self : ExprParsers) (cur : Cursor) (row : Row toks cur.pos (next :: rest))
    (hEnds : next.endsOperand = true) (val : Expr) : exprSuffix self val toks cur = .ok (none, cur) := by
  have hSound := row.sound_head
  unfold exprSuffix
  simp only [bind_apply, kind_apply, ok_bind, row.kind_eq]
  cases next with
  | between punct =>
    cases punct <;> first | rfl | exact absurd hSound (by decide)
  | closes bracket => cases bracket <;> rfl
  | angle | comma | done => rfl
  | _ => exact absurd hEnds Bool.false_ne_true

/-- Reading starts with a primary expression and extends it to a tree. -/
def Chain (spot : Spot) (cursor : Cursor) (expr : OutExpr) (back : List Mark) : Prop :=
  ∃ head mid value after, primary spot.parsers spot.tokens cursor = .ok (head, mid) ∧
    Extends spot.tokens (exprSuffix spot.parsers) head mid value after ∧ Outlines value expr ∧ spot.Stands after back

theorem Chain.of_primary (hPrimary : spot.Reads (primary spot.parsers) cur (Outlines · expr) back) :
    Chain spot cur expr back := by
  obtain ⟨val, after, hRun, hVal, hBack⟩ := hPrimary
  exact ⟨val, after, val, after, hRun, .refl, hVal, hBack⟩

theorem Chain.step {target : OutExpr} (hChain : Chain spot cur target front) (hFront : back.length < front.length)
    (hStep : ∀ {val mid}, Outlines val target → spot.Stands mid front →
      spot.Reads (exprSuffix spot.parsers val) mid (∃ longer, · = some longer ∧ Outlines longer expr) back) :
    Chain spot cur expr back := by
  obtain ⟨head, mid, val, after, hPrimary, hExtends, hVal, hAt⟩ := hChain
  obtain ⟨_, last, hRun, ⟨longer, rfl, hLonger⟩, hBack⟩ := hStep hVal hAt
  have hBefore := hAt.row.length_eq
  have hAfter := hBack.row.length_eq
  exact ⟨head, mid, longer, last, hPrimary, hExtends.next hRun (by omega), hLonger, hBack⟩

theorem Chain.suffixed (hChain : Chain spot cur expr (next :: rest)) (hEnds : next.endsOperand = true) :
    spot.Reads (suffixed spot.parsers) cur (Outlines · expr) (next :: rest) := by
  obtain ⟨head, mid, val, after, hPrimary, hExtends, hVal, hAt⟩ := hChain
  have hRun := hExtends.extend (exprSuffix_none _ _ hAt.row hEnds val) hAt.row.lt_size
  exact ⟨val, after, by simp [Parser.suffixed, hPrimary, hRun], hVal, hAt⟩

/-! ## Leaves -/

theorem ofInt?_outline {val : Literal} (hVal : Literal.ofInt? text = some val) : val.outline? = some (.int text) := by
  simp only [Literal.ofInt?, Option.bind_eq_bind, Option.bind_eq_some_iff] at hVal
  obtain ⟨number, -, hVal⟩ := hVal
  split at hVal
  · cases hVal
    rfl
  · cases hVal

theorem primary_leaf (self : ExprParsers) {kind : TokenKind} (row : Row toks cur.pos (.leaf kind :: rest)) :
    ∃ val, primary self toks cur = .ok (val, ⟨cur.pos + 1, cur.depth⟩) ∧ val.token? = some kind := by
  have hKind : (tokenAt toks cur.pos).kind = kind := row.kind_eq
  have hSound := row.sound_head
  have hSkip := row.skip_head (by rintro rfl; cases hSound)
  obtain ⟨span, hToken⟩ : ∃ span, tokenAt toks cur.pos = ⟨kind, span⟩ := ⟨_, by rw [← hKind]⟩
  -- The token is put in before the branches are looked at, so that only one of them is left.
  unfold primary
  rw [bind_apply, peek_apply, ok_bind, hToken]
  cases kind with
  | ident name =>
    exact ⟨.ident span name, by simp only [bind_apply, hSkip, ok_bind, genericArgs?_none row rfl]; rfl, rfl⟩
  | int text =>
    simp only [sound, isLeaf, isTypeWord, Bool.or_false, Bool.and_eq_true] at hSound
    obtain ⟨val, hVal⟩ := Option.isSome_iff_exists.mp hSound.2
    exact ⟨.literal span val, by simp only [bind_apply, hSkip, ok_bind, hVal]; rfl, ofInt?_outline hVal⟩
  | real text =>
    simp only [sound, isLeaf, isTypeWord, Bool.or_false, Bool.and_eq_true, beq_iff_eq] at hSound
    exact ⟨.literal span (Literal.ofReal text), by simp only [bind_apply, hSkip, ok_bind]; rfl, hSound.2⟩
  | word text =>
    -- A reserved word that is an operand is a type word or one of the three below.
    rcases mem_append.mp (mem_words_of_sound hSound) with hType | hPlain
    · refine ⟨.typeWord span text, ?_, rfl⟩
      change wordPrimary self text span toks cur = _
      unfold wordPrimary
      split
      case h_15 =>
        rw [if_pos (contains_iff_mem.mpr hType)]
        simp only [bind_apply, hSkip, ok_bind]
        rfl
      all_goals exact absurd hType (by decide)
    · simp only [mem_cons, not_mem_nil, or_false] at hPlain
      rcases hPlain with rfl | rfl | rfl
      · exact ⟨.selfRef span, by simp [wordPrimary, hSkip], rfl⟩
      · exact ⟨.literal span (.bool true), by simp [wordPrimary, hSkip], rfl⟩
      · exact ⟨.literal span (.bool false), by simp [wordPrimary, hSkip], rfl⟩
  | char | str | punct | eof => simp [sound, isLeaf, isTypeWord] at hSound

theorem primary_group (hKind : (tokenAt toks cur.pos).kind = .punct .lParen) :
    primary self toks cur = parenOrTuple self toks cur := by
  obtain ⟨span, hToken⟩ : ∃ span, tokenAt toks cur.pos = ⟨.punct .lParen, span⟩ := ⟨_, by rw [← hKind]⟩
  unfold primary
  rw [bind_apply, peek_apply, ok_bind, hToken]

theorem primary_braces {values : List Expr} {after : Cursor} (hKind : (tokenAt toks cur.pos).kind = .punct .lBrace)
    (hItems : initializerList self toks cur = .ok (values, after)) : ∃ span,
      primary self toks cur = .ok (.arrayInit span values, after) := by
  obtain ⟨span, hToken⟩ : ∃ span, tokenAt toks cur.pos = ⟨.punct .lBrace, span⟩ := ⟨_, by rw [← hKind]⟩
  refine ⟨span.through (spanBefore toks after.pos), ?_⟩
  unfold primary
  rw [bind_apply, peek_apply, ok_bind, hToken]
  simp only [bind_apply, hItems, ok_bind, spanFrom_apply, pure_apply]

theorem exprSuffix_member (self : ExprParsers) (cur : Cursor)
    (row : Row toks cur.pos (.dot :: .name text :: rest)) (val : Expr) : ∃ span, exprSuffix self val toks cur =
      .ok (some (.member span val text false), ⟨cur.pos + 2, cur.depth⟩) := by
  have hKind : (tokenAt toks cur.pos).kind = .punct .dot := row.kind_eq
  have hName : (tokenAt toks (cur.pos + 1)).kind = .ident text := row.tail.kind_eq
  have hSkip := row.skip_head (by simp [Mark.kind])
  have hIdent : expectIdent toks ⟨cur.pos + 1, cur.depth⟩ = .ok (text, ⟨cur.pos + 2, cur.depth⟩) :=
    expectIdent_apply hName
  have hNone : genericArgs? toks ⟨cur.pos + 2, cur.depth⟩ = .ok (none, ⟨cur.pos + 2, cur.depth⟩) :=
    genericArgs?_none row.tail rfl
  refine ⟨val.span.through (spanBefore toks (cur.pos + 2)), ?_⟩
  unfold exprSuffix memberAccess
  simp only [bind_apply, kind_apply, ok_bind, hKind, map_apply, hSkip, hIdent, spanFrom_apply, hNone, pure_apply]

theorem exprSuffix_post (self : ExprParsers) (cur : Cursor) {op : PostOp} {mark : Mark} (hMark : op.marks = [mark])
    (row : Row toks cur.pos (mark :: rest)) (val : Expr) :
    ∃ span, exprSuffix self val toks cur = .ok (some (.post span op val), ⟨cur.pos + 1, cur.depth⟩) := by
  have hKind := row.kind_eq
  refine ⟨val.span.through (spanBefore toks (cur.pos + 1)), ?_⟩
  unfold exprSuffix postOperator
  cases op with
  | nullForgiving => cases hMark
  | inc | dec =>
    cases hMark
    have hSkip := row.skip_head (by simp [Mark.kind])
    simp only [bind_apply, kind_apply, ok_bind, hKind, Mark.kind, map_apply, hSkip, spanFrom_apply, pure_apply]

/-! ## What stands before an operand -/

end Parser

def Mark.startsPrimary : Mark → Bool
  | .leaf _ | .opens .group | .opens .braces => true
  | _ => false

theorem OutExpr.first_startsPrimary {expr : OutExpr} (hLevel : 14 ≤ expr.level)
    (hFormed : expr.isTypeWord = true ∨ expr.formed = true) : expr.first.startsPrimary = true := by
  fun_induction first expr with
  | case1 | case2 | case12 | case13 => rfl
  | case3 target name ih =>
    simp only [isTypeWord, formed, Bool.false_eq_true, false_or, Bool.and_eq_true, Bool.or_eq_true,
      decide_eq_true_eq] at hFormed
    rcases hFormed.1 with hWord | hTarget
    · exact ih (by cases target <;> simp_all [isTypeWord, level]) (.inl hWord)
    · exact ih hTarget.1 (.inr hTarget.2)
  | case4 target args ih =>
    simp only [isTypeWord, formed, Bool.false_eq_true, false_or, Bool.and_eq_true, decide_eq_true_eq] at hFormed
    exact ih hFormed.1.1.1 (.inr hFormed.1.1.2)
  | case5 callee args ih =>
    simp only [isTypeWord, formed, Bool.false_eq_true, false_or, Bool.and_eq_true, Bool.or_eq_true,
      decide_eq_true_eq] at hFormed
    rcases hFormed.1 with hWord | hCallee
    · exact ih (by cases callee <;> simp_all [isTypeWord, level]) (.inl hWord)
    · exact ih hCallee.1.1 (.inr hCallee.2)
  | case7 op operand ih =>
    simp only [isTypeWord, formed, Bool.false_eq_true, false_or, Bool.and_eq_true, decide_eq_true_eq] at hFormed
    exact ih hFormed.1.2 (.inr hFormed.2)
  | case8 op lhs rhs ih => cases op <;> simp [level, BinaryOp.precedence] at hLevel
  | case6 | case9 | case10 | case11 => simp [level] at hLevel

namespace Parser

open Mark

variable {toks : Array Token} {cur : Cursor} {spot : Spot} {mark next : Mark} {rest back : List Mark}
  {expr operand : OutExpr}

theorem cast?_none (self : ExprParsers) (row : Row toks cur.pos (mark :: rest))
    (hStarts : mark.startsPrimary = true) : cast? self toks cur = .ok (none, cur) := by
  have hKind := row.kind_eq
  have hSound := row.sound_head
  unfold cast?
  cases mark with
  | leaf kind =>
    have hNot : kind ≠ .punct .lParen := by
      rintro rfl
      exact absurd hSound (by decide)
    simp [hKind, Mark.kind, hNot]
  | opens bracket =>
    cases bracket with
    -- A cast is tried first at every parenthesis; inside one that groups it fails.
    | group =>
      have hCast := cast_error self row
      cases hRun : cast self toks cur with
      | ok result => exact absurd hRun (hCast result)
      | error error => simp [hKind, Mark.kind, Bracket.opening, speculate, hRun]
    | braces => simp [hKind, Mark.kind, Bracket.opening]
    | _ => cases hStarts
  | _ => cases hStarts

theorem unaryOp?_of_startsPrimary (hSound : mark.sound = true) (hStarts : mark.startsPrimary = true) {punct : Punct}
    (hKind : mark.kind = .punct punct) : unaryOp? punct = none := by
  cases mark with
  | leaf kind =>
    obtain rfl : kind = .punct punct := hKind
    cases hSound
  | opens bracket => cases bracket <;> cases hKind <;> rfl
  | _ => cases hStarts

theorem ne_await_of_sound (hSound : mark.sound = true) (hStarts : mark.startsOperand = true) :
    mark.kind ≠ .ident "await" := by
  intro hKind
  cases mark with
  | leaf kind =>
    obtain rfl : kind = .ident "await" := hKind
    simp [sound, isLeaf, isTypeWord] at hSound
  | before | opens => cases hKind
  | _ => cases hStarts

theorem Chain.unary (hChain : Chain spot cur expr (next :: rest)) (hStarts : expr.first.startsPrimary = true)
    (stands : spot.Stands cur (expr.marks ++ next :: rest)) (hEnds : next.endsOperand = true) :
    spot.Reads (unary spot.parsers) cur (Outlines · expr) (next :: rest) := by
  obtain ⟨second, others, ⟨row, -, -⟩⟩ := stands.first
  obtain ⟨val, after, hRun, hReads⟩ := hChain.suffixed hEnds
  refine ⟨val, after, ?_, hReads⟩
  have hCast := cast?_none spot.parsers row hStarts
  have hAwait := ne_await_of_sound row.sound_head expr.first_startsOperand
  unfold Parser.unary
  simp only [bind_apply, peek_apply, ok_bind, row.kind_eq]
  split
  · rename_i punct hPunct
    rw [unaryOp?_of_startsPrimary row.sound_head hStarts hPunct]
    simp [row.kind_eq, hAwait, hCast, hRun]
  · simp [row.kind_eq, hAwait, hCast, hRun]

theorem unary_prefix {op : UnaryOp} (row : Row spot.tokens cur.pos (.before op.mark :: rest))
    (hOperand : spot.Reads spot.parsers.unary ⟨cur.pos + 1, cur.depth⟩ (Outlines · operand) back) :
    spot.Reads (unary spot.parsers) cur (Outlines · (.unary op operand)) back := by
  obtain ⟨val, after, hRun, hVal, hBack⟩ := hOperand
  have hKind : (tokenAt spot.tokens cur.pos).kind = .punct op.mark := row.kind_eq
  have hOp : unaryOp? op.mark = some op := by cases op <;> rfl
  have hSkip := row.skip_head (by simp [Mark.kind])
  refine ⟨.unary ?_ op val, after, ?run, .unary hVal, hBack⟩
  case run =>
    unfold unary
    simp only [bind_apply, peek_apply, ok_bind, hKind, hOp, hSkip, hRun, spanFrom_apply, pure_apply]
    rfl

theorem kind_ofTypeName (type : String) : ofTypeName type = .word type ∧ typeWords.contains type = true ∨
      ofTypeName type = .ident type := by
  unfold ofTypeName
  split
  · exact .inl ⟨rfl, ‹_›⟩
  · exact .inr rfl

theorem isTypeWord_ofTypeName (type : String) : (ofTypeName type).isTypeWord = typeWords.contains type := by
  unfold ofTypeName
  split
  · rfl
  · rename_i hWord
    exact (Bool.eq_false_iff.mpr hWord).symm

theorem unary_cast {type : String} (hStarts : startsCastOperand (typeWords.contains type) operand.first.kind = true)
    (row : Row spot.tokens cur.pos (.opens .castType :: .typeName (.ofTypeName type) :: .closes .castType ::
      operand.first :: rest)) (hDepth : cur.depth < maxNesting)
    (hOperand : spot.Reads spot.parsers.unary ⟨cur.pos + 3, cur.depth⟩ (Outlines · operand) back) :
    spot.Reads (unary spot.parsers) cur (Outlines · (.cast type operand)) back := by
  obtain ⟨val, after, hRun, hVal, hBack⟩ := hOperand
  have hOpen : (tokenAt spot.tokens cur.pos).kind = .punct .lParen := row.kind_eq
  have hName : (tokenAt spot.tokens (cur.pos + 1)).kind = .ofTypeName type := row.tail.kind_eq
  have hFirst : (tokenAt spot.tokens (cur.pos + 3)).kind = operand.first.kind := row.tail.tail.tail.kind_eq
  obtain ⟨place, hTypeRun⟩ : ∃ place, Parser.type spot.tokens ⟨cur.pos + 1, cur.depth⟩ =
      .ok (.named place type [], ⟨cur.pos + 2, cur.depth⟩) :=
    type_apply row.tail hDepth (kind_ofTypeName type) (.inl rfl)
  have hOpenRun : expectPunct .lParen spot.tokens cur = .ok (_, ⟨cur.pos + 1, cur.depth⟩) :=
    expectPunct_apply hOpen
  have hCloseRun : expectPunct .rParen spot.tokens ⟨cur.pos + 2, cur.depth⟩ =
      .ok (_, ⟨cur.pos + 3, cur.depth⟩) := expectPunct_apply row.tail.tail.kind_eq
  -- The mark that opens a cast is no sign, and the attempt at a cast succeeds.
  obtain ⟨span, hCast⟩ : ∃ span, cast spot.parsers spot.tokens cur =
      .ok (.cast span (.named place type []) val, after) := by
    refine ⟨?_, ?run⟩
    case run =>
      unfold cast
      simp only [bind_apply, hOpenRun, ok_bind, atTypeWord_apply, hName, isTypeWord_ofTypeName, hTypeRun, hCloseRun,
        kind_apply, hFirst, hStarts, if_true, hRun, spanFrom_apply, pure_apply]
      rfl
  refine ⟨.cast span (.named place type []) val, after, ?_, .cast hVal, hBack⟩
  unfold unary cast? speculate
  simp [hOpen, unaryOp?, hCast]

end Parser

end Shaderlift
