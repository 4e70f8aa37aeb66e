import Shaderlift.Proofs.Reading.Operands

/-!
# Operators at a row of marks

The reader climbs through the precedences: an operand is extended by the operators that bind at least as tightly as
asked for, then by `??`, then by a condition or an assignment. Each kind of expression has a statement of how it is
read (`ReadsChain`, `ReadsUnary`, `ReadsClimb`, `ReadsCoalesce`, `ReadsAny`), and each statement implies the next
looser one.
-/

namespace Shaderlift

open List

open Mark

/-! ## What follows an operand -/

/-- The operator that marks after an operand stand for. -/
def linkOf : List Mark → Option Link
  | .angle :: .joined .gt :: _ => some (.op .shr 2)
  | .between punct :: _ => (Parser.binaryOp? punct).map (.op · 1)
  | _ => none

/-- The assignment that marks after an operand stand for. -/
def assignOf : List Mark → Option (AssignOp × Nat)
  | .angle :: .joined .gtEq :: _ => some (.shr, 2)
  | .between punct :: _ => (Parser.assignOp? punct).map (·, 1)
  | _ => none

/-- No operator of a precedence or a tighter one follows. -/
def Stops (level : Nat) (marks : List Mark) : Prop := ∀ link, linkOf marks = some link → link.precedence < level

theorem Stops.mono {low high : Nat} {marks : List Mark} (hStops : Stops low marks) (hLe : low ≤ high) :
    Stops high marks :=
  fun link hLink => Nat.lt_of_lt_of_le (hStops link hLink) hLe

def Mark.endsExpr : Mark → Bool
  | .comma | .done | .between .colon => true
  | .closes .castType => false
  | .closes _ => true
  | _ => false

theorem Mark.endsOperand_of_endsExpr {next : Mark} (hEnds : next.endsExpr = true) : next.endsOperand = true := by
  cases next with
  | closes bracket => cases bracket <;> first | rfl | cases hEnds
  | between | comma | done => rfl
  | _ => cases hEnds

theorem links_of_endsExpr {next : Mark} (hEnds : next.endsExpr = true) (rest : List Mark) :
    linkOf (next :: rest) = none ∧ assignOf (next :: rest) = none := by
  cases next with
  | between punct => cases punct <;> first | exact ⟨rfl, rfl⟩ | cases hEnds
  | closes | comma | done => exact ⟨rfl, rfl⟩
  | _ => cases hEnds

theorem linkOf_marks {op : BinaryOp} (hOp : op ≠ .coalesce) (rest : List Mark) :
    linkOf (op.marks ++ rest) = some (.op op op.marks.length) := by
  cases op with
  | coalesce => contradiction
  | _ => rfl

theorem assignOf_marks (op : AssignOp) (rest : List Mark) :
    assignOf (op.marks ++ rest) = some (op, op.marks.length) := by
  cases op <;> rfl

theorem linkOf_assign (op : AssignOp) (rest : List Mark) : linkOf (op.marks ++ rest) = none := by
  cases op <;> rfl

namespace Parser

variable {toks : Array Token} {cur : Cursor} {spot : Spot} {next : Mark} {rest : List Mark} {self : ExprParsers}

theorem startsOperand_ne_angle (hSound : next.sound = true) (hStarts : next.startsOperand = true) :
    next.kind ≠ .punct .gt ∧ next.kind ≠ .punct .gtEq := by
  cases next with
  | leaf kind => constructor <;> rintro rfl <;> cases hSound
  | before punct => constructor <;> intro hKind <;> cases hKind <;> cases hSound
  | opens bracket => cases bracket <;> exact ⟨by decide, by decide⟩
  | _ => cases hStarts

theorem kind_after_gt (row : Row toks cur.pos (.between .gt :: rest)) :
    (tokenAt toks (cur.pos + 1)).kind ≠ .punct .gt ∧ (tokenAt toks (cur.pos + 1)).kind ≠ .punct .gtEq := by
  obtain ⟨first, others, rfl⟩ := row.exists_next (by simp)
  have hFirst : (tokenAt toks (cur.pos + 1)).kind = first.kind := row.tail.kind_eq
  rw [hFirst]
  exact startsOperand_ne_angle row.tail.sound_head row.beside

theorem joined_of_angle (row : Row toks cur.pos (.angle :: rest)) : ∃ punct others, rest = .joined punct :: others ∧
    (punct = .gt ∨ punct = .gtEq) ∧ (tokenAt toks (cur.pos + 1)).kind = .punct punct := by
  obtain ⟨second, others, rfl⟩ := row.exists_next (by simp)
  have hJoined : second.isJoined = true := row.beside
  cases second with
  | joined punct =>
    refine ⟨punct, others, rfl, ?_, row.tail.kind_eq⟩
    cases punct with
    | gt | gtEq => simp
    | _ => cases hJoined
  | _ => cases hJoined

theorem linkNext_apply (row : Row toks cur.pos (next :: rest)) (hEnds : next.endsOperand = true) :
    linkNext toks cur = .ok (linkOf (next :: rest), cur) := by
  have hKind := row.kind_eq
  have hSound := row.sound_head
  unfold linkNext
  simp only [bind_apply, kind_apply, ok_bind, hKind]
  cases next with
  | between punct =>
    -- Only after a closing angle does the reader look one token further.
    by_cases hGt : punct = .gt
    · subst hGt
      have hNot := kind_after_gt row
      simp only [Mark.kind, bind_apply, touching_apply, ok_bind, kindAt_apply]
      generalize (tokenAt toks (cur.pos + 1)).kind = kind at hNot
      generalize ((tokenAt toks cur.pos).span.stop == _) = isJoined
      split
      · exact absurd rfl hNot.1
      · exact absurd rfl hNot.2
      · rfl
    · cases punct <;> first | rfl | exact absurd rfl hGt
  | angle =>
    obtain ⟨punct, others, rfl, hPunct, hSecond⟩ := joined_of_angle row
    simp only [Mark.kind, bind_apply, touching_apply, ok_bind, kindAt_apply, hSecond, row.touches, beq_self_eq_true]
    rcases hPunct with rfl | rfl <;> rfl
  | closes bracket => cases bracket <;> rfl
  | comma | done => rfl
  | _ => cases hEnds

theorem assignNext_apply (cur : Cursor) (row : Row toks cur.pos (next :: rest)) (hEnds : next.endsOperand = true) :
    assignNext toks cur = .ok (assignOf (next :: rest), cur) := by
  have hKind := row.kind_eq
  unfold assignNext
  simp only [bind_apply, kind_apply, ok_bind, hKind]
  cases next with
  | between punct =>
    by_cases hGt : punct = .gt
    · subst hGt
      simp [Mark.kind, (kind_after_gt row).2, assignOf, assignOp?]
    · cases punct <;> first | rfl | exact absurd rfl hGt
  | angle =>
    obtain ⟨punct, others, rfl, hPunct, hSecond⟩ := joined_of_angle row
    simp only [Mark.kind, bind_apply, touching_apply, ok_bind, punctAt_apply, hSecond, row.touches, beq_self_eq_true]
    rcases hPunct with rfl | rfl <;> rfl
  | closes bracket => cases bracket <;> rfl
  | comma | done => rfl
  | _ => cases hEnds

theorem skipTokens_apply {marks : List Mark} (hMarks : isInfix marks = true)
    (stands : spot.Stands cur (marks ++ rest)) : spot.Reads (skipTokens marks.length) cur (fun _ => True) rest := by
  unfold isInfix at hMarks
  split at hMarks
  · have hSkip := stands.row.skip_head (by simp [Mark.kind])
    exact ⟨(), _, by simp [skipTokens, hSkip], trivial, stands.tail (by simp)⟩
  · rename_i mark
    have hSkip := stands.row.skip_head (by simp [Mark.kind])
    have hKind : mark ≠ .done ∧ mark.kind ≠ .eof := by
      cases mark with
      | joined => simp [Mark.kind]
      | _ => cases hMarks
    have hNext := stands.tail (by simp)
    exact ⟨(), _, by simp [skipTokens, hSkip, hNext.row.skip_head hKind.2], trivial, hNext.tail hKind.1⟩
  · cases hMarks

variable {mark : Mark}

/-- No reader of lambdas or ranges is misled. -/
theorem kind_ne_of_sound (hSound : mark.sound = true) : mark.kind ≠ .punct .arrow ∧ mark.kind ≠ .punct .dotDot := by
  cases mark with
  | leaf kind | typeName kind => constructor <;> rintro rfl <;> cases hSound
  | before punct | between punct | joined punct | after punct =>
    constructor <;> intro hKind <;> cases hKind <;> cases hSound
  | opens bracket | closes bracket => cases bracket <;> exact ⟨by decide, by decide⟩
  | dot | comma | angle => exact ⟨by decide, by decide⟩
  | name | done => simp [Mark.kind]

theorem endsOperand_kind_ne {punct : Punct} (hEnds : next.endsOperand = true)
    (hPunct : punct = .question ∨ punct = .questionQuestion) (hNext : next ≠ .between punct) :
    next.kind ≠ .punct punct := by
  intro hKind
  cases next with
  | between other =>
    cases hKind
    exact hNext rfl
  | closes bracket => rcases hPunct with rfl | rfl <;> cases bracket <;> cases hKind
  | angle | comma | done => rcases hPunct with rfl | rfl <;> cases hKind
  | _ => cases hEnds

theorem follows_kind (hFollows : next.follows = true) : next.kind.isIdent = false ∧ next.kind.isTypeWord = false := by
  cases next with
  | leaf | name | before | joined | typeName => cases hFollows
  | _ => exact ⟨rfl, rfl⟩

/-- An expression of marks is neither a query nor a `throw`. -/
theorem anyExpr_eq (row : Row toks cur.pos (mark :: rest)) (hStarts : mark.startsOperand = true) :
    anyExpr self toks cur = assignment self toks cur := by
  have hKind := row.kind_eq
  have hThrow : mark.kind ≠ .word "throw" := fun hWord => (word_ne row.sound_head hWord).2.2.2.2 rfl
  have hQuery : queryFollows toks cur = .ok (false, cur) := by
    unfold queryFollows
    -- A query needs a name or a type after `from`, and nothing of that kind follows a name here.
    by_cases hFrom : mark.kind = .ident "from"
    · obtain ⟨second, others, rfl⟩ := row.exists_next (by rintro rfl; cases hStarts)
      have hSecond : (tokenAt toks (cur.pos + 1)).kind = second.kind := row.tail.kind_eq
      have hFollows : second.follows = true := by
        cases mark with
        | leaf kind =>
          have hBeside := row.beside
          rw [beside, Bool.and_eq_true] at hBeside
          exact hBeside.1
        | before | opens => cases hFrom
        | _ => cases hStarts
      simp [hKind, hSecond, follows_kind hFollows]
    · simp [hKind, hFrom]
  simp [anyExpr, hKind, hThrow, hQuery]

theorem kind_ne {pos : Nat} (row : Row toks pos (mark :: rest)) :
    (tokenAt toks pos).kind ≠ .punct .arrow ∧ (tokenAt toks pos).kind ≠ .punct .dotDot := by
  rw [row.kind_eq]
  exact kind_ne_of_sound row.sound_head

/-! ## How an expression is read -/

/-- Reading starts with an operand and extends it by operators that bind at least as tightly as a tree. -/
def Climb (spot : Spot) (cursor : Cursor) (expr : OutExpr) (back : List Mark) : Prop :=
  ∃ head mid, range spot.parsers spot.tokens cursor = .ok (head, mid) ∧
    ∀ level start, level + 2 ≤ expr.level → ∃ value after,
      Extends spot.tokens (linkStep spot.parsers level start) head mid value after ∧ Outlines value expr ∧
        spot.Stands after back

theorem linkStep_none (self : ExprParsers) (cur : Cursor) {level : Nat}
    (row : Row toks cur.pos (next :: rest)) (hEnds : next.endsOperand = true)
    (hStops : Stops level (next :: rest)) (start : Span) (lhs : Expr) :
    linkStep self level start lhs toks cur = .ok (none, cur) := by
  unfold linkStep
  simp only [bind_apply, linkNext_apply row hEnds, ok_bind]
  cases hLink : linkOf (next :: rest) with
  | none => rfl
  | some link => simp [hStops link hLink]

theorem linkStep_some {cur : Cursor} {level : Nat} {op : BinaryOp} {rhs : OutExpr} {back : List Mark}
    (hOp : op ≠ .coalesce) (stands : spot.Stands cur (op.marks ++ rest)) (hLevel : level ≤ op.precedence)
    (hRight : ∀ {mid}, spot.Stands mid rest →
      spot.Reads (nested (spot.parsers.binary (op.precedence + 1))) mid (Outlines · rhs) back)
    (start : Span) (lhs : Expr) : ∃ span val after, linkStep spot.parsers level start lhs spot.tokens cur =
      .ok (some (.binary span op lhs val), after) ∧ Outlines val rhs ∧ spot.Stands after back := by
  obtain ⟨_, mid, hSkip, -, hMid⟩ := skipTokens_apply op.isInfix_marks stands
  obtain ⟨val, after, hRun, hVal, hBack⟩ := hRight hMid
  have hLink : linkNext spot.tokens cur = .ok (some (.op op op.marks.length), cur) := by
    obtain ⟨mark, more, hEq, hEnds⟩ : ∃ mark more, op.marks ++ rest = mark :: more ∧ mark.endsOperand = true := by
      cases op <;> exact ⟨_, _, rfl, rfl⟩
    have hMarks := linkOf_marks hOp rest
    rw [hEq] at stands hMarks
    rw [linkNext_apply stands.row hEnds, hMarks]
  refine ⟨?_, val, after, ?run, hVal, hBack⟩
  case run =>
    unfold linkStep
    simp [hLink, Link.precedence, Nat.not_lt.mpr hLevel, hSkip, hRun]
    rfl

end Parser

namespace OutExpr

open Shaderlift.Parser

/-- A primary expression with suffixes is read step by step. -/
def ReadsChain (expr : OutExpr) : Prop :=
  ∀ {spot : Spot} {cursor next rest}, spot.Fits expr.depth → spot.Stands cursor (expr.marks ++ next :: rest) →
    Chain spot cursor expr (next :: rest)

/-- An operand with what stands before it is read as a whole. -/
def ReadsUnary (expr : OutExpr) : Prop :=
  ∀ {spot : Spot} {cursor next rest}, spot.Fits expr.depth → spot.Stands cursor (expr.marks ++ next :: rest) →
    next.endsOperand = true → spot.Reads (Parser.unary spot.parsers) cursor (Outlines · expr) (next :: rest)

/-- Operands with operators between them are read step by step, if nothing that binds tighter follows. -/
def ReadsClimb (expr : OutExpr) : Prop :=
  ∀ {spot : Spot} {cursor next rest}, spot.Fits expr.reach → spot.Stands cursor (expr.marks ++ next :: rest) →
    next.endsOperand = true → Stops (expr.level - 1) (next :: rest) → Climb spot cursor expr (next :: rest)

/-- Operands with `??` between them are read as a whole. -/
def ReadsCoalesce (expr : OutExpr) : Prop :=
  ∀ {spot : Spot} {cursor next rest}, spot.Fits expr.reach → spot.Stands cursor (expr.marks ++ next :: rest) →
    next.endsOperand = true → Stops 1 (next :: rest) → next ≠ .between .questionQuestion →
    spot.Reads (Parser.coalesce spot.parsers) cursor (Outlines · expr) (next :: rest)

def ReadsAny (expr : OutExpr) : Prop :=
  ∀ {spot : Spot} {cursor next rest}, spot.Fits expr.reach → spot.Stands cursor (expr.marks ++ next :: rest) →
    next.endsExpr = true → spot.Reads (anyExpr spot.parsers) cursor (Outlines · expr) (next :: rest)

variable {expr : OutExpr} {spot : Spot} {cur : Cursor} {next : Mark} {rest back : List Mark}

theorem reach_of_tight (hLevel : 13 ≤ expr.level) : expr.reach = expr.depth + 1 := by
  simp [reach, reachOf, Nat.not_lt.mpr hLevel]

theorem reach_of_loose (hLevel : expr.level < 13) : expr.reach = expr.depth := by
  simp [reach, reachOf, hLevel]

theorem kind_first (stands : spot.Stands cur (expr.marks ++ back)) :
    (tokenAt spot.tokens cur.pos).kind = expr.first.kind := by
  obtain ⟨second, others, hFirst⟩ := stands.first
  exact hFirst.row.kind_eq

theorem ReadsUnary.entry (hReads : expr.ReadsUnary) (hFits : spot.Fits (expr.depth + 1))
    (stands : spot.Stands cur (expr.marks ++ next :: rest)) (hEnds : next.endsOperand = true) :
    spot.Reads spot.parsers.unary cur (Outlines · expr) (next :: rest) := by
  rw [stands.parsers_eq hFits]
  exact .nested stands hFits (hReads hFits.deeper stands.deeper hEnds)

theorem ReadsAny.entry (hReads : expr.ReadsAny) (hFits : spot.Fits (expr.reach + 1))
    (stands : spot.Stands cur (expr.marks ++ next :: rest)) (hEnds : next.endsExpr = true) :
    spot.Reads spot.parsers.expr cur (Outlines · expr) (next :: rest) := by
  rw [stands.parsers_eq hFits]
  exact .nested stands hFits (hReads hFits.deeper stands.deeper hEnds)

theorem ReadsUnary.climb (hReads : expr.ReadsUnary) (hLevel : 13 ≤ expr.level) : expr.ReadsClimb := by
  intro spot cur next rest hFits stands hEnds _
  rw [reach_of_tight hLevel] at hFits
  obtain ⟨val, after, hRun, hVal, hAfter⟩ := hReads.entry hFits stands hEnds
  obtain ⟨second, others, hFirst⟩ := stands.first
  have hHere := (kind_ne hFirst.row).2
  have hNext := (kind_ne hAfter.row).2
  exact ⟨val, after, by simp [Parser.range, Parser.optional, hHere, hRun, hNext],
    fun _ _ _ => ⟨val, after, .refl, hVal, hAfter⟩⟩

theorem ReadsClimb.binary (hReads : expr.ReadsClimb) (hFits : spot.Fits expr.reach)
    (stands : spot.Stands cur (expr.marks ++ next :: rest)) (hEnds : next.endsOperand = true) (level : Nat)
    (hLevel : level + 2 ≤ expr.level) (hStops : Stops level (next :: rest)) :
    spot.Reads (Parser.binary spot.parsers level) cur (Outlines · expr) (next :: rest) := by
  obtain ⟨head, mid, hHead, hExtends⟩ := hReads hFits stands hEnds (hStops.mono (by omega))
  obtain ⟨val, after, hExtends, hVal, hAfter⟩ := hExtends level (tokenAt spot.tokens cur.pos).span hLevel
  have hRun := hExtends.extend (linkStep_none spot.parsers after hAfter.row hEnds hStops _ val) hAfter.row.lt_size
  exact ⟨val, after, by simp [Parser.binary, hHead, hRun], hVal, hAfter⟩

theorem ReadsClimb.coalesce (hReads : expr.ReadsClimb) (hLevel : 3 ≤ expr.level) : expr.ReadsCoalesce := by
  intro spot cur next rest hFits stands hEnds hStops hNext
  obtain ⟨val, after, hRun, hVal, hAfter⟩ := hReads.binary hFits stands hEnds BinaryOp.or.precedence hLevel hStops
  have hKind : (tokenAt spot.tokens after.pos).kind ≠ .punct .questionQuestion := by
    rw [hAfter.row.kind_eq]
    exact endsOperand_kind_ne hEnds (.inr rfl) hNext
  exact ⟨val, after, by simp [Parser.coalesce, hRun, hKind], hVal, hAfter⟩

theorem ReadsCoalesce.conditional (hReads : expr.ReadsCoalesce) (hFits : spot.Fits expr.reach)
    (stands : spot.Stands cur (expr.marks ++ next :: rest)) (hEnds : next.endsOperand = true)
    (hStops : Stops 1 (next :: rest)) (hCoalesce : next ≠ .between .questionQuestion) (hTest : next ≠ .between .question) :
    spot.Reads (Parser.conditional spot.parsers) cur (Outlines · expr) (next :: rest) := by
  obtain ⟨val, after, hRun, hVal, hAfter⟩ := hReads hFits stands hEnds hStops hCoalesce
  have hKind : (tokenAt spot.tokens after.pos).kind ≠ .punct .question := by
    rw [hAfter.row.kind_eq]
    exact endsOperand_kind_ne hEnds (.inl rfl) hTest
  exact ⟨val, after, by simp [Parser.conditional, hRun, hKind], hVal, hAfter⟩

/-- What is read as a condition, with no assignment after it, is read as an expression. -/
theorem reads_anyExpr (stands : spot.Stands cur (expr.marks ++ back))
    (hReads : spot.Reads (Parser.conditional spot.parsers) cur (Outlines · expr) (next :: rest))
    (hEnds : next.endsExpr = true) : spot.Reads (anyExpr spot.parsers) cur (Outlines · expr) (next :: rest) := by
  obtain ⟨val, after, hRun, hVal, hAfter⟩ := hReads
  obtain ⟨second, others, hFirst⟩ := stands.first
  have hArrow := (kind_ne hFirst.row.tail).1
  have hAssign := assignNext_apply after hAfter.row (endsOperand_of_endsExpr hEnds)
  rw [(links_of_endsExpr hEnds rest).2] at hAssign
  have hNext := (kind_ne hAfter.row).1
  refine ⟨val, after, ?_, hVal, hAfter⟩
  rw [anyExpr_eq hFirst.row expr.first_startsOperand]
  simp [assignment, hArrow, hRun, hAssign, refuseArrow, hNext]

theorem stops_of_endsExpr (hEnds : next.endsExpr = true) (level : Nat) : Stops level (next :: rest) := by
  intro link hLink
  rw [(links_of_endsExpr hEnds rest).1] at hLink
  cases hLink

theorem ReadsCoalesce.any (hReads : expr.ReadsCoalesce) : expr.ReadsAny := by
  intro spot cur next rest hFits stands hEnds
  refine reads_anyExpr stands
    (hReads.conditional hFits stands (endsOperand_of_endsExpr hEnds) (stops_of_endsExpr hEnds 1) ?_ ?_) hEnds
  all_goals
    rintro rfl
    cases hEnds

/-! ## Operators, conditions and assignments -/

theorem level_binary (op : BinaryOp) (lhs rhs : OutExpr) : (binary op lhs rhs).level = op.precedence + 2 := rfl

theorem reach_binary (op : BinaryOp) (lhs rhs : OutExpr) : (binary op lhs rhs).reach =
    max lhs.reach (if op = .coalesce then rhs.reach else rhs.reach + 1) := by
  rw [reach_of_loose (by cases op <;> simp [level, BinaryOp.precedence]), depth]
  rfl

/-- The right operand of an operator is read one level deeper, up to an operator that binds as tightly. -/
theorem ReadsClimb.nested (hReads : expr.ReadsClimb) (hFits : spot.Fits (expr.reach + 1))
    (stands : spot.Stands cur (expr.marks ++ next :: rest)) (hEnds : next.endsOperand = true) (level : Nat)
    (hLevel : level + 2 ≤ expr.level) (hStops : Stops level (next :: rest)) :
    spot.Reads (Parser.nested (spot.parsers.binary level)) cur (Outlines · expr) (next :: rest) := by
  rw [stands.parsers_eq hFits]
  exact .nested stands hFits (hReads.binary hFits.deeper stands.deeper hEnds level hLevel hStops)

variable {lhs rhs : OutExpr}

theorem readsClimb_binary {op : BinaryOp} (hOp : op ≠ .coalesce) (hLeft : lhs.ReadsClimb)
    (hRight : rhs.ReadsClimb) (hLeftLevel : op.precedence + 2 ≤ lhs.level) (hRightLevel : op.precedence + 3 ≤ rhs.level) :
    (binary op lhs rhs).ReadsClimb := by
  intro spot cur next rest hFits stands hEnds hStops
  rw [reach_binary, if_neg hOp] at hFits
  rw [marks, append_assoc, append_assoc] at stands
  obtain ⟨mark, more, hMarks, hMark⟩ : ∃ mark more,
      op.marks ++ (rhs.marks ++ next :: rest) = mark :: more ∧ mark.endsOperand = true := by
    cases op <;> exact ⟨_, _, rfl, rfl⟩
  have hLink := linkOf_marks hOp (rhs.marks ++ next :: rest)
  have hLonger : (next :: rest).length < (mark :: more).length := by
    rw [← hMarks]
    cases op <;> simp [BinaryOp.marks] <;> omega
  rw [hMarks] at hLink stands
  -- The operator after the left operand binds no tighter than what stands in it.
  have hStopsLeft : Stops (lhs.level - 1) (mark :: more) := by
    intro link hSome
    obtain rfl := Option.some.inj (hLink.symm.trans hSome)
    change op.precedence < _
    omega
  obtain ⟨head, mid, hHead, hExtends⟩ := hLeft (hFits.mono (Nat.le_max_left _ _)) stands hMark hStopsLeft
  refine ⟨head, mid, hHead, fun level start hLevel => ?_⟩
  rw [level_binary] at hLevel
  -- The left operand is itself climbed to from the same head, so the steps add up.
  obtain ⟨left, after, hExtends, hLeftValue, hAfter⟩ := hExtends level start (by omega)
  have hBefore := hAfter.row.length_eq
  rw [← hMarks] at hAfter
  obtain ⟨span, right, last, hRun, hRightValue, hLast⟩ := linkStep_some hOp hAfter (Nat.le_of_add_le_add_right hLevel)
    (fun hMid => hRight.nested (hFits.mono (Nat.le_max_right _ _)) hMid hEnds _ hRightLevel hStops) start left
  have hBehind := hLast.row.length_eq
  exact ⟨.binary span op left right, last, hExtends.next hRun (by omega), .binary hLeftValue hRightValue, hLast⟩

theorem readsCoalesce_binary (hLeft : lhs.ReadsClimb) (hRight : rhs.ReadsCoalesce)
    (hLevel : 3 ≤ lhs.level) : (binary .coalesce lhs rhs).ReadsCoalesce := by
  intro spot cur next rest hFits stands hEnds hStops hNext
  rw [reach_binary, if_pos rfl] at hFits
  rw [marks, append_assoc, append_assoc] at stands
  obtain ⟨left, mid, hLeftRun, hLeftValue, hMid⟩ := hLeft.binary (hFits.mono (Nat.le_max_left _ _)) stands rfl
    BinaryOp.or.precedence hLevel (fun _ hLink => by cases hLink)
  obtain ⟨_, _, hFirst⟩ := (hMid.tail (by simp)).first
  have hThrow : (tokenAt spot.tokens (mid.pos + 1)).kind ≠ .word "throw" := by
    rw [hFirst.row.kind_eq]
    exact fun hWord => (word_ne hFirst.row.sound_head hWord).2.2.2.2 rfl
  have hKind : (tokenAt spot.tokens mid.pos).kind = .punct .questionQuestion := hMid.row.kind_eq
  -- The right operand is read on the same level, but with a round less: the operator has been read.
  obtain ⟨right, last, hRightRun, hRightValue, hLast⟩ := Spot.Reads.unfed
    (hRight (hFits.mono (Nat.le_max_right _ _)) (hMid.fed (by simp)) hEnds hStops hNext)
  change (ExprParsers.on (spot.rounds - 1)).deeper.coalesce spot.tokens _ = _ at hRightRun
  rw [← hMid.parsers_eq hFits] at hRightRun
  refine ⟨.binary ?_ .coalesce left right, last, ?run, .binary hLeftValue hRightValue, hLast⟩
  case run =>
    simp [Parser.coalesce, hLeftRun, hKind, hThrow, hRightRun]
    rfl

theorem readsAny_conditional {cond thenExpr elseExpr : OutExpr} (hCond : cond.ReadsCoalesce) (hThen : thenExpr.ReadsAny)
    (hElse : elseExpr.ReadsAny) : (conditional cond thenExpr elseExpr).ReadsAny := by
  intro spot cur next rest hFits stands hEnds
  rw [reach_of_loose (by simp [level]), depth] at hFits
  change spot.Fits (max cond.reach (max (thenExpr.reach + 1) (elseExpr.reach + 1))) at hFits
  have hWhole := stands
  simp only [marks, append_assoc, cons_append] at stands
  obtain ⟨test, mid, hTestRun, hTest, hMid⟩ := hCond (hFits.mono (by omega)) stands rfl (fun _ hLink => by cases hLink)
    (by simp)
  obtain ⟨first, colon, hFirstRun, hFirst, hColon⟩ := hThen.entry (hFits.mono (by omega)) (hMid.tail (by simp))
    rfl
  obtain ⟨second, last, hSecondRun, hSecond, hLast⟩ := hElse.entry (hFits.mono (by omega))
    (hColon.tail (by simp)) hEnds
  have hQuestion : (tokenAt spot.tokens mid.pos).kind = .punct .question := hMid.row.kind_eq
  have hColonRun : expectPunct .colon spot.tokens colon = _ := expectPunct_apply hColon.row.kind_eq
  refine reads_anyExpr hWhole ⟨.conditional ?_ test first second, last, ?run, .conditional hTest hFirst hSecond, hLast⟩
    hEnds
  case run =>
    simp [Parser.conditional, hTestRun, hQuestion, hFirstRun, hColonRun, hSecondRun]
    rfl

theorem readsAny_assign {op : AssignOp} {target val : OutExpr} (hTarget : target.ReadsCoalesce)
    (hVal : val.ReadsAny) : (assign op target val).ReadsAny := by
  intro spot cur next rest hFits stands hEnds
  rw [reach_of_loose (by simp [level]), depth] at hFits
  change spot.Fits (max target.reach (val.reach + 1)) at hFits
  obtain ⟨second, others, hWhole⟩ := stands.first
  rw [marks, append_assoc, append_assoc] at stands
  obtain ⟨mark, more, hMarks, hMark, hNot⟩ : ∃ mark more, op.marks ++ (val.marks ++ next :: rest) = mark :: more ∧
      mark.endsOperand = true ∧ mark ≠ .between .questionQuestion ∧ mark ≠ .between .question := by
    cases op <;> exact ⟨_, _, rfl, rfl, by simp⟩
  have hLink := linkOf_assign op (val.marks ++ next :: rest)
  have hAssign := assignOf_marks op (val.marks ++ next :: rest)
  rw [hMarks] at hLink hAssign stands
  obtain ⟨left, mid, hLeftRun, hLeft, hMid⟩ := hTarget.conditional (hFits.mono (by omega)) stands hMark
    (fun link hSome => by rw [hLink] at hSome; cases hSome) hNot.1 hNot.2
  have hNext := assignNext_apply mid hMid.row hMark
  rw [← hMarks] at hMid
  obtain ⟨_, place, hSkip, -, hPlace⟩ := skipTokens_apply op.isInfix_marks hMid
  obtain ⟨right, last, hRightRun, hRight, hLast⟩ := hVal.entry (hFits.mono (by omega)) hPlace hEnds
  obtain ⟨_, _, hValueAt⟩ := hPlace.first
  have hRef : (tokenAt spot.tokens place.pos).kind ≠ .word "ref" := by
    rw [hValueAt.row.kind_eq]
    exact fun hWord => (word_ne hValueAt.row.sound_head hWord).2.1 rfl
  have hArrow := (kind_ne hWhole.row.tail).1
  rw [hAssign] at hNext
  refine ⟨.assign ?_ op left right, last, ?run, .assign hLeft hRight, hLast⟩
  case run =>
    rw [anyExpr_eq hWhole.row (assign op target val).first_startsOperand]
    simp [assignment, hArrow, hLeftRun, hNext, hSkip, assigned, hRef, hRightRun]
    rfl

end OutExpr

end Shaderlift
