import Shaderlift.Proofs.Reading.Operators

/-!
# Lists at a row of marks

Arguments and lists in braces are read item by item. An argument must not look like one with a name, which a colon
after its first token would make of it, and in braces an item that starts with a brace is a list again.
-/

namespace Shaderlift

open List

open Mark Shaderlift.Parser

/-! ## The marks of lists -/

namespace OutExpr

def tailMarks (items : List OutExpr) : List Mark := items.flatMap fun item => .comma :: item.marks

theorem listMarks_cons (item : OutExpr) (items : List OutExpr) :
    listMarks (item :: items) = item.marks ++ tailMarks items := by
  induction items generalizing item with
  | nil => simp [listMarks, tailMarks]
  | cons next items ih => simp [listMarks, ih next, tailMarks]

theorem tailMarks_cons (item : OutExpr) (items : List OutExpr) :
    tailMarks (item :: items) = .comma :: (item.marks ++ tailMarks items) := by
  simp [tailMarks]

theorem exists_tailMarks (items : List OutExpr) (bracket : Bracket) (hBracket : bracket ≠ .castType) (rest : List Mark) :
    ∃ next more, tailMarks items ++ .closes bracket :: rest = next :: more ∧ next.endsExpr = true ∧
      next ≠ .between .colon := by
  cases items with
  | nil => exact ⟨_, _, rfl, by cases bracket <;> first | rfl | contradiction, by simp⟩
  | cons item items => exact ⟨.comma, _, rfl, rfl, by simp⟩

theorem second_ne_colon (expr : OutExpr) (back : List Mark) (hBack : back.head? ≠ some (.between .colon)) :
    (expr.marks ++ back).tail.head? ≠ some (.between .colon) := by
  have hFirst : ∀ (inner : OutExpr) (more : List Mark), (inner.marks ++ more).head? ≠ some (.between .colon) := by
    intro inner more hHead
    obtain ⟨others, hOthers⟩ := inner.exists_marks
    have hStarts := inner.first_startsOperand
    rw [hOthers, cons_append, List.head?_cons, Option.some.injEq] at hHead
    rw [hHead] at hStarts
    cases hStarts
  -- The induction follows the first operand: what stands behind it becomes part of the marks after it.
  induction expr using OutExpr.first.induct generalizing back with
  | case1 | case2 => simpa [marks] using hBack
  | case3 target name ih => simpa [marks] using ih (.dot :: .name name :: back) (by simp)
  | case4 target args ih =>
    simpa [marks] using ih (.opens .index :: (listMarks args ++ .closes .index :: back)) (by simp)
  | case5 callee args ih =>
    simpa [marks] using ih (.opens .args :: (listMarks args ++ .closes .args :: back)) (by simp)
  | case6 op operand => simpa [marks] using hFirst operand back
  | case7 op operand ih =>
    rw [marks, append_assoc]
    exact ih _ (by cases op <;> simp [PostOp.marks, hBack])
  | case8 op lhs rhs ih =>
    rw [marks, append_assoc, append_assoc]
    exact ih _ (by cases op <;> simp [BinaryOp.marks])
  | case9 op target val ih =>
    rw [marks, append_assoc, append_assoc]
    exact ih _ (by cases op <;> simp [AssignOp.marks])
  | case10 cond thenExpr elseExpr ih =>
    simpa [marks] using ih (.between .question :: (thenExpr.marks ++ .between .colon :: (elseExpr.marks ++ back)))
      (by simp)
  | case11 type operand => simp [marks]
  | case12 inner => simpa [marks] using hFirst inner (.closes .group :: back)
  | case13 items =>
    cases items with
    | nil => simp [marks, listMarks]
    | cons item items =>
      simpa [marks, listMarks_cons] using hFirst item (tailMarks items ++ .closes .braces :: back)

end OutExpr

/-! ## Arguments -/

namespace Parser

variable {cur : Cursor} {spot : Spot} {mark next : Mark} {rest : List Mark} {bracket : Bracket} {items : List OutExpr}

theorem eq_colon_of_kind (hSound : mark.sound = true) (hKind : mark.kind = .punct .colon) : mark = .between .colon := by
  cases mark with
  | between punct =>
    cases hKind
    rfl
  | leaf kind | typeName kind =>
    obtain rfl : kind = .punct .colon := hKind
    cases hSound
  | before punct | after punct | joined punct => cases hKind; cases hSound
  | opens bracket | closes bracket => cases bracket <;> cases hKind
  | _ => cases hKind

theorem startsOperand_ne_closing (hSound : mark.sound = true) (hStarts : mark.startsOperand = true) (bracket : Bracket) :
    mark.kind ≠ .punct bracket.closing := by
  intro hKind
  cases mark with
  | leaf kind =>
    obtain rfl : kind = .punct bracket.closing := hKind
    cases hSound
  | before punct =>
    obtain rfl : punct = bracket.closing := TokenKind.punct.inj hKind
    cases bracket <;> cases hSound
  | opens other => cases other <;> cases bracket <;> cases hKind
  | _ => cases hStarts

theorem startsOperand_ne_brace (hSound : mark.sound = true) (hStarts : mark.startsOperand = true)
    (hBraces : mark ≠ .opens .braces) : mark.kind ≠ .punct .lBrace := by
  intro hKind
  cases mark with
  | leaf kind =>
    obtain rfl : kind = .punct .lBrace := hKind
    cases hSound
  | before punct =>
    cases hKind
    cases hSound
  | opens other => cases other <;> first | exact hBraces rfl | cases hKind
  | _ => cases hStarts

/-- An expression that is an argument has no name and is passed by value. -/
theorem argument_apply {item : OutExpr} (stands : spot.Stands cur (item.marks ++ next :: rest))
    (hNext : next ≠ .between .colon) (hReads : spot.Reads spot.parsers.expr cur (Outlines · item) (next :: rest)) :
    ∃ val after, argument spot.parsers spot.tokens cur = .ok (⟨none, none, val⟩, after) ∧ Outlines val item ∧
      spot.Stands after (next :: rest) := by
  obtain ⟨val, after, hRun, hVal⟩ := hReads
  refine ⟨val, after, ?_, hVal⟩
  have hColon := item.second_ne_colon (next :: rest) (by simpa using hNext)
  obtain ⟨more, hMore⟩ := item.exists_marks
  have row := stands.row
  rw [hMore, cons_append] at row hColon
  obtain ⟨second, others, hOthers⟩ : ∃ second others, more ++ next :: rest = second :: others := by
    cases more <;> exact ⟨_, _, rfl⟩
  rw [hOthers] at row hColon
  have hFirst := row.kind_eq
  have hWord : ∀ text, item.first.kind = .word text → text ≠ "ref" ∧ text ≠ "out" ∧ text ≠ "in" := by
    intro text hText
    have hNot := word_ne row.sound_head hText
    exact ⟨hNot.2.1, hNot.2.2.1, hNot.2.2.2.1⟩
  have hSecond : (tokenAt spot.tokens (cur.pos + 1)).kind ≠ .punct .colon := by
    rw [row.tail.kind_eq]
    exact fun hKind => hColon (by rw [eq_colon_of_kind row.tail.sound_head hKind]; rfl)
  have hRef : item.first.kind ≠ .word "ref" := fun hText => (hWord _ hText).1 rfl
  have hOut : item.first.kind ≠ .word "out" := fun hText => (hWord _ hText).2.1 rfl
  have hIn : item.first.kind ≠ .word "in" := fun hText => (hWord _ hText).2.2 rfl
  simp [argument, argumentName, hSecond, argumentPassing, hFirst, hRef, hOut, hIn, declaresVariable, hRun]

/-- An argument is read, and behind it stands the rest of the list. -/
theorem argument_step {item : OutExpr} (hBracket : bracket ≠ .castType) (hItem : item.ReadsAny)
    (hFits : spot.Fits (OutExpr.depthList (item :: items)))
    (stands : spot.Stands cur (item.marks ++ (OutExpr.tailMarks items ++ .closes bracket :: rest))) :
    ∃ val after, argument spot.parsers spot.tokens cur = .ok (⟨none, none, val⟩, after) ∧ Outlines val item ∧
      spot.Stands after (OutExpr.tailMarks items ++ .closes bracket :: rest) := by
  obtain ⟨mark, more, hBack, hEnds, hColon⟩ := OutExpr.exists_tailMarks items bracket hBracket rest
  rw [hBack] at stands ⊢
  rw [OutExpr.depthList] at hFits
  exact argument_apply stands hColon (hItem.entry (hFits.mono (Nat.le_max_left _ _)) stands hEnds)

theorem manyOn_arguments (hBracket : bracket ≠ .castType) (hItems : ∀ item ∈ items, item.ReadsAny)
    (hFits : spot.Fits (OutExpr.depthList items))
    (stands : spot.Stands cur (OutExpr.tailMarks items ++ .closes bracket :: rest)) {fuel : Nat}
    (hFuel : (OutExpr.tailMarks items).length < fuel) (done : List Argument) : ∃ args after,
      manyOn (Parser.optional (eatPunct .comma) (argument spot.parsers)) fuel done spot.tokens cur =
        .ok (done.reverse ++ args, after) ∧ OutlinesArgs args items ∧ spot.Stands after (.closes bracket :: rest) := by
  obtain ⟨fuel, rfl⟩ : ∃ less, fuel = less + 1 := ⟨fuel - 1, by omega⟩
  induction items generalizing cur fuel done with
  | nil =>
    have hKind : (tokenAt spot.tokens cur.pos).kind = .punct bracket.closing := stands.row.kind_eq
    have hComma : bracket.closing ≠ .comma := by cases bracket <;> simp [Bracket.closing]
    exact ⟨[], cur, by simp [manyOn, Parser.optional, hKind, hComma], .nil, stands⟩
  | cons item items ih =>
    rw [OutExpr.tailMarks_cons, length_cons, length_append] at hFuel
    rw [OutExpr.tailMarks_cons, cons_append, append_assoc] at stands
    obtain ⟨val, after, hRun, hVal, hAfter⟩ := argument_step hBracket (hItems item mem_cons_self) hFits
      (stands.tail (by simp))
    obtain ⟨less, rfl⟩ : ∃ less, fuel = less + 1 := ⟨fuel - 1, by omega⟩
    obtain ⟨args, last, hArgs, hOutlines, hLast⟩ := ih (forall_mem_cons.mp hItems).2
      (hFits.mono (Nat.le_max_right _ _)) hAfter (⟨none, none, val⟩ :: done) less (by omega)
    have hKind : (tokenAt spot.tokens cur.pos).kind = .punct .comma := stands.row.kind_eq
    refine ⟨⟨none, none, val⟩ :: args, last, ?_, .cons hVal hOutlines, hLast⟩
    have hStep : Parser.optional (eatPunct .comma) (argument spot.parsers) spot.tokens cur =
        .ok (some ⟨none, none, val⟩, after) := by
      simp [Parser.optional, hKind, hRun]
    rw [manyOn]
    simp [hStep, hArgs]

theorem enclosed_arguments (hBracket : bracket ≠ .castType) (hItems : ∀ item ∈ items, item.ReadsAny)
    (hFits : spot.Fits (OutExpr.depthList items))
    (stands : spot.Stands cur (.opens bracket :: (OutExpr.listMarks items ++ .closes bracket :: next :: rest))) :
    spot.Reads (enclosed bracket.opening bracket.closing (argument spot.parsers)) cur (OutlinesArgs · items)
      (next :: rest) := by
  have hOpen : expectPunct bracket.opening spot.tokens cur = .ok (_, ⟨cur.pos + 1, cur.depth⟩) :=
    expectPunct_apply stands.row.kind_eq
  cases items with
  | nil =>
    have hClose : (tokenAt spot.tokens (cur.pos + 1)).kind = .punct bracket.closing := stands.row.tail.kind_eq
    exact ⟨[], _, by simp [enclosed, hOpen, hClose], .nil, (stands.tail (by simp)).tail (by simp)⟩
  | cons item items =>
    rw [OutExpr.listMarks_cons, append_assoc] at stands
    have hStart := stands.tail (by simp)
    obtain ⟨val, after, hRun, hVal, hAfter⟩ := argument_step hBracket (hItems item mem_cons_self) hFits hStart
    obtain ⟨_, _, hFirstAt⟩ := hStart.first
    have hFirst : (tokenAt spot.tokens (cur.pos + 1)).kind ≠ .punct bracket.closing := by
      rw [hFirstAt.row.kind_eq]
      exact startsOperand_ne_closing hFirstAt.row.sound_head item.first_startsOperand bracket
    have hLength := hAfter.row.length_eq
    rw [length_append] at hLength
    obtain ⟨args, last, hArgs, hOutlines, hLast⟩ := manyOn_arguments hBracket
      (forall_mem_cons.mp hItems).2 (hFits.mono (Nat.le_max_right _ _)) hAfter
      (show _ < spot.tokens.size + 1 by omega) []
    have hClose : expectPunct bracket.closing spot.tokens last = .ok (_, ⟨last.pos + 1, last.depth⟩) :=
      expectPunct_apply hLast.row.kind_eq
    exact ⟨⟨none, none, val⟩ :: args, _, by simp [enclosed, hOpen, hFirst, commaList, many, hRun, hArgs, hClose],
      .cons hVal hOutlines, hLast.tail (by simp)⟩

end Parser

namespace OutExpr

variable {cur : Cursor} {spot : Spot} {next : Mark} {rest : List Mark} {expr : OutExpr}

/-! ## Lists in braces -/

/-- The levels that reading an item in braces takes. -/
def itemDepth (item : OutExpr) : Nat := if item.isBraces then item.depth else item.reach + 1

def ReadsItem (item : OutExpr) : Prop :=
  ∀ {spot : Spot} {cursor next rest}, spot.Fits item.itemDepth → spot.Stands cursor (item.marks ++ next :: rest) →
    next.endsExpr = true → spot.Reads (Parser.initializer spot.parsers) cursor (Outlines · item) (next :: rest)

def ReadsBraces (items : List OutExpr) : Prop :=
  ∀ {spot : Spot} {cursor next rest}, spot.Fits (depthItems items) →
    spot.Stands cursor ((braces items).marks ++ next :: rest) →
    spot.Reads (initializerList spot.parsers) cursor (OutlinesItems · items) (next :: rest)

variable {items : List OutExpr}

theorem closedListOn_items (hItems : ∀ item ∈ items, item.ReadsItem) (hFits : spot.Fits (depthItems items))
    (stands : spot.Stands cur (listMarks items ++ .closes .braces :: next :: rest)) {fuel : Nat}
    (hFuel : (listMarks items).length < fuel) (done : List Expr) : ∃ values after,
      closedListOn .rBrace (Parser.initializer spot.parsers) fuel done spot.tokens cur =
        .ok (done.reverse ++ values, after) ∧ OutlinesItems values items ∧ spot.Stands after (next :: rest) := by
  obtain ⟨fuel, rfl⟩ : ∃ less, fuel = less + 1 := ⟨fuel - 1, by omega⟩
  induction items generalizing cur fuel done with
  | nil =>
    have hKind : (tokenAt spot.tokens cur.pos).kind = .punct .rBrace := stands.row.kind_eq
    exact ⟨[], _, by simp [closedListOn, hKind], .nil, stands.tail (by simp)⟩
  | cons item items ih =>
    obtain ⟨mark, more, hMarks, hEnds, -⟩ := exists_tailMarks items .braces (by simp) (next :: rest)
    have hStart := stands
    rw [listMarks_cons, append_assoc, hMarks] at hStart
    obtain ⟨_, _, hFirstAt⟩ := hStart.first
    have hFirst : (tokenAt spot.tokens cur.pos).kind ≠ .punct .rBrace := by
      rw [hFirstAt.row.kind_eq]
      exact startsOperand_ne_closing hFirstAt.row.sound_head item.first_startsOperand .braces
    obtain ⟨val, after, hRun, hVal, hAfter⟩ := hItems item mem_cons_self
      (hFits.mono (Nat.le_max_left _ _)) hStart hEnds
    -- After an item comes the closing brace or a comma, and after a comma another item.
    cases items with
    | nil =>
      obtain ⟨rfl, rfl⟩ := List.cons.inj hMarks
      have hKind : (tokenAt spot.tokens after.pos).kind = .punct .rBrace := hAfter.row.kind_eq
      have hClose : expectPunct .rBrace spot.tokens after = .ok (_, ⟨after.pos + 1, after.depth⟩) :=
        expectPunct_apply hKind
      exact ⟨[val], _, by simp [closedListOn, hFirst, hRun, hKind, hClose], .cons hVal .nil,
        hAfter.tail (by simp)⟩
    | cons second items =>
      obtain ⟨rfl, rfl⟩ := List.cons.inj hMarks
      have hComma : (tokenAt spot.tokens after.pos).kind = .punct .comma := hAfter.row.kind_eq
      have hRest : spot.Stands ⟨after.pos + 1, after.depth⟩
          (listMarks (second :: items) ++ .closes .braces :: next :: rest) := by
        rw [listMarks_cons]
        exact hAfter.tail (by simp)
      rw [listMarks, length_append, length_cons] at hFuel
      obtain ⟨less, rfl⟩ : ∃ less, fuel = less + 1 := ⟨fuel - 1, by omega⟩
      obtain ⟨values, last, hValues, hOutlines, hLast⟩ := ih (forall_mem_cons.mp hItems).2
        (hFits.mono (Nat.le_max_right _ _)) hRest (val :: done) less (by omega)
      refine ⟨val :: values, last, ?_, .cons hVal hOutlines, hLast⟩
      rw [closedListOn]
      simp [hFirst, hRun, hComma, hValues]

theorem readsBraces (hItems : ∀ item ∈ items, item.ReadsItem) : ReadsBraces items := by
  intro spot cur next rest hFits stands
  have hOpen : expectPunct .lBrace spot.tokens cur = .ok (_, ⟨cur.pos + 1, cur.depth⟩) :=
    expectPunct_apply (kind_first stands)
  have hParsers := stands.parsers_eq hFits
  simp only [marks, cons_append, append_assoc, nil_append] at stands
  -- Items take a round but no level, which the opening brace has paid for.
  have hFed := stands.fed (by simp)
  have hFits : spot.fed.Fits (depthItems items) := hFits
  have hLength := hFed.row.length_eq
  rw [length_append] at hLength
  obtain ⟨values, last, hRun, hValues, hLast⟩ := closedListOn_items hItems hFits hFed
    (show _ < spot.tokens.size + 1 by change _ = spot.tokens.size - _ at hLength; omega) []
  change closedListOn .rBrace (ExprParsers.on (spot.rounds - 1)).deeper.initializer _ _ _ _ = _ at hRun
  rw [← hParsers] at hRun
  refine Spot.Reads.unfed ⟨values, last, ?_, hValues, hLast⟩
  change _ = Except.ok (values, last) at hRun
  change initializerList spot.parsers spot.tokens cur = _
  simp only [initializerList, closedList, bind_apply, hOpen, ok_bind, read_apply]
  exact hRun

theorem readsItem_braces (hReads : ReadsBraces items) : (braces items).ReadsItem := by
  intro spot cur next rest hFits stands hEnds
  obtain ⟨values, after, hRun, hValues, hAfter⟩ := hReads hFits stands
  have hKind : (tokenAt spot.tokens cur.pos).kind = .punct .lBrace := kind_first stands
  refine ⟨.arrayInit ?_ values, after, ?run, .braces hValues, hAfter⟩
  case run =>
    simp [Parser.initializer, hKind, hRun]
    rfl

theorem ReadsAny.item (hReads : expr.ReadsAny) (hBraces : expr.isBraces = false) (hFirst : expr.first ≠ .opens .braces) :
    expr.ReadsItem := by
  intro spot cur next rest hFits stands hEnds
  rw [itemDepth, hBraces] at hFits
  obtain ⟨val, after, hRun, hAfter⟩ := hReads.entry hFits stands hEnds
  obtain ⟨_, _, hFirstAt⟩ := stands.first
  have hKind : (tokenAt spot.tokens cur.pos).kind ≠ .punct .lBrace := by
    rw [hFirstAt.row.kind_eq]
    exact startsOperand_ne_brace hFirstAt.row.sound_head expr.first_startsOperand hFirst
  exact ⟨val, after, by simp [Parser.initializer, hKind, hRun], hAfter⟩

end OutExpr

end Shaderlift
