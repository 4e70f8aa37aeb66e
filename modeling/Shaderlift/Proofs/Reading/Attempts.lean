import Shaderlift.Proofs.Reading.Types

/-!
# Attempts at types

The reader of expressions tries type arguments after a name and a cast after a parenthesis. On the marks of a
readable tree the first attempt always fails (`genericArgs?_none`), and the second succeeds at the type of a cast
(`type_apply`) and fails at parentheses around an expression (`cast_error`).
-/

namespace Shaderlift

open List

namespace Parser

open Mark

variable {α : Type} {toks : Array Token} {cur after : Cursor}

/-! ## Levels of nesting -/

variable {parser : Parser α} {val : α} {pos depth : Nat} {mark next name : Mark} {text : String} {rest : List Mark}

theorem nested_inv (hOk : nested parser toks cur = .ok (val, after)) : cur.depth < maxNesting ∧
      ∃ mid, parser toks ⟨cur.pos, cur.depth + 1⟩ = .ok (val, mid) ∧ after.pos = mid.pos := by
  unfold nested at hOk
  simp only [bind_apply, modify_apply, get_apply, ok_bind, ite_apply, fail_apply] at hOk
  split at hOk
  · cases hOk
  · rename_i hDepth
    obtain ⟨⟨found, mid⟩, hFound, hRest⟩ := bind_eq_ok.mp hOk
    simp only [pure_apply, Except.ok.injEq, Prod.mk.injEq] at hRest
    obtain ⟨rfl, rfl⟩ := hRest
    exact ⟨Nat.lt_of_succ_le (Nat.not_lt.mp hDepth), mid, hFound, rfl⟩

theorem nested_apply (hDepth : cur.depth < maxNesting)
    (hParser : parser toks ⟨cur.pos, cur.depth + 1⟩ = .ok (val, ⟨pos, cur.depth + 1⟩)) :
    nested parser toks cur = .ok (val, ⟨pos, cur.depth⟩) := by
  unfold nested
  have hNot : ¬cur.depth + 1 > maxNesting := by omega
  simp [hNot, hParser]

/-! ## What is read of a type -/

theorem mem_words_of_kind (hSound : mark.sound = true) (hKind : mark.kind = .word text) :
    text ∈ typeWords ++ ["this", "true", "false"] := by
  cases mark with
  | leaf kind =>
    obtain rfl : kind = .word text := hKind
    exact mem_words_of_sound hSound
  | typeName kind =>
    obtain rfl : kind = .word text := hKind
    exact mem_append_left _ (contains_iff_mem.mp hSound)
  | _ => cases hKind

theorem words_plain : ((typeWords ++ ["this", "true", "false"]).all fun text =>
      text != "delegate" && text != "ref" && text != "out" && text != "in" && text != "throw") = true := by
  decide

theorem word_ne (hSound : mark.sound = true) (hKind : mark.kind = .word text) :
    text ≠ "delegate" ∧ text ≠ "ref" ∧ text ≠ "out" ∧ text ≠ "in" ∧ text ≠ "throw" := by
  have hPlain := all_eq_true.mp words_plain text (mem_words_of_kind hSound hKind)
  simpa [and_assoc] using hPlain

theorem typeEnd_plainType {type : Parser TypeExpr} (hType : ReadsTypes toks type) {plain : TypeExpr}
    (hOk : plainTypeWith type toks cur = .ok (plain, after)) (row : Row toks cur.pos (mark :: rest))
    (hStarts : mark.startsType = true) : TypeEnd toks (mark :: rest) after.pos := by
  have hKind := row.kind_eq
  unfold plainTypeWith at hOk
  simp only [bind_apply, peek_apply, ok_bind, hKind] at hOk
  cases hWord : mark.kind with
  | word text =>
    have hNot : text ≠ "delegate" := (word_ne row.sound_head hWord).1
    rw [hWord] at hOk
    simp only [bind_apply, punctAt_apply, ok_bind, beq_eq_false_iff_ne.mpr hNot, Bool.false_and, ite_apply] at hOk
    rw [if_neg Bool.false_ne_true] at hOk
    split at hOk
    · rename_i hTypeWord
      rw [skip_apply (by rw [hKind, hWord]; simp)] at hOk
      simp only [ok_bind, pure_apply, Except.ok.injEq, Prod.mk.injEq] at hOk
      obtain ⟨-, rfl⟩ := hOk
      obtain ⟨next, more, rfl⟩ := row.exists_next (by rintro rfl; cases hWord)
      have hBeside := row.beside
      refine ⟨[mark], next :: more, rfl, row.tail, ?_, .inr (.inr ?_)⟩
      · cases mark with
        | leaf | typeName => rfl
        | _ => cases hWord
      · rintro other hOther
        cases hOther
        cases mark with
        | leaf kind =>
          obtain rfl : kind = .word text := hWord
          simp only [beside, hTypeWord, Bool.and_eq_true, Bool.or_eq_true, beq_iff_eq, Bool.not_true,
            Bool.false_eq_true, false_or] at hBeside
          rcases hBeside.2 with rfl | rfl <;> rfl
        | typeName kind =>
          rw [beside, beq_iff_eq] at hBeside
          subst hBeside
          rfl
        | _ => cases hWord
    · cases hOk
  | punct punct =>
    rw [hWord] at hOk
    cases punct with
    | lParen => exact absurd hOk (tupleType_error hType row hStarts _)
    | _ => exact typeEnd_namedType hType hOk row hStarts
  | _ =>
    rw [hWord] at hOk
    exact typeEnd_namedType hType hOk row hStarts

theorem readsTypes_typeOn (fuel : Nat) : ReadsTypes toks (typeOn fuel) := by
  induction fuel with
  | zero =>
    intro cur val after marks hOk
    cases hOk
  | succ fuel ih =>
    intro cur val after marks hOk row hStart
    obtain ⟨-, mid, hInner, hPos⟩ := nested_inv hOk
    obtain ⟨mark, rest, rfl⟩ := row.exists_cons
    have hStarts := hStart mark rfl
    have hRef : ((tokenAt toks cur.pos).kind == .word "ref") = false := by
      rw [row.kind_eq, beq_eq_false_iff_ne]
      intro hKind
      exact (word_ne row.sound_head hKind).2.1 rfl
    unfold typeWith at hInner
    simp only [bind_apply, here_apply, ok_bind, eatWord_apply, hRef, ite_apply] at hInner
    rw [if_neg Bool.false_ne_true, if_neg Bool.false_ne_true] at hInner
    obtain ⟨⟨plain, last⟩, hPlain, hSuffix⟩ := bind_eq_ok.mp hInner
    obtain ⟨taken, others, hTaken, hRow, hRead⟩ := typeEnd_plainType ih hPlain row hStarts
    rw [hPos, hTaken]
    exact typeEnd_suffixes hSuffix hRow hRead

theorem readsTypes_type : ReadsTypes toks type := readsTypes_typeOn _

/-! ## Type arguments -/

theorem readsAsTypeArgs_of_argsRead {taken : List Mark} {closer : Mark} (hArgs : ArgsRead taken closer)
    (hBeside : beside closer next = true) (hSound : next.sound = true) (hParen : next.kind = .punct .lParen) :
    readsAsTypeArgs (.between .lt :: (taken ++ closer :: next :: rest)) = true := by
  have hDrop : ∀ {names : List Mark} {mark : Mark} {others : List Mark}, names.all inNames = true →
      mark.inNames = false → (names ++ mark :: others).dropWhile inNames = mark :: others := by
    intro names mark others hNames hMark
    rw [dropWhile_append_of_pos (all_eq_true.mp hNames), dropWhile_cons_of_neg (by rw [hMark]; simp)]
  have hOpens : next.opensParen = true := beq_iff_eq.mpr hParen
  rcases hArgs with ⟨hNames, rfl | rfl⟩ | ⟨⟨outer, inner, rfl, hOuter, hInner⟩, rfl⟩
  · rw [readsAsTypeArgs, hDrop hNames rfl]
    exact hOpens
  · exact absurd hParen (@kind_ne _ _ isJoined (by decide) hSound hBeside)
  · rw [readsAsTypeArgs, append_assoc, cons_append, hDrop hOuter rfl]
    simp only [append_assoc, cons_append, nil_append]
    rw [hDrop hInner rfl]
    exact hOpens

theorem genericArgs_error (row : Row toks pos (name :: rest)) (hName : name.isName = true) (hNext : name ≠ .done)
    (args : List TypeExpr) : genericArgs toks ⟨pos + 1, depth⟩ ≠ .ok (args, after) := by
  intro hOk
  obtain ⟨next, more, rfl⟩ := row.exists_next hNext
  obtain ⟨list, mid, hList, hOk⟩ := exists_of_bind hOk
  obtain ⟨taken, closer, last, others, hMarks, hRow, hBeside, hFlat, hArgs⟩ :=
    argsRead_typeArgsWith readsTypes_type hList row.tail
  have hDot := (hArgs.typeRead others hFlat hBeside hRow.sound_head).2
  have hFree := row.free
  rw [freeOfTypeArgs, Bool.and_eq_true, hName, Bool.true_and, hMarks] at hFree
  by_cases hParen : last.kind = .punct .lParen
  · rw [readsAsTypeArgs_of_argsRead hArgs hBeside hRow.sound_head hParen] at hFree
    cases hFree.1
  · simp [hRow.kind_eq, hParen, hDot] at hOk

theorem genericArgs?_none (row : Row toks pos (name :: rest)) (hName : name.isName = true) :
    genericArgs? toks ⟨pos + 1, depth⟩ = .ok (none, ⟨pos + 1, depth⟩) := by
  have hNext : name ≠ .done := by
    rintro rfl
    cases hName
  unfold genericArgs? speculate
  simp only [bind_apply, atPunct_apply, ok_bind, ite_apply]
  split
  · cases hArgs : genericArgs toks ⟨pos + 1, depth⟩ with
    | ok result => exact absurd hArgs (genericArgs_error row hName hNext result.1)
    | error error => rfl
  · rfl

/-! ## Casts -/

theorem type_apply (row : Row toks cur.pos (mark :: next :: rest)) (hDepth : cur.depth < maxNesting)
    (hMark : mark.kind = .word text ∧ typeWords.contains text = true ∨ mark.kind = .ident text) (hNext : next.kind =
      .punct .rParen ∨ next.kind = .punct .dot ∧ mark.kind = .word text ∨ next.kind = .punct .lParen ∧ mark.kind = .word
      text) : ∃ span, type toks cur = .ok (.named span text [], ⟨cur.pos + 1, cur.depth⟩) := by
  have hKind := row.kind_eq
  have hAfter := row.tail.kind_eq
  have hSuffix : ∀ first : TypeExpr, typeSuffix first toks ⟨cur.pos + 1, cur.depth + 1⟩ =
      .ok (none, ⟨cur.pos + 1, cur.depth + 1⟩) := by
    intro first
    apply typeSuffix_none <;> rw [hAfter] <;> rcases hNext with hNext | ⟨hNext, -⟩ | ⟨hNext, -⟩ <;> simp [hNext]
  rcases hMark with ⟨hWord, hTypeWord⟩ | hIdent
  · obtain ⟨hDelegate, hRef, -⟩ := word_ne row.sound_head hWord
    refine ⟨(tokenAt toks cur.pos).span, ?_⟩
    show nested (typeWith (typeOn (maxNesting + 1))) toks cur = _
    refine nested_apply hDepth ?_
    have hSkip : skip toks ⟨cur.pos, cur.depth + 1⟩ = .ok ((), ⟨cur.pos + 1, cur.depth + 1⟩) :=
      skip_apply (by rw [hKind, hWord]; simp)
    have hIs : (TokenKind.word text).isTypeWord = true := hTypeWord
    rw [hWord] at hKind
    simp [typeWith, plainTypeWith, hKind, hRef, hDelegate, hIs, hSkip, extend, extendOn, hSuffix, TypeExpr.word]
  · have hParen : next.kind = .punct .rParen := by
      rcases hNext with hNext | ⟨-, hWord⟩ | ⟨-, hWord⟩
      · exact hNext
      · simp [hIdent] at hWord
      · simp [hIdent] at hWord
    rw [hParen] at hAfter
    rw [hIdent] at hKind
    have hSkip : skip toks ⟨cur.pos, cur.depth + 1⟩ = .ok ((), ⟨cur.pos + 1, cur.depth + 1⟩) :=
      skip_apply (by simp [hKind])
    refine ⟨(tokenAt toks cur.pos).span.through (spanBefore toks (cur.pos + 1)), ?_⟩
    show nested (typeWith (typeOn (maxNesting + 1))) toks cur = _
    refine nested_apply hDepth ?_
    simp [typeWith, plainTypeWith, namedTypeWith, expectIdentSpan, hKind, hSkip, hSuffix, optional, hAfter, extend,
      extendOn, nameSegmentWith]

/-- What follows a parenthesised expression is not the operand of a cast to a name. -/
theorem not_startsCastOperand (hSound : next.sound = true) (hBeside : beside (.closes .group) next = true) :
    startsCastOperand false next.kind = false := by
  have hBetween : (betweenMarks.all fun mark => !startsCastOperand false (.punct mark)) = true := by decide
  cases next with
  | between mark =>
    have hMark := all_eq_true.mp hBetween mark (contains_iff_mem.mp hSound)
    rwa [Bool.not_eq_true'] at hMark
  | after mark =>
    simp only [sound, Bool.or_eq_true, beq_iff_eq] at hSound
    rcases hSound with rfl | rfl <;> rfl
  | opens bracket =>
    cases bracket with
    | index => rfl
    | _ => exact absurd hBeside Bool.false_ne_true
  | closes bracket => cases bracket <;> rfl
  | dot | angle | comma | done => rfl
  | _ => exact absurd hBeside Bool.false_ne_true

/-- No cast is read where parentheses hold an expression. -/
theorem cast_error (self : ExprParsers) (row : Row toks cur.pos (.opens .group :: rest)) (result : Expr × Cursor) :
    cast self toks cur ≠ .ok result := by
  intro hOk
  obtain ⟨start, first, hOpening, hOk⟩ := exists_of_bind hOk
  obtain ⟨-, rfl⟩ := expectPunct_inv hOpening
  obtain ⟨isTypeWord, second, hTest, hOk⟩ := exists_of_bind hOk
  simp only [atTypeWord_apply, Except.ok.injEq, Prod.mk.injEq] at hTest
  obtain ⟨rfl, rfl⟩ := hTest
  obtain ⟨target, mid, hType, hOk⟩ := exists_of_bind hOk
  obtain ⟨closing, last, hClosing, hOk⟩ := exists_of_bind hOk
  obtain ⟨hParen, rfl⟩ := expectPunct_inv hClosing
  obtain ⟨mark, more, rfl⟩ := row.exists_next (by simp)
  obtain ⟨taken, others, hTaken, hRow, hRead⟩ := readsTypes_type hType row.tail
    (forall_head (startsType_of_startsOperand row.beside) _)
  obtain ⟨closer, others, rfl⟩ := hRow.exists_cons
  have hCloser : closer = .closes .group := by
    obtain ⟨stack, hNested⟩ := row.nested
    rw [Mark.nested, hTaken] at hNested
    have hRest := nested_flat hRead.flat hNested
    have hMem := mem_of_kind [.closes .group, .closes .castType, .closes .args] (by decide) hRow.sound_head
      (hRow.kind_eq.symm.trans hParen)
    simp only [mem_cons, not_mem_nil, or_false] at hMem
    rcases hMem with rfl | rfl | rfl
    · rfl
    · simp [Mark.nested] at hRest
    · simp [Mark.nested] at hRest
  subst hCloser
  obtain ⟨next, others, rfl⟩ := hRow.exists_next (by simp)
  -- a type word in parentheses is followed by a dot or by arguments, at which its type ends
  have hTypeWord : mark.kind.isTypeWord = false := by
    by_contra hWord
    rw [Bool.not_eq_false] at hWord
    cases hKind : mark.kind with
    | word text =>
      obtain rfl : mark = .leaf (.word text) := by
        have hStarts : mark.startsOperand = true := row.beside
        cases mark with
        | leaf kind => exact congrArg Mark.leaf hKind
        | _ => simp_all [startsOperand, Mark.kind]
      obtain ⟨second, more, rfl⟩ := row.tail.exists_next (by simp)
      have hBeside := row.tail.beside
      rw [hKind] at hWord
      simp only [beside, hWord, Bool.and_eq_true, Bool.or_eq_true, beq_iff_eq, Bool.not_true,
        Bool.false_eq_true, false_or] at hBeside
      obtain ⟨hDepth, -⟩ := nested_inv hType
      have hAfter : second.kind = .punct .dot ∨ second.kind = .punct .lParen := by
        rcases hBeside.2 with rfl | rfl
        · exact .inl rfl
        · exact .inr rfl
      obtain ⟨span, hRun⟩ := type_apply row.tail hDepth (.inl ⟨rfl, hWord⟩)
        (.inr (hAfter.imp (⟨·, rfl⟩) (⟨·, rfl⟩)))
      rw [hType] at hRun
      cases hRun
      rw [row.tail.tail.kind_eq] at hParen
      rcases hAfter with hAfter | hAfter <;> simp [hAfter] at hParen
    | _ => simp [hKind, TokenKind.isTypeWord] at hWord
  have hNext : startsCastOperand mark.kind.isTypeWord next.kind = false := by
    rw [hTypeWord]
    exact not_startsCastOperand hRow.tail.sound_head hRow.beside
  simp [row.tail.kind_eq, hRow.tail.kind_eq, hNext] at hOk

end Parser

end Shaderlift
