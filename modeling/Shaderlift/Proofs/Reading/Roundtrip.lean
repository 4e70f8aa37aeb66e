import Shaderlift.Lowering.Expr
import Shaderlift.Proofs.Reading.Lists
import Shaderlift.Source.Parser.Decl

/-!
# Reading a written tree

The text of a readable tree is read back as the tree. The proof is by induction on the tree: `Reads` collects how a
tree is read in each place that its level lets it stand in. An expression that is read is one tree only, so that a
lowered tree is lost where its text is also that of another readable tree (`Lower.parse_hinted`). This happens: the
signs of a negation of a negation touch, and an access to a cast is an access to its operand.
-/

namespace Shaderlift

open List
open Bool (and_eq_true or_eq_true)

open Mark Shaderlift.Parser

namespace OutExpr

variable {expr target operand : OutExpr} {args : List OutExpr}

/-! ## Primary expressions and their suffixes -/

theorem readsChain_leaf {kind : TokenKind} (hMarks : expr.marks = [.leaf kind])
    (hOutlines : ∀ {val : Expr}, val.token? = some kind → Outlines val expr) : expr.ReadsChain := by
  intro spot cur next rest _ stands
  rw [hMarks] at stands
  obtain ⟨val, hRun, hVal⟩ := primary_leaf spot.parsers stands.row
  exact .of_primary ⟨val, _, hRun, hOutlines hVal, stands.tail (by simp)⟩

theorem readsChain_token (kind : TokenKind) : (token kind).ReadsChain := readsChain_leaf (by rw [marks]) .token

theorem readsChain_qualified (name : String) : (qualified name).ReadsChain := readsChain_leaf (by rw [marks]) .qualified

theorem readsChain_member {name : String} (hTarget : target.ReadsChain) : (member target name).ReadsChain := by
  intro spot cur next rest hFits stands
  rw [marks, append_assoc] at stands
  refine .step (hTarget (by simpa [depth] using hFits) stands) (by simp) fun hVal hMid => ?_
  obtain ⟨span, hRun⟩ := exprSuffix_member spot.parsers _ hMid.row _
  exact ⟨_, _, hRun, ⟨_, rfl, .member hVal⟩, (hMid.tail (by simp)).tail (by simp)⟩

theorem readsChain_post {op : PostOp} (hOp : op ≠ .nullForgiving) (hOperand : operand.ReadsChain) :
    (post op operand).ReadsChain := by
  intro spot cur next rest hFits stands
  obtain ⟨mark, hMark, hDone⟩ : ∃ mark, op.marks = [mark] ∧ mark ≠ .done := by
    cases op with
    | nullForgiving => contradiction
    | _ => exact ⟨_, rfl, by simp⟩
  rw [marks, hMark, append_assoc] at stands
  refine .step (hOperand (by simpa [depth] using hFits) stands) (by simp) fun hVal hMid => ?_
  obtain ⟨span, hRun⟩ := exprSuffix_post spot.parsers _ hMark hMid.row _
  exact ⟨_, _, hRun, ⟨_, rfl, .post hVal⟩, hMid.tail hDone⟩

/-- Arguments in brackets after a tree make a chain of the whole, if the suffix that holds them does. -/
theorem readsChain_enclosed (bracket : Bracket) (hBracket : bracket ≠ .castType) (hTarget : target.ReadsChain)
    (hArgs : ∀ arg ∈ args, arg.ReadsAny)
    (hMarks : expr.marks = target.marks ++ .opens bracket :: (listMarks args ++ [.closes bracket]))
    (hDepth : expr.depth = max target.depth (depthList args)) (longer : Span → Expr → List Argument → Expr)
    (hLonger : ∀ {span val values}, Outlines val target → OutlinesArgs values args → Outlines (longer span val values) expr)
    (hSuffix : ∀ {toks self cur after val values}, (tokenAt toks cur.pos).kind = .punct bracket.opening →
      enclosed bracket.opening bracket.closing (argument self) toks cur = .ok (values, after) →
      exprSuffix self val toks cur =
        .ok (some (longer (val.span.through (spanBefore toks after.pos)) val values), after)) : expr.ReadsChain := by
  intro spot cur next rest hFits stands
  rw [hDepth] at hFits
  simp only [hMarks, append_assoc, cons_append, nil_append] at stands
  refine .step (hTarget (hFits.mono (Nat.le_max_left _ _)) stands) (by simp; omega) fun hVal hMid => ?_
  obtain ⟨values, after, hRun, hValues, hAfter⟩ := enclosed_arguments hBracket hArgs
    (hFits.mono (Nat.le_max_right _ _)) hMid
  exact ⟨_, _, hSuffix hMid.row.kind_eq hRun, ⟨_, rfl, hLonger hVal hValues⟩, hAfter⟩

theorem readsChain_index (hTarget : target.ReadsChain) (hArgs : ∀ arg ∈ args, arg.ReadsAny) :
    (index target args).ReadsChain := by
  refine readsChain_enclosed .index (by simp) hTarget hArgs (by simp [marks]) (by rw [depth]) .index .index ?_
  intro toks self cur after val values hKind hRun
  change enclosed .lBracket .rBracket (argument self) toks cur = _ at hRun
  simp [exprSuffix, hKind, Bracket.opening, hRun]

theorem readsChain_call {callee : OutExpr} (hCallee : callee.ReadsChain) (hArgs : ∀ arg ∈ args, arg.ReadsAny) :
    (call callee args).ReadsChain := by
  refine readsChain_enclosed .args (by simp) hCallee hArgs (by simp [marks]) (by rw [depth])
    (fun span val => .call span val []) .call ?_
  intro toks self cur after val values hKind hRun
  change arguments self toks cur = _ at hRun
  simp [exprSuffix, hKind, Bracket.opening, hRun]

theorem readsChain_paren {inner : OutExpr} (hInner : inner.ReadsAny) : (paren inner).ReadsChain := by
  intro spot cur next rest hFits stands
  rw [depth] at hFits
  have hKind : (tokenAt spot.tokens cur.pos).kind = .punct .lParen := kind_first stands
  simp only [marks, cons_append, append_assoc, nil_append] at stands
  have hStart := stands.tail (by simp)
  obtain ⟨val, mid, hRun, hVal, hMid⟩ := argument_apply hStart (by simp) (hInner.entry hFits hStart rfl)
  have hOpen : expectPunct .lParen spot.tokens cur = .ok (_, ⟨cur.pos + 1, cur.depth⟩) :=
    expectPunct_apply hKind
  have hClose : (tokenAt spot.tokens mid.pos).kind = .punct .rParen := hMid.row.kind_eq
  have hArrow := (kind_ne hMid.row.tail).1
  refine .of_primary ⟨.paren ?_ val, ⟨mid.pos + 1, mid.depth⟩, ?run, .paren hVal, hMid.tail (by simp)⟩
  case run =>
    rw [primary_group hKind]
    simp [parenOrTuple, hOpen, hRun, hClose, refuseArrow, hArrow]
    rfl

theorem readsChain_braces {items : List OutExpr} (hItems : ReadsBraces items) : (braces items).ReadsChain := by
  intro spot cur next rest hFits stands
  obtain ⟨values, after, hRun, hValues, hAfter⟩ := hItems hFits stands
  have hKind : (tokenAt spot.tokens cur.pos).kind = .punct .lBrace := kind_first stands
  obtain ⟨span, hPrimary⟩ := primary_braces hKind hRun
  exact .of_primary ⟨.arrayInit span values, after, hPrimary, .braces hValues, hAfter⟩

theorem readsUnary_unary {op : UnaryOp} (hOperand : operand.ReadsUnary) : (unary op operand).ReadsUnary := by
  intro spot cur next rest hFits stands hEnds
  rw [marks, cons_append] at stands
  exact unary_prefix stands.row (hOperand.entry (by simpa [depth] using hFits) (stands.tail (by simp)) hEnds)

theorem readsUnary_cast {type : String} (hOperand : operand.ReadsUnary)
    (hStarts : startsCastOperand (typeWords.contains type) operand.first.kind = true) :
    (cast type operand).ReadsUnary := by
  intro spot cur next rest hFits stands hEnds
  rw [depth] at hFits
  have hDepth : cur.depth < maxNesting := by
    have hLevel := stands.level
    change spot.depth + _ ≤ _ at hFits
    omega
  simp only [marks, cons_append] at stands
  have hReads := hOperand.entry (hFits.mono (by omega))
    (((stands.tail (by simp)).tail (by simp)).tail (by simp)) hEnds
  obtain ⟨more, hMore⟩ := operand.exists_marks
  rw [hMore, cons_append] at stands
  exact unary_cast hStarts stands.row hDepth hReads

/-! ## Every formed tree -/

/-- How a tree is read in each place that its level lets it stand in. -/
structure Reads (expr : OutExpr) : Prop where
  chain : 14 ≤ expr.level → expr.ReadsChain
  unary : 13 ≤ expr.level → expr.ReadsUnary
  climb : 3 ≤ expr.level → expr.ReadsClimb
  coalesce : 2 ≤ expr.level → expr.ReadsCoalesce
  any : expr.ReadsAny

namespace Reads

theorem of_any (hLevel : expr.level < 2) (hAny : expr.ReadsAny) : expr.Reads where
  chain _ := by omega
  unary _ := by omega
  climb _ := by omega
  coalesce _ := by omega
  any := hAny

theorem of_coalesce (hLevel : expr.level < 3) (hCoalesce : expr.ReadsCoalesce) : expr.Reads where
  chain _ := by omega
  unary _ := by omega
  climb _ := by omega
  coalesce _ := hCoalesce
  any := ReadsCoalesce.any hCoalesce

theorem of_climb (hLow : 3 ≤ expr.level) (hHigh : expr.level < 13) (hClimb : expr.ReadsClimb) : expr.Reads where
  chain _ := by omega
  unary _ := by omega
  climb _ := hClimb
  coalesce _ := ReadsClimb.coalesce hClimb hLow
  any := ReadsCoalesce.any (ReadsClimb.coalesce hClimb hLow)

theorem of_unary (hLevel : expr.level = 13) (hUnary : expr.ReadsUnary) : expr.Reads := by
  have hClimb : expr.ReadsClimb := ReadsUnary.climb hUnary (by omega)
  have hCoalesce : expr.ReadsCoalesce := ReadsClimb.coalesce hClimb (by omega)
  exact ⟨by omega, fun _ => @hUnary, fun _ => @hClimb, fun _ => @hCoalesce, ReadsCoalesce.any hCoalesce⟩

theorem of_chain (hLevel : 14 ≤ expr.level) (hFormed : expr.formed = true) (hChain : expr.ReadsChain) : expr.Reads := by
  have hUnary : expr.ReadsUnary := fun hFits stands hEnds =>
    (hChain hFits stands).unary (first_startsPrimary hLevel (.inr hFormed)) stands hEnds
  have hClimb : expr.ReadsClimb := ReadsUnary.climb hUnary (by omega)
  have hCoalesce : expr.ReadsCoalesce := ReadsClimb.coalesce hClimb (by omega)
  exact ⟨fun _ => @hChain, fun _ => @hUnary, fun _ => @hClimb, fun _ => @hCoalesce, ReadsCoalesce.any hCoalesce⟩

end Reads

theorem readsChain_typeWord (hWord : expr.isTypeWord = true) : expr.ReadsChain := by
  cases expr with
  | token kind => exact readsChain_token kind
  | _ => cases hWord

mutual

/-- Every formed tree is read where its level lets it stand. -/
theorem reads_of_formed {expr : OutExpr} (hFormed : expr.formed = true) : expr.Reads := by
  cases expr with
  | token kind => exact .of_chain (Nat.le_refl _) hFormed (readsChain_token kind)
  | qualified name => exact .of_chain (Nat.le_refl _) hFormed (readsChain_qualified name)
  | member target name =>
    have hParts := hFormed
    simp only [formed, and_eq_true, or_eq_true, decide_eq_true_eq] at hParts
    refine .of_chain (Nat.le_refl _) hFormed (readsChain_member ?_)
    rcases hParts.1 with hWord | hTarget
    · exact readsChain_typeWord hWord
    · exact (reads_of_formed hTarget.2).chain hTarget.1
  | index target args =>
    have hParts := hFormed
    simp only [formed, and_eq_true, decide_eq_true_eq] at hParts
    exact .of_chain (Nat.le_refl _) hFormed
      (readsChain_index ((reads_of_formed hParts.1.1.2).chain hParts.1.1.1) (reads_of_formedList hParts.2))
  | call callee args =>
    have hParts := hFormed
    simp only [formed, and_eq_true, or_eq_true, decide_eq_true_eq] at hParts
    refine .of_chain (Nat.le_refl _) hFormed (readsChain_call ?_ (reads_of_formedList hParts.2))
    rcases hParts.1 with hWord | hCallee
    · exact readsChain_typeWord hWord
    · exact (reads_of_formed hCallee.2).chain hCallee.1.1
  | unary op operand =>
    simp only [formed, and_eq_true, decide_eq_true_eq] at hFormed
    exact .of_unary rfl (readsUnary_unary ((reads_of_formed hFormed.1.2).unary hFormed.1.1))
  | post op operand =>
    have hParts := hFormed
    simp only [formed, and_eq_true, decide_eq_true_eq, bne_iff_ne] at hParts
    exact .of_chain (Nat.le_refl _) hFormed
      (readsChain_post hParts.1.1 ((reads_of_formed hParts.2).chain hParts.1.2))
  | binary op lhs rhs =>
    simp only [formed, and_eq_true, decide_eq_true_eq] at hFormed
    obtain ⟨⟨⟨hLeftLevel, hLeft⟩, hRightLevel⟩, hRight⟩ := hFormed
    have hLeftReads := reads_of_formed hLeft
    have hRightReads := reads_of_formed hRight
    -- `??` groups to the right and is read apart from the operators with a precedence.
    by_cases hOp : op = .coalesce
    · subst hOp
      exact .of_coalesce (by simp [level, BinaryOp.precedence]) (readsCoalesce_binary (hLeftReads.climb hLeftLevel)
        (hRightReads.coalesce hRightLevel) hLeftLevel)
    · have hLevels : leftLevel op = op.precedence + 2 ∧ rightLevel op = op.precedence + 3 ∧ 1 ≤ op.precedence ∧
          op.precedence ≤ 10 := by
        cases op <;> simp_all [leftLevel, rightLevel, BinaryOp.precedence]
      obtain ⟨hLeftEq, hRightEq, hLow, hHigh⟩ := hLevels
      have hClimb : (binary op lhs rhs).ReadsClimb := readsClimb_binary hOp (hLeftReads.climb (by omega))
        (hRightReads.climb (by omega)) (by omega) (by omega)
      exact .of_climb (by rw [level_binary]; omega) (by rw [level_binary]; omega) hClimb
  | assign op target val =>
    simp only [formed, and_eq_true, decide_eq_true_eq] at hFormed
    exact .of_any (by simp [level])
      (readsAny_assign ((reads_of_formed hFormed.1.2).coalesce hFormed.1.1) (reads_of_formed hFormed.2).any)
  | conditional cond thenExpr elseExpr =>
    simp only [formed, and_eq_true, decide_eq_true_eq] at hFormed
    obtain ⟨⟨⟨hLevel, hCond⟩, hThen⟩, hElse⟩ := hFormed
    exact .of_any (by simp [level]) (readsAny_conditional ((reads_of_formed hCond).coalesce hLevel)
      (reads_of_formed hThen).any (reads_of_formed hElse).any)
  | cast type operand =>
    simp only [formed, and_eq_true, decide_eq_true_eq] at hFormed
    exact .of_unary rfl (readsUnary_cast ((reads_of_formed hFormed.1.2).unary hFormed.1.1.2) hFormed.2)
  | paren inner =>
    have hParts := hFormed
    rw [formed] at hParts
    exact .of_chain (Nat.le_refl _) hFormed (readsChain_paren (reads_of_formed hParts).any)
  | braces items =>
    have hParts := hFormed
    rw [formed] at hParts
    exact .of_chain (Nat.le_refl _) hFormed (readsChain_braces (readsBraces (reads_of_formedItems hParts)))

theorem reads_of_formedList {items : List OutExpr} (hItems : formedList items = true) :
    ∀ item ∈ items, item.ReadsAny := by
  cases items with
  | nil => simp
  | cons item items =>
    rw [formedList, and_eq_true] at hItems
    exact forall_mem_cons.mpr ⟨(reads_of_formed hItems.1).any, reads_of_formedList hItems.2⟩

theorem reads_of_formedItems {items : List OutExpr} (hItems : formedItems items = true) :
    ∀ item ∈ items, item.ReadsItem := by
  cases items with
  | nil => simp
  | cons item items =>
    simp only [formedItems, and_eq_true, or_eq_true, bne_iff_ne] at hItems
    obtain ⟨⟨hItem, hBraces⟩, hRest⟩ := hItems
    refine forall_mem_cons.mpr ⟨?_, reads_of_formedItems hRest⟩
    -- A list in a list is read without entering a level, so it has no reading as an expression here.
    cases item with
    | braces inner =>
      rw [formed] at hItem
      exact readsItem_braces (readsBraces (reads_of_formedItems hItem))
    | _ => exact ReadsAny.item (reads_of_formed hItem).any rfl (hBraces.resolve_left Bool.false_ne_true)

end

/-! ## Whole texts -/

end OutExpr

namespace Mark

theorem dropWhile_append_done (marks : List Mark) :
    (marks ++ [Mark.done]).dropWhile inNames = marks.dropWhile inNames ++ [Mark.done] := by
  rw [dropWhile_append]
  split
  · rename_i hEmpty
    rw [List.isEmpty_iff.mp hEmpty]
    rfl
  · rfl

variable {mark : Mark} {marks : List Mark}

theorem exists_of_append_done {marks more : List Mark} (hEq : marks ++ [Mark.done] = mark :: more)
    (hMark : mark ≠ .done) : ∃ others, marks = mark :: others ∧ others ++ [Mark.done] = more := by
  cases marks with
  | nil => exact absurd (List.cons.inj hEq).1.symm hMark
  | cons first others =>
    obtain ⟨rfl, hMore⟩ := List.cons.inj hEq
    exact ⟨others, rfl, hMore⟩

theorem ne_done_of_opensParen (hParen : mark.opensParen = true) : mark ≠ .done := by
  rintro rfl
  cases hParen

/-- The end of the text does not complete type arguments. -/
theorem readsAsTypeArgs_append_done (hArgs : readsAsTypeArgs (marks ++ [Mark.done]) = true) :
    readsAsTypeArgs marks = true := by
  unfold readsAsTypeArgs at hArgs
  split at hArgs
  · rename_i rest hMarks
    obtain ⟨others, rfl, rfl⟩ := exists_of_append_done hMarks (by simp)
    rw [dropWhile_append_done] at hArgs
    rw [readsAsTypeArgs]
    split at hArgs
    · rename_i next tail hDrop
      obtain ⟨names, hNames, hTail⟩ := exists_of_append_done hDrop (by simp)
      obtain ⟨_, rfl, -⟩ := exists_of_append_done hTail (ne_done_of_opensParen hArgs)
      rw [hNames]
      exact hArgs
    · rename_i inner hDrop
      obtain ⟨names, hNames, rfl⟩ := exists_of_append_done hDrop (by simp)
      rw [dropWhile_append_done] at hArgs
      rw [hNames]
      split at hArgs
      · rename_i next tail hInner
        obtain ⟨first, hFirst, hTail⟩ := exists_of_append_done hInner (by simp)
        obtain ⟨second, rfl, hLast⟩ := exists_of_append_done hTail (by simp)
        obtain ⟨_, rfl, -⟩ := exists_of_append_done hLast (ne_done_of_opensParen hArgs)
        simp only [hFirst]
        exact hArgs
      · cases hArgs
    · cases hArgs
  · cases hArgs

theorem freeOfTypeArgs_append_done (hFree : freeOfTypeArgs marks = true) :
    freeOfTypeArgs (marks ++ [.done]) = true := by
  induction marks with
  | nil => rfl
  | cons mark marks ih =>
    rw [freeOfTypeArgs, and_eq_true, Bool.not_eq_true'] at hFree
    rw [cons_append, freeOfTypeArgs, and_eq_true, Bool.not_eq_true']
    refine ⟨?_, ih hFree.2⟩
    by_contra hArgs
    rw [Bool.not_eq_false, and_eq_true] at hArgs
    have hSame := hFree.1
    rw [hArgs.1, readsAsTypeArgs_append_done hArgs.2] at hSame
    cases hSame

end Mark

namespace OutExpr

theorem parse_text {expr : OutExpr} (hReadable : expr.Readable) :
    ∃ val, Expr.parse expr.text = .ok val ∧ Outlines val expr := by
  obtain ⟨toks, hToks, hSpelled⟩ := tokenize_text hReadable.formed hReadable.short
  have row : Row toks 0 (expr.marks ++ [.done]) :=
    { spelled := hSpelled
      linked := linked_marks hReadable.formed rfl (by simp) (isChain_singleton _)
      sound := by
        rw [all_append, sound_marks hReadable.formed]
        rfl
      free := freeOfTypeArgs_append_done hReadable.free
      nested := ⟨[], by rw [nested_marks]; rfl⟩
      ends := by simp }
  -- There are rounds for every level and every token.
  have hLength := row.length_eq
  have stands : Spot.Stands ⟨toks, maxNesting + toks.size + 2, 0⟩ ⟨0, 0⟩ (expr.marks ++ [.done]) :=
    ⟨row, rfl, by rw [hLength]; change _ < maxNesting + toks.size + 2 + 0; omega⟩
  have hShallow := hReadable.shallow
  obtain ⟨val, last, hRun, hVal, hLast⟩ := ReadsAny.entry (reads_of_formed hReadable.formed).any
    (show 0 + _ ≤ _ by omega) stands rfl
  have hEnd : (tokenAt toks last.pos).kind = .eof := hLast.row.kind_eq
  have hExpr : Parser.expr toks ⟨0, 0⟩ = .ok (val, last) := hRun
  have hWhole : Parser.whole Parser.expr toks ⟨0, 0⟩ = .ok (val, last) := by
    simp only [Parser.whole, bind_apply, hExpr, ok_bind, expectEnd, atEnd_apply, hEnd]
    rfl
  refine ⟨val, ?_, hVal⟩
  unfold Expr.parse Parser.run
  rw [hToks]
  change (Parser.whole Parser.expr toks ⟨0, 0⟩).bind _ = _
  rw [hWhole]
  rfl

/-! ## Trees that are lost -/

/-- Two minus signs that touch are a decrement. -/
theorem text_neg_neg (operand : OutExpr) : (unary .neg (unary .neg operand)).text = (unary .preDec operand).text := by
  simp [text, UnaryOp.spelling, ← String.append_assoc]

/-- An access to a cast is written like a cast of an access. -/
theorem text_index_cast (type : String) (operand : OutExpr) (args : List OutExpr) :
    (index (cast type operand) args).text = (cast type (index operand args)).text := by
  simp [text, String.append_assoc]

end OutExpr

open OutExpr

namespace Lower

/-- What reading back the text of a lowered expression gives. A readable tree is kept, and where the text is also
that of another readable tree, it is read as that tree and the lowered one is lost. -/
theorem parse_hinted (context : LowerContext) (hint : Option ValueType) (value : Expr) (state : Tracked Gathered) :
    ((tree context hint value state).1.Readable → ∃ result,
      Expr.parse (hinted context hint value state).1 = .ok result ∧
        Outlines result (tree context hint value state).1) ∧
    ∀ seen : OutExpr, seen.Readable → (tree context hint value state).1.text = seen.text →
      (tree context hint value state).1.unqualified ≠ seen.unqualified → ∃ result,
        Expr.parse (hinted context hint value state).1 = .ok result ∧ Outlines result seen ∧
          ¬ Outlines result (tree context hint value state).1 := by
  have hWritten : (hinted context hint value state).1 = (tree context hint value state).1.text := rfl
  rw [hWritten]
  refine ⟨parse_text, fun seen hSeen hText hOther => ?_⟩
  obtain ⟨result, hParse, hResult⟩ := parse_text hSeen
  exact ⟨result, by rw [hText, hParse], hResult, fun hLowered => hOther (hLowered.unique hResult)⟩

/-- Lowering in a shader without members. -/
def emptyContext : LowerContext where
  program :=
    { shader := ⟨⟨[], [], .struct, "Empty", [], [], none, Span.origin⟩, []⟩
      kind := .compute
      pixelType := none
      entry := none
      table := .empty
      index := ⟨[]⟩
      staticUsings := [] }
  model := default
  blank := .standard
  owner := "Empty"
  inEntry := true
  returnType := none

/-- A sum is kept, a negation of a negation becomes a decrement, and the cast of coordinates takes in an index. -/
theorem parse_hinted_emptyContext :
    (∃ result, Expr.parse "1 + 2 * -(3 - 4)" = .ok result ∧
      Outlines result (.binary .add (.int "1") (.binary .mul (.int "2")
        (.unary .neg (.paren (.binary .sub (.int "3") (.int "4"))))))) ∧
    (∃ result, Expr.parse "--1" = .ok result ∧ Outlines result (.unary .preDec (.int "1")) ∧
      ¬ Outlines result (.unary .neg (.unary .neg (.int "1")))) ∧
    ∃ result, Expr.parse "(int3)ThreadIds[0]" = .ok result ∧
      Outlines result (.cast "int3" (.index (.ident "ThreadIds") [.int "0"])) ∧
      ¬ Outlines result (.index (.cast "int3" (.ident "ThreadIds")) [.int "0"]) := by
  refine ⟨?_, ?_, ?_⟩
  · exact (parse_hinted emptyContext none (.binary Span.origin .add (.literal Span.origin (.int "1" 1 .none))
      (.binary Span.origin .mul (.literal Span.origin (.int "2" 2 .none)) (.unary Span.origin .neg
        (.paren Span.origin (.binary Span.origin .sub (.literal Span.origin (.int "3" 3 .none))
          (.literal Span.origin (.int "4" 4 .none))))))) (.start .empty .empty)).1 (by decide +kernel)
  · refine (parse_hinted emptyContext none (.unary Span.origin .neg (.unary Span.origin .neg
      (.literal Span.origin (.int "1" 1 .none)))) (.start .empty .empty)).2 (.unary .preDec (.int "1"))
      (by decide +kernel) (text_neg_neg _) fun hSame => ?_
    change OutExpr.unary .neg (.unary .neg (.int "1")) = .unary .preDec (.int "1") at hSame
    cases hSame
  · refine (parse_hinted emptyContext none (.index Span.origin (.ident Span.origin "ThreadIds")
      [⟨none, none, .literal Span.origin (.int "0" 0 .none)⟩]) (.start .empty .empty)).2
      (.cast "int3" (.index (.ident "ThreadIds") [.int "0"])) (by decide +kernel) (text_index_cast _ _ _) fun hSame => ?_
    change OutExpr.index (.cast "int3" (.ident "ThreadIds")) [.int "0"] =
      .cast "int3" (.index (.ident "ThreadIds") [.int "0"]) at hSame
    cases hSame

end Lower

end Shaderlift
