import Shaderlift.Proofs.Reading.Roundtrip

/-!
# Nesting that is not counted

Reading the right operand of `??` or a list in braces inside another one takes no level of nesting. So the limit on
nesting does not bound such chains: they are read at every length that fits into a text.
-/

namespace Shaderlift

open List

theorem Mark.freeOfTypeArgs_of_not_mem {marks : List Mark} (hMarks : .between .lt ∉ marks) :
    freeOfTypeArgs marks = true := by
  induction marks with
  | nil => rfl
  | cons mark rest ih =>
    rw [mem_cons, not_or] at hMarks
    have hArgs : readsAsTypeArgs rest = false := by
      unfold readsAsTypeArgs
      split
      · exact absurd mem_cons_self hMarks.2
      · rfl
    rw [freeOfTypeArgs, hArgs, Bool.and_false, ih hMarks.2]
    rfl

namespace OutExpr

/-- Join leaves by `??`, which groups to the right. -/
def coalesced (kinds : List TokenKind) (last : TokenKind) : OutExpr :=
  kinds.foldr (fun kind => .binary .coalesce (.token kind)) (.token last)

/-- Put a number of braces around an expression. -/
def braced : Nat → OutExpr → OutExpr
  | 0, inner => inner
  | count + 1, inner => .braces [braced count inner]

/-- A tree that reading takes only the level of its operands for, and one more if they stand in braces. -/
structure IsFlat (expr : OutExpr) : Prop where
  formed : expr.formed = true
  plain : .between .lt ∉ expr.marks
  shallow : expr.isBraces = true ∧ expr.depth ≤ 2 ∨
    expr.isBraces = false ∧ expr.first ≠ .opens .braces ∧ 2 ≤ expr.level ∧ expr.reach ≤ 1

theorem isFlat_coalesced {kinds : List TokenKind} {last : TokenKind}
    (hLeaves : ∀ kind ∈ last :: kinds, kind.isLeaf = true) : (coalesced kinds last).IsFlat := by
  induction kinds with
  | nil =>
    exact
      { formed := hLeaves last mem_cons_self
        plain := by simp [coalesced, marks]
        shallow := .inr (by simp [coalesced, isBraces, first, reach, reachOf, level, depth]) }
  | cons kind rest ih =>
    have hRest := ih fun other hOther => hLeaves other (by grind)
    have hKind := hLeaves kind (by simp)
    rcases hRest.shallow with ⟨hBraces, -⟩ | ⟨-, -, hLevel, hReach⟩
    · cases rest <;> cases hBraces
    · have hChain : coalesced (kind :: rest) last = .binary .coalesce (.token kind) (coalesced rest last) := rfl
      rw [hChain]
      refine ⟨?_, ?_, .inr ⟨rfl, Mark.noConfusion, Nat.le_refl 2, ?_⟩⟩
      · simp [formed, leftLevel, rightLevel, show (token kind).level = 14 from rfl, hKind, hLevel, hRest.formed]
      · simpa [marks, BinaryOp.marks] using hRest.plain
      · rw [reach_binary]
        exact max_le (Nat.le_refl 1) hReach

theorem isFlat_braced {inner : OutExpr} (hFlat : inner.IsFlat) (count : Nat) : (braced count inner).IsFlat := by
  induction count with
  | zero => exact hFlat
  | succ count ih =>
    obtain ⟨hFormed, hPlain, hShallow⟩ := ih
    refine ⟨?_, ?_, .inl ⟨rfl, ?_⟩⟩
    · simp only [braced, formed, formedItems]
      grind
    · simpa [braced, marks, listMarks] using hPlain
    · simp only [braced, depth, depthItems]
      grind [reach]

/-- The limit on nesting does not bound the operands of `??` or lists in braces: leaves that are joined by `??`, inside
any number of braces, are read as such if the text is not too long. -/
theorem parse_uncounted (count : Nat) {kinds : List TokenKind} {last : TokenKind}
    (hLeaves : ∀ kind ∈ last :: kinds, kind.isLeaf = true)
    (hShort : (braced count (coalesced kinds last)).text.utf8ByteSize ≤ maxSourceBytes) :
    ∃ value, Expr.parse (braced count (coalesced kinds last)).text = .ok value ∧
      Outlines value (braced count (coalesced kinds last)) := by
  have hFlat := isFlat_braced (isFlat_coalesced hLeaves) count
  refine parse_text ⟨hFlat.formed, Mark.freeOfTypeArgs_of_not_mem hFlat.plain, ?_, hShort⟩
  rcases hFlat.shallow with ⟨-, hDepth⟩ | ⟨-, -, -, hReach⟩
  · unfold reach reachOf maxNesting
    grind
  · exact hReach.trans_lt (by decide)

/-- A chain that is longer than the limit on nesting. -/
theorem parse_uncounted_beyond :
    maxNesting < 201 ∧ ∃ value,
      Expr.parse (braced 1 (coalesced (List.replicate 201 (.ident "a")) (.ident "a"))).text = .ok value ∧
        Outlines value (braced 1 (coalesced (List.replicate 201 (.ident "a")) (.ident "a"))) :=
  ⟨by decide, parse_uncounted 1 (by decide +kernel) (by decide +kernel)⟩

end OutExpr

end Shaderlift
