import Mathlib.Data.List.Sort
import Mathlib.Tactic.Tauto
import Shaderlift.Proofs.Gate

/-!
# The order of a report

Sorting brings a report into one form: two reports that hold the same diagnostics, found in any order and any
number of times, are the same list once sorted. Repetitions are dropped only next to each other, so this rests
on the comparison telling apart all that differs.
-/

namespace Shaderlift

open List

namespace Span

/-- A span comes before another by line, then column, then start, then end. -/
def Precedes (a b : Span) : Prop :=
  a.line < b.line ∨ a.line = b.line ∧ (a.column < b.column ∨ a.column = b.column ∧
    (a.start < b.start ∨ a.start = b.start ∧ a.stop < b.stop))

instance : Ord Span := ⟨Span.compare⟩

instance : Std.TransOrd Span :=
  inferInstanceAs (Std.TransCmp (compareLex (compareOn line) (compareLex (compareOn column)
    (compareLex (compareOn start) (compareOn stop)))))

theorem compare_eq_lt {a b : Span} : a.compare b = .lt ↔ a.Precedes b := by
  simp only [compare, Precedes, Ordering.then_eq_lt, Nat.compare_eq_lt, Nat.compare_eq_eq]

theorem compare_eq_eq {a b : Span} : a.compare b = .eq ↔ a = b := by
  cases a
  cases b
  simp only [compare, Ordering.then_eq_eq, Nat.compare_eq_eq, mk.injEq]

end Span

/-- The number of a rule names it. -/
theorem Rule.find_number (rule : Rule) : Rule.all.find? (·.number == rule.number) = some rule := by
  cases rule <;> rfl

theorem Rule.number_inj {a b : Rule} : a.number = b.number ↔ a = b := by
  refine ⟨fun hNumber => ?_, congrArg number⟩
  have hFound := find_number a
  rw [hNumber, find_number b] at hFound
  exact (Option.some.inj hFound).symm

namespace Diagnostic

variable {a b : Diagnostic}

/-- A place comes before another; what has no place comes before every place. -/
def PlacePrecedes : Option Span → Option Span → Prop
  | none, later => later.isSome
  | some _, none => False
  | some a, some b => a.Precedes b

/-- A diagnostic comes before another by place, then rule, then message. -/
def Precedes (a b : Diagnostic) : Prop :=
  PlacePrecedes a.span b.span ∨ a.span = b.span ∧
    (a.rule.number < b.rule.number ∨ a.rule = b.rule ∧ a.message < b.message)

theorem compareSpan_eq_lt {a b : Option Span} : compareSpan a b = .lt ↔ PlacePrecedes a b := by
  cases a <;> cases b <;> simp [compareSpan, PlacePrecedes, Span.compare_eq_lt]

theorem compareSpan_eq_eq {a b : Option Span} : compareSpan a b = .eq ↔ a = b := by
  cases a <;> cases b <;> simp [compareSpan, Span.compare_eq_eq]

theorem compare_eq_lt : a.compare b = .lt ↔ a.Precedes b := by
  have hMessage : Ord.compare a.message b.message = .lt ↔ a.message < b.message := compareOfLessAndEq_eq_lt
  simp only [compare, Precedes, Ordering.then_eq_lt, compareSpan_eq_lt, compareSpan_eq_eq, Nat.compare_eq_lt,
    Nat.compare_eq_eq, Rule.number_inj, hMessage]

/-- The comparison tells apart all that differs. -/
theorem compare_eq_eq : a.compare b = .eq ↔ a = b := by
  cases a
  cases b
  simp only [compare, Ordering.then_eq_eq, compareSpan_eq_eq, Rule.number_inj, Std.LawfulEqOrd.compare_eq_iff_eq,
    mk.injEq]
  tauto

instance : Std.TransCmp Diagnostic.compare := by
  have hLex : Diagnostic.compare = compareLex (compareOn span)
      (compareLex (compareOn (·.rule.number)) (compareOn message)) := by
    funext a b
    have hPlace : compareSpan a.span b.span = Ord.compare a.span b.span := by
      cases a.span <;> cases b.span <;> rfl
    exact congrArg (Ordering.then · _) hPlace
  rw [hLex]
  infer_instance

end Diagnostic

namespace Report

open Diagnostic

/-- What stands next to each other in a list without repetitions of neighbours is ordered strictly. -/
theorem pairwise_dropRepeats {report : Report} (hSorted : report.Pairwise fun a b => a.compare b ≠ .gt) :
    (dropRepeats report).Pairwise Precedes := by
  induction report with
  | nil => exact .nil
  | cons first rest ih =>
    obtain ⟨hFirst, hRest⟩ := pairwise_cons.mp hSorted
    have hTail := ih hRest
    have hMembers : ∀ later ∈ dropRepeats rest, first.compare later ≠ .gt := fun later hLater =>
      hFirst later (mem_dropRepeats.mp hLater)
    unfold dropRepeats
    cases hDrop : dropRepeats rest with
    | nil => exact pairwise_singleton ..
    | cons second others =>
      rw [hDrop] at hTail hMembers
      dsimp only
      split
      · exact hTail
      · rename_i hNew
        -- `first` is at most `second` and differs from it, and everything else follows `second`.
        have hNext : first.compare second = .lt := by
          cases hCompare : first.compare second with
          | lt => rfl
          | eq => exact absurd (compare_eq_eq.mp hCompare) hNew
          | gt => exact absurd hCompare (hMembers second mem_cons_self)
        refine pairwise_cons.mpr ⟨forall_mem_cons.mpr ⟨compare_eq_lt.mp hNext, fun later hOthers => ?_⟩, hTail⟩
        have hAfter := compare_eq_lt.mpr ((pairwise_cons.mp hTail).1 later hOthers)
        exact compare_eq_lt.mp (Std.TransCmp.lt_trans hNext hAfter)

theorem pairwise_sorted (report : Report) : report.sorted.Pairwise Precedes := by
  refine pairwise_dropRepeats ((pairwise_mergeSort ?_ ?_ report).imp fun h => by simpa using h)
  · intro a b c hFirst hSecond
    simp only [bne_iff_ne, ← Ordering.isLE_iff_ne_gt] at hFirst hSecond ⊢
    exact Std.TransCmp.isLE_trans hFirst hSecond
  · intro a b
    cases hCompare : a.compare b with
    | lt | eq => rfl
    | gt => simp [Std.OrientedCmp.gt_iff_lt.mp hCompare]

theorem mem_sorted {report : Report} {diagnostic : Diagnostic} : diagnostic ∈ report.sorted ↔ diagnostic ∈ report := by
  rw [sorted, mem_dropRepeats, mem_mergeSort]

theorem nodup_sorted (report : Report) : report.sorted.Nodup :=
  (pairwise_sorted report).imp fun hBefore hEqual => by
    have hLess := compare_eq_lt.mpr hBefore
    rw [compare_eq_eq.mpr hEqual] at hLess
    cases hLess

theorem sorted_eq_of_mem_iff {first second : Report} (hSame : ∀ diagnostic, diagnostic ∈ first ↔ diagnostic ∈ second) :
    first.sorted = second.sorted := by
  refine List.Perm.eq_of_pairwise (fun a b _ _ hBefore hAfter => ?_) (pairwise_sorted first) (pairwise_sorted second) ?_
  · have hLess := Std.TransCmp.lt_trans (compare_eq_lt.mpr hBefore) (compare_eq_lt.mpr hAfter)
    rw [compare_eq_eq.mpr rfl] at hLess
    cases hLess
  · refine (perm_ext_iff_of_nodup (nodup_sorted first) (nodup_sorted second)).mpr fun diagnostic => ?_
    rw [mem_sorted, mem_sorted, hSame]

/-- **Sorting a report is canonical.** The sorted report depends only on which diagnostics the report holds. It
holds exactly these, none of them twice, in the order of place, rule and message, and is its own sorted form. -/
theorem sorted_canonical (report : Report) :
    (∀ other : Report, (∀ diagnostic, diagnostic ∈ other ↔ diagnostic ∈ report) → other.sorted = report.sorted) ∧
    (∀ diagnostic, diagnostic ∈ report.sorted ↔ diagnostic ∈ report) ∧
    report.sorted.Nodup ∧ report.sorted.Pairwise Precedes ∧ report.sorted.sorted = report.sorted :=
  ⟨fun _ => sorted_eq_of_mem_iff, fun _ => mem_sorted, nodup_sorted report, pairwise_sorted report,
   sorted_eq_of_mem_iff fun _ => mem_sorted⟩

end Report

end Shaderlift
