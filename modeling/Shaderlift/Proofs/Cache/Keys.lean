import Mathlib.Algebra.Group.Nat.Defs
import Shaderlift.Cache
import Shaderlift.Proofs.Config.Roundtrip

/-!
# Keys tell requests apart

The bytes under a key are those of three texts, each after the number of its bytes, so they can be cut apart again.
The last text is the JSON of the configuration, which is read back from it. Two requests with one key are therefore
the same, unless the digest itself collides.
-/

namespace Shaderlift

open List

theorem length_littleEndian (count val : Nat) : (littleEndian count val).length = count := by
  induction count generalizing val with
  | zero => rfl
  | succ count ih => simp [littleEndian, ih]

theorem littleEndian_inj {count first second : Nat} (hFirst : first < 256 ^ count) (hSecond : second < 256 ^ count)
    (hSame : littleEndian count first = littleEndian count second) : first = second := by
  induction count generalizing first second with
  | zero => omega
  | succ count ih =>
    obtain ⟨hLow, hHigh⟩ := List.cons.inj hSame
    have hByte : first % 256 = second % 256 := by simpa using congrArg UInt8.toNat hLow
    have hRest := ih (by omega) (by omega) hHigh
    omega

namespace Request

/-- A text is short enough for its length to be written in eight bytes. -/
def Fits (text : String) : Prop := text.utf8ByteSize < 2 ^ 64

variable {first second : String}

theorem eq_of_bytes_eq (hSame : first.toUTF8.data.toList = second.toUTF8.data.toList) :
    first = second :=
  String.toByteArray_inj.mp (ByteArray.ext (Array.toList_inj.mp hSame))

/-- A framed text ends where its number says, whatever follows. -/
theorem framed_append_inj (hFirst : Fits first) (hSecond : Fits second)
    {rest others : List UInt8} (hSame : framed first ++ rest = framed second ++ others) :
    first = second ∧ rest = others := by
  unfold framed at hSame
  dsimp only at hSame
  rw [append_assoc, append_assoc] at hSame
  obtain ⟨hNumber, hBytes⟩ := append_inj hSame (by rw [length_littleEndian, length_littleEndian])
  have hLength : first.toUTF8.data.toList.length = second.toUTF8.data.toList.length := by
    apply littleEndian_inj _ _ hNumber
    · simpa [Fits] using hFirst
    · simpa [Fits] using hSecond
  obtain ⟨hText, hRest⟩ := append_inj hBytes hLength
  exact ⟨eq_of_bytes_eq hText, hRest⟩

/-- The bytes under a key belong to one request, so two requests with one key are told apart by bytes with one
digest. -/
theorem bytes_separate (first second : Request) (hFirst : Fits first.typeName ∧ Fits first.source)
    (hSecond : Fits second.typeName ∧ Fits second.source) :
    (first.bytes = second.bytes → first = second) ∧
      (first.key = second.key → first ≠ second →
        first.bytes ≠ second.bytes ∧ Digest.ofBytes first.bytes = Digest.ofBytes second.bytes) := by
  have hSeparate : first.bytes = second.bytes → first = second := by
    intro hBytes
    unfold bytes at hBytes
    rw [append_assoc, append_assoc] at hBytes
    obtain ⟨hName, hRest⟩ := framed_append_inj hFirst.1 hSecond.1 hBytes
    obtain ⟨hSource, hFramed⟩ := framed_append_inj hFirst.2 hSecond.2 hRest
    -- The configuration is the last part, so its length does not matter.
    have hJson : first.config.toJson.compact = second.config.toJson.compact := by
      unfold framed at hFramed
      exact eq_of_bytes_eq (append_inj hFramed (by rw [length_littleEndian, length_littleEndian])).2
    have hConfig : first.config = second.config := by
      have hRead := Config.read_compact first.config
      rw [hJson, Config.read_compact] at hRead
      exact (Option.some.inj hRead).symm
    cases first
    cases second
    simp_all
  exact ⟨hSeparate, fun hKey hNe => ⟨fun hBytes => hNe (hSeparate hBytes), hKey⟩⟩

/-- Two requests whose texts are the same when they are joined without their lengths. -/
theorem bytes_separate_shifted :
    let first : Request := ⟨"ab", "c", .unspecified⟩
    let second : Request := ⟨"a", "bc", .unspecified⟩
    (Fits first.typeName ∧ Fits first.source) ∧ (Fits second.typeName ∧ Fits second.source) ∧
      first.bytes ≠ second.bytes := by
  intro first second
  have hFirst : Fits first.typeName ∧ Fits first.source := ⟨by unfold Fits; decide, by unfold Fits; decide⟩
  have hSecond : Fits second.typeName ∧ Fits second.source := ⟨by unfold Fits; decide, by unfold Fits; decide⟩
  refine ⟨hFirst, hSecond, fun hBytes => ?_⟩
  have hSame := (bytes_separate first second hFirst hSecond).1 hBytes
  exact absurd (congrArg Request.typeName hSame) (by decide)

end Request

end Shaderlift
