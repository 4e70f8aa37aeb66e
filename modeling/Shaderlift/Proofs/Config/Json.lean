import Shaderlift.Json.Reader
import Shaderlift.Json.Writer
import Shaderlift.Proofs.Layout.Alignment

/-!
# Reading what has been written as JSON

A value whose numbers are natural is read back from its compact text (`read_compact`). A number ends where something
else follows it, so the reader is followed through the writer with the text after each value in hand (`Follows`).
-/

namespace Shaderlift.Json

open List

/-! ## Texts -/

theorem hexDigit?_hexDigit (n : Nat) : hexDigit? (hexDigit n) = some (n % 16) := by
  have hAll : ∀ digit < 16, hexDigit? (Nat.digitChar digit) = some digit := by decide
  exact hAll _ (Nat.mod_lt n (by decide))

theorem readPoint_control {code : Nat} (hCode : code < 0x20) (rest : List Char) :
    readPoint ('0' :: '0' :: hexDigit (code / 16) :: hexDigit code :: rest) = some (some (Char.ofNat code), rest) := by
  have hUnit : readUnit ('0' :: '0' :: hexDigit (code / 16) :: hexDigit code :: rest) = some (code, rest) := by
    have hZero : hexDigit? '0' = some 0 := by decide
    have hVal : code / 16 % 16 * 16 + code % 16 = code := by omega
    simp [readUnit, hexDigit?_hexDigit, hZero, hVal]
  have hLead : isLead code = false := by simp [isLead]; omega
  have hTrail : isTrail code = false := by simp [isTrail]; omega
  simp [readPoint, hUnit, hLead, hTrail]

theorem readText_escapeChar (fuel : Nat) (chars : List Char) (c : Char) (rest : List Char) :
    readText (fuel + 1) (some chars) (escapeChar c ++ rest) = readText fuel (some (c :: chars)) rest := by
  unfold escapeChar
  iterate 7
    split
    · simp_all [readText, shortEscape?]
  split
  · rename_i hControl
    simp [readText, readPoint_control hControl]
  · rename_i hPlain
    simp_all [readText, Nat.not_lt.mpr]

theorem readText_escaped (text tail : List Char) {fuel : Nat} (hFuel : text.length < fuel) (chars : List Char) :
    readText fuel (some chars) (text.foldr (fun c after => escapeChar c ++ after) ('"' :: tail)) =
      some (some (String.ofList (chars.reverse ++ text)), tail) := by
  obtain ⟨fuel, rfl⟩ : ∃ less, fuel = less + 1 := ⟨fuel - 1, by omega⟩
  induction text generalizing fuel chars with
  | nil => simp [readText]
  | cons c text ih =>
    obtain ⟨less, rfl⟩ : ∃ less, fuel = less + 1 := ⟨fuel - 1, by rw [length_cons] at hFuel; omega⟩
    rw [foldr_cons, readText_escapeChar, ih (c :: chars) less (by simpa using hFuel)]
    simp

theorem length_le_escaped (text tail : List Char) :
    text.length + tail.length < (text.foldr (fun c after => escapeChar c ++ after) ('"' :: tail)).length := by
  induction text with
  | nil => simp
  | cons c text ih =>
    have hChar : 0 < (escapeChar c).length := by
      unfold escapeChar
      repeat' split
      all_goals simp
    rw [foldr_cons, length_append, length_cons]
    omega

theorem readQuoted_writeText (text : String) (tail : List Char) :
    ∃ rest, writeText text tail = '"' :: rest ∧ readQuoted rest = some (some text, tail) ∧ tail.length < rest.length := by
  have hLength := length_le_escaped text.toList tail
  refine ⟨_, rfl, ?_, by omega⟩
  rw [readQuoted, readText_escaped _ _ (by omega)]
  simp

/-! ## Numbers -/

def Follows (tail : List Char) : Prop := ∀ c ∈ tail.head?, c = ',' ∨ c = ']' ∨ c = '}'

variable {tail : List Char} {json : Json} {α : Type}

theorem Follows.skipGaps (hTail : Follows tail) : skipGaps tail = tail := by
  cases tail with
  | nil => rfl
  | cons c rest => rcases hTail c rfl with rfl | rfl | rfl <;> rfl

theorem follows_cons {c : Char} (hMark : c = ',' ∨ c = ']' ∨ c = '}') (rest : List Char) : Follows (c :: rest) := by
  intro first hFirst
  cases hFirst
  exact hMark

/-- No number but zero starts with the digit zero. -/
theorem toDigits_ne_zero_cons (n : Nat) (c : Char) (digits : List Char) : Nat.toDigits 10 n ≠ '0' :: c :: digits := by
  induction n using Nat.strongRecOn generalizing c digits with
  | ind n ih =>
    rcases Nat.lt_or_ge n 10 with hSmall | hLarge
    · rw [Nat.toDigits_of_lt_base hSmall]
      simp
    · rw [Nat.toDigits_of_base_le (by decide) hLarge]
      intro hDigits
      cases hFirst : Nat.toDigits 10 (n / 10) with
      | nil => exact Nat.toDigits_ne_nil hFirst
      | cons first more =>
        rw [hFirst, cons_append] at hDigits
        obtain ⟨rfl, hMore⟩ := List.cons.inj hDigits
        cases more with
        | cons second more => exact ih (n / 10) (by omega) second more hFirst
        | nil =>
          -- The rest of the number would be zero.
          have hVal := @Nat.ofDigitChars_ten_toDigits (n / 10)
          rw [hFirst] at hVal
          have hZero : n / 10 = 0 := hVal.symm
          omega

theorem toDigits_eq_cons (n : Nat) : ∃ c digits, Nat.toDigits 10 n = c :: digits ∧ c.isDigit = true := by
  cases hList : Nat.toDigits 10 n with
  | nil => exact absurd hList Nat.toDigits_ne_nil
  | cons c digits =>
    exact ⟨c, digits, rfl, Nat.isDigit_of_mem_toDigits (b := 10) (n := n) (by decide) (by decide) (by simp [hList])⟩

theorem readNumber_toDigits (n : Nat) (hTail : Follows tail) :
    readNumber (Nat.toDigits 10 n ++ tail) = some (.int n, tail) := by
  obtain ⟨hTake, hDrop⟩ := FieldLayout.span_digits n tail fun c hMark => by
    rcases hTail c hMark with rfl | rfl | rfl <;> rfl
  obtain ⟨first, others, hList, hDigit⟩ := toDigits_eq_cons n
  have hDigits : readDigits (Nat.toDigits 10 n ++ tail) = some (Nat.toDigits 10 n, tail) := by
    rw [readDigits, hTake, hDrop, hList]
  have hWhole : readWhole (Nat.toDigits 10 n ++ tail) = some (Nat.toDigits 10 n, tail) := by
    rw [readWhole, hDigits]
    simp only [Option.bind_eq_bind, Option.bind_some]
    split
    · rename_i c digits hZero
      exact absurd hZero (toDigits_ne_zero_cons n c digits)
    · rfl
  have hPlain : readFraction tail = some ([], tail) ∧ readExponent tail = some ([], tail) := by
    cases tail with
    | nil => exact ⟨rfl, rfl⟩
    | cons c rest => rcases hTail c rfl with rfl | rfl | rfl <;> exact ⟨rfl, rfl⟩
  have hVal : digitsValue (Nat.toDigits 10 n) = n := by
    have hSame := @Nat.ofDigitChars_ten_toDigits n
    simpa only [digitsValue, Nat.ofDigitChars, Nat.mul_comm] using hSame
  have hSign : first ≠ '-' := by
    rintro rfl
    cases hDigit
  rw [hList, cons_append] at hWhole ⊢
  rw [hList] at hVal
  simp [readNumber, hSign, hWhole, hPlain.1, hPlain.2, hVal]

/-! ## Values -/

mutual

/-- Decide whether the numbers of a value are natural and its texts stand for characters. -/
def isPlain : Json → Bool
  | .int val => 0 ≤ val
  | .real _ | .illFormed => false
  | .arr items => plainItems items
  | .obj members => plainMembers members
  | .null | .bool _ | .str _ => true

def plainItems : List Json → Bool
  | [] => true
  | item :: rest => item.isPlain && plainItems rest

def plainMembers : List (String × Json) → Bool
  | [] => true
  | (_, val) :: rest => val.isPlain && plainMembers rest

end

theorem writeOnto_nat (n : Nat) (tail : List Char) : writeOnto (.int n) tail = Nat.toDigits 10 n ++ tail := by
  have hText : (toString (n : Int)).toList = Nat.toDigits 10 n := Nat.toList_repr
  rw [← hText]
  unfold writeOnto
  rfl

/-- A plain value starts with a character that is no blank and does not end an array. -/
theorem writeOnto_eq_cons (hPlain : json.isPlain = true) (tail : List Char) :
    ∃ c rest, writeOnto json tail = c :: rest ∧ isGap c = false ∧ c ≠ ']' := by
  cases json with
  | null | str | arr | obj =>
    unfold writeOnto
    exact ⟨_, _, rfl, by decide, by decide⟩
  | bool val =>
    unfold writeOnto
    cases val <;> exact ⟨_, _, rfl, by decide, by decide⟩
  | real | illFormed => simp [isPlain] at hPlain
  | int val =>
    obtain ⟨n, rfl⟩ := Int.eq_ofNat_of_zero_le (by simpa [isPlain] using hPlain)
    obtain ⟨c, digits, hList, hDigit⟩ := toDigits_eq_cons n
    refine ⟨c, _, by rw [writeOnto_nat, hList, cons_append], ?_, ?_⟩
    · cases hGap : isGap c with
      | false => rfl
      | true =>
        simp only [isGap, Bool.or_eq_true, beq_iff_eq] at hGap
        rcases hGap with ((rfl | rfl) | rfl) | rfl <;> cases hDigit
    · rintro rfl
      cases hDigit

theorem skipGaps_writeOnto (hPlain : json.isPlain = true) (tail : List Char) :
    skipGaps (writeOnto json tail) = writeOnto json tail := by
  obtain ⟨c, rest, hText, hGap, -⟩ := writeOnto_eq_cons hPlain tail
  rw [hText, skipGaps, dropWhile_cons_of_neg (by simp [hGap])]

/-- What stands after an item or a member: a comma and the rest of them, or the end. -/
def restOnto {α : Type} (write : List α → List Char → List Char) (tail : List Char) (rest : List α) : List Char :=
  if rest.isEmpty then tail else ',' :: write rest tail

theorem writeItems_cons (item : Json) (rest : List Json) (tail : List Char) :
    writeItems (item :: rest) tail = writeOnto item (restOnto writeItems tail rest) := by
  cases rest <;> simp [writeItems, restOnto]

theorem writeMembers_cons (name : String) (val : Json) (rest : List (String × Json)) (tail : List Char) :
    writeMembers ((name, val) :: rest) tail =
      writeText name (':' :: writeOnto val (restOnto writeMembers tail rest)) := by
  cases rest <;> simp [writeMembers, restOnto]

/-- A value is read from its text, which is not empty, on fuel for twice its length. -/
def Reads (json : Json) : Prop :=
  ∀ tail, tail.length < (writeOnto json tail).length ∧
    ∀ fuel, Follows tail → 2 * (writeOnto json tail).length ≤ fuel + 2 * tail.length →
      readValue fuel (writeOnto json tail) = some (json, tail)

def ReadsItems (items : List Json) : Prop :=
  ∀ tail, tail.length ≤ (writeItems items tail).length ∧
    ∀ fuel done after, items ≠ [] → tail = ']' :: after →
      2 * (writeItems items tail).length < fuel + 2 * tail.length →
        readItems fuel done (writeItems items tail) = some (done.reverse ++ items, after)

def ReadsMembers (members : List (String × Json)) : Prop :=
  ∀ tail, tail.length ≤ (writeMembers members tail).length ∧
    ∀ fuel done after, members ≠ [] → tail = '}' :: after →
      2 * (writeMembers members tail).length < fuel + 2 * tail.length →
        readMembers fuel done (writeMembers members tail) =
          some (done.reverse ++ members.map fun entry => (some entry.1, entry.2), after)

theorem reads_of_atom {text : List Char} (hText : ∀ tail, writeOnto json tail = text ++ tail)
    (hLength : 0 < text.length)
    (hRead : ∀ fuel tail, Follows tail → readValue (fuel + 1) (text ++ tail) = some (json, tail)) : json.Reads := by
  intro tail
  rw [hText, length_append]
  refine ⟨by omega, fun fuel hTail hFuel => ?_⟩
  obtain ⟨less, rfl⟩ : ∃ less, fuel = less + 1 := ⟨fuel - 1, by omega⟩
  exact hRead less tail hTail

theorem reads_nat (n : Nat) : (Json.int n).Reads := by
  obtain ⟨c, digits, hList, hDigit⟩ := toDigits_eq_cons n
  refine reads_of_atom (writeOnto_nat n) (by simp [hList]) fun fuel tail hTail => ?_
  have hPlain : (Json.int n).isPlain = true := by simp [isPlain]
  have hSkip := skipGaps_writeOnto hPlain tail
  have hNumber := readNumber_toDigits n hTail
  have hNot : ∀ other : Char, other.isDigit = false → c ≠ other := by
    rintro other hOther rfl
    rw [hDigit] at hOther
    cases hOther
  rw [writeOnto_nat] at hSkip
  rw [hList, cons_append] at hSkip hNumber ⊢
  simp [readValue, hSkip, hNumber, hNot '"' rfl, hNot '[' rfl, hNot '\x7b' rfl, hNot 't' rfl, hNot 'f' rfl, hNot 'n' rfl]

theorem reads_str (text : String) : (Json.str text).Reads := by
  intro tail
  obtain ⟨rest, hText, hRead, hLength⟩ := readQuoted_writeText text tail
  have hWrite : writeOnto (.str text) tail = '"' :: rest := by
    rw [← hText]
    unfold writeOnto
    rfl
  rw [hWrite, length_cons]
  refine ⟨by omega, fun fuel _ hFuel => ?_⟩
  obtain ⟨less, rfl⟩ : ∃ less, fuel = less + 1 := ⟨fuel - 1, by omega⟩
  have hSkip : skipGaps ('"' :: rest) = '"' :: rest := rfl
  simp [readValue, hSkip, hRead]

theorem follows_restOnto {write : List α → List Char → List Char} (hTail : Follows tail)
    (rest : List α) : Follows (restOnto write tail rest) := by
  unfold restOnto
  split
  · exact hTail
  · exact follows_cons (.inl rfl) _

theorem length_le_restOnto {write : List α → List Char → List Char} {rest : List α}
    (hLonger : tail.length ≤ (write rest tail).length) : tail.length ≤ (restOnto write tail rest).length := by
  unfold restOnto
  split
  · exact Nat.le_refl _
  · rw [length_cons]
    omega

theorem readsItems_cons {item : Json} {rest : List Json} (hItem : item.Reads) (hRest : ReadsItems rest) : ReadsItems (item :: rest) := by
  intro tail
  obtain ⟨hLonger, hReads⟩ := hRest tail
  obtain ⟨hLength, hRead⟩ := hItem (restOnto writeItems tail rest)
  have hOnto := length_le_restOnto hLonger
  rw [writeItems_cons]
  refine ⟨by omega, fun fuel done after _ hTail hFuel => ?_⟩
  have hFollows : Follows tail := hTail ▸ follows_cons (.inr (.inl rfl)) after
  obtain ⟨less, rfl⟩ : ∃ less, fuel = less + 1 := ⟨fuel - 1, by omega⟩
  rw [readItems, hRead less (follows_restOnto hFollows rest) (by omega)]
  simp only [Option.bind_eq_bind, Option.bind_some, (follows_restOnto hFollows rest).skipGaps]
  cases rest with
  | nil => simp [restOnto, hTail]
  | cons second more =>
    have hMore := hReads less (item :: done) after (by simp) hTail
    simp only [restOnto, isEmpty_cons, Bool.false_eq_true, if_false, length_cons] at hLength hFuel ⊢
    rw [hMore (by omega)]
    simp

theorem readsMembers_cons {name : String} {val : Json} {rest : List (String × Json)} (hVal : val.Reads)
    (hRest : ReadsMembers rest) : ReadsMembers ((name, val) :: rest) := by
  intro tail
  obtain ⟨hLonger, hReads⟩ := hRest tail
  obtain ⟨hLength, hRead⟩ := hVal (restOnto writeMembers tail rest)
  have hOnto := length_le_restOnto hLonger
  obtain ⟨text, hText, hName, hAfter⟩ :=
    readQuoted_writeText name (':' :: writeOnto val (restOnto writeMembers tail rest))
  rw [writeMembers_cons, hText]
  simp only [length_cons] at hAfter ⊢
  refine ⟨by omega, fun fuel done after _ hTail hFuel => ?_⟩
  have hFollows : Follows tail := hTail ▸ follows_cons (.inr (.inr rfl)) after
  have hQuote : skipGaps ('"' :: text) = '"' :: text := rfl
  have hColon : ∀ after, skipGaps (':' :: after) = ':' :: after := fun _ => rfl
  obtain ⟨less, rfl⟩ : ∃ less, fuel = less + 1 := ⟨fuel - 1, by omega⟩
  simp only [readMembers, hQuote, hName, Option.bind_eq_bind, Option.bind_some, hColon,
    hRead less (follows_restOnto hFollows rest) (by omega), (follows_restOnto hFollows rest).skipGaps]
  cases rest with
  | nil => simp [restOnto, hTail]
  | cons second more =>
    have hMore := hReads less ((some name, val) :: done) after (by simp) hTail
    simp only [restOnto, isEmpty_cons, Bool.false_eq_true, if_false, length_cons] at hLength hAfter ⊢
    rw [hMore (by omega)]
    simp

theorem reads_arr {items : List Json} (hPlain : plainItems items = true) (hItems : ReadsItems items) :
    (Json.arr items).Reads := by
  intro tail
  obtain ⟨hLength, hRead⟩ := hItems (']' :: tail)
  have hWrite : writeOnto (.arr items) tail = '[' :: writeItems items (']' :: tail) := by unfold writeOnto; rfl
  have hOpen : ∀ text, skipGaps ('[' :: text) = '[' :: text := fun _ => rfl
  rw [hWrite]
  simp only [length_cons] at hLength ⊢
  refine ⟨by omega, fun fuel _ hFuel => ?_⟩
  obtain ⟨less, rfl⟩ : ∃ less, fuel = less + 1 := ⟨fuel - 1, by omega⟩
  cases items with
  | nil => simp [readValue, hOpen, writeItems, (follows_cons (.inr (.inl rfl)) tail).skipGaps]
  | cons item rest =>
    obtain ⟨hItem, -⟩ := Bool.and_eq_true_iff.mp (plainItems.eq_2 item rest ▸ hPlain)
    have hText := writeItems_cons item rest (']' :: tail)
    have hSkip := skipGaps_writeOnto hItem (restOnto writeItems (']' :: tail) rest)
    obtain ⟨c, others, hCons, -, hOther⟩ := writeOnto_eq_cons hItem (restOnto writeItems (']' :: tail) rest)
    have hInside := hRead less [] tail (by simp) rfl (by simp only [length_cons]; omega)
    rw [hText, hCons] at hInside ⊢
    rw [hCons] at hSkip
    simp [readValue, hOpen, hSkip, hOther, hInside]

theorem ofMembers_map (members : List (String × Json)) :
    ofMembers (members.map fun entry => (some entry.1, entry.2)) = .obj members := by
  have hNames : (members.map fun entry => (some entry.1, entry.2)).mapM
      (fun entry : Option String × Json => entry.1.map (·, entry.2)) = some members := by
    induction members with
    | nil => rfl
    | cons entry rest ih => simp [mapM_cons, ih]
  unfold ofMembers
  rw [hNames]

theorem reads_obj {members : List (String × Json)} (hMembers : ReadsMembers members) : (Json.obj members).Reads := by
  intro tail
  obtain ⟨hLength, hRead⟩ := hMembers ('}' :: tail)
  have hWrite : writeOnto (.obj members) tail = '\x7b' :: writeMembers members ('}' :: tail) := by unfold writeOnto; rfl
  have hOpen : ∀ text, skipGaps ('\x7b' :: text) = '\x7b' :: text := fun _ => rfl
  rw [hWrite]
  simp only [length_cons] at hLength ⊢
  refine ⟨by omega, fun fuel _ hFuel => ?_⟩
  obtain ⟨less, rfl⟩ : ∃ less, fuel = less + 1 := ⟨fuel - 1, by omega⟩
  cases members with
  | nil => simp [readValue, hOpen, writeMembers, (follows_cons (.inr (.inr rfl)) tail).skipGaps]
  | cons entry rest =>
    obtain ⟨name, val⟩ := entry
    obtain ⟨text, hText, -⟩ :=
      readQuoted_writeText name (':' :: writeOnto val (restOnto writeMembers ('}' :: tail) rest))
    have hQuote : skipGaps ('"' :: text) = '"' :: text := rfl
    have hInside := hRead less [] tail (by simp) rfl (by simp only [length_cons]; omega)
    rw [writeMembers_cons, hText] at hInside ⊢
    simp [readValue, hOpen, hQuote, hInside, ← ofMembers_map ((name, val) :: rest)]

mutual

theorem reads_of_isPlain (json : Json) (hPlain : json.isPlain = true) : json.Reads := by
  unfold isPlain at hPlain
  cases json with
  | null => exact reads_of_atom (fun _ => by unfold writeOnto; rfl) (by decide) fun _ _ _ => rfl
  | bool val =>
    cases val <;> exact reads_of_atom (fun _ => by unfold writeOnto; rfl) (by decide) fun _ _ _ => rfl
  | str text => exact reads_str text
  | real | illFormed => cases hPlain
  | int val =>
    obtain ⟨n, rfl⟩ := Int.eq_ofNat_of_zero_le (of_decide_eq_true hPlain)
    exact reads_nat n
  | arr items => exact reads_arr hPlain (readsItems_of_plain items hPlain)
  | obj members => exact reads_obj (readsMembers_of_plain members hPlain)

theorem readsItems_of_plain (items : List Json) (hPlain : plainItems items = true) : ReadsItems items := by
  unfold plainItems at hPlain
  cases items with
  | nil => exact fun tail => ⟨by simp [writeItems], fun _ _ _ hNone => absurd rfl hNone⟩
  | cons item rest =>
    obtain ⟨hItem, hRest⟩ := Bool.and_eq_true_iff.mp hPlain
    exact readsItems_cons (reads_of_isPlain item hItem) (readsItems_of_plain rest hRest)

theorem readsMembers_of_plain (members : List (String × Json)) (hPlain : plainMembers members = true) :
    ReadsMembers members := by
  unfold plainMembers at hPlain
  match members with
  | [] => exact fun tail => ⟨by simp [writeMembers], fun _ _ _ hNone => absurd rfl hNone⟩
  | (_, val) :: rest =>
    obtain ⟨hVal, hRest⟩ := Bool.and_eq_true_iff.mp hPlain
    exact readsMembers_cons (reads_of_isPlain val hVal) (readsMembers_of_plain rest hRest)

end

theorem read_compact (hPlain : json.isPlain = true) : read json.compact = some json := by
  have hRead := (reads_of_isPlain json hPlain []).2 (2 * (writeOnto json []).length + 2) (by simp [Follows])
    (by simp only [length_nil]; omega)
  have hChars : json.compact.toList = writeOnto json [] := String.toList_ofList
  unfold read
  rw [hChars]
  dsimp only
  rw [hRead]
  rfl

end Shaderlift.Json
