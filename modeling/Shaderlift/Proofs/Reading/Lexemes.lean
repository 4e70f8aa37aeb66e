import Mathlib.Data.List.TakeWhile
import Shaderlift.Proofs.Reading.Readable
import Shaderlift.Source.Tokens

/-!
# Single tokens before other text

A name, a number or a mark that is followed by more text is read as it is read alone, as long as the text
after it does not continue it. For names and numbers this is `Stop`; a mark has the characters that extend
it (`Punct.extensions`).
-/

namespace Shaderlift

open List Text

/-- The characters that would make a mark a longer one. -/
def Punct.extensions : Punct → List Char
  | .dot => ['.']
  | .colon => [':']
  | .question => ['?', '.']
  | .plus => ['+', '=']
  | .minus => ['-', '=']
  | .amp => ['&', '=']
  | .pipe => ['|', '=']
  | .eq => ['=', '>']
  | .lt => ['<', '=']
  | .star | .slash | .percent | .caret | .bang | .gt | .shl | .questionQuestion => ['=']
  | _ => []

def Piece.before {α : Type} (piece : Piece α) (rest : List Char) : Piece α :=
  ⟨piece.value, piece.text, piece.rest ++ rest⟩

namespace Lexeme

/-! ## Characters -/

variable {c : Char} {rest tail : List Char} {mark : Punct}

theorem toNat_lt_of_isHexPart (hPart : isHexPart c = true) : c.toNat < 0x80 := by
  by_contra hLarge
  have hAfter : ∀ d : Char, d.toNat < 0x80 → ¬c ≤ d := fun d hSmall hLe =>
    hLarge (Nat.lt_of_le_of_lt hLe hSmall)
  have hLow : c ≠ '_' := fun hEq => hAfter '_' (by decide) (hEq ▸ Char.le_refl _)
  have hDigit : c.isDigit = false := by
    show (decide ('0' ≤ c) && decide (c ≤ '9')) = false
    simp [hAfter '9' (by decide)]
  simp [isHexPart, hexValue, hDigit, hLow, hAfter 'f' (by decide), hAfter 'F' (by decide)] at hPart

/-- The characters of a number are ASCII, so what a table of ASCII shows holds of them. -/
theorem of_isHexPart {P : Char → Prop}
    (hAll : ∀ n < 0x80, isHexPart (Char.ofNat n) = true → P (Char.ofNat n)) (hPart : isHexPart c = true) : P c := by
  have hAt := hAll c.toNat (toNat_lt_of_isHexPart hPart)
  rw [Char.ofNat_toNat] at hAt
  exact hAt hPart

theorem isHexPart_of_isDigit (hDigit : c.isDigit = true) : isHexPart c = true := by
  simp [isHexPart, hexValue, hDigit]

theorem isIdentContinue_of_isHexPart : isHexPart c = true → isIdentContinue c = true :=
  of_isHexPart (P := fun c => isIdentContinue c = true) (by decide)

theorem isIdentContinue_of_isDigit (hDigit : c.isDigit = true) : isIdentContinue c = true :=
  isIdentContinue_of_isHexPart (isHexPart_of_isDigit hDigit)

theorem isHexPart_of_isDigitPart (hPart : isDigitPart c = true) : isHexPart c = true := by
  rw [isDigitPart, Bool.or_eq_true] at hPart
  rcases hPart with hDigit | hLow
  · exact isHexPart_of_isDigit hDigit
  · simp [isHexPart, hLow]

theorem isIdentContinue_of_isDigitPart (hPart : isDigitPart c = true) : isIdentContinue c = true :=
  isIdentContinue_of_isHexPart (isHexPart_of_isDigitPart hPart)

theorem isIdentStart_of_isDigit (hDigit : c.isDigit = true) : isIdentStart c = false :=
  of_isHexPart (P := fun c => c.isDigit = true → isIdentStart c = false) (by decide)
    (isHexPart_of_isDigit hDigit) hDigit

/-! ## Numbers -/

section Scan

variable {rest : List Char}

theorem takeWhile_append_stop {p : Char → Bool} (hStop : ∀ c ∈ rest.head?, p c = false) (text : List Char) :
    (text ++ rest).takeWhile p = text.takeWhile p := by
  induction text with
  | nil => cases rest <;> simp_all
  | cons c text ih => by_cases hc : p c <;> simp [hc, ih]

theorem dropWhile_append_stop {p : Char → Bool} (hStop : ∀ c ∈ rest.head?, p c = false) (text : List Char) :
    (text ++ rest).dropWhile p = text.dropWhile p ++ rest := by
  induction text with
  | nil => cases rest <;> simp_all
  | cons c text ih => by_cases hc : p c <;> simp [hc, ih]

end Scan

theorem readDigits_of_not_based {base : Char} (hPlain : ¬(c = '0' ∧ "xXbB".toList.contains base = true))
    (digits : List Char) : readDigits (c :: base :: digits) = readDigits.decimal (c :: base :: digits) := by
  by_cases hZero : c = '0'
  · subst hZero
    have hNot : ¬"xXbB".toList.contains base = true := fun hContains => hPlain ⟨rfl, hContains⟩
    rw [readDigits, if_neg hNot]
  · unfold readDigits
    split
    · rename_i hEq
      exact absurd (List.cons.inj hEq).1 hZero
    · rfl

theorem readDigits_singleton (c : Char) : readDigits [c] = readDigits.decimal [c] := by
  unfold readDigits
  split
  · simp_all
  · rfl

/-- The text after a name or a number neither continues it nor goes on with digits after a point. -/
def Stop (rest : List Char) : Prop :=
  (∀ c ∈ rest.head?, isIdentContinue c = false) ∧
    ∀ tail, rest = '.' :: tail → startsWithDigit tail = false

namespace Stop

variable {rest : List Char} (hStop : Stop rest)
include hStop

theorem not_of_imp {p : Char → Bool} (hImp : ∀ c, p c = true → isIdentContinue c = true) :
    ∀ c ∈ rest.head?, p c = false := by
  intro c hHead
  by_contra hc
  have := hImp c (by simpa using hc)
  simp [hStop.1 c hHead] at this

theorem startsWithDigit_append (text : List Char) : startsWithDigit (text ++ rest) = startsWithDigit text := by
  cases text with
  | nil =>
    cases rest with
    | nil => rfl
    | cons c rest => exact hStop.not_of_imp (fun _ => isIdentContinue_of_isDigit) c rfl
  | cons => rfl

theorem readFraction_append (text : List Char) : readFraction (text ++ rest) = (readFraction text).before rest := by
  have hPart := hStop.not_of_imp fun _ => isIdentContinue_of_isDigitPart
  cases text with
  | nil =>
    unfold readFraction
    split
    · rename_i tail hTail
      simp [hStop.2 tail hTail, Piece.before, ← hTail]
    · simp [Piece.before]
  | cons c text =>
    by_cases hDot : c = '.'
    · subst hDot
      simp only [cons_append, readFraction, hStop.startsWithDigit_append, takeWhile_append_stop hPart,
        dropWhile_append_stop hPart]
      split <;> rfl
    · simp [readFraction, hDot, Piece.before]

variable {text : List Char} {based : Bool}

theorem readExponent_append (hWhole : text ≠ ['e'] ∧ text ≠ ['E']) :
    readExponent (text ++ rest) = (readExponent text).before rest := by
  have hPart := hStop.not_of_imp fun _ => isIdentContinue_of_isDigitPart
  have hMark := hStop.not_of_imp (p := fun c => c == 'e' || c == 'E') (by simp; decide)
  match text with
  | [] =>
    cases rest with
    | nil => rfl
    | cons c rest => simp [readExponent, hMark c rfl, Piece.before]
  | [mark] =>
    have hNot : (mark == 'e' || mark == 'E') = false := by simpa using hWhole
    simp [readExponent, hNot, Piece.before]
  | mark :: sign :: digits =>
    have hTake := takeWhile_append_stop hPart (sign :: digits)
    have hDrop := dropWhile_append_stop hPart (sign :: digits)
    simp only [cons_append] at hTake hDrop
    simp only [cons_append, readExponent, hStop.startsWithDigit_append, takeWhile_append_stop hPart,
      dropWhile_append_stop hPart, hTake, hDrop]
    split
    · split
      · rfl
      · split <;> rfl
    · rfl

theorem readSuffix_append (based : Bool) (text : List Char) :
    readSuffix based (text ++ rest) = (readSuffix based text).before rest := by
  have hLetter := hStop.not_of_imp (p := fun c => "fFdDmMuUlL".toList.contains c) (by simp; decide)
  match text with
  | [] =>
    cases rest with
    | nil => rfl
    | cons c rest =>
      have hNot := hLetter c rfl
      simp only [String.reduceToList, contains_eq_mem, mem_cons, not_mem_nil, or_false,
        decide_eq_false_iff_not, not_or] at hNot
      simp [readSuffix, hNot, Piece.before]
  | [mark] =>
    cases rest with
    | nil => simp [Piece.before]
    | cons c rest =>
      have hNot := hLetter c rfl
      simp only [String.reduceToList, contains_eq_mem, mem_cons, not_mem_nil, or_false,
        decide_eq_false_iff_not, not_or] at hNot
      simp only [cons_append, nil_append, readSuffix, Piece.before]
      split
      · rfl
      · split
        · simp [hNot]
        · split <;> simp [hNot]
  | mark :: second :: after =>
    simp only [cons_append, readSuffix]
    split
    · rfl
    · split
      · split <;> rfl
      · split
        · split <;> rfl
        · rfl

theorem decimal_append (hWhole : (readSuffix based (readDigits.decimal text).rest).rest = []) :
    readDigits.decimal (text ++ rest) = (readDigits.decimal text).before rest := by
  have hPart := hStop.not_of_imp fun _ => isIdentContinue_of_isDigitPart
  -- a letter of an exponent without digits would be left over
  have hMark : (readFraction (text.dropWhile isDigitPart)).rest ≠ ['e'] ∧
      (readFraction (text.dropWhile isDigitPart)).rest ≠ ['E'] := by
    constructor
    · intro hEq
      simp [readDigits.decimal, hEq, readExponent, readSuffix] at hWhole
    · intro hEq
      simp [readDigits.decimal, hEq, readExponent, readSuffix] at hWhole
  simp only [readDigits.decimal, takeWhile_append_stop hPart, dropWhile_append_stop hPart,
    hStop.readFraction_append]
  simp only [Piece.before, hStop.readExponent_append hMark]

theorem readDigits_append (hText : text ≠ []) (hWhole : (readSuffix based (readDigits text).rest).rest = []) :
    readDigits (text ++ rest) = (readDigits text).before rest := by
  have hHex := hStop.not_of_imp fun _ => isIdentContinue_of_isHexPart
  have hBase := hStop.not_of_imp (p := fun c => "xXbB".toList.contains c) (by simp; decide)
  match text with
  | [c] =>
    have hMore : readDigits (c :: rest) = readDigits.decimal (c :: rest) := by
      cases rest with
      | nil => exact readDigits_singleton c
      | cons d rest =>
        have hNot := hBase d rfl
        exact readDigits_of_not_based (fun hBoth => Bool.false_ne_true (hNot.symm.trans hBoth.2)) rest
    rw [readDigits_singleton] at hWhole ⊢
    rw [singleton_append, hMore]
    exact hStop.decimal_append hWhole
  | c :: base :: digits =>
    by_cases hHexed : c = '0' ∧ "xXbB".toList.contains base = true
    · obtain ⟨rfl, hContains⟩ := hHexed
      simp only [cons_append, readDigits, hContains, if_true, takeWhile_append_stop hHex,
        dropWhile_append_stop hHex, Piece.before]
    · have hPlain := readDigits_of_not_based hHexed
      rw [hPlain] at hWhole ⊢
      rw [cons_append, cons_append, hPlain]
      exact hStop.decimal_append hWhole

theorem readNumber_append (hText : text ≠ []) (hWhole : (readNumber text).rest = []) :
    readNumber (text ++ rest) = (readNumber text).before rest := by
  have hBased : "0x".toList.isPrefixOf (text ++ rest) = "0x".toList.isPrefixOf text := by
    have hBase := hStop.not_of_imp (p := fun c => 'x' == c) (by simp; decide)
    match text with
    | [c] =>
      cases rest with
      | nil => rfl
      | cons d rest => simp [List.isPrefixOf, hBase d rfl]
    | c :: d :: text => simp [List.isPrefixOf]
  simp only [readNumber] at hWhole
  simp only [readNumber, hBased, hStop.readDigits_append hText hWhole, Piece.before, hStop.readSuffix_append]

end Stop

/-! ## Marks -/

theorem stripStart_append (part text : List Char) : stripStart part (part ++ text) = some text := by
  induction part with
  | nil => rfl
  | cons c part ih => simp [stripStart, ih]

theorem prefix_of_stripStart {part text : List Char} (hStrip : stripStart part text = some rest) :
    part <+: text := by
  induction part generalizing text with
  | nil => exact nil_prefix
  | cons c part ih =>
    cases text with
    | nil => simp [stripStart] at hStrip
    | cons d text =>
      simp only [stripStart] at hStrip
      split at hStrip
      · rename_i hEq
        rw [beq_iff_eq] at hEq
        exact cons_prefix_cons.mpr ⟨hEq, ih hStrip⟩
      · contradiction

/-- Decide whether a mark that is tried earlier either differs from a mark or extends it. -/
def yields (mark earlier : Punct) : Bool :=
  !earlier.spelling.toList.isPrefixOf mark.spelling.toList &&
    (!mark.spelling.toList.isPrefixOf earlier.spelling.toList ||
      (earlier.spelling.toList.drop mark.spelling.length).head?.any mark.extensions.contains)

theorem yields_of_earlier :
    (punctByLength.all fun mark => (punctByLength.takeWhile (· != mark)).all (yields mark)) = true := by
  decide

theorem mem_punctByLength (mark : Punct) : mark ∈ punctByLength := by
  cases mark <;> decide

theorem readPunct_spelling (hMark : mark ≠ .questionDot) (hRest : ∀ c ∈ rest.head?, c ∉ mark.extensions) :
    readPunct (mark.spelling.toList ++ rest) = .ok ⟨mark, mark.spelling.toList, rest⟩ := by
  have hOwn : startsWithPunct (mark.spelling.toList ++ rest) mark = true := by
    simp [startsWithPunct, stripStart_append, hMark]
  have hEarlier : ∀ earlier ∈ punctByLength.takeWhile (· != mark),
      startsWithPunct (mark.spelling.toList ++ rest) earlier = false := by
    intro earlier hMem
    have hYields := all_eq_true.mp (all_eq_true.mp yields_of_earlier mark (mem_punctByLength mark))
      earlier hMem
    simp only [yields, Bool.and_eq_true, Bool.not_eq_true', Bool.or_eq_true] at hYields
    unfold startsWithPunct
    split
    · rfl
    · rename_i hStrip
      have hPrefix := prefix_of_stripStart hStrip
      exfalso
      rcases prefix_or_prefix_of_prefix hPrefix (prefix_append mark.spelling.toList rest) with hIn | hOver
      · simp [ isPrefixOf_iff_prefix.mpr hIn] at hYields
      · obtain ⟨more, hMore⟩ := hOver
        rw [← hMore, prefix_append_right_inj] at hPrefix
        have hNext := hYields.2.resolve_left (by simp [← hMore])
        rw [← hMore, ← String.length_toList, drop_left] at hNext
        cases more with
        | nil => simp at hNext
        | cons d more =>
          obtain ⟨tail, rfl⟩ := hPrefix
          exact hRest d rfl (by simpa using hNext)
  have hFind : punctByLength.find? (startsWithPunct (mark.spelling.toList ++ rest)) = some mark := by
    have hHead : (punctByLength.dropWhile (· != mark)).head? = some mark := by cases mark <;> rfl
    obtain ⟨later, hLater⟩ := List.head?_eq_some_iff.mp hHead
    refine List.find?_eq_some_iff_append.mpr ⟨hOwn, punctByLength.takeWhile (· != mark), later, ?_, ?_⟩
    · rw [← hLater, takeWhile_append_dropWhile]
    · intro earlier hMem
      simp [hEarlier earlier hMem]
  unfold readPunct
  simp [hFind, ← String.length_toList]

/-! ## The token that a text starts with -/

theorem read_of_ne (hAt : c ≠ '@') (hDollar : c ≠ '$') (rest : List Char) : read c rest = readPlain c rest := by
  cases rest with
  | nil => rfl
  | cons d rest => simp [read, isStringMark, hAt, hDollar]

theorem ne_of_isIdentStart {d : Char} (hStart : isIdentStart c = true) (hOther : isIdentStart d = false) :
    c ≠ d := by
  rintro rfl
  simp [hStart] at hOther

/-- A name is read whole, and is a reserved word if it is spelled like one. -/
theorem read_word (hStart : isIdentStart c = true) (hTail : (c :: tail).all isIdentContinue = true)
    (hStop : Stop rest) :
    read c (tail ++ rest) =
      .ok ⟨if reservedWords.contains (String.ofList (c :: tail)) then .word (String.ofList (c :: tail))
        else .ident (String.ofList (c :: tail)), c :: tail, rest⟩ := by
  have hTake : (c :: (tail ++ rest)).takeWhile isIdentContinue = c :: tail := by
    rw [← cons_append, takeWhile_append_stop hStop.1]
    exact takeWhile_eq_self_iff.mpr (all_eq_true.mp hTail)
  have hDrop : (c :: (tail ++ rest)).dropWhile isIdentContinue = rest := by
    rw [← cons_append, dropWhile_append_stop hStop.1]
    rw [dropWhile_eq_nil_iff.mpr (all_eq_true.mp hTail), nil_append]
  rw [read_of_ne (ne_of_isIdentStart hStart rfl) (ne_of_isIdentStart hStart rfl), readPlain, if_pos hStart]
  simp only [readWord, readName, hTake, hDrop]

theorem read_number {kind : TokenKind} (hStart : startsNumber (c :: tail) = true)
    (hNumber : readNumber (c :: tail) = ⟨kind, c :: tail, []⟩) (hStop : Stop rest) :
    read c (tail ++ rest) = .ok ⟨kind, c :: tail, rest⟩ := by
  simp only [startsNumber, Bool.or_eq_true, Bool.and_eq_true, beq_iff_eq] at hStart
  have hIdent : isIdentStart c = false := by
    rcases hStart with hDigit | ⟨rfl, -⟩
    · exact isIdentStart_of_isDigit hDigit
    · rfl
  have hOther : ∀ d : Char, d.isDigit = false → d ≠ '.' → c ≠ d := by
    rintro d hNot hPoint rfl
    simp [hNot, hPoint] at hStart
  have hDigits : (c.isDigit || (c == '.' && startsWithDigit (tail ++ rest))) = true := by
    rw [hStop.startsWithDigit_append]
    simpa using hStart
  have hAppend := hStop.readNumber_append (cons_ne_nil c tail) (by rw [hNumber])
  rw [hNumber, cons_append] at hAppend
  rw [read_of_ne (hOther '@' rfl (by decide)) (hOther '$' rfl (by decide)), readPlain, if_neg (by simp [hIdent]),
    if_pos hDigits, hAppend]
  rfl

/-- Decide whether a character starts neither a gap nor a name nor a literal. -/
def isPunctStart (c : Char) : Bool :=
  !isBlank c && !isIdentStart c && !c.isDigit && !"\"'@$#".toList.contains c

theorem isPunctStart_spelling :
    ((punctByLength.filter (· != .at)).all fun mark => mark.spelling.toList.head?.any isPunctStart) = true := by
  decide +kernel

theorem isPunctStart_of_spelling (hSpelling : mark.spelling.toList = c :: tail) (hAt : mark ≠ .at) :
    isPunctStart c = true := by
  have hFirst := all_eq_true.mp isPunctStart_spelling mark
    (mem_filter.mpr ⟨mem_punctByLength mark, by simpa using hAt⟩)
  simpa [hSpelling] using hFirst

/-- A mark is read whole unless the next character extends it. -/
theorem read_punct (hSpelling : mark.spelling.toList = c :: tail) (hMark : mark ≠ .questionDot) (hAt : mark ≠ .at)
    (hRest : ∀ d ∈ rest.head?, d ∉ mark.extensions) (hDot : c = '.' → startsWithDigit (tail ++ rest) = false) :
    read c (tail ++ rest) = .ok ⟨.punct mark, c :: tail, rest⟩ := by
  have hFirst := isPunctStart_of_spelling hSpelling hAt
  simp only [isPunctStart, Bool.and_eq_true, Bool.not_eq_true', String.reduceToList, contains_eq_mem,
    mem_cons, not_mem_nil, or_false, decide_eq_false_iff_not, not_or] at hFirst
  obtain ⟨⟨⟨-, hIdent⟩, hDigit⟩, hQuote, hTick, hNotAt, hDollar, -⟩ := hFirst
  have hPunct := readPunct_spelling hMark hRest
  rw [hSpelling, cons_append] at hPunct
  have hNumber : (c.isDigit || (c == '.' && startsWithDigit (tail ++ rest))) = false := by
    rw [hDigit, Bool.false_or]
    by_cases hPoint : c = '.'
    · rw [hDot hPoint, Bool.and_false]
    · simp [hPoint]
  rw [read_of_ne hNotAt hDollar, readPlain, hPunct]
  simp [hIdent, hNumber, hQuote, hTick, Except.map]

end Lexeme

end Shaderlift
