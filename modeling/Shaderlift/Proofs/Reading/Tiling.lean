import Mathlib.Data.List.Induction
import Mathlib.Data.List.Infix
import Shaderlift.Proofs.Reading.Tokens

/-!
# Tokens tile the source

A source text that is split into tokens is a row of gaps and token texts (`Tiled`). A gap is made of white space,
comments and directive lines, a text is what its token is written with, and a span is that of its text (`Span.over`).
A reader that is in the middle of a token holds what it has taken, the last character first; `Takes` says what it takes
more.
-/

namespace Shaderlift

open List

/-! ## Places -/

/-- The characters after the last line break. -/
def lineTail (before : List Char) : List Char := before.reverse.takeWhile (· != '\n')

def byteCount (text : List Char) : Nat := (String.ofList text).utf8ByteSize

@[simp] theorem byteCount_nil : byteCount [] = 0 := by simp [byteCount]

@[simp] theorem byteCount_append (front back : List Char) : byteCount (front ++ back) = byteCount front + byteCount back := by
  simp [byteCount, String.ofList_append]

@[simp] theorem byteCount_singleton (c : Char) : byteCount [c] = c.utf8Size := by
  simp [byteCount]

variable {text : List Char} {toks : Array Token} {src : String}

theorem byteCount_pos (hText : text ≠ []) : 0 < byteCount text := by
  cases text with
  | nil => exact absurd rfl hText
  | cons c text =>
    rw [← singleton_append, byteCount_append, byteCount_singleton]
    exact Nat.add_pos_left (Char.utf8Size_pos c) _

/-- The span of a text that follows another: its line is one more than the line breaks before it, its column one more
than the characters since the last of them. -/
def Span.over (before text : List Char) : Span :=
  ⟨1 + before.count '\n', 1 + (lineTail before).length, byteCount before, byteCount before + byteCount text⟩

theorem Place.first_advanceOver (before : List Char) : first.advanceOver before =
      ⟨byteCount before, 1 + before.count '\n', 1 + (lineTail before).length, (lineTail before).all Text.isBlank⟩ := by
  induction before using List.reverseRecOn with
  | nil => rfl
  | append_singleton before c ih =>
    rw [advanceOver_append, ih]
    by_cases hBreak : c = '\n'
    · simp [advanceOver, advance, hBreak, lineTail, Nat.add_assoc]
    · simp [advanceOver, advance, hBreak, lineTail, Bool.and_comm, Nat.add_comm]

theorem Place.span_through (before text : List Char) :
    (first.advanceOver before).span.through ((first.advanceOver before).advanceOver text).span = .over before text := by
  rw [← advanceOver_append, first_advanceOver, first_advanceOver]
  simp [span, Span.through, Span.over]

theorem Place.advanceOver_concat (place : Place) (before : List Char) (c : Char) :
    place.advanceOver (before ++ [c]) = (place.advanceOver before).advance c := by
  rw [advanceOver_append]
  rfl

def Span.WithinText (span : Span) (text : List Char) : Prop :=
  ∃ before inside after, text = before ++ inside ++ after ∧ span = .over before inside

/-! ## Gaps -/

/-- A text after another one is a gap: a row of white space, line comments, directives at the start of a line, and block
comments that are closed. -/
inductive Gap : List Char → List Char → Prop
  | nil {before : List Char} : Gap before []
  | blank {before rest : List Char} {c : Char} : Text.isBlank c = true → Gap (before ++ [c]) rest → Gap before (c :: rest)
  | line {before mark body rest : List Char} :
      mark = ['/', '/'] ∨ mark = ['#'] ∧ (lineTail before).all Text.isBlank = true → '\n' ∉ body →
      (rest = [] ∨ rest.head? = some '\n') → Gap (before ++ (mark ++ body)) rest → Gap before (mark ++ body ++ rest)
  | block {before body rest : List Char} :
      ¬['*', '/'] <:+: body → Gap (before ++ ('/' :: '*' :: body ++ ['*', '/'])) rest →
      Gap before ('/' :: '*' :: body ++ ['*', '/'] ++ rest)

namespace GapMode

/-- What a gap is in the middle of after one more character, or `none` where it ends. -/
def next (place : Place) (c : Char) (following : Option Char) : GapMode → Option GapMode
  | .line => some (if c == '\n' then .blank else .line)
  | .opening start => some (.block start)
  | .block start => some (if c == '*' && following == some '/' then .closing else .block start)
  | .closing => some .blank
  | .blank => gapAt place c following

theorem skipGap_cons (mode : GapMode) (place : Place) (c : Char) (rest : List Char) : skipGap mode place (c :: rest) =
      (mode.next place c rest.head?).elim (.ok (place, c :: rest)) (skipGap · (place.advance c) rest) := by
  cases mode with
  | blank =>
    rw [skipGap, next]
    cases gapAt place c rest.head? <;> rfl
  | _ => rfl

def Leaves (before gap : List Char) : GapMode → Prop
  | .blank => Gap before gap
  | .line => ∃ body rest, gap = body ++ rest ∧ '\n' ∉ body ∧ (rest = [] ∨ rest.head? = some '\n') ∧
      Gap (before ++ body) rest
  | .opening _ => ∃ c body rest, gap = c :: (body ++ ['*', '/'] ++ rest) ∧ ¬['*', '/'] <:+: body ∧
      Gap (before ++ (c :: body ++ ['*', '/'])) rest
  | .block _ => ∃ body rest, gap = body ++ ['*', '/'] ++ rest ∧ ¬['*', '/'] <:+: body ∧
      Gap (before ++ (body ++ ['*', '/'])) rest
  | .closing => ∀ c rest, gap = c :: rest → Gap (before ++ [c]) rest

variable {mode after : GapMode} {before gap : List Char} {c : Char} {following : Option Char}

theorem leaves_blank_cons (hNext : gapAt (Place.first.advanceOver before) c following = some after)
    (hFollowing : after = .blank ∨ gap.head? = following) (hGap : after.Leaves (before ++ [c]) gap) :
    Gap before (c :: gap) := by
  unfold gapAt at hNext
  split at hNext
  · rename_i hBlank
    cases hNext
    exact .blank hBlank hGap
  split at hNext
  · rename_i hHash
    cases hNext
    obtain ⟨rfl, hStart⟩ : c = '#' ∧ (lineTail before).all Text.isBlank = true := by
      rwa [Place.first_advanceOver, Bool.and_eq_true, beq_iff_eq] at hHash
    obtain ⟨body, rest, rfl, hBody, hRest, hGap⟩ := hGap
    show Gap before (['#'] ++ body ++ rest)
    exact .line (.inr ⟨rfl, hStart⟩) hBody hRest (by simpa using hGap)
  split at hNext
  · rename_i hSlash
    cases hNext
    obtain ⟨rfl, rfl⟩ : c = '/' ∧ following = some '/' := by simpa using hSlash
    obtain ⟨body, rest, rfl, hBody, hRest, hGap⟩ := hGap
    -- The second mark opens the body, since what follows the body is the end or a line break.
    cases body with
    | nil => simp_all
    | cons slash body =>
      obtain rfl : slash = '/' := by simpa using hFollowing
      show Gap before (['/', '/'] ++ body ++ rest)
      exact .line (.inl rfl) (not_mem_of_not_mem_cons hBody) hRest (by simpa using hGap)
  split at hNext
  · rename_i hStar
    cases hNext
    obtain ⟨rfl, rfl⟩ : c = '/' ∧ following = some '*' := by simpa using hStar
    obtain ⟨star, body, rest, rfl, hBody, hGap⟩ := hGap
    obtain rfl : star = '*' := by simpa using hFollowing
    exact .block hBody (by simpa using hGap)
  · cases hNext

theorem leaves_block_cons {start : Span} (hGap : (block start).Leaves (before ++ [c]) gap)
    (hOpen : ¬(c = '*' ∧ gap.head? = some '/')) : (block start).Leaves before (c :: gap) := by
  obtain ⟨body, rest, rfl, hBody, hGap⟩ := hGap
  refine ⟨c :: body, rest, rfl, ?_, by simpa using hGap⟩
  rw [infix_cons_iff]
  rintro (hFront | hInside)
  · cases body with
    | nil => simp at hFront
    | cons d body =>
      obtain ⟨rfl, rfl⟩ : '*' = c ∧ '/' = d := by simpa using hFront
      exact hOpen ⟨rfl, rfl⟩
  · exact hBody hInside

/-- A character that goes on with a gap can be put before what is left of it. -/
theorem leaves_cons (hNext : mode.next (Place.first.advanceOver before) c following = some after)
    (hFollowing : after = .blank ∨ gap.head? = following) (hGap : after.Leaves (before ++ [c]) gap) :
    mode.Leaves before (c :: gap) := by
  cases mode with
  | blank => exact leaves_blank_cons hNext hFollowing hGap
  | closing =>
    cases hNext
    intro c' rest hEq
    cases hEq
    exact hGap
  | opening start =>
    cases hNext
    obtain ⟨body, rest, rfl, hBody, hGap⟩ := hGap
    exact ⟨c, body, rest, rfl, hBody, by simpa using hGap⟩
  | block start =>
    simp only [next, Option.some.injEq] at hNext
    split at hNext
    · rename_i hClose
      subst hNext
      obtain ⟨rfl, rfl⟩ : c = '*' ∧ following = some '/' := by simpa using hClose
      obtain ⟨rest, rfl⟩ : ∃ rest, gap = '/' :: rest := by
        exact ⟨_, (cons_head?_tail (by simpa using hFollowing)).symm⟩
      exact ⟨[], rest, rfl, by simp, by simpa using hGap _ _ rfl⟩
    · rename_i hOpen
      subst hNext
      refine leaves_block_cons hGap fun hClose => hOpen ?_
      obtain rfl : gap.head? = following := by simpa using hFollowing
      simpa using hClose
  | line =>
    simp only [next, Option.some.injEq] at hNext
    split at hNext
    · rename_i hBreak
      subst hNext
      obtain rfl : c = '\n' := by simpa using hBreak
      exact ⟨[], '\n' :: gap, rfl, by simp, .inr rfl, by simpa using .blank (by simp [Text.isBlank]) hGap⟩
    · rename_i hBreak
      subst hNext
      obtain ⟨body, rest, rfl, hBody, hRest, hGap⟩ := hGap
      refine ⟨c :: body, rest, rfl, ?_, hRest, by simpa using hGap⟩
      have hOther : '\n' ≠ c := fun hEq => hBreak (by simp [← hEq])
      simp [hOther, hBody]

theorem leaves_of_skipGap {text rest : List Char} {stop : Place}
    (hSkip : skipGap mode (Place.first.advanceOver before) text = .ok (stop, rest)) :
    ∃ gap, text = gap ++ rest ∧ stop = Place.first.advanceOver (before ++ gap) ∧ mode.Leaves before gap ∧
      (mode = .blank ∨ gap.head? = text.head?) := by
  induction text generalizing mode before with
  | nil =>
    cases mode with
    | opening | block => simp [skipGap] at hSkip
    | _ =>
      obtain ⟨rfl, rfl⟩ : Place.first.advanceOver before = stop ∧ [] = rest := by simpa [skipGap] using hSkip
      refine ⟨[], rfl, by simp, ?_, .inr rfl⟩
      first
      | exact Gap.nil
      | exact ⟨[], [], rfl, by simp, .inl rfl, .nil⟩
      | simp [Leaves]
  | cons c text ih =>
    rw [skipGap_cons] at hSkip
    cases hNext : mode.next (Place.first.advanceOver before) c text.head? with
    | none =>
      obtain ⟨rfl, rfl⟩ : Place.first.advanceOver before = stop ∧ c :: text = rest := by simpa [hNext] using hSkip
      cases mode with
      | blank => exact ⟨[], rfl, by simp, .nil, .inl rfl⟩
      | _ => cases hNext
    | some after =>
      rw [hNext, ← Place.advanceOver_concat] at hSkip
      obtain ⟨gap, rfl, rfl, hGap, hHead⟩ := ih hSkip
      exact ⟨c :: gap, rfl, by simp, leaves_cons hNext hHead hGap, .inr rfl⟩

/-- A block comment that is still open was opened in a text. -/
def OpenedIn (before : List Char) : GapMode → Prop
  | .opening start | .block start => ∃ opened inside, before = opened ++ inside ∧ start = (Place.first.advanceOver opened).span
  | _ => True

theorem openedIn_next (hNext : mode.next (Place.first.advanceOver before) c following = some after)
    (hOpened : mode.OpenedIn before) : after.OpenedIn (before ++ [c]) := by
  cases mode with
  | opening start | block start =>
    obtain ⟨opened, inside, rfl, rfl⟩ := hOpened
    simp only [next, Option.some.injEq] at hNext
    subst hNext
    try split
    all_goals first
      | trivial
      | exact ⟨opened, inside ++ [c], by simp, rfl⟩
  | line =>
    simp only [next, Option.some.injEq] at hNext
    subst hNext
    split <;> trivial
  | closing =>
    cases hNext
    trivial
  | blank =>
    simp only [next, gapAt] at hNext
    split_ifs at hNext <;> cases hNext
    · trivial
    · trivial
    · trivial
    · exact ⟨before, [c], rfl, rfl⟩

theorem withinText_of_skipGap {text : List Char} {error : SyntaxError}
    (hSkip : skipGap mode (Place.first.advanceOver before) text = .error error) (hOpened : mode.OpenedIn before) :
    error.span.WithinText (before ++ text) := by
  induction text generalizing mode before with
  | nil =>
    cases mode with
    | opening | block =>
      obtain ⟨opened, inside, rfl, rfl⟩ := hOpened
      cases hSkip
      exact ⟨opened, inside, [], by simp, by rw [Place.advanceOver_append, Place.span_through]⟩
    | _ => simp [skipGap] at hSkip
  | cons c text ih =>
    rw [skipGap_cons] at hSkip
    cases hNext : mode.next (Place.first.advanceOver before) c text.head? with
    | none => simp [hNext] at hSkip
    | some after =>
      rw [hNext, ← Place.advanceOver_concat] at hSkip
      simpa using ih hSkip (openedIn_next hNext hOpened)

end GapMode

/-! ## Token texts -/

/-- A token is written with a text. A name is made of the characters of names, and an `@` may stand before it. -/
def TokenKind.SpelledBy (text : List Char) : TokenKind → Prop
  | .ident name => (text = name.toList ∨ text = '@' :: name.toList) ∧ ∀ c ∈ name.toList, Text.isIdentContinue c = true
  | .word spelling | .int spelling | .real spelling => text = spelling.toList
  | .punct mark => text = mark.spelling.toList
  | .char _ | .str _ => True
  | .eof => text = []

namespace Lexeme

/-- A reader that has taken characters, the last one first, takes more of the text that follows them. -/
def Takes (taken rest text after : List Char) : Prop := ∃ more, text = more ++ taken ∧ rest = more.reverse ++ after

theorem Takes.refl (taken rest : List Char) : Takes taken rest taken rest := ⟨[], rfl, rfl⟩

variable {taken rest text : List Char} {c : Char} {α : Type} {result : Except Misread (Piece α)}

theorem Takes.cons {after : List Char} (hTakes : Takes (c :: taken) rest text after) :
    Takes taken (c :: rest) text after := by
  obtain ⟨more, rfl, rfl⟩ := hTakes
  exact ⟨more ++ [c], by simp, by simp⟩

theorem Takes.trans {after text' after' : List Char} (hTakes : Takes taken rest text after)
    (hMore : Takes text after text' after') : Takes taken rest text' after' := by
  obtain ⟨more, rfl, rfl⟩ := hTakes
  obtain ⟨more', rfl, rfl⟩ := hMore
  exact ⟨more' ++ more, by simp, by simp⟩

/-- What a reader took, also where it failed. -/
def Took {α : Type} (taken rest : List Char) : Except Misread (Piece α) → Prop
  | .ok piece => Takes taken rest piece.text piece.rest
  | .error misread => ∃ after, Takes taken rest misread.text after

theorem Took.after {after : List Char} (hTook : Took text after result) (hTakes : Takes taken rest text after) :
    Took taken rest result := by
  cases result with
  | ok piece => exact hTakes.trans hTook
  | error misread =>
    obtain ⟨after, hMore⟩ := hTook
    exact ⟨after, hTakes.trans hMore⟩

theorem Took.cons (hTook : Took (c :: taken) rest result) : Took taken (c :: rest) result :=
  hTook.after (.cons (.refl ..))

theorem took_readHex (count val : Nat) (taken rest : List Char) :
    Took taken rest ((readHex count val taken rest).mapError (Misread.mk .invalidEscape)) := by
  induction count generalizing val taken rest with
  | zero => exact .refl ..
  | succ count ih =>
    cases rest with
    | nil => exact ⟨_, .refl ..⟩
    | cons c rest =>
      rw [readHex]
      cases hexValue c with
      | none => exact ⟨_, .cons (.refl ..)⟩
      | some digit => exact (ih ..).cons

theorem took_readEscape (taken rest : List Char) : Took taken rest (readEscape taken rest) := by
  unfold readEscape
  split
  · exact ⟨_, .refl ..⟩
  · rename_i rest
    have hHex := (took_readHex 4 0 ('u' :: taken) rest).cons
    split
    · rename_i hRead
      rw [hRead] at hHex
      exact hHex
    · rename_i piece hRead
      rw [hRead] at hHex
      split
      · exact hHex
      · exact ⟨_, hHex⟩
  · exact .cons (.refl ..)

theorem took_readString (fuel : Nat) (taken val rest : List Char) :
    Took taken rest (readString fuel taken val rest) := by
  induction fuel generalizing taken val rest with
  | zero => exact ⟨_, .refl ..⟩
  | succ fuel ih =>
    cases rest with
    | nil => exact ⟨_, .refl ..⟩
    | cons c rest =>
      rw [readString]
      split
      · rename_i hQuote
        obtain rfl : c = '"' := by simpa using hQuote
        exact .cons (.refl ..)
      split
      · exact ⟨_, .cons (.refl ..)⟩
      split
      · have hEscape := (took_readEscape (c :: taken) rest).cons
        split
        · rename_i hRead
          rw [hRead] at hEscape
          exact (ih ..).after hEscape
        · rename_i hRead
          rw [hRead] at hEscape
          exact hEscape
      · exact (ih ..).cons

theorem took_readVerbatim (taken val rest : List Char) : Took taken rest (readVerbatim taken val rest) := by
  -- A pair of quotes takes two characters, so the induction is on how many are left.
  induction hSize : rest.length using Nat.strong_induction_on generalizing taken val rest with
  | _ size ih =>
    subst hSize
    unfold readVerbatim
    split
    · exact ⟨_, .refl ..⟩
    · split
      · rename_i hQuote
        obtain rfl := eq_of_beq hQuote
        split
        · exact (ih _ (by grind) _ _ _ rfl).cons.cons
        · exact .cons (.refl ..)
      · exact (ih _ (by simp) _ _ _ rfl).cons

theorem Took.bind {β : Type} {next : Piece α → Except Misread (Piece β)} (hTook : Took taken rest result)
    (hNext : ∀ piece, Took piece.text piece.rest (next piece)) : Took taken rest (result >>= next) := by
  cases result with
  | ok piece => exact (hNext piece).after hTook
  | error misread => exact hTook

theorem took_readCharacter (taken text : List Char) : Took taken text (readCharacter taken text) := by
  unfold readCharacter
  extract_lets close
  have hClose : ∀ val, Took val.text val.rest (close val) := by
    intro val
    dsimp only [close]
    split
    · rename_i hRest
      rw [hRest]
      exact .cons (.refl ..)
    · exact ⟨_, .refl ..⟩
  split
  · exact .bind ⟨_, .refl ..⟩ hClose
  split
  · exact .bind (took_readEscape _ _).cons hClose
  split
  · exact .bind ⟨_, .cons (.refl ..)⟩ hClose
  · exact .bind (Takes.cons (.refl ..)) hClose

/-- A token was read off the front of a text, or a part of the text at its front is no token. -/
def ReadsOff (whole : List Char) : Except Misread (Piece TokenKind) → Prop
  | .ok piece => whole = piece.text ++ piece.rest ∧ piece.text ≠ [] ∧ piece.value.SpelledBy piece.text
  | .error misread => ∃ after, whole = misread.text.reverse ++ after

theorem Took.readsOff {kind : α → TokenKind} (hTook : Took taken rest result) (hTaken : taken ≠ [])
    (hKind : ∀ val text, (kind val).SpelledBy text) : ReadsOff (taken.reverse ++ rest) (result.map (ordered kind)) := by
  cases result with
  | ok piece =>
    obtain ⟨more, hText, rfl⟩ := hTook
    exact ⟨by simp [ordered, hText], by simp [ordered, hText, hTaken], hKind ..⟩
  | error misread =>
    obtain ⟨after, more, hText, rfl⟩ := hTook
    exact ⟨after, by simp [hText]⟩

theorem readName_spelling (text : List Char) : (readName text).value.toList = (readName text).text ∧
      ∀ c ∈ (readName text).value.toList, Text.isIdentContinue c = true := by
  refine ⟨by simp [readName], fun c hMem => ?_⟩
  have hTaken : c ∈ text.takeWhile Text.isIdentContinue := by simpa [readName] using hMem
  exact all_eq_true.mp all_takeWhile c hTaken

theorem readsOff_readWord (rest : List Char) (hStart : Text.isIdentStart c = true) :
    ReadsOff (c :: rest) (.ok (readWord (c :: rest))) := by
  have hContinue : Text.isIdentContinue c = true := by
    rw [Text.isIdentContinue, show (c == '_' || Text.isLetter c) = true from hStart, Bool.true_or]
  have hName := readName_spelling (c :: rest)
  refine ⟨by simp [readWord, readName, takeWhile_append_dropWhile], by simp [readWord, readName, hContinue], ?_⟩
  simp only [readWord]
  split
  · exact hName.1.symm
  · exact ⟨.inl hName.1.symm, hName.2⟩

theorem readNumber_text_ne_nil (hStart : (c.isDigit || (c == '.' && startsWithDigit rest)) = true) :
    (readNumber (c :: rest)).text ≠ [] := by
  have hDecimal : (readDigits.decimal (c :: rest)).text ≠ [] := by
    simp only [readDigits.decimal]
    rcases Bool.or_eq_true _ _ ▸ hStart with hDigit | hPoint
    · simp [isDigitPart, hDigit]
    · obtain ⟨rfl, hNext⟩ : c = '.' ∧ startsWithDigit rest = true := by simpa using hPoint
      have hPart : isDigitPart '.' = false := by decide
      simp [hPart, readFraction, hNext]
  have hDigits : (readDigits (c :: rest)).text ≠ [] := by
    unfold readDigits
    split
    · split
      · simp
      · simp_all
    · exact hDecimal
  simp [readNumber, hDigits]

theorem readsOff_readNumber (hStart : (c.isDigit || (c == '.' && startsWithDigit rest)) = true) :
    ReadsOff (c :: rest) (.ok (readNumber (c :: rest))) := by
  refine ⟨(text_readNumber _).symm, readNumber_text_ne_nil hStart, ?_⟩
  simp only [readNumber]
  split <;> simp [TokenKind.SpelledBy]

theorem readsOff_readPunct (c : Char) (rest : List Char) :
    ReadsOff (c :: rest) ((readPunct (c :: rest)).map fun piece => ⟨.punct piece.value, piece.text, piece.rest⟩) := by
  unfold readPunct
  cases hFind : punctByLength.find? (startsWithPunct (c :: rest)) with
  | none => exact ⟨rest, rfl⟩
  | some mark =>
    have hStart : startsWithPunct (c :: rest) mark = true := List.find?_some hFind
    have hPrefix : mark.spelling.toList <+: c :: rest := by
      unfold startsWithPunct at hStart
      split at hStart
      · cases hStart
      · rename_i hStrip
        exact prefix_of_stripStart hStrip
    have hTake : (c :: rest).take mark.spelling.length = mark.spelling.toList := by
      rw [← String.length_toList]
      exact (prefix_iff_eq_take.mp hPrefix).symm
    refine ⟨(take_append_drop ..).symm, ?_, hTake⟩
    show (c :: rest).take mark.spelling.length ≠ []
    rw [hTake]
    cases mark <;> decide

theorem readsOff_readPlain (c : Char) (rest : List Char) : ReadsOff (c :: rest) (readPlain c rest) := by
  unfold readPlain
  split
  · rename_i hStart
    exact readsOff_readWord rest hStart
  split
  · rename_i hStart
    exact readsOff_readNumber hStart
  split
  · exact (took_readString ..).readsOff (by simp) fun _ _ => trivial
  split
  · exact (took_readCharacter ..).readsOff (by simp) fun _ _ => trivial
  · exact readsOff_readPunct c rest

theorem readsOff_read (c : Char) (rest : List Char) : ReadsOff (c :: rest) (read c rest) := by
  cases rest with
  | nil => exact readsOff_readPlain c []
  | cons second after =>
    rw [read]
    split
    · exact (took_readVerbatim ..).readsOff (by simp) fun _ _ => trivial
    split
    · rename_i hMarks
      obtain ⟨-, hQuote⟩ := Bool.and_eq_true _ _ ▸ hMarks
      obtain ⟨after, rfl⟩ : ∃ rest, after = '"' :: rest :=
        ⟨_, (cons_head?_tail (by simpa using hQuote)).symm⟩
      exact (took_readVerbatim ..).readsOff (by simp) fun _ _ => trivial
    split
    · exact (took_readString ..).readsOff (by simp) fun _ _ => trivial
    split
    · rename_i hAt
      obtain ⟨rfl, -⟩ : c = '@' ∧ Text.isIdentStart second = true := by simpa using hAt
      have hName := readName_spelling (second :: after)
      refine ⟨?_, by simp, .inr (by rw [hName.1]), hName.2⟩
      simp [readName, takeWhile_append_dropWhile]
    · exact readsOff_readPlain c (second :: after)

end Lexeme

/-! ## Tokens -/

/-- A text after another one is tiled by tokens: a gap before each, the text it is written with, and a gap before the
end token, which covers nothing. -/
inductive Tiled : List Char → List Char → List Token → Prop
  | last {before gap : List Char} : Gap before gap → Tiled before gap [⟨.eof, .over (before ++ gap) []⟩]
  | next {before gap text rest : List Char} {kind : TokenKind} {tokens : List Token} :
      Gap before gap → text ≠ [] → kind.SpelledBy text → Tiled (before ++ gap ++ text) rest tokens →
      Tiled before (gap ++ text ++ rest) (⟨kind, .over (before ++ gap) text⟩ :: tokens)

/-- What splitting a text gives: tokens that tile it, or an error about a part of it. -/
def Tiles (before text : List Char) (tokens : Array Token) : Except SyntaxError (Array Token) → Prop
  | .ok result => ∃ more, result.toList = tokens.toList ++ more ∧ Tiled before text more
  | .error error => error.span.WithinText (before ++ text)

theorem Tiles.next {before gap rest : List Char} {kind : TokenKind} {result : Except SyntaxError (Array Token)}
    (hTiles : Tiles (before ++ gap ++ text) rest (toks.push ⟨kind, .over (before ++ gap) text⟩) result)
    (hGap : Gap before gap) (hText : text ≠ []) (hSpelled : kind.SpelledBy text) :
    Tiles before (gap ++ (text ++ rest)) toks result := by
  cases result with
  | error error => simpa [Tiles] using hTiles
  | ok result =>
    obtain ⟨more, hMore, hTiled⟩ := hTiles
    refine ⟨_ :: more, by simpa using hMore, ?_⟩
    rw [← append_assoc]
    exact .next hGap hText hSpelled hTiled

theorem tiles_tokensFrom (fuel : Nat) (before text : List Char) (toks : Array Token) (hFuel : text.length < fuel) :
    Tiles before text toks (tokensFrom fuel (Place.first.advanceOver before) text toks) := by
  induction fuel generalizing before text toks with
  | zero => exact absurd hFuel (Nat.not_lt_zero _)
  | succ fuel ih =>
    rw [tokensFrom]
    split
    · rename_i hSkip
      exact GapMode.withinText_of_skipGap hSkip trivial
    · rename_i hSkip
      obtain ⟨gap, rfl, rfl, hGap, -⟩ := GapMode.leaves_of_skipGap hSkip
      refine ⟨_, Array.toList_push, ?_⟩
      have hEnd : (Place.first.advanceOver (before ++ gap)).span = .over (before ++ gap) [] := by
        rw [Place.first_advanceOver]
        simp [Place.span, Span.over]
      rw [hEnd, append_nil]
      exact .last hGap
    · rename_i c rest hSkip
      obtain ⟨gap, rfl, rfl, hGap, -⟩ := GapMode.leaves_of_skipGap hSkip
      have hRead := Lexeme.readsOff_read c rest
      split
      · rename_i misread hMisread
        rw [hMisread] at hRead
        obtain ⟨after, hWhole⟩ := hRead
        exact ⟨before ++ gap, misread.text.reverse, after, by simp [hWhole], Place.span_through ..⟩
      · rename_i piece hPiece
        rw [hPiece] at hRead
        obtain ⟨hWhole, hText, hSpelled⟩ := hRead
        have hLength : piece.rest.length < fuel := by
          have hPos := length_pos_of_ne_nil hText
          have hSum := congrArg List.length hWhole
          simp only [length_append] at hFuel hSum
          omega
        have hRest := ih (before ++ gap ++ piece.text) piece.rest
          (toks.push ⟨piece.value, .over (before ++ gap) piece.text⟩) hLength
        dsimp only
        rw [hWhole, Place.span_through, ← Place.advanceOver_append]
        exact hRest.next hGap hText hSpelled

theorem tiled_of_tokenize (hToks : tokenize src = .ok toks) : Tiled [] src.toList toks.toList := by
  unfold tokenize at hToks
  split at hToks
  · cases hToks
  · have hTiles := tiles_tokensFrom _ [] src.toList #[] (Nat.lt_succ_self _)
    obtain ⟨more, hMore, hTiled⟩ : Tiles [] src.toList #[] (.ok toks) := hToks ▸ hTiles
    rwa [hMore, nil_append]

theorem withinText_of_tokenize {error : SyntaxError} (hError : tokenize src = .error error) :
    error.span.WithinText src.toList := by
  unfold tokenize at hError
  split at hError
  · cases hError
    exact ⟨[], [], src.toList, rfl, rfl⟩
  · have hTiles := tiles_tokensFrom _ [] src.toList #[] (Nat.lt_succ_self _)
    exact (hError ▸ hTiles : Tiles [] src.toList #[] (.error error))

namespace Tiled

variable {before text : List Char} {toks : List Token}

theorem spelled (hTiled : Tiled before text toks) {token : Token} (hMem : token ∈ toks) :
    ∃ text, token.kind.SpelledBy text := by
  induction hTiled with
  | last => exact ⟨[], by simp_all [TokenKind.SpelledBy]⟩
  | next _ _ hSpelled _ ih =>
    rcases mem_cons.mp hMem with rfl | hRest
    · exact ⟨_, hSpelled⟩
    · exact ih hRest

/-- Every token lies inside the text, and only the end token, at its end, covers nothing. -/
theorem bounds (hTiled : Tiled before text toks) : ∀ token ∈ toks, byteCount before ≤ token.span.start ∧
    token.span.stop ≤ byteCount before + byteCount text ∧
    if token.kind = .eof then token.span.start = byteCount before + byteCount text ∧ token.span.stop = token.span.start
    else token.span.start < token.span.stop := by
  induction hTiled with
  | last => simp [Span.over]
  | @next before gap text rest kind toks _ hText hSpelled _ ih =>
    intro token hMem
    have hPos := byteCount_pos hText
    simp only [byteCount_append, ← Nat.add_assoc] at ih ⊢
    rcases mem_cons.mp hMem with rfl | hRest
    · have hKind : kind ≠ .eof := by
        rintro rfl
        exact hText hSpelled
      simp only [Span.over, byteCount_append, hKind, if_false]
      omega
    · obtain ⟨hStart, hStop, hKind⟩ := ih token hRest
      exact ⟨by omega, hStop, hKind⟩

theorem pairwise (hTiled : Tiled before text toks) :
    toks.Pairwise fun first second => first.span.stop ≤ second.span.start := by
  induction hTiled with
  | last => exact pairwise_singleton ..
  | next _ _ _ hRest ih =>
    refine pairwise_cons.mpr ⟨fun token hMem => ?_, ih⟩
    have hStart := (hRest.bounds token hMem).1
    simpa [Span.over, Nat.add_assoc] using hStart

end Tiled

/-- Splitting a source text either tiles it with tokens, in increasing order, or fails at a part of it. The spans have
the lines and columns of the texts that they cover. -/
theorem tokenize_tiles (source : String) :
    (∀ tokens, tokenize source = .ok tokens → Tiled [] source.toList tokens.toList ∧
      tokens.toList.Pairwise (fun first second => first.span.stop ≤ second.span.start) ∧
      ∀ token ∈ tokens, token.span.stop ≤ source.utf8ByteSize ∧
        if token.kind = .eof then token.span.start = source.utf8ByteSize ∧ token.span.stop = token.span.start
        else token.span.start < token.span.stop) ∧
    ∀ error, tokenize source = .error error → error.span.WithinText source.toList := by
  refine ⟨fun tokens hTokens => ?_, fun error hError => withinText_of_tokenize hError⟩
  have hTiled := tiled_of_tokenize hTokens
  refine ⟨hTiled, hTiled.pairwise, fun token hMem => ?_⟩
  have hSize : byteCount source.toList = source.utf8ByteSize := by simp [byteCount]
  simpa [hSize] using (hTiled.bounds token hMem.val).2

theorem tokenize_tiles_commentedSum :
    (tokenize "@a/**/+\n 1").isOk = true ∧
      (∀ tokens, tokenize "@a/**/+\n 1" = .ok tokens → Tiled [] "@a/**/+\n 1".toList tokens.toList) ∧
      tokenize "a\n /*" = .error ⟨.unterminatedComment, ⟨2, 2, 3, 5⟩⟩ ∧
      (⟨2, 2, 3, 5⟩ : Span).WithinText "a\n /*".toList :=
  have hOpen : tokenize "a\n /*" = .error ⟨.unterminatedComment, ⟨2, 2, 3, 5⟩⟩ := by decide +kernel
  ⟨by decide +kernel, fun tokens hTokens => ((tokenize_tiles _).1 tokens hTokens).1, hOpen,
    (tokenize_tiles _).2 _ hOpen⟩

end Shaderlift
