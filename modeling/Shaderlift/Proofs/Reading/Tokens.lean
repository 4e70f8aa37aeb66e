import Shaderlift.Proofs.Reading.Lexemes

/-!
# The tokens of a row of marks

The text of marks that fit together is split into the tokens of the marks, one for each, and the two halves of
a shift touch (`tokensFrom_textOf`).
-/

namespace Shaderlift

open List Text
open TokenKind (isLeaf isTypeWord)
open Bool (and_eq_true or_eq_true not_eq_true' eq_false_iff)

namespace Lexeme

/-! ## Where a token starts -/

/-- The code points of white space. -/
def blankCodes : List Nat :=
  [9, 10, 11, 12, 13, 32, 0x85, 0xA0, 0x1680, 0x2000, 0x2001, 0x2002, 0x2003, 0x2004, 0x2005, 0x2006,
   0x2007, 0x2008, 0x2009, 0x200A, 0x2028, 0x2029, 0x202F, 0x205F, 0x3000]

variable {c : Char}

theorem mem_blankCodes (hBlank : isBlank c = true) : c.toNat ∈ blankCodes := by
  unfold isBlank at hBlank
  simp only [or_eq_true, and_eq_true, decide_eq_true_eq, beq_iff_eq] at hBlank
  simp only [blankCodes, mem_cons, not_mem_nil, or_false]
  omega

theorem isIdentStart_blankCodes :
    (blankCodes.all fun code => !isIdentStart (Char.ofNat code) && !(Char.ofNat code).isDigit) = true := by
  decide +kernel

theorem not_start_of_isBlank (hBlank : isBlank c = true) : isIdentStart c = false ∧ c.isDigit = false := by
  have hCode := all_eq_true.mp isIdentStart_blankCodes _ (mem_blankCodes hBlank)
  rw [Char.ofNat_toNat] at hCode
  simpa using hCode

/-- Decide whether a text starts with neither white space nor a comment nor a directive. -/
def isSolid : List Char → Bool
  | c :: rest =>
    !isBlank c && c != '#' && !(c == '/' && (rest.head? == some '/' || rest.head? == some '*'))
  | [] => false

theorem isSolid_of_isIdentStart (hStart : isIdentStart c = true) (rest : List Char) :
    isSolid (c :: rest) = true := by
  have hBlank : isBlank c = false := by
    rw [eq_false_iff]
    intro hBlank
    simp [(not_start_of_isBlank hBlank).1] at hStart
  have hHash : c ≠ '#' := ne_of_isIdentStart hStart rfl
  have hSlash : c ≠ '/' := ne_of_isIdentStart hStart rfl
  simp [isSolid, hBlank, hHash, hSlash]

theorem isSolid_of_startsNumber {rest more : List Char} (hStart : startsNumber (c :: rest) = true) :
    isSolid (c :: more) = true := by
  simp only [startsNumber, or_eq_true, and_eq_true, beq_iff_eq] at hStart
  rcases hStart with hDigit | ⟨rfl, -⟩
  · have hBlank : isBlank c = false := by
      rw [eq_false_iff]
      intro hBlank
      simp [(not_start_of_isBlank hBlank).2] at hDigit
    have hOther : ∀ d : Char, d.isDigit = false → c ≠ d := by
      rintro d hNot rfl
      simp [hNot] at hDigit
    simp [isSolid, hBlank, hOther '#' rfl, hOther '/' rfl]
  · simp [isSolid, isBlank]

/-- White space is skipped. -/
theorem skipGap_append {gap : List Char} (hGap : ∀ c ∈ gap, c = ' ') (text : List Char) (place : Place) :
    skipGap .blank place (gap ++ text) = skipGap .blank (place.advanceOver gap) text := by
  induction gap generalizing place with
  | nil => rfl
  | cons c gap ih =>
    obtain rfl := hGap c (by simp)
    have hBlank : isBlank ' ' = true := by simp [isBlank]
    simp only [cons_append, skipGap, gapAt, hBlank, if_true]
    exact ih (fun d hMem => hGap d (by simp [hMem])) _

theorem skipGap_of_isSolid {text : List Char} (hSolid : isSolid text = true) (place : Place) :
    skipGap .blank place text = .ok (place, text) := by
  cases text with
  | nil => simp [isSolid] at hSolid
  | cons c rest =>
    simp only [isSolid, and_eq_true, not_eq_true', bne_iff_ne, Bool.and_eq_false_iff,
      beq_eq_false_iff_ne, Bool.or_eq_false_iff] at hSolid
    obtain ⟨⟨hBlank, hHash⟩, hComment⟩ := hSolid
    have hNone : gapAt place c rest.head? = none := by
      rcases hComment with hSlash | hNext
      · simp [gapAt, hBlank, hHash, hSlash]
      · simp [gapAt, hBlank, hHash, hNext]
    simp [skipGap, hNone]

/-! ## Numbers are made of what is read -/

theorem text_readFraction (text : List Char) : (readFraction text).text ++ (readFraction text).rest = text := by
  unfold readFraction
  split
  · split <;> simp [takeWhile_append_dropWhile]
  · rfl

theorem text_readExponent (text : List Char) : (readExponent text).text ++ (readExponent text).rest = text := by
  unfold readExponent
  split
  · rfl
  · split
    · split
      · split
        · simp [takeWhile_append_dropWhile]
        · split <;> simp [takeWhile_append_dropWhile]
      · rfl
    · rfl

theorem text_readSuffix (based : Bool) (text : List Char) :
    (readSuffix based text).text ++ (readSuffix based text).rest = text := by
  unfold readSuffix
  split
  · rfl
  · split
    · rfl
    · split
      · split
        · split <;> rfl
        · rfl
      · split
        · split
          · split <;> rfl
          · rfl
        · rfl

theorem text_decimal (text : List Char) : (readDigits.decimal text).text ++ (readDigits.decimal text).rest = text := by
  simp only [readDigits.decimal, append_assoc, text_readExponent, text_readFraction,
    takeWhile_append_dropWhile]

theorem text_readDigits (text : List Char) : (readDigits text).text ++ (readDigits text).rest = text := by
  unfold readDigits
  split
  · split
    · simp [takeWhile_append_dropWhile]
    · exact text_decimal _
  · exact text_decimal _

theorem text_readNumber (text : List Char) : (readNumber text).text ++ (readNumber text).rest = text := by
  simp only [readNumber, append_assoc, text_readSuffix, text_readDigits]

end Lexeme

/-! ## Marks that are tokens -/

def TokenKind.namesType : TokenKind → Bool
  | .ident name => Lexeme.isName name
  | kind => kind.isTypeWord

namespace Mark

def beforeMarks : List Punct :=
  [.minus, .plus, .bang, .tilde, .plusPlus, .minusMinus, .amp, .star, .caret]

/-- The marks of the operators between operands, the halves of a shift apart. -/
def betweenMarks : List Punct :=
  [.star, .slash, .percent, .plus, .minus, .shl, .lt, .gt, .ltEq, .gtEq, .eqEq, .bangEq, .amp, .caret, .pipe,
   .ampAmp, .pipePipe, .questionQuestion, .eq, .plusEq, .minusEq, .starEq, .slashEq, .percentEq, .ampEq,
   .pipeEq, .caretEq, .shlEq, .questionQuestionEq, .question, .colon]

/-- Decide whether a mark is spelled like a token that may play its part. -/
def sound : Mark → Bool
  | .leaf kind => kind.isLeaf || kind.isTypeWord
  | .name text => Lexeme.isName text
  | .before mark => beforeMarks.contains mark
  | .after mark => mark == .plusPlus || mark == .minusMinus
  | .between mark => betweenMarks.contains mark
  | .joined mark => mark == .gt || mark == .gtEq
  | .typeName kind => kind.namesType
  | _ => true

end Mark

theorem TokenKind.namesType_ofTypeName {type : String} (hType : OutExpr.isTypeText type = true) :
    (ofTypeName type).namesType = true := by
  unfold ofTypeName
  split
  · rename_i hWord
    exact hWord
  · rename_i hWord
    rw [OutExpr.isTypeText, or_eq_true] at hType
    exact hType.resolve_left hWord

namespace OutExpr

theorem sound_typeWord {expr : OutExpr} (hWord : expr.isTypeWord = true) : expr.marks.all Mark.sound = true := by
  cases expr with
  | token kind => simpa [marks, Mark.sound] using .inr hWord
  | _ => simp [isTypeWord] at hWord

attribute [local simp] marks Mark.sound

mutual

theorem sound_marks {expr : OutExpr} (hFormed : expr.formed = true) : expr.marks.all Mark.sound = true := by
  cases expr with
  | token | qualified =>
    rw [formed] at hFormed
    simp [hFormed]
  | member target name =>
    simp only [formed, and_eq_true, or_eq_true] at hFormed
    have hTarget : target.marks.all Mark.sound = true := by
      rcases hFormed.1 with hWord | hTarget
      · exact sound_typeWord hWord
      · exact sound_marks hTarget.2
    simpa [hTarget] using hFormed.2
  | index target args =>
    simp only [formed, and_eq_true] at hFormed
    have hTarget := sound_marks hFormed.1.1.2
    have hArgs := sound_listMarks hFormed.2
    simp [hTarget, hArgs]
  | call callee args =>
    simp only [formed, and_eq_true, or_eq_true] at hFormed
    have hCallee : callee.marks.all Mark.sound = true := by
      rcases hFormed.1 with hWord | hCallee
      · exact sound_typeWord hWord
      · exact sound_marks hCallee.2
    have hArgs := sound_listMarks hFormed.2
    simp [hCallee, hArgs]
  | unary op operand =>
    simp only [formed, and_eq_true] at hFormed
    have hOperand := sound_marks hFormed.1.2
    simp only [marks, all_cons, hOperand]
    cases op <;> rfl
  | post op operand =>
    simp only [formed, and_eq_true] at hFormed
    have hOperand := sound_marks hFormed.2
    simp only [marks, all_append, hOperand]
    cases op <;> rfl
  | binary op lhs rhs =>
    simp only [formed, and_eq_true] at hFormed
    have hLeft := sound_marks hFormed.1.1.2
    have hRight := sound_marks hFormed.2
    simp only [marks, all_append, hLeft, hRight]
    cases op <;> rfl
  | assign op target val =>
    simp only [formed, and_eq_true] at hFormed
    have hTarget := sound_marks hFormed.1.2
    have hVal := sound_marks hFormed.2
    simp only [marks, all_append, hTarget, hVal]
    cases op <;> rfl
  | conditional cond thenExpr elseExpr =>
    simp only [formed, and_eq_true] at hFormed
    have hCond := sound_marks hFormed.1.1.2
    have hThen := sound_marks hFormed.1.2
    have hElse := sound_marks hFormed.2
    simp [hCond, hThen, hElse, Mark.betweenMarks]
  | cast type operand =>
    simp only [formed, and_eq_true] at hFormed
    have hOperand := sound_marks hFormed.1.2
    have hType := TokenKind.namesType_ofTypeName hFormed.1.1.1
    simp [hOperand, hType]
  | paren inner =>
    rw [formed] at hFormed
    have hInner := sound_marks hFormed
    simp [hInner]
  | braces items =>
    rw [formed] at hFormed
    have hItems := sound_listMarks (formedList_of_formedItems hFormed)
    simp [hItems]

theorem sound_listMarks {items : List OutExpr} (hItems : formedList items = true) :
    (listMarks items).all Mark.sound = true := by
  match items with
  | [] => rfl
  | [item] =>
    rw [formedList, and_eq_true] at hItems
    exact sound_marks hItems.1
  | item :: next :: others =>
    rw [formedList, and_eq_true] at hItems
    have hItem := sound_marks hItems.1
    have hOthers := sound_listMarks hItems.2
    simp [listMarks, hItem, hOthers]

end

end OutExpr

/-! ## Reading one mark -/

namespace Lexeme

theorem exists_cons_of_isName {text : String} (hName : isName text = true) :
    ∃ c tail, text.toList = c :: tail ∧ isIdentStart c = true ∧
      (c :: tail).all isIdentContinue = true ∧ reservedWords.contains text = false := by
  simp only [isName, and_eq_true, not_eq_true'] at hName
  cases hText : text.toList with
  | nil => simp [hText] at hName
  | cons c tail =>
    rw [hText] at hName
    exact ⟨c, tail, rfl, by simpa using hName.1.1, hName.1.2, hName.2⟩

theorem stop_cons {c : Char} (hc : isIdentContinue c = false) (hDot : c ≠ '.') (rest : List Char) :
    Stop (c :: rest) := by
  refine ⟨?_, ?_⟩
  · rintro d hMem
    cases hMem
    exact hc
  · intro tail hEq
    exact absurd (List.cons.inj hEq).1 hDot

theorem stop_nil : Stop [] := by
  constructor <;> simp

end Lexeme

namespace Mark

open Lexeme

theorem linked_done {rest : List Mark} (hLinked : Linked (.done :: rest)) : rest = [] := by
  cases rest with
  | nil => rfl
  | cons next rest => exact absurd (isChain_cons_cons.mp hLinked).1 Bool.false_ne_true

variable {rest : List Char} {next mark : Mark} {text : String}

/-- What follows an operand, or the type of a cast, continues neither a name nor a number. -/
theorem stop_textOf {rest : List Mark} (hEnd : next.follows = true ∨ next = .closes .castType)
    (hLinked : Linked (next :: rest)) (hSound : (next :: rest).all sound = true) : Stop (textOf (next :: rest)) := by
  cases next with
  | dot =>
    refine ⟨?_, ?_⟩
    · rintro c hMem
      cases hMem
      rfl
    · intro tail hEq
      have hTail : textOf rest = tail := (List.cons.inj hEq).2
      cases rest with
      | nil =>
        subst hTail
        rfl
      | cons name rest =>
        have hName := (isChain_cons_cons.mp hLinked).1
        cases name with
        | name text =>
          simp only [all_cons, and_eq_true] at hSound
          obtain ⟨c, more, hText, hStart, -, -⟩ := exists_cons_of_isName hSound.2.1
          have hDigit : c.isDigit = false := by
            rw [eq_false_iff]
            intro hDigit
            simp [isIdentStart_of_isDigit hDigit] at hStart
          subst hTail
          simp [chars, lead, letters, kind, TokenKind.spelling, hText, startsWithDigit, hDigit]
        | _ => simp [beside, isMemberName] at hName
  | after mark =>
    simp only [all_cons, and_eq_true, sound, or_eq_true, beq_iff_eq] at hSound
    rcases hSound.1 with rfl | rfl
    · exact stop_cons rfl (by decide) _
    · exact stop_cons rfl (by decide) _
  | opens bracket =>
    cases bracket with
    | args | index => exact stop_cons rfl (by decide) _
    | _ => simp [follows] at hEnd
  | closes bracket => cases bracket <;> exact stop_cons rfl (by decide) _
  | between | angle | comma => exact stop_cons rfl (by decide) _
  | done =>
    obtain rfl := linked_done hLinked
    exact stop_nil
  | _ => simp [follows] at hEnd

/-- The text from a mark on is read as the token of the mark, and the text after it is left. -/
def ReadsFirst (mark : Mark) (rest : List Char) : Prop :=
  ∃ c tail, mark.letters = c :: tail ∧ isSolid (c :: (tail ++ rest)) = true ∧
    read c (tail ++ rest) = .ok ⟨mark.kind, c :: tail, rest⟩

theorem readsFirst_word (hKind : mark.kind = if reservedWords.contains text then .word text else .ident text)
    (hText : (text.toList.head?.any isIdentStart && text.toList.all isIdentContinue) = true)
    (hStop : Stop rest) : mark.ReadsFirst rest := by
  have hSpelling : mark.letters = text.toList := by
    rw [letters, hKind]
    split <;> rfl
  rw [and_eq_true] at hText
  cases hList : text.toList with
  | nil => simp [hList] at hText
  | cons c tail =>
    rw [hList] at hText
    have hStart : isIdentStart c = true := by simpa using hText.1
    have hOf : String.ofList (c :: tail) = text := by rw [← hList, String.ofList_toList]
    refine ⟨c, tail, by rw [hSpelling, hList], isSolid_of_isIdentStart hStart _, ?_⟩
    rw [read_word hStart hText.2 hStop, hOf, hKind]

theorem readsFirst_name (hKind : mark.kind = .ident text) (hName : Lexeme.isName text = true) (hStop : Stop rest) :
    mark.ReadsFirst rest := by
  rw [Lexeme.isName, and_eq_true, not_eq_true'] at hName
  exact readsFirst_word (by rw [hKind, hName.2]; rfl) hName.1 hStop

theorem words_spelled : ((typeWords ++ ["this", "true", "false"]).all fun text =>
      reservedWords.contains text && (text.toList.head?.any isIdentStart &&
        text.toList.all isIdentContinue)) = true := by
  decide

theorem readsFirst_reserved (hKind : mark.kind = .word text) (hMem : text ∈ typeWords ++ ["this", "true", "false"])
    (hStop : Stop rest) : mark.ReadsFirst rest := by
  have hText := all_eq_true.mp words_spelled text hMem
  rw [and_eq_true] at hText
  exact readsFirst_word (by rw [hKind, hText.1]; rfl) hText.2 hStop

theorem readsFirst_number (hSpelling : mark.kind.spelling = text) (hNumber : mark.kind.readsAsNumber text = true)
    (hStop : Stop rest) : mark.ReadsFirst rest := by
  simp only [TokenKind.readsAsNumber, and_eq_true, List.isEmpty_iff, beq_iff_eq] at hNumber
  obtain ⟨⟨hStart, hRest⟩, hVal⟩ := hNumber
  cases hList : text.toList with
  | nil => simp [hList, startsNumber] at hStart
  | cons c tail =>
    rw [hList] at hStart hRest hVal
    have hText := text_readNumber (c :: tail)
    rw [hRest, append_nil] at hText
    refine ⟨c, tail, by rw [letters, hSpelling, hList], isSolid_of_startsNumber hStart, ?_⟩
    exact read_number hStart (Piece.ext hVal hText hRest) hStop

/-- A mark of one punctuation token is read if no character extends it. -/
theorem readsFirst_punct (punct : Punct) (hKind : mark.kind = .punct punct)
    (hPlain : punct ∉ [.questionDot, .at, .dotDot]) (hRest : ∀ d ∈ rest.head?, d ∉ punct.extensions)
    (hDot : punct = .dot → startsWithDigit rest = false) (hSlash : punct = .slash → rest.head? = some ' ') :
    mark.ReadsFirst rest := by
  simp only [mem_cons, not_mem_nil, or_false, not_or] at hPlain
  cases hList : punct.spelling.toList with
  | nil => cases punct <;> simp [Punct.spelling] at hList
  | cons c tail =>
    have hFirst := isPunctStart_of_spelling hList hPlain.2.1
    have hPoint : c = '.' → startsWithDigit (tail ++ rest) = false := by
      rintro rfl
      cases punct <;> simp_all [Punct.spelling]
    have hComment : c = '/' → (tail ++ rest).head? ≠ some '/' ∧ (tail ++ rest).head? ≠ some '*' := by
      rintro rfl
      cases punct <;> simp_all [Punct.spelling]
      obtain ⟨-, rfl⟩ := hList
      simp
    refine ⟨c, tail, by rw [letters, hKind]; exact hList, ?_, ?_⟩
    · simp only [isPunctStart, and_eq_true, not_eq_true', String.reduceToList, contains_eq_mem,
        mem_cons, not_mem_nil, or_false, decide_eq_false_iff_not, not_or] at hFirst
      by_cases hc : c = '/'
      · simp [isSolid, hFirst, hComment hc, -List.head?_append]
      · simp [isSolid, hFirst, hc]
    · rw [read_punct hList hPlain.1 hPlain.2.1 hRest hPoint, hKind]

theorem mem_words_of_sound (hSound : (leaf (.word text)).sound = true) :
    text ∈ typeWords ++ ["this", "true", "false"] := by
  simp only [sound, isLeaf, isTypeWord, or_eq_true, beq_iff_eq,
    contains_iff_mem] at hSound
  simp only [mem_append, mem_cons, not_mem_nil, or_false]
  tauto

theorem exists_cons_leaf {kind : TokenKind} (hSound : (leaf kind).sound = true) :
    ∃ c tail, kind.spelling.toList = c :: tail ∧ (isIdentStart c = true ∨ startsNumber (c :: tail) = true) := by
  have hNumber : ∀ {kind : TokenKind} {text : String}, kind.readsAsNumber text = true →
      ∃ c tail, text.toList = c :: tail ∧ (isIdentStart c = true ∨ startsNumber (c :: tail) = true) := by
    intro kind text hReads
    simp only [TokenKind.readsAsNumber, and_eq_true] at hReads
    cases hList : text.toList with
    | nil => simp [hList, startsNumber] at hReads
    | cons c tail =>
      rw [hList] at hReads
      exact ⟨c, tail, rfl, .inr hReads.1.1⟩
  cases kind with
  | ident name =>
    simp only [sound, isLeaf, isTypeWord, Bool.or_false, and_eq_true] at hSound
    obtain ⟨c, tail, hList, hStart, -, -⟩ := exists_cons_of_isName hSound.1
    exact ⟨c, tail, hList, .inl hStart⟩
  | word text =>
    have hText := all_eq_true.mp words_spelled text (mem_words_of_sound hSound)
    simp only [and_eq_true] at hText
    cases hList : text.toList with
    | nil => simp [hList] at hText
    | cons c tail => exact ⟨c, tail, hList, .inl (by simpa [hList] using hText.2.1)⟩
  | int text | real text =>
    simp only [sound, isLeaf, isTypeWord, Bool.or_false, and_eq_true] at hSound
    exact hNumber hSound.1
  | _ => simp [sound, isLeaf, isTypeWord] at hSound

theorem signs_apart :
    (beforeMarks.all fun first => beforeMarks.all fun second =>
      fuses first (.before second) || second.spelling.toList.head?.all (!first.extensions.contains ·)) = true := by
  decide

/-- The first character of an operand extends no sign that does not run into it. -/
theorem head_not_extends {punct : Punct} (hPunct : punct ∈ beforeMarks) (hNext : next.startsOperand = true)
    (hFuses : fuses punct next = false) (hSound : next.sound = true) (rest : List Mark) :
    ∀ d ∈ (textOf (next :: rest)).head?, d ∉ punct.extensions := by
  intro d hMem hExt
  have hSign : d ∈ ['-', '+', '&', '='] := by
    simp only [beforeMarks, mem_cons, not_mem_nil, or_false] at hPunct
    rcases hPunct with rfl | rfl | rfl | rfl | rfl | rfl | rfl | rfl | rfl <;>
      simp_all [Punct.extensions] <;> tauto
  cases next with
  | leaf kind =>
    obtain ⟨c, tail, hList, hStart⟩ := exists_cons_leaf hSound
    have hEq : c = d := by simpa [chars, lead, letters, Mark.kind, hList] using hMem
    subst hEq
    simp only [mem_cons, not_mem_nil, or_false] at hSign
    rcases hSign with rfl | rfl | rfl | rfl <;> rcases hStart with hStart | hStart <;> cases hStart
  | before second =>
    have hApart := all_eq_true.mp (all_eq_true.mp signs_apart punct hPunct) second
      (by simpa [sound] using hSound)
    rw [hFuses, Bool.false_or] at hApart
    have hHead : second.spelling.toList.head? = some d := by
      cases hList : second.spelling.toList with
      | nil => cases second <;> simp [Punct.spelling] at hList
      | cons c tail => simpa [chars, lead, letters, Mark.kind, TokenKind.spelling, hList] using hMem
    simp [hHead, hExt] at hApart
  | opens bracket =>
    cases bracket with
    | group | castType =>
      obtain rfl : '(' = d := Option.some.inj hMem
      simp at hSign
    | braces =>
      obtain rfl : '\x7b' = d := Option.some.inj hMem
      simp at hSign
    | _ => simp [startsOperand] at hNext
  | _ => simp [startsOperand] at hNext

/-- A mark that fits what follows it is read as its token. -/
theorem readsFirst {rest : List Mark} (hLinked : Linked (mark :: next :: rest))
    (hSound : (mark :: next :: rest).all sound = true) : mark.ReadsFirst (mark.trail ++ textOf (next :: rest)) := by
  obtain ⟨hBeside, hRest⟩ := isChain_cons_cons.mp hLinked
  rw [all_cons, and_eq_true] at hSound
  obtain ⟨hMark, hOthers⟩ := hSound
  -- no mark is extended by a blank
  have hBlank : ∀ (punct : Punct) (more : List Char), ∀ d ∈ (' ' :: more).head?, d ∉ punct.extensions := by
    intro punct more d hMem
    cases hMem
    cases punct <;> decide
  cases mark with
  | leaf kind =>
    rw [beside, and_eq_true] at hBeside
    have hStop := stop_textOf (.inl hBeside.1) hRest hOthers
    cases kind with
    | ident name =>
      simp only [sound, isLeaf, isTypeWord, Bool.or_false, and_eq_true] at hMark
      exact readsFirst_name rfl hMark.1 hStop
    | word text => exact readsFirst_reserved rfl (mem_words_of_sound hMark) hStop
    | int text | real text =>
      simp only [sound, isLeaf, isTypeWord, Bool.or_false, and_eq_true] at hMark
      exact readsFirst_number rfl hMark.1 hStop
    | _ => simp [sound, isLeaf, isTypeWord] at hMark
  | name text => exact readsFirst_name rfl hMark (stop_textOf (.inl hBeside) hRest hOthers)
  | typeName kind =>
    rw [beside, beq_iff_eq] at hBeside
    have hStop := stop_textOf (.inr hBeside) hRest hOthers
    cases kind with
    | ident name => exact readsFirst_name rfl hMark hStop
    | word text =>
      have hMem : text ∈ typeWords := by simpa [sound, TokenKind.namesType, isTypeWord] using hMark
      exact readsFirst_reserved rfl (mem_append_left _ hMem) hStop
    | _ => simp [sound, TokenKind.namesType, isTypeWord] at hMark
  | dot =>
    cases next with
    | name text =>
      rw [all_cons, and_eq_true] at hOthers
      obtain ⟨c, tail, hList, hStart, -, -⟩ := exists_cons_of_isName hOthers.1
      have hText : textOf (.name text :: rest) = c :: (tail ++ textOf rest) := by
        simp [chars, lead, letters, trail, kind, TokenKind.spelling, hList]
      have hDigit : c.isDigit = false := by
        rw [eq_false_iff]
        intro hDigit
        simp [isIdentStart_of_isDigit hDigit] at hStart
      rw [hText]
      refine readsFirst_punct .dot rfl (by decide) ?_ (fun _ => hDigit) (by simp)
      rintro d hMem
      cases hMem
      simpa [Punct.extensions] using ne_of_isIdentStart hStart rfl
    | _ => simp [beside, isMemberName] at hBeside
  | before punct =>
    simp only [beside, and_eq_true, not_eq_true'] at hBeside
    rw [all_cons, and_eq_true] at hOthers
    have hMem : punct ∈ beforeMarks := by simpa [sound] using hMark
    refine readsFirst_punct _ rfl ?_ (head_not_extends hMem hBeside.1 hBeside.2 hOthers.1 rest) ?_ ?_
    · revert hMem
      cases punct <;> decide
    · rintro rfl
      exact absurd hMem (by decide)
    · rintro rfl
      exact absurd hMem (by decide)
  | after punct =>
    simp only [sound, or_eq_true, beq_iff_eq] at hMark
    rcases hMark with rfl | rfl
    · exact readsFirst_punct .plusPlus rfl (by decide) (by simp [Punct.extensions]) (by simp) (by simp)
    · exact readsFirst_punct .minusMinus rfl (by decide) (by simp [Punct.extensions]) (by simp) (by simp)
  | between punct =>
    have hMem : punct ∈ betweenMarks := by simpa [sound] using hMark
    refine readsFirst_punct _ rfl ?_ (hBlank _ _) ?_ fun _ => rfl
    · revert hMem
      cases punct <;> decide
    · exact fun _ => rfl
  | angle =>
    cases next with
    | joined punct =>
      have hHead : ∃ more, textOf (.joined punct :: rest) = '>' :: more := by
        simp only [all_cons, and_eq_true, sound, or_eq_true, beq_iff_eq] at hOthers
        rcases hOthers.1 with rfl | rfl
        · exact ⟨_, rfl⟩
        · exact ⟨_, rfl⟩
      obtain ⟨more, hMore⟩ := hHead
      rw [hMore]
      exact readsFirst_punct .gt rfl (by decide) (by simp [trail, Punct.extensions]) (by simp) (by simp)
    | _ => simp [beside, isJoined] at hBeside
  | joined punct =>
    simp only [sound, or_eq_true, beq_iff_eq] at hMark
    rcases hMark with rfl | rfl
    · exact readsFirst_punct .gt rfl (by decide) (hBlank _ _) (by simp) (by simp)
    · exact readsFirst_punct .gtEq rfl (by decide) (hBlank _ _) (by simp) (by simp)
  | opens bracket =>
    cases bracket <;>
      exact readsFirst_punct _ rfl (by decide) (by simp [Bracket.opening, Punct.extensions]) (by simp [Bracket.opening])
        (by simp [Bracket.opening])
  | closes bracket =>
    cases bracket <;>
      exact readsFirst_punct _ rfl (by decide) (by simp [Bracket.closing, Punct.extensions]) (by simp [Bracket.closing])
        (by simp [Bracket.closing])
  | comma => exact readsFirst_punct .comma rfl (by decide) (hBlank _ _) (by simp) (by simp)
  | done => exact absurd hBeside Bool.false_ne_true

/-! ## The tokens of a row -/

/-- Tokens are those of a row of marks, and the first half of a shift touches the second. -/
def Spelled : List Token → List Mark → Prop
  | [], [] => True
  | token :: tokens, mark :: marks =>
    token.kind = mark.kind ∧
      (mark = .angle → ∀ next ∈ tokens.head?, token.span.stop = next.span.start) ∧ Spelled tokens marks
  | _, _ => False

end Mark

theorem Place.offset_le_advanceOver (place : Place) (text : List Char) :
    place.offset ≤ (place.advanceOver text).offset := by
  induction text generalizing place with
  | nil => exact Nat.le_refl _
  | cons c text ih =>
    refine Nat.le_trans ?_ (ih (place.advance c))
    unfold Place.advance
    split <;> simp

namespace Lexeme

theorem tokensFrom_step {gap rest : List Char} {mark : Mark} (hGap : ∀ c ∈ gap, c = ' ')
    (hReads : mark.ReadsFirst rest) (fuel : Nat) (place : Place) (toks : Array Token) :
    tokensFrom (fuel + 1) place (gap ++ (mark.letters ++ rest)) toks =
      tokensFrom fuel ((place.advanceOver gap).advanceOver mark.letters) rest
        (toks.push ⟨mark.kind, (place.advanceOver gap).span.through
          ((place.advanceOver gap).advanceOver mark.letters).span⟩) := by
  obtain ⟨c, tail, hLetters, hSolid, hRead⟩ := hReads
  rw [tokensFrom, skipGap_append hGap, hLetters, cons_append, skipGap_of_isSolid hSolid]
  simp only [hRead]

end Lexeme

namespace Mark

open Lexeme

theorem blank_lead (mark : Mark) : ∀ c ∈ mark.lead, c = ' ' := by
  cases mark <;> simp [lead]

theorem blank_trail (mark : Mark) : ∀ c ∈ mark.trail, c = ' ' := by
  cases mark <;> simp [trail]

theorem lead_of_isJoined {mark : Mark} (hJoined : mark.isJoined = true) : mark.lead = [] := by
  cases mark with
  | joined punct => rfl
  | _ => simp [isJoined] at hJoined

/-- The text of marks that fit together is split into their tokens. -/
theorem tokensFrom_textOf {marks : List Mark} (hLinked : Linked marks) (hSound : marks.all sound = true)
    (hDone : marks.getLast? = some .done) {fuel : Nat} {gap : List Char} (hGap : ∀ c ∈ gap, c = ' ')
    (hFuel : (textOf marks).length < fuel) (place : Place) (toks : Array Token) :
    ∃ new, tokensFrom fuel place (gap ++ textOf marks) toks = .ok (toks ++ new.toArray) ∧ Spelled new marks ∧
      ∀ token ∈ new.head?, ∀ mark ∈ marks.head?, token.span.start = (place.advanceOver (gap ++ mark.lead)).offset := by
  induction marks generalizing fuel gap place toks with
  | nil => cases hDone
  | cons mark marks ih =>
    obtain ⟨fuel, rfl⟩ : ∃ more, fuel = more + 1 := ⟨fuel - 1, by omega⟩
    cases marks with
    | nil =>
      obtain rfl : mark = .done := Option.some.inj hDone
      refine ⟨[⟨.eof, (place.advanceOver gap).span⟩], ?_, ⟨rfl, by simp, trivial⟩, ?_⟩
      · have hText : textOf [.done] = [] := rfl
        rw [tokensFrom, hText, skipGap_append hGap]
        simp [skipGap]
      · rintro token hToken mark hMark
        cases hToken
        cases hMark
        simp [lead, Place.span]
    | cons next rest =>
      have hReads := readsFirst hLinked hSound
      obtain ⟨hBeside, hRest⟩ := isChain_cons_cons.mp hLinked
      have hLead : ∀ c ∈ gap ++ mark.lead, c = ' ' := by
        intro c hMem
        exact (mem_append.mp hMem).elim (hGap c) (blank_lead mark c)
      have hText : gap ++ textOf (mark :: next :: rest) =
          (gap ++ mark.lead) ++ (mark.letters ++ (mark.trail ++ textOf (next :: rest))) := by
        simp only [textOf_cons mark, chars, append_assoc]
      have hShort : (textOf (next :: rest)).length < fuel := by
        obtain ⟨c, tail, hLetters, -, -⟩ := hReads
        simp only [textOf_cons mark, chars, hLetters, length_append, length_cons] at hFuel
        omega
      rw [hText, tokensFrom_step hLead hReads]
      generalize hStart : place.advanceOver (gap ++ mark.lead) = start
      rw [all_cons, and_eq_true] at hSound
      obtain ⟨new, hToks, hSpelled, hNew⟩ := ih hRest hSound.2 hDone (blank_trail mark) hShort (start.advanceOver mark.letters)
        (toks.push ⟨mark.kind, start.span.through (start.advanceOver mark.letters).span⟩)
      refine ⟨⟨mark.kind, start.span.through (start.advanceOver mark.letters).span⟩ :: new,
        by rw [hToks]; simp, ⟨rfl, ?_, hSpelled⟩, ?_⟩
      · rintro rfl token hToken
        rw [hNew token hToken next rfl, lead_of_isJoined hBeside]
        exact Nat.max_eq_left (start.offset_le_advanceOver _)
      · rintro token hToken mark hMark
        cases hToken
        cases hMark
        rw [hStart]
        rfl

end Mark

/-- The text of a formed tree is split into the tokens of its marks. -/
theorem OutExpr.tokenize_text {expr : OutExpr} (hFormed : expr.formed = true)
    (hShort : expr.text.utf8ByteSize ≤ maxSourceBytes) :
    ∃ toks, tokenize expr.text = .ok toks ∧ Mark.Spelled toks.toList (expr.marks ++ [.done]) := by
  have hLinked : Mark.Linked (expr.marks ++ [.done]) := linked_marks hFormed rfl (by simp) (isChain_singleton _)
  have hSound : (expr.marks ++ [Mark.done]).all Mark.sound = true := by
    rw [all_append, sound_marks hFormed]
    rfl
  have hText : expr.text.toList = Mark.textOf (expr.marks ++ [.done]) := by
    rw [toList_text, Mark.textOf_append]
    exact (append_nil _).symm
  obtain ⟨new, hToks, hSpelled, -⟩ := Mark.tokensFrom_textOf hLinked hSound (by simp)
    (forall_mem_nil (· = ' '))
    (Nat.lt_succ_self _) Place.first #[]
  refine ⟨new.toArray, ?_, hSpelled⟩
  rw [tokenize, if_neg (Nat.not_lt.mpr hShort), hText]
  simpa using hToks

end Shaderlift
