import Shaderlift.Source.SyntaxError
import Shaderlift.Text.Dotted
import Shaderlift.Text.Letter

/-!
Single lexemes. A reader takes the text from the first character of a token on and returns the token
with the characters it is written with and the text after them. A reader that fails returns the cause
and the characters it had read.
-/

namespace Shaderlift

/-- A value read from the front of a text, its characters, and what follows. -/
@[ext] structure Piece (α : Type) where
  value : α
  text : List Char
  rest : List Char

/-- A failed reading: its cause and the characters read until it showed. -/
structure Misread where
  fault : SyntaxFault
  text : List Char

namespace Lexeme

def isDigitPart (c : Char) : Bool := c.isDigit || c == '_'

def hexValue (c : Char) : Option Nat :=
  if c.isDigit then some (c.toNat - '0'.toNat)
  else if 'a' ≤ c && c ≤ 'f' then some (c.toNat - 'a'.toNat + 10)
  else if 'A' ≤ c && c ≤ 'F' then some (c.toNat - 'A'.toNat + 10)
  else none

def isHexPart (c : Char) : Bool := (hexValue c).isSome || c == '_'

def startsWithDigit : List Char → Bool
  | c :: _ => c.isDigit
  | [] => false

def readName (text : List Char) : Piece String :=
  let name := text.takeWhile Text.isIdentContinue
  ⟨String.ofList name, name, text.dropWhile Text.isIdentContinue⟩

def readFraction : List Char → Piece Bool
  | '.' :: rest =>
    if startsWithDigit rest then
      ⟨true, '.' :: rest.takeWhile isDigitPart, rest.dropWhile isDigitPart⟩
    else ⟨false, [], '.' :: rest⟩
  | text => ⟨false, [], text⟩

/-- Read an exponent. A letter that no digit follows is left alone. -/
def readExponent : List Char → Piece Bool
  | [] => ⟨false, [], []⟩
  | mark :: rest =>
    if mark == 'e' || mark == 'E' then
      match rest with
      | sign :: digits =>
        if (sign == '+' || sign == '-') && startsWithDigit digits then
          ⟨true, mark :: sign :: digits.takeWhile isDigitPart, digits.dropWhile isDigitPart⟩
        else if sign.isDigit then
          ⟨true, mark :: rest.takeWhile isDigitPart, rest.dropWhile isDigitPart⟩
        else ⟨false, [], mark :: rest⟩
      | [] => ⟨false, [], mark :: rest⟩
    else ⟨false, [], mark :: rest⟩

/-- Read the suffix of a number; `f`, `d` and `m` make it real and are no suffix when `based`. -/
def readSuffix (based : Bool) : List Char → Piece Bool
  | [] => ⟨false, [], []⟩
  | mark :: rest =>
    if "fFdDmM".toList.contains mark && !based then ⟨true, [mark], rest⟩
    else if mark == 'u' || mark == 'U' then
      match rest with
      | second :: after =>
        if second == 'l' || second == 'L' then ⟨false, [mark, second], after⟩
        else ⟨false, [mark], rest⟩
      | [] => ⟨false, [mark], rest⟩
    else if mark == 'l' || mark == 'L' then
      match rest with
      | second :: after =>
        if second == 'u' || second == 'U' then ⟨false, [mark, second], after⟩
        else ⟨false, [mark], rest⟩
      | [] => ⟨false, [mark], rest⟩
    else ⟨false, [], mark :: rest⟩

/-- Read the digits of a number, without its suffix. The value tells whether it is real. -/
def readDigits : List Char → Piece Bool
  | '0' :: base :: digits =>
    if "xXbB".toList.contains base then
      ⟨false, '0' :: base :: digits.takeWhile isHexPart, digits.dropWhile isHexPart⟩
    else decimal ('0' :: base :: digits)
  | text => decimal text
where
  /-- Read a number in base ten. -/
  decimal (text : List Char) : Piece Bool :=
    let whole := text.takeWhile isDigitPart
    let fraction := readFraction (text.dropWhile isDigitPart)
    let exponent := readExponent fraction.rest
    ⟨fraction.value || exponent.value, whole ++ fraction.text ++ exponent.text, exponent.rest⟩

/-- Read a number with its suffix. Only the spelling `0x` keeps `f`, `d` and `m` from being suffixes. -/
def readNumber (text : List Char) : Piece TokenKind :=
  let digits := readDigits text
  let suffix := readSuffix ("0x".toList.isPrefixOf text) digits.rest
  let spelling := digits.text ++ suffix.text
  let kind :=
    if digits.value || suffix.value then TokenKind.real (String.ofList spelling)
    else TokenKind.int (String.ofList spelling)
  ⟨kind, spelling, suffix.rest⟩

/-- Read hexadecimal digits; `taken` holds the characters read, the last one first. -/
def readHex : Nat → Nat → List Char → List Char → Except (List Char) (Piece Nat)
  | 0, value, taken, rest => .ok ⟨value, taken, rest⟩
  | _ + 1, _, taken, [] => .error taken
  | count + 1, value, taken, c :: rest =>
    match hexValue c with
    | some digit => readHex count (value * 16 + digit) (c :: taken) rest
    | none => .error (c :: taken)

def escapedLetter : Char → Char
  | 'n' => '\n'
  | 'r' => '\r'
  | 't' => '\t'
  | '0' => '\x00'
  | 'a' => '\x07'
  | 'b' => '\x08'
  | 'f' => '\x0c'
  | 'v' => '\x0b'
  | other => other

/-- Read what follows a backslash; `taken` holds the characters read, the last one first. -/
def readEscape (taken : List Char) : List Char → Except Misread (Piece Char)
  | [] => .error ⟨.unterminatedEscape, taken⟩
  | 'u' :: rest =>
    match readHex 4 0 ('u' :: taken) rest with
    | .error taken => .error ⟨.invalidEscape, taken⟩
    | .ok piece =>
      if Nat.isValidChar piece.value then .ok ⟨Char.ofNat piece.value, piece.text, piece.rest⟩
      else .error ⟨.invalidEscape, piece.text⟩
  | c :: rest => .ok ⟨escapedLetter c, c :: taken, rest⟩

/-- Read the rest of a string literal on one line; `taken` and `value` hold the last character first. -/
def readString : Nat → List Char → List Char → List Char → Except Misread (Piece String)
  | 0, taken, _, _ => .error ⟨.unterminatedString, taken⟩
  | _ + 1, taken, _, [] => .error ⟨.unterminatedString, taken⟩
  | fuel + 1, taken, value, c :: rest =>
    if c == '"' then .ok ⟨String.ofList value.reverse, '"' :: taken, rest⟩
    else if c == '\n' then .error ⟨.unterminatedString, c :: taken⟩
    else if c == '\\' then
      match readEscape (c :: taken) rest with
      | .ok escape => readString fuel escape.text (escape.value :: value) escape.rest
      | .error misread => .error misread
    else readString fuel (c :: taken) (c :: value) rest

/-- Read the rest of a verbatim string literal, in which two quotes stand for one. -/
def readVerbatim : List Char → List Char → List Char → Except Misread (Piece String)
  | taken, _, [] => .error ⟨.unterminatedVerbatim, taken⟩
  | taken, value, c :: rest =>
    if c == '"' then
      match rest with
      | '"' :: after => readVerbatim ('"' :: '"' :: taken) ('"' :: value) after
      | rest => .ok ⟨String.ofList value.reverse, '"' :: taken, rest⟩
    else readVerbatim (c :: taken) (c :: value) rest

/-- Read the rest of a character literal; `taken` holds the last character first. -/
def readCharacter (taken : List Char) (text : List Char) : Except Misread (Piece Char) := do
  let value ←
    match text with
    | [] => .error ⟨.emptyCharacter, taken⟩
    | c :: rest =>
      if c == '\\' then readEscape (c :: taken) rest
      else if c == '\'' || c == '\n' then .error ⟨.emptyCharacter, c :: taken⟩
      else .ok ⟨c, c :: taken, rest⟩
  match value.rest with
  | '\'' :: rest => .ok ⟨value.value, '\'' :: value.text, rest⟩
  | _ => .error ⟨.unterminatedCharacter, value.text⟩

/-- The punctuation marks, longer spellings first. -/
def punctByLength : List Punct :=
  [.questionQuestionEq, .shlEq,
   .dotDot, .colonColon, .questionQuestion, .questionDot, .ampAmp, .pipePipe, .eqEq, .bangEq, .ltEq,
   .gtEq, .shl, .plusEq, .minusEq, .starEq, .slashEq, .percentEq, .ampEq, .pipeEq, .caretEq,
   .plusPlus, .minusMinus, .arrow,
   .lBrace, .rBrace, .lParen, .rParen, .lBracket, .rBracket, .semi, .comma, .dot, .colon, .question,
   .plus, .minus, .star, .slash, .percent, .amp, .pipe, .caret, .bang, .tilde, .eq, .lt, .gt, .at]

def startsWithPunct (text : List Char) (mark : Punct) : Bool :=
  match Text.stripStart mark.spelling.toList text with
  | none => false
  | some rest => mark != .questionDot || !startsWithDigit rest

def readPunct (text : List Char) : Except Misread (Piece Punct) :=
  match punctByLength.find? (startsWithPunct text) with
  | some mark =>
    let size := mark.spelling.length
    .ok ⟨mark, text.take size, text.drop size⟩
  | none =>
    match text with
    | c :: _ => .error ⟨.strayCharacter c, [c]⟩
    | [] => .error ⟨.expected .endOfInput .eof, []⟩

/-- Put the characters of a piece that was read last one first into reading order. -/
def ordered {α : Type} (kind : α → TokenKind) (piece : Piece α) : Piece TokenKind :=
  ⟨kind piece.value, piece.text.reverse, piece.rest⟩

/-- The characters that may open a string literal before its quote. -/
def isStringMark (c : Char) : Bool := c == '$' || c == '@'

/-- Read a string literal after the given opening characters, the last one first. -/
def readStringAfter (taken rest : List Char) : Except Misread (Piece TokenKind) :=
  (readString (rest.length + 1) taken [] rest).map (ordered .str)

/-- Read a verbatim string literal after the given opening characters, the last one first. -/
def readVerbatimAfter (taken rest : List Char) : Except Misread (Piece TokenKind) :=
  (readVerbatim taken [] rest).map (ordered .str)

def readWord (text : List Char) : Piece TokenKind :=
  let piece := readName text
  let kind :=
    if reservedWords.contains piece.value then TokenKind.word piece.value
    else TokenKind.ident piece.value
  ⟨kind, piece.text, piece.rest⟩

/-- Read one token that neither mark of a string opens. -/
def readPlain (c : Char) (rest : List Char) : Except Misread (Piece TokenKind) :=
  if Text.isIdentStart c then .ok (readWord (c :: rest))
  else if c.isDigit || (c == '.' && startsWithDigit rest) then .ok (readNumber (c :: rest))
  else if c == '"' then readStringAfter [c] rest
  else if c == '\'' then (readCharacter [c] rest).map (ordered .char)
  else (readPunct (c :: rest)).map fun piece => ⟨.punct piece.value, piece.text, piece.rest⟩

/-- Read the token that starts with a character. A name after `@` is never a reserved word. -/
def read (c : Char) (rest : List Char) : Except Misread (Piece TokenKind) :=
  match rest with
  | second :: after =>
    if c == '@' && second == '"' then readVerbatimAfter [second, c] after
    else if isStringMark c && isStringMark second && after.head? == some '"' then
      readVerbatimAfter ['"', second, c] (after.drop 1)
    else if c == '$' && second == '"' then readStringAfter [second, c] after
    else if c == '@' && Text.isIdentStart second then
      let piece := readName rest
      .ok ⟨.ident piece.value, c :: piece.text, piece.rest⟩
    else readPlain c rest
  | [] => readPlain c rest

end Lexeme

end Shaderlift
