import Shaderlift.Json.Value

/-!
Reading JSON. The grammar is the strict one: no leading zeros, no bare control characters in a text, no
trailing commas, and nothing but blanks after the value. A `\u` escape needs four hexadecimal digits;
an escape that is half of a pair makes the text ill formed, which is noted but does not stop the reader.
-/

namespace Shaderlift.Json

def isGap (c : Char) : Bool :=
  c == ' ' || c == '\t' || c == '\n' || c == '\r'

def skipGaps (text : List Char) : List Char :=
  text.dropWhile isGap

def hexDigit? (c : Char) : Option Nat :=
  if c.isDigit then some (c.toNat - '0'.toNat)
  else if 'a' ≤ c && c ≤ 'f' then some (c.toNat - 'a'.toNat + 10)
  else if 'A' ≤ c && c ≤ 'F' then some (c.toNat - 'A'.toNat + 10)
  else none

def readUnit : List Char → Option (Nat × List Char)
  | a :: b :: c :: d :: rest => do
    let a ← hexDigit? a
    let b ← hexDigit? b
    let c ← hexDigit? c
    let d ← hexDigit? d
    pure (((a * 16 + b) * 16 + c) * 16 + d, rest)
  | _ => none

def shortEscape? : Char → Option Char
  | '"' => some '"'
  | '\\' => some '\\'
  | '/' => some '/'
  | 'b' => some '\x08'
  | 'f' => some '\x0c'
  | 'n' => some '\n'
  | 'r' => some '\r'
  | 't' => some '\t'
  | _ => none

def isLead (unit : Nat) : Bool := 0xD800 ≤ unit && unit < 0xDC00

def isTrail (unit : Nat) : Bool := 0xDC00 ≤ unit && unit < 0xE000

def joinPair (lead trail : Nat) : Char :=
  Char.ofNat (0x10000 + (lead - 0xD800) * 0x400 + (trail - 0xDC00))

/-- Read a `\u` escape after its letter: the character, or nothing for half of a pair. -/
def readPoint (text : List Char) : Option (Option Char × List Char) := do
  let (unit, rest) ← readUnit text
  if isLead unit then
    match rest with
    | '\\' :: 'u' :: after =>
      let (second, afterPair) ← readUnit after
      if isTrail second then pure (some (joinPair unit second), afterPair)
      else pure (none, rest)
    | _ => pure (none, rest)
  else if isTrail unit then pure (none, rest)
  else pure (some (Char.ofNat unit), rest)

/-- Read the rest of a text after its opening quote. `chars` holds the last character first and is lost
once the text turns out ill formed. -/
def readText : Nat → Option (List Char) → List Char → Option (Option String × List Char)
  | 0, _, _ => none
  | _ + 1, _, [] => none
  | fuel + 1, chars, c :: rest =>
    if c == '"' then some (chars.map fun chars => String.ofList chars.reverse, rest)
    else if c.toNat < 0x20 then none
    else if c == '\\' then
      match rest with
      | [] => none
      | letter :: after =>
        if letter == 'u' then
          match readPoint after with
          | none => none
          | some (none, afterPoint) => readText fuel none afterPoint
          | some (some point, afterPoint) => readText fuel (chars.map (point :: ·)) afterPoint
        else
          match shortEscape? letter with
          | none => none
          | some point => readText fuel (chars.map (point :: ·)) after
    else readText fuel (chars.map (c :: ·)) rest

def readQuoted (text : List Char) : Option (Option String × List Char) :=
  readText (text.length + 1) (some []) text

def readDigits (text : List Char) : Option (List Char × List Char) :=
  match text.takeWhile Char.isDigit with
  | [] => none
  | digits => some (digits, text.dropWhile Char.isDigit)

/-- Read the whole part of a number: no leading zero unless it is the only digit. -/
def readWhole (text : List Char) : Option (List Char × List Char) := do
  let (digits, rest) ← readDigits text
  match digits with
  | '0' :: _ :: _ => none
  | _ => pure (digits, rest)

def readFraction : List Char → Option (List Char × List Char)
  | '.' :: rest => (readDigits rest).map fun (digits, after) => ('.' :: digits, after)
  | text => some ([], text)

def readExponent : List Char → Option (List Char × List Char)
  | mark :: rest =>
    if mark == 'e' || mark == 'E' then
      match rest with
      | sign :: after =>
        if sign == '+' || sign == '-' then
          (readDigits after).map fun (digits, tail) => (mark :: sign :: digits, tail)
        else (readDigits rest).map fun (digits, tail) => (mark :: digits, tail)
      | [] => none
    else some ([], mark :: rest)
  | [] => some ([], [])

def digitsValue (digits : List Char) : Nat :=
  digits.foldl (fun value c => value * 10 + (c.toNat - '0'.toNat)) 0

def readNumber (text : List Char) : Option (Json × List Char) := do
  let (negative, body) :=
    match text with
    | '-' :: rest => (true, rest)
    | _ => (false, text)
  let (whole, afterWhole) ← readWhole body
  let (fraction, afterFraction) ← readFraction afterWhole
  let (exponent, rest) ← readExponent afterFraction
  let value := digitsValue whole
  if fraction.isEmpty && exponent.isEmpty && !(negative && value == 0) then
    pure (.int (if negative then -Int.ofNat value else Int.ofNat value), rest)
  else
    let sign := if negative then ['-'] else []
    pure (.real (String.ofList (sign ++ whole ++ fraction ++ exponent)), rest)

def readWord (word : String) (value : Json) (text : List Char) : Option (Json × List Char) :=
  if word.toList.isPrefixOf text then some (value, text.drop word.length) else none

/-- Build an object from its members, some of whose names may be ill formed. -/
def ofMembers (members : List (Option String × Json)) : Json :=
  match members.mapM fun (name, value) => name.map (·, value) with
  | some members => .obj members
  | none => .illFormed

mutual

def readValue : Nat → List Char → Option (Json × List Char)
  | 0, _ => none
  | fuel + 1, text =>
    match skipGaps text with
    | [] => none
    | c :: rest =>
      if c == '"' then
        (readQuoted rest).map fun (value, after) =>
          (match value with | some value => .str value | none => .illFormed, after)
      else if c == '[' then
        match skipGaps rest with
        | ']' :: after => some (.arr [], after)
        | rest => (readItems fuel [] rest).map fun (items, after) => (.arr items, after)
      else if c == '{' then
        match skipGaps rest with
        | '}' :: after => some (.obj [], after)
        | rest => (readMembers fuel [] rest).map fun (members, after) => (ofMembers members, after)
      else if c == 't' then readWord "true" (.bool true) (c :: rest)
      else if c == 'f' then readWord "false" (.bool false) (c :: rest)
      else if c == 'n' then readWord "null" .null (c :: rest)
      else readNumber (c :: rest)

/-- Read the items of an array to its closing bracket; `done` holds the last item first. -/
def readItems : Nat → List Json → List Char → Option (List Json × List Char)
  | 0, _, _ => none
  | fuel + 1, done, text => do
    let (item, rest) ← readValue fuel text
    match skipGaps rest with
    | ',' :: after => readItems fuel (item :: done) after
    | ']' :: after => some ((item :: done).reverse, after)
    | _ => none

/-- Read the members of an object to its closing brace; `done` holds the last member first. -/
def readMembers : Nat → List (Option String × Json) → List Char →
    Option (List (Option String × Json) × List Char)
  | 0, _, _ => none
  | fuel + 1, done, text => do
    match skipGaps text with
    | '"' :: rest =>
      let (name, afterName) ← readQuoted rest
      match skipGaps afterName with
      | ':' :: afterColon =>
        let (value, rest) ← readValue fuel afterColon
        match skipGaps rest with
        | ',' :: after => readMembers fuel ((name, value) :: done) after
        | '}' :: after => some (((name, value) :: done).reverse, after)
        | _ => none
      | _ => none
    | _ => none

end

/-- Read a text that holds one value and blanks. Every second call reads a character at least, so twice
the length is enough fuel. -/
def read (text : String) : Option Json := do
  let chars := text.toList
  let (value, rest) ← readValue (2 * chars.length + 2) chars
  if (skipGaps rest).isEmpty then some value else none

end Shaderlift.Json
