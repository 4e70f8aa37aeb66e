import Shaderlift.Json.Value

/-!
Writing JSON. Every writer takes the text that follows, so a written value stands in front of it. In
texts the quote, the backslash and the controls below U+0020 are escaped; all other characters are
written as they are. The compact form has no blanks; the indented form has one item or member a line.
-/

namespace Shaderlift.Json

def hexDigit (n : Nat) : Char := Nat.digitChar (n % 16)

def escapeChar (c : Char) : List Char :=
  if c == '"' then ['\\', '"']
  else if c == '\\' then ['\\', '\\']
  else if c == '\n' then ['\\', 'n']
  else if c == '\r' then ['\\', 'r']
  else if c == '\t' then ['\\', 't']
  else if c == '\x08' then ['\\', 'b']
  else if c == '\x0c' then ['\\', 'f']
  else if c.toNat < 0x20 then ['\\', 'u', '0', '0', hexDigit (c.toNat / 16), hexDigit c.toNat]
  else [c]

def writeText (text : String) (tail : List Char) : List Char :=
  '"' :: text.toList.foldr (fun c after => escapeChar c ++ after) ('"' :: tail)

def writeAtom : Json → List Char → List Char
  | .null, tail => "null".toList ++ tail
  | .bool true, tail => "true".toList ++ tail
  | .bool false, tail => "false".toList ++ tail
  | .int value, tail => (toString value).toList ++ tail
  | .real text, tail => text.toList ++ tail
  | .str value, tail => writeText value tail
  | _, tail => "null".toList ++ tail

mutual

def writeOnto : Json → List Char → List Char
  | .arr items, tail => '[' :: writeItems items (']' :: tail)
  | .obj members, tail => '{' :: writeMembers members ('}' :: tail)
  | json, tail => writeAtom json tail

def writeItems : List Json → List Char → List Char
  | [], tail => tail
  | [item], tail => writeOnto item tail
  | item :: rest, tail => writeOnto item (',' :: writeItems rest tail)

def writeMembers : List (String × Json) → List Char → List Char
  | [], tail => tail
  | [(name, value)], tail => writeText name (':' :: writeOnto value tail)
  | (name, value) :: rest, tail =>
    writeText name (':' :: writeOnto value (',' :: writeMembers rest tail))

end

def compact (json : Json) : String :=
  String.ofList (writeOnto json [])

def newLine (level : Nat) (tail : List Char) : List Char :=
  '\n' :: (List.replicate (2 * level) ' ' ++ tail)

mutual

def writeIndented : Nat → Json → List Char → List Char
  | _, .arr [], tail => '[' :: ']' :: tail
  | _, .obj [], tail => '{' :: '}' :: tail
  | level, .arr items, tail =>
    '[' :: newLine (level + 1) (writeIndentedItems (level + 1) items (newLine level (']' :: tail)))
  | level, .obj members, tail =>
    '{' :: newLine (level + 1) (writeIndentedMembers (level + 1) members (newLine level ('}' :: tail)))
  | _, json, tail => writeAtom json tail

def writeIndentedItems : Nat → List Json → List Char → List Char
  | _, [], tail => tail
  | level, [item], tail => writeIndented level item tail
  | level, item :: rest, tail =>
    writeIndented level item (',' :: newLine level (writeIndentedItems level rest tail))

def writeIndentedMembers : Nat → List (String × Json) → List Char → List Char
  | _, [], tail => tail
  | level, [(name, value)], tail => writeText name (':' :: ' ' :: writeIndented level value tail)
  | level, (name, value) :: rest, tail =>
    writeText name
      (':' :: ' ' :: writeIndented level value (',' :: newLine level (writeIndentedMembers level rest tail)))

end

def indented (json : Json) : String :=
  String.ofList (writeIndented 0 json [])

end Shaderlift.Json
