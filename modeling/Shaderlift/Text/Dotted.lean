/-!
Dotted names such as `System.MathF`: their first and last segments, and joining with a separator.
-/

namespace Shaderlift.Text

/-- Split at every occurrence of a separator; the result is never empty. -/
def splitAt (sep : Char) : List Char → List (List Char)
  | [] => [[]]
  | c :: rest =>
    match splitAt sep rest with
    | [] => [[c]]
    | segment :: segments => if c == sep then [] :: segment :: segments else (c :: segment) :: segments

def firstSegment (name : String) : String :=
  String.ofList (name.toList.takeWhile (· != '.'))

def lastSegment (name : String) : String :=
  String.ofList (name.toList.reverse.takeWhile (· != '.')).reverse

def dotted (qualifier name : String) : String :=
  qualifier ++ "." ++ name

def joinWith (separator : String) : List String → String
  | [] => ""
  | [text] => text
  | text :: rest => text ++ separator ++ joinWith separator rest

def stripStart : List Char → List Char → Option (List Char)
  | [], text => some text
  | _ :: _, [] => none
  | p :: part, c :: text => if p == c then stripStart part text else none

def stripEnd (part text : List Char) : Option (List Char) :=
  (stripStart part.reverse text.reverse).map List.reverse

/-- Splitting gives at least one segment. -/
theorem splitAt_ne_nil (sep : Char) (text : List Char) : splitAt sep text ≠ [] := by
  cases text with
  | nil => simp [splitAt]
  | cons c rest =>
    simp only [splitAt]
    split
    · simp
    · split <;> simp

/-- What stands before a separator is split off as it is. -/
theorem splitAt_append {sep : Char} {segment : List Char} (hSegment : sep ∉ segment) (rest : List Char) :
    splitAt sep (segment ++ sep :: rest) = segment :: splitAt sep rest := by
  induction segment with
  | nil =>
    cases hRest : splitAt sep rest with
    | nil => exact absurd hRest (splitAt_ne_nil sep rest)
    | cons first others => simp [splitAt, hRest]
  | cons c segment ih =>
    obtain ⟨hFirst, hOthers⟩ : sep ≠ c ∧ sep ∉ segment := by simpa using hSegment
    simp [splitAt, ih hOthers, Ne.symm hFirst]

end Shaderlift.Text
