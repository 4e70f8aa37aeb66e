/-!
Texts inside texts.
-/

namespace Shaderlift.Text

def startsWith (start text : String) : Bool := start.toList.isPrefixOf text.toList

def endsIn (c : Char) (text : String) : Bool := text.toList.getLast? == some c

def occurs (part : List Char) : List Char → Bool
  | [] => part.isEmpty
  | c :: rest => part.isPrefixOf (c :: rest) || occurs part rest

def contains (part text : String) : Bool := occurs part.toList text.toList

end Shaderlift.Text
