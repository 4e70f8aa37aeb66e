import Shaderlift.Text.Quoted
import Shaderlift.Text.Span

/-!
Tokens of the shader language. Reserved words are tokens of their own; contextual words such as `var`,
`await` or `from` are identifiers. The closing angle is always a token by itself, so that nested generic
argument lists close one by one; only `>=` joins it with a neighbour.
-/

namespace Shaderlift

/-- Punctuation and operators. -/
inductive Punct where
  | lBrace | rBrace | lParen | rParen | lBracket | rBracket
  | semi | comma | dot | dotDot | colon | colonColon
  | question | questionQuestion | questionQuestionEq | questionDot
  | plus | minus | star | slash | percent
  | amp | ampAmp | pipe | pipePipe | caret | bang | tilde
  | eq | eqEq | bangEq | lt | ltEq | gt | gtEq | shl
  | plusEq | minusEq | starEq | slashEq | percentEq | ampEq | pipeEq | caretEq | shlEq
  | plusPlus | minusMinus | arrow | at
  deriving DecidableEq, Repr, Inhabited

def Punct.spelling : Punct → String
  | .lBrace => "\x7b" | .rBrace => "\x7d" | .lParen => "(" | .rParen => ")"
  | .lBracket => "[" | .rBracket => "]" | .semi => ";" | .comma => ","
  | .dot => "." | .dotDot => ".." | .colon => ":" | .colonColon => "::"
  | .question => "?" | .questionQuestion => "??" | .questionQuestionEq => "??=" | .questionDot => "?."
  | .plus => "+" | .minus => "-" | .star => "*" | .slash => "/" | .percent => "%"
  | .amp => "&" | .ampAmp => "&&" | .pipe => "|" | .pipePipe => "||" | .caret => "^"
  | .bang => "!" | .tilde => "~" | .eq => "=" | .eqEq => "==" | .bangEq => "!="
  | .lt => "<" | .ltEq => "<=" | .gt => ">" | .gtEq => ">=" | .shl => "<<"
  | .plusEq => "+=" | .minusEq => "-=" | .starEq => "*=" | .slashEq => "/=" | .percentEq => "%="
  | .ampEq => "&=" | .pipeEq => "|=" | .caretEq => "^=" | .shlEq => "<<="
  | .plusPlus => "++" | .minusMinus => "--" | .arrow => "=>" | .at => "@"

def reservedWords : List String :=
  ["abstract", "as", "base", "bool", "break", "byte", "case", "catch", "char", "checked", "class",
   "const", "continue", "decimal", "default", "delegate", "do", "double", "else", "enum", "event",
   "explicit", "extern", "false", "finally", "fixed", "float", "for", "foreach", "goto", "if",
   "implicit", "in", "int", "interface", "internal", "is", "lock", "long", "namespace", "new", "null",
   "object", "operator", "out", "override", "params", "private", "protected", "public", "readonly",
   "ref", "return", "sbyte", "sealed", "short", "sizeof", "stackalloc", "static", "string", "struct",
   "switch", "this", "throw", "true", "try", "typeof", "uint", "ulong", "unchecked", "unsafe",
   "ushort", "using", "virtual", "void", "volatile", "while"]

def typeWords : List String :=
  ["bool", "byte", "char", "decimal", "double", "float", "int", "long", "object", "sbyte", "short",
   "string", "uint", "ulong", "ushort", "void"]

/-- What a token is. Literals keep their text with base, underscores and suffix. -/
inductive TokenKind where
  | ident (name : String)
  | word (text : String)
  | int (text : String)
  | real (text : String)
  | char (value : Char)
  | str (value : String)
  | punct (mark : Punct)
  | eof
  deriving DecidableEq, Repr, Inhabited

/-- A token and its place. -/
structure Token where
  kind : TokenKind
  span : Span
  deriving DecidableEq, Repr, Inhabited

def TokenKind.describe : TokenKind → String
  | .ident name => "identifier `" ++ name ++ "`"
  | .word text => "keyword `" ++ text ++ "`"
  | .int text => "literal `" ++ text ++ "`"
  | .real text => "literal `" ++ text ++ "`"
  | .char value => "character literal " ++ Text.quotedChar value
  | .str _ => "string literal"
  | .punct mark => "`" ++ mark.spelling ++ "`"
  | .eof => "end of input"

namespace TokenKind

def isIdent : TokenKind → Bool
  | .ident _ => true
  | _ => false

def isNameLike : TokenKind → Bool
  | .ident _ => true
  | .word _ => true
  | _ => false

def isTypeWord : TokenKind → Bool
  | .word text => typeWords.contains text
  | _ => false

def isLiteral : TokenKind → Bool
  | .int _ => true
  | .real _ => true
  | .char _ => true
  | .str _ => true
  | _ => false

end TokenKind

end Shaderlift
