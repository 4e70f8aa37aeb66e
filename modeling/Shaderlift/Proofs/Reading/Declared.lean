import Shaderlift.Program.Index
import Shaderlift.Proofs.Reading.Cursor
import Shaderlift.Proofs.Reading.Tiling
import Shaderlift.Source.Parser.Decl

/-!
# The names of the types that are read

A name that the lexer reads ends before the first character that cannot be part of a name, so it holds no dot.
The parser takes the name of each type from one such token. In what it reads, a dot in a qualified name is
therefore always one that was put between two names.
-/

namespace Shaderlift

open List

namespace Text

def DotFree (name : String) : Prop := '.' ∉ name.toList

end Text

/-! ## Tokens -/

namespace Lexeme

def Undotted (kind : TokenKind) : Prop := ∀ name, kind = .ident name → Text.DotFree name

end Lexeme

/-- No name among tokens holds a dot. -/
def Undotted (tokens : Array Token) : Prop := ∀ token ∈ tokens, Lexeme.Undotted token.kind

variable {src : String} {members : List Member}

theorem undotted_tokenize {toks : Array Token} (hToks : tokenize src = .ok toks) : Undotted toks := by
  intro token hMem name hName hDot
  obtain ⟨text, hSpelled⟩ := (tiled_of_tokenize hToks).spelled hMem.val
  rw [hName] at hSpelled
  exact absurd (hSpelled.2 '.' hDot) (by decide)

/-! ## Declared types -/

/-- The name of a type holds no dot, nor do the names of the types inside it. -/
def TypeDecl.Undotted (decl : TypeDecl) : Prop :=
  ∀ enclosing, ∀ entry ∈ TypeIndex.entriesOf enclosing decl, Text.DotFree entry.name

/-- No type that a member declares has a dot in its name. -/
def Member.Undotted (member : Member) : Prop :=
  ∀ enclosing, ∀ entry ∈ TypeIndex.entriesOfMember enclosing member, Text.DotFree entry.name

theorem TypeIndex.mem_entriesOfMembers {enclosing : List TypeDecl} {entry : TypeEntry} :
    entry ∈ entriesOfMembers enclosing members ↔ ∃ member ∈ members, entry ∈ entriesOfMember enclosing member := by
  induction members with
  | nil => simp [entriesOfMembers]
  | cons member rest ih => simp [entriesOfMembers, ih]

theorem TypeDecl.undotted_mk {header : TypeHeader} (hName : Text.DotFree header.name)
    (hMembers : ∀ member ∈ members, member.Undotted) : TypeDecl.Undotted ⟨header, members⟩ := by
  intro enclosing entry hEntry
  rw [TypeIndex.entriesOf] at hEntry
  rcases mem_cons.mp hEntry with rfl | hInner
  · exact hName
  · obtain ⟨member, hMember, hInner⟩ := TypeIndex.mem_entriesOfMembers.mp hInner
    exact hMembers member hMember _ entry hInner

namespace Parser

variable {α β : Type} {toks : Array Token}

/-- Whatever a parser reads from the tokens has a property. -/
def Ensures (tokens : Array Token) (Good : α → Prop) (parser : Parser α) : Prop :=
  ∀ cursor value after, parser tokens cursor = .ok (value, after) → Good value

namespace Ensures

variable {First : α → Prop} {Good : β → Prop}

theorem any (parser : Parser α) : Ensures toks (fun _ => True) parser := fun _ _ _ _ => trivial

theorem pure {val : β} (hVal : Good val) : Ensures toks Good (Pure.pure val : Parser β) := by
  intro cur result after hOk
  cases hOk
  exact hVal

theorem fail (fault : SyntaxFault) : Ensures toks Good (Parser.fail fault : Parser β) := by
  intro cur result after hOk
  cases hOk

theorem unexpected (what : Expectation) : Ensures toks Good (Parser.unexpected what : Parser β) := by
  intro cur result after hOk
  cases hOk

variable {first : Parser α} {next : α → Parser β} {step : Parser (Option β)}

theorem bind (hFirst : Ensures toks First first) (hNext : ∀ val, First val → Ensures toks Good (next val)) :
    Ensures toks Good (first >>= next) := by
  intro cur result after hOk
  obtain ⟨val, middle, hVal, hRest⟩ := exists_of_bind hOk
  exact hNext val (hFirst cur val middle hVal) middle result after hRest

theorem after (hNext : ∀ val, Ensures toks Good (next val)) : Ensures toks Good (first >>= next) :=
  (any first).bind fun val _ => hNext val

theorem map {parser : Parser α} {convert : α → β} (hParser : Ensures toks (fun val => Good (convert val)) parser) :
    Ensures toks Good (convert <$> parser) :=
  hParser.bind fun _ hVal => .pure hVal

theorem ite {test : Prop} [Decidable test] {first second : Parser β} (hFirst : Ensures toks Good first)
    (hSecond : Ensures toks Good second) : Ensures toks Good (if test then first else second) := by
  split
  · exact hFirst
  · exact hSecond

theorem manyOn (hStep : Ensures toks (fun val => ∀ x ∈ val, Good x) step) (fuel : Nat) :
    ∀ done : List β, (∀ x ∈ done, Good x) →
      Ensures toks (fun list => ∀ x ∈ list, Good x) (Parser.manyOn step fuel done) := by
  induction fuel with
  | zero => exact fun _ _ => .fail _
  | succ fuel ih =>
    intro done hDone
    refine hStep.bind fun val hVal => ?_
    cases val with
    | none => exact .pure (by simpa using hDone)
    | some x =>
      refine ih (x :: done) ?_
      simpa using ⟨hVal x rfl, hDone⟩

theorem many (hStep : Ensures toks (fun val => ∀ x ∈ val, Good x) step) :
    Ensures toks (fun list => ∀ x ∈ list, Good x) (Parser.many step) :=
  .after fun _ => manyOn hStep _ [] (by simp)

end Ensures

theorem undotted_tokenAt {toks : Array Token} (hToks : Undotted toks) (pos : Nat) :
    Lexeme.Undotted (tokenAt toks pos).kind := by
  simp only [tokenAt, Array.getD]
  split
  · exact hToks _ (Array.getElem_mem _)
  · exact fun _ hName => by cases hName

theorem ensures_peek (hToks : Undotted toks) : Ensures toks (fun token => Lexeme.Undotted token.kind) peek := by
  intro cur token after hOk
  cases hOk
  exact undotted_tokenAt hToks _

theorem ensures_expectIdentSpan (hToks : Undotted toks) :
    Ensures toks (fun found => Text.DotFree found.1) expectIdentSpan := by
  refine (ensures_peek hToks).bind fun token hToken => ?_
  split
  next name hName => exact .after fun _ => .pure (hToken name hName)
  · exact .unexpected _

theorem ensures_expectIdent (hToks : Undotted toks) : Ensures toks Text.DotFree expectIdent :=
  (ensures_expectIdentSpan hToks).bind fun _ hFound => .pure hFound

variable {nested : DeclStart → Parser TypeDecl}

theorem ensures_typedMember (attributes : List Attr) (modifiers : List Modifier) (start : Span) :
    Ensures toks Member.Undotted (typedMember attributes modifiers start) := by
  have hNone (member : Member) (hMember : ∀ enclosing, TypeIndex.entriesOfMember enclosing member = []) :
      member.Undotted := by
    intro enclosing entry hEntry
    rw [hMember enclosing] at hEntry
    cases hEntry
  refine .after fun type => .after fun _ => .after fun first => .after fun name => .after fun kind => ?_
  split
  · exact .after fun _ => .after fun _ => .after fun _ => .after fun _ => .pure (hNone _ fun _ => rfl)
  · exact .after fun _ => .after fun _ => .after fun _ => .after fun _ => .pure (hNone _ fun _ => rfl)
  · exact .map fun _ _ _ _ => hNone _ fun _ => rfl
  · exact .map fun _ _ _ _ => hNone _ fun _ => rfl
  · exact .after fun _ => .after fun _ => .after fun _ => .after fun _ => .pure (hNone _ fun _ => rfl)

theorem ensures_member (hNested : ∀ head, Ensures toks TypeDecl.Undotted (nested head)) (typeName : String) :
    Ensures toks Member.Undotted (member nested typeName) := by
  refine .after fun head => .after fun isType => .ite ?_ (.after fun _ => .after fun isConstructor => .ite ?_ ?_)
  · exact .map (hNested head)
  · refine .map fun _ _ _ _ enclosing entry hEntry => ?_
    rw [TypeIndex.entriesOfMember] at hEntry
    cases hEntry
  · exact ensures_typedMember _ _ _

theorem ensures_beforeBrace {Good : α → Prop} {item : Parser α} (hItem : Ensures toks Good item) :
    Ensures toks (fun val => ∀ x ∈ val, Good x) (beforeBrace item) := by
  refine .after fun closes => .ite (.pure (by simp)) (.after fun ends => .ite (.unexpected _) (.map ?_))
  intro cur val after hOk
  simpa using hItem cur val after hOk

theorem ensures_typeDeclWith (hToks : Undotted toks)
    (hNested : ∀ head, Ensures toks TypeDecl.Undotted (nested head)) (space : Option String) (head : DeclStart) :
    Ensures toks TypeDecl.Undotted (typeDeclWith nested space head) := by
  refine .after fun kind => (ensures_expectIdent hToks).bind fun name hName => ?_
  refine .after fun params => .after fun _ => .after fun bases => .after fun _ => ?_
  -- A lone semicolon stands for no member.
  have hItem : Ensures toks (fun found => ∀ member ∈ found, Member.Undotted member)
      (do if ← eatPunct .semi then pure none else some <$> member nested name) := by
    refine .after fun semi => .ite (.pure (by simp)) (.map ?_)
    intro cur val after hOk
    simpa using ensures_member hNested name cur val after hOk
  refine (Ensures.many (ensures_beforeBrace hItem)).bind fun members hMembers => ?_
  refine .after fun _ => .after fun span => .pure (TypeDecl.undotted_mk hName fun member hMember => ?_)
  obtain ⟨found, hFound, hSome⟩ := mem_filterMap.mp hMember
  exact hMembers found hFound member hSome

theorem ensures_typeDeclOn (hToks : Undotted toks) (space : Option String) (fuel : Nat) :
    ∀ head, Ensures toks TypeDecl.Undotted (typeDeclOn space fuel head) := by
  induction fuel with
  | zero => exact fun _ => .fail _
  | succ fuel ih => exact ensures_typeDeclWith hToks ih space

theorem ensures_namespaceOn (hToks : Undotted toks) (fuel : Nat) :
    ∀ (outer : Option String) (braced : Bool) (unit : SourceUnit), (∀ decl ∈ unit.types, decl.Undotted) →
      Ensures toks (fun unit => ∀ decl ∈ unit.types, decl.Undotted) (namespaceOn fuel outer braced unit) := by
  induction fuel with
  | zero => exact fun _ _ _ _ => .fail _
  | succ fuel ih =>
    intro outer braced unit hUnit
    have hDone : Ensures toks (fun unit => ∀ decl ∈ unit.types, decl.Undotted) (pure unit) := .pure hUnit
    unfold namespaceOn
    extract_lets item
    have hItem : ∀ closes, Ensures toks (fun unit => ∀ decl ∈ unit.types, decl.Undotted) (item closes) := by
      intro closes
      refine .after fun ends => .ite hDone (.ite (.ite (.unexpected _) hDone) ?_)
      refine .after fun _ => .after fun isUsing => .ite (.after fun directive => ih _ _ _ hUnit) ?_
      refine .after fun isNamespace => .ite ?_ (.after fun semi => .ite (ih _ _ _ hUnit) (.after fun head => ?_))
      · refine .after fun name => .after fun semi => .ite (ih _ _ _ hUnit) (.after fun _ => ?_)
        exact (ih _ _ _ hUnit).bind fun inner hInner => ih _ _ _ hInner
      · have hDecl : Ensures toks TypeDecl.Undotted (typeDecl outer head) :=
          fun cur => ensures_typeDeclOn hToks outer (toks.size + 1) head cur
        refine hDecl.bind fun decl hDecl => ih _ _ _ ?_
        exact forall_mem_append.mpr ⟨hUnit, forall_mem_singleton.mpr hDecl⟩
    exact .ite (.after hItem) (.after hItem)

end Parser

theorem undotted_of_parse {unit : SourceUnit} (hParse : SourceUnit.parse src = .ok unit) :
    ∀ decl ∈ unit.types, decl.Undotted := by
  simp only [SourceUnit.parse, Parser.run, bind] at hParse
  obtain ⟨toks, hToks, hRest⟩ := Parser.bind_eq_ok.mp hParse
  obtain ⟨result, hResult, hUnit⟩ := Parser.bind_eq_ok.mp hRest
  cases hUnit
  exact Parser.ensures_namespaceOn (undotted_tokenize hToks) _ _ _ _ (by simp) _ _ _ hResult

end Shaderlift
