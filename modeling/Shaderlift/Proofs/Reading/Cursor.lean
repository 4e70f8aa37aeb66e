import Shaderlift.Proofs.Reading.Tokens

/-!
# Parsers at a row of marks

A parser is run on tokens from a cursor. The lemmas here say what the basic parsers do there, in terms of the
token at a position (`tokenAt`). `Row` says that the tokens from a position on are those of marks that fit
together, and is all that the parsers of types and expressions need to know.
-/

namespace Shaderlift

open List

/-- The token at a position; past the end, the last token. -/
def tokenAt (tokens : Array Token) (pos : Nat) : Token :=
  tokens.getD (min pos (tokens.size - 1)) ⟨.eof, Span.origin⟩

def spanBefore (tokens : Array Token) (pos : Nat) : Span :=
  if pos = 0 then (tokenAt tokens pos).span
  else (tokens.getD (pos - 1) ⟨.eof, Span.origin⟩).span

namespace Parser

variable {α β : Type} {toks : Array Token} {cur : Cursor}

/-! ## Running parsers -/

@[simp] theorem pure_apply (val : α) : (pure val : Parser α) toks cur = .ok (val, cur) := rfl

@[simp] theorem bind_apply (first : Parser α) (next : α → Parser β) :
    (first >>= next) toks cur =
      (first toks cur).bind fun result => next result.1 toks result.2 := rfl

@[simp] theorem map_apply (convert : α → β) (parser : Parser α) :
    (convert <$> parser) toks cur =
      (parser toks cur).bind fun result => .ok (convert result.1, result.2) := rfl

@[simp] theorem ok_bind {γ : Type} (val : α) (next : α → Except SyntaxError γ) :
    (Except.ok val : Except SyntaxError α).bind next = next val := rfl

@[simp] theorem error_bind {γ : Type} (error : SyntaxError) (next : α → Except SyntaxError γ) :
    (Except.error error : Except SyntaxError α).bind next = .error error := rfl

theorem bind_eq_ok {γ : Type} {first : Except SyntaxError α} {next : α → Except SyntaxError γ} {result : γ} :
    first.bind next = .ok result ↔ ∃ val, first = .ok val ∧ next val = .ok result := by
  cases first with
  | error error => simp
  | ok val => simp

/-- What follows a parser that succeeds runs from where it stops. -/
theorem exists_of_bind {first : Parser α} {next : α → Parser β} {result : β × Cursor}
    (hOk : (first >>= next) toks cur = .ok result) :
    ∃ val after, first toks cur = .ok (val, after) ∧ next val toks after = .ok result := by
  obtain ⟨val, hFirst, hNext⟩ := bind_eq_ok.mp hOk
  exact ⟨val.1, val.2, hFirst, hNext⟩

@[simp] theorem fail_apply (fault : SyntaxFault) :
    (fail fault : Parser α) toks cur = .error ⟨fault, (tokenAt toks cur.pos).span⟩ := rfl

@[simp] theorem unexpected_apply (what : Expectation) :
    (unexpected what : Parser α) toks cur =
      .error ⟨.expected what (tokenAt toks cur.pos).kind, (tokenAt toks cur.pos).span⟩ := rfl

/-! ## Looking and stepping -/

@[simp] theorem read_apply : (read : Parser (Array Token)) toks cur = .ok (toks, cur) := rfl

@[simp] theorem get_apply : (get : Parser Cursor) toks cur = .ok (cur, cur) := rfl

@[simp] theorem modify_apply (change : Cursor → Cursor) :
    (modify change : Parser Unit) toks cur = .ok ((), change cur) := rfl

@[simp] theorem ite_apply (cond : Prop) [Decidable cond] (first second : Parser α) :
    (if cond then first else second) toks cur =
      if cond then first toks cur else second toks cur := by
  split <;> rfl

@[simp] theorem peek_apply : peek toks cur = .ok (tokenAt toks cur.pos, cur) := rfl

@[simp] theorem kindAt_apply (ahead : Nat) :
    kindAt ahead toks cur = .ok ((tokenAt toks (cur.pos + ahead)).kind, cur) := rfl

@[simp] theorem kind_apply : kind toks cur = .ok ((tokenAt toks cur.pos).kind, cur) := rfl

@[simp] theorem here_apply : here toks cur = .ok ((tokenAt toks cur.pos).span, cur) := rfl

@[simp] theorem punctAt_apply (ahead : Nat) (mark : Punct) :
    punctAt ahead mark toks cur =
      .ok ((tokenAt toks (cur.pos + ahead)).kind == .punct mark, cur) := rfl

@[simp] theorem atPunct_apply (mark : Punct) :
    atPunct mark toks cur = .ok ((tokenAt toks cur.pos).kind == .punct mark, cur) := rfl

@[simp] theorem atWord_apply (text : String) :
    atWord text toks cur = .ok ((tokenAt toks cur.pos).kind == .word text, cur) := rfl

@[simp] theorem atName_apply (name : String) :
    atName name toks cur = .ok ((tokenAt toks cur.pos).kind == .ident name, cur) := rfl

@[simp] theorem identAt_apply (ahead : Nat) :
    identAt ahead toks cur = .ok ((tokenAt toks (cur.pos + ahead)).kind.isIdent, cur) := rfl

@[simp] theorem atIdent_apply :
    atIdent toks cur = .ok ((tokenAt toks cur.pos).kind.isIdent, cur) := rfl

@[simp] theorem atTypeWord_apply :
    atTypeWord toks cur = .ok ((tokenAt toks cur.pos).kind.isTypeWord, cur) := rfl

@[simp] theorem atEnd_apply :
    atEnd toks cur = .ok ((tokenAt toks cur.pos).kind == .eof, cur) := rfl

@[simp] theorem touching_apply :
    touching toks cur =
      .ok ((tokenAt toks cur.pos).span.stop == (tokenAt toks (cur.pos + 1)).span.start, cur) := rfl

@[simp] theorem spanFrom_apply (start : Span) :
    spanFrom start toks cur = .ok (start.through (spanBefore toks cur.pos), cur) := by
  unfold spanFrom prevSpan spanBefore
  split <;> simp_all

theorem bump_apply (hKind : (tokenAt toks cur.pos).kind ≠ .eof) :
    bump toks cur = .ok (tokenAt toks cur.pos, ⟨cur.pos + 1, cur.depth⟩) := by
  unfold bump
  simp only [bind_apply, peek_apply, ok_bind]
  rfl

theorem skip_apply (hKind : (tokenAt toks cur.pos).kind ≠ .eof) :
    skip toks cur = .ok ((), ⟨cur.pos + 1, cur.depth⟩) := by
  simp [skip, bump_apply hKind]

theorem eatIf_apply {test : Parser Bool} {answer : Bool} (hTest : test toks cur = .ok (answer, cur))
    (hKind : answer = true → (tokenAt toks cur.pos).kind ≠ .eof) :
    eatIf test toks cur =
      .ok (answer, if answer then ⟨cur.pos + 1, cur.depth⟩ else cur) := by
  cases answer with
  | false => simp [eatIf, hTest]
  | true => simp [eatIf, hTest, skip_apply (hKind rfl)]

@[simp] theorem eatPunct_apply (mark : Punct) :
    eatPunct mark toks cur =
      .ok ((tokenAt toks cur.pos).kind == .punct mark,
        if (tokenAt toks cur.pos).kind == .punct mark then ⟨cur.pos + 1, cur.depth⟩ else cur) :=
  eatIf_apply (atPunct_apply mark) fun hMark => by simp [beq_iff_eq.mp hMark]

@[simp] theorem eatWord_apply (text : String) :
    eatWord text toks cur =
      .ok ((tokenAt toks cur.pos).kind == .word text,
        if (tokenAt toks cur.pos).kind == .word text then ⟨cur.pos + 1, cur.depth⟩ else cur) :=
  eatIf_apply (atWord_apply text) fun hWord => by simp [beq_iff_eq.mp hWord]

theorem expectPunct_apply {mark : Punct} (hKind : (tokenAt toks cur.pos).kind = .punct mark) :
    expectPunct mark toks cur = .ok ((tokenAt toks cur.pos).span, ⟨cur.pos + 1, cur.depth⟩) := by
  have hNot : (tokenAt toks cur.pos).kind ≠ .eof := by simp [hKind]
  simp [expectPunct, hKind, bump_apply hNot]

theorem expectPunct_inv {mark : Punct} {result : Span × Cursor} (hOk : expectPunct mark toks cur = .ok result) :
    (tokenAt toks cur.pos).kind = .punct mark ∧ result.2 = ⟨cur.pos + 1, cur.depth⟩ := by
  by_cases hKind : (tokenAt toks cur.pos).kind = .punct mark
  · rw [expectPunct_apply hKind] at hOk
    cases hOk
    exact ⟨hKind, rfl⟩
  · simp [expectPunct, hKind] at hOk

theorem expectIdent_apply {name : String} (hKind : (tokenAt toks cur.pos).kind = .ident name) :
    expectIdent toks cur = .ok (name, ⟨cur.pos + 1, cur.depth⟩) := by
  have hNot : (tokenAt toks cur.pos).kind ≠ .eof := by simp [hKind]
  simp [expectIdent, expectIdentSpan, hKind, skip_apply hNot]

end Parser

/-! ## Rows of marks -/

namespace Mark

theorem Spelled.length_eq {toks : List Token} {marks : List Mark} (hSpelled : Spelled toks marks) :
    toks.length = marks.length := by
  induction marks generalizing toks with
  | nil => cases toks <;> simp_all [Spelled]
  | cons mark marks ih =>
    cases toks with
    | nil => simp [Spelled] at hSpelled
    | cons token toks => simp [ih hSpelled.2.2]

end Mark

/-- The tokens from a position to the end are those of a row of marks that fit together. -/
structure Row (tokens : Array Token) (pos : Nat) (marks : List Mark) : Prop where
  spelled : Mark.Spelled (tokens.toList.drop pos) marks
  linked : Mark.Linked marks
  sound : marks.all Mark.sound = true
  free : Mark.freeOfTypeArgs marks = true
  nested : ∃ stack, Mark.nested stack marks = true
  ends : marks.getLast? = some .done

namespace Row

variable {toks : Array Token} {pos : Nat} {mark next : Mark} {rest : List Mark}

theorem tail (row : Row toks pos (mark :: next :: rest)) : Row toks (pos + 1) (next :: rest) where
  spelled := by
    have hSpelled := row.spelled
    rw [← tail_drop]
    cases hDrop : toks.toList.drop pos with
    | nil =>
      rw [hDrop] at hSpelled
      exact hSpelled.elim
    | cons token more =>
      rw [hDrop] at hSpelled
      exact hSpelled.2.2
  linked := List.IsChain.tail row.linked
  sound := by
    have hSound := row.sound
    rw [all_cons, Bool.and_eq_true] at hSound
    exact hSound.2
  free := by
    have hFree := row.free
    rw [Mark.freeOfTypeArgs, Bool.and_eq_true] at hFree
    exact hFree.2
  nested := by
    obtain ⟨stack, hNested⟩ := row.nested
    cases mark with
    | opens bracket => exact ⟨bracket :: stack, hNested⟩
    | closes bracket =>
      rw [Mark.nested, Bool.and_eq_true] at hNested
      exact ⟨stack.tail, hNested.2⟩
    | comma =>
      rw [Mark.nested, Bool.and_eq_true] at hNested
      exact ⟨stack, hNested.2⟩
    | _ => exact ⟨stack, hNested⟩
  ends := row.ends

theorem exists_next (row : Row toks pos (mark :: rest)) (hMark : mark ≠ .done) : ∃ next more, rest = next :: more := by
  cases rest with
  | nil => exact absurd (Option.some.inj row.ends) hMark
  | cons next more => exact ⟨next, more, rfl⟩

theorem exists_cons {marks : List Mark} (row : Row toks pos marks) : ∃ mark rest, marks = mark :: rest := by
  cases marks with
  | nil => exact absurd row.ends (by simp)
  | cons mark rest => exact ⟨mark, rest, rfl⟩

theorem lt_size (row : Row toks pos (mark :: rest)) : pos < toks.size := by
  have hLength := row.spelled.length_eq
  rw [length_drop, length_cons] at hLength
  simp only [Array.length_toList] at hLength
  omega

theorem drop_eq (row : Row toks pos (mark :: rest)) :
    toks.toList.drop pos = tokenAt toks pos :: toks.toList.drop (pos + 1) := by
  have hLt := row.lt_size
  rw [drop_eq_getElem_cons (by simpa using hLt), tokenAt, Nat.min_eq_left (by omega)]
  simp [hLt]

theorem kind_eq (row : Row toks pos (mark :: rest)) : (tokenAt toks pos).kind = mark.kind := by
  have hSpelled := row.spelled
  rw [row.drop_eq] at hSpelled
  exact hSpelled.1

theorem beside (row : Row toks pos (mark :: next :: rest)) : Mark.beside mark next = true :=
  (isChain_cons_cons.mp row.linked).1

theorem skip_head {cur : Cursor} (row : Row toks cur.pos (mark :: rest)) (hKind : mark.kind ≠ .eof) :
    Parser.skip toks cur = .ok ((), ⟨cur.pos + 1, cur.depth⟩) :=
  Parser.skip_apply (row.kind_eq ▸ hKind)

theorem sound_head (row : Row toks pos (mark :: rest)) : mark.sound = true := by
  have hSound := row.sound
  rw [all_cons, Bool.and_eq_true] at hSound
  exact hSound.1

theorem touches (row : Row toks pos (.angle :: next :: rest)) :
    (tokenAt toks pos).span.stop = (tokenAt toks (pos + 1)).span.start := by
  have hSpelled := row.spelled
  rw [row.drop_eq, row.tail.drop_eq] at hSpelled
  exact hSpelled.2.1 rfl _ rfl

end Row

end Shaderlift
