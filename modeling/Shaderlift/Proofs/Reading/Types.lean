import Shaderlift.Proofs.Reading.Cursor

/-!
# Types at a row of marks

After a name an opening angle may start type arguments, and after a parenthesis there may be a cast, so the
reader of expressions tries the reader of types on marks that are no types. What it can read there is little:
names with dots, type arguments of such names, and marks after which no type argument can end. `TypeRead` says
so, and from it follows that type arguments are read only where `Mark.readsAsTypeArgs` says, and that no cast is
read in parentheses that hold an expression.
-/

namespace Shaderlift

open List

namespace Mark

/-! ## Marks by their tokens -/

def puncts : List Mark :=
  beforeMarks.map .before ++ betweenMarks.map .between ++
    [.after .plusPlus, .after .minusMinus, .joined .gt, .joined .gtEq, .dot, .angle, .comma,
     .opens .group, .opens .castType, .opens .args, .opens .index, .opens .braces,
     .closes .group, .closes .castType, .closes .args, .closes .index, .closes .braces]

variable {mark : Mark} {punct : Punct}

theorem mem_puncts (hSound : mark.sound = true) (hKind : mark.kind = .punct punct) : mark ∈ puncts := by
  simp only [puncts, mem_append, mem_map]
  cases mark with
  | leaf token =>
    obtain rfl : token = .punct punct := hKind
    simp [sound, TokenKind.isLeaf, TokenKind.isTypeWord] at hSound
  | typeName token =>
    obtain rfl : token = .punct punct := hKind
    simp [sound, TokenKind.namesType, TokenKind.isTypeWord] at hSound
  | name | done => cases hKind
  | before mark =>
    simp only [sound, contains_iff_mem] at hSound
    exact .inl (.inl ⟨mark, hSound, rfl⟩)
  | between mark =>
    simp only [sound, contains_iff_mem] at hSound
    exact .inl (.inr ⟨mark, hSound, rfl⟩)
  | after mark | joined mark =>
    simp only [sound, Bool.or_eq_true, beq_iff_eq] at hSound
    rcases hSound with rfl | rfl <;> decide
  | opens bracket | closes bracket => cases bracket <;> decide
  | dot | angle | comma => decide

theorem mem_of_kind (marks : List Mark) (hMarks : puncts.filter (·.kind == .punct punct) = marks)
    (hSound : mark.sound = true) (hKind : mark.kind = .punct punct) : mark ∈ marks := by
  rw [← hMarks]
  exact mem_filter.mpr ⟨mem_puncts hSound hKind, beq_iff_eq.mpr hKind⟩

variable {test : Mark → Bool}

/-- A mark with some property has no token of which all marks lack it. -/
theorem kind_ne
    (hAll : ((puncts.filter (·.kind == .punct punct)).all fun mark => !test mark) = true) (hSound : mark.sound = true)
    (hTest : test mark = true) : mark.kind ≠ .punct punct := by
  intro hKind
  have hNot := all_eq_true.mp hAll mark (mem_of_kind _ rfl hSound hKind)
  simp [hTest] at hNot

theorem eq_of_kind {other : Mark} (hMarks : puncts.filter (·.kind == .punct punct) = [other])
    (hSound : mark.sound = true) (hKind : mark.kind = .punct punct) : mark = other :=
  mem_singleton.mp (mem_of_kind _ hMarks hSound hKind)

theorem forall_head {answer : Bool} (hMark : test mark = answer) (rest : List Mark) :
    ∀ other ∈ (mark :: rest).head?, test other = answer := by
  rintro other hOther
  cases hOther
  exact hMark

/-! ## What is read of a type -/

def isFlat : Mark → Bool
  | .opens _ | .closes _ => false
  | _ => true

def endsArgument (mark : Mark) : Bool := mark.kind == .punct .comma || mark.kind == .punct .gt

def startsType (mark : Mark) : Bool := mark.startsOperand || mark.isTypeName

theorem startsType_of_startsOperand (hStarts : mark.startsOperand = true) : mark.startsType = true := by
  rw [startsType, hStarts, Bool.true_or]

theorem nested_flat {stack : List Bracket} {taken rest : List Mark} (hFlat : taken.all isFlat = true)
    (hNested : nested stack (taken ++ rest) = true) : nested stack rest = true := by
  induction taken with
  | nil => exact hNested
  | cons mark taken ih =>
    rw [all_cons, Bool.and_eq_true] at hFlat
    refine ih hFlat.2 ?_
    cases mark with
    | opens bracket | closes bracket => simp [isFlat] at hFlat
    | comma =>
      rw [cons_append, nested, Bool.and_eq_true] at hNested
      exact hNested.2
    | _ => exact hNested

theorem endsArgument_of_startsOperand (hSound : mark.sound = true) (hStarts : mark.startsOperand = true) :
    mark.endsArgument = false := by
  have hComma : mark.kind ≠ .punct .comma := kind_ne (by decide) hSound hStarts
  have hGt : mark.kind ≠ .punct .gt := kind_ne (by decide) hSound hStarts
  simp [endsArgument, hComma, hGt]

theorem eq_name_of_beside (hBeside : beside .dot mark = true) : ∃ text, mark = .name text := by
  cases mark with
  | name text => exact ⟨text, rfl⟩
  | _ => simp [beside, isMemberName] at hBeside

theorem isJoined_of_follows (hFollows : mark.follows = true) : mark.isJoined = false := by
  cases mark with
  | joined punct => simp [follows] at hFollows
  | _ => rfl

theorem isFlat_of_inNames (hNames : mark.inNames = true) : mark.isFlat = true := by
  cases mark with
  | opens bracket | closes bracket => simp [inNames] at hNames
  | _ => rfl

/-- What the reader of types can take from a row of marks: names with dots and commas between them, such names
with type arguments that the first half of a shift closes, or marks after which no type argument ends. -/
structure TypeRead (taken rest : List Mark) : Prop where
  flat : taken.all isFlat = true
  shape :
    (taken.all inNames = true ∧ ∀ mark ∈ rest.head?, mark.isJoined = false) ∨
    ((∃ outer inner, taken = outer ++ .between .lt :: (inner ++ [.angle]) ∧ outer.all inNames = true ∧
      inner.all inNames = true) ∧ ∀ mark ∈ rest.head?, mark.isJoined = true) ∨
    ∀ mark ∈ rest.head?, mark.endsArgument = false

namespace TypeRead

variable {taken rest : List Mark}

theorem append_names (names : List Mark) (hNames : names.all inNames = true) (hRead : TypeRead taken rest) :
    TypeRead (names ++ taken) rest where
  flat := by
    have hFlat : names.all isFlat = true :=
      all_eq_true.mpr fun mark hMem => isFlat_of_inNames (all_eq_true.mp hNames mark hMem)
    rw [all_append, hFlat, hRead.flat]
    rfl
  shape := by
    rcases hRead.shape with ⟨hTaken, hRest⟩ | ⟨⟨outer, inner, rfl, hOuter, hInner⟩, hRest⟩ | hDead
    · exact .inl ⟨by rw [all_append, hNames, hTaken]; rfl, hRest⟩
    · refine .inr (.inl ⟨⟨names ++ outer, inner, by simp, ?_, hInner⟩, hRest⟩)
      rw [all_append, hNames, hOuter]
      rfl
    · exact .inr (.inr hDead)

theorem names_of_comma (hRead : TypeRead taken (.comma :: rest)) : taken.all inNames = true := by
  rcases hRead.shape with ⟨hTaken, -⟩ | ⟨-, hJoined⟩ | hDead
  · exact hTaken
  · exact absurd (hJoined .comma rfl) Bool.false_ne_true
  · exact absurd (hDead .comma rfl) Bool.false_ne_true.symm

end TypeRead

end Mark

def TypeEnd (tokens : Array Token) (marks : List Mark) (pos : Nat) : Prop :=
  ∃ taken rest, marks = taken ++ rest ∧ Row tokens pos rest ∧ Mark.TypeRead taken rest

namespace Parser

open Mark

def ReadsTypes {α : Type} (tokens : Array Token) (item : Parser α) : Prop :=
  ∀ {cursor value after marks}, item tokens cursor = .ok (value, after) → Row tokens cursor.pos marks →
    (∀ mark ∈ marks.head?, mark.startsType = true) → TypeEnd tokens marks after.pos

section Lists

variable {α : Type} {toks : Array Token} {item : Parser α} {cur after : Cursor}

theorem typeEnd_manyOn (hItem : ReadsTypes toks item) {fuel : Nat} {done list : List α} {taken rest : List Mark}
    (hOk : manyOn (optional (eatPunct .comma) item) fuel done toks cur = .ok (list, after))
    (row : Row toks cur.pos rest) (hRead : TypeRead taken rest) : TypeEnd toks (taken ++ rest) after.pos := by
  induction fuel generalizing done cur taken rest with
  | zero => simp [manyOn] at hOk
  | succ fuel ih =>
    obtain ⟨step, mid, hStep, hOk⟩ := exists_of_bind hOk
    by_cases hComma : (tokenAt toks cur.pos).kind = .punct .comma
    · obtain ⟨mark, rest, rfl⟩ := row.exists_cons
      obtain rfl : mark = .comma := eq_of_kind (by decide) row.sound_head (row.kind_eq.symm.trans hComma)
      obtain ⟨next, more, rfl⟩ := row.exists_next (by simp)
      simp [optional, hComma, bind_eq_ok] at hStep
      obtain ⟨val, hVal, rfl⟩ := hStep
      obtain ⟨inner, others, hMore, hRow, hInner⟩ := hItem hVal row.tail
        (forall_head (startsType_of_startsOperand row.beside) _)
      have hList := ih hOk hRow ((TypeRead.append_names (taken ++ [.comma])
        (by rw [all_append, hRead.names_of_comma]; rfl)) hInner)
      rw [hMore]
      simpa using hList
    · simp [optional, hComma] at hStep
      obtain ⟨rfl, rfl⟩ := hStep
      simp at hOk
      obtain ⟨-, rfl⟩ := hOk
      exact ⟨taken, rest, rfl, row, hRead⟩

theorem typeEnd_commaList (hItem : ReadsTypes toks item) {list : List α} {marks : List Mark}
    (hOk : commaList item toks cur = .ok (list, after)) (row : Row toks cur.pos marks)
    (hStart : ∀ mark ∈ marks.head?, mark.startsType = true) : TypeEnd toks marks after.pos := by
  obtain ⟨first, mid, hFirst, hOk⟩ := exists_of_bind hOk
  obtain ⟨others, stop, hMany, hOk⟩ := exists_of_bind hOk
  obtain ⟨taken, rest, rfl, hRow, hRead⟩ := hItem hFirst row hStart
  cases hOk
  exact typeEnd_manyOn hItem hMany hRow hRead

end Lists

section Names

variable {toks : Array Token} {type : Parser TypeExpr} {cur after : Cursor} {marks : List Mark}

/-- Type arguments are names in angles, or names with such arguments that a shift closes. -/
def ArgsRead (taken : List Mark) (closer : Mark) : Prop :=
  (taken.all inNames = true ∧ (closer = .between .gt ∨ closer = .angle)) ∨
    (∃ outer inner, taken = outer ++ .between .lt :: (inner ++ [.angle]) ∧ outer.all inNames = true ∧
      inner.all inNames = true) ∧ closer = .joined .gt

theorem argsRead_typeArgsWith (hType : ReadsTypes toks type) {args : List TypeExpr}
    (hOk : typeArgsWith type toks cur = .ok (args, after)) (row : Row toks cur.pos marks) :
    ∃ taken closer next rest, marks = .between .lt :: (taken ++ closer :: next :: rest) ∧
      Row toks after.pos (next :: rest) ∧ beside closer next = true ∧ taken.all isFlat = true ∧
      ArgsRead taken closer := by
  obtain ⟨opening, mid, hOpening, hOk⟩ := exists_of_bind hOk
  obtain ⟨list, stop, hList, hOk⟩ := exists_of_bind hOk
  obtain ⟨closing, last, hClosing, hOk⟩ := exists_of_bind hOk
  cases hOk
  obtain ⟨hOpen, rfl⟩ := expectPunct_inv hOpening
  obtain ⟨hClose, rfl⟩ := expectPunct_inv hClosing
  obtain ⟨mark, more, rfl⟩ := row.exists_cons
  obtain rfl : mark = .between .lt := eq_of_kind (by decide) row.sound_head (row.kind_eq.symm.trans hOpen)
  obtain ⟨next, more, rfl⟩ := row.exists_next (by simp)
  obtain ⟨taken, rest, hTaken, hRow, hRead⟩ := typeEnd_commaList hType hList row.tail
    (forall_head (startsType_of_startsOperand row.beside) _)
  obtain ⟨closer, rest, rfl⟩ := hRow.exists_cons
  have hGt : closer.kind = .punct .gt := hRow.kind_eq.symm.trans hClose
  have hCloser := mem_of_kind [.between .gt, .joined .gt, .angle] (by decide) hRow.sound_head hGt
  obtain ⟨last, rest, rfl⟩ := hRow.exists_next (by rintro rfl; cases hGt)
  refine ⟨taken, closer, last, rest, by rw [hTaken], hRow.tail, hRow.beside, hRead.flat, ?_⟩
  simp only [mem_cons, not_mem_nil, or_false] at hCloser
  rcases hRead.shape with ⟨hNames, hJoined⟩ | ⟨hNested, hJoined⟩ | hDead
  · refine .inl ⟨hNames, ?_⟩
    rcases hCloser with rfl | rfl | rfl
    · exact .inl rfl
    · exact absurd (hJoined _ rfl) Bool.false_ne_true.symm
    · exact .inr rfl
  · refine .inr ⟨hNested, ?_⟩
    rcases hCloser with rfl | rfl | rfl
    · exact absurd (hJoined _ rfl) Bool.false_ne_true
    · rfl
    · exact absurd (hJoined _ rfl) Bool.false_ne_true
  · have hEnds := hDead closer rfl
    simp [endsArgument, hGt] at hEnds

/-- Type arguments end at the first half of a shift, or before an operand. -/
theorem ArgsRead.typeRead {taken : List Mark} (rest : List Mark) {closer next : Mark} (hArgs : ArgsRead taken closer)
    (hFlat : taken.all isFlat = true) (hBeside : beside closer next = true) (hSound : next.sound = true) :
    TypeRead (.between .lt :: (taken ++ [closer])) (next :: rest) ∧ next.kind ≠ .punct .dot := by
  have hDead : next.startsOperand = true →
      (∀ mark ∈ (next :: rest).head?, mark.endsArgument = false) ∧ next.kind ≠ .punct .dot := by
    intro hStarts
    exact ⟨forall_head (endsArgument_of_startsOperand hSound hStarts) _, kind_ne (by decide) hSound hStarts⟩
  have hAll : closer.isFlat = true → (Mark.between .lt :: (taken ++ [closer])).all isFlat = true := by
    intro hCloser
    rw [all_cons, all_append, hFlat, all_cons, hCloser]
    rfl
  rcases hArgs with ⟨hNames, rfl | rfl⟩ | ⟨-, rfl⟩
  · exact ⟨⟨hAll rfl, .inr (.inr (hDead hBeside).1)⟩, (hDead hBeside).2⟩
  · refine ⟨⟨hAll rfl, .inr (.inl ⟨⟨[], taken, rfl, rfl, hNames⟩, ?_⟩)⟩, ?_⟩
    · exact forall_head hBeside _
    · exact @kind_ne _ _ isJoined (by decide) hSound hBeside
  · exact ⟨⟨hAll rfl, .inr (.inr (hDead hBeside).1)⟩, (hDead hBeside).2⟩

variable {fuel : Nat} {named result : String × List TypeExpr}

theorem eq_of_extendOn_nameSegment (hOk : extendOn (nameSegmentWith type) fuel named toks cur = .ok (result, after))
    (hDot : (tokenAt toks cur.pos).kind ≠ .punct .dot) : after = cur := by
  cases fuel with
  | zero => simp [extendOn] at hOk
  | succ fuel =>
    simp [extendOn, nameSegmentWith, hDot] at hOk
    exact hOk.2.symm

theorem typeEnd_segments (hType : ReadsTypes toks type) {args : Option (List TypeExpr)} {mid : Cursor}
    (hArgs : optional (atPunct .lt) (typeArgsWith type) toks cur = .ok (args, mid))
    (hLoop : extendOn (nameSegmentWith type) fuel named toks mid = .ok (result, after))
    (row : Row toks cur.pos marks) (hHead : ∀ mark ∈ marks.head?, mark.isJoined = false) :
    TypeEnd toks marks after.pos := by
  induction fuel generalizing cur mid named marks args with
  | zero => simp [extendOn] at hLoop
  | succ fuel ih =>
    by_cases hLt : (tokenAt toks cur.pos).kind = .punct .lt
    · simp [optional, hLt, bind_eq_ok] at hArgs
      obtain ⟨list, hList, rfl⟩ := hArgs
      obtain ⟨taken, closer, next, rest, rfl, hRow, hBeside, hFlat, hRead⟩ := argsRead_typeArgsWith hType hList row
      obtain ⟨hRead, hDot⟩ := hRead.typeRead rest hFlat hBeside hRow.sound_head
      obtain rfl := eq_of_extendOn_nameSegment hLoop (by rwa [hRow.kind_eq])
      exact ⟨_, _, by simp, hRow, hRead⟩
    · simp [optional, hLt] at hArgs
      obtain ⟨rfl, rfl⟩ := hArgs
      by_cases hDot : (tokenAt toks cur.pos).kind = .punct .dot
      · obtain ⟨mark, rest, rfl⟩ := row.exists_cons
        obtain rfl : mark = .dot := eq_of_kind (by decide) row.sound_head (row.kind_eq.symm.trans hDot)
        obtain ⟨next, rest, rfl⟩ := row.exists_next (by simp)
        obtain ⟨text, rfl⟩ := eq_name_of_beside row.beside
        obtain ⟨next, rest, rfl⟩ := row.tail.exists_next (by simp)
        obtain ⟨step, stop, hStep, hLoop⟩ := exists_of_bind hLoop
        have hSkip : skip toks cur = .ok ((), ⟨cur.pos + 1, cur.depth⟩) := skip_apply (by simp [hDot])
        have hIdent : (tokenAt toks (cur.pos + 1)).kind = .ident text := row.tail.kind_eq
        have hName : expectIdent toks ⟨cur.pos + 1, cur.depth⟩ =
            .ok (text, ⟨cur.pos + 1 + 1, cur.depth⟩) := expectIdent_apply hIdent
        simp only [nameSegmentWith, bind_apply, atPunct_apply, ok_bind, identAt_apply, hDot, beq_self_eq_true,
          hIdent, TokenKind.isIdent, Bool.and_self, if_true, hSkip, hName, bind_eq_ok] at hStep
        obtain ⟨list, hArgs, hStep⟩ := hStep
        cases hStep
        obtain ⟨taken, others, hTaken, hRow, hRead⟩ := ih hArgs hLoop row.tail.tail
          (forall_head (isJoined_of_follows row.tail.beside) _)
        exact ⟨.dot :: .name text :: taken, others, by simp [hTaken], hRow,
          TypeRead.append_names ([.dot, .name text]) rfl hRead⟩
      · obtain rfl := eq_of_extendOn_nameSegment hLoop hDot
        exact ⟨[], marks, rfl, row, ⟨rfl, .inl ⟨rfl, hHead⟩⟩⟩

end Names

section Plain

variable {toks : Array Token} {type : Parser TypeExpr} {cur after : Cursor}

theorem nullableFollows_apply : ∃ answer, nullableFollows toks cur = .ok (answer, cur) := by
  unfold nullableFollows
  simp only [bind_apply, kindAt_apply, ok_bind]
  generalize (tokenAt toks (cur.pos + 1)).kind = kind
  cases kind <;> exact ⟨_, rfl⟩

theorem typeSuffix_none {type : TypeExpr} (hQuestion : (tokenAt toks cur.pos).kind ≠ .punct .question)
    (hStar : (tokenAt toks cur.pos).kind ≠ .punct .star) (hBracket : (tokenAt toks cur.pos).kind ≠ .punct .lBracket) :
    typeSuffix type toks cur = .ok (none, cur) := by
  unfold typeSuffix
  simp only [bind_apply, kind_apply, ok_bind]
  rfl

variable {taken rest : List Mark} {mark : Mark}

theorem typeRead_step {next : Mark} {pos : Nat} (hFlat : taken.all isFlat = true) (hMark : mark.isFlat = true)
    (row : Row toks pos (next :: rest)) (hStarts : next.startsOperand = true) :
    TypeRead (taken ++ [mark]) (next :: rest) where
  flat := by
    rw [all_append, hFlat, all_cons, hMark]
    rfl
  shape := by
    exact .inr (.inr (forall_head (endsArgument_of_startsOperand row.sound_head hStarts) _))

theorem typeEnd_suffixes {fuel : Nat} {first result : TypeExpr}
    (hOk : extendOn typeSuffix fuel first toks cur = .ok (result, after)) (row : Row toks cur.pos rest)
    (hRead : TypeRead taken rest) : TypeEnd toks (taken ++ rest) after.pos := by
  induction fuel generalizing cur first taken rest with
  | zero => simp [extendOn] at hOk
  | succ fuel ih =>
    obtain ⟨step, mid, hStep, hLoop⟩ := exists_of_bind hOk
    -- a step that takes nothing ends the loop, and one that takes a mark goes on before an operand
    have hStop : step = none → mid = cur → TypeEnd toks (taken ++ rest) after.pos := by
      rintro rfl rfl
      simp at hLoop
      obtain ⟨-, rfl⟩ := hLoop
      exact ⟨taken, rest, rfl, row, hRead⟩
    have hGoOn : ∀ {longer mark next more}, step = some longer → mid = ⟨cur.pos + 1, cur.depth⟩ →
        rest = mark :: next :: more → mark.isFlat = true → next.startsOperand = true →
        TypeEnd toks (taken ++ rest) after.pos := by
      rintro longer mark next more rfl rfl rfl hFlat hStarts
      have hEnd := ih hLoop row.tail (typeRead_step hRead.flat hFlat row.tail hStarts)
      simpa using hEnd
    obtain ⟨mark, rest, rfl⟩ := row.exists_cons
    have hKind := row.kind_eq
    by_cases hQuestion : mark.kind = .punct .question
    · obtain rfl : mark = .between .question := eq_of_kind (by decide) row.sound_head hQuestion
      obtain ⟨next, more, rfl⟩ := row.exists_next (by simp)
      rw [hQuestion] at hKind
      obtain ⟨answer, hAnswer⟩ : ∃ answer, nullableFollows toks cur = .ok (answer, cur) := nullableFollows_apply
      cases answer with
      | false =>
        simp [typeSuffix, hKind, hAnswer] at hStep
        exact hStop hStep.1.symm hStep.2.symm
      | true =>
        simp [typeSuffix, hKind, hAnswer, skip_apply] at hStep
        exact hGoOn hStep.1.symm hStep.2.symm rfl rfl row.beside
    · by_cases hStar : mark.kind = .punct .star
      · have hMark := mem_of_kind [.before .star, .between .star] (by decide) row.sound_head hStar
        obtain ⟨next, more, rfl⟩ := row.exists_next (by rintro rfl; cases hStar)
        rw [hStar] at hKind
        simp [typeSuffix, hKind, skip_apply] at hStep
        simp only [mem_cons, not_mem_nil, or_false] at hMark
        rcases hMark with rfl | rfl
        · have hBeside := row.beside
          rw [beside, Bool.and_eq_true] at hBeside
          exact hGoOn hStep.1.symm hStep.2.symm rfl rfl hBeside.1
        · exact hGoOn hStep.1.symm hStep.2.symm rfl rfl row.beside
      · by_cases hBracket : mark.kind = .punct .lBracket
        · obtain rfl : mark = .opens .index := eq_of_kind (by decide) row.sound_head hBracket
          obtain ⟨next, more, rfl⟩ := row.exists_next (by simp)
          have hNext := row.tail.kind_eq
          have hClose : next.kind ≠ .punct .rBracket := kind_ne (by decide) row.tail.sound_head row.beside
          have hComma : next.kind ≠ .punct .comma := kind_ne (by decide) row.tail.sound_head row.beside
          rw [hBracket] at hKind
          simp [typeSuffix, hKind, hNext, hClose, hComma] at hStep
          exact hStop hStep.1.symm hStep.2.symm
        · rw [typeSuffix_none (by rwa [hKind]) (by rwa [hKind]) (by rwa [hKind])] at hStep
          simp at hStep
          exact hStop hStep.1.symm hStep.2.symm

theorem flat_tupleItem (hType : ReadsTypes toks type) {item : TypeExpr} {marks : List Mark}
    (hOk : tupleItemWith type toks cur = .ok (item, after)) (row : Row toks cur.pos marks)
    (hStart : ∀ mark ∈ marks.head?, mark.startsType = true) :
    ∃ taken rest, marks = taken ++ rest ∧ Row toks after.pos rest ∧ taken.all isFlat = true := by
  obtain ⟨first, mid, hFirst, hOk⟩ := exists_of_bind hOk
  obtain ⟨taken, rest, rfl, hRow, hRead⟩ := hType hFirst row hStart
  obtain ⟨mark, rest, rfl⟩ := hRow.exists_cons
  have hKind := hRow.kind_eq
  by_cases hIdent : mark.kind.isIdent = true
  · have hFlat : mark.isFlat = true ∧ mark ≠ .done := by
      cases mark with
      | opens bracket | closes bracket | done => simp [Mark.kind, TokenKind.isIdent] at hIdent
      | _ => simp [isFlat]
    have hEat := eatIf_apply (atIdent_apply : atIdent toks mid = _) (by
      rintro - hEof
      rw [hKind] at hEof
      simp [hEof, TokenKind.isIdent] at hIdent)
    obtain ⟨next, more, rfl⟩ := hRow.exists_next hFlat.2
    simp [hEat, hKind, hIdent] at hOk
    obtain ⟨-, rfl⟩ := hOk
    refine ⟨taken ++ [mark], next :: more, by simp, hRow.tail, ?_⟩
    rw [all_append, hRead.flat, all_cons, hFlat.1]
    rfl
  · have hEat := eatIf_apply (atIdent_apply : atIdent toks mid = _) (by
      intro hAnswer
      rw [hKind] at hAnswer
      exact absurd hAnswer hIdent)
    simp [hEat, hKind, hIdent] at hOk
    obtain ⟨-, rfl⟩ := hOk
    exact ⟨taken, mark :: rest, rfl, hRow, hRead.flat⟩

/-- No tuple of types is read, since no comma stands in parentheses around an expression or a type. -/
theorem tupleType_error (hType : ReadsTypes toks type) (row : Row toks cur.pos (mark :: rest))
    (hStarts : mark.startsType = true) (result : TypeExpr × Cursor) : tupleTypeWith type toks cur ≠ .ok result := by
  intro hOk
  obtain ⟨opening, mid, hOpening, hInner⟩ := exists_of_bind hOk
  obtain ⟨items, stop, hItems, hClosing⟩ := exists_of_bind hInner
  obtain ⟨closing, last, -, hTuple⟩ := exists_of_bind hClosing
  obtain ⟨hOpen, rfl⟩ := expectPunct_inv hOpening
  have hMark := mem_of_kind [.opens .group, .opens .castType, .opens .args] (by decide) row.sound_head
    (row.kind_eq.symm.trans hOpen)
  obtain ⟨next, more, rfl⟩ := row.exists_next (by rintro rfl; simp at hMark)
  obtain ⟨bracket, rfl, hList, hNext⟩ : ∃ bracket, mark = .opens bracket ∧ bracket.isList = false ∧
      next.startsType = true := by
    have hBeside := row.beside
    simp only [mem_cons, not_mem_nil, or_false] at hMark
    rcases hMark with rfl | rfl | rfl
    · exact ⟨.group, rfl, rfl, startsType_of_startsOperand hBeside⟩
    · exact ⟨.castType, rfl, rfl, by rw [startsType, Bool.or_eq_true]; exact .inr hBeside⟩
    · simp [startsType, startsOperand, isTypeName] at hStarts
  obtain ⟨stack, hNested⟩ := row.nested
  obtain ⟨first, after, hFirst, hOthers⟩ := exists_of_bind hItems
  obtain ⟨taken, rest, hTaken, hRow, hFlat⟩ := flat_tupleItem hType hFirst row.tail (forall_head hNext _)
  rw [Mark.nested, hTaken] at hNested
  have hRest := nested_flat hFlat hNested
  have hComma : (tokenAt toks after.pos).kind ≠ .punct .comma := by
    obtain ⟨other, others, rfl⟩ := hRow.exists_cons
    rw [hRow.kind_eq]
    intro hKind
    obtain rfl : other = .comma := eq_of_kind (by decide) hRow.sound_head hKind
    simp [Mark.nested, hList] at hRest
  simp [many, manyOn, optional, hComma] at hOthers
  obtain ⟨rfl, rfl⟩ := hOthers
  simp at hTuple

theorem expectIdentSpan_inv {result : (String × Span) × Cursor} (hOk : expectIdentSpan toks cur = .ok result) :
    (tokenAt toks cur.pos).kind = .ident result.1.1 ∧ result.2 = ⟨cur.pos + 1, cur.depth⟩ := by
  unfold expectIdentSpan at hOk
  simp only [bind_apply, peek_apply, ok_bind] at hOk
  cases hKind : (tokenAt toks cur.pos).kind with
  | ident name =>
    simp [hKind, skip_apply] at hOk
    subst hOk
    simp
  | _ => simp [hKind] at hOk

theorem typeEnd_namedType (hType : ReadsTypes toks type) {named : TypeExpr}
    (hOk : namedTypeWith type toks cur = .ok (named, after)) (row : Row toks cur.pos (mark :: rest))
    (hStarts : mark.startsType = true) : TypeEnd toks (mark :: rest) after.pos := by
  obtain ⟨⟨name, start⟩, mid, hFirst, hQualify⟩ := exists_of_bind hOk
  obtain ⟨hIdent, rfl⟩ := expectIdentSpan_inv hFirst
  have hMark : mark.kind = .ident name := row.kind_eq.symm.trans hIdent
  obtain ⟨next, more, rfl⟩ := row.exists_next (by rintro rfl; cases hMark)
  have hColon : (tokenAt toks (cur.pos + 1)).kind ≠ .punct .colonColon := by
    rw [row.tail.kind_eq]
    intro hKind
    exact absurd (mem_of_kind [] (by decide) row.tail.sound_head hKind) (by simp)
  obtain ⟨qualified, stop, hQualified, hArguments⟩ := exists_of_bind hQualify
  obtain ⟨args, last, hArgs, hExtend⟩ := exists_of_bind hArguments
  obtain ⟨result, final, hSegments, hSpan⟩ := exists_of_bind hExtend
  simp [optional, hColon] at hQualified
  obtain ⟨rfl, rfl⟩ := hQualified
  simp [extend] at hSegments hSpan
  obtain ⟨-, rfl⟩ := hSpan
  have hHead : next.isJoined = false := by
    cases mark with
    | leaf token =>
      have hBeside := row.beside
      rw [beside, Bool.and_eq_true] at hBeside
      exact isJoined_of_follows hBeside.1
    | typeName token =>
      have hBeside := row.beside
      rw [beside, beq_iff_eq] at hBeside
      subst hBeside
      rfl
    | _ => simp_all [startsType, startsOperand, isTypeName, Mark.kind]
  obtain ⟨taken, rest, hTaken, hRow, hRead⟩ := typeEnd_segments hType hArgs hSegments row.tail (forall_head hHead _)
  refine ⟨mark :: taken, rest, by rw [hTaken]; rfl, hRow, ?_⟩
  cases mark with
  | leaf token =>
    obtain rfl : token = .ident name := hMark
    exact TypeRead.append_names ([.leaf (.ident name)]) rfl hRead
  | typeName token =>
    have hBeside := row.beside
    rw [beside, beq_iff_eq] at hBeside
    subst hBeside
    -- what closes the type of a cast is a bracket, so that nothing was taken before it
    cases taken with
    | nil =>
      obtain rfl : rest = .closes .castType :: more := hTaken.symm
      exact ⟨rfl, .inr (.inr (forall_head rfl _))⟩
    | cons other taken =>
      obtain rfl : other = .closes .castType := (List.cons.inj hTaken).1.symm
      exact absurd hRead.flat (by simp [isFlat])
  | _ => simp_all [startsType, startsOperand, isTypeName, Mark.kind]

end Plain

end Parser

end Shaderlift
