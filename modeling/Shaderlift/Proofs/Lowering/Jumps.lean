import Shaderlift.Lowering.Stmt

/-!
# Which expressions read as jumps

A jump of the output is a word at the start of a line, and so is a name. The words of jumps are not among
those that the output keeps for itself, so a variable of that name is written as the jump. The main result
says that this is the only way: an expression that is written as the word of a jump is nothing but that name
(`reads_tree`). Anything else leaves a mark in the text that no word has.
-/

namespace Shaderlift

open List

/-- The words that jump out of a loop or to its next round. -/
def jumpWords : List String := ["break", "continue"]

/-- Decide whether an expression is nothing but a name, by itself or as a member. -/
def Expr.isOnly (word : String) : Expr → Bool
  | .ident _ name | .typeWord _ name | .member _ _ name _ => name == word
  | .post _ .nullForgiving inner | .asType _ inner _ | .checked _ _ inner => inner.isOnly word
  | _ => false

/-- Decide whether a text is made of small letters only. -/
def isPlain (text : String) : Bool := text.toList.all Char.isLower

theorem isPlain_append (first second : String) : isPlain (first ++ second) = (isPlain first && isPlain second) := by
  simp [isPlain, String.toList_append]

theorem isPlain_of_jump {word : String} (hWord : word ∈ jumpWords) : isPlain word = true := by
  have hAll : ∀ word ∈ jumpWords, isPlain word = true := by decide
  exact hAll word hWord

theorem not_jump_of_marked {text : String} (hMarked : isPlain text = false) : text ∉ jumpWords := by
  intro hWord
  rw [isPlain_of_jump hWord] at hMarked
  cases hMarked

/-! ## Marks in texts -/

/-- Decide whether an expression is written as a single word, as far as its form tells. -/
def OutExpr.isWord : OutExpr → Bool
  | .token _ | .qualified _ | .post .nullForgiving _ => true
  | _ => false

/-- What is no single word has a mark that no word has. -/
theorem OutExpr.marked_of_isWord {out : OutExpr} (hOut : out.isWord = false) : isPlain out.text = false := by
  have hMarks : isPlain "." = false ∧ isPlain "[" = false ∧ isPlain "(" = false ∧ isPlain " " = false ∧
      isPlain " ? " = false ∧ isPlain "\x7b" = false := by decide
  cases out with
  | token | qualified => cases hOut
  | unary op operand =>
    have hOp : isPlain op.spelling = false := by cases op <;> decide
    simp [text, isPlain_append, hOp]
  | post op operand =>
    have hMark : isPlain op.spelling = false := by
      cases op with
      | inc | dec => decide
      | nullForgiving => cases hOut
    simp [text, isPlain_append, hMark]
  | _ => simp [text, Text.dotted, isPlain_append, hMarks]

theorem isPlain_toString (n : Nat) : isPlain (toString n) = false := by
  have hDigits : ∀ c ∈ Nat.toDigits 10 n, c.isDigit = true := fun c hc =>
    Nat.isDigit_of_mem_toDigits (by decide) (by decide) hc
  have hText : (toString n).toList = Nat.toDigits 10 n := by simp [toString, Nat.repr]
  cases hList : Nat.toDigits 10 n with
  | nil => exact absurd hList Nat.toDigits_ne_nil
  | cons c rest =>
    rw [isPlain, hText, hList, all_cons]
    have hDigit : c.isDigit = true := hDigits c (hList ▸ mem_cons_self)
    have hLower : c.isLower = false := by
      show (decide ('a' ≤ c) && decide (c ≤ 'z')) = false
      simp only [Char.isDigit, Bool.and_eq_true, decide_eq_true_eq] at hDigit
      rw [Bool.and_eq_false_iff, decide_eq_false_iff_not]
      exact .inl fun hLow => absurd (Char.le_trans hLow hDigit.2) (by decide)
    rw [hLower]
    rfl

/-- A name of the source that is written as a jump is that name: what the output keeps for itself gets a
mark. -/
theorem eq_of_identifier_jump {name word : String} (hWord : word ∈ jumpWords)
    (hName : Reserved.identifier name = word) : name = word := by
  unfold Reserved.identifier at hName
  split at hName
  · have hPlain := isPlain_of_jump hWord
    have hMark : isPlain "__reserved__" = false := by decide
    rw [← hName, isPlain_append, hMark] at hPlain
    cases hPlain
  · exact hName

theorem not_jump_written (val : Literal) : val.written.text ∉ jumpWords := by
  -- The last letter of a real number is its own.
  have hReal : ∀ digits : String, (digits ++ "f") ∉ jumpWords := by
    intro digits hWord
    have hLast : ∀ word ∈ jumpWords, word.toList.getLast? ≠ some 'f' := by decide
    apply hLast _ hWord
    simp
  cases val with
  | int _ val suffix =>
    apply not_jump_of_marked
    simp only [Literal.written]
    split
    · show isPlain (toString val ++ "u") = false
      rw [isPlain_append, isPlain_toString]
      rfl
    · exact isPlain_toString val
  | real digits suffix =>
    have hLong : isPlain (Literal.realDigits digits ++ "L") = false := by
      have hMark : isPlain "L" = false := by decide
      rw [isPlain_append, hMark, Bool.and_false]
    cases suffix with
    | none => exact not_jump_of_marked hLong
    | some suffix =>
      cases suffix with
      | f => exact hReal _
      | d | m => exact not_jump_of_marked hLong
  | bool val => cases val <;> decide
  | char val => exact not_jump_of_marked (isPlain_toString _)
  | str | null =>
    show "0" ∉ jumpWords
    decide

theorem not_jump_scalar {owner member : String} {val : OutExpr}
    (hVal : Constant.scalar? owner member = some val) : val.text ∉ jumpWords := by
  have hAll : ∀ entry ∈ Constant.table, isPlain entry.2.text = false := by decide
  exact not_jump_of_marked (hAll _ (mem_of_lookup hVal))

theorem not_jump_typedVector {owner member : String} {val : OutExpr} {type : ValueType}
    (hVal : Constant.typedVector? owner member = some (val, type)) : val.text ∉ jumpWords := by
  obtain ⟨kind, width, -, -, ⟨digit, rfl⟩ | ⟨axis, rfl⟩⟩ := Constant.typedVector?_cases hVal
  · exact not_jump_of_marked (OutExpr.marked_of_isWord rfl)
  · exact not_jump_of_marked (OutExpr.marked_of_isWord rfl)

namespace Lower

open Track

/-- Whatever the state, the result of an action has a property. -/
def Gives {α : Type} (Good : α → Prop) (action : Lower α) : Prop := ∀ state, Good (action state).1

namespace Gives

variable {α β : Type} {Good : β → Prop}

theorem pure {val : β} (hVal : Good val) : Gives Good (Pure.pure val : Lower β) := fun _ => hVal

theorem after {first : Lower α} {next : α → Lower β} (hNext : ∀ val, Gives Good (next val)) :
    Gives Good (first >>= next) :=
  fun st => hNext (first st).1 (first st).2

theorem ite {test : Prop} [Decidable test] {first second : Lower β} (hFirst : Gives Good first)
    (hSecond : Gives Good second) : Gives Good (if test then first else second) := by
  split
  · exact hFirst
  · exact hSecond

end Gives

/-- A written expression is a jump only if the expression is nothing but its name. -/
def Reads (value : Expr) (out : OutExpr) : Prop := out.text ∈ jumpWords → value.isOnly out.text = true

variable {val : Expr}

variable {out : OutExpr} {name : String} {ctx : LowerContext}

theorem Reads.of_marked (hMarked : isPlain out.text = false) : Reads val out :=
  fun hWord => absurd hWord (not_jump_of_marked hMarked)

theorem Reads.of_form (hOut : out.isWord = false) : Reads val out := .of_marked (OutExpr.marked_of_isWord hOut)

theorem Reads.of_not_jump (hOut : out.text ∉ jumpWords) : Reads val out :=
  fun hWord => absurd hWord hOut

/-- A name is written as a jump only if it is the name of the jump. -/
theorem Reads.of_name (hName : ∀ word, val.isOnly word = (name == word)) (hOut : Reserved.identifier name = out.text) :
    Reads val out := by
  intro hWord
  rw [hName, beq_iff_eq]
  exact eq_of_identifier_jump hWord hOut

/-! ## Names -/

theorem isPlain_globalName (owner name : String) : isPlain (globalName owner name) = false := by
  have hMark : isPlain "__" = false := by decide
  simp [globalName, isPlain_append, hMark]

theorem reads_externalStatic (pull : Pull) (ctx : LowerContext) (owner name : String) :
    Gives (Reads val) (externalStatic pull ctx owner name) := by
  have hGlobal : Reads val (.ident (globalName owner name)) := .of_marked (isPlain_globalName owner name)
  unfold externalStatic
  refine .after fun st => .ite (.pure hGlobal) (.after fun _ => ?_)
  dsimp only
  split
  · exact .pure hGlobal
  · split
    · exact .pure hGlobal
    · exact .after fun _ => .after fun _ => .after fun _ => .pure hGlobal

theorem reads_dispatchValue (kind : ShaderKind) (info : DispatchInfo) :
    Gives (Reads val) (dispatchValue kind info) := by
  cases info with
  | threadIds => exact .pure (.of_form rfl)
  | groupIds | gridIds => exact .after fun _ => .pure (.of_form rfl)
  | groupSize => exact .after fun _ => .pure (.of_not_jump (by decide))
  | dispatchSize => exact .pure (.of_form rfl)

theorem reads_ident (pull : Pull) (ctx : LowerContext) (span : Span) (name : String) :
    Gives (Reads (.ident span name)) (ident pull ctx (.ident span name) name) := by
  have hName : Reads (.ident span name) (sourceName name) := .of_name (fun _ => rfl) rfl
  unfold ident
  refine .after fun site => .ite (.pure hName) ?_
  split
  · exact reads_dispatchValue _ _
  · split
    · exact .ite (reads_externalStatic pull ctx _ name) (.pure hName)
    · exact .pure hName

/-! ## Members -/

theorem reads_extentSwizzle (kind : ShaderKind) (name : String) : Reads val (extentSwizzle kind name) := by
  have hComponent : ∀ c, Reads val (extentComponent kind c) := by
    intro c
    unfold extentComponent
    split
    · exact .of_not_jump (by decide)
    · split
      · exact .of_not_jump (by decide)
      · split
        · exact .of_not_jump (by decide)
        · exact .of_not_jump (by decide)
  unfold extentSwizzle
  split
  · exact .of_form rfl
  · rename_i swizzle _
    split
    · rename_i single hSingle
      obtain ⟨c, -, rfl⟩ := mem_map.mp (hSingle ▸ mem_singleton_self single)
      exact hComponent c
    · exact .of_form rfl

theorem reads_dispatchMember (kind : ShaderKind) (info : DispatchInfo) (name : String) :
    Gives (Reads val) (dispatchMember kind info name) := by
  have hSwizzle : ∀ base, Reads val (dispatchSwizzle base name) :=
    fun _ => .of_form rfl
  cases info with
  | threadIds => exact .ite (.pure (.of_form rfl)) (.pure (hSwizzle _))
  | groupIds =>
    exact .ite (.after fun _ => .pure (.of_not_jump (by decide))) (.after fun _ => .pure (hSwizzle _))
  | gridIds => exact .after fun _ => .pure (hSwizzle _)
  | groupSize =>
    refine .after fun _ => .pure ?_
    split
    · exact .of_not_jump (by decide)
    · exact hSwizzle _
  | dispatchSize =>
    refine .pure ?_
    split
    · exact .of_form rfl
    · exact reads_extentSwizzle kind name

theorem reads_staticMember (pull : Pull) (ctx : LowerContext) (path : String)
    (hName : ∀ word, val.isOnly word = (name == word)) : Gives (Reads val) (staticMember pull ctx path name) := by
  have hMember : Reads val (.member (.ofPath path) name) := .of_form rfl
  unfold staticMember
  split
  · rename_i hScalar
    exact .pure (.of_not_jump (not_jump_scalar hScalar))
  · rename_i hVector
    exact .pure (.of_not_jump (not_jump_typedVector hVector))
  · split
    · exact .ite (.ite (.pure (.of_name hName rfl)) (reads_externalStatic pull ctx _ name)) (.pure hMember)
    · exact .pure hMember

theorem reads_member (pull : Pull) (ctx : LowerContext) (target : Expr)
    (hName : ∀ word, val.isOnly word = (name == word)) (write : Lower OutExpr) :
    Gives (Reads val) (member pull ctx target name write) := by
  have hProperty : Gives (Reads val) (property ctx target name write) :=
    .after fun _ => .after fun _ => .pure (.of_form rfl)
  have hPlain : Gives (Reads val) (plainMember pull ctx target name write) := by
    unfold plainMember
    refine .after fun site => ?_
    split
    · exact hProperty
    · split
      · exact reads_staticMember pull ctx _ hName
      · split
        · exact .after fun _ => .pure (.of_form rfl)
        · exact hProperty
  unfold member
  refine .after fun site => ?_
  split
  · exact reads_dispatchMember _ _ _
  · exact .pure (.of_name hName rfl)
  · exact hPlain

/-! ## Elements, calls and values -/

theorem marked_indexEach (target : OutExpr) (indices : List OutExpr) :
    isPlain (indexEach target indices).text = false := by
  unfold indexEach
  cases indices with
  | nil => exact OutExpr.marked_of_isWord rfl
  | cons first rest =>
    -- However many follow, the last access is the one that is written last.
    have hFold : ∀ (rest : List OutExpr) (inner : OutExpr), isPlain inner.text = false →
        isPlain (rest.foldl (fun inner arg => .index inner [arg]) inner).text = false := by
      intro rest
      induction rest with
      | nil => exact fun _ hInner => hInner
      | cons arg others ih => exact fun _ _ => ih _ (OutExpr.marked_of_isWord rfl)
    exact hFold rest _ (OutExpr.marked_of_isWord rfl)

theorem reads_index (ctx : LowerContext) (target : Expr) (args : List Argument) (write : Lower OutExpr)
    (indices : Lower (List OutExpr)) : Gives (Reads val) (index ctx target args write indices) := by
  have hPlain : Gives (Reads val) (plainIndex ctx target args write indices) := by
    unfold plainIndex
    refine .after fun type => ?_
    split
    · exact .after fun _ => .pure (.of_form rfl)
    · exact .after fun _ => .after fun _ => .pure (.of_marked (marked_indexEach _ _))
  unfold index
  refine .after fun site => ?_
  split
  · exact .after fun _ => .ite (.pure (.of_form rfl))
      (.pure (.of_form rfl))
  · exact hPlain

theorem reads_call (pull : Pull) (ctx : LowerContext) (args : List Argument) (callee : Callee)
    (write : List (Option ValueType) → Lower (List OutExpr)) : Gives (Reads val) (call pull ctx args callee write) := by
  cases callee with
  | source key =>
    simp only [call]
    split
    · exact .after fun _ => .after fun _ => .pure (.of_form rfl)
    · exact .after fun _ => .pure (.of_form rfl)
  | intrinsic | localFunction | resourceMember | unknown | ambiguous =>
    exact .after fun _ => .pure (.of_form rfl)

theorem reads_zero (type : Option ValueType) : Gives (Reads val) (zero type) := by
  cases type with
  | none => exact .pure (.of_not_jump (by decide))
  | some type => exact .after fun _ => .pure (.of_form rfl)

theorem reads_patternWith (pull : Pull) (ctx : LowerContext) (subject : OutExpr) (pattern : Pattern) :
    Gives (Reads val) (patternWith pull ctx subject pattern) := by
  unfold patternWith
  cases pattern with
  | constant | relational => exact .after fun _ => .pure (.of_form rfl)
  | not => exact .after fun _ => .pure (.of_form rfl)
  | and | or => exact .after fun _ => .after fun _ => .pure (.of_form rfl)
  | discard | var | recursive | declaration => exact .pure (.of_not_jump (by decide))

/-! ## Expressions -/

/-- An expression is written as a jump only if it is nothing but its name. -/
theorem reads_exprWith (pull : Pull) (hBlank : ctx.blank = .standard) (hint : Option ValueType) (val : Expr) :
    Gives (Reads val) (exprWith pull ctx hint val) := by
  -- What is forbidden is written as a number.
  have hForbidden : ctx.blank.expr.text ∉ jumpWords := by
    rw [hBlank]
    decide
  unfold exprWith
  cases val with
  | literal _ val => exact .pure (.of_not_jump (not_jump_written val))
  | ident span name => exact reads_ident pull ctx span name
  | selfRef => exact .pure (.of_not_jump (by decide))
  | typeWord _ name => exact .pure fun _ => beq_self_eq_true name
  | member _ target name => exact reads_member pull ctx target (fun _ => rfl) _
  | index _ target args => exact reads_index ctx target args _ _
  | call _ callee _ args => exact .after fun found => reads_call pull ctx args found _
  | unary | paren | arrayInit => exact .after fun _ => .pure (.of_form rfl)
  | post _ op operand =>
    cases op with
    | nullForgiving => exact reads_exprWith pull hBlank none operand
    | inc | dec => exact .after fun _ => .pure (.of_form rfl)
  | binary | cast => exact .after fun _ => .after fun _ => .pure (.of_form rfl)
  | assign | conditional => exact .after fun _ => .after fun _ => .after fun _ => .pure (.of_form rfl)
  | asType _ operand | checked _ _ operand => exact reads_exprWith pull hBlank none operand
  | construct _ type args =>
    dsimp only
    split
    · refine .ite (reads_zero _) (.after fun _ => .after fun _ => .pure ?_)
      exact .of_form rfl
    · exact .pure (.of_not_jump (by decide))
  | newArray _ _ _ init =>
    cases init with
    | none => exact .pure (.of_not_jump hForbidden)
    | some items => exact .after fun _ => .pure (.of_form rfl)
  | defaultOf => exact reads_zero _
  | isPattern _ operand pattern => exact .after fun subject => reads_patternWith pull ctx subject pattern
  | anonymous | sizeOfType | typeOfType | stackAlloc | await | throwing | refTo | range | tuple | query =>
    exact .pure (.of_not_jump hForbidden)

theorem reads_tree (hBlank : ctx.blank = .standard) (hint : Option ValueType) (val : Expr) :
    Gives (Reads val) (tree ctx hint val) := by
  unfold tree
  cases pullDepth ctx.program with
  | zero => exact .pure (.of_not_jump (by decide))
  | succ fuel => exact reads_exprWith (exprOn fuel) hBlank hint val

end Lower

end Shaderlift
