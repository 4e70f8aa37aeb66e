import Shaderlift.Config.Reading
import Shaderlift.Proofs.Config.Json

/-!
# Configurations are read back

A configuration is read back from the JSON that it is written as (`Config.read_compact`). A set of flags is written as
the names of those that add something, and the bits left over; whatever the names cover, together they are the set
again.
-/

namespace Shaderlift

open List
open FieldReader (readRecord noneTwice noneMissing omittable)
open Text (isBlank trim joinWith hexDigits)

/-! ## Flags -/

namespace Flags

/-- Decide whether a text can stand between bars: it is not empty, and no bar or blank is in it. -/
def stands (text : List Char) : Bool := !text.isEmpty && text.all fun c => c != '|' && !isBlank c

variable {text : List Char}

theorem not_blank (hText : stands text = true) : ∀ c ∈ text, isBlank c = false := by
  intro c hMem
  have hChar := all_eq_true.mp (Bool.and_eq_true_iff.mp hText).2 c hMem
  simpa using (Bool.and_eq_true_iff.mp hChar).2

theorem trim_of_stands (hText : stands text = true) : trim text = text := by
  have hKeep : ∀ list : List Char, (∀ c ∈ list, isBlank c = false) → list.dropWhile isBlank = list := by
    intro list hList
    cases list with
    | nil => rfl
    | cons c rest => exact dropWhile_cons_of_neg (by simp [hList c])
  unfold trim
  rw [hKeep text (not_blank hText), hKeep text.reverse (by simpa using not_blank hText), reverse_reverse]

theorem trim_blank_cons (text : List Char) : trim (' ' :: text) = trim text := by
  unfold trim
  rw [dropWhile_cons_of_pos (by simp [isBlank])]

theorem trim_append_blank (hText : stands text = true) : trim (text ++ [' ']) = text := by
  have hBlank : isBlank ' ' = true := by simp [isBlank]
  have hTrim := trim_of_stands hText
  unfold trim at hTrim ⊢
  cases text with
  | nil => cases hText
  | cons c rest =>
    have hFirst : ¬ isBlank c = true := by simp [not_blank hText c mem_cons_self]
    rw [dropWhile_cons_of_neg hFirst] at hTrim
    rw [cons_append, dropWhile_cons_of_neg hFirst, ← cons_append, reverse_append]
    simpa [hBlank] using hTrim

theorem splitAt_of_notMem (hText : '|' ∉ text) : Text.splitAt '|' text = [text] := by
  induction text with
  | nil => rfl
  | cons c text ih =>
    rw [mem_cons, not_or] at hText
    simp [Text.splitAt, ih hText.2, Ne.symm hText.1]

theorem bar_not_mem (hText : stands text = true) : '|' ∉ text := by
  intro hMem
  have hChar := all_eq_true.mp (Bool.and_eq_true_iff.mp hText).2 '|' hMem
  cases (Bool.and_eq_true_iff.mp hChar).1

/-- The texts between the bars are those that were joined, up to blanks. -/
theorem trim_splitAt_joinWith {items : List String} (hSome : items ≠ []) (hItems : ∀ item ∈ items, stands item.toList = true) :
    (Text.splitAt '|' (joinWith " | " items).toList).map trim = items.map String.toList := by
  induction items with
  | nil => exact absurd rfl hSome
  | cons item rest ih =>
    obtain ⟨hItem, hOthers⟩ := forall_mem_cons.mp hItems
    cases rest with
    | nil => simp [joinWith, splitAt_of_notMem (bar_not_mem hItem), trim_of_stands hItem]
    | cons second more =>
      have hRest := ih (by simp) hOthers
      have hText : (joinWith " | " (item :: second :: more)).toList =
          (item.toList ++ [' ']) ++ '|' :: ' ' :: (joinWith " | " (second :: more)).toList := by
        simp [joinWith]
      have hBar : '|' ∉ item.toList ++ [' '] := by simp [bar_not_mem hItem]
      rw [hText, Text.splitAt_append hBar, map_cons, trim_append_blank hItem, map_cons, ← hRest]
      congr 1
      cases hSegments : Text.splitAt '|' (joinWith " | " (second :: more)).toList with
      | nil => exact absurd hSegments (Text.splitAt_ne_nil _ _)
      | cons segment segments => simp [Text.splitAt, hSegments, trim_blank_cons]

theorem readAll_eq_of_trim {table : Table} {limit : Nat} {texts others : List (List Char)}
    (hSame : texts.map trim = others) (hStand : ∀ text ∈ others, stands text = true) (set : Nat) :
    readAll table limit set texts = readAll table limit set others := by
  induction texts generalizing others set with
  | nil => rw [← hSame]; rfl
  | cons text rest ih =>
    subst hSame
    have hText := trim_of_stands (hStand (trim text) mem_cons_self)
    rw [map_cons]
    simp only [readAll, hText]
    congr 1
    funext flag
    exact ih rfl (forall_mem_cons.mp hStand).2 _

/-- Hexadecimal digits are read back, and none of them is a sign, a bar or a blank. -/
theorem readHex_hexDigits (n : Nat) :
    readHex (hexDigits n) = some n ∧
      ∀ c ∈ hexDigits n, c ≠ '+' ∧ (c != '|' && !isBlank c) = true := by
  have hDigit : ∀ digit < 16, Json.hexDigit? (Nat.digitChar digit) = some digit ∧ Nat.digitChar digit ≠ '+' ∧
      (Nat.digitChar digit != '|' && !isBlank (Nat.digitChar digit)) = true := by decide +kernel
  unfold hexDigits
  induction n using Nat.strongRecOn with
  | ind n ih =>
    rcases Nat.lt_or_ge n 16 with hSmall | hLarge
    · rw [Nat.toDigits_of_lt_base hSmall]
      simpa [readHex] using hDigit n hSmall
    · obtain ⟨hRead, hChars⟩ := ih (n / 16) (by omega)
      obtain ⟨hLast, hChar⟩ := hDigit (n % 16) (Nat.mod_lt n (by decide))
      rw [Nat.toDigits_of_base_le (by decide) hLarge]
      constructor
      · cases hDigits : Nat.toDigits 16 (n / 16) with
        | nil => exact absurd hDigits Nat.toDigits_ne_nil
        | cons c digits =>
          rw [hDigits] at hRead
          simp only [readHex, cons_append] at hRead ⊢
          rw [← cons_append, foldl_append, hRead]
          simp [hLast]
          omega
      · exact forall_mem_append.mpr ⟨hChars, forall_mem_singleton.mpr hChar⟩

def Table.isReadable (table : Table) (limit : Nat) : Bool :=
  table.all fun flag => stands flag.1.toList && readFlag table limit flag.1.toList == some flag.2

section Readable

variable {table : Table} {limit : Nat} (hTable : table.isReadable limit = true)

variable {bits set before left : Nat}

variable (table) in
theorem readFlag_writeBits (hBits : bits < limit) :
    readFlag table limit (writeBits bits).toList = some bits ∧ stands (writeBits bits).toList = true := by
  obtain ⟨hRead, hChars⟩ := readHex_hexDigits bits
  have hText : (writeBits bits).toList = '0' :: 'x' :: hexDigits bits := by simp [writeBits]
  have hPlus : readBits limit (hexDigits bits) = some bits := by
    unfold readBits
    split
    · rename_i digits hDigits
      exact absurd rfl (hChars '+' (hDigits ▸ mem_cons_self)).1
    · simp [hRead, hBits]
  have hStands : (hexDigits bits).all (fun c => c != '|' && !isBlank c) = true :=
    all_eq_true.mpr fun c hMem => (hChars c hMem).2
  have hMark : ∀ rest, stands ('0' :: 'x' :: rest) = rest.all fun c => c != '|' && !isBlank c := by
    simp [stands, isBlank]
  rw [hText, hMark]
  exact ⟨by simp [readFlag, Text.stripStart, hPlus], hStands⟩

/-- What is left of a cover when a flag within the set has been taken out of it. -/
theorem cover_without (hAll : hasAll set bits = true) (hCover : before ||| left = set) :
    before ||| bits ||| without left bits = set := by
  apply Nat.eq_of_testBit_eq
  intro i
  have hSet := congrArg (Nat.testBit · i) hCover
  have hBits := congrArg (Nat.testBit · i) (beq_iff_eq.mp hAll)
  simp only [without, Nat.testBit_or, Nat.testBit_xor, Nat.testBit_and] at hSet hBits ⊢
  rw [← hSet] at hBits ⊢
  revert hBits
  cases before.testBit i <;> cases left.testBit i <;> cases bits.testBit i <;> decide

/-- The texts that a set of flags is written as, when some of its bits are left. -/
def texts (set left : Nat) (flags : Table) : List String :=
  if (names set left flags).2 == 0 then (names set left flags).1
  else (names set left flags).1 ++ [writeBits (names set left flags).2]

theorem texts_cons (set left : Nat) (name : String) (bits : Nat) (rest : Table) :
    texts set left ((name, bits) :: rest) =
      if hasAll set bits && hasAny left bits then name :: texts set (without left bits) rest
      else texts set left rest := by
  unfold texts
  simp only [names]
  split
  · dsimp only
    split <;> rfl
  · rfl

include hTable

/-- Reading the flags of a set one after the other gives the set, if what has been read and what is left cover it. -/
theorem readAll_texts (hSet : set < limit) {flags : Table} (hFlags : ∀ flag ∈ flags, flag ∈ table)
    (hCover : before ||| left = set) :
    (∀ item ∈ texts set left flags, stands item.toList = true) ∧
      readAll table limit before ((texts set left flags).map String.toList) = some set := by
  induction flags generalizing before left with
  | nil =>
    by_cases hNone : left = 0
    · simpa [texts, names, hNone, readAll] using hCover
    · have hLeft : left < limit := Nat.lt_of_le_of_lt (hCover ▸ Nat.right_le_or) hSet
      obtain ⟨hRead, hStands⟩ := readFlag_writeBits table hLeft
      simp [texts, names, hNone, readAll, trim_of_stands hStands, hRead, hStands, hCover]
  | cons flag rest ih =>
    obtain ⟨name, bits⟩ := flag
    obtain ⟨hFirst, hRest⟩ := forall_mem_cons.mp hFlags
    obtain ⟨hStands, hRead⟩ := Bool.and_eq_true_iff.mp (all_eq_true.mp hTable _ hFirst)
    rw [texts_cons]
    split
    · rename_i hTaken
      obtain ⟨hStand, hAfter⟩ := ih hRest (cover_without (Bool.and_eq_true_iff.mp hTaken).1 hCover)
      refine ⟨forall_mem_cons.mpr ⟨hStands, hStand⟩, ?_⟩
      simpa [readAll, trim_of_stands hStands, beq_iff_eq.mp hRead] using hAfter
    · exact ih hRest hCover

theorem read_write (hSet : set < limit) : read table limit (write table set) = some set := by
  obtain ⟨hStand, hRead⟩ := readAll_texts hTable hSet (fun _ hMem => hMem) (Nat.zero_or set)
  have hWrite : write table set = joinWith " | " (texts set set table) := rfl
  rw [hWrite, read]
  generalize texts set set table = items at hStand hRead
  cases items with
  | nil => simpa [joinWith, readAll] using hRead
  | cons item rest =>
    have hText : ¬ (joinWith " | " (item :: rest)).toList.all isBlank = true := by
      have hItem := hStand item mem_cons_self
      cases hChars : item.toList with
      | nil => simp [hChars, stands] at hItem
      | cons c others =>
        rw [hChars] at hItem
        cases rest <;> simp [joinWith, hChars, not_blank hItem c mem_cons_self]
    rw [if_neg hText, readAll_eq_of_trim (trim_splitAt_joinWith (by simp) hStand) (by simpa using hStand)]
    exact hRead

end Readable

end Flags

theorem CompileOptions.read_render (options : CompileOptions) : read options.render = some options := by
  have hTable : Flags.Table.isReadable table UInt32.size = true := by decide +kernel
  rw [read, render, Flags.read_write hTable options.bits.toNat_lt]
  simp

theorem DispatchAxes.read_render (axes : DispatchAxes) : read axes.render = some axes := by
  have hTable : Flags.Table.isReadable table UInt8.size = true := by decide +kernel
  rw [read, render, Flags.read_write hTable axes.bits.toNat_lt]
  simp

/-! ## Parts of a configuration -/

namespace Json

theorem word?_ofWord (word : UInt32) : (ofWord word).word? = some word := by
  simp [ofWord, ofNat, word?, nat?, word.toNat_lt]

theorem nullable?_ofOption {α : Type} (decode : Json → Option α) (encode : α → Json)
    (hDecode : ∀ val, decode (encode val) = some val) (hNull : ∀ val, encode val ≠ .null)
    (val : Option α) : nullable? decode (ofOption encode val) = some val := by
  cases val with
  | none => rfl
  | some val =>
    unfold nullable? ofOption
    split
    · rename_i hNone
      exact absurd hNone (hNull val)
    · simp [hDecode]

theorem list?_ofList {α : Type} {decode : Json → Option α} {encode : α → Json}
    (hDecode : ∀ val, decode (encode val) = some val) (values : List α) :
    list? decode (ofList encode values) = some values := by
  show (values.map encode).mapM decode = some values
  induction values with
  | nil => rfl
  | cons val rest ih => simp [mapM_cons, hDecode, ih]

theorem groupSize?_toJson (size : GroupSize) : groupSize? size.toJson = some size := by
  simp [groupSize?, GroupSize.toJson, word?_ofWord]

end Json

namespace NameTable

theorem insertEntry_of_lt {name : String} (val : UInt32) {entries : List (String × UInt32)}
    (hLater : ∀ entry ∈ entries, entry.1 < name) : insertEntry name val entries = entries ++ [(name, val)] := by
  induction entries with
  | nil => rfl
  | cons entry rest ih =>
    obtain ⟨hEntry, hOthers⟩ := forall_mem_cons.mp hLater
    simp [insertEntry, String.lt_asymm hEntry, (String.ne_of_lt hEntry).symm, ih hOthers]

theorem nameTable?_toJson (table : NameTable) : Json.nameTable? table.toJson = some table := by
  -- Entries come in the order of their names, so each is put last.
  have hStep : ∀ (rest : List (String × UInt32)) (before : NameTable),
      (before.entries ++ rest).Pairwise (fun a b => a.1 < b.1) →
        ∃ after : NameTable, after.entries = before.entries ++ rest ∧
          (rest.map fun entry => (entry.1, Json.ofWord entry.2)).foldlM
            (fun table entry => (entry.2.word?).map (table.insert entry.1 ·)) before = some after := by
    intro rest
    induction rest with
    | nil => exact fun before _ => ⟨before, by simp, rfl⟩
    | cons entry rest ih =>
      intro before hOrder
      have hBefore : ∀ other ∈ before.entries, other.1 < entry.1 :=
        fun other hOther => (pairwise_append.mp hOrder).2.2 other hOther entry mem_cons_self
      have hInsert : (before.insert entry.1 entry.2).entries = before.entries ++ [entry] :=
        insertEntry_of_lt entry.2 hBefore
      obtain ⟨after, hAfter, hFold⟩ := ih (before.insert entry.1 entry.2) (by rw [hInsert]; simpa using hOrder)
      refine ⟨after, by rw [hAfter, hInsert]; simp, ?_⟩
      simpa [foldlM_cons, Json.word?_ofWord] using hFold
  obtain ⟨after, hAfter, hFold⟩ := hStep table.entries .empty (by simpa [empty] using table.ordered)
  have hSame : after = table := by
    cases after
    cases table
    simpa [empty] using hAfter
  rw [← hSame, ← hFold]
  rw [hSame]
  rfl

end NameTable

/-! ## Records -/

open Json

theorem InputDescription.ofJson?_toJson (description : InputDescription) :
    ofJson? description.toJson = some description := by
  have hFilter : choice? Filter.all Filter.name (.str description.filter.name) = some description.filter := by
    cases description.filter <;> rfl
  have hLevel := nullable?_ofOption _ _ word?_ofWord (by simp [ofWord, ofNat]) description.levelOfDetail
  simp [ofJson?, toJson, readRecord, noneTwice, noneMissing, readers,
    FieldReader.readMembers, FieldReader.needed, omittable, word?_ofWord, hFilter, hLevel]

theorem OutputBuffer.ofJson?_toJson (output : OutputBuffer) : ofJson? output.toJson = some output := by
  obtain ⟨precision, depth⟩ := output
  cases precision <;> cases depth <;> rfl

theorem EffectInfo.ofJson?_toJson (effect : EffectInfo) : ofJson? effect.toJson = some effect := by
  have hText := nullable?_ofOption str? .str (fun _ => rfl) (by simp)
  simp [ofJson?, toJson, readRecord, noneTwice, noneMissing, readers,
    FieldReader.readMembers, omittable, hText]

namespace Config

theorem ofJson?_toJson (cfg : Config) : ofJson? cfg.toJson = some cfg := by
  have hSize := nullable?_ofOption _ _ groupSize?_toJson (by simp [GroupSize.toJson]) cfg.threadGroupSize
  have hAxes : flags? DispatchAxes.read (.str cfg.dispatchAxes.render) = some cfg.dispatchAxes :=
    cfg.dispatchAxes.read_render
  have hWord := nullable?_ofOption _ _ word?_ofWord (by simp [ofWord, ofNat])
  have hProfile := nullable?_ofOption (choice? Profile.all Profile.name) (fun profile => .str profile.name)
    (fun profile => by cases profile <;> rfl) (by simp) cfg.profile
  have hOptions := nullable?_ofOption (flags? CompileOptions.read) (fun options => .str options.render)
    CompileOptions.read_render (by simp) cfg.compileOptions
  simp [ofJson?, toJson, readRecord, noneTwice, noneMissing, readers,
    FieldReader.readMembers, omittable, bool?, hSize, hAxes, hWord, hProfile, hOptions,
    list?_ofList word?_ofWord, list?_ofList InputDescription.ofJson?_toJson, NameTable.nameTable?_toJson,
    OutputBuffer.ofJson?_toJson, EffectInfo.ofJson?_toJson]

theorem isPlain_toJson (cfg : Config) : cfg.toJson.isPlain = true := by
  have hWord : ∀ word, (ofWord word).isPlain = true := by simp [ofWord, ofNat, isPlain]
  have hOption : ∀ {α : Type} (encode : α → Json), (∀ val, (encode val).isPlain = true) →
      ∀ val, (ofOption encode val).isPlain = true := by
    intro α encode hEncode val
    cases val with
    | none => simp [ofOption, isPlain]
    | some val => exact hEncode val
  have hList : ∀ {α : Type} (encode : α → Json), (∀ val, (encode val).isPlain = true) →
      ∀ values, (ofList encode values).isPlain = true := by
    intro α encode hEncode values
    unfold ofList isPlain
    induction values with
    | nil => simp [plainItems]
    | cons val rest ih => simp [plainItems, hEncode, ih]
  have hTable : ∀ entries : List (String × UInt32),
      plainMembers (entries.map fun entry => (entry.1, ofWord entry.2)) = true := by
    intro entries
    induction entries with
    | nil => simp [plainMembers]
    | cons entry rest ih => simp [plainMembers, hWord, ih]
  have hStr : ∀ text, (Json.str text).isPlain = true := by simp [isPlain]
  have hSize : ∀ size : GroupSize, size.toJson.isPlain = true := by simp [GroupSize.toJson, isPlain, plainItems, hWord]
  have hDescription : ∀ description : InputDescription, description.toJson.isPlain = true := by
    simp [InputDescription.toJson, isPlain, plainMembers, hWord, hOption _ hWord]
  simp [toJson, isPlain, plainMembers, hOption _ hSize, hOption _ hWord, hList _ hWord, hList _ hDescription,
    NameTable.toJson, hTable, OutputBuffer.toJson, EffectInfo.toJson, hOption _ hStr,
    hOption (fun profile : Profile => .str profile.name) fun _ => hStr _,
    hOption (fun options : CompileOptions => .str options.render) fun _ => hStr _]

theorem read_compact (cfg : Config) : read cfg.toJson.compact = some cfg := by
  rw [read, Json.read_compact cfg.isPlain_toJson]
  exact ofJson?_toJson cfg

end Config

end Shaderlift
