import Highlight.Proofs.QuotedText
import Highlight.Toml.Document

/-!
# How TOML values are written

Relations between strings, keys and values on the one side and the characters that write them on the
other. They fix no one way of writing: escapes, quotes of keys, filler and trailing commas are free
wherever the language leaves them free. Each reader undoes the relation of what it reads, whatever
follows; the results are `readKey_append` and `readValue_append`. Every value can be written, and
without a carriage return (`exists_writesDatum`).
-/

namespace Highlight.Toml

/-! ## Strings -/

/-- The escapes of a single letter and the characters that they stand for. -/
def escapeMarks : List (Char × Char) :=
  [('b', '\x08'), ('t', '\t'), ('n', '\n'), ('f', '\x0c'), ('r', '\r'), ('"', '"'), ('\\', '\\')]

/-- A character that may stand for itself between double quotes. -/
def isPlainChar (c : Char) : Bool :=
  isTextChar c && c != '"' && c != '\\'

/-- A character that may stand between single quotes. -/
def isLiteralChar (c : Char) : Bool :=
  isTextChar c && c != '\''

/-- The ways to write a character between double quotes. -/
inductive WritesChar : Char → List Char → Prop
  | plain {c : Char} (hplain : isPlainChar c = true) : WritesChar c [c]
  | named {mark c : Char} (hmark : (mark, c) ∈ escapeMarks) : WritesChar c ['\\', mark]
  | codePoint {mark c : Char} {digits : List Char}
      (hmark : (mark, digits.length) ∈ [('u', 4), ('U', 8)])
      (hdigits : ∀ digit ∈ digits, isDigitOf 16 digit = true)
      (hpoint : numberOf 16 digits = c.toNat) : WritesChar c ('\\' :: mark :: digits)

/-- The ways to write a text between double quotes. -/
inductive WritesText : List Char → List Char → Prop
  | nil : WritesText [] []
  | cons {c : Char} {text front back : List Char} (hfirst : WritesChar c front)
      (hrest : WritesText text back) : WritesText (c :: text) (front ++ back)

variable {c : Char} {text chars front back rest after : List Char}

/-- All characters of a text are plain but the quote and the backslash. -/
theorem isPlainChar_iff :
    isPlainChar c = true ↔ isTextChar c = true ∧ c ≠ '"' ∧ c ≠ '\\' := by
  simp [isPlainChar, and_assoc]

/-- The digits of a code point are read, whatever follows. -/
theorem codePoint?_append {digits : List Char}
    (hdigits : ∀ digit ∈ digits, isDigitOf 16 digit = true)
    (hpoint : numberOf 16 digits = c.toNat) (rest : List Char) :
    codePoint? digits.length (digits ++ rest) = some c := by
  have hvalid : (numberOf 16 digits).isValidChar := hpoint ▸ c.valid
  rw [codePoint?, List.take_left, if_pos ⟨rfl, List.all_eq_true.mpr hdigits, hvalid⟩, hpoint,
    Char.ofNat_toNat]

/-- An escape and what follows it are read one after the other. -/
theorem readBasic_backslash {count : Nat} (hescape : escape? rest = some (c, count))
    (hrest : readBasic (rest.drop count) = some (text, after)) :
    readBasic ('\\' :: rest) = some (c :: text, after) := by
  rw [readBasic, if_neg (by decide), if_pos rfl, hescape]
  simp only [Option.bind_eq_bind, Option.bind_some, hrest]
  rfl

/-- A character is read however it is written. -/
theorem readBasic_append_of_writesChar (h : WritesChar c front)
    (hrest : readBasic rest = some (text, after)) :
    readBasic (front ++ rest) = some (c :: text, after) := by
  cases h with
  | plain hplain =>
      obtain ⟨htext, hquote, hbackslash⟩ := isPlainChar_iff.mp hplain
      rw [List.singleton_append, readBasic, if_neg hquote, if_neg hbackslash, if_pos htext, hrest]
      rfl
  | named hmark =>
      have hescape : ∀ entry ∈ escapeMarks, escape? (entry.1 :: rest) = some (entry.2, 1) := by
        simp [escapeMarks, escape?]
      exact readBasic_backslash (hescape _ hmark) hrest
  | @codePoint mark _ digits hmark hdigits hpoint =>
      have hread := codePoint?_append hdigits hpoint rest
      have hescape : escape? (mark :: (digits ++ rest)) = some (c, digits.length + 1) := by
        simp only [List.mem_cons, List.not_mem_nil, or_false, Prod.mk.injEq] at hmark
        rcases hmark with ⟨rfl, hlength⟩ | ⟨rfl, hlength⟩
        all_goals
          rw [hlength] at hread ⊢
          rw [escape?, hread]
          rfl
      have hdrop : readBasic ((mark :: (digits ++ rest)).drop (digits.length + 1)) =
          some (text, after) := by
        rwa [List.drop_succ_cons, List.drop_left]
      exact readBasic_backslash hescape hdrop

/-- A text is read up to its closing quote, whatever follows. -/
theorem readBasic_append (h : WritesText text chars) (rest : List Char) :
    readBasic (chars ++ '"' :: rest) = some (text, rest) := by
  induction h with
  | nil => rw [List.nil_append, readBasic, if_pos rfl]
  | cons hfirst _ ih =>
      rw [List.append_assoc]
      exact readBasic_append_of_writesChar hfirst ih

/-- Characters that need no escapes may all stand for themselves. -/
theorem writesText_self (h : ∀ c ∈ text, isPlainChar c = true) : WritesText text text := by
  induction text with
  | nil => exact .nil
  | cons c text ih =>
      rw [List.forall_mem_cons] at h
      exact .cons (.plain h.1) (ih h.2)

/-- No way to write a character begins with a double quote. -/
theorem WritesChar.exists_cons (h : WritesChar c front) :
    ∃ first later, front = first :: later ∧ first ≠ '"' := by
  cases h with
  | plain hplain => exact ⟨_, _, rfl, (isPlainChar_iff.mp hplain).2.1⟩
  | named => exact ⟨_, _, rfl, by decide⟩
  | codePoint => exact ⟨_, _, rfl, by decide⟩

/-- A double quote opens a string on one line unless two more follow. -/
theorem readString?_of_ne {first : Char} (h : first ≠ '"') (later : List Char) :
    readString? ('"' :: first :: later) = readBasic (first :: later) := by
  unfold readString?
  split
  · rename_i heq
    simp only [List.cons.injEq, true_and] at heq
    exact absurd heq.1 h
  all_goals
    rename_i heq
    simp_all

/-- A string is read up to its closing quote. Behind an empty one no third quote may follow. -/
theorem readString?_append (h : WritesText text chars) (hrest : rest.head? ≠ some '"') :
    readString? ('"' :: (chars ++ '"' :: rest)) = some (text, rest) := by
  have hread := readBasic_append h rest
  cases h with
  | nil =>
      -- The two quotes of an empty string would open a string of several lines before a third.
      cases rest with
      | nil => exact hread
      | cons next rest =>
          have hnext : next ≠ '"' := fun heq => hrest (congrArg some heq)
          simpa [readString?, hnext] using hread
  | cons hchar _ =>
      obtain ⟨first, later, rfl, hfirst⟩ := hchar.exists_cons
      rw [List.append_assoc, List.cons_append] at hread ⊢
      rw [readString?_of_ne hfirst, hread]

/-! ## Keys -/

/-- The ways to write a key of one part: as a bare word or in quotes of either kind. -/
inductive WritesKey (key : String) : List Char → Prop
  | bare (hne : key.toList ≠ []) (hbare : ∀ c ∈ key.toList, isBareKeyChar c = true) :
      WritesKey key key.toList
  | basic {chars : List Char} (htext : WritesText key.toList chars) :
      WritesKey key ('"' :: (chars ++ ['"']))
  | literal (hliteral : ∀ c ∈ key.toList, isLiteralChar c = true) :
      WritesKey key ('\'' :: (key.toList ++ ['\'']))

/-- A character with which a key can begin. -/
def isKeyStart (c : Char) : Bool :=
  isBareKeyChar c || c == '"' || c == '\''

variable {key : String} {next : Char} {blanks moreBlanks : List Char}

/-- A key begins with a character that can begin one. -/
theorem WritesKey.exists_cons (h : WritesKey key chars) :
    ∃ first later, chars = first :: later ∧ isKeyStart first = true := by
  cases h with
  | bare hne hbare =>
      obtain ⟨first, later, heq⟩ := List.exists_cons_of_ne_nil hne
      rw [heq] at hbare ⊢
      exact ⟨first, later, rfl, by simp [isKeyStart, hbare first]⟩
  | basic => exact ⟨_, _, rfl, rfl⟩
  | literal => exact ⟨_, _, rfl, rfl⟩

/-- Blanks are skipped up to the first other character. -/
theorem skipBlanks_append (hblanks : ∀ c ∈ blanks, isBlank c = true) (rest : List Char) :
    skipBlanks (blanks ++ rest) = skipBlanks rest := by
  rw [skipBlanks, List.dropWhile_append_of_pos hblanks, skipBlanks]

/-- Nothing is skipped where there is no blank. -/
theorem skipBlanks_cons (hnext : isBlank next = false) (rest : List Char) :
    skipBlanks (next :: rest) = next :: rest := by
  rw [skipBlanks, List.dropWhile_cons_of_neg (by simp [hnext])]

/-- A text between single quotes is read as it stands. -/
theorem readLiteral_append (h : ∀ c ∈ text, isLiteralChar c = true) (rest : List Char) :
    readLiteral (text ++ '\'' :: rest) = some (text, rest) := by
  induction text with
  | nil => rfl
  | cons c text ih =>
      rw [List.forall_mem_cons] at h
      obtain ⟨htext, hmark⟩ : isTextChar c = true ∧ c ≠ '\'' := by
        simpa [isLiteralChar] using h.1
      rw [List.cons_append, readLiteral, if_neg hmark, if_pos htext, ih h.2]
      rfl

/-- A key is read up to a character that cannot belong to a bare word. -/
theorem readKeyPart?_append (h : WritesKey key chars) (hnext : isBareKeyChar next = false)
    (rest : List Char) :
    readKeyPart? (chars ++ next :: rest) = some (key.toList, next :: rest) := by
  cases h with
  | bare hne hbare =>
      have htake : (key.toList ++ next :: rest).takeWhile isBareKeyChar = key.toList := by
        rw [List.takeWhile_append_of_pos hbare, List.takeWhile_cons_of_neg (by simp [hnext]),
          List.append_nil]
      have hdrop : (key.toList ++ next :: rest).dropWhile isBareKeyChar = next :: rest := by
        rw [List.dropWhile_append_of_pos hbare, List.dropWhile_cons_of_neg (by simp [hnext])]
      obtain ⟨first, later, heq⟩ := List.exists_cons_of_ne_nil hne
      rw [heq] at hbare htake hdrop ⊢
      have hfirst := hbare first (.head _)
      have hquote : first ≠ '"' := by rintro rfl; cases hfirst
      have hmark : first ≠ '\'' := by rintro rfl; cases hfirst
      rw [List.cons_append] at htake hdrop ⊢
      simp [readKeyPart?, hquote, hmark, htake, hdrop]
  | basic htext =>
      rw [List.cons_append, List.append_assoc]
      exact readBasic_append htext _
  | literal hliteral =>
      rw [List.cons_append, List.append_assoc]
      exact readLiteral_append hliteral _

/-- Blanks are spaces and tabs. -/
theorem isBlank_iff : isBlank c = true ↔ c = ' ' ∨ c = '\t' := by
  simp [isBlank]

/-- No key begins with a blank. -/
theorem isBlank_of_isKeyStart (h : isKeyStart c = true) : isBlank c = false := by
  cases hblank : isBlank c with
  | false => rfl
  | true => rcases isBlank_iff.mp hblank with rfl | rfl <;> cases h

/-- A blank ends a key without quotes. -/
theorem isBareKeyChar_of_isBlank (h : isBlank c = true) : isBareKeyChar c = false := by
  rcases isBlank_iff.mp h with rfl | rfl <;> rfl

/-- A key is read with the blanks around it. -/
theorem readKey_append (h : WritesKey key chars) (hblanks : ∀ c ∈ blanks, isBlank c = true)
    (hmore : ∀ c ∈ moreBlanks, isBlank c = true) (hnext : next = '=' ∨ next = ']')
    (rest : List Char) :
    readKey (blanks ++ (chars ++ (moreBlanks ++ next :: rest))) =
      some (⟨[], key⟩, next :: rest) := by
  have hbare : isBareKeyChar next = false := by rcases hnext with rfl | rfl <;> rfl
  have hblank : isBlank next = false := by rcases hnext with rfl | rfl <;> rfl
  have hdot : next ≠ '.' := by rcases hnext with rfl | rfl <;> decide
  have hskip : skipBlanks (blanks ++ (chars ++ (moreBlanks ++ next :: rest))) =
      chars ++ (moreBlanks ++ next :: rest) := by
    obtain ⟨first, later, rfl, hfirst⟩ := h.exists_cons
    rw [skipBlanks_append hblanks, List.cons_append,
      skipBlanks_cons (isBlank_of_isKeyStart hfirst)]
  have hpart : readKeyPart? (chars ++ (moreBlanks ++ next :: rest)) =
      some (key.toList, moreBlanks ++ next :: rest) := by
    cases moreBlanks with
    | nil => exact readKeyPart?_append h hbare rest
    | cons blank later =>
        exact readKeyPart?_append h (isBareKeyChar_of_isBlank (hmore blank (.head _))) _
  have hafter : skipBlanks (moreBlanks ++ next :: rest) = next :: rest := by
    rw [skipBlanks_append hmore, skipBlanks_cons hblank]
  have hparts (count : Nat) : readKeyParts (count + 1)
      (blanks ++ (chars ++ (moreBlanks ++ next :: rest))) = some ([key], next :: rest) := by
    simp [readKeyParts, hskip, hpart, hafter, hdot]
  have hmax : maxKeyParts = 78 + 1 := rfl
  rw [readKey, hmax, hparts]
  rfl

/-! ## Values -/

/-- Blanks, line breaks and comments between the items of an array. -/
inductive Filler : List Char → Prop
  | nil : Filler []
  | blank {c : Char} {rest : List Char} (hblank : isBlankOrBreak c = true) (hrest : Filler rest) :
      Filler (c :: rest)
  | comment {text rest : List Char} (htext : ∀ c ∈ text, isTextChar c = true)
      (hrest : Filler rest) : Filler ('#' :: (text ++ '\n' :: rest))

/-- The ways to write a string in double quotes on one line. -/
inductive WritesString (text : String) : List Char → Prop
  | basic {chars : List Char} (htext : WritesText text.toList chars) :
      WritesString text ('"' :: (chars ++ ['"']))

/-- The ways to write the items of an array of strings with the bracket behind them. The last item
may have a comma too. -/
inductive WritesItems : List String → List Char → Prop
  | nil {filler : List Char} (hfiller : Filler filler) : WritesItems [] (filler ++ [']'])
  | last {item : String} {before chars after : List Char} (hbefore : Filler before)
      (hitem : WritesString item chars) (hafter : Filler after) :
      WritesItems [item] (before ++ (chars ++ (after ++ [']'])))
  | cons {item : String} {items : List String} {before chars after rest : List Char}
      (hbefore : Filler before) (hitem : WritesString item chars) (hafter : Filler after)
      (hrest : WritesItems items rest) :
      WritesItems (item :: items) (before ++ (chars ++ (after ++ ',' :: rest)))

/-- A value of one of the types that matter here. -/
inductive Datum where
  | text (value : String)
  | truth (value : Bool)
  | texts (items : List String)
  deriving DecidableEq, Repr

/-- The value that is read. -/
def Datum.toValue : Datum → Value
  | .text value => .string value
  | .truth value => .boolean value
  | .texts items => .array (items.map .string)

/-- The ways to write a value. -/
inductive WritesDatum : Datum → List Char → Prop
  | text {value : String} {chars : List Char} (htext : WritesString value chars) :
      WritesDatum (.text value) chars
  | yes : WritesDatum (.truth true) ['t', 'r', 'u', 'e']
  | no : WritesDatum (.truth false) ['f', 'a', 'l', 's', 'e']
  | texts {items : List String} {chars : List Char} (hitems : WritesItems items chars) :
      WritesDatum (.texts items) ('[' :: chars)

variable {filler : List Char} {items : List String} {datum : Datum}

/-- A comment is skipped up to the end of its line. -/
theorem skipFiller_comment (h : ∀ c ∈ text, isTextChar c = true) (rest : List Char) :
    skipFiller true (text ++ '\n' :: rest) = skipFiller false rest := by
  induction text with
  | nil => rfl
  | cons c text ih =>
      rw [List.forall_mem_cons] at h
      have hbreak : c ≠ '\n' := by rintro rfl; cases h.1
      rw [List.cons_append, skipFiller, if_neg hbreak, if_pos h.1, ih h.2]

/-- Filler is skipped. -/
theorem skipFiller_append (h : Filler filler) (rest : List Char) :
    skipFiller false (filler ++ rest) = skipFiller false rest := by
  induction h with
  | nil => rfl
  | blank hblank _ ih => rw [List.cons_append, skipFiller, if_pos hblank, ih]
  | comment htext _ ih =>
      rw [List.cons_append, List.append_assoc, skipFiller, if_neg (by decide), if_pos rfl,
        List.cons_append, skipFiller_comment htext, ih]

/-- What is not filler is left. -/
theorem skipFiller_append_cons (h : Filler filler) (hblank : isBlankOrBreak next = false)
    (hcomment : next ≠ '#') (rest : List Char) :
    skipFiller false (filler ++ next :: rest) = next :: rest := by
  rw [skipFiller_append h, skipFiller, if_neg (by simp [hblank]), if_neg hcomment]

/-- Filler does not begin as a string does. -/
theorem Filler.head?_append_ne (h : Filler filler) (hrest : rest.head? ≠ some '"') :
    (filler ++ rest).head? ≠ some '"' := by
  cases h with
  | nil => exact hrest
  | blank hblank =>
      intro heq
      cases Option.some.inj heq
      cases hblank
  | comment => exact fun heq => absurd (Option.some.inj heq) (by decide)

/-- A string begins with a quote. -/
theorem WritesString.exists_cons {value : String} (h : WritesString value chars) :
    ∃ later, chars = '"' :: later := by
  cases h with
  | basic => exact ⟨_, rfl⟩

/-- No value begins with a blank. -/
theorem WritesDatum.exists_cons (h : WritesDatum datum chars) :
    ∃ first later, chars = first :: later ∧ isBlank first = false := by
  cases h with
  | text htext =>
      obtain ⟨later, rfl⟩ := htext.exists_cons
      exact ⟨_, _, rfl, rfl⟩
  | yes => exact ⟨_, _, rfl, rfl⟩
  | no => exact ⟨_, _, rfl, rfl⟩
  | texts => exact ⟨_, _, rfl, rfl⟩

/-- A string is read as a value. Behind the empty one there must not be a third quote, which would
open a text of several lines. -/
theorem readValue_append_of_writesString {value : String} (h : WritesString value chars)
    (hrest : rest.head? ≠ some '"') (depth : Nat) :
    readValue depth (chars ++ rest) = some (.string value, rest) := by
  cases h with
  | @basic chars htext =>
      have hread := readString?_append htext hrest
      rw [List.cons_append, List.append_assoc, List.singleton_append]
      cases depth <;> simp [readValue, readScalar, hread]

/-- An item is read with the filler around it, and the character behind decides how to go on. -/
theorem readItems_item {item : String} {before : List Char} (hbefore : Filler before)
    (hitem : WritesString item chars) (hafter : Filler after) (hnext : next = ',' ∨ next = ']')
    (depth count : Nat) (rest : List Char) :
    readItems (readValue depth) (count + 1) (before ++ (chars ++ (after ++ next :: rest))) =
      if next = ',' then (readItems (readValue depth) count rest).map fun (items, left) =>
        (.string item :: items, left)
      else some ([.string item], rest) := by
  have hquote : (after ++ next :: rest).head? ≠ some '"' :=
    hafter.head?_append_ne (by rcases hnext with rfl | rfl <;> simp)
  have hread := readValue_append_of_writesString hitem hquote depth
  have hskip : skipFiller false (after ++ next :: rest) = next :: rest := by
    rcases hnext with rfl | rfl <;> exact skipFiller_append_cons hafter rfl (by decide) rest
  -- The quote of the item tells it from the bracket at the end of the array.
  obtain ⟨later, rfl⟩ := hitem.exists_cons
  rw [List.cons_append] at hread ⊢
  rw [readItems, skipFiller_append_cons hbefore rfl (by decide)]
  show Option.bind (readValue depth ('"' :: (later ++ (after ++ next :: rest)))) _ = _
  rw [hread, Option.bind_some]
  dsimp only
  rw [hskip]
  rcases hnext with rfl | rfl
  · rw [if_pos rfl]
    show Option.bind (readItems (readValue depth) count rest) _ = _
    cases readItems (readValue depth) count rest <;> rfl
  · rfl

/-- There are fewer items than characters that write them. -/
theorem WritesItems.length_lt (h : WritesItems items chars) : items.length < chars.length := by
  induction h with
  | nil => simp
  | last _ hitem =>
      obtain ⟨later, rfl⟩ := hitem.exists_cons
      simp only [List.length_append, List.length_cons, List.length_nil]
      omega
  | cons _ _ _ _ ih =>
      simp only [List.length_append, List.length_cons]
      omega

/-- The items of an array are read up to its bracket, if one more than there are may be read. -/
theorem readItems_append (h : WritesItems items chars) (depth : Nat) {count : Nat}
    (hcount : items.length < count) (rest : List Char) :
    readItems (readValue depth) count (chars ++ rest) = some (items.map .string, rest) := by
  induction h generalizing count with
  | nil hfiller =>
      obtain ⟨count, rfl⟩ := Nat.exists_eq_add_one.mpr hcount
      rw [List.append_assoc, List.singleton_append, readItems,
        skipFiller_append_cons hfiller rfl (by decide)]
      rfl
  | last hbefore hitem hafter =>
      obtain ⟨count, rfl⟩ := Nat.exists_eq_add_one.mpr (Nat.zero_lt_of_lt hcount)
      simp only [List.append_assoc, List.singleton_append]
      rw [readItems_item hbefore hitem hafter (.inr rfl)]
      rfl
  | cons hbefore hitem hafter _ ih =>
      obtain ⟨count, rfl⟩ := Nat.exists_eq_add_one.mpr (Nat.zero_lt_of_lt hcount)
      simp only [List.append_assoc, List.cons_append]
      rw [readItems_item hbefore hitem hafter (.inl rfl), if_pos rfl,
        ih (Nat.lt_of_succ_lt_succ hcount)]
      rfl

/-- A value is read, whatever follows but a third quote behind an empty string. -/
theorem readValue_append (h : WritesDatum datum chars) (hrest : rest.head? ≠ some '"')
    (depth : Nat) : readValue (depth + 1) (chars ++ rest) = some (datum.toValue, rest) := by
  cases h with
  | text htext => exact readValue_append_of_writesString htext hrest (depth + 1)
  | yes => rfl
  | no => rfl
  | @texts items chars hitems =>
      have hcount : items.length < (chars ++ rest).length := by
        rw [List.length_append]
        exact Nat.lt_add_right _ hitems.length_lt
      rw [List.cons_append, readValue, readItems_append hitems depth hcount rest]
      rfl

/-! ## Every value can be written -/

/-- Zeros in front do not change a number. -/
theorem numberOf_zeros_append (base count : Nat) (digits : List Char) :
    numberOf base (List.replicate count '0' ++ digits) = numberOf base digits := by
  have hzeros : numberOf base (List.replicate count '0') = 0 := by
    induction count with
    | zero => rfl
    | succ count ih =>
        rw [List.replicate_succ', numberOf_append_singleton, ih]
        rfl
  rw [numberOf, List.foldl_append]
  exact congrArg (fun number => digits.foldl _ number) hzeros

/-- Every character can be written, as an escape if it must not stand for itself. -/
theorem exists_writesChar (c : Char) : ∃ chars, WritesChar c chars ∧ '\r' ∉ chars := by
  by_cases hplain : isPlainChar c = true
  · refine ⟨[c], .plain hplain, fun hreturn => ?_⟩
    cases List.mem_singleton.mp hreturn
    cases hplain
  · have hbase : 1 < 16 ∧ 16 ≤ 16 := by decide
    have hlength : (Nat.toDigits 16 c.toNat).length ≤ 8 :=
      Nat.le_trans (length_toDigits_toNat_le c) (by decide)
    let zeros := List.replicate (8 - (Nat.toDigits 16 c.toNat).length) '0'
    have hdigits : ∀ digit ∈ zeros ++ Nat.toDigits 16 c.toNat, isDigitOf 16 digit = true := by
      intro digit hdigit
      rcases List.mem_append.mp hdigit with hzero | hdigit
      · rw [List.eq_of_mem_replicate hzero]
        rfl
      · exact isDigitOf_of_mem_toDigits hbase hdigit
    refine ⟨'\\' :: 'U' :: (zeros ++ Nat.toDigits 16 c.toNat), .codePoint ?_ hdigits ?_, ?_⟩
    · simp [zeros, hlength]
    · rw [numberOf_zeros_append, numberOf_toDigits hbase]
    · have hreturn : '\r' ∉ zeros ++ Nat.toDigits 16 c.toNat := fun hreturn => by
        cases hdigits _ hreturn
      simp [hreturn]

/-- Every text can be written. -/
theorem exists_writesText (text : List Char) : ∃ chars, WritesText text chars ∧ '\r' ∉ chars := by
  induction text with
  | nil => exact ⟨[], .nil, List.not_mem_nil⟩
  | cons c text ih =>
      obtain ⟨front, hfirst, hfront⟩ := exists_writesChar c
      obtain ⟨back, hrest, hback⟩ := ih
      exact ⟨front ++ back, .cons hfirst hrest, by simp [hfront, hback]⟩

/-- Every string can be written. -/
theorem exists_writesString (value : String) :
    ∃ chars, WritesString value chars ∧ '\r' ∉ chars := by
  obtain ⟨chars, htext, hchars⟩ := exists_writesText value.toList
  exact ⟨_, .basic htext, by simp [hchars]⟩

/-- Every key can be written. -/
theorem exists_writesKey (key : String) : ∃ chars, WritesKey key chars ∧ '\r' ∉ chars := by
  obtain ⟨chars, htext, hchars⟩ := exists_writesText key.toList
  exact ⟨_, .basic htext, by simp [hchars]⟩

/-- All strings can be written as the items of an array. -/
theorem exists_writesItems (items : List String) :
    ∃ chars, WritesItems items chars ∧ '\r' ∉ chars := by
  induction items with
  | nil => exact ⟨_, .nil .nil, by decide⟩
  | cons item items ih =>
      obtain ⟨front, hitem, hfront⟩ := exists_writesString item
      obtain ⟨back, hrest, hback⟩ := ih
      exact ⟨_, .cons .nil hitem .nil hrest, by simp [hfront, hback]⟩

/-- Every value can be written without a carriage return. -/
theorem exists_writesDatum (datum : Datum) : ∃ chars, WritesDatum datum chars ∧ '\r' ∉ chars := by
  cases datum with
  | text value =>
      obtain ⟨chars, htext, hchars⟩ := exists_writesString value
      exact ⟨chars, .text htext, hchars⟩
  | truth value =>
      cases value with
      | true => exact ⟨_, .yes, by decide⟩
      | false => exact ⟨_, .no, by decide⟩
  | texts items =>
      obtain ⟨chars, hitems, hchars⟩ := exists_writesItems items
      exact ⟨_, .texts hitems, by simp [hchars]⟩

end Highlight.Toml
