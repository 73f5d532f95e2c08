import Highlight.Text.Quoted
import Highlight.Toml.Digits

/-!
# Reading quoted text back

`Quoted.read?` undoes the quoting of a text. It takes the escapes of a string literal for what they
stand for and also returns what follows the closing quote, so that `read?_encode` speaks about
quoted texts among others. No line break is left between the quotes (`not_mem_encode`).
-/

namespace Highlight

namespace Toml

/-- A digit has the value that it was written for. -/
theorem digitValue?_digitChar : ∀ digit < 16, digitValue? (Nat.digitChar digit) = some digit := by
  decide

/-- One more digit multiplies a number by the base and is added to it. -/
theorem numberOf_append_singleton (base : Nat) (digits : List Char) (c : Char) :
    numberOf base (digits ++ [c]) = base * numberOf base digits + (digitValue? c).getD 0 := by
  simp [numberOf]

variable {base : Nat}

/-- The digits of a number write it. -/
theorem numberOf_toDigits (hbase : 1 < base ∧ base ≤ 16) (number : Nat) :
    numberOf base (Nat.toDigits base number) = number := by
  rw [Nat.toDigits_eq_if hbase.1]
  split
  · rename_i hlt
    rw [← List.nil_append [_], numberOf_append_singleton,
      digitValue?_digitChar number (Nat.lt_of_lt_of_le hlt hbase.2)]
    exact Nat.zero_add number
  · -- All digits but the last are those of the quotient, on which the induction goes.
    have hmod : number % base < 16 := Nat.lt_of_lt_of_le (Nat.mod_lt number (by omega)) hbase.2
    have hdiv : number / base < number := Nat.div_lt_self (by omega) hbase.1
    rw [numberOf_append_singleton, numberOf_toDigits hbase (number / base),
      digitValue?_digitChar _ hmod]
    exact Nat.div_add_mod number base
termination_by number

/-- A number is written in digits of its base. -/
theorem isDigitOf_of_mem_toDigits (hbase : 1 < base ∧ base ≤ 16) {number : Nat} {c : Char}
    (h : c ∈ Nat.toDigits base number) : isDigitOf base c = true := by
  have hdigit (digit : Nat) (hlt : digit < base) : isDigitOf base (Nat.digitChar digit) = true := by
    rw [isDigitOf, digitValue?_digitChar digit (Nat.lt_of_lt_of_le hlt hbase.2)]
    exact decide_eq_true hlt
  rw [Nat.toDigits_eq_if hbase.1] at h
  split at h
  · rename_i hlt
    exact List.mem_singleton.mp h ▸ hdigit number hlt
  · have hdiv : number / base < number := Nat.div_lt_self (by omega) hbase.1
    rcases List.mem_append.mp h with hfront | hlast
    · exact isDigitOf_of_mem_toDigits hbase hfront
    · exact List.mem_singleton.mp hlast ▸ hdigit _ (Nat.mod_lt number (by omega))
termination_by number

/-- A code point has at most six hexadecimal digits. -/
theorem length_toDigits_toNat_le (c : Char) : (Nat.toDigits 16 c.toNat).length ≤ 6 := by
  rw [Nat.length_toDigits_le_iff (by decide) (by decide)]
  rcases c.valid with hlow | ⟨-, hhigh⟩
  · exact Nat.lt_trans hlow (by decide)
  · exact Nat.lt_trans hhigh (by decide)

/-- A number is written in nothing but digits. -/
theorem not_mem_toDigits (hbase : 1 < base ∧ base ≤ 16) {c : Char} (h : isDigitOf base c = false)
    (number : Nat) : c ∉ Nat.toDigits base number :=
  fun hmem => Bool.false_ne_true (h.symm.trans (isDigitOf_of_mem_toDigits hbase hmem))

/-- Where something else follows, the digits of a number are read up to their end. -/
theorem takeWhile_toDigits_append (hbase : 1 < base ∧ base ≤ 16) {next : Char}
    (hnext : isDigitOf base next = false) (number : Nat) (rest : List Char) :
    (Nat.toDigits base number ++ next :: rest).takeWhile (isDigitOf base) =
      Nat.toDigits base number := by
  rw [List.takeWhile_append_of_pos fun c => isDigitOf_of_mem_toDigits hbase,
    List.takeWhile_cons_of_neg (by simp [hnext]), List.append_nil]

end Toml

namespace Text.Quoted

/-! ## Reading -/

/-- The greatest number of digits that an escape of a code point may have. -/
def maxDigits : Nat := 6

/-- The character whose code point is written in hexadecimal digits up to a closing brace, and the
number of characters that this takes. -/
def codePoint? (chars : List Char) : Option (Char × Nat) :=
  let digits := chars.takeWhile (Toml.isDigitOf 16)
  let point := Toml.numberOf 16 digits
  if digits ≠ [] ∧ digits.length ≤ maxDigits ∧ chars[digits.length]? = some '\x7d' ∧
      point.isValidChar then
    some (Char.ofNat point, digits.length + 1)
  else
    none

/-- The character that an escape stands for, and the number of characters that the escape takes
after its backslash. -/
def escape? : List Char → Option (Char × Nat)
  | '0' :: _ => some ('\x00', 1)
  | 't' :: _ => some ('\t', 1)
  | 'n' :: _ => some ('\n', 1)
  | 'r' :: _ => some ('\r', 1)
  | '"' :: _ => some ('"', 1)
  | '\'' :: _ => some ('\'', 1)
  | '\\' :: _ => some ('\\', 1)
  | 'u' :: '\x7b' :: rest => (codePoint? rest).map fun (c, count) => (c, count + 2)
  | _ => none

/-- Read a text with escapes up to its double quote. -/
def readBody (chars : List Char) : Option (List Char × List Char) :=
  match chars with
  | [] => none
  | c :: rest =>
      if c = '"' then some ([], rest)
      else if c = '\\' then do
        let (escaped, count) ← escape? rest
        (readBody (rest.drop count)).map fun (text, after) => (escaped :: text, after)
      else
        (readBody rest).map fun (text, after) => (c :: text, after)
termination_by chars.length
decreasing_by all_goals simp only [List.length_drop, List.length_cons]; omega

/-- Read a text in double quotes. -/
def read? : List Char → Option (String × List Char)
  | '"' :: rest => (readBody rest).map fun (text, after) => (String.ofList text, after)
  | _ => none

variable {c : Char} {chars text after rest : List Char}

/-- A quote ends the text. -/
theorem readBody_quote (rest : List Char) : readBody ('"' :: rest) = some ([], rest) := by
  rw [readBody, if_pos rfl]

/-- An escape stands for its character. -/
theorem readBody_backslash {count : Nat} (h : escape? rest = some (c, count)) :
    readBody ('\\' :: rest) =
      (readBody (rest.drop count)).map fun (text, after) => (c :: text, after) := by
  rw [readBody, if_neg (by decide), if_pos rfl, h]
  rfl

/-- Any other character stands for itself. -/
theorem readBody_of_ne (hquote : c ≠ '"') (hbackslash : c ≠ '\\') (rest : List Char) :
    readBody (c :: rest) = (readBody rest).map fun (text, after) => (c :: text, after) := by
  rw [readBody, if_neg hquote, if_neg hbackslash]

/-- What follows a text is shorter than the two together. -/
theorem length_lt_of_readBody (h : readBody chars = some (text, after)) :
    after.length < chars.length := by
  fun_induction readBody chars generalizing text after with
  | case1 => cases h
  | case2 => cases h; exact Nat.lt_succ_self _
  | case3 rest hquote ih =>
      obtain ⟨⟨escaped, count⟩, -, hread⟩ := Option.bind_eq_some_iff.mp h
      obtain ⟨⟨later, _⟩, hlater, heq⟩ := Option.map_eq_some_iff.mp hread
      cases heq
      have := ih count hlater
      rw [List.length_drop] at this
      rw [List.length_cons]
      omega
  | case4 c rest hquote hbackslash ih =>
      obtain ⟨⟨later, _⟩, hlater, heq⟩ := Option.map_eq_some_iff.mp h
      cases heq
      exact Nat.lt_succ_of_lt (ih hlater)

/-- Reading a quoted text uses characters up. -/
theorem length_lt_of_read? {found : String} (h : read? chars = some (found, after)) :
    after.length < chars.length := by
  unfold read? at h
  split at h
  · obtain ⟨⟨text, _⟩, hbody, heq⟩ := Option.map_eq_some_iff.mp h
    cases heq
    exact Nat.lt_succ_of_lt (length_lt_of_readBody hbody)
  · cases h

/-! ## Reading what was quoted -/

/-- The digits of a character's code point write that character. -/
theorem codePoint?_toDigits (c : Char) (rest : List Char) :
    codePoint? (Nat.toDigits 16 c.toNat ++ '\x7d' :: rest) =
      some (c, (Nat.toDigits 16 c.toNat).length + 1) := by
  have hbase : 1 < 16 ∧ 16 ≤ 16 := by decide
  have hbrace : Toml.isDigitOf 16 '\x7d' = false := rfl
  have hvalid : c.toNat.isValidChar := c.valid
  have hlength : (Nat.toDigits 16 c.toNat).length ≤ maxDigits := Toml.length_toDigits_toNat_le c
  rw [codePoint?, Toml.takeWhile_toDigits_append hbase hbrace, Toml.numberOf_toDigits hbase,
    if_pos ⟨Nat.toDigits_ne_nil, hlength, by simp, hvalid⟩, Char.ofNat_toNat]

/-- The characters after a backslash that stand for a character. -/
structure Escapes (body : List Char) (c : Char) : Prop where
  escape?_eq : ∀ rest, escape? (body ++ rest) = some (c, body.length)
  not_mem : '\n' ∉ body

/-- The escape of a code point without its backslash. -/
theorem escapes_codePoint (c : Char) :
    Escapes ('u' :: '\x7b' :: (Nat.toDigits 16 c.toNat ++ ['\x7d'])) c where
  escape?_eq rest := by
    rw [List.cons_append, List.cons_append, List.append_assoc, escape?, List.singleton_append,
      codePoint?_toDigits]
    simp
  not_mem := by
    have hdigits : '\n' ∉ Nat.toDigits 16 c.toNat := Toml.not_mem_toDigits (by decide) rfl _
    simp [hdigits]

/-- A character is written as an escape, or as itself if it is none of those that would be
mistaken. -/
theorem encodeChar_eq_or (c : Char) :
    (∃ body, encodeChar c = '\\' :: body ∧ Escapes body c) ∨
      encodeChar c = [c] ∧ c ≠ '"' ∧ c ≠ '\\' ∧ c ≠ '\n' := by
  unfold encodeChar
  split
  · subst c; exact .inl ⟨['0'], rfl, fun _ => rfl, by decide⟩
  split
  · subst c; exact .inl ⟨['t'], rfl, fun _ => rfl, by decide⟩
  split
  · subst c; exact .inl ⟨['n'], rfl, fun _ => rfl, by decide⟩
  rename_i hbreak
  split
  · subst c; exact .inl ⟨['r'], rfl, fun _ => rfl, by decide⟩
  split
  · subst c; exact .inl ⟨['"'], rfl, fun _ => rfl, by decide⟩
  rename_i hquote
  split
  · subst c; exact .inl ⟨['\\'], rfl, fun _ => rfl, by decide⟩
  rename_i hbackslash
  split
  · exact .inl ⟨_, rfl, escapes_codePoint c⟩
  · exact .inr ⟨rfl, hquote, hbackslash, hbreak⟩

/-- A character is read from the way it is written inside the quotes. -/
theorem readBody_encodeChar (c : Char) (rest : List Char) :
    readBody (encodeChar c ++ rest) =
      (readBody rest).map fun (text, after) => (c :: text, after) := by
  rcases encodeChar_eq_or c with ⟨body, hbody, hescapes⟩ | ⟨hself, hquote, hbackslash, -⟩
  · rw [hbody, List.cons_append, readBody_backslash (hescapes.escape?_eq rest), List.drop_left]
  · rw [hself]
    exact readBody_of_ne hquote hbackslash rest

/-- A text is read back from its encoded characters, whatever follows the quote. -/
theorem readBody_flatMap_encodeChar (text rest : List Char) :
    readBody (text.flatMap encodeChar ++ '"' :: rest) = some (text, rest) := by
  induction text with
  | nil => exact readBody_quote rest
  | cons c text ih =>
      rw [List.flatMap_cons, List.append_assoc, readBody_encodeChar, ih]
      rfl

/-- A text is read from its quoted form, whatever follows. -/
theorem read?_encode (text : String) (rest : List Char) :
    read? ((encode text).toList ++ rest) = some (text, rest) := by
  have hchars : (encode text).toList ++ rest =
      '"' :: (text.toList.flatMap encodeChar ++ '"' :: rest) := by
    simp [encode]
  rw [hchars, read?, readBody_flatMap_encodeChar]
  exact congrArg (fun read => some (read, rest)) String.ofList_toList

/-- No character is encoded with a line break. -/
theorem not_mem_encodeChar (c : Char) : '\n' ∉ encodeChar c := by
  rcases encodeChar_eq_or c with ⟨body, hbody, hescapes⟩ | ⟨hself, -, -, hbreak⟩
  · simp [hbody, hescapes.not_mem]
  · simp [hself, hbreak.symm]

/-- A quoted text stays on its line. -/
theorem not_mem_encode (text : String) : '\n' ∉ (encode text).toList := by
  simp [encode, not_mem_encodeChar]

end Text.Quoted

end Highlight
