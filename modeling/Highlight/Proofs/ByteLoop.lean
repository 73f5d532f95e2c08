import Highlight.Line.ByteLoop
import Highlight.Proofs.ForwardReading
import Highlight.Proofs.Pieces

/-!
# The byte loop reads lexemes

`Line.scanBytes?` goes through the bytes of a line, and `Line.scan` lays out the lexemes that are
read from its characters. The loop is followed character by character: no byte of a character from
outside ASCII is one that the loop looks for, `asciiByte_mem_iff`, so such a character is passed
over as a whole. Its searches for the end of a comment and of a quotation find what the reader cuts
off, `commentEnd?_eq` and `search?_utf8`. So the loop never cuts a line where it cannot be cut, and
it finds the spans of the line, `scanBytes?_eq`.
-/

namespace Highlight.Line

open Text (byteSize IsCut)
open Lexeme (Reading Step opening plainRun blockEnd? firstLexeme readCode readComment layOut)

/-! ## The bytes of a text -/

/-- The bytes of the characters in UTF-8. -/
def utf8 (chars : List Char) : List UInt8 :=
  chars.flatMap String.utf8EncodeChar

variable {mark c : Char} {chars rest before after : List Char}

/-- No characters have no bytes. -/
@[simp]
theorem utf8_nil : utf8 [] = [] := rfl

/-- The bytes of the first character come first. -/
@[simp]
theorem utf8_cons (c : Char) (rest : List Char) :
    utf8 (c :: rest) = String.utf8EncodeChar c ++ utf8 rest := rfl

/-- The bytes of two texts stand one after the other. -/
@[simp]
theorem utf8_append (left right : List Char) : utf8 (left ++ right) = utf8 left ++ utf8 right :=
  List.flatMap_append

/-- There are as many bytes as the characters take. -/
@[simp]
theorem length_utf8 (chars : List Char) : (utf8 chars).length = byteSize chars := by
  induction chars with
  | nil => rfl
  | cons c rest ih =>
      rw [utf8_cons, List.length_append, String.length_utf8EncodeChar, ih, Text.byteSize_cons]

/-- A line is kept as the bytes of its characters. -/
theorem toList_toUTF8_data (line : String) : line.toUTF8.data.toList = utf8 line.toList := by
  conv_lhs => rw [← String.ofList_toList (s := line)]
  show (String.ofList line.toList).toByteArray.data.toList = _
  rw [String.toByteArray_ofList, List.utf8Encode, List.toList_data_toByteArray]
  rfl

/-- Every character takes bytes. -/
theorem utf8EncodeChar_ne_nil (c : Char) : String.utf8EncodeChar c ≠ [] := by
  intro hnil
  have hlength := String.length_utf8EncodeChar c
  have hpos := c.utf8Size_pos
  rw [hnil, List.length_nil] at hlength
  omega

/-- A character of ASCII is one byte. -/
theorem utf8EncodeChar_of_ascii (h : c.val ≤ 127) : String.utf8EncodeChar c = [asciiByte c] :=
  String.utf8EncodeChar_eq_singleton (Char.utf8Size_eq_one_iff.mpr h)

/-- The bytes of any other character are greater than those of ASCII. -/
theorem le_toNat_of_mem_utf8EncodeChar (h : ¬ c.val ≤ 127) {byte : UInt8}
    (hbyte : byte ∈ String.utf8EncodeChar c) : 128 ≤ byte.toNat := by
  have hsize : ¬ c.val.toNat ≤ 127 := fun hle => h (UInt32.le_iff_toNat_le.mpr hle)
  rw [String.utf8EncodeChar] at hbyte
  simp only [if_neg hsize] at hbyte
  split at hbyte
  · simp only [List.mem_cons, List.not_mem_nil, or_false] at hbyte
    rcases hbyte with rfl | rfl <;> simp only [UInt8.toNat_ofNat'] <;> omega
  · split at hbyte
    · simp only [List.mem_cons, List.not_mem_nil, or_false] at hbyte
      rcases hbyte with rfl | rfl | rfl <;> simp only [UInt8.toNat_ofNat'] <;> omega
    · simp only [List.mem_cons, List.not_mem_nil, or_false] at hbyte
      rcases hbyte with rfl | rfl | rfl | rfl <;> simp only [UInt8.toNat_ofNat'] <;> omega

/-- The number of an ASCII character is below 128. -/
theorem toNat_val_le (h : mark.val ≤ 127) : mark.val.toNat ≤ 127 :=
  UInt32.le_iff_toNat_le.mp h

/-- The byte of an ASCII character is its number. -/
theorem toNat_asciiByte (h : mark.val ≤ 127) : (asciiByte mark).toNat = mark.val.toNat := by
  have hle := toNat_val_le h
  rw [asciiByte, UInt32.toNat_toUInt8]
  omega

/-- A byte of ASCII stands in the bytes of its own character only. -/
theorem asciiByte_mem_iff (hmark : mark.val ≤ 127) :
    asciiByte mark ∈ String.utf8EncodeChar c ↔ c = mark := by
  by_cases hc : c.val ≤ 127
  · rw [utf8EncodeChar_of_ascii hc, List.mem_singleton]
    constructor
    · intro heq
      have hval := congrArg UInt8.toNat heq
      rw [toNat_asciiByte hmark, toNat_asciiByte hc] at hval
      exact Char.ext (UInt32.toNat_inj.mp hval.symm)
    · intro heq
      exact congrArg asciiByte heq.symm
  · constructor
    · intro hmem
      have hlarge := le_toNat_of_mem_utf8EncodeChar hc hmem
      have hle := toNat_val_le hmark
      rw [toNat_asciiByte hmark] at hlarge
      omega
    · rintro rfl
      exact absurd hmark hc

/-- A character begins with a byte of ASCII if it is the character of that byte. -/
theorem head?_utf8_eq_iff (hmark : mark.val ≤ 127) :
    (utf8 chars).head? = some (asciiByte mark) ↔ chars.head? = some mark := by
  cases chars with
  | nil => simp
  | cons c rest =>
      by_cases hc : c = mark
      · subst hc
        simp [utf8EncodeChar_of_ascii hmark]
      · rw [utf8_cons, List.head?_append_of_ne_nil _ (utf8EncodeChar_ne_nil c), List.head?_cons,
          Option.some.injEq]
        constructor
        · intro hhead
          exact (asciiByte_mem_iff hmark).mp (List.mem_of_mem_head? hhead)
        · exact fun heq => absurd heq hc

/-! ## The searches -/

/-- Bytes that are no star do not end a comment. -/
theorem commentEndIndex?_append {run : List UInt8} (h : asciiByte '*' ∉ run) (rest : List UInt8) :
    commentEndIndex? (run ++ rest) = (commentEndIndex? rest).map (run.length + ·) := by
  induction run with
  | nil => simp
  | cons byte run ih =>
      rw [List.mem_cons, not_or] at h
      have hstep : commentEndIndex? (byte :: (run ++ rest)) =
          (commentEndIndex? (run ++ rest)).map (· + 1) := by
        cases run ++ rest with
        | nil => rfl
        | cons second later => exact if_neg fun hend => h.1 hend.1.symm
      rw [List.cons_append, hstep, ih h.2, Option.map_map, List.length_cons]
      congr 1
      funext index
      show run.length + index + 1 = run.length + 1 + index
      omega

/-- The end of a comment is found in the bytes where the reader finds it in the characters. -/
theorem commentEndIndex?_utf8 (chars : List Char) :
    (commentEndIndex? (utf8 chars)).map (· + 2) =
      (blockEnd? chars).map fun (body, _) => byteSize body := by
  induction chars with
  | nil => rfl
  | cons c rest ih =>
      by_cases hend : ∃ after, c :: rest = '*' :: '/' :: after
      · obtain ⟨after, heq⟩ := hend
        rw [heq]
        rfl
      · rw [Lexeme.blockEnd?_cons fun after heq => hend ⟨after, heq⟩, Option.map_map]
        have hlater : commentEndIndex? (utf8 (c :: rest)) =
            (commentEndIndex? (utf8 rest)).map (c.utf8Size + ·) := by
          by_cases hstar : c = '*'
          · subst hstar
            show commentEndIndex? (asciiByte '*' :: utf8 rest) = _
            cases hbytes : utf8 rest with
            | nil => rfl
            | cons second later =>
                have hslash : second ≠ asciiByte '/' := by
                  rintro rfl
                  have hhead : rest.head? = some '/' :=
                    (head?_utf8_eq_iff (by decide)).mp (by rw [hbytes]; rfl)
                  obtain ⟨after, hafter⟩ := List.head?_eq_some_iff.mp hhead
                  exact hend ⟨after, congrArg _ hafter⟩
                rw [commentEndIndex?, if_neg fun h => hslash h.2]
                simp [Nat.add_comm, Char.utf8Size]
          · have hnot : asciiByte '*' ∉ String.utf8EncodeChar c :=
              mt (asciiByte_mem_iff (by decide)).mp hstar
            rw [utf8_cons, commentEndIndex?_append hnot, String.length_utf8EncodeChar]
        rw [hlater, Option.map_map]
        have hrest := congrArg (Option.map (c.utf8Size + ·)) ih
        rw [Option.map_map, Option.map_map] at hrest
        exact hrest

/-- From the edge of a character the end of a comment is found. -/
theorem commentEnd?_eq {bytes : List UInt8} (hbytes : bytes = utf8 before ++ utf8 rest) :
    commentEnd? bytes (byteSize before) =
      some ((blockEnd? rest).map fun (body, _) => byteSize (before ++ body)) := by
  have hdrop : Quote.drop? bytes (byteSize before) = some (utf8 rest) := by
    rw [hbytes, ← length_utf8, Quote.drop?, if_pos (by simp), List.drop_left]
  have hindex := congrArg (Option.map (byteSize before + ·)) (commentEndIndex?_utf8 rest)
  rw [Option.map_map, Option.map_map] at hindex
  simp only [commentEnd?, hdrop, Option.bind_eq_bind, Option.bind_some, Text.byteSize_append]
  exact congrArg some hindex

/-- In the bytes before a position as many escape marks are counted as in the characters. -/
theorem countLeading_utf8 (hmark : mark.val ≤ 127) (passed : List Char) :
    Quote.countLeading (asciiByte mark) (utf8 passed.reverse).reverse =
      Quote.countLeading mark passed := by
  induction passed with
  | nil => rfl
  | cons c passed ih =>
      rw [List.reverse_cons, utf8_append, List.reverse_append, utf8_cons, utf8_nil,
        List.append_nil, Quote.countLeading_cons]
      by_cases hc : c = mark
      · subst hc
        rw [utf8EncodeChar_of_ascii hmark, if_pos rfl, List.reverse_singleton,
          List.singleton_append, Quote.countLeading_cons, if_pos rfl, ih]
      · rw [if_neg hc]
        refine Quote.countLeading_eq_zero ?_
        rw [List.head?_append, List.head?_reverse]
        intro hhead
        have hlast : (String.utf8EncodeChar c).getLast? = some (asciiByte mark) := by
          rw [List.getLast?_eq_some_getLast (utf8EncodeChar_ne_nil c)] at hhead ⊢
          exact hhead
        exact hc ((asciiByte_mem_iff hmark).mp (List.mem_of_getLast? hlast))

/-- Of what is before a quotation only the number of escape marks at its end matters. -/
theorem close?_congr {escape closing : Char} {passed passed' : List Char}
    (h : Quote.countLeading escape passed = Quote.countLeading escape passed')
    (chars : List Char) :
    Quote.close? escape closing passed chars = Quote.close? escape closing passed' chars := by
  induction chars generalizing passed passed' with
  | nil => rfl
  | cons c rest ih =>
      have hlater : Quote.countLeading escape (c :: passed) =
          Quote.countLeading escape (c :: passed') := by
        rw [Quote.countLeading_cons, Quote.countLeading_cons, h]
      rw [Quote.close?, Quote.close?, h, ih hlater]

/-- A quotation has as many bytes as its end is away. -/
theorem length?_utf8 {escape closing : Char} (hescape : escape.val ≤ 127)
    (hclosing : closing.val ≤ 127) (passed rest : List Char) :
    Quote.length? (asciiByte escape) (asciiByte closing) (utf8 passed.reverse).reverse
        (utf8 rest) =
      (Quote.close? escape closing passed rest).map fun (body, _) => byteSize body := by
  induction rest generalizing passed with
  | nil => rfl
  | cons c rest ih =>
      have hpassed : (utf8 (c :: passed).reverse).reverse =
          (String.utf8EncodeChar c).reverse ++ (utf8 passed.reverse).reverse := by
        simp
      have hlater := ih (c :: passed)
      rw [hpassed] at hlater
      by_cases hcloses : c = closing ∧ Quote.countLeading escape passed % 2 = 0
      · rw [Quote.close?_cons_of_closes hcloses, utf8_cons, hcloses.1,
          utf8EncodeChar_of_ascii hclosing]
        have heven := hcloses.2
        rw [← countLeading_utf8 hescape] at heven
        rw [List.singleton_append, Quote.length?_cons_of_closes ⟨rfl, heven⟩]
        have hsize := Char.utf8Size_eq_one_iff.mpr hclosing
        simp [hsize]
      · rw [Quote.close?_cons_of_not_closes hcloses, Option.map_map, utf8_cons]
        have hstep : Quote.length? (asciiByte escape) (asciiByte closing)
            (utf8 passed.reverse).reverse (String.utf8EncodeChar c ++ utf8 rest) =
              (Quote.length? (asciiByte escape) (asciiByte closing)
                ((String.utf8EncodeChar c).reverse ++ (utf8 passed.reverse).reverse)
                (utf8 rest)).map (c.utf8Size + ·) := by
          by_cases hc : c = closing
          · have hodd : ¬ Quote.countLeading (asciiByte escape) (utf8 passed.reverse).reverse % 2 =
                0 := by
              rw [countLeading_utf8 hescape]
              exact fun heven => hcloses ⟨hc, heven⟩
            subst hc
            rw [utf8EncodeChar_of_ascii hclosing, List.singleton_append,
              Quote.length?_cons_of_not_closes fun h => hodd h.2, List.reverse_singleton,
              List.singleton_append, Char.utf8Size_eq_one_iff.mpr hclosing]
            congr 1
            funext length
            exact Nat.add_comm length 1
          · rw [Quote.length?_append (mt (asciiByte_mem_iff hclosing).mp hc),
              String.length_utf8EncodeChar]
        rw [hstep, hlater, Option.map_map]
        rfl

/-- From the edge of a character the end of a quotation is found. -/
theorem search?_utf8 {escape closing : Char} (hescape : escape.val ≤ 127)
    (hclosing : closing.val ≤ 127) {bytes : List UInt8}
    (hbytes : bytes = utf8 before ++ utf8 rest) :
    Quote.search? (asciiByte escape) (asciiByte closing) bytes (byteSize before) =
      some ((Quote.close? escape closing before.reverse rest).map fun (body, _) =>
        byteSize (before ++ body)) := by
  have hlength := length?_utf8 hescape hclosing before.reverse rest
  rw [List.reverse_reverse] at hlength
  rw [Quote.search?_eq, hbytes, ← length_utf8 before, List.take_left, List.drop_left, hlength,
    Option.map_map, length_utf8]
  simp only [Text.byteSize_append]
  rfl

/-! ## What the loop looks at -/

variable {bytes : Array UInt8} {shellComments : Bool} {position : Nat}

/-- No mark begins at a byte that is not one of ASCII. -/
theorem openingAt_of_le {byte : UInt8} (hbyte : bytes[position]? = some byte)
    (hlarge : 128 ≤ byte.toNat) : openingAt bytes shellComments position = .plain := by
  have hne {mark : Char} (hmark : mark.val ≤ 127) : byte ≠ asciiByte mark := by
    rintro rfl
    have hle := toNat_val_le hmark
    rw [toNat_asciiByte hmark] at hlarge
    omega
  rw [openingAt, hbyte]
  simp [hne (show '#'.val ≤ 127 by decide), hne (show '/'.val ≤ 127 by decide),
    hne (show '"'.val ≤ 127 by decide), hne (show '\''.val ≤ 127 by decide)]

/-- The byte at the edge of a character of ASCII tells the character, and the one behind it the next
character. -/
theorem openingAt_of_ascii (hc : c.val ≤ 127)
    (hbytes : bytes.toList = utf8 before ++ utf8 (c :: rest)) :
    openingAt bytes shellComments (byteSize before) = opening shellComments (c :: rest) := by
  have hat (index : Nat) :
      bytes[byteSize before + index]? = (asciiByte c :: utf8 rest)[index]? := by
    rw [← Array.getElem?_toList, hbytes, ← length_utf8 before,
      List.getElem?_append_right (Nat.le_add_right ..), Nat.add_sub_cancel_left, utf8_cons,
      utf8EncodeChar_of_ascii hc]
    rfl
  have hfirst : bytes[byteSize before]? = some (asciiByte c) := hat 0
  have hsecond : bytes[byteSize before + 1]? = (utf8 rest).head? :=
    (hat 1).trans List.head?_eq_getElem?.symm
  have hbyte {mark : Char} (hmark : mark.val ≤ 127) : asciiByte c = asciiByte mark ↔ c = mark := by
    rw [← asciiByte_mem_iff hmark, utf8EncodeChar_of_ascii hc, List.mem_singleton]
    exact eq_comm
  simp only [openingAt, hfirst, hsecond, hbyte (show '#'.val ≤ 127 by decide),
    hbyte (show '/'.val ≤ 127 by decide), hbyte (show '"'.val ≤ 127 by decide),
    hbyte (show '\''.val ≤ 127 by decide), head?_utf8_eq_iff (show '*'.val ≤ 127 by decide),
    head?_utf8_eq_iff (show '/'.val ≤ 127 by decide)]
  symm
  split
  · rename_i hsign
    obtain ⟨rfl, hshell⟩ := hsign
    exact Lexeme.opening_eq_lineComment_iff.mpr (.inr ⟨hshell, rest, rfl⟩)
  · rename_i hsign
    split
    · rename_i hblock
      obtain ⟨rfl, hstar⟩ := hblock
      obtain ⟨tail, rfl⟩ := List.head?_eq_some_iff.mp hstar
      rfl
    · rename_i hblock
      split
      · rename_i hline
        obtain ⟨rfl, hslash⟩ := hline
        obtain ⟨tail, rfl⟩ := List.head?_eq_some_iff.mp hslash
        rfl
      · rename_i hline
        split
        · subst c
          rfl
        · split
          · subst c
            rfl
          · refine Lexeme.opening_eq_plain_iff.mpr ⟨‹_›, ‹_›, ?_, ?_, fun hon h => hsign ⟨h, hon⟩⟩
            · rintro ⟨tail, htail⟩
              obtain ⟨rfl, rfl⟩ := List.cons.inj htail
              exact hblock ⟨rfl, rfl⟩
            · rintro ⟨tail, htail⟩
              obtain ⟨rfl, rfl⟩ := List.cons.inj htail
              exact hline ⟨rfl, rfl⟩

/-! ## The loop -/

/-- A reading as spans, the first of which begins at byte `start`. -/
def place (start : Nat) (reading : Reading) : LineScan :=
  ⟨layOut start reading.lexemes, reading.inComment⟩

variable {line : String} {kind : SpanKind} {start stop runStart : Nat} {middle : List Char}
  {reading : Reading}

/-- What is cut out between two edges stands in front of the spans behind it. -/
theorem emit?_eq (hcut : IsCut line start stop before middle after) :
    emit? line kind start stop (some (place stop reading)) =
      some (place start ⟨⟨kind, middle⟩ :: reading.lexemes, reading.inComment⟩) := by
  have hstop : start + byteSize middle = stop := by
    rw [← hcut.stop_eq, Text.byteSize_append, hcut.start_eq]
  have hplace : place start ⟨⟨kind, middle⟩ :: reading.lexemes, reading.inComment⟩ =
      ⟨⟨kind, start, String.ofList middle⟩ :: layOut stop reading.lexemes, reading.inComment⟩ := by
    rw [place, layOut, Span.stop_mk, hstop]
  rw [emit?, Span.ofSlice?, hcut.slice?_eq, hplace]
  rfl

/-- The last span of a line runs up to its end. -/
theorem emit?_eq_last {inComment : Bool} (hcut : IsCut line start stop before middle []) :
    emit? line kind start stop (some ⟨[], inComment⟩) =
      some (place start ⟨[⟨kind, middle⟩], inComment⟩) := by
  have hplace : (⟨[], inComment⟩ : LineScan) = place stop ⟨[], inComment⟩ := rfl
  rw [hplace, emit?_eq hcut]

/-- The reading of a text that is plain up to where something opens. -/
def afterPlain (run : List Char) (reading : Reading) : Reading :=
  if run = [] then reading else ⟨⟨.normal, run⟩ :: reading.lexemes, reading.inComment⟩

/-- Plain text in front of a reading is put there as one span, unless it is empty. -/
theorem emitPlain?_eq (hcut : IsCut line start stop before middle after) :
    emitPlain? line start stop (some (place stop reading)) =
      some (place start (afterPlain middle reading)) := by
  have hstop : start + byteSize middle = stop := by
    rw [← hcut.stop_eq, Text.byteSize_append, hcut.start_eq]
  rw [emitPlain?, afterPlain]
  by_cases hmiddle : middle = []
  · subst hmiddle
    obtain rfl : start = stop := hstop
    rw [if_neg (Nat.lt_irrefl _), if_pos rfl]
  · have hpos : byteSize middle ≠ 0 := fun hzero =>
      hmiddle (Text.eq_nil_of_byteSize_eq_zero hzero)
    rw [if_pos (by omega), if_neg hmiddle, emit?_eq hcut]

/-- Where nothing opens, the loop goes on with the next byte. -/
theorem scanFrom?_plain (hposition : position < bytes.size)
    (hopening : openingAt bytes shellComments position = .plain) :
    scanFrom? line bytes shellComments false runStart position =
      scanFrom? line bytes shellComments false runStart (position + 1) := by
  conv_lhs => rw [scanFrom?, dif_pos hposition]
  simp only [Bool.false_eq_true, if_false, hopening]

/-- The loop passes over bytes that open nothing. -/
theorem scanFrom?_add {count : Nat} (h : ∀ index < count, position + index < bytes.size ∧
    openingAt bytes shellComments (position + index) = .plain) :
    scanFrom? line bytes shellComments false runStart position =
      scanFrom? line bytes shellComments false runStart (position + count) := by
  induction count with
  | zero => rfl
  | succ count ih =>
      obtain ⟨hposition, hopening⟩ := h count (Nat.lt_succ_self count)
      rw [ih fun index hindex => h index (Nat.lt_succ_of_lt hindex),
        scanFrom?_plain hposition hopening]
      rfl

/-- A character that opens nothing is passed over as a whole. -/
theorem scanFrom?_of_plain (hbytes : bytes.toList = utf8 before ++ utf8 (c :: rest))
    (hopening : opening shellComments (c :: rest) = .plain) :
    scanFrom? line bytes shellComments false runStart (byteSize before) =
      scanFrom? line bytes shellComments false runStart (byteSize (before ++ [c])) := by
  have hsize : bytes.size = byteSize before + (c.utf8Size + byteSize rest) := by
    rw [← Array.length_toList, hbytes, List.length_append, length_utf8, length_utf8,
      Text.byteSize_cons]
  have hnext : byteSize (before ++ [c]) = byteSize before + c.utf8Size := by
    rw [Text.byteSize_append]
    rfl
  rw [hnext]
  refine scanFrom?_add fun index hindex => ⟨by omega, ?_⟩
  by_cases hc : c.val ≤ 127
  · have hone := Char.utf8Size_eq_one_iff.mpr hc
    obtain rfl : index = 0 := by omega
    rw [Nat.add_zero, openingAt_of_ascii hc hbytes, hopening]
  · have hlength := String.length_utf8EncodeChar c
    have hindex' : index < (String.utf8EncodeChar c).length := by omega
    have hbyte : bytes[byteSize before + index]? = some ((String.utf8EncodeChar c)[index]) := by
      rw [← Array.getElem?_toList, hbytes, ← length_utf8 before,
        List.getElem?_append_right (Nat.le_add_right ..), Nat.add_sub_cancel_left, utf8_cons,
        List.getElem?_append_left hindex', List.getElem?_eq_getElem hindex']
    exact openingAt_of_le hbyte (le_toNat_of_mem_utf8EncodeChar hc (List.getElem_mem hindex'))

/-- The reading of the inside of a comment, the beginning of which was read before. -/
def readOpened (shellComments : Bool) (opened rest : List Char) : Reading :=
  match blockEnd? rest with
  | some (body, after) =>
      ⟨⟨.comment, opened ++ body⟩ :: (readCode shellComments after).lexemes,
        (readCode shellComments after).inComment⟩
  | none => if opened ++ rest = [] then ⟨[], true⟩ else ⟨[⟨.comment, opened ++ rest⟩], true⟩

/-- A line that begins inside a comment is read like one that has just opened it. -/
theorem readComment_eq (shellComments : Bool) (chars : List Char) :
    readComment shellComments chars = readOpened shellComments [] chars := by
  cases chars with
  | nil => rfl
  | cons c rest =>
      rw [readComment, readOpened]
      cases blockEnd? (c :: rest) <;> rfl

/-- A comment is read on from its opener. -/
theorem readCode_blockComment (shellComments : Bool) (rest : List Char) :
    readCode shellComments ('/' :: '*' :: rest) = readOpened shellComments ['/', '*'] rest := by
  have hopening : opening shellComments ('/' :: '*' :: rest) = .blockComment := rfl
  rw [readCode, readOpened]
  simp only [firstLexeme, hopening, List.drop_succ_cons, List.drop_zero]
  cases blockEnd? rest with
  | none => rw [readCode]; rfl
  | some ends => rfl

/-- The edge behind the first two of three parts of a line. -/
theorem size_eq_of_parts (hbytes : bytes.toList = utf8 line.toList)
    (hline : line.toList = before ++ middle ++ rest) :
    bytes.size = byteSize (before ++ middle) + byteSize rest := by
  rw [← Array.length_toList, hbytes, length_utf8, hline, Text.byteSize_append]

/-- At the end of a line what is pending becomes its last span. -/
theorem scanFrom?_end (hbytes : bytes.toList = utf8 line.toList)
    (hline : line.toList = before ++ middle ++ []) (inComment : Bool) :
    scanFrom? line bytes shellComments inComment (byteSize before) (byteSize (before ++ middle)) =
      some (place (byteSize before)
        ⟨if middle = [] then [] else [⟨if inComment then .comment else .normal, middle⟩],
          inComment⟩) := by
  have hsize := size_eq_of_parts hbytes hline
  rw [Text.byteSize_nil, Nat.add_zero] at hsize
  rw [scanFrom?, dif_neg (by omega), hsize]
  by_cases hmiddle : middle = []
  · subst hmiddle
    rw [List.append_nil, if_neg (Nat.lt_irrefl _), if_pos rfl]
    rfl
  · have hpos : byteSize middle ≠ 0 := fun hzero =>
      hmiddle (Text.eq_nil_of_byteSize_eq_zero hzero)
    rw [if_pos (by rw [Text.byteSize_append]; omega), if_neg hmiddle]
    exact emit?_eq_last ⟨hline, rfl, rfl⟩

/-- Inside a comment the loop goes on behind its end. -/
theorem scanFrom?_of_commentEnd? {found : Option Nat} (hposition : position < bytes.size)
    (hend : commentEnd? bytes.toList position = some found) :
    scanFrom? line bytes shellComments true runStart position =
      found.elim (emit? line .comment runStart bytes.size (some ⟨[], true⟩)) fun stop =>
        emit? line .comment runStart stop (scanFrom? line bytes shellComments false stop stop) := by
  rw [scanFrom?, dif_pos hposition, if_pos rfl]
  split <;> rename_i hfound <;> rw [hend] at hfound <;> cases hfound <;> rfl

/-- At a quote the loop goes on behind the end of the string. -/
theorem scanFrom?_of_search? {found : Option Nat} (hposition : position < bytes.size)
    (hopening : openingAt bytes shellComments position = .quote mark)
    (hsearch : Quote.search? (asciiByte '\\') (asciiByte mark) bytes.toList (position + 1) =
      some found) :
    scanFrom? line bytes shellComments false position position =
      found.elim (emit? line .error position bytes.size (some ⟨[], false⟩)) fun stop =>
        emit? line .string position stop (scanFrom? line bytes shellComments false stop stop) := by
  rw [scanFrom?, dif_pos hposition, if_neg Bool.false_ne_true, hopening]
  simp only [emitPlain?, Nat.lt_irrefl, if_false]
  split <;> rename_i hfound <;> rw [hsearch] at hfound <;> cases hfound <;> rfl

/-- Inside a comment the loop goes on as the reader does, if it does so behind the comment. -/
theorem scanFrom?_comment (hbytes : bytes.toList = utf8 line.toList)
    (hline : line.toList = before ++ middle ++ rest)
    (hcode : ∀ body after, blockEnd? rest = some (body, after) →
      scanFrom? line bytes shellComments false (byteSize (before ++ middle ++ body))
          (byteSize (before ++ middle ++ body)) =
        some (place (byteSize (before ++ middle ++ body)) (readCode shellComments after))) :
    scanFrom? line bytes shellComments true (byteSize before) (byteSize (before ++ middle)) =
      some (place (byteSize before) (readOpened shellComments middle rest)) := by
  have hsize := size_eq_of_parts hbytes hline
  cases hrest : rest with
  | nil =>
      rw [scanFrom?_end hbytes (hrest ▸ hline), readOpened, blockEnd?, List.append_nil]
      split <;> rfl
  | cons c later =>
      have hpos := c.utf8Size_pos
      rw [hrest, Text.byteSize_cons] at hsize
      have hparts : bytes.toList = utf8 (before ++ middle) ++ utf8 rest := by
        rw [hbytes, hline, utf8_append]
      rw [← hrest, scanFrom?_of_commentEnd? (by omega) (commentEnd?_eq hparts), readOpened]
      cases hbody : blockEnd? rest with
      | none =>
          have hne : middle ++ rest ≠ [] := by
            rw [hrest]
            exact List.append_ne_nil_of_right_ne_nil _ (List.cons_ne_nil c later)
          have hstop : byteSize (before ++ (middle ++ rest)) = bytes.size := by
            rw [← List.append_assoc, ← hline, ← length_utf8, ← hbytes, Array.length_toList]
          simp only [Option.map_none, Option.elim_none, if_neg hne]
          exact emit?_eq_last ⟨by rw [hline, List.append_nil, List.append_assoc], rfl, hstop⟩
      | some ends =>
          obtain ⟨body, after⟩ := ends
          have hcut : IsCut line (byteSize before) (byteSize (before ++ middle ++ body)) before
              (middle ++ body) after :=
            ⟨by rw [hline, Lexeme.append_of_blockEnd? hbody]; simp only [List.append_assoc], rfl,
              by rw [List.append_assoc]⟩
          simp only [Option.map_some, Option.elim_some, hcode body after hbody]
          exact emit?_eq hcut

/-- Nothing opens in the text, whose first part this is. -/
def OpensNothing (shellComments : Bool) : List Char → List Char → Prop
  | [], _ => True
  | c :: run, rest =>
      opening shellComments (c :: run ++ rest) = .plain ∧ OpensNothing shellComments run rest

variable {run : List Char}

/-- A run in which nothing opens goes on where nothing opens. -/
theorem OpensNothing.snoc (h : OpensNothing shellComments run (c :: rest))
    (hopening : opening shellComments (c :: rest) = .plain) :
    OpensNothing shellComments (run ++ [c]) rest := by
  induction run with
  | nil => exact ⟨hopening, trivial⟩
  | cons d run ih =>
      obtain ⟨hfirst, hrun⟩ := h
      refine ⟨?_, ih hrun⟩
      simpa using hfirst

/-- A run in which nothing opens is the plain text up to the next mark. -/
theorem OpensNothing.plainRun_eq (h : OpensNothing shellComments run rest)
    (hrest : rest ≠ [] → opening shellComments rest ≠ .plain) :
    plainRun shellComments (run ++ rest) = (run, rest) := by
  induction run with
  | nil =>
      cases rest with
      | nil => rfl
      | cons c rest => exact if_neg (hrest (List.cons_ne_nil c rest))
  | cons c run ih =>
      obtain ⟨hfirst, hrun⟩ := h
      rw [List.cons_append] at hfirst ⊢
      rw [plainRun, if_pos hfirst, ih hrun]

/-- What was read as plain text up to where something opens is one lexeme. -/
theorem OpensNothing.readCode_eq (h : OpensNothing shellComments run rest)
    (hrest : rest ≠ [] → opening shellComments rest ≠ .plain) :
    readCode shellComments (run ++ rest) = afterPlain run (readCode shellComments rest) := by
  cases run with
  | nil => rfl
  | cons c run =>
      obtain ⟨hfirst, hrun⟩ := h
      rw [List.cons_append] at hfirst ⊢
      rw [readCode, firstLexeme, hfirst]
      simp only [hrun.plainRun_eq hrest]
      rfl

/-- Only characters of ASCII open something. -/
theorem ascii_of_opening_ne (h : opening shellComments (c :: rest) ≠ .plain) : c.val ≤ 127 := by
  cases hopening : opening shellComments (c :: rest) with
  | plain => exact absurd hopening h
  | lineComment =>
      rcases Lexeme.opening_eq_lineComment_iff.mp hopening with ⟨tail, htail⟩ | ⟨-, tail, htail⟩
      · obtain ⟨rfl, -⟩ := List.cons.inj htail
        decide
      · obtain ⟨rfl, -⟩ := List.cons.inj htail
        decide
  | blockComment =>
      obtain ⟨tail, htail⟩ := Lexeme.opening_eq_blockComment_iff.mp hopening
      obtain ⟨rfl, -⟩ := List.cons.inj htail
      decide
  | quote mark =>
      obtain ⟨rfl | rfl, tail, htail⟩ := Lexeme.opening_eq_quote_iff.mp hopening
      · obtain ⟨rfl, -⟩ := List.cons.inj htail
        decide
      · obtain ⟨rfl, -⟩ := List.cons.inj htail
        decide

/-- Where something opens, the plain text before it is put in a span, if there is any, and the loop
goes on without it. -/
theorem scanFrom?_opening (hposition : position < bytes.size)
    (hopening : openingAt bytes shellComments position ≠ .plain) :
    scanFrom? line bytes shellComments false runStart position =
      emitPlain? line runStart position
        (scanFrom? line bytes shellComments false position position) := by
  have hempty (later : Option LineScan) : emitPlain? line position position later = later :=
    if_neg (Nat.lt_irrefl position)
  conv_lhs => rw [scanFrom?, dif_pos hposition]
  conv_rhs => rw [scanFrom?, dif_pos hposition]
  simp only [Bool.false_eq_true, if_false]
  cases hmark : openingAt bytes shellComments position with
  | plain => exact absurd hmark hopening
  | lineComment => simp only [hempty]
  | blockComment => simp only [hempty]
  | quote mark => simp only [hempty]

/-- Where a character opens something, the loop sees it. -/
theorem openingAt_eq (hbytes : bytes.toList = utf8 line.toList)
    (hline : line.toList = before ++ c :: rest)
    {found : Lexeme.Opening} (hopening : opening shellComments (c :: rest) = found)
    (hfound : found ≠ .plain) :
    byteSize before < bytes.size ∧ openingAt bytes shellComments (byteSize before) = found := by
  subst hopening
  have hparts : bytes.toList = utf8 before ++ utf8 (c :: rest) := by
    rw [hbytes, hline, utf8_append]
  have hsize : bytes.size = byteSize before + (c.utf8Size + byteSize rest) := by
    rw [← Array.length_toList, hparts, List.length_append, length_utf8, length_utf8,
      Text.byteSize_cons]
  have hpos := c.utf8Size_pos
  exact ⟨by omega, openingAt_of_ascii (ascii_of_opening_ne hfound) hparts⟩

/-- A line comment is scanned as the reader reads it: up to the end of the line. -/
theorem scanFrom?_lineComment (hbytes : bytes.toList = utf8 line.toList)
    (hline : line.toList = before ++ c :: rest)
    (hopening : opening shellComments (c :: rest) = .lineComment) :
    scanFrom? line bytes shellComments false (byteSize before) (byteSize before) =
      some (place (byteSize before) (readCode shellComments (c :: rest))) := by
  obtain ⟨hposition, hat⟩ := openingAt_eq hbytes hline hopening nofun
  have hsize : bytes.size = byteSize (before ++ c :: rest) := by
    rw [← hline, ← length_utf8, ← hbytes, Array.length_toList]
  have hcut : IsCut line (byteSize before) bytes.size before (c :: rest) [] :=
    ⟨by rw [hline, List.append_nil], rfl, hsize.symm⟩
  rw [scanFrom?, dif_pos hposition, if_neg Bool.false_ne_true, hat, readCode, firstLexeme,
    hopening]
  simp only [emitPlain?, Nat.lt_irrefl, if_false, readCode]
  exact emit?_eq_last hcut

/-- A comment is scanned as the reader reads it, if what is behind it is. -/
theorem scanFrom?_blockComment (hbytes : bytes.toList = utf8 line.toList)
    (hline : line.toList = before ++ '/' :: '*' :: rest)
    (hcode : ∀ body after, blockEnd? rest = some (body, after) →
      scanFrom? line bytes shellComments false (byteSize (before ++ '/' :: '*' :: body))
          (byteSize (before ++ '/' :: '*' :: body)) =
        some (place (byteSize (before ++ '/' :: '*' :: body)) (readCode shellComments after))) :
    scanFrom? line bytes shellComments false (byteSize before) (byteSize before) =
      some (place (byteSize before) (readCode shellComments ('/' :: '*' :: rest))) := by
  have hopening : opening shellComments ('/' :: '*' :: rest) = .blockComment := rfl
  obtain ⟨hposition, hat⟩ := openingAt_eq hbytes hline hopening nofun
  have hline' : line.toList = before ++ ['/', '*'] ++ rest := by
    rw [hline, List.append_assoc]
    rfl
  have hcomment : scanFrom? line bytes shellComments true (byteSize before)
      (byteSize (before ++ ['/', '*'])) =
        some (place (byteSize before) (readOpened shellComments ['/', '*'] rest)) := by
    refine scanFrom?_comment hbytes hline' fun body after hbody => ?_
    have hbehind := hcode body after hbody
    rwa [List.append_cons before, List.append_cons (before ++ ['/']), List.append_assoc before]
      at hbehind
  rw [Text.byteSize_append before] at hcomment
  rw [scanFrom?, dif_pos hposition, if_neg Bool.false_ne_true, hat,
    readCode_blockComment, ← hcomment]
  exact if_neg (Nat.lt_irrefl _)

/-- A string is scanned as the reader reads it, if what is behind it is. -/
theorem scanFrom?_quote (hbytes : bytes.toList = utf8 line.toList)
    (hline : line.toList = before ++ c :: rest)
    (hopening : opening shellComments (c :: rest) = .quote mark)
    (hcode : ∀ body after, Quote.close? '\\' mark [c] rest = some (body, after) →
      scanFrom? line bytes shellComments false (byteSize (before ++ c :: body))
          (byteSize (before ++ c :: body)) =
        some (place (byteSize (before ++ c :: body)) (readCode shellComments after))) :
    scanFrom? line bytes shellComments false (byteSize before) (byteSize before) =
      some (place (byteSize before) (readCode shellComments (c :: rest))) := by
  obtain ⟨hmark, tail, htail⟩ := Lexeme.opening_eq_quote_iff.mp hopening
  obtain ⟨rfl, -⟩ := List.cons.inj htail
  have hascii : c.val ≤ 127 := by
    obtain rfl | rfl := hmark <;> decide
  have hplain : c ≠ '\\' := by
    obtain rfl | rfl := hmark <;> decide
  obtain ⟨hposition, hat⟩ := openingAt_eq hbytes hline hopening nofun
  have hsize : bytes.size = byteSize (before ++ c :: rest) := by
    rw [← hline, ← length_utf8, ← hbytes, Array.length_toList]
  -- The quotation begins behind its opening mark, which is no backslash.
  have hcount : Quote.countLeading '\\' (before ++ [c]).reverse = Quote.countLeading '\\' [c] := by
    rw [List.reverse_append, List.reverse_singleton, List.singleton_append,
      Quote.countLeading_cons, Quote.countLeading_cons, if_neg hplain, if_neg hplain]
  have hstart : byteSize (before ++ [c]) = byteSize before + 1 := by
    rw [Text.byteSize_append, Text.byteSize_cons, Char.utf8Size_eq_one_iff.mpr hascii]
    rfl
  have hbytesBehind : bytes.toList = utf8 (before ++ [c]) ++ utf8 rest := by
    rw [hbytes, hline]
    simp
  have hsearch := search?_utf8 (show '\\'.val ≤ 127 by decide) hascii hbytesBehind
  rw [close?_congr hcount, hstart] at hsearch
  rw [scanFrom?_of_search? hposition hat hsearch, readCode, firstLexeme, hopening]
  cases hbody : Quote.close? '\\' c [c] rest with
  | none =>
      simp only [Option.map_none, Option.elim_none, hbody, readCode]
      exact emit?_eq_last ⟨by rw [hline, List.append_nil], rfl, hsize.symm⟩
  | some ends =>
      obtain ⟨body, after⟩ := ends
      have hcut : IsCut line (byteSize before) (byteSize (before ++ c :: body)) before (c :: body)
          after :=
        ⟨by rw [hline, Quote.append_of_close? hbody]; simp, rfl, rfl⟩
      have hbehind : before ++ [c] ++ body = before ++ c :: body := by simp
      simp only [Option.map_some, Option.elim_some, hbody, hbehind, hcode body after hbody]
      exact emit?_eq hcut

/-- From plain text that is pending on, the loop finds the spans that the reader's lexemes have. -/
theorem scanFrom?_code (hbytes : bytes.toList = utf8 line.toList)
    (hline : line.toList = before ++ run ++ rest) (hrun : OpensNothing shellComments run rest) :
    scanFrom? line bytes shellComments false (byteSize before) (byteSize (before ++ run)) =
      some (place (byteSize before) (readCode shellComments (run ++ rest))) := by
  induction hlength : rest.length using Nat.strong_induction_on generalizing before run rest with
  | _ length ih =>
  subst hlength
  cases rest with
  | nil =>
      rw [hrun.readCode_eq fun hne => absurd rfl hne, scanFrom?_end hbytes hline, afterPlain,
        readCode]
      split <;> rfl
  | cons c later =>
      -- Behind a lexeme nothing is pending, and less is left.
      have hbehind {part after : List Char} (hparts : c :: later = part ++ after)
          (hne : part ≠ []) :
          scanFrom? line bytes shellComments false (byteSize (before ++ run ++ part))
              (byteSize (before ++ run ++ part)) =
            some (place (byteSize (before ++ run ++ part)) (readCode shellComments after)) := by
        have hpart := List.length_pos_of_ne_nil hne
        have hless : after.length < (c :: later).length := by
          rw [hparts, List.length_append]
          omega
        have hline' : line.toList = before ++ run ++ part ++ [] ++ after := by
          rw [hline, hparts, List.append_nil, ← List.append_assoc]
        have hscan := ih after.length hless hline' trivial rfl
        rwa [List.append_nil] at hscan
      by_cases hplain : opening shellComments (c :: later) = .plain
      · have hbytes' : bytes.toList = utf8 (before ++ run) ++ utf8 (c :: later) := by
          rw [hbytes, hline, utf8_append]
        have hline' : line.toList = before ++ (run ++ [c]) ++ later := by
          rw [hline]
          simp
        have hscan := ih later.length (Nat.lt_succ_self _) hline' (hrun.snoc hplain) rfl
        rw [scanFrom?_of_plain hbytes' hplain, List.append_assoc before, hscan]
        simp
      · obtain ⟨hposition, hat⟩ := openingAt_eq hbytes hline rfl hplain
        rw [scanFrom?_opening hposition (by rw [hat]; exact hplain),
          hrun.readCode_eq fun _ => hplain, ← emitPlain?_eq ⟨hline, rfl, rfl⟩]
        congr 1
        cases hopening : opening shellComments (c :: later) with
        | plain => exact absurd hopening hplain
        | lineComment => exact scanFrom?_lineComment hbytes hline hopening
        | blockComment =>
            obtain ⟨tail, htail⟩ := Lexeme.opening_eq_blockComment_iff.mp hopening
            obtain ⟨rfl, rfl⟩ := List.cons.inj htail
            refine scanFrom?_blockComment hbytes hline fun body after hbody => ?_
            have hparts : '/' :: '*' :: tail = '/' :: '*' :: body ++ after :=
              congrArg ('/' :: '*' :: ·) (Lexeme.append_of_blockEnd? hbody)
            exact hbehind hparts (List.cons_ne_nil _ _)
        | quote mark =>
            refine scanFrom?_quote hbytes hline hopening fun body after hbody => ?_
            exact hbehind (congrArg (c :: ·) (Quote.append_of_close? hbody)) (List.cons_ne_nil _ _)

/-- The byte loop cuts each line at edges of characters only, and it finds the spans of the line. -/
theorem scanBytes?_eq (line : String) (startsInComment shellComments : Bool) :
    scanBytes? line startsInComment shellComments =
      some (scan line startsInComment shellComments) := by
  have hbytes := toList_toUTF8_data line
  have hcode {before rest : List Char} (hline : line.toList = before ++ rest) :
      scanFrom? line line.toUTF8.data shellComments false (byteSize before) (byteSize before) =
        some (place (byteSize before) (readCode shellComments rest)) := by
    have hline' : line.toList = before ++ [] ++ rest := by rw [hline, List.append_nil]
    have hnothing : OpensNothing shellComments [] rest := trivial
    have hscan := scanFrom?_code hbytes hline' hnothing
    rwa [List.append_nil] at hscan
  rw [scanBytes?, scan, read]
  cases startsInComment with
  | false => exact hcode (List.nil_append _).symm
  | true =>
      rw [if_pos rfl, readComment_eq]
      have hline : line.toList = [] ++ [] ++ line.toList := rfl
      refine scanFrom?_comment hbytes hline fun body after hbody => ?_
      exact hcode (Lexeme.append_of_blockEnd? hbody)

end Highlight.Line
