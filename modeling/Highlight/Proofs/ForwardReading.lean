import Highlight.Lexeme.Quote
import Mathlib.Data.Nat.Find

/-!
# Reading a quotation forward

`Quote.close?` tells an escaped closing mark by counting the escape marks before it. A reader that
goes forward need not count: it keeps in mind whether the next symbol is escaped, `escapes`. The
count is odd where the next symbol is escaped, `not_escaped_and_eq`, so both find the same end,
`length?_eq_some_iff`, or both find none, `length?_eq_none_iff`.

`search?` looks for the end by positions. It jumps from closing mark to closing mark and counts
backward from each, over symbols that it has passed before. The main theorem, `search_as_reader`,
says that this search always ends, looks at no position outside the text, and finds what the reader
finds.
-/

namespace Highlight.Quote

variable {α : Type} [DecidableEq α]

/-! ## The reader -/

/-- Whether the symbol after these is escaped, for a reader that begins outside an escape or inside
one. An escape mark outside an escape escapes the next symbol and no other. -/
def escapes (escape : α) (escaped : Bool) (symbols : List α) : Bool :=
  symbols.foldl (fun escaped symbol => !escaped && symbol == escape) escaped

/-- The reader meets an unescaped closing mark behind `count` symbols. -/
def UnescapedAt (escape closing : α) (escaped : Bool) (symbols : List α) (count : Nat) : Prop :=
  symbols[count]? = some closing ∧ escapes escape escaped (symbols.take count) = false

/-- The reader meets an unescaped closing mark behind `count` symbols, and none before. -/
def FirstUnescapedAt (escape closing : α) (escaped : Bool) (symbols : List α) (count : Nat) :
    Prop :=
  UnescapedAt escape closing escaped symbols count ∧
    ∀ fewer < count, ¬ UnescapedAt escape closing escaped symbols fewer

variable {escape closing symbol : α} {escaped : Bool} {symbols passed rest : List α} {count : Nat}

/-- Nothing closes in an empty text. -/
theorem not_unescapedAt_nil : ¬ UnescapedAt escape closing escaped [] count := by
  rintro ⟨hmark, -⟩
  cases hmark

/-- The first symbol closes if it is the mark and is not escaped. -/
theorem unescapedAt_zero : UnescapedAt escape closing escaped (symbol :: rest) 0 ↔
    symbol = closing ∧ escaped = false := by
  simp [UnescapedAt, escapes]

/-- Behind its first symbol the reader goes on, inside an escape or outside. -/
theorem unescapedAt_succ : UnescapedAt escape closing escaped (symbol :: rest) (count + 1) ↔
    UnescapedAt escape closing (!escaped && symbol == escape) rest count :=
  Iff.rfl

/-- A mark that closes at once is the first one. -/
theorem firstUnescapedAt_of_zero (h : UnescapedAt escape closing escaped symbols 0) :
    FirstUnescapedAt escape closing escaped symbols count ↔ count = 0 := by
  constructor
  · rintro ⟨-, hfirst⟩
    exact Nat.eq_zero_of_not_pos fun hpos => hfirst 0 hpos h
  · rintro rfl
    exact ⟨h, fun fewer hfewer => absurd hfewer (Nat.not_lt_zero fewer)⟩

/-- Otherwise the first one is the first one behind the first symbol. -/
theorem firstUnescapedAt_of_not_zero
    (h : ¬ UnescapedAt escape closing escaped (symbol :: rest) 0) :
    FirstUnescapedAt escape closing escaped (symbol :: rest) count ↔
      ∃ fewer, count = fewer + 1 ∧
        FirstUnescapedAt escape closing (!escaped && symbol == escape) rest fewer := by
  constructor
  · rintro ⟨hcount, hfirst⟩
    cases count with
    | zero => exact absurd hcount h
    | succ count =>
        refine ⟨count, rfl, unescapedAt_succ.mp hcount, fun fewer hfewer hother => ?_⟩
        exact hfirst (fewer + 1) (Nat.succ_lt_succ hfewer) (unescapedAt_succ.mpr hother)
  · rintro ⟨fewer, rfl, hfewer, hfirst⟩
    refine ⟨unescapedAt_succ.mpr hfewer, fun other hother => ?_⟩
    cases other with
    | zero => exact h
    | succ other => exact mt unescapedAt_succ.mp (hfirst other (Nat.lt_of_succ_lt_succ hother))

/-! ## Counting backward -/

/-- Behind a symbol that is no escape mark none are counted. -/
theorem countLeading_eq_zero (h : passed.head? ≠ some escape) : countLeading escape passed = 0 := by
  cases passed with
  | nil => rfl
  | cons symbol passed =>
      have hsymbol : symbol ≠ escape := fun heq => h (congrArg some heq)
      rw [countLeading_cons, if_neg hsymbol]

/-- Where the first symbol closes, the text ends with it. -/
theorem close?_cons_of_closes (h : symbol = closing ∧ countLeading escape passed % 2 = 0) :
    close? escape closing passed (symbol :: rest) = some ([symbol], rest) := by
  rw [close?, if_pos (by simpa using h)]

/-- Where the first symbol does not close, the end is searched in the rest. -/
theorem close?_cons_of_not_closes (h : ¬ (symbol = closing ∧ countLeading escape passed % 2 = 0)) :
    close? escape closing passed (symbol :: rest) =
      (close? escape closing (symbol :: passed) rest).map fun (body, rest) =>
        (symbol :: body, rest) := by
  rw [close?, if_neg (by simpa using h)]

/-- The length of the quotation that `close?` cuts off. -/
def length? (escape closing : α) (passed rest : List α) : Option Nat :=
  (close? escape closing passed rest).map fun (body, _) => body.length

/-- Where the first symbol closes, the length is one. -/
theorem length?_cons_of_closes (h : symbol = closing ∧ countLeading escape passed % 2 = 0) :
    length? escape closing passed (symbol :: rest) = some 1 := by
  rw [length?, close?_cons_of_closes h]
  rfl

/-- Where the first symbol does not close, the length is one more than that in the rest. -/
theorem length?_cons_of_not_closes
    (h : ¬ (symbol = closing ∧ countLeading escape passed % 2 = 0)) :
    length? escape closing passed (symbol :: rest) =
      (length? escape closing (symbol :: passed) rest).map (· + 1) := by
  rw [length?, close?_cons_of_not_closes h, length?, Option.map_map, Option.map_map]
  rfl

/-- A reader for whom a symbol is escaped if the count before it is odd meets an unescaped closing
mark where `close?` sees one. -/
theorem unescapedAt_zero_iff_closes :
    UnescapedAt escape closing (countLeading escape passed % 2 == 1) (symbol :: rest) 0 ↔
      symbol = closing ∧ countLeading escape passed % 2 = 0 := by
  rw [unescapedAt_zero, beq_eq_false_iff_ne, Nat.mod_two_ne_one]

/-- The reader stays in step: behind the symbol it is inside an escape if the count there is odd. -/
theorem not_escaped_and_eq (escape symbol : α) (passed : List α) :
    (!(countLeading escape passed % 2 == 1) && symbol == escape) =
      (countLeading escape (symbol :: passed) % 2 == 1) := by
  rw [odd_countLeading_cons, Bool.and_comm]

/-- A quotation ends behind the first closing mark that a reader meets unescaped. -/
theorem length?_eq_some_iff {length : Nat} : length? escape closing passed rest = some length ↔
    ∃ count, length = count + 1 ∧
      FirstUnescapedAt escape closing (countLeading escape passed % 2 == 1) rest count := by
  induction rest generalizing passed length with
  | nil =>
      constructor
      · intro h
        cases h
      · rintro ⟨count, -, hcount, -⟩
        exact absurd hcount not_unescapedAt_nil
  | cons symbol rest ih =>
      by_cases hcloses : symbol = closing ∧ countLeading escape passed % 2 = 0
      · rw [length?_cons_of_closes hcloses]
        simp only [firstUnescapedAt_of_zero (unescapedAt_zero_iff_closes.mpr hcloses),
          exists_eq_right, Option.some.injEq]
        exact eq_comm
      · simp only [length?_cons_of_not_closes hcloses, Option.map_eq_some_iff, ih,
          firstUnescapedAt_of_not_zero (mt unescapedAt_zero_iff_closes.mp hcloses),
          not_escaped_and_eq]
        constructor
        · rintro ⟨-, ⟨count, rfl, hcount⟩, rfl⟩
          exact ⟨count + 1, rfl, count, rfl, hcount⟩
        · rintro ⟨-, rfl, count, rfl, hcount⟩
          exact ⟨count + 1, ⟨count, rfl, hcount⟩, rfl⟩

/-- Of the unescaped closing marks that a reader meets one is the first. -/
theorem UnescapedAt.exists_first (h : UnescapedAt escape closing escaped symbols count) :
    ∃ first, FirstUnescapedAt escape closing escaped symbols first := by
  classical
  have hexists : ∃ first, UnescapedAt escape closing escaped symbols first := ⟨count, h⟩
  exact ⟨Nat.find hexists, Nat.find_spec hexists, fun _ hfewer => Nat.find_min hexists hfewer⟩

/-- A quotation has no end if and only if the reader meets no closing mark unescaped. -/
theorem length?_eq_none_iff : length? escape closing passed rest = none ↔
    ∀ count, ¬ UnescapedAt escape closing (countLeading escape passed % 2 == 1) rest count := by
  constructor
  · intro hnone count hcount
    obtain ⟨first, hfirst⟩ := hcount.exists_first
    have hsome := length?_eq_some_iff.mpr ⟨first, rfl, hfirst⟩
    rw [hnone] at hsome
    cases hsome
  · intro h
    refine Option.eq_none_iff_forall_ne_some.mpr fun length hsome => ?_
    obtain ⟨count, -, hcount, -⟩ := length?_eq_some_iff.mp hsome
    exact h count hcount

/-- Symbols that are no closing marks are passed over. -/
theorem length?_append {run : List α} (h : closing ∉ run) (passed rest : List α) :
    length? escape closing passed (run ++ rest) =
      (length? escape closing (run.reverse ++ passed) rest).map (run.length + ·) := by
  induction run generalizing passed with
  | nil => simp
  | cons symbol run ih =>
      rw [List.mem_cons, not_or] at h
      rw [List.cons_append, length?_cons_of_not_closes fun hcloses => h.1 hcloses.1.symm, ih h.2,
        Option.map_map, List.reverse_cons, List.append_assoc, List.singleton_append,
        List.length_cons]
      congr 1
      funext length
      show run.length + length + 1 = run.length + 1 + length
      omega

/-- A text without a closing mark has no end of a quotation. -/
theorem length?_of_not_mem (h : closing ∉ rest) (passed : List α) :
    length? escape closing passed rest = none := by
  rw [← List.append_nil rest, length?_append h]
  rfl

/-- The first closing mark either ends the quotation, or it is passed over too. -/
theorem length?_append_mark {run : List α} (h : closing ∉ run) (passed after : List α) :
    length? escape closing passed (run ++ closing :: after) =
      if countLeading escape (run.reverse ++ passed) % 2 = 0 then some (run.length + 1)
      else (length? escape closing (closing :: (run.reverse ++ passed)) after).map
        (run.length + 1 + ·) := by
  rw [length?_append h]
  split
  · rename_i heven
    rw [length?_cons_of_closes ⟨rfl, heven⟩]
    rfl
  · rename_i hodd
    rw [length?_cons_of_not_closes fun hcloses => hodd hcloses.2, Option.map_map]
    congr 1
    funext length
    show run.length + (length + 1) = run.length + 1 + length
    omega

/-! ## The search by positions -/

/-- The next closing mark, and what stands before it and behind it. -/
theorem eq_append_of_findIdx? {skipped : Nat} (h : rest.findIdx? (· == closing) = some skipped) :
    ∃ run after, rest = run ++ closing :: after ∧ run.length = skipped ∧ closing ∉ run := by
  obtain ⟨hlt, hmark, hbefore⟩ := List.findIdx?_eq_some_iff_getElem.mp h
  have hlength : (rest.take skipped).length = skipped :=
    List.length_take_of_le (Nat.le_of_lt hlt)
  refine ⟨rest.take skipped, rest.drop (skipped + 1), ?_, hlength, ?_⟩
  · rw [← eq_of_beq hmark, List.getElem_cons_drop, List.take_append_drop]
  · intro hmem
    obtain ⟨index, hindex, heq⟩ := List.getElem_of_mem hmem
    rw [hlength] at hindex
    rw [List.getElem_take] at heq
    exact hbefore index hindex (beq_iff_eq.mpr heq)

/-- A mark that is not found is not there. -/
theorem not_mem_of_findIdx? (h : rest.findIdx? (· == closing) = none) : closing ∉ rest := by
  intro hmem
  have hother := List.findIdx?_eq_none_iff.mp h closing hmem
  rw [beq_self_eq_true] at hother
  cases hother

/-- The search looks at no position outside the text, and finds what `close?` finds. -/
theorem search?_eq (escape closing : α) (symbols : List α) (first : Nat) :
    search? escape closing symbols first =
      some ((length? escape closing (symbols.take first).reverse (symbols.drop first)).map
        (first + ·)) := by
  rw [search?]
  split
  · rename_i hfirst
    have hdrop : drop? symbols first = some (symbols.drop first) := if_pos (Nat.le_of_lt hfirst)
    simp only [hdrop, Option.bind_eq_bind, Option.bind_some]
    cases hfind : (symbols.drop first).findIdx? (· == closing) with
    | none =>
        rw [length?_of_not_mem (not_mem_of_findIdx? hfind)]
        rfl
    | some skipped =>
        obtain ⟨run, after, hrest, rfl, hmark⟩ := eq_append_of_findIdx? hfind
        have hle : first + run.length ≤ symbols.length := by
          have hlength := congrArg List.length hrest
          rw [List.length_drop, List.length_append] at hlength
          omega
        have hbefore : (symbols.take (first + run.length)).reverse =
            run.reverse ++ (symbols.take first).reverse := by
          rw [List.take_add, hrest, List.take_left, List.reverse_append]
        have htake : take? symbols (first + run.length) =
            some (symbols.take (first + run.length)) := if_pos hle
        simp only [htake, Option.bind_some, hbefore, hrest, length?_append_mark hmark]
        split
        · rfl
        · -- The mark is escaped. The search goes on behind it, with one more symbol passed.
          have hlonger : (symbols.take (first + run.length + 1)).reverse =
              closing :: (run.reverse ++ (symbols.take first).reverse) := by
            rw [Nat.add_assoc, List.take_add, hrest, List.take_length_add_append,
              List.reverse_append, List.reverse_append]
            rfl
          have hshorter : symbols.drop (first + run.length + 1) = after := by
            rw [Nat.add_assoc, ← List.drop_drop, hrest, List.drop_length_add_append]
            rfl
          rw [search?_eq escape closing symbols (first + run.length + 1), hlonger, hshorter,
            Option.map_map]
          congr 3
          funext length
          show first + run.length + 1 + length = first + (run.length + 1 + length)
          omega
  · rename_i hfirst
    rw [List.drop_of_length_le (Nat.le_of_not_lt hfirst)]
    rfl
termination_by symbols.length - first

/-- The search for the end of a quotation ends without a look outside the text, whatever the marks.
If no escape mark stands directly before the position from which it starts, it finds the position
just past the first closing mark that a reader meets unescaped who starts there outside an escape,
and nothing if the reader meets none. It is what `close?` cuts off. -/
theorem search_as_reader (escape closing : α) {symbols : List α} {first : Nat}
    (hbefore : (symbols.take first).getLast? ≠ some escape) :
    ∃ result, search? escape closing symbols first = some result ∧
      result = (close? escape closing (symbols.take first).reverse (symbols.drop first)).map
        (fun (body, _) => first + body.length) ∧
      (∀ stop, result = some stop ↔ ∃ count, stop = first + count + 1 ∧
        FirstUnescapedAt escape closing false (symbols.drop first) count) ∧
      (result = none ↔
        ∀ count, ¬ UnescapedAt escape closing false (symbols.drop first) count) := by
  have hcount : (countLeading escape (symbols.take first).reverse % 2 == 1) = false := by
    rw [countLeading_eq_zero (by rwa [List.head?_reverse])]
    rfl
  refine ⟨_, search?_eq escape closing symbols first, ?_, fun stop => ?_, ?_⟩
  · rw [length?, Option.map_map]
    rfl
  · simp only [Option.map_eq_some_iff, length?_eq_some_iff, hcount]
    constructor
    · rintro ⟨-, ⟨count, rfl, hfirst⟩, rfl⟩
      exact ⟨count, rfl, hfirst⟩
    · rintro ⟨count, rfl, hfirst⟩
      exact ⟨count + 1, ⟨count, rfl, hfirst⟩, rfl⟩
  · rw [Option.map_eq_none_iff, length?_eq_none_iff, hcount]

/-- In the bytes of `"a\"\\"b` the second quote is escaped, and the third is not, because the two
backslashes before it are an escape of their own. -/
theorem search_as_reader_past_escaped_quote :
    ([0x22, 0x61, 0x5C, 0x22, 0x5C, 0x5C, 0x22, 0x62].take 1 : List UInt8).getLast? ≠ some 0x5C ∧
      search? (0x5C : UInt8) 0x22 [0x22, 0x61, 0x5C, 0x22, 0x5C, 0x5C, 0x22, 0x62] 1 =
        some (some 7) ∧
      FirstUnescapedAt (0x5C : UInt8) 0x22 false [0x61, 0x5C, 0x22, 0x5C, 0x5C, 0x22, 0x62] 5 := by
  have hbefore : ([0x22, 0x61, 0x5C, 0x22, 0x5C, 0x5C, 0x22, 0x62].take 1 : List UInt8).getLast? ≠
      some 0x5C := by decide
  obtain ⟨result, hsearch, hclose, hsome, -⟩ := search_as_reader 0x5C 0x22 hbefore
  have hresult : result = some 7 := hclose.trans (by decide)
  obtain ⟨count, hcount, hfirst⟩ := (hsome 7).mp hresult
  obtain rfl : count = 5 := by omega
  exact ⟨hbefore, hresult ▸ hsearch, hfirst⟩

end Highlight.Quote
