/-!
# The end of a quotation

A quotation ends at the first closing mark that is not escaped, and a mark is escaped if an odd
number of escape marks stands directly before it. The marks are a parameter, so the rule holds for
any kind of symbol.
-/

namespace Highlight.Quote

variable {α : Type} [DecidableEq α]

/-- The number of marks at the front of a list. -/
def countLeading (mark : α) (symbols : List α) : Nat :=
  (symbols.takeWhile (· == mark)).length

/-- A mark prolongs the marks after it, and any other symbol hides them. -/
theorem countLeading_cons (mark symbol : α) (symbols : List α) :
    countLeading mark (symbol :: symbols) =
      if symbol = mark then countLeading mark symbols + 1 else 0 := by
  rw [countLeading, List.takeWhile_cons]
  by_cases h : symbol = mark
  · simp [h, countLeading]
  · simp [h]

/-- Whether a symbol is escaped can be told from the symbol before it and whether that one is. -/
theorem odd_countLeading_cons (mark symbol : α) (symbols : List α) :
    (countLeading mark (symbol :: symbols) % 2 == 1) =
      (symbol == mark && !(countLeading mark symbols % 2 == 1)) := by
  rw [countLeading_cons]
  by_cases h : symbol = mark
  · rcases Nat.mod_two_eq_zero_or_one (countLeading mark symbols) with heven | hodd
    · simp [h, Nat.add_mod, heven]
    · simp [h, Nat.add_mod, hodd]
  · simp [h]

/-- Cut `rest` just past its first unescaped closing mark. `passed` holds backwards what stands
before `rest`, so the marks directly before a symbol are counted at its front. -/
def close? (escape closing : α) (passed : List α) : List α → Option (List α × List α)
  | [] => none
  | symbol :: rest =>
      if symbol == closing && countLeading escape passed % 2 == 0 then
        some ([symbol], rest)
      else
        (close? escape closing (symbol :: passed) rest).map fun (body, rest) =>
          (symbol :: body, rest)

/-- The two parts that `close?` returns make up what it was given. -/
theorem append_of_close? {escape closing : α} {passed symbols body rest : List α}
    (h : close? escape closing passed symbols = some (body, rest)) : symbols = body ++ rest := by
  induction symbols generalizing passed body with
  | nil => simp [close?] at h
  | cons symbol symbols ih =>
      rw [close?] at h
      split at h
      · obtain ⟨rfl, rfl⟩ := by simpa using h
        rfl
      · obtain ⟨⟨body', rest'⟩, hclose, hparts⟩ := Option.map_eq_some_iff.mp h
        obtain ⟨rfl, rfl⟩ := by simpa using hparts
        rw [ih hclose, List.cons_append]

/-- The first `count` symbols, if there are as many. -/
def take? (symbols : List α) (count : Nat) : Option (List α) :=
  if count ≤ symbols.length then some (symbols.take count) else none

/-- What is left behind the first `count` symbols, if there are as many. -/
def drop? (symbols : List α) (count : Nat) : Option (List α) :=
  if count ≤ symbols.length then some (symbols.drop count) else none

/-- Search for the end of a quotation from position `first` on, and return the position just past
its closing mark. Each closing mark is looked at in turn. The search fails at a position outside the
text. -/
def search? (escape closing : α) (symbols : List α) (first : Nat) : Option (Option Nat) :=
  if _ : first < symbols.length then do
    let rest ← drop? symbols first
    match rest.findIdx? (· == closing) with
    | none => some none
    | some skipped =>
        let before ← take? symbols (first + skipped)
        if countLeading escape before.reverse % 2 = 0 then
          some (some (first + skipped + 1))
        else
          search? escape closing symbols (first + skipped + 1)
  else
    some none
termination_by symbols.length - first

/-- What is found lies behind the position from which the search starts. -/
theorem lt_of_search? {escape closing : α} {symbols : List α} {first stop : Nat}
    (h : search? escape closing symbols first = some (some stop)) : first < stop := by
  rw [search?] at h
  split at h
  · obtain ⟨rest, -, h⟩ := Option.bind_eq_some_iff.mp h
    split at h
    · cases h
    · obtain ⟨before, -, h⟩ := Option.bind_eq_some_iff.mp h
      split at h
      · cases h
        omega
      · have hlater := lt_of_search? h
        omega
  · cases h
termination_by symbols.length - first

end Highlight.Quote
