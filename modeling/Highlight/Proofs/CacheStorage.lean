import Highlight.Proofs.CommentState

/-!
# The storage of a comment cache

The entries of a cache are read and written with a default for those that are not there.
`CommentCache.queryChecked?` is a query that has no default: it comes to nothing at the first entry
that is missing. It is the same as a query on every cache that has an entry for each line up to its
horizon, `Roomy.queryChecked?_eq`.

`Life` follows a cache from its beginning, together with the lines to which queries have moved its
horizon. `Stored.next` says that one use keeps the storage between these bounds: it holds all lines
ever reached, and at most twice as many. The main theorem, `storage_of_history`, says so of every
history.
-/

namespace Highlight

open LineSource (lineText)

variable {α : Type} [LineSource α]

namespace CommentCache

/-! ## Checked access -/

/-- Write an entry that is there. -/
def set? (entries : Array Bool) (index : Nat) (value : Bool) : Option (Array Bool) :=
  if h : index < entries.size then some (entries.set index value h) else none

/-- Scan lines as `advance` does, but stop at an entry that is not there. -/
def advanceChecked? (lines : α) (shellComments : Bool) :
    Nat → Nat → Array Bool → Option (Array Bool)
  | 0, _, entries => some entries
  | count + 1, line, entries => do
      let starts ← entries[line]?
      let ends := Line.endsInComment (lineText lines line) starts shellComments
      let entries ← set? entries (line + 1) ends
      advanceChecked? lines shellComments count (line + 1) entries

/-- Move the horizon forward as `extendTo` does, but only over entries that are there. -/
def extendToChecked? (cache : CommentCache) (lines : α) (line : Nat) (shellComments : Bool) :
    Option CommentCache :=
  if cache.horizon < line then do
    let entries ← advanceChecked? lines shellComments (line - cache.horizon) cache.horizon
      (grow cache.entries line)
    some ⟨entries, line⟩
  else
    some cache

/-- Answer as `query` does, but only from entries that are there. A line that is missing is not
looked up. -/
def queryChecked? (cache : CommentCache) (lines : α) (line : Nat) (shellComments : Bool) :
    Option (Except LineOutOfRange (Bool × CommentCache)) :=
  if line < max (lineCount lines) 1 then do
    let cache ← cache.extendToChecked? lines line shellComments
    let starts ← cache.entries[line]?
    some (.ok (starts, cache))
  else
    some (.error ⟨line, lineCount lines⟩)

variable {cache : CommentCache} {entries : Array Bool} {index : Nat}

/-- An entry in bounds is read. -/
theorem getElem?_eq_getD (h : index < entries.size) :
    entries[index]? = some (entries.getD index false) := by
  rw [Array.getElem?_eq_getElem h, Array.getElem_eq_getD false]

/-- An entry in bounds is written. -/
theorem set?_eq (h : index < entries.size) (value : Bool) :
    set? entries index value = some (entries.setIfInBounds index value) := by
  rw [set?, dif_pos h, Array.setIfInBounds, dif_pos h]

/-- Lines are scanned over entries that are there if there is one behind the last of them. -/
theorem advanceChecked?_eq {count line : Nat} (lines : α) (shellComments : Bool)
    (h : line + count < entries.size) :
    advanceChecked? lines shellComments count line entries =
      some (advance lines shellComments count line entries) := by
  induction count generalizing line entries with
  | zero => rfl
  | succ count ih =>
      have hline : line < entries.size := by omega
      have hnext : line + 1 < entries.size := by omega
      have hscan (ends : Bool) :
          advanceChecked? lines shellComments count (line + 1)
              (entries.setIfInBounds (line + 1) ends) =
            some (advance lines shellComments count (line + 1)
              (entries.setIfInBounds (line + 1) ends)) :=
        ih (by rw [Array.size_setIfInBounds]; omega)
      simp only [advanceChecked?, advance, getElem?_eq_getD hline, set?_eq hnext, hscan,
        Option.bind_eq_bind, Option.bind_some]

/-- The horizon moves over entries that are there only: room is made for them before. -/
theorem extendToChecked?_eq (cache : CommentCache) (lines : α) (line : Nat)
    (shellComments : Bool) :
    cache.extendToChecked? lines line shellComments =
      some (cache.extendTo lines line shellComments) := by
  rw [extendToChecked?, extendTo]
  split
  · rename_i hline
    have hsize : cache.horizon + (line - cache.horizon) < (grow cache.entries line).size := by
      have := lt_size_grow cache.entries line
      omega
    rw [advanceChecked?_eq lines shellComments hsize]
    rfl
  · rfl

/-- A cache with an entry for each line up to its horizon answers from entries that are there. -/
theorem Roomy.queryChecked?_eq (h : cache.Roomy) (lines : α) (line : Nat) (shellComments : Bool) :
    cache.queryChecked? lines line shellComments =
      some (cache.query lines line shellComments) := by
  rw [queryChecked?, query_eq]
  split
  · have hroomy := h.extendTo lines line shellComments
    have hline : line < (cache.extendTo lines line shellComments).entries.size :=
      Nat.lt_of_le_of_lt (le_horizon_extendTo ..) hroomy
    rw [extendToChecked?_eq, Option.bind_eq_bind, Option.bind_some, getElem?_eq_getD hline]
    rfl
  · rfl

/-! ## Growing -/

/-- The storage stays if it has the line, and else grows to the line or to twice its size, whichever
is more. -/
theorem size_grow (entries : Array Bool) (line : Nat) :
    (grow entries line).size =
      if line < entries.size then entries.size else max (line + 1) (entries.size * 2) := by
  rw [grow]
  split
  · rfl
  · rw [Array.size_append, Array.size_replicate]
    omega

/-- The line just past the end doubles the storage, and one far behind it gets room for itself. -/
example : (grow #[false, false] 2).size = 4 ∧ (grow #[false, false] 8).size = 9 := by
  decide

/-- A query of a line behind the horizon makes room for it. -/
theorem capacity_extendTo {line : Nat} (h : cache.horizon < line) (lines : α)
    (shellComments : Bool) :
    (cache.extendTo lines line shellComments).capacity =
      if line < cache.capacity then cache.capacity else max (line + 1) (cache.capacity * 2) := by
  rw [extendTo, if_pos h, capacity, size_advance, size_grow]
  rfl

/-- Rewinding keeps the storage. -/
@[simp]
theorem capacity_rewind (cache : CommentCache) (line : Nat) :
    (cache.rewind line).capacity = cache.capacity := rfl

/-- Resetting keeps the storage. -/
@[simp]
theorem capacity_reset (cache : CommentCache) : cache.reset.capacity = cache.capacity :=
  Array.size_setIfInBounds ..

/-! ## Histories -/

/-- What is done with a cache. Each query says for itself whether there are shell comments. -/
inductive Use (α : Type) where
  | query (line : Nat) (shellComments : Bool)
  | rewind (line : Nat)
  | reset
  /-- The cache is asked about other lines from now on. It is not told. -/
  | replaceLines (lines : α)

/-- A cache, the lines as they are, and the lines to which queries have moved its horizon forward,
the latest first. -/
structure Life (α : Type) where
  cache : CommentCache
  lines : α
  reached : List Nat

namespace Life

/-- A new cache. -/
def start (lines : α) : Life α :=
  ⟨.empty, lines, []⟩

/-- One use. A query leaves its cache, also if it asks for a missing line. A line is reached where
the horizon was moved forward. -/
def next (life : Life α) : Use α → Life α
  | .query line shellComments =>
      let cache := (life.cache.ask life.lines line shellComments).2
      { life with
        cache := cache
        reached := if life.cache.horizon < cache.horizon then line :: life.reached
          else life.reached }
  | .rewind line => { life with cache := life.cache.rewind line }
  | .reset => { life with cache := life.cache.reset }
  | .replaceLines lines => { life with lines := lines }

/-- Uses one after the other. -/
def run (life : Life α) (uses : List (Use α)) : Life α :=
  uses.foldl next life

/-- The greatest line to which a query has moved the horizon, or the first line if none has. -/
def furthest (life : Life α) : Nat :=
  life.reached.foldr max 0

/-- The cache has entries for all lines that it has reached, and not many more. -/
structure Stored (life : Life α) : Prop where
  horizon_le : life.cache.horizon ≤ life.furthest
  furthest_lt : life.furthest < life.cache.capacity
  le_capacity : 100 ≤ life.cache.capacity
  capacity_le : life.cache.capacity ≤ max 100 (2 * life.furthest)

/-- One use does not take entries away. It adds some only if it is a query of a line for which there
is no entry, and then at least as many as there were. -/
structure GrowsOnDemand (life : Life α) (use : Use α) : Prop where
  capacity_le : life.cache.capacity ≤ (life.next use).cache.capacity
  two_mul_le : (life.next use).cache.capacity ≠ life.cache.capacity →
    2 * life.cache.capacity ≤ (life.next use).cache.capacity
  exists_query : (life.next use).cache.capacity ≠ life.cache.capacity →
    ∃ line shellComments, use = .query line shellComments ∧
      line < max (lineCount life.lines) 1 ∧ life.cache.capacity ≤ line

variable {life : Life α}

/-- A query either finds its line out of range or known, which changes nothing, or it moves the
horizon forward to the line. -/
theorem next_query (life : Life α) (line : Nat) (shellComments : Bool) :
    life.next (.query line shellComments) = life ∨
      line < max (lineCount life.lines) 1 ∧ life.cache.horizon < line ∧
        life.next (.query line shellComments) =
          ⟨life.cache.extendTo life.lines line shellComments, life.lines,
            line :: life.reached⟩ := by
  have hleft : (life.cache.ask life.lines line shellComments).2 =
      if line < max (lineCount life.lines) 1 then
        life.cache.extendTo life.lines line shellComments
      else life.cache := by
    rw [ask]
    split <;> rfl
  rw [next, hleft]
  by_cases hcount : line < max (lineCount life.lines) 1
  · rw [if_pos hcount, extendTo]
    by_cases hline : life.cache.horizon < line
    · refine .inr ⟨hcount, hline, ?_⟩
      simp only [if_pos hline]
    · refine .inl ?_
      simp only [if_neg hline, Nat.lt_irrefl, if_false]
  · refine .inl ?_
    simp only [if_neg hcount, Nat.lt_irrefl, if_false]

omit [LineSource α] in
/-- A new cache has entries for what it has reached. -/
theorem stored_start (lines : α) : (start lines).Stored := by
  have hcapacity : (start lines).cache.capacity = 100 := Array.size_replicate
  have hfurthest : (start lines).furthest = 0 := rfl
  exact ⟨Nat.zero_le _, by omega, by omega, by omega⟩

/-- Moving the horizon forward keeps the storage within its bounds. -/
theorem Stored.reach (h : life.Stored) {line : Nat} (hline : life.cache.horizon < line)
    (shellComments : Bool) :
    Stored ⟨life.cache.extendTo life.lines line shellComments, life.lines,
      line :: life.reached⟩ := by
  have hfurthest : furthest ⟨life.cache.extendTo life.lines line shellComments, life.lines,
      line :: life.reached⟩ = max line life.furthest := rfl
  have hcapacity := capacity_extendTo hline life.lines shellComments
  have hhorizon : (life.cache.extendTo life.lines line shellComments).horizon = line := by
    rw [extendTo, if_pos hline]
  have hlower := h.furthest_lt
  have hhundred := h.le_capacity
  have hupper := h.capacity_le
  constructor
  · rw [hfurthest, hhorizon]
    exact Nat.le_max_left ..
  · rw [hfurthest, hcapacity]
    split <;> omega
  · rw [hcapacity]
    split <;> omega
  · -- Storage that grows has no entry for the line yet: twice its size is at most twice the line.
    rw [hfurthest, hcapacity]
    split <;> omega

/-- One use keeps the storage within its bounds. -/
theorem Stored.next (h : life.Stored) (use : Use α) : (life.next use).Stored := by
  cases use with
  | query line shellComments =>
      obtain hsame | ⟨-, hline, hnext⟩ := next_query life line shellComments
      · rwa [hsame]
      · exact hnext ▸ h.reach hline shellComments
  | rewind line =>
      exact ⟨Nat.le_trans (Nat.min_le_right ..) h.horizon_le, h.furthest_lt, h.le_capacity,
        h.capacity_le⟩
  | reset =>
      have hcapacity := capacity_reset life.cache
      exact ⟨Nat.zero_le _, hcapacity.symm ▸ h.furthest_lt, hcapacity.symm ▸ h.le_capacity,
        hcapacity.symm ▸ h.capacity_le⟩
  | replaceLines lines => exact ⟨h.horizon_le, h.furthest_lt, h.le_capacity, h.capacity_le⟩

/-- Along a run the cache has entries for what it has reached. -/
theorem Stored.run (h : life.Stored) (uses : List (Use α)) : (life.run uses).Stored := by
  induction uses generalizing life with
  | nil => exact h
  | cons use rest ih => exact ih (h.next use)

omit [LineSource α] in
/-- A cache with entries for what it has reached is roomy. -/
theorem Stored.roomy (h : life.Stored) : life.cache.Roomy :=
  Nat.lt_of_le_of_lt h.horizon_le h.furthest_lt

/-- A use after which there are as many entries as before grows nothing. -/
theorem GrowsOnDemand.of_eq {use : Use α}
    (h : (life.next use).cache.capacity = life.cache.capacity) : life.GrowsOnDemand use :=
  ⟨Nat.le_of_eq h.symm, fun hne => absurd h hne, fun hne => absurd h hne⟩

/-- Each use makes the storage grow on demand only. -/
theorem growsOnDemand (life : Life α) (use : Use α) : life.GrowsOnDemand use := by
  cases use with
  | query line shellComments =>
      obtain hsame | ⟨hcount, hline, hnext⟩ := next_query life line shellComments
      · exact .of_eq (by rw [hsame])
      · have hcapacity : (life.next (.query line shellComments)).cache.capacity =
            if line < life.cache.capacity then life.cache.capacity
            else max (line + 1) (life.cache.capacity * 2) := by
          rw [hnext]
          exact capacity_extendTo hline life.lines shellComments
        by_cases hroom : line < life.cache.capacity
        · exact .of_eq (by rw [hcapacity, if_pos hroom])
        · rw [if_neg hroom] at hcapacity
          refine ⟨by omega, fun _ => by omega, fun _ => ⟨line, shellComments, rfl, hcount, ?_⟩⟩
          exact Nat.le_of_not_lt hroom
  | rewind line => exact .of_eq (capacity_rewind life.cache line)
  | reset => exact .of_eq (capacity_reset life.cache)
  | replaceLines lines => exact .of_eq rfl

/-- No use takes entries away, so in a history there are never fewer. -/
theorem capacity_le_run (life : Life α) (uses : List (Use α)) :
    life.cache.capacity ≤ (life.run uses).cache.capacity := by
  induction uses generalizing life with
  | nil => exact Nat.le_refl _
  | cons use rest ih => exact Nat.le_trans (life.growsOnDemand use).capacity_le (ih (life.next use))

end Life

/-- Whatever a new cache is asked or told, and however the lines change behind its back: it has
entries for all lines that it has ever reached, a hundred or else at most twice as many. It grows
only on demand and is never made smaller, and no query meets an entry that is not there. -/
theorem storage_of_history (lines : α) (uses : List (Use α)) :
    ((Life.start lines).run uses).Stored ∧
      (∀ use, ((Life.start lines).run uses).GrowsOnDemand use) ∧
      (∀ more, ((Life.start lines).run uses).cache.capacity ≤
        ((Life.start lines).run (uses ++ more)).cache.capacity) ∧
      ∀ (others : α) (line : Nat) (shellComments : Bool),
        ((Life.start lines).run uses).cache.queryChecked? others line shellComments =
          some (((Life.start lines).run uses).cache.query others line shellComments) := by
  have hstored := (Life.stored_start lines).run uses
  refine ⟨hstored, Life.growsOnDemand _, fun more => ?_, hstored.roomy.queryChecked?_eq⟩
  rw [Life.run, Life.run, List.foldl_append]
  exact Life.capacity_le_run _ more

end CommentCache

end Highlight
