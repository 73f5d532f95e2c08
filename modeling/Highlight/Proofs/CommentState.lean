import Highlight.CommentCache

/-!
# What the comment cache knows

`LineSource.beginsInComment` says whether a line begins inside a block comment by scanning all
lines before it. The cache holds these answers up to its horizon, but lines may change without
notice, and then only the entries up to some line can be relied on. `CommentCache.AccurateTo` says
how far that is. A query of a line within this limit gives the right answer and keeps the limit,
whatever stands beyond it: `AccurateTo.query`.
-/

namespace Highlight

variable {α β : Type} [LineSource α] [LineSource β]

/-- Whether a line begins inside a block comment: the state that the scans of all lines before it
hand on. -/
def LineSource.beginsInComment (lines : α) (shellComments : Bool) : Nat → Bool
  | 0 => false
  | line + 1 =>
      Line.endsInComment (lineText lines line) (beginsInComment lines shellComments line)
        shellComments

open LineSource (lineText beginsInComment)

/-- Where a line begins is decided by the lines before it. -/
theorem LineSource.beginsInComment_congr {lines : α} {others : β} {limit : Nat}
    (h : ∀ line < limit, lineText lines line = lineText others line) (shellComments : Bool)
    {line : Nat} (hline : line ≤ limit) :
    beginsInComment lines shellComments line = beginsInComment others shellComments line := by
  induction line with
  | zero => rfl
  | succ line ih => rw [beginsInComment, beginsInComment, h line hline, ih (Nat.le_of_lt hline)]

/-- If texts differ in one line only, and in both this line hands on the same state, then each line
begins alike in both. -/
theorem LineSource.beginsInComment_congr_of_ne {lines : α} {others : β} {shellComments : Bool}
    (changed : Nat) (h : ∀ line, line ≠ changed → lineText lines line = lineText others line)
    (hchanged :
      Line.endsInComment (lineText lines changed) (beginsInComment lines shellComments changed)
          shellComments =
        Line.endsInComment (lineText others changed) (beginsInComment lines shellComments changed)
          shellComments) (line : Nat) :
    beginsInComment lines shellComments line = beginsInComment others shellComments line := by
  induction line with
  | zero => rfl
  | succ line ih =>
      rw [beginsInComment, beginsInComment, ← ih]
      by_cases hline : line = changed
      · rw [hline]
        exact hchanged
      · rw [h line hline]

/-- The lines that can be relied on: all of them, or those up to some line. -/
inductive Limit where
  | all
  | upTo (last : Nat)
  deriving DecidableEq, Repr

namespace Limit

/-- The line is within the limit. -/
def Covers : Limit → Nat → Prop
  | all, _ => True
  | upTo last, line => line ≤ last

instance (limit : Limit) (line : Nat) : Decidable (limit.Covers line) :=
  match limit with
  | all => inferInstanceAs (Decidable True)
  | upTo last => inferInstanceAs (Decidable (line ≤ last))

/-- The limit when nothing behind the line can be relied on any more. -/
def lower : Limit → Nat → Limit
  | all, line => upTo line
  | upTo last, line => upTo (min last line)

variable {limit : Limit} {line index : Nat}

/-- The first line can always be relied on. -/
theorem covers_zero (limit : Limit) : limit.Covers 0 := by
  cases limit with
  | all => exact trivial
  | upTo last => exact Nat.zero_le last

/-- A limit covers the lines before those that it covers. -/
theorem Covers.of_le (h : limit.Covers line) (hle : index ≤ line) : limit.Covers index := by
  cases limit with
  | all => exact trivial
  | upTo last => exact Nat.le_trans hle h

/-- A limit that was lowered covers what it did up to the line. -/
theorem covers_lower : (limit.lower line).Covers index ↔ limit.Covers index ∧ index ≤ line := by
  cases limit with
  | all => exact ⟨fun h => ⟨trivial, h⟩, fun h => h.2⟩
  | upTo last => exact Nat.le_min

end Limit

namespace CommentCache

variable {cache : CommentCache} {lines : α} {shellComments : Bool} {limit : Limit}

/-- The entries up to the horizon and up to the limit are right. -/
def AccurateTo (limit : Limit) (cache : CommentCache) (lines : α) (shellComments : Bool) : Prop :=
  ∀ line ≤ cache.horizon, limit.Covers line →
    cache.entries.getD line false = beginsInComment lines shellComments line

/-- A new cache knows that the first line begins outside comments, which is always right. -/
theorem accurateTo_empty (lines : α) (shellComments : Bool) :
    AccurateTo .all empty lines shellComments := by
  intro line hline _
  obtain rfl := Nat.le_zero.mp hline
  rfl

/-- So does a cache that has forgotten everything. -/
theorem accurateTo_reset (cache : CommentCache) (lines : α) (shellComments : Bool) :
    AccurateTo .all cache.reset lines shellComments := by
  intro line hline _
  obtain rfl := Nat.le_zero.mp hline
  rw [reset, Array.getD_eq_getD_getElem?, Array.getElem?_setIfInBounds_self]
  split <;> rfl

/-- Moving the horizon back loses nothing. -/
theorem AccurateTo.rewind (h : AccurateTo limit cache lines shellComments) (line : Nat) :
    AccurateTo limit (cache.rewind line) lines shellComments :=
  fun index hindex => h index (Nat.le_trans hindex (Nat.min_le_right _ _))

/-- Moving the horizon back to a line within the limit leaves only entries that are right. -/
theorem AccurateTo.rewind_of_le (h : AccurateTo limit cache lines shellComments) {line : Nat}
    (hline : limit.Covers line) :
    AccurateTo .all (cache.rewind line) lines shellComments := by
  intro index hindex _
  obtain ⟨hle, hhorizon⟩ := Nat.le_min.mp hindex
  exact h index hhorizon (hline.of_le hle)

/-- Lines that change from `first` on leave the entries up to `first` as right as they were. -/
theorem AccurateTo.congr {others : β} {first : Nat}
    (h : AccurateTo limit cache lines shellComments)
    (hsame : ∀ line < first, lineText lines line = lineText others line) :
    AccurateTo (limit.lower first) cache others shellComments := by
  intro line hhorizon hline
  obtain ⟨hlimit, hfirst⟩ := Limit.covers_lower.mp hline
  rw [h line hhorizon hlimit,
    LineSource.beginsInComment_congr hsame shellComments hfirst]

/-- Only where lines begin matters to a cache. -/
theorem AccurateTo.of_beginsInComment_eq {others : β}
    (h : AccurateTo limit cache lines shellComments)
    (heq : ∀ line,
      beginsInComment lines shellComments line = beginsInComment others shellComments line) :
    AccurateTo limit cache others shellComments :=
  fun line hhorizon hline => (h line hhorizon hline).trans (heq line)

/-- Scanning on from a right entry notes right entries. -/
theorem getD_advance {count line index : Nat} {entries : Array Bool}
    (hsize : line + count < entries.size)
    (hentry : entries.getD line false = beginsInComment lines shellComments line)
    (hfrom : line ≤ index) (hto : index ≤ line + count) :
    (advance lines shellComments count line entries).getD index false =
      beginsInComment lines shellComments index := by
  induction count generalizing line entries with
  | zero =>
      obtain rfl := Nat.le_antisymm hfrom hto
      exact hentry
  | succ count ih =>
      rcases Nat.eq_or_lt_of_le hfrom with rfl | hlt
      · rw [getD_advance_of_le (Nat.le_refl _), hentry]
      · rw [advance]
        refine ih ?_ ?_ hlt (by omega)
        · rw [Array.size_setIfInBounds]
          omega
        · rw [hentry, Array.getD_eq_getD_getElem?, Array.getElem?_setIfInBounds_self,
            if_pos (by omega)]
          rfl

/-- Growing the storage shows in no entry. -/
theorem getD_grow_eq (entries : Array Bool) (line index : Nat) :
    (grow entries line).getD index false = entries.getD index false := by
  by_cases hindex : index < entries.size
  · exact getD_grow hindex
  · have hold : entries.getD index false = false := dif_neg hindex
    rw [hold, grow]
    by_cases hline : line < entries.size
    · rw [if_pos hline, hold]
    · rw [if_neg hline, Array.getD_eq_getD_getElem?,
        Array.getElem?_append_right (Nat.le_of_not_lt hindex), Array.getElem?_replicate]
      split <;> rfl

/-- Moving the horizon forward keeps what is known. -/
theorem AccurateTo.extendTo (h : AccurateTo limit cache lines shellComments) (line : Nat) :
    AccurateTo limit (cache.extendTo lines line shellComments) lines shellComments := by
  unfold CommentCache.extendTo
  split
  · rename_i hhorizon
    intro index hindex hlimit
    have hsize : cache.horizon + (line - cache.horizon) < (grow cache.entries line).size := by
      have := lt_size_grow cache.entries line
      omega
    -- Entries up to the old horizon stay, and the scan goes on from the last of them.
    rcases Nat.le_total index cache.horizon with hle | hge
    · rw [getD_advance_of_le hle, getD_grow_eq, h index hle hlimit]
    · have hlast : limit.Covers cache.horizon := hlimit.of_le hge
      refine getD_advance hsize ?_ hge (by simp only at hindex; omega)
      rw [getD_grow_eq, h cache.horizon (Nat.le_refl _) hlast]
  · exact h

/-- After a query's line is known the horizon is not before it. -/
theorem le_horizon_extendTo (cache : CommentCache) (lines : α) (line : Nat) (shellComments : Bool) :
    line ≤ (cache.extendTo lines line shellComments).horizon := by
  unfold CommentCache.extendTo
  split
  · exact Nat.le_refl _
  · omega

/-- A query of a line within the limit gives the right answer. -/
theorem AccurateTo.query (h : AccurateTo limit cache lines shellComments) {line : Nat}
    (hcount : line < lineCount lines) (hline : limit.Covers line) :
    cache.query lines line shellComments =
      .ok (beginsInComment lines shellComments line, cache.extendTo lines line shellComments) := by
  rw [query_eq, if_pos (Nat.lt_of_lt_of_le hcount (Nat.le_max_left _ _)),
    ← h.extendTo line line (le_horizon_extendTo ..) hline]

/-- What a query leaves behind is the cache with its horizon moved to the line. -/
theorem extendTo_of_query {after : CommentCache} {line : Nat} {starts : Bool}
    (h : cache.query lines line shellComments = .ok (starts, after)) :
    after = cache.extendTo lines line shellComments := by
  rw [query_eq] at h
  split at h
  · obtain ⟨-, rfl⟩ := Prod.mk.inj (Except.ok.inj h)
    rfl
  · cases h

/-! ## Storage -/

/-- There is an entry for each line up to the horizon. -/
def Roomy (cache : CommentCache) : Prop :=
  cache.horizon < cache.capacity

/-- The empty cache is roomy. -/
theorem roomy_empty : empty.Roomy := by
  rw [Roomy, capacity, empty, Array.size_replicate]
  exact Nat.zero_lt_succ _

/-- A cache that was reset is roomy. -/
theorem Roomy.reset (h : cache.Roomy) : cache.reset.Roomy := by
  rw [Roomy, capacity, CommentCache.reset, Array.size_setIfInBounds]
  exact Nat.zero_lt_of_lt h

/-- A cache that was rewound is roomy. -/
theorem Roomy.rewind (h : cache.Roomy) (line : Nat) : (cache.rewind line).Roomy :=
  Nat.lt_of_le_of_lt (Nat.min_le_right line cache.horizon) h

/-- A cache that was extended is roomy. -/
theorem Roomy.extendTo (h : cache.Roomy) (lines : α) (line : Nat) (shellComments : Bool) :
    (cache.extendTo lines line shellComments).Roomy := by
  unfold CommentCache.extendTo
  split
  · rw [Roomy, capacity, size_advance]
    exact lt_size_grow cache.entries line
  · exact h

end CommentCache

end Highlight
