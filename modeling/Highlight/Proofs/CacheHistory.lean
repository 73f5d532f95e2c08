import Highlight.Proofs.CommentState

/-!
# The history of a comment cache

A cache is asked about lines in any order and told to forget some of them, while the lines change
without its notice. `Situation.next` is one such event; it also follows up to which line the cache
has missed nothing. `Situation.run` is a history. `Accurate.next` shows that the cache stays
accurate up to there in one event, `Accurate.run` in a whole history, and `trusted_of_history`, the
main theorem, says what the cache then holds and answers. What a query does to a cache, stale or
not, is told entry by entry in `getD_extendTo_of_between` and `getD_extendTo_of_outside`.
-/

namespace Highlight

open LineSource (lineText beginsInComment)

variable {α : Type} [LineSource α]

/-- The state that `count` lines from `first` on hand to the line after them, if the first of them
is given the state `starts`. -/
def LineSource.carry (lines : α) (shellComments : Bool) (first : Nat) (starts : Bool) : Nat → Bool
  | 0 => starts
  | count + 1 =>
      Line.endsInComment (lineText lines (first + count))
        (carry lines shellComments first starts count) shellComments

open LineSource (carry)

/-- Lines hand on what the last of them make of what the others hand on. -/
theorem LineSource.carry_add (lines : α) (shellComments : Bool) (first : Nat) (starts : Bool)
    (count more : Nat) :
    carry lines shellComments first starts (count + more) =
      carry lines shellComments (first + count) (carry lines shellComments first starts count)
        more := by
  induction more with
  | zero => rfl
  | succ more ih => rw [← Nat.add_assoc, carry, carry, ih, Nat.add_assoc]

/-- The same from the other end: the first line hands its state to the rest. -/
theorem LineSource.carry_succ (lines : α) (shellComments : Bool) (first : Nat) (starts : Bool)
    (count : Nat) :
    carry lines shellComments first starts (count + 1) =
      carry lines shellComments (first + 1)
        (Line.endsInComment (lineText lines first) starts shellComments) count := by
  rw [Nat.add_comm, carry_add]
  rfl

namespace CommentCache

variable {cache : CommentCache} {lines : α} {shellComments : Bool}

/-! ## What a query does -/

/-- Scanning lines notes behind each of them what the lines so far hand on. -/
theorem getD_advance_of_lt {count line index : Nat} {entries : Array Bool}
    (hsize : line + count < entries.size) (hfrom : line ≤ index) (hto : index ≤ line + count) :
    (advance lines shellComments count line entries).getD index false =
      carry lines shellComments line (entries.getD line false) (index - line) := by
  induction count generalizing line entries with
  | zero =>
      obtain rfl := Nat.le_antisymm hfrom hto
      rw [Nat.sub_self]
      rfl
  | succ count ih =>
      rcases Nat.eq_or_lt_of_le hfrom with rfl | hlt
      · rw [getD_advance_of_le (Nat.le_refl _), Nat.sub_self]
        rfl
      · have hnoted : ∀ ends : Bool,
            (entries.setIfInBounds (line + 1) ends).getD (line + 1) false = ends := by
          intro ends
          rw [Array.getD_eq_getD_getElem?, Array.getElem?_setIfInBounds_self, if_pos (by omega)]
          rfl
        have hcount : index - line = index - (line + 1) + 1 := by omega
        rw [advance, ih (by rw [Array.size_setIfInBounds]; omega) hlt (by omega), hnoted, hcount,
          LineSource.carry_succ]

/-- Scanning lines leaves the entries behind the last of them alone. -/
theorem getD_advance_of_gt {count line index : Nat} {entries : Array Bool}
    (h : line + count < index) :
    (advance lines shellComments count line entries).getD index false =
      entries.getD index false := by
  induction count generalizing line entries with
  | zero => rfl
  | succ count ih =>
      rw [advance, ih (by omega), Array.getD_eq_getD_getElem?, Array.getElem?_setIfInBounds_ne,
        Array.getD_eq_getD_getElem?]
      omega

/-- Extending moves the horizon to the line, and never back. -/
@[simp]
theorem horizon_extendTo (cache : CommentCache) (lines : α) (line : Nat) (shellComments : Bool) :
    (cache.extendTo lines line shellComments).horizon = max cache.horizon line := by
  unfold CommentCache.extendTo
  split
  · rename_i hline
    exact (Nat.max_eq_right (Nat.le_of_lt hline)).symm
  · rename_i hline
    exact (Nat.max_eq_left (Nat.le_of_not_lt hline)).symm

/-- A query of a line that is known changes nothing. -/
theorem extendTo_of_le {line : Nat} (h : line ≤ cache.horizon) :
    cache.extendTo lines line shellComments = cache :=
  if_neg (Nat.not_lt.mpr h)

/-- The entries behind the horizon up to the line are what the lines hand on from the entry at the
horizon, be that right or not. -/
theorem getD_extendTo_of_between {line index : Nat} (hfrom : cache.horizon ≤ index)
    (hto : index ≤ line) :
    (cache.extendTo lines line shellComments).entries.getD index false =
      carry lines shellComments cache.horizon (cache.entries.getD cache.horizon false)
        (index - cache.horizon) := by
  rcases Nat.eq_or_lt_of_le (Nat.le_trans hfrom hto) with hline | hline
  · obtain rfl := Nat.le_antisymm (hline ▸ hto) hfrom
    rw [extendTo_of_le (Nat.le_of_eq hline.symm), Nat.sub_self]
    rfl
  · have hsize : cache.horizon + (line - cache.horizon) < (grow cache.entries line).size := by
      have := lt_size_grow cache.entries line
      omega
    rw [CommentCache.extendTo, if_pos hline, getD_advance_of_lt hsize hfrom (by omega),
      getD_grow_eq]

/-- A query leaves the entries up to the horizon and those behind the line alone. -/
theorem getD_extendTo_of_outside {line index : Nat} (h : index ≤ cache.horizon ∨ line < index) :
    (cache.extendTo lines line shellComments).entries.getD index false =
      cache.entries.getD index false := by
  unfold CommentCache.extendTo
  split
  · rcases h with hbefore | hbehind
    · rw [getD_advance_of_le hbefore, getD_grow_eq]
    · rw [getD_advance_of_gt (by omega), getD_grow_eq]
  · rfl

/-- The entry that a query of a line reads is the same whether another line was asked for before or
not. -/
theorem getD_extendTo_extendTo (cache : CommentCache) (lines : α) (first line : Nat)
    (shellComments : Bool) :
    ((cache.extendTo lines first shellComments).extendTo lines line
        shellComments).entries.getD line false =
      (cache.extendTo lines line shellComments).entries.getD line false := by
  rcases Nat.le_total first cache.horizon with hfirst | hfirst
  · rw [extendTo_of_le hfirst]
  · have hhorizon : (cache.extendTo lines first shellComments).horizon = first := by
      rw [horizon_extendTo, Nat.max_eq_right hfirst]
    have hstays (h : line ≤ first) : (cache.extendTo lines first shellComments).extendTo lines line
        shellComments = cache.extendTo lines first shellComments :=
      extendTo_of_le (hhorizon.symm ▸ h)
    rcases Nat.le_total line cache.horizon with hknown | hknown
    · rw [hstays (Nat.le_trans hknown hfirst), extendTo_of_le hknown,
        getD_extendTo_of_outside (.inl hknown)]
    · rcases Nat.le_total line first with hline | hline
      · rw [hstays hline, getD_extendTo_of_between hknown hline,
          getD_extendTo_of_between hknown (Nat.le_refl line)]
      · -- The second query goes on from where the first one stopped.
        rw [getD_extendTo_of_between (by omega) (Nat.le_refl line), hhorizon,
          getD_extendTo_of_between hfirst (Nat.le_refl first),
          getD_extendTo_of_between hknown (Nat.le_refl line),
          show line - cache.horizon = first - cache.horizon + (line - first) by omega,
          LineSource.carry_add, Nat.add_sub_of_le hfirst]

/-- After a query of a line the horizon is not before it. Nothing else tells the two caches apart:
the other entries are as they were, and every question is answered as it was before. -/
structure MovedTo (before after : CommentCache) (lines : α) (line : Nat) (shellComments : Bool) :
    Prop where
  horizon_eq : after.horizon = max before.horizon line
  getD_eq : ∀ index, index ≤ before.horizon ∨ line < index →
    after.entries.getD index false = before.entries.getD index false
  answer_eq : ∀ other, (after.query lines other shellComments).map Prod.fst =
    (before.query lines other shellComments).map Prod.fst

/-- What a query answers, and whether it does. -/
theorem map_query (cache : CommentCache) (lines : α) (line : Nat) (shellComments : Bool) :
    (cache.query lines line shellComments).map Prod.fst =
      if line < max (lineCount lines) 1 then
        .ok ((cache.extendTo lines line shellComments).entries.getD line false)
      else .error ⟨line, lineCount lines⟩ := by
  rw [query_eq]
  split <;> rfl

/-- Extending moves a cache to the line. -/
theorem movedTo_extendTo (cache : CommentCache) (lines : α) (line : Nat) (shellComments : Bool) :
    MovedTo cache (cache.extendTo lines line shellComments) lines line shellComments where
  horizon_eq := horizon_extendTo ..
  getD_eq _ h := getD_extendTo_of_outside h
  answer_eq other := by rw [map_query, map_query, getD_extendTo_extendTo]

/-! ## Histories -/

/-- What can happen to a cache and to the lines that it is about. -/
inductive Event (α : Type) where
  | query (line : Nat)
  | rewind (line : Nat)
  | reset
  /-- Other lines take the place of those that there are, and the first `kept` lines are as they
  were. The cache is not told. -/
  | change (lines : α) (kept : Nat)

/-- The lines are others after the event. -/
def Event.isChange : Event α → Bool
  | change _ _ => true
  | _ => false

/-- A cache, the lines as they are, and how far the cache has missed nothing. -/
structure Situation (α : Type) where
  cache : CommentCache
  lines : α
  limit : Limit

namespace Situation

/-- A new cache has missed nothing. -/
def start (lines : α) : Situation α :=
  ⟨.empty, lines, .all⟩

/-- One event. A query leaves its cache, also if it asks for a missing line. A change that keeps
fewer lines than it says is none. -/
def next (shellComments : Bool) (situation : Situation α) : Event α → Option (Situation α)
  | .query line =>
      some { situation with
        cache := (situation.cache.ask situation.lines line shellComments).2 }
  | .rewind line =>
      some { situation with
        cache := situation.cache.rewind line
        limit := if situation.limit.Covers line then .all else situation.limit }
  | .reset => some { situation with cache := situation.cache.reset, limit := .all }
  | .change lines kept =>
      if ∀ line < kept, lineText situation.lines line = lineText lines line then
        some { situation with lines := lines, limit := situation.limit.lower kept }
      else
        none

/-- Events one after the other. -/
def run (shellComments : Bool) (situation : Situation α) : List (Event α) → Option (Situation α)
  | [] => some situation
  | event :: rest => (situation.next shellComments event).bind (run shellComments · rest)

/-- The cache has an entry for each line up to its horizon, and those are right up to which it has
missed nothing. -/
structure Accurate (shellComments : Bool) (situation : Situation α) : Prop where
  roomy : situation.cache.Roomy
  accurateTo : situation.cache.AccurateTo situation.limit situation.lines shellComments

variable {situation later : Situation α}

/-- A new situation is accurate. -/
theorem accurate_start (lines : α) (shellComments : Bool) :
    (start lines).Accurate shellComments :=
  ⟨roomy_empty, accurateTo_empty lines shellComments⟩

/-- One event keeps the cache accurate. -/
theorem Accurate.next (h : situation.Accurate shellComments) {event : Event α}
    (hnext : situation.next shellComments event = some later) : later.Accurate shellComments := by
  cases event with
  | query line =>
      obtain rfl := Option.some.inj hnext
      show Accurate shellComments { situation with
        cache := (situation.cache.ask situation.lines line shellComments).2 }
      rw [ask]
      split
      · exact ⟨h.roomy.extendTo .., h.accurateTo.extendTo line⟩
      · exact h
  | rewind line =>
      obtain rfl := Option.some.inj hnext
      refine ⟨h.roomy.rewind line, ?_⟩
      show AccurateTo (if situation.limit.Covers line then .all else situation.limit) _ _ _
      split
      · rename_i hline
        exact h.accurateTo.rewind_of_le hline
      · exact h.accurateTo.rewind line
  | reset =>
      obtain rfl := Option.some.inj hnext
      exact ⟨h.roomy.reset, accurateTo_reset _ _ _⟩
  | change lines kept =>
      simp only [Situation.next] at hnext
      split at hnext
      · rename_i hkept
        obtain rfl := Option.some.inj hnext
        exact ⟨h.roomy, h.accurateTo.congr hkept⟩
      · cases hnext

/-- A history that takes at least one event begins with that event. -/
theorem exists_next_of_run_cons {event : Event α} {rest : List (Event α)}
    (h : situation.run shellComments (event :: rest) = some later) :
    ∃ between, situation.next shellComments event = some between ∧
      between.run shellComments rest = some later :=
  Option.bind_eq_some_iff.mp h

/-- A history keeps the cache accurate. -/
theorem Accurate.run (h : situation.Accurate shellComments) {events : List (Event α)}
    (hrun : situation.run shellComments events = some later) : later.Accurate shellComments := by
  induction events generalizing situation with
  | nil => exact Option.some.inj hrun ▸ h
  | cons event rest ih =>
      obtain ⟨between, hnext, hrest⟩ := exists_next_of_run_cons hrun
      exact ih (h.next hnext) hrest

/-- As long as the lines stay the cache misses nothing. -/
theorem missed_nothing_next {event : Event α} (hevent : event.isChange = false)
    (hlimit : situation.limit = .all)
    (hnext : situation.next shellComments event = some later) :
    later.lines = situation.lines ∧ later.limit = .all := by
  cases event with
  | query line =>
      obtain rfl := Option.some.inj hnext
      exact ⟨rfl, hlimit⟩
  | rewind line =>
      obtain rfl := Option.some.inj hnext
      refine ⟨rfl, ?_⟩
      show (if situation.limit.Covers line then Limit.all else situation.limit) = .all
      rw [hlimit, ite_self]
  | reset =>
      obtain rfl := Option.some.inj hnext
      exact ⟨rfl, rfl⟩
  | change lines kept => cases hevent

/-- Events that change nothing leave the lines as they are and make no limit. -/
theorem missed_nothing_run {events : List (Event α)}
    (hevents : ∀ event ∈ events, event.isChange = false) (hlimit : situation.limit = .all)
    (hrun : situation.run shellComments events = some later) :
    later.lines = situation.lines ∧ later.limit = .all := by
  induction events generalizing situation with
  | nil => exact Option.some.inj hrun ▸ ⟨rfl, hlimit⟩
  | cons event rest ih =>
      obtain ⟨between, hnext, hrest⟩ := exists_next_of_run_cons hrun
      obtain ⟨hevent, hevents⟩ := List.forall_mem_cons.mp hevents
      obtain ⟨hlines, hall⟩ := missed_nothing_next hevent hlimit hnext
      exact hlines ▸ ih hevents hall hrest

end Situation

/-- What can be relied on of a cache. -/
structure Situation.Trusted (shellComments : Bool) (situation : Situation α) : Prop where
  first_entry : situation.cache.entries[0]? = some false
  /-- The entries up to the horizon are right, as far as the cache has missed nothing. -/
  entry : ∀ line ≤ situation.cache.horizon, situation.limit.Covers line →
    situation.cache.entries[line]? = some (beginsInComment situation.lines shellComments line)
  /-- So are the answers, and asking does no more than to move the horizon. -/
  query : ∀ line < max (lineCount situation.lines) 1, situation.limit.Covers line →
    ∃ after, situation.cache.query situation.lines line shellComments =
        .ok (beginsInComment situation.lines shellComments line, after) ∧
      MovedTo situation.cache after situation.lines line shellComments
  horizon_rewind_le : ∀ line, (situation.cache.rewind line).horizon ≤ situation.cache.horizon
  /-- A line that is missing is complained about, and all stays as it was. -/
  missing : ∀ line, max (lineCount situation.lines) 1 ≤ line →
    situation.cache.query situation.lines line shellComments =
        .error ⟨line, lineCount situation.lines⟩ ∧
      situation.next shellComments (.query line) = some situation

/-- A right entry is answered with. -/
theorem AccurateTo.map_query {limit : Limit} (h : AccurateTo limit cache lines shellComments)
    {line : Nat} (hline : limit.Covers line) :
    (cache.query lines line shellComments).map Prod.fst =
      if line < max (lineCount lines) 1 then .ok (beginsInComment lines shellComments line)
      else .error ⟨line, lineCount lines⟩ := by
  rw [CommentCache.map_query, h.extendTo line line (le_horizon_extendTo ..) hline]

/-- What is accurate can be trusted. -/
theorem Situation.Accurate.trusted {situation : Situation α}
    (h : situation.Accurate shellComments) : situation.Trusted shellComments := by
  have hentry : ∀ line ≤ situation.cache.horizon, situation.limit.Covers line →
      situation.cache.entries[line]? =
        some (beginsInComment situation.lines shellComments line) := by
    intro line hhorizon hline
    have hsize : line < situation.cache.entries.size := Nat.lt_of_le_of_lt hhorizon h.roomy
    rw [← h.accurateTo line hhorizon hline, Array.getElem?_eq_getElem hsize, Array.getD,
      dif_pos hsize]
    rfl
  refine ⟨hentry 0 (Nat.zero_le _) (Limit.covers_zero _), hentry, ?_,
    fun line => Nat.min_le_right _ _, ?_⟩
  · intro line hcount hline
    refine ⟨situation.cache.extendTo situation.lines line shellComments, ?_,
      movedTo_extendTo ..⟩
    rw [query_eq, if_pos hcount,
      ← h.accurateTo.extendTo line line (le_horizon_extendTo ..) hline]
  · intro line hcount
    have hquery : situation.cache.query situation.lines line shellComments =
        .error ⟨line, lineCount situation.lines⟩ := by
      rw [query_eq, if_neg (Nat.not_lt.mpr hcount)]
    refine ⟨hquery, ?_⟩
    rw [Situation.next, ask_eq, hquery]

/-- Whatever a cache was asked, whatever it was told to forget, and however the lines changed behind
its back: it can be relied on as far as it has missed nothing. As long as the lines stay, it answers
what a new cache answers. -/
theorem trusted_of_history (shellComments : Bool) {lines : α} {events : List (Event α)}
    {last : Situation α}
    (hrun : (Situation.start lines).run shellComments events = some last) :
    last.Trusted shellComments ∧
      ((∀ event ∈ events, event.isChange = false) → last.lines = lines ∧
        ∀ line, (last.cache.query lines line shellComments).map Prod.fst =
          (empty.query lines line shellComments).map Prod.fst) := by
  have haccurate := (Situation.accurate_start lines shellComments).run hrun
  refine ⟨haccurate.trusted, fun hevents => ?_⟩
  obtain ⟨hlines, hlimit⟩ := Situation.missed_nothing_run hevents rfl hrun
  have hnow : AccurateTo .all last.cache lines shellComments := by
    have hto := haccurate.accurateTo
    rwa [hlimit, hlines] at hto
  refine ⟨hlines, fun line => ?_⟩
  rw [hnow.map_query trivial, (accurateTo_empty lines shellComments).map_query trivial]

/-- The end of the comment moves up unnoticed, and going back to a line behind the change does not
mend the entry of that line. -/
theorem trusted_after_unnoticed_change :
    ∃ last, (Situation.start ["/* a", "b", "c */", "d"]).run false
        [.query 3, .change ["/* a", "b */", "c"] 1, .rewind 2, .query 5] = some last ∧
      last.limit = .upTo 1 ∧ last.cache.entries[2]? = some true ∧
      beginsInComment last.lines false 2 = false ∧ last.Trusted false := by
  have hrun : ∃ last, (Situation.start ["/* a", "b", "c */", "d"]).run false
      [.query 3, .change ["/* a", "b */", "c"] 1, .rewind 2, .query 5] = some last ∧
      last.limit = .upTo 1 ∧ last.cache.entries[2]? = some true ∧
      beginsInComment last.lines false 2 = false :=
    ⟨_, rfl, rfl, by decide +kernel, by decide +kernel⟩
  obtain ⟨last, hrun, hlimit, hentry, hbegins⟩ := hrun
  exact ⟨last, hrun, hlimit, hentry, hbegins, (trusted_of_history false hrun).1⟩

end CommentCache

end Highlight
