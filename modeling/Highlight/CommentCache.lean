import Highlight.Line
import Highlight.LineSource

/-!
# The comment state of lines

Whether a line begins inside a block comment depends on all lines before it. The cache keeps the
answer for every line up to its horizon. A query beyond the horizon scans the lines between and
moves the horizon there; an edit moves it back. What the cache holds beyond the horizon is stale
and is never read before it is written again.
-/

namespace Highlight

/-- For each line, whether it begins inside a block comment. -/
structure CommentCache where
  entries : Array Bool
  /-- The last line whose entry is known. -/
  horizon : Nat
  deriving DecidableEq, Repr

namespace CommentCache

/-- The number of entries of a new cache. -/
def initialCapacity : Nat := 100

/-- The cache of a text of which no line but the first is known. -/
def empty : CommentCache :=
  ⟨Array.replicate initialCapacity false, 0⟩

/-- The number of entries that the cache holds without growing. -/
def capacity (cache : CommentCache) : Nat :=
  cache.entries.size

/-- Forget everything, as after the whole text was replaced. The storage stays as large as it
is. -/
def reset (cache : CommentCache) : CommentCache :=
  ⟨cache.entries.setIfInBounds 0 false, 0⟩

/-- Forget the lines after `line`. The horizon is never moved forward. -/
def rewind (cache : CommentCache) (line : Nat) : CommentCache :=
  { cache with horizon := min line cache.horizon }

/-- Rewinding moves the horizon back to the line, and never on. -/
@[simp]
theorem horizon_rewind (cache : CommentCache) (line : Nat) :
    (cache.rewind line).horizon = min line cache.horizon := rfl

/-- Rewinding keeps the entries. -/
@[simp]
theorem entries_rewind (cache : CommentCache) (line : Nat) :
    (cache.rewind line).entries = cache.entries := rfl

/-- Make room for the entry of a line. A cache that grows at least doubles its storage. -/
def grow (entries : Array Bool) (line : Nat) : Array Bool :=
  if line < entries.size then entries
  else entries ++ Array.replicate (max (line + 1) (entries.size * 2) - entries.size) false

/-- After growing there is an entry for the line. -/
theorem lt_size_grow (entries : Array Bool) (line : Nat) : line < (grow entries line).size := by
  rw [grow]
  split
  · assumption
  · rw [Array.size_append, Array.size_replicate]
    omega

/-- Growing keeps what is there. -/
theorem getD_grow {entries : Array Bool} {line index : Nat} (h : index < entries.size) :
    (grow entries line).getD index false = entries.getD index false := by
  rw [grow]
  split
  · rfl
  · simp [Array.getD, h, Nat.lt_add_right, Array.getElem_append_left]

variable {α : Type} [LineSource α]

/-- Scan `count` lines from `line` on and note behind each of them what its scan says about the
next line. -/
def advance (lines : α) (shellComments : Bool) : Nat → Nat → Array Bool → Array Bool
  | 0, _, entries => entries
  | count + 1, line, entries =>
      let ends :=
        Line.endsInComment (LineSource.lineText lines line) (entries.getD line false) shellComments
      advance lines shellComments count (line + 1) (entries.setIfInBounds (line + 1) ends)

/-- Scanning lines makes no room for others. -/
@[simp]
theorem size_advance (lines : α) (shellComments : Bool) (count line : Nat)
    (entries : Array Bool) :
    (advance lines shellComments count line entries).size = entries.size := by
  induction count generalizing line entries with
  | zero => rfl
  | succ count ih => rw [advance, ih, Array.size_setIfInBounds]

/-- Scanning lines leaves the entries up to the first of them alone. -/
theorem getD_advance_of_le {lines : α} {shellComments : Bool} {count line index : Nat}
    {entries : Array Bool} (h : index ≤ line) :
    (advance lines shellComments count line entries).getD index false =
      entries.getD index false := by
  induction count generalizing line entries with
  | zero => rfl
  | succ count ih =>
      rw [advance, ih (by omega), Array.getD_eq_getD_getElem?, Array.getElem?_setIfInBounds_ne,
        Array.getD_eq_getD_getElem?]
      omega

/-- Move the horizon forward to a line, if it is not there yet. -/
def extendTo (cache : CommentCache) (lines : α) (line : Nat) (shellComments : Bool) :
    CommentCache :=
  if cache.horizon < line then
    let entries := grow cache.entries line
    ⟨advance lines shellComments (line - cache.horizon) cache.horizon entries, line⟩
  else
    cache

/-- Ask whether a line begins inside a block comment. The cache that is left comes with the answer
and with the complaint. The first line may be asked for even if there are no lines. -/
def ask (cache : CommentCache) (lines : α) (line : Nat) (shellComments : Bool) :
    Except LineOutOfRange Bool × CommentCache :=
  if line < max (lineCount lines) 1 then
    let cache := cache.extendTo lines line shellComments
    (.ok (cache.entries.getD line false), cache)
  else
    (.error ⟨line, lineCount lines⟩, cache)

/-- Whether a line begins inside a block comment, with the cache that knows it. -/
def query (cache : CommentCache) (lines : α) (line : Nat) (shellComments : Bool) :
    Except LineOutOfRange (Bool × CommentCache) :=
  (cache.ask lines line shellComments).1.map fun starts =>
    (starts, (cache.ask lines line shellComments).2)

/-- What a query answers, told by the lines that there are. -/
theorem query_eq (cache : CommentCache) (lines : α) (line : Nat) (shellComments : Bool) :
    cache.query lines line shellComments =
      if line < max (lineCount lines) 1 then
        .ok ((cache.extendTo lines line shellComments).entries.getD line false,
          cache.extendTo lines line shellComments)
      else .error ⟨line, lineCount lines⟩ := by
  rw [query, ask]
  split <;> rfl

/-- The cache that is left by a complaint is the one that there was. -/
theorem ask_eq (cache : CommentCache) (lines : α) (line : Nat) (shellComments : Bool) :
    cache.ask lines line shellComments =
      match cache.query lines line shellComments with
      | .ok (starts, left) => (.ok starts, left)
      | .error error => (.error error, cache) := by
  rw [query_eq, ask]
  split <;> rfl

end CommentCache

end Highlight
