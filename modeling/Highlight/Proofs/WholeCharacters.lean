import Highlight.Proofs.Segments

/-!
# Clipping keeps whole characters

Between any two bytes of a line, also inside characters, `Span.clip?` keeps the characters of a span
that have a byte in the range, `HasByteIn`. `exists_overlap` is the induction behind this: it finds
the characters before the range, in it and behind it, and the edges to which the range is moved.
`clipChecked?` is a clip whose steps may fail, and `clipChecked?_eq` says that none of them does.

Two ranges that meet at a byte together show what the whole range shows. Only a character that
contains this byte inside is shown twice, `joinsAt`. All this is the main theorem,
`clip_keeps_whole_characters`.
-/

namespace Highlight

open Text (byteSize IsCut)

namespace Text

/-- A position beyond the end is moved to the end. -/
theorem ceilBoundary_min (chars : List Char) (position : Nat) :
    ceilBoundary chars (min position (byteSize chars)) = ceilBoundary chars position := by
  induction chars generalizing position with
  | nil => rfl
  | cons c rest ih =>
      have hsize := c.utf8Size_pos
      rw [ceilBoundary, ceilBoundary, byteSize_cons]
      by_cases hzero : position = 0
      · rw [if_pos hzero, if_pos (by omega)]
      · rw [if_neg hzero, if_neg (by omega), ← ih (position - c.utf8Size)]
        congr 2
        omega

/-- Rounding down ends at the edge of a character. -/
theorem exists_floorBoundary (chars : List Char) (position : Nat) :
    ∃ left right, chars = left ++ right ∧ floorBoundary chars position = byteSize left := by
  induction chars generalizing position with
  | nil => exact ⟨[], [], rfl, rfl⟩
  | cons c rest ih =>
      rw [floorBoundary]
      split
      · exact ⟨[], c :: rest, rfl, rfl⟩
      · obtain ⟨left, right, rfl, hfloor⟩ := ih (position - c.utf8Size)
        exact ⟨c :: left, right, rfl, by rw [hfloor, byteSize_cons]⟩

/-- A boundary is within the text. -/
theorem floorBoundary_le (chars : List Char) (position : Nat) :
    floorBoundary chars position ≤ byteSize chars := by
  obtain ⟨left, right, rfl, hfloor⟩ := exists_floorBoundary chars position
  rw [hfloor, byteSize_append]
  exact Nat.le_add_right ..

/-- Rounding up ends at the edge of a character. -/
theorem exists_ceilBoundary (chars : List Char) (position : Nat) :
    ∃ left right, chars = left ++ right ∧ ceilBoundary chars position = byteSize left := by
  induction chars generalizing position with
  | nil => exact ⟨[], [], rfl, rfl⟩
  | cons c rest ih =>
      rw [ceilBoundary]
      split
      · exact ⟨[], c :: rest, rfl, rfl⟩
      · obtain ⟨left, right, rfl, hceil⟩ := ih (position - c.utf8Size)
        exact ⟨c :: left, right, rfl, by rw [hceil, byteSize_cons]⟩

/-- A range whose edges were moved outward cuts a piece out of the text. -/
theorem exists_slice?_boundaries (text : String) {first last : Nat}
    (h : floorBoundary text.toList first ≤ ceilBoundary text.toList last) :
    ∃ piece, slice? text (floorBoundary text.toList first) (ceilBoundary text.toList last) =
      some piece := by
  obtain ⟨left, right, htext, hfloor⟩ := exists_floorBoundary text.toList first
  obtain ⟨left', right', htext', hceil⟩ := exists_ceilBoundary text.toList last
  obtain ⟨middle, rfl, -⟩ := exists_middle (htext.symm.trans htext') (by omega)
  have hcut : IsCut text (floorBoundary text.toList first) (ceilBoundary text.toList last) left
      middle right' := ⟨htext', hfloor.symm, hceil.symm⟩
  exact ⟨_, hcut.slice?_eq⟩

end Text

namespace Span

/-! ## Characters in a range -/

/-- A character of a line, given with its first byte, has a byte among those from `first` to just
before `last`. -/
def HasByteIn (first last : Nat) (c : Nat × Char) : Prop :=
  ∃ byte, c.1 ≤ byte ∧ byte < c.1 + c.2.utf8Size ∧ first ≤ byte ∧ byte < last

/-- The character holds the byte, and does not begin with it. -/
def ContainsInside (byte : Nat) (c : Nat × Char) : Prop :=
  c.1 < byte ∧ byte < c.1 + c.2.utf8Size

variable {span : Span} {chars : List Char} {c : Nat × Char} {start first middle last : Nat}

/-- A character has a byte in a range if the two overlap. -/
theorem hasByteIn_iff_max_lt :
    HasByteIn first last c ↔ max c.1 first < min (c.1 + c.2.utf8Size) last := by
  constructor
  · rintro ⟨byte, hfrom, hto, hfirst, hlast⟩
    omega
  · intro h
    exact ⟨max c.1 first, by omega, by omega, by omega, by omega⟩

instance (first last : Nat) (c : Nat × Char) : Decidable (HasByteIn first last c) :=
  decidable_of_iff _ hasByteIn_iff_max_lt.symm

/-- A character has a byte in a range unless it ends before it or begins behind it. -/
theorem hasByteIn_iff (h : first < last) :
    HasByteIn first last c ↔ c.1 < last ∧ first < c.1 + c.2.utf8Size := by
  have hsize := c.2.utf8Size_pos
  rw [hasByteIn_iff_max_lt]
  omega

/-- Of the characters in a range the first comes first, if it is there. -/
theorem filter_placed_cons (first last start : Nat) (c : Char) (rest : List Char) :
    (placed start (c :: rest)).filter (HasByteIn first last ·) =
      (if HasByteIn first last (start, c) then [(start, c)] else []) ++
        (placed (start + c.utf8Size) rest).filter (HasByteIn first last ·) := by
  rw [placed, List.filter_cons]
  by_cases hin : HasByteIn first last (start, c)
  · rw [if_pos (decide_eq_true hin), if_pos hin, List.singleton_append]
  · rw [if_neg (by simpa using hin), if_neg hin, List.nil_append]

/-- The characters with a byte in a range follow one another. The edges of the range are moved to
the first of them and behind the last. -/
theorem exists_overlap (chars : List Char) (start : Nat) (h : first < last) :
    ∃ before kept after, chars = before ++ kept ++ after ∧
      Text.floorBoundary chars (first - start) = byteSize before ∧
      Text.ceilBoundary chars (last - start) = byteSize (before ++ kept) ∧
      (placed start chars).filter (HasByteIn first last ·) =
        placed (start + byteSize before) kept := by
  induction chars generalizing start with
  | nil => exact ⟨[], [], [], rfl, rfl, rfl, rfl⟩
  | cons c rest ih =>
      have hsize := c.utf8Size_pos
      obtain ⟨before, kept, after, hrest, hfloor, hceil, hkept⟩ := ih (start + c.utf8Size)
      have hin : HasByteIn first last (start, c) ↔ start < last ∧ first < start + c.utf8Size :=
        hasByteIn_iff h
      rw [← Nat.sub_sub] at hfloor hceil
      rw [Text.floorBoundary, Text.ceilBoundary, filter_placed_cons, hkept]
      by_cases hbefore : start + c.utf8Size ≤ first
      · -- The character ends before the range.
        refine ⟨c :: before, kept, after, by rw [hrest]; rfl, ?_, ?_, ?_⟩
        · rw [if_neg (by omega), hfloor, Text.byteSize_cons]
        · rw [if_neg (by omega), hceil, List.cons_append, Text.byteSize_cons]
        · rw [if_neg (mt hin.mp (by omega)), List.nil_append, Text.byteSize_cons, Nat.add_assoc]
      · -- Neither this character nor any behind it ends before the range.
        have hzero : first - start - c.utf8Size = 0 := by omega
        obtain rfl : before = [] := by
          rw [hzero] at hfloor
          exact Text.eq_nil_of_byteSize_eq_zero
            (hfloor.symm.trans (Text.floorBoundary_append [] rest))
        by_cases hinside : start < last
        · refine ⟨[], c :: kept, after, by rw [hrest]; rfl, ?_, ?_, ?_⟩
          · rw [if_pos (by omega)]
            rfl
          · rw [if_neg (by omega), hceil]
            rfl
          · rw [if_pos (hin.mpr (by omega))]
            rfl
        · have hnone : last - start - c.utf8Size = 0 := by omega
          obtain rfl : kept = [] := by
            rw [hnone] at hceil
            exact Text.eq_nil_of_byteSize_eq_zero
              (hceil.symm.trans (Text.ceilBoundary_append [] rest))
          refine ⟨[], [], c :: rest, rfl, ?_, ?_, ?_⟩
          · rw [if_pos (by omega)]
            rfl
          · rw [if_pos (by omega)]
            rfl
          · rw [if_neg (mt hin.mp (by omega))]
            rfl

/-! ## Clipping -/

/-- The difference of two offsets, unless it is negative. -/
def difference? (offset less : Nat) : Option Nat :=
  if less ≤ offset then some (offset - less) else none

/-- The sum of two offsets, if a machine word can hold it. -/
def sum? (offset more : Nat) : Option Nat :=
  if offset + more < 2 ^ 64 then some (offset + more) else none

/-- Clip as `clip?` does, but fail where a difference is negative, a sum is too large for a machine
word, or there is no such piece of the text. -/
def clipChecked? (span : Span) (first last : Nat) : Option (Option Span) := do
  let chars := span.text.toList
  let skipped ← difference? (max first span.start) span.start
  let stop ← sum? span.start span.size
  let lower := Text.floorBoundary chars skipped
  let upper := Text.ceilBoundary chars (min last stop - span.start)
  if lower < upper then
    let start ← sum? span.start lower
    let text ← Text.slice? span.text lower upper
    some (some ⟨span.kind, start, text⟩)
  else
    some none

/-- The span `part` is the run of those characters of `span` that have a byte in the range. -/
structure Keeps (span : Span) (first last : Nat) (part : Span) : Prop where
  kind_eq : part.kind = span.kind
  characters_eq : characters [part] = (characters [span]).filter (HasByteIn first last ·.2)
  isInfix : characters [part] <:+: characters [span]
  /-- The run has a first character, and the part begins with it. -/
  head?_eq : ((characters [span]).filter (HasByteIn first last ·.2)).head?.map (·.2.1) =
    some part.start

/-- Two ranges that meet at byte `middle` together show the characters of the whole range. None is
shown twice, but the one that contains this byte inside. -/
def JoinsAt (span : Span) (first middle last : Nat) : Prop :=
  ∃ left shared right,
    characters (span.clip? first middle).toList = left ++ shared ∧
    characters (span.clip? middle last).toList = shared ++ right ∧
    characters (span.clip? first last).toList = left ++ shared ++ right ∧
    shared.length ≤ 1 ∧ (∀ c ∈ shared, ContainsInside middle c.2) ∧
    (∀ c ∈ left, c.2.1 + c.2.2.utf8Size ≤ middle) ∧ ∀ c ∈ right, middle ≤ c.2.1

/-- Clipping fails at no step if the span ends where a machine word can tell. -/
theorem clipChecked?_eq (h : span.stop < 2 ^ 64) (first last : Nat) :
    span.clipChecked? first last = some (span.clip? first last) := by
  have hskipped : difference? (max first span.start) span.start =
      some (max first span.start - span.start) := if_pos (Nat.le_max_right ..)
  have hstop : sum? span.start span.size = some span.stop := if_pos h
  simp only [clipChecked?, clip?, hskipped, hstop, Option.bind_eq_bind, Option.bind_some]
  split
  · rename_i hlt
    obtain ⟨piece, hpiece⟩ := Text.exists_slice?_boundaries span.text (Nat.le_of_lt hlt)
    have hlower := Text.floorBoundary_le span.text.toList (max first span.start - span.start)
    rw [Text.byteSize_toList] at hlower
    have hstart : sum? span.start (Text.floorBoundary span.text.toList
        (max first span.start - span.start)) = some _ :=
      if_pos (Nat.lt_of_le_of_lt (Nat.add_le_add_left hlower span.start) h)
    rw [hpiece, hstart]
    rfl
  · rfl

/-- The characters of one span are placed from its start. -/
theorem characters_singleton (span : Span) :
    characters [span] = (placed span.start span.text.toList).map (span.kind, ·) :=
  List.flatMap_singleton ..

/-- The characters of a span in a range are those of its text. -/
theorem filter_characters (span : Span) (first last : Nat) :
    (characters [span]).filter (HasByteIn first last ·.2) =
      ((placed span.start span.text.toList).filter (HasByteIn first last ·)).map
        (span.kind, ·) := by
  rw [characters_singleton, List.filter_map]
  rfl

/-- Clipping cuts out the characters that have a byte in the range. -/
theorem exists_clip?_eq (span : Span) (h : first < last) :
    ∃ before kept after, span.text.toList = before ++ kept ++ after ∧
      (placed span.start span.text.toList).filter (HasByteIn first last ·) =
        placed (span.start + byteSize before) kept ∧
      span.clip? first last = if kept = [] then none
        else some ⟨span.kind, span.start + byteSize before, String.ofList kept⟩ := by
  obtain ⟨before, kept, after, htext, hfloor, hceil, hkept⟩ :=
    exists_overlap span.text.toList span.start h
  have hlower : max first span.start - span.start = first - span.start := by omega
  have hupper : min last span.stop - span.start =
      min (last - span.start) (byteSize span.text.toList) := by
    rw [Text.byteSize_toList, stop, size]
    omega
  have hcut : IsCut span.text (byteSize before) (byteSize (before ++ kept)) before kept after :=
    ⟨htext, rfl, rfl⟩
  refine ⟨before, kept, after, htext, hkept, ?_⟩
  simp only [clip?, hlower, hupper, Text.ceilBoundary_min, hfloor, hceil]
  by_cases hnil : kept = []
  · rw [if_pos hnil, if_neg (by rw [hnil, List.append_nil]; exact Nat.lt_irrefl _)]
  · have hpos : byteSize kept ≠ 0 := fun hzero => hnil (Text.eq_nil_of_byteSize_eq_zero hzero)
    rw [if_neg hnil, if_pos (by rw [Text.byteSize_append]; omega), hcut.slice?_eq]
    rfl

/-- Clipping shows the characters that have a byte in the range. -/
theorem characters_clip? (span : Span) (h : first < last) :
    characters (span.clip? first last).toList =
      (characters [span]).filter (HasByteIn first last ·.2) := by
  obtain ⟨before, kept, after, -, hkept, hclip⟩ := exists_clip?_eq span h
  rw [filter_characters, hkept, hclip]
  split
  · rename_i hnil
    rw [hnil]
    rfl
  · rw [Option.toList_some, characters_singleton, String.toList_ofList]

/-- Nothing is clipped if and only if no character has a byte in the range. -/
theorem clip?_eq_none_iff (span : Span) (h : first < last) :
    span.clip? first last = none ↔
      ∀ c ∈ placed span.start span.text.toList, ¬ HasByteIn first last c := by
  obtain ⟨before, kept, after, -, hkept, hclip⟩ := exists_clip?_eq span h
  have hnone : (∀ c ∈ placed span.start span.text.toList, ¬ HasByteIn first last c) ↔
      (placed span.start span.text.toList).filter (HasByteIn first last ·) = [] := by
    simp only [List.filter_eq_nil_iff, decide_eq_true_eq]
  rw [hnone, hkept, hclip]
  cases kept with
  | nil => simp [placed]
  | cons c kept => simp [placed]

/-- What is clipped keeps the characters with a byte in the range. -/
theorem keeps_of_clip? {part : Span} (h : first < last)
    (hpart : span.clip? first last = some part) : Keeps span first last part := by
  obtain ⟨before, kept, after, htext, hkept, hclip⟩ := exists_clip?_eq span h
  rw [hpart] at hclip
  cases kept with
  | nil => cases hclip
  | cons c kept =>
      obtain rfl := Option.some.inj hclip
      refine ⟨rfl, ?_, ?_, ?_⟩
      · rw [filter_characters, hkept, characters_singleton, String.toList_ofList]
      · rw [characters_singleton, characters_singleton, String.toList_ofList, htext,
          placed_append, placed_append, List.map_append, List.map_append]
        exact List.infix_append ..
      · rw [filter_characters, hkept]
        rfl

/-! ## Ranges that meet -/

/-- No character is placed before the first. -/
theorem le_of_mem_placed (hc : c ∈ placed start chars) : start ≤ c.1 := by
  induction chars generalizing start with
  | nil => cases hc
  | cons d rest ih =>
      rcases List.mem_cons.mp hc with rfl | hrest
      · exact Nat.le_refl _
      · exact Nat.le_trans (Nat.le_add_right ..) (ih hrest)

/-- A byte position parts the characters into those that end before it, the one around it if there
is one, and those that begin behind it. -/
theorem exists_placed_eq (start : Nat) (chars : List Char) (byte : Nat) :
    ∃ left inside right, placed start chars = left ++ inside ++ right ∧
      (∀ c ∈ left, c.1 + c.2.utf8Size ≤ byte) ∧
      inside.length ≤ 1 ∧ (∀ c ∈ inside, ContainsInside byte c) ∧ ∀ c ∈ right, byte ≤ c.1 := by
  induction chars generalizing start with
  | nil => exact ⟨[], [], [], rfl, by simp, by simp, by simp, by simp⟩
  | cons c rest ih =>
      by_cases hbefore : start + c.utf8Size ≤ byte
      · obtain ⟨left, inside, right, hrest, hleft, hlength, hinside, hright⟩ :=
          ih (start + c.utf8Size)
        refine ⟨(start, c) :: left, inside, right, by rw [placed, hrest]; rfl, ?_, hlength,
          hinside, hright⟩
        exact List.forall_mem_cons.mpr ⟨hbefore, hleft⟩
      · by_cases hbehind : byte ≤ start
        · refine ⟨[], [], placed start (c :: rest), rfl, by simp, by simp, by simp, ?_⟩
          exact fun d hd => Nat.le_trans hbehind (le_of_mem_placed hd)
        · refine ⟨[], [(start, c)], placed (start + c.utf8Size) rest, rfl, by simp, by simp, ?_, ?_⟩
          · rw [List.forall_mem_singleton]
            exact ⟨Nat.lt_of_not_le hbehind, Nat.lt_of_not_le hbefore⟩
          · intro d hd
            have hle := le_of_mem_placed hd
            omega

/-- A character that contains a byte inside has it, and the byte before it. -/
theorem ContainsInside.hasByteIn (h : ContainsInside middle c) (hle : first ≤ middle)
    (hlast : middle ≤ last) (hlt : first < last) : HasByteIn first last c := by
  obtain ⟨hbegin, hend⟩ := h
  rw [hasByteIn_iff hlt]
  omega

/-- The characters of two ranges that meet at a byte are those of the whole range. The characters
that end before the byte are in the first range only, those that begin behind it in the second. -/
theorem exists_filter_placed_eq (start : Nat) (chars : List Char) (hfirst : first < middle)
    (hlast : middle < last) :
    ∃ left shared right,
      (placed start chars).filter (HasByteIn first middle ·) = left ++ shared ∧
      (placed start chars).filter (HasByteIn middle last ·) = shared ++ right ∧
      (placed start chars).filter (HasByteIn first last ·) = left ++ shared ++ right ∧
      shared.length ≤ 1 ∧ (∀ c ∈ shared, ContainsInside middle c) ∧
      (∀ c ∈ left, c.1 + c.2.utf8Size ≤ middle) ∧ ∀ c ∈ right, middle ≤ c.1 := by
  have hwhole : first < last := Nat.lt_trans hfirst hlast
  obtain ⟨left, inside, right, hplaced, hleft, hlength, hinside, hright⟩ :=
    exists_placed_eq start chars middle
  have hin {first last : Nat} (hle : first ≤ middle) (hge : middle ≤ last) (hlt : first < last) :
      inside.filter (HasByteIn first last ·) = inside :=
    List.filter_eq_self.mpr fun c hc => decide_eq_true ((hinside c hc).hasByteIn hle hge hlt)
  have hnotLeft : left.filter (HasByteIn middle last ·) = [] := by
    refine List.filter_eq_nil_iff.mpr fun c hc => ?_
    have hend := hleft c hc
    rw [decide_eq_true_eq, hasByteIn_iff hlast]
    omega
  have hnotRight : right.filter (HasByteIn first middle ·) = [] := by
    refine List.filter_eq_nil_iff.mpr fun c hc => ?_
    have hbegin := hright c hc
    rw [decide_eq_true_eq, hasByteIn_iff hfirst]
    omega
  have hsameLeft :
      left.filter (HasByteIn first last ·) = left.filter (HasByteIn first middle ·) := by
    refine List.filter_congr fun c hc => decide_eq_decide.mpr ?_
    have hend := hleft c hc
    have hsize := c.2.utf8Size_pos
    rw [hasByteIn_iff hwhole, hasByteIn_iff hfirst]
    omega
  have hsameRight :
      right.filter (HasByteIn first last ·) = right.filter (HasByteIn middle last ·) := by
    refine List.filter_congr fun c hc => decide_eq_decide.mpr ?_
    have hbegin := hright c hc
    have hsize := c.2.utf8Size_pos
    rw [hasByteIn_iff hwhole, hasByteIn_iff hlast]
    omega
  refine ⟨left.filter (HasByteIn first middle ·), inside, right.filter (HasByteIn middle last ·),
    ?_, ?_, ?_, hlength, hinside, fun c hc => hleft c (List.mem_filter.mp hc).1,
    fun c hc => hright c (List.mem_filter.mp hc).1⟩
  · rw [hplaced, List.filter_append, List.filter_append, hnotRight, List.append_nil,
      hin (by omega) (by omega) hfirst]
  · rw [hplaced, List.filter_append, List.filter_append, hnotLeft, List.nil_append,
      hin (by omega) (by omega) hlast]
  · rw [hplaced, List.filter_append, List.filter_append, hsameLeft, hsameRight,
      hin (by omega) (by omega) hwhole]

/-- Clipped parts that meet inside the range join. -/
theorem joinsAt (span : Span) (hfirst : first < middle) (hlast : middle < last) :
    span.JoinsAt first middle last := by
  obtain ⟨left, shared, right, hbefore, hbehind, hwhole, hlength, hshared, hleft, hright⟩ :=
    exists_filter_placed_eq span.start span.text.toList hfirst hlast
  refine ⟨left.map (span.kind, ·), shared.map (span.kind, ·), right.map (span.kind, ·), ?_, ?_, ?_,
    ?_, ?_, ?_, ?_⟩
  · rw [characters_clip? span hfirst, filter_characters, hbefore, List.map_append]
  · rw [characters_clip? span hlast, filter_characters, hbehind, List.map_append]
  · rw [characters_clip? span (Nat.lt_trans hfirst hlast), filter_characters, hwhole,
      List.map_append, List.map_append]
  · rwa [List.length_map]
  · exact List.forall_mem_map.mpr hshared
  · exact List.forall_mem_map.mpr hleft
  · exact List.forall_mem_map.mpr hright

/-- Clipping a span that ends where a machine word can tell fails at no step. It leaves nothing if
and only if no character of the span has a byte in the range; else it keeps those that have. A range
can be shown in two parts. -/
theorem clip_keeps_whole_characters (span : Span) (hstop : span.start + span.size < 2 ^ 64)
    {first last : Nat} (hrange : first < last) :
    span.clipChecked? first last = some (span.clip? first last) ∧
      (span.clip? first last = none ↔
        ∀ c ∈ placed span.start span.text.toList, ¬ HasByteIn first last c) ∧
      (∀ part, span.clip? first last = some part → Keeps span first last part) ∧
      ∀ middle, first < middle → middle < last → span.JoinsAt first middle last :=
  ⟨clipChecked?_eq hstop first last, clip?_eq_none_iff span hrange,
    fun _ hpart => keeps_of_clip? hrange hpart,
    fun _ hfirst hlast => joinsAt span hfirst hlast⟩

/-- Two ranges that meet inside a letter of two bytes both show it. -/
theorem clip_keeps_whole_characters_inside_letter :
    let span : Span := ⟨.string, 4, "\"é\""⟩
    span.clip? 4 6 = some ⟨.string, 4, "\"é"⟩ ∧ span.clip? 6 9 = some ⟨.string, 5, "é\""⟩ ∧
      Keeps span 4 9 ⟨.string, 4, "\"é\""⟩ ∧ span.JoinsAt 4 6 9 := by
  intro span
  have hstop : span.start + span.size < 2 ^ 64 := by decide +kernel
  have hall := clip_keeps_whole_characters span hstop (show 4 < 9 by decide)
  exact ⟨by decide +kernel, by decide +kernel, hall.2.2.1 _ (by decide +kernel),
    hall.2.2.2 6 (by decide) (by decide)⟩

end Span

end Highlight
