import Highlight.Proofs.Pieces

/-!
# Clipping spans at characters

`Span.clip?` works with bytes: it narrows a range to a span and moves both ends to the edges of
characters. A range whose ends lie between characters of the line is not moved, so what is left of
the span are characters of it, `clip?_eq`, and these are the bytes that the span shares with the
range, `isPart_of_text_ne`. Nothing is left if and only if it shares none with it,
`text_ne_iff_meets`.
-/

namespace Highlight

namespace Text

/-! ## Edges of characters -/

/-- An edge is its own boundary from below. -/
theorem floorBoundary_append (left right : List Char) :
    floorBoundary (left ++ right) (byteSize left) = byteSize left := by
  induction left with
  | nil =>
      cases right with
      | nil => rfl
      | cons c right => exact if_pos c.utf8Size_pos
  | cons c left ih =>
      rw [List.cons_append, floorBoundary, byteSize_cons, if_neg (by omega),
        Nat.add_sub_cancel_left, ih]

/-- A position beyond the text is moved to its end. -/
theorem floorBoundary_of_le {chars : List Char} {position : Nat}
    (h : byteSize chars ≤ position) : floorBoundary chars position = byteSize chars := by
  induction chars generalizing position with
  | nil => rfl
  | cons c rest ih =>
      rw [byteSize_cons] at h ⊢
      rw [floorBoundary, if_neg (by omega), ih (by omega)]

/-- An edge is its own boundary from above. -/
theorem ceilBoundary_append (left right : List Char) :
    ceilBoundary (left ++ right) (byteSize left) = byteSize left := by
  induction left with
  | nil =>
      cases right with
      | nil => rfl
      | cons c right => rfl
  | cons c left ih =>
      have hsize := c.utf8Size_pos
      rw [List.cons_append, ceilBoundary, byteSize_cons, if_neg (by omega),
        Nat.add_sub_cancel_left, ih]

/-- The bytes of the first characters of a text, counted from the end of its first part. -/
theorem byteSize_take_append_sub (left right : List Char) (count : Nat) :
    byteSize ((left ++ right).take count) - byteSize left =
      byteSize (right.take (count - left.length)) := by
  rw [List.take_append, byteSize_append]
  rcases Nat.le_total count left.length with hle | hge
  · have hwhole : byteSize left = byteSize (left.take count) + byteSize (left.drop count) := by
      rw [← byteSize_append, List.take_append_drop]
    rw [Nat.sub_eq_zero_of_le hle, List.take_zero, byteSize_nil]
    omega
  · rw [List.take_of_length_le hge, Nat.add_sub_cancel_left]

/-- The same, counted up to the end of the first part. -/
theorem min_byteSize_take_append (left right : List Char) (count : Nat) :
    min (byteSize ((left ++ right).take count)) (byteSize left) = byteSize (left.take count) := by
  rw [List.take_append, byteSize_append]
  rcases Nat.le_total count left.length with hle | hge
  · have hwhole : byteSize left = byteSize (left.take count) + byteSize (left.drop count) := by
      rw [← byteSize_append, List.take_append_drop]
    rw [Nat.sub_eq_zero_of_le hle, List.take_zero, byteSize_nil]
    omega
  · rw [List.take_of_length_le hge]
    omega

/-- Rounding down stays at an edge of a character that a longer text shares. -/
theorem floorBoundary_take_append (left right : List Char) (count : Nat) :
    floorBoundary left (byteSize ((left ++ right).take count)) = byteSize (left.take count) := by
  rcases Nat.le_total count left.length with hle | hge
  · have hfloor := floorBoundary_append (left.take count) (left.drop count)
    rw [List.take_append_drop] at hfloor
    rw [List.take_append_of_le_length hle, hfloor]
  · rw [List.take_append, List.take_of_length_le hge, byteSize_append,
      floorBoundary_of_le (Nat.le_add_right ..)]

/-- The edge behind some characters is its own boundary from above. -/
theorem ceilBoundary_take (chars : List Char) (count : Nat) :
    ceilBoundary chars (byteSize (chars.take count)) = byteSize (chars.take count) := by
  have hceil := ceilBoundary_append (chars.take count) (chars.drop count)
  rwa [List.take_append_drop] at hceil

end Text

open Text (byteSize byteOffset IsCut)

namespace Span

/-! ## Characters of a span -/

/-- The number of characters. -/
def length (span : Span) : Nat :=
  span.text.length

/-- The first `count` characters of a span. -/
def take (span : Span) (count : Nat) : Span :=
  ⟨span.kind, span.start, String.ofList (span.text.toList.take count)⟩

/-- A span without its first `count` characters. -/
def drop (span : Span) (count : Nat) : Span :=
  ⟨span.kind, span.start + byteSize (span.text.toList.take count),
    String.ofList (span.text.toList.drop count)⟩

/-- The characters of a span from the `first` to just before the `last`. -/
def between (span : Span) (first last : Nat) : Span :=
  (span.take last).drop first

/-- The span shares a byte of its line with the bytes from `first` to `last`. -/
def Meets (span : Span) (first last : Nat) : Prop :=
  max span.start first < min span.stop last

instance (span : Span) (first last : Nat) : Decidable (span.Meets first last) :=
  inferInstanceAs (Decidable (_ < _))

/-- The span `part` is what `span` shares with the bytes from `first` to `last` of their line. -/
structure IsPart (line : String) (first last : Nat) (span part : Span) : Prop where
  kind_eq : part.kind = span.kind
  start_eq : part.start = max span.start first
  stop_eq : part.stop = min span.stop last
  slice?_eq : Text.slice? line part.start part.stop = some part.text

variable {span : Span} {line : String} {before after : List Char} {first last : Nat}

/-- The part of a span between two places has the characters there. -/
theorem toList_between (span : Span) (first last : Nat) :
    (span.between first last).text.toList = (span.text.toList.take last).drop first := by
  rw [between, take, drop, String.toList_ofList, String.toList_ofList]

/-- The part between two places is empty if there are no characters. -/
theorem text_between_eq_empty_iff : (span.between first last).text = "" ↔
    (span.text.toList.take last).drop first = [] := by
  rw [← toList_between, String.toList_eq_nil_iff]

/-- If characters are left, the first is before the last. -/
theorem lt_of_text_between_ne (h : (span.between first last).text ≠ "") : first < last := by
  rw [ne_eq, text_between_eq_empty_iff, List.drop_eq_nil_iff, List.length_take] at h
  omega

/-- The characters up to the `last` are those up to the `first` and those between. -/
theorem take_append_between (span : Span) (h : first ≤ last) :
    span.text.toList.take first ++ (span.between first last).text.toList =
      span.text.toList.take last := by
  rw [toList_between]
  have hparts := List.take_append_drop first (span.text.toList.take last)
  rwa [List.take_take, Nat.min_eq_left h] at hparts

/-- The part between two places begins behind the characters before it. -/
theorem start_between (span : Span) (h : first ≤ last) :
    (span.between first last).start = span.start + byteSize (span.text.toList.take first) := by
  simp only [between, take, drop, String.toList_ofList, List.take_take, Nat.min_eq_left h]

/-- The part between two places ends behind its characters. -/
theorem stop_between (span : Span) (h : first ≤ last) :
    (span.between first last).stop = span.start + byteSize (span.text.toList.take last) := by
  rw [stop, start_between span h, ← take_append_between span h, Text.byteSize_append,
    Text.byteSize_toList, size, Nat.add_assoc]

/-- The characters between two others are cut out of the line where the span is. -/
theorem isCut_between (h : IsCut line span.start span.stop before span.text.toList after)
    (hle : first ≤ last) :
    IsCut line (span.between first last).start (span.between first last).stop
      (before ++ span.text.toList.take first) (span.between first last).text.toList
      (span.text.toList.drop last ++ after) := by
  refine ⟨?_, ?_, ?_⟩
  · calc line.toList = before ++ (span.text.toList.take last ++ span.text.toList.drop last) ++
          after := by rw [h.line_eq, List.take_append_drop]
      _ = _ := by rw [← take_append_between span hle]; simp only [List.append_assoc]
  · rw [Text.byteSize_append, h.start_eq, start_between span hle]
  · rw [List.append_assoc, take_append_between span hle, Text.byteSize_append, h.start_eq,
      stop_between span hle]

/-- The characters between two others lie in the bytes between these. -/
theorem text_between_ne_iff : (span.between first last).text ≠ "" ↔
    byteSize (span.text.toList.take first) < byteSize (span.text.toList.take last) := by
  constructor
  · intro hne
    have hparts := take_append_between span (Nat.le_of_lt (lt_of_text_between_ne hne))
    have hpositive : byteSize (span.between first last).text.toList ≠ 0 := by
      intro hzero
      exact hne (String.toList_eq_nil_iff.mp (Text.eq_nil_of_byteSize_eq_zero hzero))
    rw [← hparts, Text.byteSize_append]
    omega
  · intro hlt hempty
    rw [text_between_eq_empty_iff, List.drop_eq_nil_iff] at hempty
    -- The characters up to the `last` are then among those up to the `first`.
    have hprefix : span.text.toList.take last <+: span.text.toList.take first := by
      refine List.prefix_of_prefix_length_le (List.take_prefix ..) (List.take_prefix ..) ?_
      rw [List.length_take] at hempty ⊢
      rw [List.length_take]
      omega
    obtain ⟨rest, hrest⟩ := hprefix
    rw [← hrest, Text.byteSize_append] at hlt
    omega

/-! ## Clipping -/

/-- Where the first bytes of a line are narrowed to a span of it, they are characters of the
span. -/
theorem byteOffset_sub_start (h : IsCut line span.start span.stop before span.text.toList after)
    (count : Nat) : byteOffset line.toList count - span.start =
      byteSize ((span.text.toList ++ after).take (count - before.length)) := by
  rw [byteOffset, h.line_eq, List.append_assoc, ← h.start_eq, Text.byteSize_take_append_sub]

/-- A place in the line as a place in a span of it, at most the end of the span. -/
theorem min_byteOffset_sub_start
    (h : IsCut line span.start span.stop before span.text.toList after) (count : Nat) :
    min (byteOffset line.toList count - span.start) span.size =
      byteSize (span.text.toList.take (count - before.length)) := by
  rw [byteOffset_sub_start h, size, ← Text.byteSize_toList, Text.min_byteSize_take_append]

/-- Clipped between two characters of the line, a span keeps the characters that lie between
them. -/
theorem clip?_eq (h : IsCut line span.start span.stop before span.text.toList after)
    (first last : Nat) :
    span.clip? (byteOffset line.toList first) (byteOffset line.toList last) =
      if (span.between (first - before.length) (last - before.length)).text = "" then none
      else some (span.between (first - before.length) (last - before.length)) := by
  have hlower : Text.floorBoundary span.text.toList
      (max (byteOffset line.toList first) span.start - span.start) =
        byteSize (span.text.toList.take (first - before.length)) := by
    rw [show ∀ a b : Nat, max a b - b = a - b from fun a b => by omega, byteOffset_sub_start h,
      Text.floorBoundary_take_append]
  have hupper : Text.ceilBoundary span.text.toList
      (min (byteOffset line.toList last) span.stop - span.start) =
        byteSize (span.text.toList.take (last - before.length)) := by
    rw [show min (byteOffset line.toList last) span.stop - span.start =
        min (byteOffset line.toList last - span.start) span.size by rw [stop]; omega,
      min_byteOffset_sub_start h, Text.ceilBoundary_take]
  simp only [clip?, hlower, hupper]
  by_cases hne : (span.between (first - before.length) (last - before.length)).text = ""
  · rw [if_pos hne, if_neg (fun hlt => text_between_ne_iff.mpr hlt hne)]
  · have hle := Nat.le_of_lt (lt_of_text_between_ne hne)
    have hparts := take_append_between span hle
    have hcut : IsCut span.text (byteSize (span.text.toList.take (first - before.length)))
        (byteSize (span.text.toList.take (last - before.length)))
        (span.text.toList.take (first - before.length))
        (span.between (first - before.length) (last - before.length)).text.toList
        (span.text.toList.drop (last - before.length)) :=
      ⟨by rw [hparts, List.take_append_drop], rfl, by rw [hparts]⟩
    rw [if_neg hne, if_pos (text_between_ne_iff.mp hne), hcut.slice?_eq, Option.map_some,
      String.ofList_toList, ← start_between span hle]
    rfl

/-- What a span is clipped to is not empty. -/
theorem text_ne_of_clip? (h : IsCut line span.start span.stop before span.text.toList after)
    {part : Span}
    (hclip : span.clip? (byteOffset line.toList first) (byteOffset line.toList last) = some part) :
    part.text ≠ "" := by
  rw [clip?_eq h] at hclip
  split at hclip
  · cases hclip
  · rename_i hne
    exact Option.some.inj hclip ▸ hne

/-- A span keeps a character if and only if it shares a byte with the range. -/
theorem text_ne_iff_meets (h : IsCut line span.start span.stop before span.text.toList after)
    (first last : Nat) :
    (span.between (first - before.length) (last - before.length)).text ≠ "" ↔
      span.Meets (byteOffset line.toList first) (byteOffset line.toList last) := by
  rw [text_between_ne_iff, ← min_byteOffset_sub_start h, ← min_byteOffset_sub_start h, Meets, stop]
  omega

/-- The characters that a span keeps are the bytes that it shares with the range. -/
theorem isPart_of_text_ne (h : IsCut line span.start span.stop before span.text.toList after)
    (hne : (span.between (first - before.length) (last - before.length)).text ≠ "") :
    IsPart line (byteOffset line.toList first) (byteOffset line.toList last) span
      (span.between (first - before.length) (last - before.length)) := by
  have hle := Nat.le_of_lt (lt_of_text_between_ne hne)
  have hbytes := text_between_ne_iff.mp hne
  have hfirst := min_byteOffset_sub_start h first
  have hlast := min_byteOffset_sub_start h last
  refine ⟨rfl, ?_, ?_, ?_⟩
  · rw [start_between span hle]
    omega
  · rw [stop_between span hle, stop]
    omega
  · rw [(isCut_between h hle).slice?_eq, String.ofList_toList]

end Span

end Highlight
