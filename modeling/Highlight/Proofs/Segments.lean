import Highlight.Proofs.CacheHistory
import Highlight.Proofs.Clip
import Highlight.Proofs.Tiling

/-!
# Segments of a styled line

A line that is wider than its view is styled in segments, each a number of characters of it. A
segment is a window on the spans of the line, `IsWindow`: it shows the parts of them that lie in
it and nothing else. Segments that follow one another up to the end of the line are the spans of
the line, cut between characters, `cutRow`. The main theorem, `segments_are_windows`, says this of
every styler.
-/

namespace Highlight

open LineSource (lineText)
open Text (byteSize byteOffset IsCut)

namespace Span

/-! ## Rows of spans -/

/-- The first `count` characters of a row of spans. -/
def takeRow : Nat → List Span → List Span
  | _, [] => []
  | count, span :: rest =>
      if span.length ≤ count then span :: takeRow (count - span.length) rest
      else if count = 0 then []
      else [span.take count]

/-- A row of spans without its first `count` characters. -/
def dropRow : Nat → List Span → List Span
  | _, [] => []
  | count, span :: rest =>
      if span.length ≤ count then dropRow (count - span.length) rest
      else span.drop count :: rest

/-- A row of spans, cut behind its first `count` characters. -/
def cutRow (row : List Span) (count : Nat) : List Span :=
  takeRow count row ++ dropRow count row

/-- Characters that follow one another from byte `start` on, each with its own first byte. -/
def placed (start : Nat) : List Char → List (Nat × Char)
  | [] => []
  | c :: rest => (start, c) :: placed (start + c.utf8Size) rest

/-- The characters of a row of spans, each with its kind and the byte at which it starts. -/
def characters (row : List Span) : List (SpanKind × Nat × Char) :=
  row.flatMap fun span => (placed span.start span.text.toList).map fun c => (span.kind, c)

variable {row : List Span}

/-! ### Characters of a span -/

/-- A span with a text has characters. -/
theorem length_pos {span : Span} (h : span.text ≠ "") : 0 < span.length :=
  Nat.pos_of_ne_zero fun hzero => h (String.length_eq_zero_iff.mp hzero)

/-- What is left of a span is what was not dropped. -/
theorem length_drop (span : Span) (count : Nat) :
    (span.drop count).length = span.length - count := by
  rw [length, drop, String.length_ofList, List.length_drop, String.length_toList, length]

/-- Dropping twice is dropping both at once. -/
theorem drop_drop (span : Span) (count more : Nat) :
    (span.drop count).drop more = span.drop (count + more) := by
  simp [drop, List.take_add, Nat.add_assoc]

/-- A span is taken whole if it is not longer. -/
theorem take_of_length_le {span : Span} {count : Nat} (h : span.length ≤ count) :
    span.take count = span := by
  rw [take, List.take_of_length_le (by rwa [String.length_toList]), String.ofList_toList]

/-- Taking behind what is dropped gives the part between. -/
theorem take_drop (span : Span) {first last : Nat} (h : first ≤ last) :
    (span.drop first).take (last - first) = span.between first last := by
  rw [between, drop, drop, take, take, String.toList_ofList, String.toList_ofList,
    List.drop_take, List.take_take, Nat.min_eq_left h]

/-! ### Characters of a row -/

/-- Later characters are placed where the earlier ones end. -/
theorem placed_append (start : Nat) (left right : List Char) :
    placed start (left ++ right) = placed start left ++ placed (start + byteSize left) right := by
  induction left generalizing start with
  | nil => rfl
  | cons c left ih =>
      rw [List.cons_append, placed, placed, ih, Text.byteSize_cons, Nat.add_assoc]
      rfl

/-- The characters of the first span come first. -/
theorem characters_cons (span : Span) (row : List Span) :
    characters (span :: row) = characters [span] ++ characters row := by
  rw [characters, characters, characters, List.flatMap_cons, List.flatMap_singleton]

/-- The characters of two rows stand one after the other. -/
theorem characters_append (left right : List Span) :
    characters (left ++ right) = characters left ++ characters right :=
  List.flatMap_append

/-- Cut in two, a span keeps its characters, their kind and their places. -/
theorem characters_take_drop (span : Span) (count : Nat) :
    characters [span.take count, span.drop count] = characters [span] := by
  have hparts := placed_append span.start (span.text.toList.take count)
    (span.text.toList.drop count)
  rw [List.take_append_drop] at hparts
  simp [characters, take, drop, hparts]

/-- Cutting a row keeps its characters. -/
theorem characters_cutRow (row : List Span) (count : Nat) :
    characters (cutRow row count) = characters row := by
  induction row generalizing count with
  | nil => rfl
  | cons span rest ih =>
      rw [cutRow, takeRow, dropRow]
      split
      · rw [List.cons_append, characters_cons, ← cutRow, ih, ← characters_cons]
      · split
        · rename_i hzero
          subst hzero
          simp [drop]
        · rw [List.singleton_append, characters_cons, characters_cons (span.drop count),
            ← List.append_assoc, ← characters_append, List.singleton_append, characters_take_drop,
            ← characters_cons]

/-- However often a row of spans is cut, it keeps its characters, their kinds and their places. -/
theorem characters_foldl_cutRow (row : List Span) (cuts : List Nat) :
    characters (cuts.foldl cutRow row) = characters row := by
  induction cuts generalizing row with
  | nil => rfl
  | cons cut cuts ih => rw [List.foldl_cons, ih, characters_cutRow]

/-- A row without empty spans has text if it has spans. -/
theorem eq_nil_iff_concat (h : ∀ span ∈ row, span.text ≠ "") :
    row = [] ↔ (concat row).toList = [] := by
  cases row with
  | nil => simp
  | cons span rest =>
      have hspan := h span List.mem_cons_self
      simp [hspan]

/-- Taking from a row takes from its text. -/
theorem toList_concat_takeRow (row : List Span) (count : Nat) :
    (concat (takeRow count row)).toList = (concat row).toList.take count := by
  induction row generalizing count with
  | nil => simp [takeRow]
  | cons span rest ih =>
      have hlength : span.text.toList.length = span.length := String.length_toList
      rw [concat_cons, String.toList_append, List.take_append, hlength, takeRow]
      split
      · rename_i hle
        have hwhole : span.text.toList.length ≤ count := hlength ▸ hle
        rw [concat_cons, String.toList_append, ih, List.take_of_length_le hwhole]
      · rename_i hlt
        have hzero : count - span.length = 0 := by omega
        split
        · rename_i hcount
          simp [hcount]
        · simp [take, hzero]

/-- Dropping from a row drops from its text. -/
theorem toList_concat_dropRow (row : List Span) (count : Nat) :
    (concat (dropRow count row)).toList = (concat row).toList.drop count := by
  induction row generalizing count with
  | nil => simp [dropRow]
  | cons span rest ih =>
      have hlength : span.text.toList.length = span.length := String.length_toList
      rw [concat_cons, String.toList_append, List.drop_append, hlength, dropRow]
      split
      · rename_i hle
        have hwhole : span.text.toList.length ≤ count := hlength ▸ hle
        rw [ih, List.drop_of_length_le hwhole, List.nil_append]
      · rename_i hlt
        have hzero : count - span.length = 0 := by omega
        simp [drop, hzero]

/-- Characters can be left out in two steps. -/
theorem dropRow_add (row : List Span) (count more : Nat) :
    dropRow (count + more) row = dropRow more (dropRow count row) := by
  induction row generalizing count with
  | nil => rfl
  | cons span rest ih =>
      rcases Nat.lt_or_ge count span.length with hlt | hge
      · rw [dropRow, dropRow, if_neg (Nat.not_le.mpr hlt), dropRow, length_drop, drop_drop]
        have hiff : span.length ≤ count + more ↔ span.length - count ≤ more := by omega
        have hrest : more - (span.length - count) = count + more - span.length := by omega
        simp only [hiff, hrest]
      · rw [dropRow, dropRow, if_pos hge, if_pos (by omega), ← ih]
        congr 1
        omega

/-- Behind the last character nothing is left. -/
theorem dropRow_eq_nil {count : Nat} (h : (concat row).length ≤ count) :
    dropRow count row = [] := by
  induction row generalizing count with
  | nil => rfl
  | cons span rest ih =>
      have hlength : (concat (span :: rest)).length = span.length + (concat rest).length := by
        rw [concat_cons, String.length_append, length]
      rw [dropRow, if_pos (by omega), ih (by omega)]

/-- A row that has no empty spans begins with its first character. -/
theorem dropRow_zero (h : ∀ span ∈ row, span.text ≠ "") : dropRow 0 row = row := by
  cases row with
  | nil => rfl
  | cons span rest =>
      have hpos := length_pos (h span List.mem_cons_self)
      rw [dropRow, if_neg (by omega)]
      simp [drop]

/-- A cut behind the first of two rows cuts the second one. -/
theorem cutRow_append (left right : List Span) (count : Nat) :
    cutRow (left ++ right) ((concat left).length + count) = left ++ cutRow right count := by
  induction left with
  | nil => simp
  | cons span left ih =>
      have hlength : (concat (span :: left)).length = span.length + (concat left).length := by
        rw [concat_cons, String.length_append, length]
      have hrest : (concat (span :: left)).length + count - span.length =
          (concat left).length + count := by omega
      rw [cutRow, List.cons_append, takeRow, dropRow, if_pos (by omega), if_pos (by omega), hrest,
        List.cons_append, ← cutRow, ih, List.cons_append]

/-! ## Parts of a row -/

/-- Taking no characters leaves no span. -/
theorem takeRow_zero (h : ∀ span ∈ row, span.text ≠ "") : takeRow 0 row = [] := by
  cases row with
  | nil => rfl
  | cons span rest =>
      have hpos := length_pos (h span List.mem_cons_self)
      rw [takeRow, if_neg (by omega), if_pos rfl]

/-- The characters of a row between two others are those of its first span, if there are any, and
those of the other spans. -/
theorem takeRow_dropRow_cons (span : Span) (hrow : ∀ other ∈ row, other.text ≠ "")
    {first last : Nat} (hle : first ≤ last) :
    takeRow (last - first) (dropRow first (span :: row)) =
      (if (span.between first last).text = "" then [] else [span.between first last]) ++
        takeRow (last - span.length - (first - span.length))
          (dropRow (first - span.length) row) := by
  have hempty : (span.between first last).text = "" ↔ min last span.length ≤ first := by
    rw [text_between_eq_empty_iff, List.drop_eq_nil_iff, List.length_take, String.length_toList,
      length]
  rw [dropRow]
  rcases Nat.lt_or_ge first span.length with hlt | hge
  · have hnone : first - span.length = 0 := by omega
    rw [if_neg (by omega), hnone, dropRow_zero hrow, takeRow, length_drop]
    rcases Nat.lt_or_ge last span.length with hinside | hbeyond
    · have hrest : last - span.length - 0 = 0 := by omega
      rw [if_neg (by omega), hrest, takeRow_zero hrow, List.append_nil]
      rcases Nat.eq_or_lt_of_le hle with rfl | hpart
      · rw [if_pos (by omega), if_pos (hempty.mpr (by omega))]
      · rw [if_neg (by omega), if_neg (mt hempty.mp (by omega)), take_drop span hle]
    · rw [if_pos (by omega), if_neg (mt hempty.mp (by omega)), between, take_of_length_le hbeyond]
      congr 2
      omega
  · have hcount : last - span.length - (first - span.length) = last - first := by omega
    rw [if_pos hge, if_pos (hempty.mpr (by omega)), hcount, List.nil_append]

/-! ## Windows -/

/-- The spans `pieces` are what a row of spans shows of `count` characters of its line, from
character `start` on. -/
structure IsWindow (line : String) (row : List Span) (start count : Nat) (pieces : List Span) :
    Prop where
  /-- Of each span that lies in the window the part in it is shown, one after the other. -/
  parts : List.Forall₂
    (IsPart line (byteOffset line.toList start) (byteOffset line.toList (start + count)))
    (row.filter fun span =>
      span.Meets (byteOffset line.toList start) (byteOffset line.toList (start + count))) pieces
  toList_concat : (concat pieces).toList = (line.toList.drop start).take count
  eq_nil_iff : pieces = [] ↔ line.length ≤ start ∨ count = 0

/-- The spans of a line, each clipped between the characters `first` and `last` of the line. -/
def clipRow (line : String) (first last : Nat) (row : List Span) : List Span :=
  row.filterMap fun span =>
    span.clip? (byteOffset line.toList first) (byteOffset line.toList last)

variable {line : String} {first last : Nat}

/-- Of the spans of a line just those are left that share bytes with the range, each with what it
shares. -/
theorem forall₂_clipRow (h : ∀ span ∈ row, ∃ before after,
      IsCut line span.start span.stop before span.text.toList after) (first last : Nat) :
    List.Forall₂ (IsPart line (byteOffset line.toList first) (byteOffset line.toList last))
      (row.filter fun span =>
        span.Meets (byteOffset line.toList first) (byteOffset line.toList last))
      (clipRow line first last row) := by
  induction row with
  | nil => exact .nil
  | cons span rest ih =>
      rw [List.forall_mem_cons] at h
      obtain ⟨⟨before, after, hcut⟩, hrest⟩ := h
      have hmeets := text_ne_iff_meets hcut first last
      rw [clipRow, List.filter_cons, List.filterMap_cons, clip?_eq hcut]
      split
      · rename_i hmeet
        have hne := hmeets.mpr (of_decide_eq_true hmeet)
        rw [if_neg hne]
        exact .cons (isPart_of_text_ne hcut hne) (ih hrest)
      · rename_i hmeet
        have hempty : (span.between (first - before.length) (last - before.length)).text = "" :=
          Classical.byContradiction fun hne => hmeet (decide_eq_true (hmeets.mp hne))
        rw [if_pos hempty]
        exact ih hrest

/-- Clipped between two characters of their line, spans of it keep the characters between them. -/
theorem clipRow_layOut {lexemes : List Lexeme} {before : List Char}
    (hline : line.toList = before ++ Lexeme.flatten lexemes)
    (hne : ∀ span ∈ Lexeme.layOut (byteSize before) lexemes, span.text ≠ "")
    (hle : first ≤ last) :
    clipRow line first last (Lexeme.layOut (byteSize before) lexemes) =
      takeRow (last - before.length - (first - before.length))
        (dropRow (first - before.length) (Lexeme.layOut (byteSize before) lexemes)) := by
  induction lexemes generalizing before with
  | nil => rfl
  | cons lexeme rest ih =>
      let span : Span := ⟨lexeme.kind, byteSize before, String.ofList lexeme.chars⟩
      have hchars : span.text.toList = lexeme.chars := String.toList_ofList
      have hlength : span.length = lexeme.chars.length := String.length_ofList
      have hstop : span.stop = byteSize (before ++ lexeme.chars) := by
        rw [Span.stop_mk, Text.byteSize_append]
      have hcut : IsCut line span.start span.stop before span.text.toList
          (Lexeme.flatten rest) := by
        refine ⟨?_, rfl, ?_⟩
        · rw [hchars, hline, Lexeme.flatten_cons, List.append_assoc]
        · rw [hchars, hstop]
      have hrest : line.toList = before ++ lexeme.chars ++ Lexeme.flatten rest := by
        rw [hcut.line_eq, hchars]
      have hrow : Lexeme.layOut (byteSize before) (lexeme :: rest) =
          span :: Lexeme.layOut (byteSize (before ++ lexeme.chars)) rest := by
        rw [← hstop]
        rfl
      rw [hrow] at hne ⊢
      rw [List.forall_mem_cons] at hne
      have hpieces := ih hrest hne.2
      rw [List.length_append, ← Nat.sub_sub, ← Nat.sub_sub, ← hlength] at hpieces
      rw [takeRow_dropRow_cons span hne.2 (Nat.sub_le_sub_right hle _), ← hpieces, clipRow,
        List.filterMap_cons, clip?_eq hcut]
      by_cases hempty :
          (span.between (first - before.length) (last - before.length)).text = ""
      · rw [if_pos hempty, if_pos hempty]
        rfl
      · rw [if_neg hempty, if_neg hempty]
        rfl

section Line

variable {lexemes : List Lexeme} (hline : Lexeme.flatten lexemes = line.toList)
  (hne : ∀ span ∈ Lexeme.layOut 0 lexemes, span.text ≠ "")

include hline hne

/-- Clipped between two characters of their line, the spans of the line are those characters of
the row. -/
theorem clipRow_line (hle : first ≤ last) :
    clipRow line first last (Lexeme.layOut 0 lexemes) =
      takeRow (last - first) (dropRow first (Lexeme.layOut 0 lexemes)) := by
  have hwhole : line.toList = [] ++ Lexeme.flatten lexemes := hline.symm
  exact clipRow_layOut hwhole hne hle

/-- The spans of a line, clipped between two characters of it, are a window on it. -/
theorem isWindow_clipRow (start count : Nat) : IsWindow line (Lexeme.layOut 0 lexemes) start count
    (clipRow line start (start + count) (Lexeme.layOut 0 lexemes)) := by
  have hcuts : ∀ span ∈ Lexeme.layOut 0 lexemes, ∃ before after,
      IsCut line span.start span.stop before span.text.toList after := by
    intro span hspan
    obtain ⟨before, after, -, hcut⟩ := (Lexeme.mem_layOut_iff_isCut hline).mp hspan
    exact ⟨before, after, hcut⟩
  have htext : (concat (clipRow line start (start + count) (Lexeme.layOut 0 lexemes))).toList =
      (line.toList.drop start).take count := by
    rw [clipRow_line hline hne (Nat.le_add_right ..), Nat.add_sub_cancel_left,
      toList_concat_takeRow, toList_concat_dropRow, Lexeme.toList_concat_layOut, hline]
  have hpieces : ∀ piece ∈ clipRow line start (start + count) (Lexeme.layOut 0 lexemes),
      piece.text ≠ "" := by
    intro piece hpiece
    obtain ⟨span, hspan, hclip⟩ := List.mem_filterMap.mp hpiece
    obtain ⟨before, after, hcut⟩ := hcuts span hspan
    exact text_ne_of_clip? hcut hclip
  refine ⟨forall₂_clipRow hcuts start (start + count), htext, ?_⟩
  rw [eq_nil_iff_concat hpieces, htext, List.take_eq_nil_iff, List.drop_eq_nil_iff,
    String.length_toList, or_comm]

end Line

/-! ## Rows cut more than once -/

/-- The parts of a row of spans from character `first` to each of the cuts, one after the other. -/
def partsBetween (row : List Span) (first : Nat) : List Nat → List Span
  | [] => []
  | cut :: cuts => takeRow (cut - first) (dropRow first row) ++ partsBetween row cut cuts

/-- The texts of two rows have their lengths together. -/
theorem length_concat_append (left right : List Span) :
    (concat (left ++ right)).length = (concat left).length + (concat right).length := by
  simp [concat, String.join_append]

/-- A cut in the rest of a row, or behind the row, leaves the characters before the rest alone. -/
theorem cutRow_append_dropRow {left : List Span} {cut : Nat} (hle : first ≤ cut)
    (hleft : (concat left).length = min first (concat row).length) :
    cutRow (left ++ dropRow first row) cut =
      left ++ takeRow (cut - first) (dropRow first row) ++ dropRow cut row := by
  rcases Nat.le_total first (concat row).length with hinside | hbeyond
  · have hcount : cut = (concat left).length + (cut - first) := by omega
    have hdrop := dropRow_add row first (cut - first)
    rw [Nat.add_sub_cancel' hle] at hdrop
    rw [hcount, cutRow_append, ← hcount, cutRow, ← hdrop, List.append_assoc]
  · -- The row ends before the cut, so this has nothing left to cut.
    have hcount : cut = (concat left).length + (cut - (concat left).length) := by omega
    have hcut := cutRow_append left [] (cut - (concat left).length)
    rw [← hcount] at hcut
    rw [dropRow_eq_nil hbeyond, dropRow_eq_nil (Nat.le_trans hbeyond hle), hcut, List.append_nil]
    rfl

/-- Cut at several characters, a row of spans falls into the parts between them. -/
theorem foldl_cutRow_append {left : List Span} {cuts : List Nat}
    (hsorted : (first :: cuts).Pairwise (· ≤ ·))
    (hleft : (concat left).length = min first (concat row).length)
    (hlast : (concat row).length ≤ cuts.getLastD first) :
    cuts.foldl cutRow (left ++ dropRow first row) = left ++ partsBetween row first cuts := by
  induction cuts generalizing left first with
  | nil =>
      rw [List.getLastD_nil] at hlast
      rw [List.foldl_nil, dropRow_eq_nil hlast, partsBetween]
  | cons cut cuts ih =>
      rw [List.getLastD_cons] at hlast
      obtain ⟨hfirst, hcuts⟩ := List.pairwise_cons.mp hsorted
      have hle : first ≤ cut := hfirst cut List.mem_cons_self
      have hpart : (concat (takeRow (cut - first) (dropRow first row))).length =
          min (cut - first) ((concat row).length - first) := by
        rw [← String.length_toList, toList_concat_takeRow, toList_concat_dropRow,
          List.length_take, List.length_drop, String.length_toList]
      have hlength : (concat (left ++ takeRow (cut - first) (dropRow first row))).length =
          min cut (concat row).length := by
        rw [length_concat_append, hpart]
        omega
      rw [List.foldl_cons, cutRow_append_dropRow hle hleft, ih hcuts hlength hlast, partsBetween,
        List.append_assoc]

end Span

namespace Styler

variable {α : Type} [LineSource α] {styler after : Styler} {lines : α} {line : Nat}
  {spans : List Span}

/-! ## Segments -/

/-- The segments of a line from character `first` to each of the cuts, one after the other. -/
def styleSegments (styler : Styler) (lines : α) (line first : Nat) :
    List Nat → Except LineOutOfRange (List Span × Styler)
  | [] => .ok ([], styler)
  | cut :: cuts => do
      let (pieces, styler) ← styler.styleSegment lines line first (cut - first)
      let (rest, styler) ← styler.styleSegments lines line cut cuts
      return (pieces ++ rest, styler)

/-- A styler is not changed by being asked for a line again. -/
theorem askedFor_askedFor (styler : Styler) (lines : α) (line : Nat) :
    (styler.askedFor lines line).askedFor lines line = styler.askedFor lines line := by
  have hcache : (styler.askedFor lines line).cache.extendTo lines line styler.shellComments =
      (styler.askedFor lines line).cache :=
    CommentCache.extendTo_of_le (CommentCache.le_horizon_extendTo ..)
  exact congrArg (fun cache => { styler with cache := cache }) hcache

/-- A line that was styled once is styled the same way again. -/
theorem styleLine_askedFor (styler : Styler) (hline : line < lineCount lines) :
    (styler.askedFor lines line).styleLine lines line = styler.styleLine lines line := by
  rw [styleLine_eq _ hline, styleLine_eq _ hline, askedFor_askedFor]
  rfl

/-- A segment is clipped from the styled line. -/
theorem styleSegment_of_styleLine (h : styler.styleLine lines line = .ok (spans, after))
    (start count : Nat) :
    styler.styleSegment lines line start count =
      .ok (Span.clipRow (lineText lines line) start (start + count) spans, after) := by
  rw [styleSegment, h]
  rfl

/-- The spans of a line that exists are lexemes that make it up, laid out. -/
theorem exists_styleLine_eq_layOut (styler : Styler) (hline : line < lineCount lines) :
    ∃ lexemes, styler.styleLine lines line =
        .ok (Lexeme.layOut 0 lexemes, styler.askedFor lines line) ∧
      Lexeme.flatten lexemes = (lineText lines line).toList ∧
      ∀ span ∈ Lexeme.layOut 0 lexemes, span.text ≠ "" := by
  have hstyle := styleLine_eq styler hline
  have htiles := tiles_split_scan styler.keywords (lineText lines line)
    ((styler.askedFor lines line).cache.entries.getD line false) styler.shellComments
  rw [Line.scan, KeywordSet.split_layOut] at hstyle htiles
  refine ⟨_, hstyle, ?_, htiles.text_ne⟩
  rw [KeywordSet.flatten_splitLexemes, Line.flatten_read]

variable {lexemes : List Lexeme}

/-- The segments of a line up to each of the cuts are the parts of its row between them. -/
theorem exists_styleSegments_eq (hstyle : styler.styleLine lines line =
      .ok (Lexeme.layOut 0 lexemes, after))
    (hagain : after.styleLine lines line = .ok (Lexeme.layOut 0 lexemes, after))
    (hflatten : Lexeme.flatten lexemes = (lineText lines line).toList)
    (hne : ∀ span ∈ Lexeme.layOut 0 lexemes, span.text ≠ "") {first : Nat} {cuts : List Nat}
    (hsorted : (first :: cuts).Pairwise (· ≤ ·)) :
    ∃ last, styler.styleSegments lines line first cuts =
      .ok (Span.partsBetween (Lexeme.layOut 0 lexemes) first cuts, last) := by
  induction cuts generalizing styler first with
  | nil => exact ⟨styler, rfl⟩
  | cons cut cuts ih =>
      obtain ⟨hfirst, hcuts⟩ := List.pairwise_cons.mp hsorted
      have hle := hfirst cut List.mem_cons_self
      obtain ⟨last, hrest⟩ := ih hagain hcuts
      refine ⟨last, ?_⟩
      rw [styleSegments, styleSegment_of_styleLine hstyle, Nat.add_sub_cancel' hle,
        Span.clipRow_line hflatten hne hle, Span.partsBetween]
      show (do
        let (rest, styler) ← after.styleSegments lines line cut cuts
        return (_ ++ rest, styler)) = _
      rw [hrest]
      rfl

/-- Whatever a styler holds, it styles each segment of a line that there is as a window on the
spans of the line. One after the other, segments that reach to the end of the line are its spans,
cut between the segments; each character is there once, in its place and with its kind. -/
theorem segments_are_windows (styler : Styler) (lines : α) (hline : line < lineCount lines) :
    ∃ spans after, styler.styleLine lines line = .ok (spans, after) ∧
      (∀ start count, ∃ pieces,
        styler.styleSegment lines line start count = .ok (pieces, after) ∧
          Span.IsWindow (lineText lines line) spans start count pieces) ∧
      ∀ cuts : List Nat, cuts.Pairwise (· ≤ ·) → (lineText lines line).length ≤ cuts.getLastD 0 →
        (styler.styleSegments lines line 0 cuts).map Prod.fst = .ok (cuts.foldl Span.cutRow spans) ∧
          Span.characters (cuts.foldl Span.cutRow spans) = Span.characters spans := by
  obtain ⟨lexemes, hstyle, hflatten, hne⟩ := exists_styleLine_eq_layOut styler hline
  have hagain : (styler.askedFor lines line).styleLine lines line =
      .ok (Lexeme.layOut 0 lexemes, styler.askedFor lines line) := by
    rw [styleLine_askedFor styler hline, hstyle]
  refine ⟨_, _, hstyle, fun start count => ?_, fun cuts hsorted hlast => ?_⟩
  · exact ⟨_, styleSegment_of_styleLine hstyle start count,
      Span.isWindow_clipRow hflatten hne start count⟩
  · have hlength : (Span.concat (Lexeme.layOut 0 lexemes)).length =
        (lineText lines line).length := by
      rw [← String.length_toList, Lexeme.toList_concat_layOut, hflatten, String.length_toList]
    have hfrom : (0 :: cuts).Pairwise (· ≤ ·) :=
      List.pairwise_cons.mpr ⟨fun cut _ => Nat.zero_le cut, hsorted⟩
    obtain ⟨last, hsegments⟩ := exists_styleSegments_eq hstyle hagain hflatten hne hfrom
    have hnone : (Span.concat []).length =
        min 0 (Span.concat (Lexeme.layOut 0 lexemes)).length := (Nat.zero_min _).symm
    have hparts := Span.foldl_cutRow_append hfrom hnone (hlength.symm ▸ hlast)
    rw [List.nil_append, List.nil_append, Span.dropRow_zero hne] at hparts
    exact ⟨by rw [hsegments, hparts]; rfl, Span.characters_foldl_cutRow ..⟩

/-- A cut falls into a keyword, another one between a blank and a letter of two bytes. -/
theorem segments_are_windows_of_wide_letter :
    0 < lineCount ["if é"] ∧
      ∃ spans after, (ofLanguage ⟨"c", [], ["if"], true⟩).styleLine ["if é"] 0 =
          .ok (spans, after) ∧
        (∃ pieces, (ofLanguage ⟨"c", [], ["if"], true⟩).styleSegment ["if é"] 0 1 2 =
            .ok (pieces, after) ∧ Span.IsWindow "if é" spans 1 2 pieces) ∧
        ((ofLanguage ⟨"c", [], ["if"], true⟩).styleSegments ["if é"] 0 0 [1, 3, 9]).map Prod.fst =
          .ok [⟨.keyword, 0, "i"⟩, ⟨.keyword, 1, "f"⟩, ⟨.normal, 2, " "⟩, ⟨.normal, 3, "é"⟩] := by
  have hline : 0 < lineCount ["if é"] := by decide
  obtain ⟨spans, after, hstyle, hwindow, hcuts⟩ :=
    segments_are_windows (ofLanguage ⟨"c", [], ["if"], true⟩) ["if é"] hline
  have hspans : ((ofLanguage ⟨"c", [], ["if"], true⟩).styleLine ["if é"] 0).map Prod.fst =
      .ok [⟨.keyword, 0, "if"⟩, ⟨.normal, 2, " é"⟩] := by decide +kernel
  rw [hstyle] at hspans
  obtain rfl : spans = _ := Except.ok.inj hspans
  refine ⟨hline, _, after, hstyle, hwindow 1 2, ?_⟩
  rw [(hcuts [1, 3, 9] (by decide) (by decide)).1]
  decide +kernel

end Styler

end Highlight
