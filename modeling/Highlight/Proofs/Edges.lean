import Highlight.Proofs.Automaton
import Highlight.Proofs.Pieces

/-!
# Edges between the spans of a line

Where one span of a line ends and the next one begins, the scan of the line could as well stop and
begin anew. `readCode_flatten_append` says this of code: up to an edge a text is read alike,
whatever stands behind the lexeme that begins there, and `Line.read_append` says it of lines that
may begin inside a block comment. So a line can be cut at any edge, `scan_cut`, and text that is
typed at its end changes the last span at most, `dropLast_scan_isPrefix`.

A lexeme can tell what follows it by the beginning of the next one only, `BeginsLike`. Whether the
next line begins inside a comment can be told from the last lexeme, `inComment_readCode_iff`.
-/

namespace Highlight

namespace Lexeme

open Automaton (firstLexeme_rest_of_inComment)

/-! ## The end of a text -/

/-- The lexeme opens a block comment that goes on with the next line. -/
def LeavesOpen (lexeme : Lexeme) : Prop :=
  ∃ body, lexeme = ⟨.comment, '/' :: '*' :: body⟩ ∧ ¬ ['*', '/'] <:+: body

variable {shellComments : Bool} {chars : List Char}

/-- Reading the first lexeme ends inside a comment if and only if the lexeme leaves one open. -/
theorem inComment_firstLexeme_iff (shellComments : Bool) (c : Char) (rest : List Char) :
    (firstLexeme shellComments c rest).inComment = true ↔
      (firstLexeme shellComments c rest).lexeme.LeavesOpen := by
  unfold firstLexeme
  split
  · simp [LeavesOpen]
  · rename_i hopening
    constructor
    · intro hfalse
      cases hfalse
    · rintro ⟨body, hlexeme, -⟩
      -- A text that begins like this opens a block comment, and this one a line comment.
      rw [(Lexeme.mk.inj hlexeme).2] at hopening
      cases hopening
  · rename_i hopening
    obtain ⟨line, hline⟩ := opening_eq_blockComment_iff.mp hopening
    obtain ⟨rfl, rfl⟩ := List.cons.inj hline
    rw [List.drop_one, List.tail_cons]
    split
    · rename_i body after hend
      constructor
      · intro hfalse
        cases hfalse
      · rintro ⟨body', hlexeme, hopen⟩
        obtain rfl : body = body' := by simpa using hlexeme
        exact absurd (Grammar.endsAtFirst_of_blockEnd? hend).1.isInfix hopen
    · rename_i hend
      exact iff_of_true rfl ⟨line, rfl, Grammar.blockEnd?_eq_none_iff.mp hend⟩
  · split <;> simp [LeavesOpen]

/-- Only an empty text has no lexemes. -/
theorem eq_nil_of_lexemes_readCode (h : (readCode shellComments chars).lexemes = []) :
    chars = [] := by
  rw [← flatten_readCode shellComments chars, h, flatten_nil]

/-- The line after a text begins inside a comment if and only if the last lexeme of the text leaves
one open. -/
theorem inComment_readCode_iff (shellComments : Bool) (chars : List Char) :
    (readCode shellComments chars).inComment = true ↔
      ∃ last ∈ (readCode shellComments chars).lexemes.getLast?, last.LeavesOpen := by
  fun_induction readCode shellComments chars with
  | case1 => simp
  | case2 c rest step ih =>
      have hstep := inComment_firstLexeme_iff shellComments c rest
      show (step.inComment || (readCode shellComments step.rest).inComment) = true ↔
        ∃ last ∈ ([step.lexeme] ++ (readCode shellComments step.rest).lexemes).getLast?,
          last.LeavesOpen
      by_cases hrest : step.rest = []
      · rw [hrest, readCode]
        simpa using hstep
      · have hclosed : step.inComment = false :=
          Bool.eq_false_iff.mpr (mt firstLexeme_rest_of_inComment hrest)
        rw [hclosed, Bool.false_or, ih,
          List.getLast?_append_of_ne_nil _ (mt eq_nil_of_lexemes_readCode hrest)]

/-- The first lexeme of a text begins with the first character. -/
theorem head?_of_mem_head?_readCode {first : Lexeme}
    (h : first ∈ (readCode shellComments chars).lexemes.head?) :
    first.chars.head? = chars.head? := by
  cases chars with
  | nil =>
      rw [readCode] at h
      cases h
  | cons c rest =>
      rw [readCode] at h
      obtain rfl : (firstLexeme shellComments c rest).lexeme = first := Option.some.inj h
      obtain ⟨more, hmore⟩ := exists_firstLexeme_chars shellComments c rest
      rw [hmore]
      rfl

end Lexeme

namespace Grammar

open Lexeme (readCode readComment flatten)

/-! ## Rows with one front -/

/-- A lexeme that can stand before the second row can stand before the first. -/
def BeginsLike (first second : List Lexeme) : Prop :=
  ∀ next ∈ first.head?, ∃ other ∈ second.head?,
    (next.kind = .normal → other.kind = .normal) ∧
      (next.chars.head? = some '/' → other.chars.head? = some '/')

variable {shellComments shellComments' : Bool} {lexeme next : Lexeme}
  {front later other : List Lexeme} {rest : List Char}

/-- Only an empty row begins like the empty one. -/
theorem BeginsLike.eq_nil (h : BeginsLike other []) : other = [] := by
  cases other with
  | nil => rfl
  | cons next rest =>
      obtain ⟨other, hother, -⟩ := h next rfl
      cases hother

/-- Behind the same front two rows begin alike if they do. -/
theorem BeginsLike.append (h : BeginsLike other later) (front : List Lexeme) :
    BeginsLike (front ++ other) (front ++ later) := by
  cases front with
  | nil => exact h
  | cons lexeme front => exact fun next hnext => ⟨next, hnext, id, id⟩

/-- A lexeme keeps its form before a text that begins like the one that follows. -/
theorem Form.of_beginsLike (h : Form shellComments lexeme later)
    (hlike : BeginsLike other later) : Form shellComments lexeme other := by
  cases h with
  | blockComment hends => exact .blockComment hends
  | openComment hopen =>
      rw [hlike.eq_nil]
      exact .openComment hopen
  | slashComment =>
      rw [hlike.eq_nil]
      exact .slashComment
  | shellComment hshell =>
      rw [hlike.eq_nil]
      exact .shellComment hshell
  | string hmark hopen hclose => exact .string hmark hopen hclose
  | error hmark hopen =>
      rw [hlike.eq_nil]
      exact .error hmark hopen
  | normal hchars hplain hafter =>
      refine .normal hchars hplain fun next hnext => ?_
      obtain ⟨like, hmem, hkind, hslash⟩ := hlike next hnext
      obtain ⟨hne, hlast⟩ := hafter like hmem
      exact ⟨mt hkind hne, fun hhead => hlast (hslash hhead)⟩

/-- Behind a front with forms another row can take the place of one that begins like it. -/
theorem Forms.append_of_beginsLike (h : Forms shellComments (front ++ later))
    (hfront : ∀ lexeme ∈ front, ∀ after, Form shellComments lexeme after →
      Form shellComments' lexeme after)
    (hother : Forms shellComments' other) (hlike : BeginsLike other later) :
    Forms shellComments' (front ++ other) := by
  induction front with
  | nil => exact hother
  | cons lexeme front ih =>
      obtain ⟨hform, hrest⟩ := h
      obtain ⟨hlexeme, hfront⟩ := List.forall_mem_cons.mp hfront
      exact ⟨hlexeme _ (hform.of_beginsLike (hlike.append front)), ih hrest hfront⟩

/-- The last lexemes of a line have their forms. -/
theorem Forms.of_append (h : Forms shellComments (front ++ later)) :
    Forms shellComments later := by
  induction front with
  | nil => exact h
  | cons lexeme front ih => exact ih h.2

/-- A lexeme with others behind it leaves no comment open. -/
theorem Form.not_leavesOpen (h : Form shellComments lexeme (next :: later)) :
    ¬ lexeme.LeavesOpen := by
  rintro ⟨body, hlexeme, hopen⟩
  cases h with
  | @blockComment body' _ hends =>
      obtain rfl : body' = body := by simpa using hlexeme
      exact hopen hends.1.isInfix
  | string | normal => cases (Lexeme.mk.inj hlexeme).1

/-- A text that begins with the first lexeme of a row is read as a row that begins alike. -/
theorem beginsLike_readCode (hnext : Form shellComments next later)
    (hrest : rest = [] ∨ next.chars <+: rest) :
    BeginsLike (readCode shellComments rest).lexemes (next :: later) := by
  intro first hfirst
  refine ⟨next, rfl, fun hkind => ?_, fun hslash => ?_⟩
  all_goals
    obtain rfl | ⟨tail, rfl⟩ := hrest
    · rw [readCode] at hfirst
      cases hfirst
  · by_contra hne
    have hopening := hnext.opening_ne_plain hne tail
    exact (kind_of_mem_head?_readCode (fun _ => hopening) hfirst).1 hkind
  · rw [Lexeme.head?_of_mem_head?_readCode hfirst,
      List.head?_append_of_ne_nil _ hnext.chars_ne_nil] at hslash
    exact hslash

/-! ## Reading up to an edge -/

/-- A row with forms is what its text is read as. The last lexeme tells whether the next line begins
inside a comment. -/
theorem Forms.readCode_eq {lexemes : List Lexeme} {leavesOpen : Bool}
    (h : Forms shellComments lexemes)
    (hopen : leavesOpen = true ↔ ∃ last ∈ lexemes.getLast?, last.LeavesOpen) :
    readCode shellComments (flatten lexemes) = ⟨lexemes, leavesOpen⟩ := by
  have hlexemes := h.readCode_flatten
  have hread : (readCode shellComments (flatten lexemes)).inComment = leavesOpen := by
    rw [Bool.eq_iff_iff, Lexeme.inComment_readCode_iff, hlexemes, hopen]
  calc readCode shellComments (flatten lexemes)
      = ⟨(readCode shellComments (flatten lexemes)).lexemes,
          (readCode shellComments (flatten lexemes)).inComment⟩ := rfl
    _ = ⟨lexemes, leavesOpen⟩ := by rw [hlexemes, hread]

/-- Up to the edge in front of a lexeme code is read alike, whatever stands behind the lexeme and
also if nothing more comes, and from there on the rest is read on its own. -/
theorem readCode_flatten_append (h : Forms shellComments (front ++ next :: later))
    (hrest : rest = [] ∨ next.chars <+: rest) :
    readCode shellComments (flatten front ++ rest) =
      ⟨front ++ (readCode shellComments rest).lexemes,
        (readCode shellComments rest).inComment⟩ := by
  have hforms : Forms shellComments (front ++ (readCode shellComments rest).lexemes) :=
    h.append_of_beginsLike (fun _ _ _ hform => hform) (forms_readCode shellComments rest)
      (beginsLike_readCode h.of_append.1 hrest)
  have hopen : (readCode shellComments rest).inComment = true ↔
      ∃ last ∈ (front ++ (readCode shellComments rest).lexemes).getLast?, last.LeavesOpen := by
    rw [Lexeme.inComment_readCode_iff]
    cases hlater : (readCode shellComments rest).lexemes with
    | cons first others => rw [List.getLast?_append_of_ne_nil _ (List.cons_ne_nil _ _)]
    | nil =>
        -- Then the last lexeme is one of the front, and others stood behind it.
        rw [List.append_nil]
        refine iff_of_false (by simp) ?_
        rintro ⟨last, hlast, hleaves⟩
        obtain ⟨init, rfl⟩ := List.getLast?_eq_some_iff.mp hlast
        rw [List.append_assoc] at h
        exact h.of_append.1.not_leavesOpen hleaves
  have hread := hforms.readCode_eq hopen
  rwa [Lexeme.flatten_append, Lexeme.flatten_readCode] at hread

/-- Behind the end of a block comment the rest of a line is read as code. -/
theorem readComment_append (h : EndsAtFirst ['*', '/'] rest) (shellComments : Bool)
    (code : List Char) : readComment shellComments (rest ++ code) =
      ⟨⟨.comment, rest⟩ :: (readCode shellComments code).lexemes,
        (readCode shellComments code).inComment⟩ := by
  obtain ⟨c, d, tail, rfl⟩ := h.exists_cons
  rw [List.cons_append, readComment, ← List.cons_append, blockEnd?_append h]
  simp [Lexeme.Step.followedBy]

end Grammar

/-! ## Lines -/

namespace Line

open Lexeme (readCode readComment flatten)

variable {startsInComment shellComments : Bool} {line : String} {next : Lexeme}
  {front later lead : List Lexeme} {rest : List Char}

/-- What stands before the code of a line: nothing, or the end of a block comment. Any code behind
it is read on its own. -/
structure IsLead (startsInComment : Bool) (lead : List Lexeme) : Prop where
  eq_nil_or : lead = [] ∨ ∃ chars, lead = [⟨.comment, chars⟩]
  read_eq : ∀ shellComments code,
    read startsInComment shellComments (String.ofList (flatten lead ++ code)) =
      ⟨lead ++ (readCode shellComments code).lexemes, (readCode shellComments code).inComment⟩

/-- A line of code has an empty lead. -/
theorem isLead_nil : IsLead false [] :=
  ⟨.inl rfl, fun shellComments code => by rw [read, String.toList_ofList]; rfl⟩

/-- A comment up to its end is the lead of a line that begins inside one. -/
theorem isLead_singleton {body : List Char} (h : Grammar.EndsAtFirst ['*', '/'] body) :
    IsLead true [⟨.comment, body⟩] := by
  refine ⟨.inr ⟨body, rfl⟩, fun shellComments code => ?_⟩
  rw [read, if_pos rfl, String.toList_ofList, Lexeme.flatten_cons, Lexeme.flatten_nil,
    List.append_nil, Grammar.readComment_append h]
  rfl

/-- A line is a comment throughout, or it is code behind its lead. -/
theorem read_eq_or_exists_isLead (startsInComment : Bool) (line : String) :
    (∀ shellComments, read startsInComment shellComments line =
        ⟨if line = "" then [] else [⟨.comment, line.toList⟩], true⟩) ∨
      ∃ lead code, IsLead startsInComment lead ∧ line.toList = flatten lead ++ code := by
  cases startsInComment with
  | false => exact .inr ⟨[], line.toList, isLead_nil, rfl⟩
  | true =>
      cases hend : Lexeme.blockEnd? line.toList with
      | some parts =>
          refine .inr ⟨[⟨.comment, parts.1⟩], parts.2,
            isLead_singleton (Grammar.endsAtFirst_of_blockEnd? hend), ?_⟩
          simpa using Lexeme.append_of_blockEnd? hend
      | none =>
          refine .inl fun shellComments => ?_
          rw [read, if_pos rfl]
          cases hchars : line.toList with
          | nil =>
              rw [if_pos (String.toList_inj.mp hchars)]
              rfl
          | cons c rest =>
              have hne : line ≠ "" := by
                rintro rfl
                cases hchars
              rw [hchars] at hend
              rw [if_neg hne, readComment, hend]

/-- No edge of a line lies inside its lead. -/
theorem IsLead.exists_middle {lexemes : List Lexeme} (h : IsLead startsInComment lead)
    (hlexemes : lead ++ lexemes = front ++ later) (hfront : front = [] → lead = []) :
    ∃ middle, front = lead ++ middle ∧ lexemes = middle ++ later := by
  rcases h.eq_nil_or with rfl | ⟨chars, rfl⟩
  · exact ⟨front, rfl, hlexemes⟩
  · obtain ⟨first, middle, rfl⟩ := List.exists_cons_of_ne_nil
      fun hnil => List.cons_ne_nil _ _ (hfront hnil)
    obtain ⟨rfl, hmiddle⟩ := List.cons.inj hlexemes
    exact ⟨middle, rfl, hmiddle⟩

/-- Up to the edge in front of a lexeme a line is read alike, whatever stands behind the lexeme and
also if nothing more comes, and from there on the rest is read on its own. -/
theorem read_append (hread : (read startsInComment shellComments line).lexemes =
      front ++ next :: later) (hfront : front ≠ []) (hrest : rest = [] ∨ next.chars <+: rest) :
    read startsInComment shellComments (String.ofList (flatten front ++ rest)) =
      ⟨front ++ (readCode shellComments rest).lexemes,
        (readCode shellComments rest).inComment⟩ := by
  rcases read_eq_or_exists_isLead startsInComment line with hcomment | ⟨lead, code, hlead, hline⟩
  · -- A comment throughout has no edge.
    have hlength := congrArg List.length hread
    have hpos := List.length_pos_of_ne_nil hfront
    rw [hcomment, List.length_append, List.length_cons] at hlength
    split at hlength <;> simp only [List.length_nil, List.length_singleton] at hlength <;> omega
  · have hcode := hlead.read_eq shellComments code
    rw [← hline, String.ofList_toList] at hcode
    rw [hcode] at hread
    obtain ⟨middle, rfl, hmiddle⟩ := hlead.exists_middle hread fun hnil => absurd hnil hfront
    have hforms := Grammar.forms_readCode shellComments code
    rw [hmiddle] at hforms
    rw [Lexeme.flatten_append, List.append_assoc, hlead.read_eq,
      Grammar.readCode_flatten_append hforms hrest, List.append_assoc]

end Line

/-! ## Spans -/

/-- The span some bytes further on in its line. -/
def Span.movedBy (bytes : Nat) (span : Span) : Span :=
  { span with start := span.start + bytes }

/-- Lexemes that are laid out further on are moved by as much. -/
theorem Lexeme.layOut_add (start bytes : Nat) (lexemes : List Lexeme) :
    layOut (start + bytes) lexemes = (layOut start lexemes).map (Span.movedBy bytes) := by
  induction lexemes generalizing start with
  | nil => rfl
  | cons lexeme rest ih =>
      have hstop : start + bytes + Text.byteSize lexeme.chars =
          start + Text.byteSize lexeme.chars + bytes := by omega
      rw [layOut, layOut, Span.stop_mk, hstop, ih, List.map_cons, Span.stop_mk]
      rfl

/-- If the spans of laid out lexemes are cut in two, so are the lexemes. -/
theorem Lexeme.exists_of_layOut_eq_append {start : Nat} {lexemes : List Lexeme}
    {left right : List Span} (h : layOut start lexemes = left ++ right) :
    ∃ front back, lexemes = front ++ back ∧ layOut start front = left ∧
      layOut (start + Text.byteSize (flatten front)) back = right := by
  induction left generalizing start lexemes with
  | nil => exact ⟨[], lexemes, rfl, rfl, h⟩
  | cons span left ih =>
      cases lexemes with
      | nil => cases h
      | cons lexeme rest =>
          rw [layOut, Span.stop_mk] at h
          obtain ⟨rfl, hrest⟩ := List.cons.inj h
          obtain ⟨front, back, rfl, rfl, hright⟩ := ih hrest
          refine ⟨lexeme :: front, back, rfl, ?_, ?_⟩
          · rw [layOut, Span.stop_mk]
          · rwa [flatten_cons, Text.byteSize_append, ← Nat.add_assoc]

namespace Line

open Lexeme (layOut readCode flatten)

/-- A line can be cut at any edge between its spans. The first part is scanned as the whole line
is and ends outside comments; the second part is scanned as code, and the line ends as it does. -/
theorem scan_cut {line : String} {startsInComment shellComments : Bool} {position : Nat}
    (hedge : ∃ left right, [left, right] <:+: (scan line startsInComment shellComments).spans ∧
      left.stop = position ∧ right.start = position) :
    ∃ before after, line = before ++ after ∧ before.utf8ByteSize = position ∧
      (scan line startsInComment shellComments).spans =
        (scan before startsInComment shellComments).spans ++
          (scan after false shellComments).spans.map (Span.movedBy position) ∧
      (scan line startsInComment shellComments).endsInComment =
        (scan after false shellComments).endsInComment ∧
      (scan before startsInComment shellComments).endsInComment = false := by
  obtain ⟨left, right, ⟨init, tail, hspans⟩, -, hright⟩ := hedge
  have hsplit : layOut 0 (read startsInComment shellComments line).lexemes =
      (init ++ [left]) ++ right :: tail := by simpa [scan] using hspans.symm
  obtain ⟨front, back, hread, hfront, hback⟩ := Lexeme.exists_of_layOut_eq_append hsplit
  cases back with
  | nil => cases hback
  | cons next later =>
      obtain ⟨rfl, -⟩ := List.cons.inj hback
      have hne : front ≠ [] := by
        rintro rfl
        simp [layOut] at hfront
      have hline : line.toList = flatten front ++ flatten (next :: later) := by
        rw [← Lexeme.flatten_append, ← hread, flatten_read]
      have hprefix : flatten (next :: later) = [] ∨ next.chars <+: flatten (next :: later) :=
        .inr (List.prefix_append _ _)
      -- The same front is read once with the rest of the line behind it and once with nothing.
      have hwhole := read_append hread hne hprefix
      have hfirst := read_append hread hne (.inl rfl)
      have hcode := isLead_nil.read_eq shellComments (flatten (next :: later))
      rw [← hline, String.ofList_toList] at hwhole
      rw [List.append_nil, readCode, List.append_nil] at hfirst
      rw [Lexeme.flatten_nil, List.nil_append, List.nil_append] at hcode
      refine ⟨String.ofList (flatten front), String.ofList (flatten (next :: later)), ?_, ?_, ?_⟩
      · rw [← String.ofList_append, ← hline, String.ofList_toList]
      · rw [← Text.byteSize_toList, String.toList_ofList, ← hright, Nat.zero_add]
      · simp only [scan, hwhole, hfirst, hcode, Lexeme.layOut_append, ← hright, Nat.zero_add,
          ← Lexeme.layOut_add, and_self]

/-- The line begins inside a comment, and it is cut between a slash and a string that ends with
backslashes. -/
theorem scan_cut_behind_slash :
    (∃ left right, [left, right] <:+: (scan "é*/a/\"\\\\\"/*" true false).spans ∧
      left.stop = 6 ∧ right.start = 6) ∧
    ∃ before after, "é*/a/\"\\\\\"/*" = before ++ after ∧ before.utf8ByteSize = 6 ∧
      (scan "é*/a/\"\\\\\"/*" true false).spans =
        (scan before true false).spans ++ (scan after false false).spans.map (Span.movedBy 6) ∧
      (scan "é*/a/\"\\\\\"/*" true false).endsInComment =
        (scan after false false).endsInComment ∧
      (scan before true false).endsInComment = false := by
  have hspans : (scan "é*/a/\"\\\\\"/*" true false).spans =
      [⟨.comment, 0, "é*/"⟩, ⟨.normal, 4, "a/"⟩, ⟨.string, 6, "\"\\\\\""⟩,
        ⟨.comment, 10, "/*"⟩] := by decide +kernel
  have hedge : ∃ left right, [left, right] <:+: (scan "é*/a/\"\\\\\"/*" true false).spans ∧
      left.stop = 6 ∧ right.start = 6 := by
    refine ⟨⟨.normal, 4, "a/"⟩, ⟨.string, 6, "\"\\\\\""⟩, ?_, by decide +kernel, rfl⟩
    exact ⟨[⟨.comment, 0, "é*/"⟩], [⟨.comment, 10, "/*"⟩], hspans.symm⟩
  exact ⟨hedge, scan_cut hedge⟩

/-- Text that is typed at the end of a line changes the last span at most. -/
theorem dropLast_scan_isPrefix (line suffix : String) (startsInComment shellComments : Bool) :
    (scan line startsInComment shellComments).spans.dropLast <+:
      (scan (line ++ suffix) startsInComment shellComments).spans := by
  rw [scan, scan]
  rcases List.eq_nil_or_concat (read startsInComment shellComments line).lexemes with
    hread | ⟨front, last, hread⟩
  · rw [hread]
    exact List.nil_prefix
  · rw [List.concat_eq_append] at hread
    rw [hread, Lexeme.layOut_append]
    show (layOut 0 front ++ [_]).dropLast <+: _
    rw [List.dropLast_concat]
    by_cases hne : front = []
    · rw [hne]
      exact List.nil_prefix
    · have hmore := read_append hread hne (.inr (List.prefix_append last.chars suffix.toList))
      have hline : line ++ suffix =
          String.ofList (flatten front ++ (last.chars ++ suffix.toList)) := by
        rw [← String.toList_inj, String.toList_append, ← flatten_read startsInComment
          shellComments, hread, Lexeme.flatten_append]
        simp
      rw [hline, hmore, Lexeme.layOut_append]
      exact List.prefix_append _ _

end Line

end Highlight
