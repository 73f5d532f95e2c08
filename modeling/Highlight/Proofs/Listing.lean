import Highlight.CommandLine
import Highlight.Proofs.BufferHistory
import Highlight.Proofs.QuotedText
import Highlight.Proofs.Tiling

/-!
# Reading a listing back

What the program prints for a file can be read back: `decode` takes every line of the output for a
number and pieces of text with their kinds. `decode_printAll` says that nothing is lost on the way
from the spans to the output, and `output_lossless`, the main theorem, that therefore the output of
a run has the whole file in it.
-/

namespace Highlight

/-- What a listing shows of a span. -/
def Span.piece (span : Span) : SpanKind × String :=
  (span.kind, span.text)

namespace CommandLine

/-! ## Reading -/

/-- A line of a listing. -/
structure Entry where
  number : Nat
  pieces : List (SpanKind × String)
  deriving DecidableEq, Repr

/-- The text of a line of a listing. -/
def Entry.text (entry : Entry) : String :=
  String.join (entry.pieces.map Prod.snd)

/-- Read a number that is aligned to the right. -/
def readNumber? (chars : List Char) : Option (Nat × List Char) :=
  let blanks := chars.takeWhile (· == ' ')
  let digits := (chars.drop blanks.length).takeWhile (Toml.isDigitOf 10)
  if digits ≠ [] ∧ blanks.length = numberWidth - digits.length then
    some (Toml.numberOf 10 digits, chars.drop (blanks.length + digits.length))
  else
    none

/-- Read the name of a kind, a colon and a quoted text. -/
def readPiece? (chars : List Char) : Option ((SpanKind × String) × List Char) :=
  let name := chars.takeWhile (· != ':')
  (SpanKind.ofName? (String.ofList name)).bind fun kind =>
    (Text.Quoted.read? (chars.drop (name.length + 1))).map fun (text, rest) => ((kind, text), rest)

/-- Reading a piece uses characters up. -/
theorem length_lt_of_readPiece? {chars rest : List Char} {piece : SpanKind × String}
    (h : readPiece? chars = some (piece, rest)) : rest.length < chars.length := by
  obtain ⟨kind, -, hread⟩ := Option.bind_eq_some_iff.mp h
  obtain ⟨⟨text, _⟩, hquoted, heq⟩ := Option.map_eq_some_iff.mp hread
  cases heq
  have := Text.Quoted.length_lt_of_read? hquoted
  rw [List.length_drop] at this
  omega

/-- Read pieces with a blank before each, up to the end of the line. -/
def readPieces? (chars : List Char) : Option (List (SpanKind × String)) :=
  match chars with
  | [] => some []
  | c :: rest =>
      if c = ' ' then
        match _ : readPiece? rest with
        | none => none
        | some (piece, after) => (readPieces? after).map (piece :: ·)
      else
        none
termination_by chars.length
decreasing_by exact Nat.lt_succ_of_lt (length_lt_of_readPiece? ‹_›)

/-- Read a line of a listing. The blank behind the number is there even if no pieces follow. -/
def readRow? (chars : List Char) : Option Entry :=
  (readNumber? chars).bind fun (number, rest) =>
    if rest = [' '] then some ⟨number, []⟩ else (readPieces? rest).map (⟨number, ·⟩)

/-- Read a listing. A line break ends each of its lines. -/
def decode (output : String) : Option (List Entry) :=
  let rows := Text.lines output.toList
  if rows.getLast? = some [] then rows.dropLast.mapM readRow? else none

/-! ## Reading what was printed -/

/-- The blanks in front of a number end with its first digit. -/
theorem takeWhile_blanks_append (count number : Nat) (rest : List Char) :
    (List.replicate count ' ' ++ (Nat.toDigits 10 number ++ rest)).takeWhile (· == ' ') =
      List.replicate count ' ' := by
  have hblank : ' ' ∉ Nat.toDigits 10 number := Toml.not_mem_toDigits (by decide) rfl number
  cases hdigits : Nat.toDigits 10 number with
  | nil => exact absurd hdigits Nat.toDigits_ne_nil
  | cons digit digits =>
      rw [hdigits, List.mem_cons, not_or] at hblank
      rw [List.takeWhile_append_of_pos (by simp), List.cons_append, List.takeWhile_cons_of_neg,
        List.append_nil]
      simpa using Ne.symm hblank.1

/-- A number is read back. -/
theorem readNumber?_renderNumber (number : Nat) (rest : List Char) :
    readNumber? ((renderNumber number).toList ++ ' ' :: rest) = some (number, ' ' :: rest) := by
  have hchars : (renderNumber number).toList ++ ' ' :: rest =
      List.replicate (numberWidth - (Nat.toDigits 10 number).length) ' ' ++
        (Nat.toDigits 10 number ++ ' ' :: rest) := by
    simp [renderNumber]
  have hbase : 1 < 10 ∧ 10 ≤ 16 := by decide
  have hblank : Toml.isDigitOf 10 ' ' = false := rfl
  rw [hchars, readNumber?, takeWhile_blanks_append, List.drop_left,
    Toml.takeWhile_toDigits_append hbase hblank, Toml.numberOf_toDigits hbase,
    if_pos ⟨Nat.toDigits_ne_nil, List.length_replicate⟩, ← List.drop_drop, List.drop_left,
    List.drop_left]

/-- The names of the kinds do not have the character that ends them, or one that ends a line. -/
theorem not_mem_name (kind : SpanKind) : ':' ∉ kind.name.toList ∧ '\n' ∉ kind.name.toList := by
  cases kind <;> decide

/-- A span is read back as its piece, whatever follows. -/
theorem readPiece?_renderSpan (span : Span) (rest : List Char) :
    readPiece? ((renderSpan span).toList ++ rest) = some (span.piece, rest) := by
  have hchars : (renderSpan span).toList ++ rest =
      span.kind.name.toList ++ ':' :: ((Text.Quoted.encode span.text).toList ++ rest) := by
    simp [renderSpan]
  have hname : (span.kind.name.toList ++ ':' ::
      ((Text.Quoted.encode span.text).toList ++ rest)).takeWhile (· != ':') =
        span.kind.name.toList := by
    have hcolon : ∀ c ∈ span.kind.name.toList, (c != ':') = true := fun c hc =>
      bne_iff_ne.mpr fun heq => (not_mem_name span.kind).1 (heq ▸ hc)
    rw [List.takeWhile_append_of_pos hcolon, List.takeWhile_cons_of_neg (by decide),
      List.append_nil]
  rw [hchars, readPiece?, hname, String.ofList_toList, SpanKind.ofName?_name, Option.bind_some,
    ← List.drop_drop, List.drop_left, List.drop_succ_cons, List.drop_zero,
    Text.Quoted.read?_encode]
  rfl

/-- Behind a blank a piece is read, and then the others. -/
theorem readPieces?_blank {rest after : List Char} {piece : SpanKind × String}
    (h : readPiece? rest = some (piece, after)) :
    readPieces? (' ' :: rest) = (readPieces? after).map (piece :: ·) := by
  rw [readPieces?, if_pos rfl]
  split
  · rename_i hnone
    cases hnone.symm.trans h
  · rename_i hsome
    cases hsome.symm.trans h
    rfl

/-- Spans with blanks in front of them are read back as their pieces. -/
theorem readPieces?_flatMap (spans : List Span) :
    readPieces? (spans.flatMap fun span => ' ' :: (renderSpan span).toList) =
      some (spans.map Span.piece) := by
  induction spans with
  | nil => rw [List.flatMap_nil, readPieces?]; rfl
  | cons span rest ih =>
      rw [List.flatMap_cons, List.cons_append,
        readPieces?_blank (readPiece?_renderSpan span _), ih]
      rfl

/-- A line of output without the line break at its end. -/
def row (number : Nat) (spans : List Span) : List Char :=
  (renderNumber number).toList ++ ' ' :: (" ".intercalate (spans.map renderSpan)).toList

/-- A line of output is its row and a line break. -/
theorem toList_renderLine (number : Nat) (spans : List Span) :
    (renderLine number spans).toList = row number spans ++ ['\n'] := by
  simp [renderLine, row]

/-- If there are spans, the blank behind the number is the one before the first of them. -/
theorem cons_intercalate (span : Span) (rest : List Span) :
    ' ' :: (" ".intercalate ((span :: rest).map renderSpan)).toList =
      (span :: rest).flatMap fun span => ' ' :: (renderSpan span).toList := by
  induction rest generalizing span with
  | nil => simp
  | cons next rest ih =>
      rw [List.flatMap_cons, ← ih next]
      simp [String.toList_intercalate]

/-- A row is read back. -/
theorem readRow?_row (number : Nat) (spans : List Span) :
    readRow? (row number spans) = some ⟨number, spans.map Span.piece⟩ := by
  rw [readRow?, row, readNumber?_renderNumber, Option.bind_some]
  cases spans with
  | nil => exact if_pos rfl
  | cons span rest =>
      -- A colon tells the pieces from the blank that stands alone where there are none.
      have hne : (span :: rest).flatMap (fun span => ' ' :: (renderSpan span).toList) ≠ [' '] := by
        intro heq
        have hcolon : ':' ∈ (span :: rest).flatMap fun span => ' ' :: (renderSpan span).toList := by
          simp [renderSpan]
        rw [heq] at hcolon
        exact absurd hcolon (by decide)
      rw [cons_intercalate]
      dsimp only
      rw [if_neg hne, readPieces?_flatMap]
      rfl

/-- A number has no line break. -/
theorem not_mem_renderNumber (number : Nat) : '\n' ∉ (renderNumber number).toList := by
  have hdigits : '\n' ∉ Nat.toDigits 10 number := Toml.not_mem_toDigits (by decide) rfl number
  simp [renderNumber, hdigits]

/-- A span that is written out has no line break. -/
theorem not_mem_renderSpan (span : Span) : '\n' ∉ (renderSpan span).toList := by
  simp [renderSpan, (not_mem_name span.kind).2, Text.Quoted.not_mem_encode]

/-- A row has no line break. -/
theorem not_mem_row (number : Nat) (spans : List Span) : '\n' ∉ row number spans := by
  have hspans : '\n' ∉ ' ' :: (" ".intercalate (spans.map renderSpan)).toList := by
    cases spans with
    | nil => decide
    | cons span rest =>
        rw [cons_intercalate]
        simp [not_mem_renderSpan]
  rw [row, List.mem_append, not_or]
  exact ⟨not_mem_renderNumber number, hspans⟩

/-- Rows with a line break after each are read as the rows and an empty one. -/
theorem lines_flatMap_append_break {rows : List (List Char)} (h : ∀ chars ∈ rows, '\n' ∉ chars) :
    Text.lines (rows.flatMap (· ++ ['\n'])) = rows ++ [[]] := by
  induction rows with
  | nil => rfl
  | cons row rest ih =>
      rw [List.forall_mem_cons] at h
      rw [List.flatMap_cons, List.append_assoc, List.singleton_append,
        Text.lines_append_break h.1, ih h.2]
      rfl

/-- A listing of any spans under any numbers is read back. -/
theorem decode_join_renderLine (entries : List (Nat × List Span)) :
    decode (String.join (entries.map fun entry => renderLine entry.1 entry.2)) =
      some (entries.map fun entry => ⟨entry.1, entry.2.map Span.piece⟩) := by
  have hchars : (String.join (entries.map fun entry => renderLine entry.1 entry.2)).toList =
      (entries.map fun entry => row entry.1 entry.2).flatMap (· ++ ['\n']) := by
    simp [String.toList_join, List.flatMap_map, toList_renderLine]
  have hrows : ∀ chars ∈ entries.map fun entry => row entry.1 entry.2, '\n' ∉ chars :=
    List.forall_mem_map.mpr fun entry _ => not_mem_row entry.1 entry.2
  simp only [decode, hchars, lines_flatMap_append_break hrows, List.getLast?_concat,
    List.dropLast_concat, if_true, List.mapM_map, Function.comp_def, readRow?_row]
  exact List.mapM_pure

end CommandLine

/-! ## The spans of all lines -/

open LineSource (lineText beginsInComment)

namespace Styler

variable {styler : Styler}

/-- The spans of a line that follow from the text. -/
def spansIn {α : Type} [LineSource α] (styler : Styler) (lines : α) (line : Nat) : List Span :=
  styler.keywords.split (Line.scan (lineText lines line)
    (beginsInComment lines styler.shellComments line) styler.shellComments).spans

/-- With an accurate cache an existing line gets its spans. -/
theorem styleLine_of_accurate {α : Type} [LineSource α] {lines : α} {line : Nat}
    (h : styler.cache.AccurateTo .all lines styler.shellComments) (hline : line < lineCount lines) :
    styler.styleLine lines line = .ok (styler.spansIn lines line, styler.askedFor lines line) := by
  rw [styleLine, startsInComment, h.query hline trivial]
  rfl

/-- The spans of a line make it up. -/
theorem concat_spansIn {α : Type} [LineSource α] (styler : Styler) (lines : α) (line : Nat) :
    Span.concat (styler.spansIn lines line) = lineText lines line := by
  apply String.toList_inj.mp
  rw [spansIn, Line.scan, KeywordSet.split_layOut, Lexeme.toList_concat_layOut,
    KeywordSet.flatten_splitLexemes, Line.flatten_read]

end Styler

namespace CommandLine

/-- Lines that are styled one after the other are there, and they have the spans that follow from
the text. -/
theorem printLines_of_accurate {buffer : TextBuffer} {styler : Styler} {line count : Nat}
    (h : styler.cache.AccurateTo .all buffer styler.shellComments)
    (hcount : line + count ≤ lineCount buffer) :
    printLines buffer count line styler =
      .all (String.join ((List.range' line count).map fun index =>
        renderLine (index + 1) (styler.spansIn buffer index))) := by
  induction count generalizing line styler with
  | zero => rfl
  | succ count ih =>
      have hline : line < lineCount buffer := by omega
      have hrest : line + 1 + count ≤ lineCount buffer := by omega
      -- The styler that goes on to the next line knows more lines, all of them rightly.
      have haccurate : (styler.askedFor buffer line).cache.AccurateTo .all buffer
          styler.shellComments := h.extendTo line
      rw [printLines, Styler.styleLine_of_accurate h hline]
      simp only [ih haccurate hrest]
      rw [List.range'_succ, List.map_cons, String.join_cons]
      rfl

/-- All lines of a buffer are printed. -/
theorem printAll_of_accurate {buffer : TextBuffer} {styler : Styler}
    (h : styler.cache.AccurateTo .all buffer styler.shellComments) :
    printAll styler buffer = .all (String.join ((List.range (lineCount buffer)).map fun index =>
      renderLine (index + 1) (styler.spansIn buffer index))) := by
  rw [printAll, printLines_of_accurate h (Nat.le_of_eq (Nat.zero_add _)), List.range_eq_range']

/-- The listing of a buffer: an entry for each line, numbered from one. -/
def listingOf (styler : Styler) (buffer : TextBuffer) : List Entry :=
  (List.range (lineCount buffer)).map fun line =>
    ⟨line + 1, (styler.spansIn buffer line).map Span.piece⟩

/-- What is printed for a buffer is read back as its listing. -/
theorem decode_printAll {buffer : TextBuffer} {styler : Styler}
    (h : styler.cache.AccurateTo .all buffer styler.shellComments) :
    decode (printAll styler buffer).output = some (listingOf styler buffer) := by
  have hlisting : (printAll styler buffer).output =
      String.join (((List.range (lineCount buffer)).map
        fun line => (line + 1, styler.spansIn buffer line)).map
          fun entry => renderLine entry.1 entry.2) := by
    rw [printAll_of_accurate h, List.map_map]
    rfl
  rw [hlisting, decode_join_renderLine, List.map_map]
  rfl

/-- The entries of a listing are numbered from one. -/
theorem map_number_listingOf (styler : Styler) (buffer : TextBuffer) :
    (listingOf styler buffer).map Entry.number = List.range' 1 (lineCount buffer) := by
  rw [listingOf, List.map_map, List.range'_eq_map_range]
  exact List.map_congr_left fun line _ => Nat.add_comm line 1

/-- An entry of a listing shows the spans of its line. -/
theorem getElem?_listingOf {styler : Styler} {buffer : TextBuffer} {line : Nat} {entry : Entry}
    (h : (listingOf styler buffer)[line]? = some entry) :
    line < lineCount buffer ∧ entry.pieces = (styler.spansIn buffer line).map Span.piece := by
  rw [listingOf, List.getElem?_map] at h
  obtain ⟨index, hindex, rfl⟩ := Option.map_eq_some_iff.mp h
  obtain ⟨hline, rfl⟩ := List.getElem?_eq_some_iff.mp hindex
  rw [List.length_range] at hline
  exact ⟨hline, by rw [List.getElem_range]⟩

/-- The entries of a listing have the text of the lines. -/
theorem map_text_listingOf (styler : Styler) (buffer : TextBuffer) :
    (listingOf styler buffer).map Entry.text = buffer.lines := by
  rw [listingOf, List.map_map]
  refine List.map_congr_left fun line _ => ?_
  rw [← styler.concat_spansIn buffer line, Function.comp_apply, Entry.text, Span.concat,
    List.map_map]
  rfl

/-! ## Runs that style a file -/

/-- What a run has before it that styles a file: what the arguments ask for, and the text and the
language that were found. -/
structure Job (host : Host) (arguments : List ByteArray) where
  options : Options
  path : String
  text : String
  registry : Language.Registry
  language : Language
  parse_eq : parse .empty arguments = .ok (.style options)
  list_eq : options.list = false
  file?_eq : options.file? = some path
  readText_eq : host.files.readText path = .ok text
  loadAll_eq : loadAll host .standard options.languageFiles = .ok registry
  get?_eq : registry.get? host.order (languageName options registry path) = some language

namespace Job

variable {host : Host} {arguments : List ByteArray}

/-- The file as a buffer. -/
def buffer (job : Job host arguments) : TextBuffer :=
  { TextBuffer.ofText job.text with fileName? := some job.path }

/-- With all found, the run succeeds and prints the listing of the file. -/
theorem run_eq (job : Job host arguments) :
    run host arguments = ⟨(printAll (.ofLanguage job.language) job.buffer).output, "", 0⟩ := by
  have hload : TextBuffer.load host.files job.path = .ok job.buffer := by
    rw [TextBuffer.load, job.readText_eq]
    rfl
  have hstyler : job.registry.styler host.order
      (languageName job.options job.registry job.path) = .ok (.ofLanguage job.language) := by
    rw [Language.Registry.styler, job.get?_eq]
  have hexecute : execute host arguments =
      .ok (printAll (.ofLanguage job.language) job.buffer) := by
    simp only [execute, job.parse_eq, perform, job.loadAll_eq, job.list_eq, job.file?_eq, hload,
      hstyler, Except.bind, bind]
    rfl
  rw [run, hexecute, printAll_of_accurate (CommentCache.accurateTo_empty _ _)]
  rfl

end Job

/-- Steps that lead to a result have each a value. -/
theorem exists_of_bind_eq_ok {ε α β : Type} {step : Except ε α} {next : α → Except ε β}
    {result : β} (h : step >>= next = .ok result) :
    ∃ value, step = .ok value ∧ next value = .ok result := by
  cases step with
  | error cause => cases h
  | ok value => exact ⟨value, rfl, h⟩

variable {host : Host} {arguments : List ByteArray} {options : Options} {path : String}

/-- A run that succeeds has printed something. -/
theorem exists_execute_of_exitCode (h : (run host arguments).exitCode = 0) :
    ∃ printed, execute host arguments = .ok printed := by
  cases hexecute : execute host arguments with
  | error stop =>
      rw [run, hexecute] at h
      cases stop <;> cases h
  | ok printed => exact ⟨printed, rfl⟩

/-- A run that styles a file and succeeds has found all that it needs. -/
theorem exists_job_of_exitCode (hparse : parse .empty arguments = .ok (.style options))
    (hlist : options.list = false) (hfile : options.file? = some path)
    (hexit : (run host arguments).exitCode = 0) :
    ∃ job : Job host arguments, job.options = options ∧ job.path = path := by
  obtain ⟨printed, hexecute⟩ := exists_execute_of_exitCode hexit
  have hperform : perform host options = .ok printed := by
    rw [execute, hparse] at hexecute
    change (perform host options).mapError Stop.failure = .ok printed at hexecute
    cases hperform : perform host options with
    | error failure =>
        rw [hperform] at hexecute
        cases hexecute
    | ok other =>
        rw [hperform] at hexecute
        exact congrArg Except.ok (Except.ok.inj hexecute)
  -- Each step has succeeded, and what it found makes up the job.
  obtain ⟨registry, hregistry, hperform⟩ := exists_of_bind_eq_ok hperform
  simp only [hlist, hfile, Bool.false_eq_true, if_false] at hperform
  obtain ⟨buffer, hbuffer, hperform⟩ := exists_of_bind_eq_ok hperform
  obtain ⟨styler, hstyler, -⟩ := exists_of_bind_eq_ok hperform
  obtain ⟨text, htext, -⟩ := exists_of_bind_eq_ok hbuffer
  cases hlanguage : registry.get? host.order (languageName options registry path) with
  | none =>
      rw [Language.Registry.styler, hlanguage] at hstyler
      cases hstyler
  | some language =>
      exact ⟨⟨options, path, text, registry, language, hparse, hlist, hfile, htext, hregistry,
        hlanguage⟩, rfl, rfl⟩

/-- A listing shows the lines of a text in their order, each as a new styler for the language styles
it. -/
structure Shows (listing : List Entry) (language : Language) (buffer : TextBuffer) : Prop where
  /-- There is one entry for each line, and the numbers start at one. -/
  numbers : listing.map Entry.number = List.range' 1 (buffer.text.toList.count '\n' + 1)
  pieces : ∀ line entry, listing[line]? = some entry → ∃ spans,
    ((Styler.ofLanguage language).styleLine buffer line).map Prod.fst = .ok spans ∧
      entry.pieces = spans.map Span.piece
  text : "\n".intercalate (listing.map Entry.text) = buffer.text

/-- The listing of a text shows it. -/
theorem shows_listingOf (language : Language) {buffer : TextBuffer} (h : buffer.Indexed) :
    Shows (listingOf (.ofLanguage language) buffer) language buffer where
  numbers := by rw [map_number_listingOf, h.linesOfText.lineCount_eq]
  pieces line entry hentry := by
    obtain ⟨hline, hpieces⟩ := getElem?_listingOf hentry
    rw [Styler.styleLine_of_accurate (CommentCache.accurateTo_empty _ _) hline]
    exact ⟨_, rfl, hpieces⟩
  text := by rw [map_text_listingOf, h.linesOfText.intercalate_lines]

/-- What is read back from a job's output shows its text. -/
theorem Job.exists_listing (job : Job host arguments) :
    ∃ listing, decode (run host arguments).output = some listing ∧
      Shows listing job.language job.buffer := by
  refine ⟨_, ?_, shows_listingOf job.language (TextBuffer.indexed_ofText job.text)⟩
  rw [job.run_eq]
  exact decode_printAll (CommentCache.accurateTo_empty _ _)

/-- Runs with the same output have styled the same text. -/
theorem Job.text_eq_of_output_eq {otherHost : Host} {otherArguments : List ByteArray}
    (job : Job host arguments) (other : Job otherHost otherArguments)
    (h : (run otherHost otherArguments).output = (run host arguments).output) :
    other.text = job.text := by
  obtain ⟨listing, hdecode, hshows⟩ := job.exists_listing
  obtain ⟨otherListing, hotherDecode, hotherShows⟩ := other.exists_listing
  rw [h, hdecode] at hotherDecode
  cases hotherDecode
  exact hotherShows.text.symm.trans hshows.text

/-- A run that is to style a file succeeds if and only if all that it needs is found. What it prints
is then read back as the listing of the lines, and nothing of the file is lost: no other run that
prints the same has styled another text. -/
theorem output_lossless (host : Host) {arguments : List ByteArray} {options : Options}
    {path : String} (hparse : parse .empty arguments = .ok (.style options))
    (hlist : options.list = false) (hfile : options.file? = some path) :
    ((run host arguments).exitCode = 0 ↔
      ∃ job : Job host arguments, job.options = options ∧ job.path = path) ∧
    ∀ job : Job host arguments, ∃ listing,
      decode (run host arguments).output = some listing ∧
      Shows listing job.language job.buffer ∧
      ∀ {otherHost : Host} {otherArguments : List ByteArray}
        (other : Job otherHost otherArguments),
        (run otherHost otherArguments).output = (run host arguments).output →
          other.text = job.text := by
  refine ⟨⟨exists_job_of_exitCode hparse hlist hfile, ?_⟩, fun job => ?_⟩
  · rintro ⟨job, -, -⟩
    rw [job.run_eq]
  · obtain ⟨listing, hdecode, hshows⟩ := job.exists_listing
    exact ⟨listing, hdecode, hshows, job.text_eq_of_output_eq⟩

/-- A file ends with a line break inside a comment, after a string that its line leaves open. -/
theorem output_lossless_of_open_string :
    let store : FileStore := fun path =>
      if path = "a.c" then .ok "int \"é\\\n/* :\n".toUTF8 else .error Folder.notFound
    let host : Host := ⟨store, .reader, .sorted, fun _ => ""⟩
    let arguments := ["a.c".toUTF8]
    parse .empty arguments = .ok (.style ⟨none, [], false, some "a.c"⟩) ∧
      ∃ (job : Job host arguments) (listing : List Entry),
        decode (run host arguments).output = some listing ∧
        Shows listing job.language job.buffer ∧
        listing.map Entry.pieces =
          [[(.keyword, "int"), (.normal, " "), (.error, "\"é\\")], [(.comment, "/* :")], []] := by
  intro store host arguments
  have hparse : parse .empty arguments = .ok (.style ⟨none, [], false, some "a.c"⟩) :=
    rfl
  obtain ⟨hsucceeds, hlossless⟩ := output_lossless host hparse rfl rfl
  obtain ⟨job, -, -⟩ := hsucceeds.mp (by decide +kernel)
  obtain ⟨listing, hdecode, hshows, -⟩ := hlossless job
  have hpieces : (decode (run host arguments).output).map (List.map Entry.pieces) =
      some [[(.keyword, "int"), (.normal, " "), (.error, "\"é\\")], [(.comment, "/* :")], []] := by
    decide +kernel
  rw [hdecode] at hpieces
  exact ⟨hparse, job, listing, hdecode, hshows, Option.some.inj hpieces⟩

end CommandLine

end Highlight
