import Highlight.Proofs.Pieces
import Highlight.Proofs.Session
import Highlight.Proofs.WordRuns

/-!
# The tiling of a styled line

The spans of a styled line tile it: `Tiles` says that they leave no gap and no byte out, that each
is the text which its edges cut out of the line, and that no two neighbours should have been one.
`tiles_split_scan` shows this of every scan of every line, with any keywords cut out. The main
theorem, `exists_tiles_of_reachable`, is about stylers, whatever they were asked and told before.
-/

namespace Highlight

open LineSource (lineText)

/-! ## Tilings -/

/-- Spans of these kinds may stand next to each other. Plain text next to plain text would be one
span, and between two keywords there is something else. -/
def SpanKind.CanMeet (left right : SpanKind) : Prop :=
  ¬ (left = .normal ∧ right = .normal) ∧ ¬ (left = .keyword ∧ right = .keyword)

/-- The spans cover the line without gaps or overlaps, each with the text that it covers. -/
structure Tiles (line : String) (spans : List Span) : Prop where
  /-- The first span starts at byte 0, each next one where the one before it stops. -/
  consecutive : Grammar.Consecutive 0 spans
  /-- The last span stops where the line does, and only an empty line has no spans. -/
  stop_eq : (spans.getLast?.map Span.stop).getD 0 = line.utf8ByteSize
  text_ne : ∀ span ∈ spans, span.text ≠ ""
  /-- The edges of each span lie between characters, and its text is what they cut out. -/
  slice?_eq : ∀ span ∈ spans, Text.slice? line span.start span.stop = some span.text
  canMeet : spans.IsChain fun left right => left.kind.CanMeet right.kind

/-- Lexemes that make up a line, laid out, tile it. -/
theorem tiles_layOut {line : String} {lexemes : List Lexeme}
    (hline : Lexeme.flatten lexemes = line.toList) (hne : ∀ lexeme ∈ lexemes, lexeme.chars ≠ [])
    (hmeet : lexemes.IsChain fun left right => left.kind.CanMeet right.kind) :
    Tiles line (Lexeme.layOut 0 lexemes) where
  consecutive := by
    rw [← Grammar.layOut_map_lexeme_iff, Grammar.map_lexeme_layOut]
  stop_eq := by
    rw [Lexeme.stop_getLast?_layOut, hline, Text.byteSize_toList, Nat.zero_add]
  text_ne := by
    intro span hspan htext
    obtain ⟨before, after, hat, -⟩ := Lexeme.mem_layOut_iff.mp hspan
    exact hne _ hat.mem (by rw [Span.lexeme, htext]; rfl)
  slice?_eq := by
    intro span hspan
    obtain ⟨before, after, -, hcut⟩ := (Lexeme.mem_layOut_iff_isCut hline).mp hspan
    rw [hcut.slice?_eq, String.ofList_toList]
  canMeet := by
    rw [← Grammar.map_lexeme_layOut 0 lexemes, List.isChain_map] at hmeet
    exact hmeet

/-! ## Neighbours among the pieces -/

namespace KeywordSet

open Lexeme (flatten)

variable {keywords : KeywordSet} {lexeme next : Lexeme} {lexemes rest : List Lexeme}

/-- Between two keywords there is another run. -/
theorem isChain_mark {runs : List Run}
    (h : runs.IsChain fun left right => left.isWord ≠ right.isWord) (before : Option Char) :
    (keywords.mark before runs).IsChain
      fun left right => ¬ (left.kind = .keyword ∧ right.kind = .keyword) := by
  induction runs generalizing before with
  | nil => exact List.isChain_nil
  | cons run rest ih =>
      rw [List.isChain_cons] at h
      rw [mark]
      refine List.isChain_cons.mpr ⟨?_, ih h.2 _⟩
      rintro next hnext ⟨hrun, hkeyword⟩
      cases rest with
      | nil => cases hnext
      | cons other rest =>
          obtain rfl := Option.some.inj hnext
          refine h.1 other rfl ?_
          rw [(kindOf_eq_keyword_iff.mp hrun).1, (kindOf_eq_keyword_iff.mp hkeyword).1]

/-- Joining keeps the kind of the first lexeme. -/
theorem head?_kind_joinNormal (lexeme : Lexeme) (rest : List Lexeme) :
    (joinNormal lexeme rest).head?.map Lexeme.kind = some lexeme.kind := by
  cases rest with
  | nil => rfl
  | cons next rest =>
      rw [joinNormal]
      split
      · rename_i hboth
        exact congrArg some hboth.1.symm
      · rfl

/-- A lexeme that is joined to others meets what may follow it, unless two keywords would meet. -/
theorem isChain_joinNormal (h : rest.IsChain fun left right => left.kind.CanMeet right.kind)
    (hhead : ∀ next ∈ rest.head?, ¬ (lexeme.kind = .keyword ∧ next.kind = .keyword)) :
    (joinNormal lexeme rest).IsChain fun left right => left.kind.CanMeet right.kind := by
  cases rest with
  | nil => exact List.isChain_singleton _
  | cons next rest =>
      rw [joinNormal]
      split
      · rename_i hboth
        rw [List.isChain_cons] at h ⊢
        rw [hboth.2] at h
        exact h
      · rename_i hboth
        exact List.isChain_cons_cons.mpr ⟨⟨hboth, hhead next rfl⟩, h⟩

/-- Joining all keeps the kind of the first lexeme. -/
theorem head?_kind_foldr_joinNormal (lexemes : List Lexeme) :
    (lexemes.foldr joinNormal []).head?.map Lexeme.kind = lexemes.head?.map Lexeme.kind := by
  cases lexemes with
  | nil => rfl
  | cons lexeme rest => exact head?_kind_joinNormal lexeme _

/-- When plain text is joined, no two pieces of one sort are left side by side. -/
theorem isChain_foldr_joinNormal
    (h : lexemes.IsChain fun left right => ¬ (left.kind = .keyword ∧ right.kind = .keyword)) :
    (lexemes.foldr joinNormal []).IsChain fun left right => left.kind.CanMeet right.kind := by
  induction lexemes with
  | nil => exact List.isChain_nil
  | cons lexeme rest ih =>
      rw [List.isChain_cons] at h
      refine isChain_joinNormal (ih h.2) fun next hnext => ?_
      have hkind := head?_kind_foldr_joinNormal rest
      rw [Option.mem_def.mp hnext] at hkind
      obtain ⟨other, hother, heq⟩ := Option.map_eq_some_iff.mp hkind.symm
      exact heq ▸ h.1 other hother

/-- In a text that was cut only such pieces meet as may. -/
theorem isChain_splitText (keywords : KeywordSet) (chars : List Char) :
    (keywords.splitText chars).IsChain fun left right => left.kind.CanMeet right.kind :=
  isChain_foldr_joinNormal (isChain_mark (Run.isChain_ofChars chars) none)

/-- Joining makes no empty lexemes. -/
theorem chars_ne_nil_of_mem_joinNormal (hlexeme : lexeme.chars ≠ [])
    (hrest : ∀ next ∈ rest, next.chars ≠ []) (h : next ∈ joinNormal lexeme rest) :
    next.chars ≠ [] := by
  cases rest with
  | nil => exact List.mem_singleton.mp h ▸ hlexeme
  | cons first rest =>
      rw [joinNormal] at h
      split at h
      · rcases List.mem_cons.mp h with rfl | hnext
        · simp [hlexeme]
        · exact hrest next (List.mem_cons_of_mem _ hnext)
      · rcases List.mem_cons.mp h with rfl | hnext
        · exact hlexeme
        · exact hrest next hnext

/-- Each marked lexeme has the characters of a run. -/
theorem exists_run_of_mem_mark {before : Option Char} {runs : List Run}
    (h : lexeme ∈ keywords.mark before runs) : ∃ run ∈ runs, lexeme.chars = run.chars := by
  induction runs generalizing before with
  | nil => cases h
  | cons run rest ih =>
      rcases List.mem_cons.mp h with rfl | hrest
      · exact ⟨run, List.mem_cons_self, rfl⟩
      · obtain ⟨other, hother, hchars⟩ := ih hrest
        exact ⟨other, List.mem_cons_of_mem _ hother, hchars⟩

/-- Cutting a text makes no empty pieces. -/
theorem chars_ne_nil_of_mem_splitText {chars : List Char}
    (h : lexeme ∈ keywords.splitText chars) : lexeme.chars ≠ [] := by
  have hfold : ∀ lexemes : List Lexeme, (∀ next ∈ lexemes, next.chars ≠ []) →
      ∀ next ∈ lexemes.foldr joinNormal [], next.chars ≠ [] := by
    intro lexemes hall
    induction lexemes with
    | nil => exact hall
    | cons first rest ih =>
        rw [List.forall_mem_cons] at hall
        exact fun next => chars_ne_nil_of_mem_joinNormal hall.1 (ih hall.2)
  refine hfold _ (fun next hnext => ?_) lexeme h
  obtain ⟨run, hrun, hchars⟩ := exists_run_of_mem_mark hnext
  exact hchars ▸ (Run.uniform_of_mem_ofChars hrun).chars_ne_nil

/-- Cutting a lexeme makes no empty pieces. -/
theorem chars_ne_nil_of_mem_splitLexeme (hlexeme : lexeme.chars ≠ [])
    (h : next ∈ keywords.splitLexeme lexeme) : next.chars ≠ [] := by
  rw [splitLexeme] at h
  split at h
  · exact chars_ne_nil_of_mem_splitText h
  · exact List.mem_singleton.mp h ▸ hlexeme

/-- In a lexeme that was cut only such pieces meet as may. -/
theorem isChain_splitLexeme (keywords : KeywordSet) (lexeme : Lexeme) :
    (keywords.splitLexeme lexeme).IsChain fun left right => left.kind.CanMeet right.kind := by
  rw [splitLexeme]
  split
  · exact isChain_splitText keywords lexeme.chars
  · exact List.isChain_singleton lexeme

/-- What is cut out of plain text meets only what is neither plain text nor a keyword. -/
theorem canMeet_of_follows (h : Lexeme.Follows lexeme next) (hlexeme : lexeme.kind ≠ .keyword)
    (hnext : next.kind ≠ .keyword) :
    ∀ left ∈ (keywords.splitLexeme lexeme).getLast?,
      ∀ right ∈ (keywords.splitLexeme next).head?, left.kind.CanMeet right.kind := by
  intro left hleft right hright
  by_cases hnormal : next.kind = .normal
  · have hother : lexeme.kind ≠ .normal := fun hkind => h.not_normal ⟨hkind, hnormal⟩
    rw [splitLexeme, if_neg hother] at hleft
    obtain rfl := Option.some.inj hleft
    exact ⟨fun hboth => hother hboth.1, fun hboth => hlexeme hboth.1⟩
  · rw [splitLexeme, if_neg hnormal] at hright
    obtain rfl := Option.some.inj hright
    exact ⟨fun hboth => hnormal hboth.2, fun hboth => hnext hboth.2⟩

/-- Cutting the lexemes of a line makes no empty pieces. -/
theorem chars_ne_nil_of_mem_splitLexemes (h : Line.WellRead lexemes)
    (hlexeme : lexeme ∈ keywords.splitLexemes lexemes) : lexeme.chars ≠ [] := by
  rw [splitLexemes] at hlexeme
  split at hlexeme
  · exact h.chars_ne_nil lexeme hlexeme
  · obtain ⟨whole, hwhole, hpiece⟩ := List.mem_flatMap.mp hlexeme
    exact chars_ne_nil_of_mem_splitLexeme (h.chars_ne_nil whole hwhole) hpiece

/-- Of the pieces of a line no two of one sort are side by side. -/
theorem isChain_splitLexemes (h : Line.WellRead lexemes) :
    (keywords.splitLexemes lexemes).IsChain fun left right => left.kind.CanMeet right.kind := by
  rw [splitLexemes]
  split
  · refine h.isChain_follows.imp_of_mem_imp fun left right hleft hright hfollows => ?_
    exact ⟨hfollows.not_normal, fun hboth => h.kind_ne_keyword left hleft hboth.1⟩
  · have hpieces : [] ∉ lexemes.map keywords.splitLexeme := by
      intro hnil
      obtain ⟨lexeme, hlexeme, hempty⟩ := List.mem_map.mp hnil
      have hflatten := flatten_splitLexeme keywords lexeme
      rw [hempty] at hflatten
      exact h.chars_ne_nil lexeme hlexeme hflatten.symm
    rw [List.flatMap_def, List.isChain_flatten hpieces, List.isChain_map]
    refine ⟨?_, h.isChain_follows.imp_of_mem_imp fun left right hleft hright hfollows => ?_⟩
    · intro pieces hmem
      obtain ⟨lexeme, -, rfl⟩ := List.mem_map.mp hmem
      exact isChain_splitLexeme keywords lexeme
    · exact canMeet_of_follows hfollows (h.kind_ne_keyword left hleft)
        (h.kind_ne_keyword right hright)

end KeywordSet

/-- The spans of a line tile it, with its keywords cut out or not. -/
theorem tiles_split_scan (keywords : KeywordSet) (line : String)
    (startsInComment shellComments : Bool) :
    Tiles line (keywords.split (Line.scan line startsInComment shellComments).spans) := by
  have hread := Line.wellRead_read startsInComment shellComments line
  rw [Line.scan, KeywordSet.split_layOut]
  refine tiles_layOut ?_ (fun lexeme => KeywordSet.chars_ne_nil_of_mem_splitLexemes hread)
    (KeywordSet.isChain_splitLexemes hread)
  rw [KeywordSet.flatten_splitLexemes, Line.flatten_read]

/-! ## Styled lines -/

namespace Styler

/-- The states that a styler of a language can come to, whatever lines it is asked about and
whatever edits it is told of. -/
inductive Reachable (language : Language) : Styler → Prop where
  | new : Reachable language (.ofLanguage language)
  | starts {α : Type} [LineSource α] {styler after : Styler} {lines : α} {line : Nat}
      {found : Bool} :
      Reachable language styler → styler.startsInComment lines line = .ok (found, after) →
      Reachable language after
  | style {α : Type} [LineSource α] {styler after : Styler} {lines : α} {line : Nat}
      {spans : List Span} :
      Reachable language styler → styler.styleLine lines line = .ok (spans, after) →
      Reachable language after
  | segment {α : Type} [LineSource α] {styler after : Styler} {lines : α}
      {line start count : Nat} {spans : List Span} :
      Reachable language styler →
      styler.styleSegment lines line start count = .ok (spans, after) →
      Reachable language after
  | noteEdit {styler : Styler} (buffer : TextBuffer) (edit : Edit) :
      Reachable language styler → Reachable language (styler.noteEdit buffer edit).1
  | noteReplaced {styler : Styler} :
      Reachable language styler → Reachable language styler.noteReplaced

variable {α : Type} [LineSource α] {language : Language} {styler : Styler} {lines : α} {line : Nat}

/-- The cache of a styler stays roomy when it is asked for a line. -/
theorem roomy_askedFor (h : styler.cache.Roomy) (lines : α) (line : Nat) :
    (styler.askedFor lines line).cache.Roomy :=
  h.extendTo lines line styler.shellComments

/-- The cache of a styler stays roomy when it is told of an edit. -/
theorem roomy_noteEdit (h : styler.cache.Roomy) (buffer : TextBuffer) (edit : Edit) :
    (styler.noteEdit buffer edit).1.cache.Roomy := by
  unfold noteEdit
  split
  · exact h.rewind _
  · exact h

/-- Whatever happens to a styler, its cache has an entry for each line up to the horizon. -/
theorem Reachable.roomy (h : Reachable language styler) : styler.cache.Roomy := by
  induction h with
  | new => exact CommentCache.roomy_empty
  | starts _ hstarts ih =>
      rw [eq_askedFor_of_startsInComment hstarts]
      exact roomy_askedFor ih _ _
  | style _ hstyle ih =>
      rw [eq_askedFor_of_styleLine hstyle]
      exact roomy_askedFor ih _ _
  | segment _ hsegment ih =>
      rw [eq_askedFor_of_styleSegment hsegment]
      exact roomy_askedFor ih _ _
  | noteEdit buffer edit _ ih => exact roomy_noteEdit ih buffer edit
  | noteReplaced _ ih => exact ih.reset

/-- A line that exists is styled, whatever the cache holds. -/
theorem styleLine_eq (styler : Styler) (hline : line < lineCount lines) :
    styler.styleLine lines line =
      .ok (styler.keywords.split (Line.scan (lineText lines line)
          ((styler.askedFor lines line).cache.entries.getD line false) styler.shellComments).spans,
        styler.askedFor lines line) := by
  rw [styleLine, startsInComment, CommentCache.query_eq,
    if_pos (Nat.lt_of_lt_of_le hline (Nat.le_max_left _ _))]
  rfl

/-- Whatever a styler was asked and told before, it styles each line that there is, from an entry
that its cache has, and the spans tile the line. -/
theorem exists_tiles_of_reachable (h : Reachable language styler) (lines : α)
    (hline : line < lineCount lines) :
    ∃ spans after, styler.styleLine lines line = .ok (spans, after) ∧
      line < after.cache.capacity ∧ Tiles (lineText lines line) spans := by
  refine ⟨_, _, styleLine_eq styler hline, ?_, tiles_split_scan ..⟩
  exact Nat.lt_of_le_of_lt (CommentCache.le_horizon_extendTo ..)
    (roomy_askedFor h.roomy lines line)

/-- The lines have changed since the styler was asked, and it takes the line to begin inside a
comment. -/
theorem exists_tiles_of_reachable_stale :
    ∃ styler, (Styler.ofLanguage ⟨"c", [], ["int", "if"], true⟩).startsInComment
        ["/* é", "x"] 1 = .ok (true, styler) ∧
      Reachable ⟨"c", [], ["int", "if"], true⟩ styler ∧
      1 < lineCount ["a", "int é*/if (ü) \"if"] ∧
      ∃ spans after, styler.styleLine ["a", "int é*/if (ü) \"if"] 1 = .ok (spans, after) ∧
        1 < after.cache.capacity ∧ Tiles "int é*/if (ü) \"if" spans := by
  have hfound : ((Styler.ofLanguage ⟨"c", [], ["int", "if"], true⟩).startsInComment
      ["/* é", "x"] 1).map Prod.fst = .ok true := by decide +kernel
  have hline : 1 < lineCount ["a", "int é*/if (ü) \"if"] := by decide
  cases hasked : (Styler.ofLanguage ⟨"c", [], ["int", "if"], true⟩).startsInComment
      ["/* é", "x"] 1 with
  | error error =>
      rw [hasked] at hfound
      cases hfound
  | ok answer =>
      obtain ⟨found, styler⟩ := answer
      rw [hasked] at hfound
      obtain rfl : found = true := Except.ok.inj hfound
      have hreachable := Reachable.starts .new hasked
      exact ⟨styler, rfl, hreachable, hline, exists_tiles_of_reachable hreachable _ hline⟩

end Styler

end Highlight
