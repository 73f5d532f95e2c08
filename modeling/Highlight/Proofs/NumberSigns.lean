import Highlight.Proofs.Edges

/-!
# Number signs in plain text

In a language with shell comments a number sign opens a comment. `scan_true_of_false` says what this
comes to: a line is scanned as in a language without them up to the first number sign in plain text,
and from there on it is a comment. Number signs in strings and comments change nothing, for a lexeme
that is not plain text has its form in both languages, `Form.withSigns`.
-/

namespace Highlight

namespace Grammar

open Lexeme (readCode flatten)

variable {lexeme : Lexeme} {front later : List Lexeme} {left right chars : List Char}

/-! ## Code -/

/-- A number sign in plain text. -/
def HasSign (lexeme : Lexeme) : Prop :=
  lexeme.kind = .normal ∧ '#' ∈ lexeme.chars

/-- Without a number sign in plain text, a lexeme keeps its form where these open comments. -/
theorem Form.withSigns (hsign : ¬ HasSign lexeme) (h : Form false lexeme later) :
    Form true lexeme later := by
  cases h with
  | blockComment hends => exact .blockComment hends
  | openComment hopen => exact .openComment hopen
  | slashComment => exact .slashComment
  | shellComment hshell => cases hshell
  | string hmark hopen hclose => exact .string hmark hopen hclose
  | error hmark hopen => exact .error hmark hopen
  | normal hchars hplain hafter =>
      exact .normal hchars { hplain with shell := fun _ hmem => hsign ⟨rfl, hmem⟩ } hafter

/-- The front of plain text is plain. -/
theorem Plain.of_append {shellComments : Bool} (h : Plain shellComments (left ++ right)) :
    Plain shellComments left := by
  obtain ⟨hdouble, hsingle, hblock, hline, hshell⟩ := h
  have hprefix := (List.prefix_append left right).isInfix
  constructor
  · exact fun hmem => hdouble (List.mem_append_left right hmem)
  · exact fun hmem => hsingle (List.mem_append_left right hmem)
  · exact fun hbegins => hblock (hbegins.trans hprefix)
  · exact fun hbegins => hline (hbegins.trans hprefix)
  · exact fun hon hmem => hshell hon (List.mem_append_left right hmem)

/-- The row from the plain text with the first number sign on: what stands there before the sign,
and the comment. -/
def signTail (left comment : List Char) : List Lexeme :=
  (if left = [] then [] else [⟨.normal, left⟩]) ++ [⟨.comment, comment⟩]

/-- The text before a sign and the comment from it on keep their characters. -/
theorem flatten_signTail (left comment : List Char) :
    flatten (signTail left comment) = left ++ comment := by
  rw [signTail]
  split
  · rename_i hleft
    simp [hleft]
  · simp

/-- Before a sign the text is plain, and from it on there is a line comment. -/
theorem forms_signTail (hleft : '#' ∉ left) (h : Plain false left) (comment : List Char) :
    Forms true (signTail left ('#' :: comment)) := by
  have hcomment : Forms true [⟨.comment, '#' :: comment⟩] := ⟨.shellComment rfl, trivial⟩
  rw [signTail]
  split
  · exact hcomment
  · rename_i hne
    refine ⟨.normal hne { h with shell := fun _ => hleft } ?_, hcomment⟩
    rintro _ ⟨⟩
    exact ⟨SpanKind.noConfusion, fun hhead => by cases hhead⟩

/-- The row from the number sign on begins like the row that it takes the place of. -/
theorem beginsLike_signTail (left right comment : List Char) (later : List Lexeme) :
    BeginsLike (signTail left ('#' :: comment)) (⟨.normal, left ++ '#' :: right⟩ :: later) := by
  intro next hnext
  refine ⟨_, rfl, fun _ => rfl, fun hslash => ?_⟩
  rw [signTail] at hnext
  split at hnext
  · obtain rfl := Option.some.inj hnext
    cases hslash
  · rename_i hne
    obtain rfl := Option.some.inj hnext
    rwa [List.head?_append_of_ne_nil _ hne]

/-- Code without number signs in plain text is read alike in both languages. -/
theorem readCode_true_of_not_hasSign
    (h : ∀ lexeme ∈ (readCode false chars).lexemes, ¬ HasSign lexeme) :
    readCode true chars = readCode false chars := by
  have hforms : Forms true (readCode false chars).lexemes := by
    have hread : Forms false ((readCode false chars).lexemes ++ []) := by
      rw [List.append_nil]
      exact forms_readCode false chars
    have hnil : Forms true [] := trivial
    have hlike : BeginsLike [] [] := nofun
    have happend := hread.append_of_beginsLike
      (fun lexeme hmem _ => Form.withSigns (h lexeme hmem)) hnil hlike
    rwa [List.append_nil] at happend
  have hread := hforms.readCode_eq (Lexeme.inComment_readCode_iff false chars)
  rwa [Lexeme.flatten_readCode] at hread

/-- From the first number sign in plain text on, code is a comment. -/
theorem readCode_true_of_sign
    (h : (readCode false chars).lexemes = front ++ ⟨.normal, left ++ '#' :: right⟩ :: later)
    (hfront : ∀ lexeme ∈ front, ¬ HasSign lexeme) (hleft : '#' ∉ left) :
    readCode true chars =
      ⟨front ++ signTail left ('#' :: (right ++ flatten later)), false⟩ := by
  have hread := forms_readCode false chars
  rw [h] at hread
  have hplain : Plain false (left ++ '#' :: right) := by
    cases hread.of_append.1 with
    | normal _ hplain => exact hplain
  have hforms : Forms true (front ++ signTail left ('#' :: (right ++ flatten later))) :=
    hread.append_of_beginsLike (fun lexeme hmem _ => Form.withSigns (hfront lexeme hmem))
      (forms_signTail hleft hplain.of_append _) (beginsLike_signTail left right _ later)
  have hchars : flatten (front ++ signTail left ('#' :: (right ++ flatten later))) = chars := by
    rw [← Lexeme.flatten_readCode false chars, h]
    simp [Lexeme.flatten_append, flatten_signTail]
  rw [← hchars]
  refine hforms.readCode_eq (iff_of_false Bool.false_ne_true ?_)
  rw [signTail, ← List.append_assoc, List.getLast?_concat]
  rintro ⟨_, ⟨⟩, body, hlexeme, -⟩
  cases (List.cons.inj (Lexeme.mk.inj hlexeme).2).1

end Grammar

/-- The spans of lexemes lie between the ends of their row. -/
theorem Lexeme.bounds_of_mem_layOut {start : Nat} {lexemes : List Lexeme} {span : Span}
    (h : span ∈ layOut start lexemes) :
    start ≤ span.start ∧ span.stop ≤ start + Text.byteSize (flatten lexemes) := by
  obtain ⟨before, after, hat, hstart⟩ := mem_layOut_iff.mp h
  rw [hat.flatten_eq, Span.stop, Span.size, ← Text.byteSize_toList, hstart]
  simp only [Span.lexeme, Text.byteSize_append]
  omega

/-! ## Lines -/

namespace Line

open Grammar (HasSign signTail)
open Lexeme (IsAt layOut readCode flatten)

variable {startsInComment : Bool} {line : String} {front later lexemes : List Lexeme}
  {left right : List Char} {position : Nat}

/-- A line without number signs in plain text is read alike in both languages. -/
theorem read_true_of_not_hasSign
    (h : ∀ lexeme ∈ (read startsInComment false line).lexemes, ¬ HasSign lexeme) :
    read startsInComment true line = read startsInComment false line := by
  rcases read_eq_or_exists_isLead startsInComment line with hcomment | ⟨lead, code, hlead, hline⟩
  · rw [hcomment, hcomment]
  · have hread (shellComments : Bool) := hlead.read_eq shellComments code
    rw [← hline, String.ofList_toList] at hread
    rw [hread] at h
    rw [hread, hread, Grammar.readCode_true_of_not_hasSign
      fun lexeme hmem => h lexeme (List.mem_append_right lead hmem)]

/-- From the first number sign in plain text on, a line is a comment. -/
theorem read_true_of_sign
    (h : (read startsInComment false line).lexemes =
      front ++ ⟨.normal, left ++ '#' :: right⟩ :: later)
    (hfront : ∀ lexeme ∈ front, ¬ HasSign lexeme) (hleft : '#' ∉ left) :
    read startsInComment true line =
      ⟨front ++ signTail left ('#' :: (right ++ flatten later)), false⟩ := by
  rcases read_eq_or_exists_isLead startsInComment line with hcomment | ⟨lead, code, hlead, hline⟩
  · -- A comment throughout has no plain text.
    have hmem : ⟨.normal, left ++ '#' :: right⟩ ∈ (read startsInComment false line).lexemes := by
      simp [h]
    rw [hcomment] at hmem
    split at hmem <;> simp at hmem
  · have hread (shellComments : Bool) := hlead.read_eq shellComments code
    rw [← hline, String.ofList_toList] at hread
    rw [hread] at h
    have hempty : front = [] → lead = [] := by
      rintro rfl
      refine hlead.eq_nil_or.resolve_right ?_
      rintro ⟨chars, rfl⟩
      cases congrArg Lexeme.kind (List.cons.inj h).1
    obtain ⟨middle, rfl, hmiddle⟩ := hlead.exists_middle h hempty
    rw [hread, Grammar.readCode_true_of_sign hmiddle
      (fun lexeme hmem => hfront lexeme (List.mem_append_right lead hmem)) hleft,
      List.append_assoc]

/-! ## Spans -/

/-- A number sign stands at this byte of the line, in plain text. -/
def SignAt (spans : List Span) (position : Nat) : Prop :=
  ∃ span ∈ spans, span.kind = .normal ∧ ∃ left right, span.text.toList = left ++ '#' :: right ∧
    span.start + Text.byteSize left = position

/-- The first number sign in plain text stands at this byte of the line. -/
structure FirstSignAt (spans : List Span) (position : Nat) : Prop where
  signAt : SignAt spans position
  not_signAt : ∀ earlier < position, ¬ SignAt spans earlier

/-- A sign in a plain lexeme is one at its byte in the line. -/
theorem signAt_of_isAt {before after : List Char}
    (h : IsAt lexemes before ⟨.normal, left ++ '#' :: right⟩ after) :
    SignAt (layOut 0 lexemes) (Text.byteSize (before ++ left)) := by
  refine ⟨_, h.mem_layOut, rfl, left, right, String.toList_ofList, ?_⟩
  rw [Text.byteSize_append]

/-- If there is no sign at any byte, no lexeme has one. -/
theorem not_hasSign_of_forall_not_signAt (h : ∀ position, ¬ SignAt (layOut 0 lexemes) position) :
    ∀ lexeme ∈ lexemes, ¬ HasSign lexeme := by
  rintro ⟨kind, chars⟩ hmem ⟨rfl, hsign⟩
  obtain ⟨left, right, rfl⟩ := List.append_of_mem hsign
  obtain ⟨front, back, rfl⟩ := List.append_of_mem hmem
  exact h _ (signAt_of_isAt ⟨front, back, rfl, rfl, rfl⟩)

/-- The first number sign in plain text, seen in the lexemes. -/
theorem FirstSignAt.exists_lexemes (h : FirstSignAt (layOut 0 lexemes) position) :
    ∃ front left right later, lexemes = front ++ ⟨.normal, left ++ '#' :: right⟩ :: later ∧
      (∀ lexeme ∈ front, ¬ HasSign lexeme) ∧ '#' ∉ left ∧
      Text.byteSize (flatten front ++ left) = position := by
  obtain ⟨⟨span, hspan, hkind, left, right, htext, rfl⟩, hfirst⟩ := h
  obtain ⟨before, after, ⟨front, later, rfl, rfl, -⟩, hstart⟩ := Lexeme.mem_layOut_iff.mp hspan
  have hlexeme : span.lexeme = ⟨.normal, left ++ '#' :: right⟩ := by
    rw [Span.lexeme, hkind, htext]
  rw [hlexeme] at hfirst ⊢
  rw [hstart, Nat.zero_add] at hfirst ⊢
  have hsize : 0 < '#'.utf8Size := Char.utf8Size_pos _
  refine ⟨front, left, right, later, rfl, ?_, ?_, Text.byteSize_append ..⟩
  · rintro ⟨kind, chars⟩ hmem ⟨rfl, hsign⟩
    obtain ⟨left', right', rfl⟩ := List.append_of_mem hsign
    obtain ⟨init, rest, rfl⟩ := List.append_of_mem hmem
    refine hfirst _ ?_ (signAt_of_isAt ⟨init, rest ++ _ :: later, List.append_assoc .., rfl, rfl⟩)
    simp only [Lexeme.flatten_append, Lexeme.flatten_cons, Text.byteSize_append,
      Text.byteSize_cons]
    omega
  · intro hsign
    obtain ⟨left', right', rfl⟩ := List.append_of_mem hsign
    have hplain : left' ++ '#' :: right' ++ '#' :: right =
        left' ++ '#' :: (right' ++ '#' :: right) := List.append_assoc ..
    rw [hplain] at hfirst
    refine hfirst _ ?_ (signAt_of_isAt ⟨front, later, rfl, rfl, rfl⟩)
    simp only [Text.byteSize_append, Text.byteSize_cons]
    omega

/-- The spans in front of the plain text with a number sign are those that end before the sign. -/
theorem filter_layOut (front later : List Lexeme) (left right : List Char) :
    ((layOut 0 (front ++ ⟨.normal, left ++ '#' :: right⟩ :: later)).filter
        fun span => span.stop ≤ Text.byteSize (flatten front ++ left)) = layOut 0 front := by
  have hsize : 0 < '#'.utf8Size := Char.utf8Size_pos _
  rw [Lexeme.layOut_append, List.filter_append, List.filter_eq_self.mpr,
    List.filter_eq_nil_iff.mpr, List.append_nil]
  · intro span hspan
    rw [decide_eq_true_eq, Text.byteSize_append]
    rcases List.mem_cons.mp hspan with rfl | hlater
    · rw [Span.stop_mk, Text.byteSize_append, Text.byteSize_cons]
      omega
    · have hstart := (Lexeme.bounds_of_mem_layOut hlater).1
      rw [Span.stop_mk, Text.byteSize_append, Text.byteSize_cons] at hstart
      rw [Span.stop]
      omega
  · intro span hspan
    have hstop := (Lexeme.bounds_of_mem_layOut hspan).2
    rw [decide_eq_true_eq, Text.byteSize_append]
    omega

/-- The text before a sign and the comment from it on as spans. -/
theorem layOut_signTail (start : Nat) (left comment : List Char) :
    layOut start (signTail left comment) =
      (if String.ofList left = "" then [] else [⟨.normal, start, String.ofList left⟩]) ++
        [⟨.comment, start + Text.byteSize left, String.ofList comment⟩] := by
  by_cases hleft : left = []
  · subst hleft
    rfl
  · have htext : String.ofList left ≠ "" := by simpa using hleft
    rw [signTail, if_neg hleft, if_neg htext, Lexeme.layOut_append, Lexeme.flatten_cons,
      Lexeme.flatten_nil, List.append_nil]
    rfl

/-- Where number signs open comments, a line is scanned as it is elsewhere, up to the first number
sign in plain text. From there on it is a comment, and it does not end inside a block comment.
Number signs in strings and comments make no difference. -/
theorem scan_true_of_false (line : String) (startsInComment : Bool) :
    ((∀ position, ¬ SignAt (scan line startsInComment false).spans position) →
      scan line startsInComment true = scan line startsInComment false) ∧
    ∀ position, FirstSignAt (scan line startsInComment false).spans position →
      ∃ plain ∈ (scan line startsInComment false).spans, plain.kind = .normal ∧
        ∃ left right comment, plain.text = left ++ "#" ++ right ∧
          plain.start + left.utf8ByteSize = position ∧
          Text.slice? line position line.utf8ByteSize = some comment ∧
          scan line startsInComment true =
            ⟨((scan line startsInComment false).spans.filter fun span => span.stop ≤ position) ++
              ((if left = "" then [] else [⟨.normal, plain.start, left⟩]) ++
                [⟨.comment, position, comment⟩]), false⟩ := by
  constructor
  · intro hsigns
    rw [scan, scan, read_true_of_not_hasSign (not_hasSign_of_forall_not_signAt hsigns)]
  · intro position hfirst
    obtain ⟨front, left, right, later, hread, hfront, hleft, rfl⟩ := hfirst.exists_lexemes
    have hflatten := flatten_read startsInComment false line
    rw [hread, Lexeme.flatten_append, Lexeme.flatten_cons] at hflatten
    have hcut : Text.IsCut line (Text.byteSize (flatten front ++ left)) line.utf8ByteSize
        (flatten front ++ left) ('#' :: (right ++ flatten later)) [] := by
      refine ⟨?_, rfl, ?_⟩
      · simp [← hflatten]
      · simp [← Text.byteSize_toList, ← hflatten]
    have hat : IsAt (read startsInComment false line).lexemes (flatten front)
        ⟨.normal, left ++ '#' :: right⟩ (flatten later) := ⟨front, later, hread, rfl, rfl⟩
    refine ⟨_, hat.mem_layOut, rfl, String.ofList left, String.ofList right, _, ?_, ?_,
      hcut.slice?_eq, ?_⟩
    · simp [← String.toList_inj]
    · rw [← Text.byteSize_toList, String.toList_ofList, Text.byteSize_append]
    · rw [scan, scan, read_true_of_sign hread hfront hleft, hread, filter_layOut,
        Lexeme.layOut_append, layOut_signTail, Nat.zero_add, Text.byteSize_append]

/-- A comment and a string hide the first two number signs of the line, and the third stands in
plain text. In the other line a string hides the only one. -/
theorem scan_true_of_false_behind_string :
    (FirstSignAt (scan "#*/\"#\"é# '" true false).spans 8 ∧
      ∃ plain ∈ (scan "#*/\"#\"é# '" true false).spans, plain.kind = .normal ∧
        ∃ left right comment, plain.text = left ++ "#" ++ right ∧
          plain.start + left.utf8ByteSize = 8 ∧
          Text.slice? "#*/\"#\"é# '" 8 "#*/\"#\"é# '".utf8ByteSize = some comment ∧
          scan "#*/\"#\"é# '" true true =
            ⟨((scan "#*/\"#\"é# '" true false).spans.filter fun span => span.stop ≤ 8) ++
              ((if left = "" then [] else [⟨.normal, plain.start, left⟩]) ++
                [⟨.comment, 8, comment⟩]), false⟩) ∧
    (∀ position, ¬ SignAt (scan "\"#\"/*" false false).spans position) ∧
      scan "\"#\"/*" false true = scan "\"#\"/*" false false := by
  have hspans : (scan "#*/\"#\"é# '" true false).spans =
      [⟨.comment, 0, "#*/"⟩, ⟨.string, 3, "\"#\""⟩, ⟨.normal, 6, "é# "⟩, ⟨.error, 10, "'"⟩] := by
    decide +kernel
  have hfirst : FirstSignAt (scan "#*/\"#\"é# '" true false).spans 8 := by
    rw [hspans]
    refine ⟨⟨⟨.normal, 6, "é# "⟩, by simp, rfl, ['é'], [' '], by decide, by decide⟩, ?_⟩
    rintro earlier hearlier ⟨span, hmem, hkind, left, right, htext, rfl⟩
    simp only [List.mem_cons, List.not_mem_nil, or_false] at hmem
    obtain rfl | rfl | rfl | rfl := hmem <;> try cases hkind
    have hchars : 'é' :: ['#', ' '] = left ++ '#' :: right := htext
    cases left with
    | nil => cases (List.cons.inj hchars).1
    | cons first left =>
        have hearlier : 6 + Text.byteSize (first :: left) < 8 := hearlier
        have hsize : 'é'.utf8Size = 2 := by decide
        rw [Text.byteSize_cons, ← (List.cons.inj hchars).1] at hearlier
        omega
  have hnone : ∀ position, ¬ SignAt (scan "\"#\"/*" false false).spans position := by
    have hkinds : ∀ span ∈ (scan "\"#\"/*" false false).spans, span.kind ≠ .normal := by
      decide +kernel
    exact fun position ⟨span, hmem, hkind, _⟩ => hkinds span hmem hkind
  exact ⟨⟨hfirst, (scan_true_of_false _ _).2 8 hfirst⟩, hnone, (scan_true_of_false _ _).1 hnone⟩

end Line

end Highlight
