import Highlight.Keywords
import Mathlib.Data.List.Chain

/-!
# Word runs

`Run.ofChars` cuts a text into runs of word characters and runs of others. Each run is as long as
it can be: `isChain_ofChars` says that the two sorts take turns, and `ofChars_append` that a cut
between two sorts cuts no run. So the word runs of a text are the words that stand in it,
`exists_ofChars_eq_iff`, where `IsWord` says what a word is without a word about runs.
-/

namespace Highlight

/-- In the text `before ++ word ++ after`, the middle is a word: it consists of word characters, and
there is none directly before or after it. -/
structure IsWord (before word after : List Char) : Prop where
  ne_nil : word ≠ []
  isWordChar_word : ∀ c ∈ word, isWordChar c = true
  isWordChar_before : ∀ c ∈ before.getLast?, isWordChar c = false
  isWordChar_after : ∀ c ∈ after.head?, isWordChar c = false

/-- A cut beside a character that is no part of words does not cut a word. -/
theorem IsWord.le_or_le_of_cut {before word after left right : List Char}
    (h : IsWord before word after) (hcut : left ++ right = before ++ word ++ after)
    (hedge : (∀ c ∈ left.getLast?, isWordChar c = false) ∨
      ∀ c ∈ right.head?, isWordChar c = false) :
    Text.byteSize left ≤ Text.byteSize before ∨
      Text.byteSize (before ++ word) ≤ Text.byteSize left := by
  by_contra hinside
  obtain ⟨hbefore, hword⟩ := not_or.mp hinside
  rw [Nat.not_le] at hbefore hword
  -- The cut divides the word into two parts, and neither is empty.
  rw [List.append_assoc] at hcut
  obtain ⟨front, rfl, hrest⟩ := Text.exists_middle hcut.symm hbefore.le
  simp only [Text.byteSize_append] at hbefore hword
  obtain ⟨back, rfl, rfl⟩ := Text.exists_middle hrest.symm (by omega)
  have hfront : front ≠ [] := by
    rintro rfl
    simp at hbefore
  have hback : back ≠ [] := by
    rintro rfl
    simp at hword
  rcases hedge with hlast | hfirst
  · have hfalse := hlast (front.getLast hfront) (by
      rw [List.getLast?_append_of_ne_nil _ hfront, List.getLast?_eq_getLast_of_ne_nil hfront]; rfl)
    rw [h.isWordChar_word _ (List.mem_append_left back (List.getLast_mem hfront))] at hfalse
    cases hfalse
  · have hfalse := hfirst (back.head hback) (by
      rw [List.head?_append_of_ne_nil _ hback, List.head?_eq_some_head hback]; rfl)
    rw [h.isWordChar_word _ (List.mem_append_right front (List.head_mem hback))] at hfalse
    cases hfalse

/-- A word does not end a text whose last character is no part of words. -/
theorem IsWord.after_ne_nil {before word after : List Char} (h : IsWord before word after)
    (hlast : ∀ c ∈ (before ++ word ++ after).getLast?, isWordChar c = false) : after ≠ [] := by
  rintro rfl
  have hend : (before ++ word ++ []).getLast? = some (word.getLast h.ne_nil) := by
    rw [List.append_nil, List.getLast?_append_of_ne_nil _ h.ne_nil,
      List.getLast?_eq_getLast_of_ne_nil h.ne_nil]
  have hfalse := hlast _ hend
  rw [h.isWordChar_word _ (List.getLast_mem h.ne_nil)] at hfalse
  cases hfalse

/-- Nor does it begin a text whose first character is none. -/
theorem IsWord.before_ne_nil {before word after : List Char} (h : IsWord before word after)
    (hfirst : ∀ c ∈ (before ++ word ++ after).head?, isWordChar c = false) : before ≠ [] := by
  rintro rfl
  have hstart : ([] ++ word ++ after).head? = some (word.head h.ne_nil) := by
    rw [List.nil_append, List.head?_append_of_ne_nil _ h.ne_nil, List.head?_eq_some_head h.ne_nil]
  have hfalse := hfirst _ hstart
  rw [h.isWordChar_word _ (List.head_mem h.ne_nil)] at hfalse
  cases hfalse

namespace Run

variable {run : Run} {runs front back : List Run} {c : Char} {chars left right : List Char}

/-- A run has characters, and all are of its sort. -/
structure Uniform (run : Run) : Prop where
  chars_ne_nil : run.chars ≠ []
  isWordChar_eq : ∀ c ∈ run.chars, isWordChar c = run.isWord

/-- A run of one character is uniform. -/
theorem uniform_singleton (c : Char) : Uniform ⟨isWordChar c, [c]⟩ :=
  ⟨List.cons_ne_nil c [], by simp⟩

/-- Putting a character in front keeps runs uniform. -/
theorem uniform_of_mem_push (h : ∀ run ∈ runs, run.Uniform) (hrun : run ∈ push c runs) :
    run.Uniform := by
  cases runs with
  | nil =>
      obtain rfl := List.mem_singleton.mp hrun
      exact uniform_singleton c
  | cons first rest =>
      rw [push] at hrun
      split at hrun
      · rename_i hsort
        rcases List.mem_cons.mp hrun with rfl | hrest
        · refine ⟨List.cons_ne_nil _ _, ?_⟩
          simpa [hsort] using (h first List.mem_cons_self).isWordChar_eq
        · exact h run (List.mem_cons_of_mem _ hrest)
      · rcases List.mem_cons.mp hrun with rfl | hrest
        · exact uniform_singleton c
        · exact h run hrest

/-- The runs of a text are uniform. -/
theorem uniform_of_mem_ofChars (hrun : run ∈ ofChars chars) : run.Uniform := by
  induction chars generalizing run with
  | nil => cases hrun
  | cons c rest ih => exact uniform_of_mem_push (fun other hother => ih hother) hrun

/-- The first run is of the sort of the first character. -/
theorem exists_push_eq (c : Char) (runs : List Run) :
    ∃ more rest, push c runs = ⟨isWordChar c, c :: more⟩ :: rest := by
  cases runs with
  | nil => exact ⟨[], [], rfl⟩
  | cons first rest =>
      rw [push]
      split
      · rename_i hsort
        exact ⟨first.chars, rest, by rw [hsort]⟩
      · exact ⟨[], first :: rest, rfl⟩

/-- Putting a character in front keeps runs of different sorts next to each other. -/
theorem isChain_push (h : runs.IsChain fun left right => left.isWord ≠ right.isWord) :
    (push c runs).IsChain fun left right => left.isWord ≠ right.isWord := by
  cases runs with
  | nil => exact List.isChain_singleton _
  | cons first rest =>
      rw [push]
      split
      · exact List.isChain_cons.mpr (List.isChain_cons.mp h)
      · rename_i hsort
        exact List.isChain_cons_cons.mpr ⟨Ne.symm hsort, h⟩

/-- Runs of words and runs of other characters take turns. -/
theorem isChain_ofChars (chars : List Char) :
    (ofChars chars).IsChain fun left right => left.isWord ≠ right.isWord := by
  induction chars with
  | nil => exact List.isChain_nil
  | cons c rest ih => exact isChain_push ih

/-- A character in front joins the first run only. -/
theorem push_append (h : front ≠ []) : push c (front ++ back) = push c front ++ back := by
  cases front with
  | nil => exact absurd rfl h
  | cons first rest =>
      rw [List.cons_append, push, push]
      split <;> rfl

/-- A cut between characters of two sorts cuts no run. -/
theorem ofChars_append
    (h : ∀ c ∈ left.getLast?, ∀ d ∈ right.head?, isWordChar c ≠ isWordChar d) :
    ofChars (left ++ right) = ofChars left ++ ofChars right := by
  induction left with
  | nil => rfl
  | cons c left ih =>
      show push c (ofChars (left ++ right)) = push c (ofChars left) ++ ofChars right
      cases left with
      | nil =>
          cases right with
          | nil => rfl
          | cons d right =>
              obtain ⟨more, rest, hruns⟩ := exists_push_eq d (ofChars right)
              have hsort : isWordChar d ≠ isWordChar c := (h c rfl d rfl).symm
              show push c (push d (ofChars right)) = _ :: push d (ofChars right)
              rw [hruns, push, if_neg hsort]
      | cons d left =>
          rw [ih (by simpa [List.getLast?_cons_cons] using h), push_append]
          obtain ⟨more, rest, hruns⟩ := exists_push_eq d (ofChars left)
          show push d (ofChars left) ≠ []
          rw [hruns]
          exact List.cons_ne_nil _ _

/-- A text of one sort is one run. -/
theorem Uniform.ofChars_eq (h : run.Uniform) : ofChars run.chars = [run] := by
  obtain ⟨isWord, chars⟩ := run
  obtain ⟨hne, hsort⟩ := h
  induction chars with
  | nil => exact absurd rfl hne
  | cons c rest ih =>
      obtain rfl : isWordChar c = isWord := hsort c List.mem_cons_self
      cases rest with
      | nil => rfl
      | cons d rest =>
          have hrest := ih (List.cons_ne_nil d rest)
            fun e he => hsort e (List.mem_cons_of_mem _ he)
          show push c (ofChars (d :: rest)) = _
          rw [hrest, push, if_pos rfl]

/-- A text that does not end with a word character does not end with a word. -/
theorem isWord_of_mem_getLast?_ofChars (h : ∀ c ∈ chars.getLast?, isWordChar c = false) :
    ∀ run ∈ (ofChars chars).getLast?, run.isWord = false := by
  intro run hrun
  obtain ⟨front, hfront⟩ := List.getLast?_eq_some_iff.mp hrun
  have huniform : run.Uniform := uniform_of_mem_ofChars (List.mem_of_getLast? hrun)
  have hlast : chars.getLast? = some (run.chars.getLast huniform.chars_ne_nil) := by
    rw [← flatMap_chars_ofChars chars, hfront, List.flatMap_append, List.flatMap_singleton,
      List.getLast?_append_of_ne_nil _ huniform.chars_ne_nil,
      List.getLast?_eq_getLast_of_ne_nil huniform.chars_ne_nil]
  rw [← huniform.isWordChar_eq _ (List.getLast_mem huniform.chars_ne_nil)]
  exact h _ hlast

/-- A text that does not begin with a word character does not begin with a word. -/
theorem isWord_of_mem_head?_ofChars (h : ∀ c ∈ chars.head?, isWordChar c = false) :
    ∀ run ∈ (ofChars chars).head?, run.isWord = false := by
  intro run hrun
  obtain ⟨back, hback⟩ := List.head?_eq_some_iff.mp hrun
  have huniform : run.Uniform := uniform_of_mem_ofChars (List.mem_of_head? hrun)
  have hfirst : chars.head? = some (run.chars.head huniform.chars_ne_nil) := by
    rw [← flatMap_chars_ofChars chars, hback, List.flatMap_cons,
      List.head?_append_of_ne_nil _ huniform.chars_ne_nil,
      List.head?_eq_some_head huniform.chars_ne_nil]
  rw [← huniform.isWordChar_eq _ (List.head_mem huniform.chars_ne_nil)]
  exact h _ hfirst

/-- Before a word run there is no word character, and after it neither. -/
theorem isWord_of_ofChars_eq {word : List Char}
    (h : ofChars chars = front ++ ⟨true, word⟩ :: back) :
    IsWord (front.flatMap Run.chars) word (back.flatMap Run.chars) := by
  have huniform : ∀ run ∈ front ++ ⟨true, word⟩ :: back, run.Uniform :=
    fun run hrun => uniform_of_mem_ofChars (h ▸ hrun)
  have hchain := isChain_ofChars chars
  rw [h, List.isChain_append, List.isChain_cons] at hchain
  obtain ⟨-, ⟨hback, -⟩, hfront⟩ := hchain
  have hword : Uniform ⟨true, word⟩ := huniform _ (by simp)
  refine ⟨hword.chars_ne_nil, hword.isWordChar_eq, ?_, ?_⟩
  · intro c hc
    rcases List.eq_nil_or_concat front with rfl | ⟨init, last, rfl⟩
    · cases hc
    · have hlast : last.Uniform := huniform last (by simp)
      have hsort : last.isWord ≠ true := hfront last (by simp) _ rfl
      rw [List.concat_eq_append, List.flatMap_append, List.flatMap_singleton,
        List.getLast?_append_of_ne_nil _ hlast.chars_ne_nil] at hc
      rw [hlast.isWordChar_eq c (List.mem_of_getLast? hc)]
      exact Bool.eq_false_iff.mpr hsort
  · intro c hc
    cases back with
    | nil => cases hc
    | cons next rest =>
        have hnext : next.Uniform := huniform next (by simp)
        have hsort : next.isWord ≠ true := Ne.symm (hback next rfl)
        rw [List.flatMap_cons, List.head?_append_of_ne_nil _ hnext.chars_ne_nil] at hc
        rw [hnext.isWordChar_eq c (List.mem_of_head? hc)]
        exact Bool.eq_false_iff.mpr hsort

/-- A word of a text is one of its runs. -/
theorem ofChars_of_isWord {before word after : List Char} (h : IsWord before word after) :
    ofChars (before ++ word ++ after) = ofChars before ++ ⟨true, word⟩ :: ofChars after := by
  have hword : Uniform ⟨true, word⟩ := ⟨h.ne_nil, h.isWordChar_word⟩
  rw [List.append_assoc, ofChars_append, ofChars_append, hword.ofChars_eq]
  · rfl
  · intro c hc d hd
    rw [h.isWordChar_word c (List.mem_of_getLast? hc), h.isWordChar_after d hd]
    exact Bool.noConfusion
  · intro c hc d hd
    rw [List.head?_append_of_ne_nil _ h.ne_nil] at hd
    rw [h.isWordChar_before c hc, h.isWordChar_word d (List.mem_of_head? hd)]
    exact Bool.noConfusion

/-- The word runs of a text are its words. -/
theorem exists_ofChars_eq_iff {before word after : List Char} :
    (∃ front back, ofChars chars = front ++ ⟨true, word⟩ :: back ∧
        front.flatMap Run.chars = before ∧ back.flatMap Run.chars = after) ↔
      chars = before ++ word ++ after ∧ IsWord before word after := by
  constructor
  · rintro ⟨front, back, hruns, rfl, rfl⟩
    refine ⟨?_, isWord_of_ofChars_eq hruns⟩
    rw [← flatMap_chars_ofChars chars, hruns]
    simp
  · rintro ⟨rfl, hword⟩
    exact ⟨_, _, ofChars_of_isWord hword, flatMap_chars_ofChars before,
      flatMap_chars_ofChars after⟩

end Run

end Highlight
