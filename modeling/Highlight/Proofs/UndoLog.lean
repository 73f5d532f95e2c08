import Highlight.Proofs.BufferHistory

/-!
# Edits as an undo log

A buffer reports of every edit what came in or went out, and that is enough to take the edit back:
`Indexed.perform_undo` says that the undo of an edit succeeds and gives the buffer as it was, with
its line starts. `performAll_undoAll` follows a run of edits backwards, and the main theorem,
`undo_log_restores`, says so of every buffer that there can be.
-/

namespace Highlight

/-- The other way to edit a text. -/
def EditKind.opposite : EditKind → EditKind
  | insertion => removal
  | removal => insertion

/-- The edit that takes another one back. -/
def Edit.opposite (edit : Edit) : Edit :=
  { edit with kind := edit.kind.opposite }

/-- What is asked for to take an edit back. -/
def Edit.undo (edit : Edit) : Request :=
  match edit.kind with
  | .insertion => .remove edit.offset edit.text.length
  | .removal => .insert edit.offset edit.text

/-- What is asked for to take edits back, the last one first. -/
def Edit.undoAll (edits : List Edit) : List Request :=
  edits.reverse.map undo

/-- An edit of a list of characters is taken back by its undo. -/
theorem Edit.Turns.perform_undo {edit : Edit} {old new : List Char} (h : edit.Turns old new) :
    Text.perform new edit.undo = .ok (old, edit.opposite) := by
  obtain ⟨kind, offset, text⟩ := edit
  obtain ⟨front, back, rfl, hturns⟩ := h
  cases kind with
  | insertion =>
      obtain ⟨rfl, rfl⟩ := hturns
      have hcount : front.length + text.length = (front ++ text.toList).length := by
        rw [List.length_append, String.length_toList]
      show Text.remove _ front.length text.length = _
      rw [Text.remove, hcount, if_pos (by simp), List.take_left, List.drop_left,
        List.append_assoc, List.take_left, List.drop_left, String.ofList_toList]
      rfl
  | removal =>
      obtain ⟨rfl, rfl⟩ := hturns
      show Text.insert _ front.length text = _
      rw [Text.insert, if_pos (by simp), List.take_left, List.drop_left]
      rfl

namespace TextBuffer

variable {buffer edited other : TextBuffer} {edit : Edit} {request : Request}

/-- Edits leave the file name alone. -/
theorem fileName?_of_perform (h : buffer.perform request = .ok (edited, edit)) :
    edited.fileName? = buffer.fileName? := by
  cases request with
  | insert offset text =>
      change buffer.insert offset text = _ at h
      rw [insert_eq] at h
      split at h
      · obtain ⟨rfl, -⟩ := Prod.mk.inj (Except.ok.inj h)
        rfl
      · cases h
  | remove offset count =>
      change buffer.remove offset count = _ at h
      rw [remove_eq] at h
      split at h
      · split at h
        · obtain ⟨rfl, -⟩ := Prod.mk.inj (Except.ok.inj h)
          rfl
        · cases h
      · cases h

/-- An indexed buffer is told by its text and the file name. -/
theorem Indexed.ext (h : buffer.Indexed) (hother : other.Indexed)
    (htext : buffer.text = other.text) (hname : buffer.fileName? = other.fileName?) :
    buffer = other := by
  have hstarts : buffer.lineStarts = other.lineStarts :=
    Array.toList_inj.mp (h.trans (htext ▸ hother.symm))
  obtain ⟨text, lineStarts, fileName?⟩ := buffer
  obtain ⟨otherText, otherStarts, otherName⟩ := other
  obtain rfl := htext
  obtain rfl := hname
  obtain rfl := hstarts
  rfl

/-- The undo of an edit gives the buffer back as it was. -/
theorem Indexed.perform_undo (hindexed : buffer.Indexed)
    (h : buffer.perform request = .ok (edited, edit)) :
    edited.perform edit.undo = .ok (buffer, edit.opposite) := by
  obtain ⟨hedited, hturns⟩ := hindexed.perform h
  have hchars := (map_perform edited edit.undo).trans hturns.perform_undo
  cases hundo : edited.perform edit.undo with
  | error error =>
      rw [hundo] at hchars
      cases hchars
  | ok result =>
      obtain ⟨restored, opposite⟩ := result
      rw [hundo] at hchars
      obtain ⟨htext, rfl⟩ := Prod.mk.inj (Except.ok.inj hchars)
      have hname := (fileName?_of_perform hundo).trans (fileName?_of_perform h)
      rw [(hedited.perform hundo).1.ext hindexed (String.toList_inj.mp htext) hname]

/-- Carry out edits one after the other. Of each step the buffer that it leaves and the edit that it
reports are kept. -/
def performAll (buffer : TextBuffer) :
    List Request → Except OffsetOutOfRange (List (TextBuffer × Edit))
  | [] => .ok []
  | request :: rest => do
      let step ← buffer.perform request
      let later ← step.1.performAll rest
      return step :: later

/-- The buffer that steps leave in the end. -/
def after (buffer : TextBuffer) (steps : List (TextBuffer × Edit)) : TextBuffer :=
  (steps.map Prod.fst).getLastD buffer

/-- Behind the first step the others go on from the buffer that it leaves. -/
theorem after_cons (buffer : TextBuffer) (step : TextBuffer × Edit)
    (later : List (TextBuffer × Edit)) : buffer.after (step :: later) = step.1.after later := by
  rw [after, after, List.map_cons, List.getLastD_cons]

/-- Each step taken back, the last one first. -/
def wayBack (buffer : TextBuffer) : List (TextBuffer × Edit) → List (TextBuffer × Edit)
  | [] => []
  | step :: later => wayBack step.1 later ++ [(buffer, step.2.opposite)]

variable {requests front back : List Request} {steps first later : List (TextBuffer × Edit)}

/-- Edits are carried out one after the other. -/
theorem performAll_cons : buffer.performAll (request :: requests) = .ok steps ↔
    ∃ step later, buffer.perform request = .ok step ∧ step.1.performAll requests = .ok later ∧
      steps = step :: later := by
  rw [performAll]
  cases buffer.perform request with
  | error error => simp [bind, Except.bind]
  | ok step =>
      cases hlater : step.1.performAll requests with
      | error error => simp [bind, Except.bind, hlater]
      | ok later => simp [bind, Except.bind, pure, Except.pure, hlater, eq_comm]

/-- Edits are carried out behind others on the buffer that these leave. -/
theorem performAll_append (hfront : buffer.performAll front = .ok first)
    (hback : (buffer.after first).performAll back = .ok later) :
    buffer.performAll (front ++ back) = .ok (first ++ later) := by
  induction front generalizing buffer first with
  | nil =>
      obtain rfl := Except.ok.inj hfront
      exact hback
  | cons request rest ih =>
      obtain ⟨step, tail, hstep, htail, rfl⟩ := performAll_cons.mp hfront
      rw [after_cons] at hback
      exact performAll_cons.mpr ⟨step, tail ++ later, hstep, ih htail hback, rfl⟩

/-- The way back of steps ends where they began. -/
theorem after_wayBack (buffer : TextBuffer) (steps : List (TextBuffer × Edit)) :
    (buffer.after steps).after (buffer.wayBack steps) = buffer := by
  cases steps with
  | nil => rfl
  | cons step later => simp [after, wayBack, List.getLastD_eq_getLast?]

/-- The buffers on the way back are those before each step. -/
theorem map_fst_wayBack (buffer : TextBuffer) (steps : List (TextBuffer × Edit)) :
    (buffer.wayBack steps).map Prod.fst = (buffer :: steps.map Prod.fst).dropLast.reverse := by
  induction steps generalizing buffer with
  | nil => rfl
  | cons step later ih =>
      rw [wayBack, List.map_append, ih step.1]
      exact (List.reverse_cons ..).symm

/-- The way back takes the opposite edits from the last to the first. -/
theorem map_snd_wayBack (buffer : TextBuffer) (steps : List (TextBuffer × Edit)) :
    (buffer.wayBack steps).map Prod.snd = (steps.map Prod.snd).reverse.map Edit.opposite := by
  induction steps generalizing buffer with
  | nil => rfl
  | cons step later ih =>
      rw [wayBack, List.map_append, ih step.1]
      simp

/-- Steps are taken back one by one, by nothing but the edits that they reported. -/
theorem Indexed.performAll_undoAll (hindexed : buffer.Indexed)
    (h : buffer.performAll requests = .ok steps) :
    (buffer.after steps).performAll (Edit.undoAll (steps.map Prod.snd)) =
      .ok (buffer.wayBack steps) := by
  induction requests generalizing buffer steps with
  | nil =>
      obtain rfl := Except.ok.inj h
      rfl
  | cons request rest ih =>
      obtain ⟨⟨edited, edit⟩, later, hstep, hlater, rfl⟩ := performAll_cons.mp h
      have hback := ih (hindexed.perform hstep).1 hlater
      rw [Edit.undoAll, List.map_cons, List.reverse_cons, List.map_append, wayBack, after_cons]
      -- What is left to undo behind the later steps is the first one.
      refine performAll_append hback ?_
      rw [after_wayBack]
      exact performAll_cons.mpr ⟨_, [], hindexed.perform_undo hstep, rfl, rfl⟩

/-- What the edits of a run report is enough to take them back, whatever was done to the buffer
before. Their undos, of the last one first, succeed one by one, and each gives the buffer as it was
before its edit, with the text, the line starts and the file name. They report the opposite
edits. -/
theorem undo_log_restores (fileName? : Option String) (text : String) (commands : List Command)
    {requests : List Request} {steps : List (TextBuffer × Edit)} :
    let buffer := (Command.runAll TextBuffer.respond
      { ofText text with fileName? := fileName? } commands).1
    buffer.performAll requests = .ok steps →
      ∃ back, (buffer.after steps).performAll (Edit.undoAll (steps.map Prod.snd)) = .ok back ∧
        back.map Prod.fst = (buffer :: steps.map Prod.fst).dropLast.reverse ∧
        back.map Prod.snd = (steps.map Prod.snd).reverse.map Edit.opposite := by
  intro buffer hrun
  have hstart : Holds { ofText text with fileName? := fileName? } text.toList :=
    ⟨indexed_ofText text, rfl⟩
  exact ⟨_, (hstart.runAll commands).2.indexed.performAll_undoAll hrun, map_fst_wayBack ..,
    map_snd_wayBack ..⟩

/-- The buffer was edited before and has refused an edit. Then a removal takes line breaks with it
and an insertion puts others in their place. -/
theorem undo_log_restores_line_breaks :
    let buffer := (Command.runAll TextBuffer.respond
      { ofText "é\n" with fileName? := some "a.c" }
      [.replaceAll "a\n\nü\nb", .edit (.remove 3 9), .edit (.insert 0 "\n")]).1
    ∃ steps, buffer.performAll [.remove 1 4, .insert 1 "\nö\n"] = .ok steps ∧
      (steps.map Prod.snd) = [⟨.removal, 1, "a\n\nü"⟩, ⟨.insertion, 1, "\nö\n"⟩] ∧
      ∃ back, (buffer.after steps).performAll [.remove 1 3, .insert 1 "a\n\nü"] = .ok back ∧
        back.map Prod.fst = (buffer :: steps.map Prod.fst).dropLast.reverse ∧
        back.map Prod.snd = [⟨.removal, 1, "\nö\n"⟩, ⟨.insertion, 1, "a\n\nü"⟩] := by
  intro buffer
  have hlog : (buffer.performAll [.remove 1 4, .insert 1 "\nö\n"]).toOption.map
      (List.map Prod.snd) = some [⟨.removal, 1, "a\n\nü"⟩, ⟨.insertion, 1, "\nö\n"⟩] := by
    decide +kernel
  cases hsteps : buffer.performAll [.remove 1 4, .insert 1 "\nö\n"] with
  | error error =>
      rw [hsteps] at hlog
      cases hlog
  | ok steps =>
      rw [hsteps] at hlog
      have hedits : steps.map Prod.snd = _ := Option.some.inj hlog
      have hback := undo_log_restores (some "a.c") "é\n" _ hsteps
      rw [hedits] at hback
      exact ⟨steps, rfl, hedits, hback⟩

end TextBuffer

end Highlight
