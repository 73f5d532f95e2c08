import Highlight.Proofs.MarkerWindow

/-!
# Where the markers of a text stand

`TextBuffer.touchesMarker` looks at no more than two characters before an edit and one after it, in
the text with the edited part and in the text without it. A marker has two characters, so none can
be made or broken by the edit outside this window: `keptApart_of_window` says that markers then
stand in the parts before and after the edit alone, each where it stands without the other part.
The main theorem is `window_shows_markers`.
-/

namespace Highlight

/-- The markers of block comments. -/
def blockMarkers : List (List Char) :=
  [['/', '*'], ['*', '/']]

/-- A marker has two characters. -/
theorem length_of_mem_blockMarkers {marker : List Char} (h : marker ∈ blockMarkers) :
    marker.length = 2 := by
  have hall : ∀ marker ∈ blockMarkers, marker.length = 2 := by decide
  exact hall marker h

/-- A text in which no marker is found is without the markers of block comments. -/
theorem not_infix_of_hasMarker {marker chars : List Char} (hmarker : marker ∈ blockMarkers)
    (h : hasMarker chars = false) : ¬ marker <:+: chars := by
  intro hinfix
  have hfound : hasMarker chars = true := by
    rw [hasMarker_iff]
    rcases List.mem_pair.mp hmarker with rfl | rfl
    · exact .inl hinfix
    · exact .inr hinfix
  rw [h] at hfound
  cases hfound

/-- The marker stands in the text behind `position` characters. -/
def OccursAt (marker text : List Char) (position : Nat) : Prop :=
  marker <+: text.drop position

instance (marker text : List Char) (position : Nat) : Decidable (OccursAt marker text position) :=
  inferInstanceAs (Decidable (marker <+: text.drop position))

section Places

variable {marker text front middle back : List Char} {position : Nat}

/-- What is put behind a text moves no marker in it. -/
theorem OccursAt.append (h : OccursAt marker front position) (back : List Char) :
    OccursAt marker (front ++ back) position := by
  unfold OccursAt at h ⊢
  rw [List.drop_append]
  exact h.trans (List.prefix_append _ _)

/-- A marker that ends within the first part of a text stands in that part. -/
theorem OccursAt.of_append (h : OccursAt marker (front ++ back) position)
    (hlength : position + marker.length ≤ front.length) : OccursAt marker front position := by
  unfold OccursAt at h ⊢
  rw [List.drop_append_of_le_length (by omega)] at h
  refine List.prefix_of_prefix_length_le h (List.prefix_append _ _) ?_
  rw [List.length_drop]
  omega

/-- What is put before a text moves the markers in it by its length. -/
theorem occursAt_append_right (marker front back : List Char) (place : Nat) :
    OccursAt marker (front ++ back) (front.length + place) ↔ OccursAt marker back place := by
  unfold OccursAt
  rw [List.drop_length_add_append]

/-- A marker is found in each slice of the text that reaches over it. -/
theorem OccursAt.infix_slice (h : OccursAt marker text position) {first last : Nat}
    (hfirst : first ≤ position) (hlast : position + marker.length ≤ last) :
    marker <:+: (text.take last).drop first := by
  have hslice : marker <+: (text.take last).drop position := by
    rw [List.drop_take]
    exact List.prefix_take_iff.mpr ⟨h, by omega⟩
  have hsuffix : (text.take last).drop position <:+ (text.take last).drop first := by
    obtain ⟨more, rfl⟩ := Nat.exists_eq_add_of_le hfirst
    rw [← List.drop_drop]
    exact List.drop_suffix _ _
  exact hslice.isInfix.trans hsuffix.isInfix

/-- The window around the middle part is the slice of the text that it is read from. -/
theorem window_eq_slice (front middle back : List Char) :
    ((front ++ middle ++ back).take
        ((front ++ middle).length + TextBuffer.windowAfter)).drop
          (front.length - TextBuffer.windowBefore) =
      front.drop (front.length - TextBuffer.windowBefore) ++ middle ++
        back.take TextBuffer.windowAfter := by
  rw [List.take_length_add_append, List.append_assoc,
    List.drop_append_of_le_length (Nat.sub_le ..), ← List.append_assoc]

/-- In a text of three parts the marker stands only where it stands in the first part or in the last
part. The middle has no share in it and may as well be empty. -/
structure KeptApart (marker front middle back : List Char) : Prop where
  not_infix : ¬ marker <:+: middle
  /-- A marker ends before the first part does, or begins in the last part. -/
  apart : ∀ position, OccursAt marker (front ++ middle ++ back) position →
    position + marker.length < front.length ∨ (front ++ middle).length ≤ position
  occursAt_iff : ∀ position, OccursAt marker (front ++ middle ++ back) position ↔
    OccursAt marker front position ∨
      ∃ place, OccursAt marker back place ∧ position = (front ++ middle).length + place

/-- If the window has no marker, markers stand on its two sides. -/
theorem keptApart_of_window (hlength : marker.length = 2)
    (h : ¬ marker <:+: front.drop (front.length - TextBuffer.windowBefore) ++ middle ++
      back.take TextBuffer.windowAfter) : KeptApart marker front middle back := by
  have hapart : ∀ position, OccursAt marker (front ++ middle ++ back) position →
      position + marker.length < front.length ∨ (front ++ middle).length ≤ position := by
    intro position hoccurs
    by_contra hinside
    rw [not_or, Nat.not_lt, Nat.not_le] at hinside
    rw [← window_eq_slice] at h
    refine h (hoccurs.infix_slice ?_ ?_)
    · rw [TextBuffer.windowBefore]
      omega
    · rw [TextBuffer.windowAfter]
      omega
  refine ⟨fun hmiddle => h ?_, hapart, fun position => ?_⟩
  · exact hmiddle.trans ⟨_, _, rfl⟩
  · constructor
    · intro hoccurs
      rcases hapart position hoccurs with hfront | hback
      · rw [List.append_assoc] at hoccurs
        exact .inl (hoccurs.of_append (Nat.le_of_lt hfront))
      · obtain ⟨place, rfl⟩ := Nat.exists_eq_add_of_le hback
        exact .inr ⟨place, (occursAt_append_right ..).mp hoccurs, rfl⟩
    · intro hparts
      rcases hparts with hfront | ⟨place, hback, rfl⟩
      · rw [List.append_assoc]
        exact hfront.append _
      · exact (occursAt_append_right ..).mpr hback

end Places

namespace TextBuffer

/-- An edit and its undo look the same through the window. If no marker shows in it, there is none
in the edited text, none at its two ends, and none at the end of the text before it, whether the
edited text is there or not. All markers of the text are those of the parts before and after the
edit. -/
theorem window_shows_markers (front text back : String) {longer shorter : TextBuffer}
    (hlonger : longer.text = front ++ text ++ back) (hshorter : shorter.text = front ++ back) :
    longer.touchesMarker ⟨.insertion, front.length, text⟩ =
        shorter.touchesMarker ⟨.removal, front.length, text⟩ ∧
      (longer.touchesMarker ⟨.insertion, front.length, text⟩ = false →
        ∀ marker ∈ blockMarkers,
          KeptApart marker front.toList text.toList back.toList ∧
            KeptApart marker front.toList [] back.toList) := by
  let insert : Edit := ⟨.insertion, front.length, text⟩
  let remove : Edit := ⟨.removal, front.length, text⟩
  have hoffset : front.toList.length = front.length := String.length_toList
  have hlong : longer.text.toList = front.toList ++ text.toList ++ back.toList := by simp [hlonger]
  have hshort : shorter.text.toList = front.toList ++ back.toList := by simp [hshorter]
  have hinsert := @touchesMarker_eq longer insert _ _ hoffset hlong
  have hremove := @touchesMarker_eq shorter remove _ _ hoffset hshort
  refine ⟨hinsert.trans hremove.symm, fun h marker hmarker => ?_⟩
  rw [hinsert, Bool.or_eq_false_iff] at h
  obtain ⟨hwith, hwithout⟩ := h
  have hlength := length_of_mem_blockMarkers hmarker
  refine ⟨keptApart_of_window hlength (not_infix_of_hasMarker hmarker hwith),
    keptApart_of_window hlength (not_infix_of_hasMarker hmarker ?_)⟩
  rwa [List.append_nil]

/-- A star that is put between an opener and a closer belongs to neither. -/
theorem window_shows_markers_between_markers :
    (ofText "é /*x*y*/").touchesMarker ⟨.insertion, 5, "*"⟩ = false ∧
      (ofText "é /*xy*/").touchesMarker ⟨.removal, 5, "*"⟩ = false ∧
      KeptApart ['*', '/'] "é /*x".toList ['*'] "y*/".toList ∧
      KeptApart ['*', '/'] "é /*x".toList [] "y*/".toList := by
  have hinsert : (ofText "é /*x*y*/").touchesMarker ⟨.insertion, 5, "*"⟩ = false := by
    decide +kernel
  have hlonger : (ofText "é /*x*y*/").text = "é /*x" ++ "*" ++ "y*/" := rfl
  have hshorter : (ofText "é /*xy*/").text = "é /*x" ++ "y*/" := rfl
  obtain ⟨hsame, hkept⟩ := window_shows_markers "é /*x" "*" "y*/" hlonger hshorter
  obtain ⟨hwith, hwithout⟩ := hkept hinsert ['*', '/'] (by decide)
  exact ⟨hinsert, hsame.symm.trans hinsert, hwith, hwithout⟩

end TextBuffer

end Highlight
