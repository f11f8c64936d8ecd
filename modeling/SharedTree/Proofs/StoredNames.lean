import Mathlib.Data.List.DropRight
import SharedTree.TransportName

/-! Titles and the names that they are stored under. Both ways decide by what is left of a
text without the spaces at its end, and both put or take a single space there, so that the
decision on the way back is the one that was taken on the way out. Every title can thus be
stored, and each name that the server takes stands for one title. -/
namespace SharedTree.TransportName

/-- The names that the server stores: all but the three that it keeps to itself. -/
def Storable (name : String) : Prop := name ∉ ["", ".", ".."]

theorem storable_iff {name : String} : Storable name ↔ name.toList ∉ reserved := by
  simp only [Storable, reserved, List.mem_cons, List.not_mem_nil, or_false, ← String.toList_inj]
  rfl

/-! ## Spaces at the end -/

theorem withoutTrailingSpaces_eq (chars : List Char) :
    withoutTrailingSpaces chars = chars.rdropWhile (· = ' ') := rfl

/-- One space more or less at the end makes no difference to what is reserved. -/
theorem isReserved_push (name : String) : isReserved (name.push ' ') = isReserved name := by
  simp [isReserved, withoutTrailingSpaces_eq]

/-- A text with no space at its end is reserved only if it is one of the three names. -/
theorem isReserved_iff_of_unspaced {name : String} (unspaced : name.toList.getLast? ≠ some ' ') :
    isReserved name = true ↔ ¬ Storable name := by
  have whole : withoutTrailingSpaces name.toList = name.toList := by
    rw [withoutTrailingSpaces_eq, List.rdropWhile_eq_self_iff]
    intro nonempty
    simpa [List.getLast?_eq_some_getLast nonempty] using unspaced
  rw [isReserved, whole, storable_iff, not_not, List.contains_iff_mem]

/-- None of the three names has a space at its end. -/
theorem storable_push (name : String) : Storable (name.push ' ') := by
  rw [storable_iff, String.toList_push]
  intro member
  have unspaced : ∀ kept ∈ reserved, kept.getLast? ≠ some ' ' := by decide
  exact unspaced _ member List.getLast?_concat

theorem exists_push_of_spaced {name : String} (spaced : name.toList.getLast? = some ' ') :
    ∃ stem : String, name = stem.push ' ' := by
  obtain ⟨stem, whole⟩ := List.getLast?_eq_some_iff.mp spaced
  refine ⟨String.ofList stem, ?_⟩
  rw [← String.toList_inj, String.toList_push, String.toList_ofList, whole]

/-! ## Out and back -/

theorem toTitle_push {title : String} (kept : isReserved title = true) :
    toTitle (title.push ' ') = title := by
  rw [toTitle, isReserved_push, kept]
  simp

theorem toTitle_of_not_isReserved {name : String} (free : isReserved name = false) :
    toTitle name = name := by
  rw [toTitle, free]
  rfl

theorem ofTitle_of_isReserved {title : String} (kept : isReserved title = true) :
    ofTitle title = title.push ' ' :=
  if_pos kept

theorem ofTitle_of_not_isReserved {title : String} (free : isReserved title = false) :
    ofTitle title = title := by
  rw [ofTitle, free]
  rfl

theorem toTitle_ofTitle (title : String) : toTitle (ofTitle title) = title := by
  cases kept : isReserved title with
  | true => rw [ofTitle_of_isReserved kept, toTitle_push kept]
  | false => rw [ofTitle_of_not_isReserved kept, toTitle_of_not_isReserved kept]

theorem storable_of_not_isReserved {name : String} (free : isReserved name = false) :
    Storable name := by
  by_cases spaced : name.toList.getLast? = some ' '
  · obtain ⟨stem, rfl⟩ := exists_push_of_spaced spaced
    exact storable_push stem
  · have test := isReserved_iff_of_unspaced spaced
    simpa [free] using test

theorem storable_ofTitle (title : String) : Storable (ofTitle title) := by
  cases kept : isReserved title with
  | true =>
    rw [ofTitle_of_isReserved kept]
    exact storable_push title
  | false =>
    rw [ofTitle_of_not_isReserved kept]
    exact storable_of_not_isReserved kept

theorem ofTitle_toTitle {name : String} (storable : Storable name) :
    ofTitle (toTitle name) = name := by
  cases kept : isReserved name with
  | true =>
    have spaced : name.toList.getLast? = some ' ' := by
      by_contra unspaced
      exact (isReserved_iff_of_unspaced unspaced).mp kept storable
    obtain ⟨stem, rfl⟩ := exists_push_of_spaced spaced
    rw [isReserved_push] at kept
    rw [toTitle_push kept, ofTitle_of_isReserved kept]
  | false => rw [toTitle_of_not_isReserved kept, ofTitle_of_not_isReserved kept]

/-- Titles and storable names go together one by one: a title comes back from the name that
it is stored under, which is none of the three, and a name comes back from the title that
it stands for if and only if it is none of them. -/
theorem titles_storableNames :
    (∀ title, toTitle (ofTitle title) = title ∧ ofTitle title ∉ ["", ".", ".."]) ∧
    ∀ name, ofTitle (toTitle name) = name ↔ name ∉ ["", ".", ".."] := by
  refine ⟨fun title => ⟨toTitle_ofTitle title, storable_ofTitle title⟩, fun name => ?_⟩
  refine ⟨fun back => ?_, ofTitle_toTitle⟩
  rw [← back]
  exact storable_ofTitle _

end SharedTree.TransportName
