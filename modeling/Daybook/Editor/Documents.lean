/-
Daybook.Editor.Documents — the texts of the open documents.

An editor tells the text of a document when it opens it and whenever it
changes. Only the latest text of each document is kept.
-/
import Daybook.Text.Pieces

namespace Daybook.Editor

/-- The latest text of every document, by its URI. Each URI occurs once. -/
structure Documents where
  texts : List (String × String) := []
deriving DecidableEq, Repr

namespace Documents

def get? (d : Documents) (uri : String) : Option String := d.texts.lookup uri

def remove (d : Documents) (uri : String) : Documents where
  texts := d.texts.filter fun t => t.1 ≠ uri

def set (d : Documents) (uri text : String) : Documents where
  texts := (uri, text) :: (d.remove uri).texts

@[simp] theorem get?_remove (d : Documents) (uri other : String) :
    (d.remove uri).get? other = if uri = other then none else d.get? other := by
  obtain ⟨texts⟩ := d
  simp only [get?, remove]
  induction texts with
  | nil => simp
  | cons t texts ih =>
    obtain ⟨key, text⟩ := t
    by_cases hkey : key = uri
    · rw [List.filter_cons_of_neg (by simpa using hkey), ih, List.lookup_cons]
      by_cases hother : uri = other
      · simp [hother]
      · simp [hother, hkey, beq_false_of_ne (Ne.symm hother)]
    · rw [List.filter_cons_of_pos (by simpa using hkey), List.lookup_cons, List.lookup_cons, ih]
      by_cases hother : other = key
      · simp [hother, Ne.symm hkey]
      · simp [beq_false_of_ne hother]

@[simp] theorem get?_set (d : Documents) (uri text other : String) :
    (d.set uri text).get? other = if uri = other then some text else d.get? other := by
  by_cases h : uri = other
  · simp [set, get?, h]
  · rw [if_neg h, set, get?, List.lookup_cons, beq_false_of_ne (Ne.symm h)]
    exact (get?_remove d uri other).trans (if_neg h)

/-- The lines of a document; an unknown one has none. -/
def lines (d : Documents) (uri : String) : List String :=
  match d.get? uri with
  | some text => Text.linesOf text
  | none => []

end Documents

end Daybook.Editor
