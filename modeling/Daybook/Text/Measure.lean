/-
Daybook.Text.Measure — lengths and cuts in units other than characters.

A column may be counted in bytes or in UTF-16 code units. Both are instances
of one idea: every character has a width, a text is as long as its characters
together, and a cut is legal only between two characters.
-/

namespace Daybook.Text

/-- The length of `cs` when a character `c` counts for `width c`. -/
def measure (width : Char → Nat) (cs : List Char) : Nat :=
  cs.foldr (fun c n => width c + n) 0

/-- `cs` cut `n` units from its beginning; `none` when that place falls inside
a character or lies beyond the end. -/
def cutAt? (width : Char → Nat) (n : Nat) : List Char → Option (List Char × List Char)
  | [] => if n = 0 then some ([], []) else none
  | c :: cs =>
    if n = 0 then some ([], c :: cs)
    else if width c ≤ n then
      (cutAt? width (n - width c) cs).map fun (before, after) => (c :: before, after)
    else none

@[simp] theorem measure_nil (width : Char → Nat) : measure width [] = 0 := rfl

@[simp] theorem measure_cons (width : Char → Nat) (c : Char) (cs : List Char) :
    measure width (c :: cs) = width c + measure width cs := rfl

@[simp] theorem measure_append (width : Char → Nat) (as bs : List Char) :
    measure width (as ++ bs) = measure width as + measure width bs := by
  induction as with
  | nil => simp
  | cons a as ih => simp [ih, Nat.add_assoc]

@[simp] theorem cutAt?_zero (width : Char → Nat) (cs : List Char) :
    cutAt? width 0 cs = some ([], cs) := by
  cases cs <;> simp [cutAt?]

/-- A cut behind `as` separates `as` from what follows, if no character has width zero. -/
theorem cutAt?_append (width : Char → Nat) (pos : ∀ c, 0 < width c) (as bs : List Char) :
    cutAt? width (measure width as) (as ++ bs) = some (as, bs) := by
  induction as with
  | nil => simp
  | cons a as ih =>
    have := pos a
    rw [List.cons_append, cutAt?, measure_cons, if_neg (by omega), if_pos (by omega),
      Nat.add_sub_cancel_left, ih]
    rfl

/-- A cut separates a text into two parts, the first as long as the place of the cut. -/
theorem eq_append_of_cutAt? {width : Char → Nat} {n : Nat} {cs before after : List Char}
    (h : cutAt? width n cs = some (before, after)) :
    cs = before ++ after ∧ measure width before = n := by
  induction cs generalizing n before with
  | nil =>
    simp only [cutAt?] at h
    split at h
    · next hn =>
      cases h
      exact ⟨rfl, hn.symm⟩
    · cases h
  | cons c cs ih =>
    simp only [cutAt?] at h
    split at h
    · next hn =>
      cases h
      exact ⟨rfl, hn.symm⟩
    · split at h
      · next hwidth =>
        obtain ⟨⟨front, back⟩, hcut, heq⟩ := Option.map_eq_some_iff.mp h
        cases heq
        obtain ⟨rfl, hsize⟩ := ih hcut
        exact ⟨rfl, by simp only [measure_cons]; omega⟩
      · cases h

end Daybook.Text
