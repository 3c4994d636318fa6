/-
Daybook.Order — sorting by insertion.

Sorting is stable: two elements of which each may stand before the other keep
their order. Lists here are a day's or a month's work, so an insertion sort
is fast enough, and it computes inside proofs.

§1 sorts and says that nothing is lost and what sorting images does, §2 that
the result is sorted, and the only sorted form if no two elements may change
places.
-/

namespace Daybook.Order

variable {α : Type}

/-! ## §1 Sorting -/

/-- Puts `x` in front of the first element that may stand behind it. -/
def insertBy (le : α → α → Bool) (x : α) : List α → List α
  | [] => [x]
  | y :: ys => if le x y then x :: y :: ys else y :: insertBy le x ys

/-- The elements of a list, sorted. -/
def sortBy (le : α → α → Bool) (xs : List α) : List α := xs.foldr (insertBy le) []

/-- Inserting loses nothing and adds nothing else. -/
theorem insertBy_perm (le : α → α → Bool) (x : α) (ys : List α) :
    (insertBy le x ys).Perm (x :: ys) := by
  induction ys with
  | nil => exact .refl _
  | cons y ys ih =>
    rw [insertBy]
    split
    · exact .refl _
    · exact (ih.cons y).trans (.swap x y ys)

/-- Sorting neither loses nor invents anything. -/
theorem sortBy_perm (le : α → α → Bool) (xs : List α) : (sortBy le xs).Perm xs := by
  induction xs with
  | nil => exact .refl _
  | cons x xs ih => exact (insertBy_perm le x _).trans (ih.cons x)

@[simp] theorem mem_sortBy {le : α → α → Bool} {xs : List α} {x : α} :
    x ∈ sortBy le xs ↔ x ∈ xs :=
  (sortBy_perm le xs).mem_iff

theorem insertBy_map {β : Type} (le : β → β → Bool) (f : α → β) (x : α) (ys : List α) :
    insertBy le (f x) (ys.map f) = (insertBy (fun a b => le (f a) (f b)) x ys).map f := by
  induction ys with
  | nil => rfl
  | cons y ys ih =>
    rw [List.map_cons, insertBy, insertBy]
    split
    · rfl
    · rw [ih, List.map_cons]

/-- Images are sorted as the elements are that are compared by their images. -/
theorem sortBy_map {β : Type} (le : β → β → Bool) (f : α → β) (xs : List α) :
    sortBy le (xs.map f) = (sortBy (fun a b => le (f a) (f b)) xs).map f := by
  induction xs with
  | nil => rfl
  | cons x xs ih =>
    show insertBy le (f x) (sortBy le (xs.map f)) = _
    rw [ih, insertBy_map]
    rfl

/-! ## §2 What is sorted -/

section Sorted

variable {le : α → α → Bool} (total : ∀ a b, le a b = true ∨ le b a = true)
  (trans : ∀ a b c, le a b = true → le b c = true → le a c = true)

include total trans in
/-- Inserting keeps the order. -/
theorem pairwise_insertBy (x : α) {ys : List α} (h : ys.Pairwise (le · · = true)) :
    (insertBy le x ys).Pairwise (le · · = true) := by
  induction ys with
  | nil => exact List.pairwise_singleton ..
  | cons y ys ih =>
    obtain ⟨hy, hys⟩ := List.pairwise_cons.mp h
    rw [insertBy]
    split
    · next hxy =>
      refine h.cons fun z hz => ?_
      rcases List.mem_cons.mp hz with rfl | hz
      · exact hxy
      · exact trans _ _ _ hxy (hy z hz)
    · next hxy =>
      have hyx : le y x = true := (total x y).resolve_left hxy
      refine (ih hys).cons fun z hz => ?_
      rcases List.mem_cons.mp ((insertBy_perm le x ys).mem_iff.mp hz) with rfl | hz
      · exact hyx
      · exact hy z hz

include total trans in
/-- Sorting puts every element behind those that may stand before it. -/
theorem pairwise_sortBy (xs : List α) : (sortBy le xs).Pairwise (le · · = true) := by
  induction xs with
  | nil => exact List.Pairwise.nil
  | cons x xs ih => exact pairwise_insertBy total trans x ih

include total trans in
/-- If nothing occurs twice, no element may stand behind one that it equals. -/
theorem pairwise_sortBy_of_nodup {xs : List α} (h : xs.Nodup) :
    (sortBy le xs).Pairwise fun a b => le a b = true ∧ a ≠ b :=
  (pairwise_sortBy total trans xs).and ((sortBy_perm le xs).nodup_iff.mpr h)

include total trans in
/-- The sorted form of a list is the only one, if no two elements may change places. -/
theorem sortBy_eq_of_perm {xs ys : List α} (hperm : ys.Perm xs)
    (hsorted : ys.Pairwise (le · · = true))
    (antisymm : ∀ a ∈ xs, ∀ b ∈ xs, le a b = true → le b a = true → a = b) :
    sortBy le xs = ys := by
  have hp := (sortBy_perm le xs).trans hperm.symm
  refine hp.eq_of_pairwise (fun a b ha hb => ?_) (pairwise_sortBy total trans xs) hsorted
  exact antisymm a (mem_sortBy.mp ha) b (hperm.mem_iff.mp hb)

end Sorted

end Daybook.Order
