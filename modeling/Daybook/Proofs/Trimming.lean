/-
Daybook.Proofs.Trimming — what trimming leaves of a text.

A trimmed text has no white space at either end, and white space is all that
trimming drops (§1); so any ending of a trimmed text is trimmed by dropping
its leading white space alone (§2). Dropping the ends by another property of
characters is much the same.
-/
import Daybook.Text.Blank
import Mathlib.Data.List.TakeWhile

namespace Daybook.Text

/-! ## §1 The two ends -/

/-- A stretch of characters that satisfy `p` ends where the first other one stands. -/
theorem takeWhile_exact {p : Char → Bool} {cs rest : List Char} (hcs : ∀ c ∈ cs, p c = true)
    (hrest : ∀ c ∈ rest.head?, p c = false) : (cs ++ rest).takeWhile p = cs := by
  rw [List.takeWhile_append_of_pos hcs]
  cases rest with
  | nil => simp
  | cons c rest => simp [hrest c rfl]

theorem dropWhile_exact {p : Char → Bool} {cs rest : List Char} (hcs : ∀ c ∈ cs, p c = true)
    (hrest : ∀ c ∈ rest.head?, p c = false) : (cs ++ rest).dropWhile p = rest := by
  have h := List.takeWhile_append_dropWhile (p := p) (l := cs ++ rest)
  rwa [takeWhile_exact hcs hrest, List.append_cancel_left_eq] at h

theorem dropEndWhile_exact {p : Char → Bool} {cs tail : List Char}
    (hcs : ∀ c ∈ cs.getLast?, p c = false) (htail : ∀ c ∈ tail, p c = true) :
    dropEndWhile p (cs ++ tail) = cs := by
  rw [dropEndWhile, List.reverse_append,
    dropWhile_exact (fun c hc => htail c (List.mem_reverse.mp hc)) (by rwa [List.head?_reverse]),
    List.reverse_reverse]

theorem dropEndWhile_prefix (p : Char → Bool) (cs : List Char) :
    dropEndWhile p cs <+: cs := by
  rw [dropEndWhile, ← List.reverse_suffix, List.reverse_reverse]
  exact List.dropWhile_suffix p

/-- What is left by trimming begins with no white space. -/
theorem isBlank_of_mem_head?_trim {cs : List Char} {c : Char} (h : c ∈ (trim cs).head?) :
    isBlank c = false := by
  obtain ⟨back, hback⟩ := dropEndWhile_prefix isBlank (trimStart cs)
  have hfirst := List.head?_dropWhile_not isBlank cs
  obtain ⟨rest, hrest⟩ := List.head?_eq_some_iff.mp h
  have hstart : cs.dropWhile isBlank = c :: (rest ++ back) := by
    rw [← List.cons_append, ← hrest]
    exact hback.symm
  rw [hstart] at hfirst
  simpa using hfirst

/-- Trimming leaves no space at the front. -/
theorem head?_trim (cs : List Char) : (trim cs).head? ≠ some ' ' := by
  intro h
  have := isBlank_of_mem_head?_trim h
  simp at this

/-- A text without white space at its ends is left as it is. -/
theorem trim_eq_self {cs : List Char} (hfirst : ∀ c ∈ cs.head?, isBlank c = false)
    (hlast : ∀ c ∈ cs.getLast?, isBlank c = false) : trim cs = cs := by
  have hnone : ∀ c ∈ ([] : List Char), isBlank c = true := by simp
  have hstart : trimStart cs = cs := dropWhile_exact hnone hfirst
  have hend : dropEndWhile isBlank (cs ++ []) = cs := dropEndWhile_exact hlast hnone
  rw [trim, hstart, trimEnd]
  rwa [List.append_nil] at hend

/-- What is left does not end in a character that is dropped. -/
theorem getLast?_dropEndWhile {p : Char → Bool} {cs : List Char} {c : Char} (hc : p c = true) :
    (dropEndWhile p cs).getLast? ≠ some c := by
  intro h
  rw [dropEndWhile, List.getLast?_reverse] at h
  have hlast := List.head?_dropWhile_not p cs.reverse
  rw [h] at hlast
  simp [hc] at hlast

/-- Trimming leaves no space at the back. -/
theorem getLast?_trim (cs : List Char) : (trim cs).getLast? ≠ some ' ' :=
  getLast?_dropEndWhile isBlank_space

/-- What trimming drops at the front is white space. -/
theorem exists_leading (cs : List Char) :
    ∃ lead, cs = lead ++ trimStart cs ∧ ∀ c ∈ lead, isBlank c = true :=
  ⟨cs.takeWhile isBlank, List.takeWhile_append_dropWhile.symm,
    fun c hc => List.all_eq_true.mp List.all_takeWhile c hc⟩

/-- What is dropped at the back are characters to be dropped. -/
theorem exists_dropped (p : Char → Bool) (cs : List Char) :
    ∃ tail, cs = dropEndWhile p cs ++ tail ∧ ∀ c ∈ tail, p c = true := by
  refine ⟨(cs.reverse.takeWhile p).reverse, ?_, fun c hc => ?_⟩
  · rw [dropEndWhile, ← List.reverse_append, List.takeWhile_append_dropWhile, List.reverse_reverse]
  · exact List.all_eq_true.mp List.all_takeWhile c (List.mem_reverse.mp hc)

/-- What trimming drops at the back is white space. -/
theorem exists_trailing (cs : List Char) :
    ∃ trail, cs = trimEnd cs ++ trail ∧ ∀ c ∈ trail, isBlank c = true :=
  exists_dropped isBlank cs

theorem trim_spaces (n : Nat) (cs : List Char) :
    trim (List.replicate n ' ' ++ cs) = trim cs := by
  induction n with
  | zero => rfl
  | succ n ih => simp [List.replicate_succ, trim, trimStart] at ih ⊢

/-- White space behind a text is dropped with the text's own. -/
theorem trim_append_blank (cs : List Char) {tail : List Char}
    (htail : ∀ c ∈ tail, isBlank c = true) : trim (cs ++ tail) = trim cs := by
  simp only [trim, trimStart, List.dropWhile_append]
  split
  · next hcs =>
    have hcs : cs.dropWhile isBlank = [] := List.isEmpty_iff.mp hcs
    have hnone : tail.dropWhile isBlank = [] := List.dropWhile_eq_nil_iff.mpr htail
    rw [hcs, hnone]
  · have hrev : ∀ c ∈ tail.reverse, isBlank c = true := fun c hc =>
      htail c (List.mem_reverse.mp hc)
    rw [trimEnd, dropEndWhile, List.reverse_append, List.dropWhile_append_of_pos hrev, trimEnd,
      dropEndWhile]

/-! ## §2 Endings of a trimmed text -/

/-- Trimming leaves no white space at the end of any ending of the line. -/
theorem trim_suffix {line cs : List Char} (h : cs <:+ trim line) :
    trim cs <:+ trim line := by
  have hstart : trimStart cs <:+ trim line := (List.dropWhile_suffix _).trans h
  suffices hend : trim cs = trimStart cs from hend ▸ hstart
  rw [trim, trimEnd, dropEndWhile]
  have hrev : (trimStart cs).reverse <+: (trimStart line).reverse.dropWhile isBlank := by
    have := List.reverse_prefix.mpr hstart
    rwa [trim, trimEnd, dropEndWhile, List.reverse_reverse] at this
  cases hcs : (trimStart cs).reverse with
  | nil => simpa using hcs.symm
  | cons c front =>
    rw [hcs] at hrev
    obtain ⟨back, hback⟩ := hrev
    have hlast := List.head?_dropWhile_not isBlank (trimStart line).reverse
    rw [← hback] at hlast
    have hc : isBlank c = false := by simpa using hlast
    rw [List.dropWhile_cons_of_neg (by simp [hc]), ← hcs, List.reverse_reverse]

end Daybook.Text
