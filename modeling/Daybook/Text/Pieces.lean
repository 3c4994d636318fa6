/-
Daybook.Text.Pieces — cutting a text at a separator.

`pieces sep cs` are the pieces of `cs` between the occurrences of `sep`; there
is always one more piece than there are separators, so the empty text has one
empty piece and a text that ends in the separator has an empty last piece.
`glue` puts pieces together again; §2 says where the first piece and the last
one end, and §3 that the two are inverse. Paths are cut as bytes, so neither
asks for characters.
-/

namespace Daybook.Text

/-! ## §1 Cutting and gluing -/

variable {α : Type} [DecidableEq α]

/-- What stands between the occurrences of `sep`. -/
def pieces (sep : α) : List α → List (List α)
  | [] => [[]]
  | c :: cs =>
    if c = sep then [] :: pieces sep cs
    else match pieces sep cs with
      | [] => [[c]]
      | p :: ps => (c :: p) :: ps

def glue {α : Type} (sep : α) : List (List α) → List α
  | [] => []
  | [p] => p
  | p :: ps => p ++ sep :: glue sep ps

/-- The lines of a text: what stands between its newlines. -/
def linesOf (text : String) : List String := (pieces '\n' text.toList).map String.ofList

def joinWith (sep : String) : List String → String
  | [] => ""
  | [s] => s
  | s :: ss => s ++ sep ++ joinWith sep ss

/-! ## §2 The first piece -/

theorem pieces_ne_nil (sep : α) (cs : List α) : pieces sep cs ≠ [] := by
  cases cs with
  | nil => simp [pieces]
  | cons c cs =>
    rw [pieces]
    split
    · simp
    · split <;> simp

@[simp] theorem pieces_sep_cons (sep : α) (cs : List α) :
    pieces sep (sep :: cs) = [] :: pieces sep cs := if_pos rfl

/-- A text without the separator is one piece. -/
theorem pieces_of_not_mem {sep : α} {cs : List α} (h : sep ∉ cs) : pieces sep cs = [cs] := by
  induction cs with
  | nil => rfl
  | cons c cs ih =>
    obtain ⟨hc, hcs⟩ : sep ≠ c ∧ sep ∉ cs := by simpa using h
    rw [pieces, if_neg (Ne.symm hc), ih hcs]

/-- The first piece ends at the first separator. -/
theorem pieces_append {sep : α} {as : List α} (h : sep ∉ as) (cs : List α) :
    pieces sep (as ++ sep :: cs) = as :: pieces sep cs := by
  induction as with
  | nil => exact pieces_sep_cons sep cs
  | cons a as ih =>
    obtain ⟨ha, has⟩ : sep ≠ a ∧ sep ∉ as := by simpa using h
    rw [List.cons_append, pieces, if_neg (Ne.symm ha), ih has]

/-- A separator cuts a text in two, and each part into its own pieces. -/
theorem pieces_append_sep (sep : α) (as bs : List α) :
    pieces sep (as ++ sep :: bs) = pieces sep as ++ pieces sep bs := by
  induction as with
  | nil => exact pieces_sep_cons sep bs
  | cons a as ih =>
    obtain ⟨p, ps, hp⟩ := List.exists_cons_of_ne_nil (pieces_ne_nil sep as)
    rw [List.cons_append, pieces, pieces, ih, hp]
    split <;> rfl

/-! ## §3 The two are inverse -/

theorem glue_cons {α : Type} (sep : α) (p : List α) {ps : List (List α)} (hne : ps ≠ []) :
    glue sep (p :: ps) = p ++ sep :: glue sep ps := by
  cases ps with
  | nil => exact absurd rfl hne
  | cons q qs => rfl

/-- An empty last piece is a separator at the end. -/
theorem glue_concat_nil {α : Type} (sep : α) {ps : List (List α)} (hne : ps ≠ []) :
    glue sep (ps ++ [[]]) = glue sep ps ++ [sep] := by
  induction ps with
  | nil => exact absurd rfl hne
  | cons p ps ih =>
    rw [List.cons_append, glue_cons sep p (by simp)]
    by_cases hps : ps = []
    · simp [hps, glue]
    · rw [ih hps, glue_cons sep p hps, List.append_assoc, List.cons_append]

/-- The pieces, glued together, are the text again. -/
theorem glue_pieces (sep : α) (cs : List α) : glue sep (pieces sep cs) = cs := by
  induction cs with
  | nil => rfl
  | cons c cs ih =>
    rw [pieces]
    split
    · next h =>
      subst h
      cases hp : pieces c cs with
      | nil => exact absurd hp (pieces_ne_nil c cs)
      | cons p ps => rw [hp] at ih; simp [glue, ih]
    · cases hp : pieces sep cs with
      | nil => exact absurd hp (pieces_ne_nil sep cs)
      | cons p ps =>
        rw [hp] at ih
        cases ps with
        | nil => simpa [glue] using ih
        | cons q qs => simpa [glue] using ih

/-- Pieces without the separator are what their text is cut into. -/
theorem pieces_glue {sep : α} {ps : List (List α)} (hne : ps ≠ []) (h : ∀ p ∈ ps, sep ∉ p) :
    pieces sep (glue sep ps) = ps := by
  induction ps with
  | nil => exact absurd rfl hne
  | cons p ps ih =>
    have hp : sep ∉ p := h p (by simp)
    cases ps with
    | nil => exact pieces_of_not_mem hp
    | cons q qs =>
      rw [glue_cons sep p (by simp), pieces_append hp, ih (by simp) fun x hx => h x (by simp [hx])]

/-- No piece holds a separator. -/
theorem not_mem_of_mem_pieces {sep : α} {cs p : List α} (h : p ∈ pieces sep cs) : sep ∉ p := by
  induction cs generalizing p with
  | nil => simp [pieces] at h; simp [h]
  | cons c cs ih =>
    rw [pieces] at h
    split at h
    · rcases List.mem_cons.mp h with rfl | h
      · simp
      · exact ih h
    · next hc =>
      obtain ⟨q, qs, hq⟩ := List.exists_cons_of_ne_nil (pieces_ne_nil sep cs)
      rw [hq] at h ih
      rcases List.mem_cons.mp h with rfl | h
      · have hq : sep ∉ q := ih (by simp)
        simp [hq, Ne.symm hc]
      · exact ih (by simp [h])

theorem subset_of_mem_pieces {sep : α} {cs p : List α} (h : p ∈ pieces sep cs) : p ⊆ cs := by
  induction cs generalizing p with
  | nil =>
    rw [List.mem_singleton.mp h]
    exact List.nil_subset _
  | cons c cs ih =>
    rw [pieces] at h
    split at h
    · rcases List.mem_cons.mp h with rfl | h
      · exact List.nil_subset _
      · exact List.subset_cons_of_subset c (ih h)
    · obtain ⟨q, qs, hq⟩ := List.exists_cons_of_ne_nil (pieces_ne_nil sep cs)
      rw [hq] at h ih
      rcases List.mem_cons.mp h with rfl | h
      · exact List.cons_subset_cons c (ih List.mem_cons_self)
      · exact List.subset_cons_of_subset c (ih (List.mem_cons_of_mem q h))

/-! ## §4 The last piece -/

theorem getLast?_glue {α : Type} {sep : α} {ps : List (List α)} (hne : ps ≠ [])
    (h : ∀ p ∈ ps, sep ∉ p) :
    ps.getLast? = some [] ↔ glue sep ps = [] ∨ (glue sep ps).getLast? = some sep := by
  induction ps with
  | nil => exact absurd rfl hne
  | cons p ps ih =>
    cases ps with
    | nil =>
      have hp : p.getLast? ≠ some sep := fun hlast =>
        h p (by simp) (List.mem_of_getLast? hlast)
      simp [glue, hp]
    | cons q qs =>
      rw [List.getLast?_cons_cons, ih (by simp) fun x hx => h x (by simp [hx])]
      rw [glue_cons sep p (by simp), List.getLast?_append]
      cases glue sep (q :: qs) <;> simp [List.getLast?_cons]

/-- The last piece is empty when nothing stands behind the last separator, or nothing at all. -/
theorem getLast?_pieces {sep : α} {cs : List α} :
    (pieces sep cs).getLast? = some [] ↔ cs = [] ∨ cs.getLast? = some sep := by
  rw [getLast?_glue (pieces_ne_nil sep cs) fun p hp => not_mem_of_mem_pieces hp, glue_pieces]

end Daybook.Text
