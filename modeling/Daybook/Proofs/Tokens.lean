/-
Daybook.Proofs.Tokens — scanning a line part by part.

A space or a dot is a token of its own wherever it stands, so a line can be
scanned on either side of it (§1); a stretch without either is one run, and a
run of digits one number (§2). The texts of the tokens, put together, are the
line again (§3).
-/
import Daybook.Proofs.Digits
import Daybook.Token

namespace Daybook.Token

/-! ## §1 Spaces and dots -/

/-- A piece that is pushed in front of a space or a dot cannot join it. -/
theorem push_append (c : Char) (ps qs : List Piece) {q : Piece} (hq : ∀ cs, q ≠ .run cs) :
    Piece.push c (ps ++ q :: qs) = Piece.push c ps ++ q :: qs := by
  unfold Piece.push
  split
  · rfl
  · split
    · rfl
    · cases ps with
      | nil =>
        cases q with
        | run cs => exact absurd rfl (hq cs)
        | _ => rfl
      | cons p ps => cases p <;> rfl

/-- A space cuts a line in two. -/
theorem cut_append_space (as bs : List Char) :
    cut (as ++ ' ' :: bs) = cut as ++ .space :: cut bs := by
  induction as with
  | nil => simp [cut, Piece.push]
  | cons a as ih => rw [List.cons_append, cut, ih, push_append a _ _ (by simp), cut]

/-- A dot cuts a line in two. -/
theorem cut_append_dot (as bs : List Char) :
    cut (as ++ '.' :: bs) = cut as ++ .dot :: cut bs := by
  induction as with
  | nil => simp [cut, Piece.push]
  | cons a as ih => rw [List.cons_append, cut, ih, push_append a _ _ (by simp), cut]

/-- A line is scanned on either side of a space. -/
theorem scan_append_space (as bs : List Char) :
    scan (as ++ ' ' :: bs) = scan as ++ .space :: scan bs := by
  simp [scan, cut_append_space, ofPiece]

/-- A line is scanned on either side of a dot. -/
theorem scan_append_dot (as bs : List Char) :
    scan (as ++ '.' :: bs) = scan as ++ .dot :: scan bs := by
  simp [scan, cut_append_dot, ofPiece]

@[simp] theorem scan_nil : scan [] = [] := rfl

@[simp] theorem scan_space_cons (cs : List Char) : scan (' ' :: cs) = .space :: scan cs :=
  scan_append_space [] cs

@[simp] theorem scan_dot_cons (cs : List Char) : scan ('.' :: cs) = .dot :: scan cs :=
  scan_append_dot [] cs

theorem scan_spaces (n : Nat) (cs : List Char) :
    scan (List.replicate n ' ' ++ cs) = List.replicate n .space ++ scan cs := by
  induction n with
  | zero => rfl
  | succ n ih => simp [List.replicate_succ, ih]

/-! ## §2 Runs -/

def inRun (c : Char) : Bool := c != ' ' && c != '.'

/-- A run is one piece. -/
theorem cut_run {cs : List Char} (hne : cs ≠ []) (hcs : ∀ c ∈ cs, inRun c = true) :
    cut cs = [.run cs] := by
  induction cs with
  | nil => exact absurd rfl hne
  | cons c cs ih =>
    have hc : c ≠ ' ' ∧ c ≠ '.' := by simpa [inRun] using hcs c (by simp)
    rw [cut]
    cases cs with
    | nil => simp [cut, Piece.push, hc.1, hc.2]
    | cons d ds =>
      rw [ih (by simp) fun x hx => hcs x (by simp [hx])]
      simp [Piece.push, hc.1, hc.2]

/-- A stretch without spaces and dots is one token. -/
theorem scan_run {cs : List Char} (hne : cs ≠ []) (hcs : ∀ c ∈ cs, inRun c = true) :
    scan cs = [ofRun cs] := by
  simp [scan, cut_run hne hcs, ofPiece]

/-- A run ends at a space, at a dot or at the end of the line. -/
theorem scan_run_append {cs rest : List Char} (hne : cs ≠ []) (hcs : ∀ c ∈ cs, inRun c = true)
    (hrest : ∀ c ∈ rest.head?, inRun c = false) :
    scan (cs ++ rest) = ofRun cs :: scan rest := by
  cases rest with
  | nil => simp [scan_run hne hcs]
  | cons c rest =>
    have hc : c = ' ' ∨ c = '.' := by
      have := hrest c (by simp)
      simp only [inRun, bne, Bool.and_eq_false_iff, Bool.not_eq_false', beq_iff_eq] at this
      exact this
    rcases hc with rfl | rfl
    · rw [scan_append_space, scan_run hne hcs, scan_space_cons, List.singleton_append]
    · rw [scan_append_dot, scan_run hne hcs, scan_dot_cons, List.singleton_append]

/-- What a run of the cut yields is no space. -/
theorem ofRun_ne_space (cs : List Char) : ofRun cs ≠ .space := by
  unfold ofRun
  split <;> simp

/-- Only a space of the line is scanned to a space. -/
theorem space_not_mem_scan {cs : List Char} (hcs : ' ' ∉ cs) : Token.space ∉ scan cs := by
  induction cs with
  | nil => simp
  | cons c cs ih =>
    obtain ⟨hc, hcs⟩ : ' ' ≠ c ∧ ' ' ∉ cs := by simpa using hcs
    have rest := ih hcs
    rw [scan] at rest ⊢
    rw [cut]
    unfold Piece.push
    rw [if_neg (Ne.symm hc)]
    split
    · simpa [ofPiece] using rest
    · split
      · next ps h =>
        rw [h, List.map_cons, List.mem_cons, not_or] at rest
        simpa [ofPiece, Ne.symm (ofRun_ne_space _)] using rest.2
      · simpa [ofPiece, Ne.symm (ofRun_ne_space _)] using rest

theorem scan_ne_nil {cs : List Char} (hne : cs ≠ []) : scan cs ≠ [] := by
  cases cs with
  | nil => exact absurd rfl hne
  | cons c cs =>
    rw [scan, cut]
    unfold Piece.push
    split
    · simp
    · split
      · simp
      · split <;> simp

/-- A run of the cut is not empty, and holds neither spaces nor dots. -/
theorem run_of_mem_cut {cs run : List Char} (h : Piece.run run ∈ cut cs) :
    run ≠ [] ∧ ∀ c ∈ run, inRun c = true := by
  induction cs generalizing run with
  | nil => simp [cut] at h
  | cons c cs ih =>
    rw [cut] at h
    unfold Piece.push at h
    split at h
    · exact ih (by simpa using h)
    · next hspace =>
      split at h
      · exact ih (by simpa using h)
      · next hdot =>
        have hc : inRun c = true := by simp [inRun, hspace, hdot]
        split at h
        · next rest ps hcut =>
          -- the character joins the run behind it, or the run stands further on
          rcases List.mem_cons.mp h with heq | hmem
          · cases heq
            obtain ⟨_, hrest⟩ := ih (hcut ▸ List.mem_cons_self)
            refine ⟨List.cons_ne_nil _ _, fun x hx => ?_⟩
            rcases List.mem_cons.mp hx with rfl | hx
            · exact hc
            · exact hrest x hx
          · exact ih (hcut ▸ List.mem_cons_of_mem _ hmem)
        · rcases List.mem_cons.mp h with heq | hmem
          · cases heq
            exact ⟨List.cons_ne_nil _ _, by simpa using hc⟩
          · exact ih hmem

/-- A number is a numeral of the line, and carries what that denotes. -/
theorem number_of_mem_scan {cs : List Char} {value : Nat} {text : String}
    (h : .number value text ∈ scan cs) :
    Text.IsNumeral text.toList ∧ value = Text.cappedValue maxValue text.toList := by
  obtain ⟨piece, hmem, hpiece⟩ := List.mem_map.mp h
  cases piece with
  | space => cases hpiece
  | dot => cases hpiece
  | run run =>
    obtain ⟨hne, _⟩ := run_of_mem_cut hmem
    rw [ofPiece, ofRun] at hpiece
    split at hpiece
    · next hdigits =>
      simp only [number.injEq] at hpiece
      obtain ⟨rfl, rfl⟩ := hpiece
      rw [String.toList_ofList]
      exact ⟨⟨hne, hdigits⟩, rfl⟩
    · cases hpiece

theorem inRun_of_isDigit {c : Char} (h : c.isDigit = true) : inRun c = true := by
  have hspace : c ≠ ' ' := fun heq => by simp [heq] at h
  have hdot : c ≠ '.' := fun heq => by simp [heq] at h
  simp [inRun, hspace, hdot]

/-- A numeral is one token. -/
theorem scan_numeral {ds : List Char} (h : Text.IsNumeral ds) :
    scan ds = [.number (Text.cappedValue maxValue ds) (String.ofList ds)] := by
  have hrun : ∀ c ∈ ds, inRun c = true := fun c hc =>
    inRun_of_isDigit (List.all_eq_true.mp h.digits c hc)
  rw [scan_run h.nonempty hrun, ofRun, if_pos h.digits]

/-! ## §3 The way back -/

@[simp] theorem chars_ofRun (cs : List Char) : (ofRun cs).chars = cs := by
  unfold ofRun
  split <;> simp [chars]

@[simp] theorem allChars_append (ts us : List Token) :
    allChars (ts ++ us) = allChars ts ++ allChars us := by
  simp [allChars]

theorem allChars_map_push (c : Char) (ps : List Piece) :
    allChars ((Piece.push c ps).map ofPiece) = c :: allChars (ps.map ofPiece) := by
  unfold Piece.push
  split
  · next h => subst h; rfl
  · split
    · next h => subst h; rfl
    · split <;> simp [ofPiece]

/-- Nothing of a line is lost. -/
@[simp] theorem allChars_scan (cs : List Char) : allChars (scan cs) = cs := by
  induction cs with
  | nil => rfl
  | cons c cs ih => rw [scan, cut, allChars_map_push, ← scan, ih]

/-- No character is lost in the scan. -/
theorem join_scan (cs : List Char) : join (scan cs) = String.ofList cs := by
  rw [join, allChars_scan]

end Daybook.Token
