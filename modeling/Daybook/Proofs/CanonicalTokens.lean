/-
Daybook.Proofs.CanonicalTokens — the token lists that lines are scanned to.

A list of tokens is canonical if every run in it is whole: it has text without
spaces and dots, is a number only if it is made of digits, carries what these
denote, and no other run stands beside it. Scanning and joining are inverse to
each other between lines and canonical lists. Main statement:
`canonical_iff_tokenize_join`.

§1 canonical lists, §2 a scan is canonical, §3 a canonical list is scanned back.
-/
import Daybook.Proofs.Tokens
import Mathlib.Data.List.Chain

namespace Daybook.Token

/-! ## §1 Canonical lists -/

/-- Text of a run: at least one character, no space and no dot. -/
structure IsRunText (cs : List Char) : Prop where
  nonempty : cs ≠ []
  noSpace : ' ' ∉ cs
  noDot : '.' ∉ cs

/-- A token that is written as the scan writes it. -/
def IsWhole : Token → Prop
  | space | dot => True
  | word text => IsRunText text.toList ∧ ∃ c ∈ text.toList, c.isDigit = false
  | number value text =>
    IsRunText text.toList ∧ (∀ c ∈ text.toList, c.isDigit = true) ∧
      value = min (Text.decimalValue text.toList) maxValue

def isRun : Token → Bool
  | space | dot => false
  | word _ | number _ _ => true

/-- A list of whole tokens in which no run stands beside another. -/
structure Canonical (ts : List Token) : Prop where
  whole : ∀ t ∈ ts, t.IsWhole
  apart : ts.IsChain fun t u => ¬ (t.isRun ∧ u.isRun)

theorem IsRunText.inRun {cs : List Char} (h : IsRunText cs) : ∀ c ∈ cs, inRun c = true := by
  intro c hc
  have hspace : c ≠ ' ' := fun heq => h.noSpace (heq ▸ hc)
  have hdot : c ≠ '.' := fun heq => h.noDot (heq ▸ hc)
  simp [Token.inRun, hspace, hdot]

/-! ## §2 A scan is canonical -/

theorem isRunText_of_mem_cut {cs run : List Char} (h : Piece.run run ∈ cut cs) :
    IsRunText run := by
  obtain ⟨hne, hin⟩ := run_of_mem_cut h
  exact ⟨hne, fun hspace => absurd (hin ' ' hspace) (by decide),
    fun hdot => absurd (hin '.' hdot) (by decide)⟩

theorem isWhole_ofRun {cs : List Char} (h : IsRunText cs) : (ofRun cs).IsWhole := by
  unfold ofRun
  split
  · next hdigits =>
    rw [IsWhole, String.toList_ofList, Text.cappedValue_eq, Nat.min_comm]
    exact ⟨h, List.all_eq_true.mp hdigits, rfl⟩
  · next hdigits =>
    rw [IsWhole, String.toList_ofList]
    refine ⟨h, ?_⟩
    simpa [Text.allDigits] using hdigits

@[simp] theorem isRun_ofRun (cs : List Char) : (ofRun cs).isRun = true := by
  unfold ofRun
  split <;> rfl

/-- A character that is put in front joins a run that begins there, or stands before a piece that
is none. -/
theorem isChain_push (c : Char) {ps : List Piece}
    (h : ps.IsChain fun p q => ¬ ((ofPiece p).isRun ∧ (ofPiece q).isRun)) :
    (Piece.push c ps).IsChain fun p q => ¬ ((ofPiece p).isRun ∧ (ofPiece q).isRun) := by
  unfold Piece.push
  split
  · exact List.isChain_cons.mpr ⟨by simp [ofPiece, isRun], h⟩
  · split
    · exact List.isChain_cons.mpr ⟨by simp [ofPiece, isRun], h⟩
    · split
      · next cs rest =>
        obtain ⟨hhead, hrest⟩ := List.isChain_cons.mp h
        refine List.isChain_cons.mpr ⟨fun q hq => ?_, hrest⟩
        simpa [ofPiece] using hhead q hq
      · next ps hno =>
        refine List.isChain_cons.mpr ⟨fun q hq => ?_, h⟩
        cases q with
        | run cs =>
          obtain ⟨rest, rfl⟩ := List.head?_eq_some_iff.mp hq
          exact absurd rfl (hno cs rest)
        | space => simp [ofPiece, isRun]
        | dot => simp [ofPiece, isRun]

/-- Cutting leaves no two runs side by side. -/
theorem isChain_cut (cs : List Char) :
    (cut cs).IsChain fun p q => ¬ ((ofPiece p).isRun ∧ (ofPiece q).isRun) := by
  induction cs with
  | nil => exact List.isChain_nil
  | cons c cs ih => exact isChain_push c ih

/-- What the scan yields is canonical. -/
theorem canonical_scan (cs : List Char) : Canonical (scan cs) where
  whole t ht := by
    obtain ⟨piece, hmem, rfl⟩ := List.mem_map.mp ht
    cases piece with
    | space => trivial
    | dot => trivial
    | run run => exact isWhole_ofRun (isRunText_of_mem_cut hmem)
  apart := (List.isChain_map ofPiece).mpr (isChain_cut cs)

/-! ## §3 A canonical list is scanned back -/

/-- A whole run is the token of its characters. -/
theorem IsWhole.exists_run {t : Token} (h : t.IsWhole) (hrun : t.isRun = true) :
    ∃ cs, IsRunText cs ∧ t = ofRun cs := by
  cases t with
  | space => cases hrun
  | dot => cases hrun
  | word text =>
    obtain ⟨htext, c, hc, hdigit⟩ := h
    have hdigits : Text.allDigits text.toList = false :=
      List.all_eq_false.mpr ⟨c, hc, by simp [hdigit]⟩
    exact ⟨text.toList, htext, by simp [ofRun, hdigits]⟩
  | number value text =>
    obtain ⟨htext, hdigits, hvalue⟩ := h
    have hall : Text.allDigits text.toList = true := List.all_eq_true.mpr hdigits
    exact ⟨text.toList, htext, by simp [ofRun, hall, hvalue, Text.cappedValue_eq, Nat.min_comm]⟩

/-- A token that is no run is one character, at which a run ends. -/
theorem inRun_of_mem_head? {t : Token} {ts : List Token} (hrun : t.isRun = false) :
    ∀ c ∈ (allChars (t :: ts)).head?, inRun c = false := by
  intro c hc
  cases t with
  | space =>
    obtain rfl : ' ' = c := by simpa [chars] using hc
    rfl
  | dot =>
    obtain rfl : '.' = c := by simpa [chars] using hc
    rfl
  | word text => cases hrun
  | number value text => cases hrun

/-- The text of canonical tokens is scanned into the very same tokens. -/
theorem Canonical.scan_allChars {ts : List Token} (h : Canonical ts) : scan (allChars ts) = ts := by
  induction ts with
  | nil => rfl
  | cons t ts ih =>
    obtain ⟨hhead, hrest⟩ := List.isChain_cons.mp h.apart
    have hts : Canonical ts := ⟨fun u hu => h.whole u (List.mem_cons_of_mem t hu), hrest⟩
    cases hrun : t.isRun with
    | false =>
      cases t with
      | space => rw [allChars_cons, chars, List.singleton_append, scan_space_cons, ih hts]
      | dot => rw [allChars_cons, chars, List.singleton_append, scan_dot_cons, ih hts]
      | word text => cases hrun
      | number value text => cases hrun
    | true =>
      obtain ⟨cs, hcs, rfl⟩ := (h.whole t List.mem_cons_self).exists_run hrun
      have hends : ∀ c ∈ (allChars ts).head?, inRun c = false := by
        cases ts with
        | nil => simp
        | cons u us =>
          refine inRun_of_mem_head? ?_
          have hapart := hhead u rfl
          simpa [hrun] using hapart
      rw [allChars_cons, chars_ofRun, scan_run_append hcs.nonempty hcs.inRun hends, ih hts]

/-- **Scanning and joining are inverse to each other.** Every line is scanned to a canonical list,
from which it is joined again; and the canonical lists are those that are scanned back once they
are joined. -/
theorem canonical_iff_tokenize_join :
    (∀ line : String, Canonical (tokenize line) ∧ join (tokenize line) = line) ∧
    ∀ ts : List Token, Canonical ts ↔ tokenize (join ts) = ts := by
  refine ⟨fun line => ⟨canonical_scan line.toList, ?_⟩, fun ts => ⟨fun h => ?_, fun h => ?_⟩⟩
  · rw [tokenize, join_scan, String.ofList_toList]
  · rw [tokenize, toList_join, h.scan_allChars]
  · rw [← h]
    exact canonical_scan _

end Daybook.Token
