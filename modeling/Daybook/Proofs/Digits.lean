/-
Daybook.Proofs.Digits — what digits denote, and what a numeral looks like.

A value that is held at a cap while it is read ends as the true value, capped
once, and as many digits of one value are the same digits (§1). A numeral is
made of digits, at least one, and leading zeros do not change what it denotes
(§2).
-/
import Daybook.Text.Digits

namespace Daybook.Text

/-! ## §1 Values -/

/-- Nothing but ASCII digits, and at least one. -/
structure IsNumeral (ds : List Char) : Prop where
  nonempty : ds ≠ []
  digits : allDigits ds = true

/-- Holding the value at the cap step by step is holding it there once. -/
theorem foldl_min_eq (cap : Nat) (ds : List Char) (n : Nat) :
    ds.foldl (fun n c => min cap (10 * n + digitValue c)) (min cap n) =
      min cap (Nat.ofDigitChars 10 ds n) := by
  induction ds generalizing n with
  | nil => rfl
  | cons d ds ih =>
    -- a value beyond the cap stays there, as no step makes it smaller
    have hstep : min cap (10 * min cap n + digitValue d) = min cap (10 * n + digitValue d) := by
      omega
    rw [List.foldl_cons, hstep, ih, Nat.ofDigitChars_cons, digitValue]

/-- The capped value is the value, capped. -/
theorem cappedValue_eq (cap : Nat) (ds : List Char) :
    cappedValue cap ds = min cap (decimalValue ds) := by
  have h := foldl_min_eq cap ds 0
  rwa [Nat.min_zero] at h

theorem isDigit_iff {c : Char} : c.isDigit = true ↔ '0'.toNat ≤ c.toNat ∧ c.toNat ≤ '9'.toNat := by
  rw [Char.isDigit, Bool.and_eq_true, decide_eq_true_eq, decide_eq_true_eq]
  rfl

theorem digitValue_le_nine {c : Char} (h : c.isDigit = true) : digitValue c ≤ 9 := by
  have hle := (isDigit_iff.mp h).2
  simp only [digitValue, Char.reduceToNat] at hle ⊢
  omega

theorem eq_of_digitValue_eq {c d : Char} (hc : c.isDigit = true) (hd : d.isDigit = true)
    (h : digitValue c = digitValue d) : c = d := by
  have hc := (isDigit_iff.mp hc).1
  have hd := (isDigit_iff.mp hd).1
  rw [digitValue, digitValue] at h
  have heq : c.toNat = d.toNat := by omega
  rw [← Char.ofNat_toNat c, heq, Char.ofNat_toNat]

/-- Digits that begin at different values never meet again. -/
theorem ofDigitChars_inj {as bs : List Char} (ha : allDigits as = true) (hb : allDigits bs = true)
    (hlength : as.length = bs.length) {m n : Nat}
    (h : Nat.ofDigitChars 10 as m = Nat.ofDigitChars 10 bs n) : m = n ∧ as = bs := by
  induction as generalizing bs m n with
  | nil =>
    obtain rfl := List.length_eq_zero_iff.mp hlength.symm
    exact ⟨by simpa using h, rfl⟩
  | cons a as ih =>
    obtain ⟨b, bs, rfl⟩ := List.exists_cons_of_length_eq_add_one hlength.symm
    simp only [allDigits, List.all_cons, Bool.and_eq_true] at ha hb
    rw [Nat.ofDigitChars_cons, Nat.ofDigitChars_cons] at h
    obtain ⟨hvalue, rfl⟩ := ih ha.2 hb.2 (Nat.succ.inj hlength) h
    have ha9 := digitValue_le_nine ha.1
    have hb9 := digitValue_le_nine hb.1
    rw [← digitValue, ← digitValue] at hvalue
    exact ⟨by omega, by rw [eq_of_digitValue_eq ha.1 hb.1 (by omega)]⟩

/-- As many digits with the same value are the same digits. -/
theorem eq_of_decimalValue_eq {as bs : List Char} (ha : allDigits as = true)
    (hb : allDigits bs = true) (hlength : as.length = bs.length)
    (h : decimalValue as = decimalValue bs) : as = bs :=
  (ofDigitChars_inj ha hb hlength h).2

/-! ## §2 Numerals -/

theorem isNumeral_numeral (n : Nat) : IsNumeral (numeral n) where
  nonempty := Nat.toDigits_ne_nil
  digits := List.all_eq_true.mpr fun _ hc => Nat.isDigit_of_mem_toDigits (by decide) (by decide) hc

/-- A number is read back from its numeral. -/
theorem numeralValue?_numeral (n : Nat) : numeralValue? (numeral n) = some n := by
  have h := isNumeral_numeral n
  rw [numeralValue?, if_pos ⟨h.nonempty, h.digits⟩, decimalValue_numeral]

/-- Leading zeros count for nothing. -/
theorem decimalValue_zeros (k : Nat) (ds : List Char) :
    decimalValue (List.replicate k '0' ++ ds) = decimalValue ds := by
  induction k with
  | zero => rfl
  | succ k ih =>
    rw [← ih, List.replicate_succ, List.cons_append]
    simp [decimalValue, Nat.ofDigitChars_cons]

/-- Leading zeros do not change what a numeral denotes. -/
theorem decimalValue_paddedNumeral (width n : Nat) : decimalValue (paddedNumeral width n) = n := by
  rw [paddedNumeral, decimalValue_zeros, decimalValue_numeral]

theorem isNumeral_paddedNumeral (width n : Nat) : IsNumeral (paddedNumeral width n) where
  nonempty := by simp [paddedNumeral, (isNumeral_numeral n).nonempty]
  digits := by
    have h := (isNumeral_numeral n).digits
    simp only [allDigits] at h
    simp only [paddedNumeral, allDigits, List.all_append, h, Bool.and_true, List.all_eq_true]
    intro c hc
    rw [List.eq_of_mem_replicate hc]
    decide

end Daybook.Text
