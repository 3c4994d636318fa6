/-
Daybook.Proofs.StoreFile — a store survives its file.

Every part of a store is a list of texts, truth values and lists of such, and
each part is found again in its value (§1) and its value again in the bytes
(§2), so the table is found again and opening leaves it alone. Main statement:
`ofBytes?_toBytes`, for every store whatsoever.
-/
import Daybook.Proofs.DayText
import Daybook.Proofs.JsonRoundTrip
import Daybook.Store.File

namespace Daybook

/-! ## §1 Parts as values -/

theorem Text.signedValue?_signedDecimal (i : Int) :
    signedValue? (signedDecimal i).toList = some i := by
  unfold signedDecimal
  split
  · next hneg =>
    rw [String.toList_ofList, signedValue?, numeralValue?_numeral, Option.map_some]
    congr 1
    omega
  · next hneg =>
    have hds := isNumeral_numeral i.natAbs
    obtain ⟨d, ds, hcons⟩ := List.exists_cons_of_ne_nil hds.nonempty
    have hd : d ≠ '-' := by
      rintro rfl
      have := List.all_eq_true.mp hds.digits '-' (by simp [hcons])
      cases this
    rw [decimal, String.toList_ofList]
    unfold signedValue?
    split
    · next heq =>
      rw [hcons, List.cons.injEq] at heq
      exact absurd heq.1 hd
    · rw [numeralValue?_numeral, Option.map_some]
      congr 1
      simp only [Int.ofNat_eq_natCast]
      omega

theorem Json.anyNat?_ofNat (n : Nat) : (Json.ofNat n).anyNat? = some n := by
  simp [Json.ofNat, Json.anyNat?, Json.str?, Text.decimal, Text.numeralValue?_numeral]

theorem Json.int?_ofInt (i : Int) : (Json.ofInt i).int? = some i :=
  Text.signedValue?_signedDecimal i

theorem Json.str?_ofString? (s : Option String) : (Json.ofString? s).str? = s := by
  cases s <;> rfl

/-- A row is read back from its columns. -/
theorem Row.ofJson?_toJson (r : Row) : ofJson? r.toJson = some r := by
  simp [toJson, ofJson?, Json.anyNat?_ofNat, Json.int?_ofInt, Json.str?_ofString?]

/-- A store is read back from its value. -/
theorem Store.ofJson?_toJson (s : Store) : ofJson? s.toJson = some s := by
  have hrows : (s.rows.map Row.toJson).mapM Row.ofJson? = some s.rows := by
    induction s.rows with
    | nil => rfl
    | cons r rows ih => simp [Row.ofJson?_toJson, ih]
  simp [toJson, ofJson?, Json.anyNat?_ofNat, hrows]

/-! ## §2 Values as bytes -/

open Json.Reader (ReadsBack readsBack_null readsBack_bool readsBack_str readsBack_arr)

theorem Row.readsBack_toJson (r : Row) (depth : Nat) :
    ReadsBack { depth := depth + 1 } r.toJson := by
  refine readsBack_arr (Nat.succ_ne_zero _) fun j hj => ?_
  simp only [List.mem_cons, List.not_mem_nil, or_false] at hj
  rcases hj with rfl | rfl | rfl | rfl | rfl | rfl | rfl | rfl | rfl
  · exact readsBack_str rfl _
  · exact readsBack_str rfl _
  · exact readsBack_bool _ _
  · exact readsBack_bool _ _
  · exact readsBack_str rfl _
  · exact readsBack_str rfl _
  · exact readsBack_str rfl _
  · cases r.task with
    | none => exact readsBack_null _
    | some task => exact readsBack_str rfl _
  · exact readsBack_str rfl _

/-- The value of a store is read back from its printed form. -/
theorem Store.readsBack_toJson (s : Store) (depth : Nat) :
    ReadsBack { depth := depth + 3 } s.toJson := by
  refine readsBack_arr (Nat.succ_ne_zero _) fun j hj => ?_
  simp only [List.mem_cons, List.not_mem_nil, or_false] at hj
  rcases hj with rfl | rfl
  · exact readsBack_str rfl _
  · refine readsBack_arr (Nat.succ_ne_zero _) fun j hj => ?_
    obtain ⟨r, _, rfl⟩ := List.mem_map.mp hj
    exact r.readsBack_toJson depth

/-- The file of a store holds the table of that store. -/
theorem Store.table?_toBytes (s : Store) : table? s.toBytes = some (some s) := by
  have hback := s.readsBack_toJson 5
  obtain ⟨b, bytes, hbytes, _⟩ := hback.first
  have hne : s.toBytes ≠ [] := by
    rw [toBytes, Text.Utf8.encode_append, hbytes]
    simp
  rw [table?, if_neg hne, toBytes, Text.Utf8.encode_append, Json.Reader.parse?_render hback rfl,
    Option.bind_some, ofJson?_toJson, Option.map_some]

/-- Opening the file of a store finds that store, however often it was opened before. -/
theorem Store.ofBytes?_toBytes (s : Store) : ofBytes? s.toBytes = some s := by
  rw [ofBytes?, table?_toBytes]
  rfl

end Daybook
