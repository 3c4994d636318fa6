/-
Daybook.Proofs.TallyLaws — tallies of the same and of more records.

A tally is determined by its records (§1), in whatever order they are counted,
as sums do not depend on it. The tally of two lists of records, one behind the
other, is that of the first and that of the second added up category by category
(§2): a sum that was capped stays at the cap, so it does not matter which of the
counts were capped before. Main statement: `tally_characterised`.
-/
import Daybook.Proofs.Tally
import Mathlib.Data.List.Dedup

namespace Daybook

variable {isOvertime : String → Bool} {records more : List Record} {ts us : List CategoryTotals}

/-! ## §1 The tally of records -/

theorem IsTally.mem_categories (h : IsTally isOvertime records ts) (category : String) :
    category ∈ ts.map (·.category) ↔ ∃ r ∈ records, r.category = category := by
  rw [← h.occurs, List.mem_map]

/-- Records have one tally. -/
theorem IsTally.unique (hts : IsTally isOvertime records ts) (hus : IsTally isOvertime records us) :
    ts = us := by
  have hcategories : ts.map (·.category) = us.map (·.category) :=
    (List.pairwise_map.mpr hts.sorted).eq_of_mem_iff (List.pairwise_map.mpr hus.sorted)
      fun category => (hts.mem_categories category).trans (hus.mem_categories category).symm
  have hlines : ∀ {vs : List CategoryTotals}, IsTally isOvertime records vs →
      vs = (vs.map (·.category)).map (.ofRecords isOvertime · records) := fun {vs} h => by
    rw [List.map_map]
    exact (List.map_id vs).symm.trans (List.map_congr_left h.sums)
  rw [hlines hts, hlines hus, hcategories]

/-- Totals do not depend on the order of records. -/
theorem Total.ofRecords_of_perm {shuffled : List Record} (h : shuffled.Perm records)
    (category : String) :
    ofRecords isOvertime category shuffled = ofRecords isOvertime category records := by
  have hsum : ∀ part : Record → Nat,
      ((shuffled.filter (·.category = category)).map part).sum =
        ((records.filter (·.category = category)).map part).sum := fun part =>
    ((h.filter _).map part).sum_eq
  rw [ofRecords, ofRecords, hsum, hsum]

/-- The order of the records does not matter. -/
theorem IsTally.of_perm {shuffled : List Record} (h : IsTally isOvertime shuffled ts)
    (hperm : shuffled.Perm records) : IsTally isOvertime records ts where
  sorted := h.sorted
  occurs category := by simp only [h.occurs, hperm.mem_iff]
  sums t ht := by
    rw [h.sums t ht, CategoryTotals.ofRecords, CategoryTotals.ofRecords,
      Total.ofRecords_of_perm (hperm.filter _), Total.ofRecords_of_perm (hperm.filter _)]

/-! ## §2 Adding tallies up -/

def Total.plus (a b : Total) : Total := a.add b.hours b.minutes

def CategoryTotals.plus (a b : CategoryTotals) : CategoryTotals :=
  { a with dirty := a.dirty.plus b.dirty, committed := a.committed.plus b.committed }

/-- The line of a category; one that is not there counts nothing. -/
def lineOf (isOvertime : String → Bool) (category : String) (totals : List CategoryTotals) :
    CategoryTotals :=
  (totals.find? (·.category = category)).getD (.zero category (isOvertime category))

/-- The categories of two tallies in the order of code points, each once. -/
def categoriesOf (ts us : List CategoryTotals) : List String :=
  Order.sortBy (fun a b => decide (a ≤ b)) (ts.map (·.category) ++ us.map (·.category)).dedup

/-- Two tallies added up: for every category of either, its two lines together. -/
def addTallies (isOvertime : String → Bool) (ts us : List CategoryTotals) : List CategoryTotals :=
  (categoriesOf ts us).map fun category =>
    (lineOf isOvertime category ts).plus (lineOf isOvertime category us)

theorem mem_categoriesOf {category : String} :
    category ∈ categoriesOf ts us ↔
      category ∈ ts.map (·.category) ∨ category ∈ us.map (·.category) := by
  rw [categoriesOf, Order.mem_sortBy, List.mem_dedup, List.mem_append]

theorem pairwise_categoriesOf : (categoriesOf ts us).Pairwise (· < ·) := by
  have hsorted := @Order.pairwise_sortBy_of_nodup String (fun a b => decide (a ≤ b))
    (fun a b => by simpa using le_total a b)
    (fun a b c hab hbc => by simpa using (of_decide_eq_true hab).trans (of_decide_eq_true hbc))
    _ (List.nodup_dedup (ts.map (·.category) ++ us.map (·.category)))
  exact hsorted.imp fun h => lt_of_le_of_ne (of_decide_eq_true h.1) h.2

/-- Counts that were held back before they are added end where the true sum does. -/
theorem Total.ofRecords_append (category : String) :
    ofRecords isOvertime category (records ++ more) =
      (ofRecords isOvertime category records).plus (ofRecords isOvertime category more) := by
  have hcap : ∀ m n, Counter.cap (Counter.cap m + Counter.cap n) = Counter.cap (m + n) :=
    fun m n => by rw [Counter.cap_cap_add, Nat.add_comm, Counter.cap_cap_add, Nat.add_comm]
  simp [ofRecords, plus, add, hcap]

/-- The line of a category over two lists of records adds up those over each. -/
theorem CategoryTotals.ofRecords_append (category : String) :
    ofRecords isOvertime category (records ++ more) =
      (ofRecords isOvertime category records).plus (ofRecords isOvertime category more) := by
  simp [ofRecords, plus, Total.ofRecords_append]

theorem IsTally.lineOf_eq (h : IsTally isOvertime records ts) (category : String) :
    lineOf isOvertime category ts = .ofRecords isOvertime category records :=
  h.lineFor_eq { category, hours := 0, minutes := 0, pending := false }

/-- Two tallies added up are a tally of the records of both. -/
theorem IsTally.add (hts : IsTally isOvertime records ts) (hus : IsTally isOvertime more us) :
    IsTally isOvertime (records ++ more) (addTallies isOvertime ts us) := by
  have hlines : addTallies isOvertime ts us =
      (categoriesOf ts us).map (.ofRecords isOvertime · (records ++ more)) := by
    refine List.map_congr_left fun category _ => ?_
    rw [hts.lineOf_eq, hus.lineOf_eq, CategoryTotals.ofRecords_append]
  rw [hlines]
  refine ⟨List.pairwise_map.mpr pairwise_categoriesOf, fun category => ?_, fun t ht => ?_⟩
  · have hoccurs : (∃ r ∈ records ++ more, r.category = category) ↔
        category ∈ categoriesOf ts us := by
      rw [mem_categoriesOf, hts.mem_categories, hus.mem_categories]
      simp only [List.mem_append, or_and_right, exists_or]
    rw [hoccurs]
    constructor
    · rintro ⟨t, ht, rfl⟩
      obtain ⟨category, hmem, rfl⟩ := List.mem_map.mp ht
      exact hmem
    · intro hmem
      exact ⟨_, List.mem_map_of_mem hmem, rfl⟩
  · obtain ⟨category, _, rfl⟩ := List.mem_map.mp ht
    rfl

/-! ## §3 The laws -/

/-- **What a tally is.** It has one line for every category that occurs, in the order of code
points, with the capped sums of the pending and of the other records; the order of the records does
not matter; and the tally of two lists one behind the other is that of the two tallies added up. -/
theorem tally_characterised (isOvertime : String → Bool) (records : List Record) :
    IsTally isOvertime records (tally isOvertime records) ∧
    (∀ shuffled : List Record, shuffled.Perm records →
      tally isOvertime shuffled = tally isOvertime records) ∧
    ∀ more : List Record, tally isOvertime (records ++ more) =
      addTallies isOvertime (tally isOvertime records) (tally isOvertime more) := by
  have htally := isTally_tally isOvertime
  exact ⟨htally records,
    fun shuffled hperm => ((htally shuffled).of_perm hperm).unique (htally records),
    fun more => (htally (records ++ more)).unique ((htally records).add (htally more))⟩

end Daybook
