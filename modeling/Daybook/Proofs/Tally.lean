/-
Daybook.Proofs.Tally — what the totals of records are.

`IsTally` says it without a running count: one line for every category that
occurs, in the order of code points, and in each line the capped sums over the
pending and over the committed records of its category. Main statement: the
tally that is kept record by record is this one.

§1 sums, §2 the statement, §3 counting one more record, §4 counting them all,
§5 what leaving records out does to a tally.
-/
import Daybook.Statistics
import Mathlib.Algebra.Order.BigOperators.Group.List
import Mathlib.Algebra.Order.Ring.Nat
import Mathlib.Data.List.Sort
import Mathlib.Data.String.Basic

namespace Daybook

/-! ## §1 Sums -/

/-- The total of a category over records: hours and minutes summed apart, and capped. -/
def Total.ofRecords (isOvertime : String → Bool) (category : String) (records : List Record) :
    Total where
  category := category
  hours := Counter.cap ((records.filter (·.category = category)).map (·.hours)).sum
  minutes := Counter.cap ((records.filter (·.category = category)).map (·.minutes)).sum
  overtime := isOvertime category

theorem Total.ofRecords_of_not_mem {isOvertime : String → Bool} {category : String}
    {records : List Record} (h : ∀ r ∈ records, r.category ≠ category) :
    ofRecords isOvertime category records = { category, overtime := isOvertime category } := by
  have hnone : records.filter (·.category = category) = [] := by
    rw [List.filter_eq_nil_iff]
    intro r hr
    simpa using h r hr
  simp [ofRecords, hnone, Counter.cap]

/-- One more record of the category adds its hours and minutes. -/
theorem Total.ofRecords_append_self (isOvertime : String → Bool) (records : List Record)
    (r : Record) :
    ofRecords isOvertime r.category (records ++ [r]) =
      (ofRecords isOvertime r.category records).add r.hours r.minutes := by
  simp [ofRecords, Total.add, List.filter_append]

/-- A record of another category adds nothing. -/
theorem Total.ofRecords_append_other (isOvertime : String → Bool) {category : String}
    (records : List Record) {r : Record} (h : r.category ≠ category) :
    ofRecords isOvertime category (records ++ [r]) = ofRecords isOvertime category records := by
  simp [ofRecords, List.filter_append, h]

/-! ## §2 Tallies -/

/-- The line of a category: its dirty total over the pending records, its committed total over
the others. -/
def CategoryTotals.ofRecords (isOvertime : String → Bool) (category : String)
    (records : List Record) : CategoryTotals where
  category := category
  dirty := .ofRecords isOvertime category (records.filter (·.pending))
  committed := .ofRecords isOvertime category (records.filter (!·.pending))

/-- What a tally of records is. -/
structure IsTally (isOvertime : String → Bool) (records : List Record)
    (totals : List CategoryTotals) : Prop where
  /-- The categories stand in the order of code points, each once. -/
  sorted : totals.Pairwise (·.category < ·.category)
  /-- They are the categories that occur. -/
  occurs : ∀ category, (∃ t ∈ totals, t.category = category) ↔
    ∃ r ∈ records, r.category = category
  /-- Every line has the sums of its category. -/
  sums : ∀ t ∈ totals, t = .ofRecords isOvertime t.category records

/-! ## §3 Counting one more record -/

/-- The line to which a record is added: the one of its category, or a new one. -/
def lineFor (isOvertime : String → Bool) (r : Record) (totals : List CategoryTotals) :
    CategoryTotals :=
  (totals.find? (·.category = r.category)).getD (.zero r.category (isOvertime r.category))

@[simp] theorem CategoryTotals.category_add (t : CategoryTotals) (r : Record) :
    (t.add r).category = t.category := by
  unfold add
  split <;> rfl

@[simp] theorem CategoryTotals.category_zero (category : String) (overtime : Bool) :
    (zero category overtime).category = category := rfl

theorem category_lineFor (isOvertime : String → Bool) (r : Record)
    (totals : List CategoryTotals) : (lineFor isOvertime r totals).category = r.category := by
  unfold lineFor
  cases h : totals.find? (·.category = r.category) with
  | none => rfl
  | some t => simpa using List.find?_some h

theorem lineFor_of_not_mem {isOvertime : String → Bool} {r : Record}
    {totals : List CategoryTotals} (h : ∀ t ∈ totals, t.category ≠ r.category) :
    lineFor isOvertime r totals = .zero r.category (isOvertime r.category) := by
  have hnone : totals.find? (·.category = r.category) = none := by
    rw [List.find?_eq_none]
    intro t ht
    simpa using h t ht
  rw [lineFor, hnone, Option.getD_none]

/-- Counting a record touches the line of its category and no other. -/
theorem mem_tallyRecord {isOvertime : String → Bool} {r : Record} {totals : List CategoryTotals}
    (hsorted : totals.Pairwise (·.category < ·.category)) (t : CategoryTotals) :
    t ∈ tallyRecord isOvertime r totals ↔
      t = (lineFor isOvertime r totals).add r ∨ (t ∈ totals ∧ t.category ≠ r.category) := by
  induction totals with
  | nil => simp [tallyRecord, lineFor]
  | cons u us ih =>
    obtain ⟨hu, hus⟩ := List.pairwise_cons.mp hsorted
    rw [tallyRecord]
    split
    · next heq =>
      have hline : lineFor isOvertime r (u :: us) = u := by simp [lineFor, heq]
      have hother : ∀ v ∈ us, v.category ≠ r.category := fun v hv => heq ▸ (hu v hv).ne'
      rw [hline, List.mem_cons, List.mem_cons]
      constructor
      · rintro (rfl | hv)
        · exact Or.inl rfl
        · exact Or.inr ⟨Or.inr hv, hother t hv⟩
      · rintro (rfl | ⟨rfl | hv, hne⟩)
        · exact Or.inl rfl
        · exact absurd heq.symm hne
        · exact Or.inr hv
    · next hne =>
      split
      · next hlt =>
        have hother : ∀ v ∈ u :: us, v.category ≠ r.category := by
          intro v hv
          rcases List.mem_cons.mp hv with rfl | hv
          · exact hlt.ne'
          · exact (hlt.trans (hu v hv)).ne'
        rw [lineFor_of_not_mem hother, List.mem_cons]
        exact or_congr_right ⟨fun hv => ⟨hv, hother t hv⟩, And.left⟩
      · next hlt =>
        have hline : lineFor isOvertime r (u :: us) = lineFor isOvertime r us := by
          simp [lineFor, Ne.symm hne]
        rw [hline, List.mem_cons, List.mem_cons, ih hus]
        constructor
        · rintro (rfl | rfl | ⟨hv, hvr⟩)
          · exact Or.inr ⟨Or.inl rfl, Ne.symm hne⟩
          · exact Or.inl rfl
          · exact Or.inr ⟨Or.inr hv, hvr⟩
        · rintro (rfl | ⟨rfl | hv, hvr⟩)
          · exact Or.inr (Or.inl rfl)
          · exact Or.inl rfl
          · exact Or.inr (Or.inr ⟨hv, hvr⟩)

/-- Counting a record keeps the lines sorted. -/
theorem pairwise_tallyRecord {isOvertime : String → Bool} {r : Record}
    {totals : List CategoryTotals} (hsorted : totals.Pairwise (·.category < ·.category)) :
    (tallyRecord isOvertime r totals).Pairwise (·.category < ·.category) := by
  induction totals with
  | nil => exact List.pairwise_singleton ..
  | cons u us ih =>
    obtain ⟨hu, hus⟩ := List.pairwise_cons.mp hsorted
    rw [tallyRecord]
    split
    · exact List.pairwise_cons.mpr ⟨fun v hv => by simpa using hu v hv, hus⟩
    · next hne =>
      split
      · next hlt =>
        refine hsorted.cons fun v hv => ?_
        rw [CategoryTotals.category_add, CategoryTotals.category_zero]
        rcases List.mem_cons.mp hv with rfl | hv
        · exact hlt
        · exact hlt.trans (hu v hv)
      · next hlt =>
        have hur : u.category < r.category := lt_of_le_of_ne (not_lt.mp hlt) (Ne.symm hne)
        refine (ih hus).cons fun v hv => ?_
        rcases (mem_tallyRecord hus v).mp hv with rfl | ⟨hv, _⟩
        · rwa [CategoryTotals.category_add, category_lineFor]
        · exact hu v hv

/-! ## §4 Counting them all -/

/-- One more record of a category is added to its line. -/
theorem CategoryTotals.ofRecords_append_self (isOvertime : String → Bool) (records : List Record)
    (r : Record) :
    ofRecords isOvertime r.category (records ++ [r]) =
      (ofRecords isOvertime r.category records).add r := by
  cases hp : r.pending <;>
    simp [ofRecords, CategoryTotals.add, List.filter_append, hp, Total.ofRecords_append_self]

/-- A record of another category does not change a line. -/
theorem CategoryTotals.ofRecords_append_other (isOvertime : String → Bool) {category : String}
    (records : List Record) {r : Record} (h : r.category ≠ category) :
    ofRecords isOvertime category (records ++ [r]) = ofRecords isOvertime category records := by
  cases hp : r.pending <;>
    simp [ofRecords, List.filter_append, hp, Total.ofRecords_append_other _ _ h]

theorem CategoryTotals.ofRecords_of_not_mem {isOvertime : String → Bool} {category : String}
    {records : List Record} (h : ∀ r ∈ records, r.category ≠ category) :
    ofRecords isOvertime category records = zero category (isOvertime category) := by
  have hnone : ∀ p : Record → Bool, ∀ r ∈ records.filter p, r.category ≠ category :=
    fun p r hr => h r (List.mem_filter.mp hr).1
  rw [ofRecords, Total.ofRecords_of_not_mem (hnone _), Total.ofRecords_of_not_mem (hnone _)]
  rfl

/-- In a tally the line of a category is there, or no record has the category. -/
theorem IsTally.lineFor_eq {isOvertime : String → Bool} {records : List Record}
    {totals : List CategoryTotals} (h : IsTally isOvertime records totals) (r : Record) :
    lineFor isOvertime r totals = .ofRecords isOvertime r.category records := by
  by_cases hmem : ∃ t ∈ totals, t.category = r.category
  · unfold lineFor
    cases hfind : totals.find? (·.category = r.category) with
    | none =>
      obtain ⟨t, ht, htr⟩ := hmem
      exact absurd (by simpa using htr) (List.find?_eq_none.mp hfind t ht)
    | some t =>
      have htr : t.category = r.category := by simpa using List.find?_some hfind
      rw [Option.getD_some, h.sums t (List.mem_of_find?_eq_some hfind), htr]
  · have hnone : ∀ x ∈ records, x.category ≠ r.category := fun x hx hxr =>
      hmem ((h.occurs r.category).mpr ⟨x, hx, hxr⟩)
    rw [lineFor_of_not_mem fun t ht htr => hmem ⟨t, ht, htr⟩,
      CategoryTotals.ofRecords_of_not_mem hnone]

/-- Counting one more record. -/
theorem IsTally.tallyRecord {isOvertime : String → Bool} {records : List Record}
    {totals : List CategoryTotals} (h : IsTally isOvertime records totals) (r : Record) :
    IsTally isOvertime (records ++ [r]) (tallyRecord isOvertime r totals) := by
  have hmem : ∀ t, t ∈ Daybook.tallyRecord isOvertime r totals ↔
      t = (lineFor isOvertime r totals).add r ∨ (t ∈ totals ∧ t.category ≠ r.category) :=
    mem_tallyRecord h.sorted
  refine ⟨pairwise_tallyRecord h.sorted, fun category => ?_, fun t ht => ?_⟩
  · constructor
    · rintro ⟨t, ht, rfl⟩
      rcases (hmem t).mp ht with rfl | ⟨ht, _⟩
      · exact ⟨r, by simp, by rw [CategoryTotals.category_add, category_lineFor]⟩
      · obtain ⟨x, hx, hxt⟩ := (h.occurs t.category).mp ⟨t, ht, rfl⟩
        exact ⟨x, by simp [hx], hxt⟩
    · rintro ⟨x, hx, rfl⟩
      by_cases hxr : x.category = r.category
      · refine ⟨(lineFor isOvertime r totals).add r, (hmem _).mpr (Or.inl rfl), ?_⟩
        rw [CategoryTotals.category_add, category_lineFor, hxr]
      · have hx : x ∈ records := by
          rcases List.mem_append.mp hx with hx | hx
          · exact hx
          · exact absurd (by rw [List.mem_singleton.mp hx]) hxr
        obtain ⟨t, ht, htx⟩ := (h.occurs x.category).mpr ⟨x, hx, rfl⟩
        exact ⟨t, (hmem t).mpr (Or.inr ⟨ht, htx ▸ hxr⟩), htx⟩
  · rcases (hmem t).mp ht with rfl | ⟨ht, htr⟩
    · rw [CategoryTotals.category_add, category_lineFor, h.lineFor_eq,
        CategoryTotals.ofRecords_append_self]
    · rw [CategoryTotals.ofRecords_append_other _ _ (Ne.symm htr)]
      exact h.sums t ht

/-- Nothing is tallied of no records. -/
theorem isTally_nil (isOvertime : String → Bool) : IsTally isOvertime [] [] :=
  ⟨List.Pairwise.nil, by simp, by simp⟩

/-- **The tally of records** has one line for every category that occurs, in the order of code
points, with the capped sums of its records. -/
theorem isTally_tally (isOvertime : String → Bool) (records : List Record) :
    IsTally isOvertime records (tally isOvertime records) := by
  suffices h : ∀ (todo done : List Record) (totals : List CategoryTotals),
      IsTally isOvertime done totals →
        IsTally isOvertime (done ++ todo)
          (todo.foldl (fun totals r => Daybook.tallyRecord isOvertime r totals) totals) by
    simpa [tally] using h records [] [] (isTally_nil isOvertime)
  intro todo
  induction todo with
  | nil =>
    intro done totals h
    simpa using h
  | cons r todo ih =>
    intro done totals h
    rw [List.foldl_cons, List.append_cons]
    exact ih _ _ (h.tallyRecord r)

/-! ## §5 Fewer records -/

/-- A total that is nowhere beyond another. -/
structure Total.AtMost (a b : Total) : Prop where
  hours : a.hours ≤ b.hours
  minutes : a.minutes ≤ b.minutes
  /-- What the two amount to compares as they do. -/
  totalMinutes : a.totalMinutes ≤ b.totalMinutes

theorem Total.atMost_of_le {a b : Total} (hours : a.hours ≤ b.hours)
    (minutes : a.minutes ≤ b.minutes) : a.AtMost b where
  hours := hours
  minutes := minutes
  totalMinutes := Counter.cap_le_cap
    (Nat.add_le_add (Counter.cap_le_cap (Nat.mul_le_mul_right 60 hours)) minutes)

/-- Leaving records out makes no total larger, caps included. -/
theorem Total.ofRecords_atMost (isOvertime : String → Bool) (category : String)
    {fewer records : List Record} (h : fewer.Sublist records) :
    (ofRecords isOvertime category fewer).AtMost (ofRecords isOvertime category records) := by
  have hsum : ∀ part : Record → Nat,
      ((fewer.filter (·.category = category)).map part).sum ≤
        ((records.filter (·.category = category)).map part).sum := fun part =>
    ((h.filter _).map part).sum_le_sum fun _ _ => Nat.zero_le _
  exact atMost_of_le (Counter.cap_le_cap (hsum _)) (Counter.cap_le_cap (hsum _))

/-- What occurs in some of the records occurs in all of them. -/
theorem IsTally.exists_category {isOvertime : String → Bool} {fewer records : List Record}
    {ts us : List CategoryTotals} (hts : IsTally isOvertime fewer ts)
    (hus : IsTally isOvertime records us) (h : fewer.Sublist records) {t : CategoryTotals}
    (ht : t ∈ ts) : ∃ u ∈ us, u.category = t.category := by
  obtain ⟨r, hr, hrt⟩ := (hts.occurs t.category).mp ⟨t, ht, rfl⟩
  exact (hus.occurs t.category).mpr ⟨r, h.subset hr, hrt⟩

/-- Each category of a tally is one of another, with dirty and committed totals at least as large. -/
def AtMostByCategory (ts us : List CategoryTotals) : Prop :=
  ∀ t ∈ ts, ∃ u ∈ us, u.category = t.category ∧ t.dirty.AtMost u.dirty ∧
    t.committed.AtMost u.committed

/-- **A tally of fewer records** is nowhere beyond the tally of all of them. -/
theorem IsTally.atMostByCategory {isOvertime : String → Bool} {fewer records : List Record}
    {ts us : List CategoryTotals} (hts : IsTally isOvertime fewer ts)
    (hus : IsTally isOvertime records us) (h : fewer.Sublist records) :
    AtMostByCategory ts us := by
  intro t ht
  obtain ⟨u, hu, hut⟩ := hts.exists_category hus h ht
  have hdirty := Total.ofRecords_atMost isOvertime t.category (h.filter (·.pending))
  have hcommitted := Total.ofRecords_atMost isOvertime t.category (h.filter (!·.pending))
  have htsum := hts.sums t ht
  have husum := hus.sums u hu
  rw [hut] at husum
  refine ⟨u, hu, hut, ?_, ?_⟩
  · rw [htsum, husum]
    exact hdirty
  · rw [htsum, husum]
    exact hcommitted

end Daybook
