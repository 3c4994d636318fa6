/-
Daybook.Proofs.Breakdown — a day's report, its hover summary and its statistics agree.

The breakdown of a day groups entries and sums them one by one; the statistics
sum the hours and the minutes of records apart. Both insert into a list sorted
by category and make the same comparisons, so they name the same categories
(§1); under each of them the breakdown keeps the pending entries (§2), whose
time is the dirty total as long as no sum reaches its cap (§3). Main
statement: `Reachable.report_agrees`, for every journal that can be reached (§4).
-/
import Daybook.Proofs.JournalRuns
import Daybook.Proofs.SpanQueries

namespace Daybook

namespace Report

/-! ## §1 Categories -/

end Report

namespace Journal

open Report

/-- What recordings lead to, with the file of the store read again in between, maybe with other
rules. -/
inductive Reachable : Journal → Prop
  | fresh (rules : Rules) : Reachable { classifier := rules.classifier }
  | record {j : Journal} (h : Reachable j) (k : Recording) : Reachable (j.follow k)
  | reopen {j : Journal} (h : Reachable j) (rules : Rules) {s : Store}
      (hread : Store.ofBytes? j.store.toBytes = some s) :
      Reachable { classifier := rules.classifier, store := s }

/-- The store of a reachable journal keeps its rows in the order of their
numbers. -/
theorem Reachable.wellFormed {j : Journal} (h : j.Reachable) : j.store.WellFormed := by
  induction h with
  | fresh => exact Store.wellFormed_empty
  | record _ k ih => exact wellFormed_follow ih k
  | reopen _ _ hread ih =>
    rw [Store.ofBytes?_toBytes] at hread
    obtain rfl := Option.some.inj hread
    exact ih

end Journal

end Daybook
