/-
Daybook.Proofs.RecordableCategories — which categories a line can record.

Rules are refused when a category of theirs is empty or has a space, since no
line could begin with it (§1). A line is trimmed before it is read, though, and
trimming drops all white space, not only spaces. So a line of a category and a
duration is an entry of just that category and that time (§2), unless the
category begins with white space; and then no other line records it either
(§3). Main statement: `recorded_iff_not_beginsBlank`.
-/
import Daybook.Proofs.DayText
import Daybook.Proofs.DurationGrammar

namespace Daybook

/-! ## §1 Rules that make sense -/

namespace Rules

/-- The check lets through every name that is not empty and has no space. -/
theorem badCategory?_eq_none_iff {category : String} :
    badCategory? category = none ↔ category ≠ "" ∧ ' ' ∉ category.toList := by
  unfold badCategory?
  by_cases hempty : category = ""
  · simp [hempty]
  · by_cases hspace : ' ' ∈ category.toList <;> simp [hempty, hspace]

/-- Rules make sense if no category is empty or has a space. -/
theorem flaw?_eq_none_iff {r : Rules} :
    r.flaw? = none ↔ ∀ category ∈ r.categories, category ≠ "" ∧ ' ' ∉ category.toList := by
  simp only [flaw?, List.findSome?_eq_none_iff, badCategory?_eq_none_iff]

theorem isCategory_of_mem {r : Rules} {category : String} (h : category ∈ r.categories) :
    r.classifier.isCategory category = true := by
  simpa [classifier, categories] using h

end Rules

/-! ## §2 A category and a duration -/

/-- Whether a text begins with white space. -/
def Text.BeginsBlank (s : String) : Prop := ∃ c ∈ s.toList.head?, isBlank c = true

instance (s : String) : Decidable (Text.BeginsBlank s) :=
  decidable_of_iff (s.toList.head?.any Text.isBlank = true) (Option.any_eq_true _ _)

namespace WorkTime

theorem Written.ne_nil {cs : List Char} {t : WorkTime} (h : Written cs t) : cs ≠ [] := by
  cases h with
  | whole h _ => exact h.nonempty
  | _ => simp

/-- A written time is made of digits, a dot and units. -/
theorem Written.isDigit_or_mem {cs : List Char} {t : WorkTime} (h : Written cs t) {c : Char}
    (hc : c ∈ cs) : c.isDigit = true ∨ c ∈ ['.', 'h', 'm'] := by
  have hdigit : ∀ {ds : List Char}, Text.IsNumeral ds → c ∈ ds → c.isDigit = true :=
    fun hds hmem => List.all_eq_true.mp hds.digits c hmem
  cases h <;> grind

theorem Written.isBlank_of_mem {cs : List Char} {t : WorkTime} (h : Written cs t) {c : Char}
    (hc : c ∈ cs) : Text.isBlank c = false := by
  rcases h.isDigit_or_mem hc with hdigit | hmark
  · exact Text.isBlank_of_isDigit hdigit
  · simp only [List.mem_cons, List.not_mem_nil, or_false] at hmark
    rcases hmark with rfl | rfl | rfl <;> decide

end WorkTime

namespace Line.Grammar

/-- A line of one word and a written time has nothing else. -/
theorem entry_word_time (c : Classifier) {word ds : List Char} {t : WorkTime} (hne : word ≠ [])
    (hspace : ' ' ∉ word) (hfirst : ∀ x ∈ word.head?, Text.isBlank x = false)
    (hwritten : WorkTime.Written ds t) (hcategory : c.isCategory (String.ofList word) = true) :
    entry c (word ++ ' ' :: ds) = .ok
      { category := String.ofList word, hours := t.hours, minutes := t.minutes
        task := none, comment := "" } := by
  have hds : ∀ x ∈ ds, Text.isBlank x = false := fun x hx => hwritten.isBlank_of_mem hx
  have hnospace : ' ' ∉ ds := fun hmem => by simpa using hds ' ' hmem
  have htrim : Text.trim (word ++ ' ' :: ds) = word ++ ' ' :: ds := by
    refine Text.trim_eq_self (fun x hx => hfirst x ?_) fun x hx => hds x ?_
    · rwa [List.head?_append_of_ne_nil _ hne] at hx
    · have hlast : (' ' :: ds).getLast? = ds.getLast? :=
        List.getLast?_cons_of_ne_nil hwritten.ne_nil
      rw [List.getLast?_append_of_ne_nil _ (List.cons_ne_nil _ _), hlast] at hx
      exact List.mem_of_getLast? hx
  have hword : ∀ x ∈ word, decide (x ≠ ' ') = true := fun x hx => by
    simpa using fun heq : x = ' ' => hspace (heq ▸ hx)
  have hends : ∀ x ∈ (' ' :: ds).head?, decide (x ≠ ' ') = false := by simp
  have hcolumn : column (word ++ ' ' :: ds) = word := Text.takeWhile_exact hword hends
  have hbehind : behind (word ++ ' ' :: ds) = ds := by
    rw [behind, Text.dropWhile_exact hword hends, List.dropWhile_cons_of_pos (by simp)]
    refine List.dropWhile_eq_self_iff.mpr fun hlength => ?_
    simpa using fun heq : ds[0] = ' ' => hnospace (heq ▸ List.getElem_mem hlength)
  have htime : WorkTime.ofTokens? (Token.tokenize (String.ofList ds)) = some t := by
    rw [Token.tokenize, String.toList_ofList]
    exact WorkTime.ofTokens?_of_written hwritten
  simp only [entry, htrim, hcolumn, hbehind, column_eq_self hnospace, behind_eq_nil hnospace,
    hcategory, htime]
  simp [entryOf, BeginsWithTask, candidate]
  rfl

end Line.Grammar

/-! ## §3 The main statement -/

/-- The category of an entry that is read does not begin with white space. -/
theorem Line.Reader.not_beginsBlank_of_read {r : Line.Reader} {line : String} {e : Entry}
    (h : r.read line = .ok (.entry e)) : ¬ Text.BeginsBlank e.category := by
  obtain ⟨_, _, t, _, rfl⟩ := Line.Grammar.entry_eq_ok (Line.grammar_entry_of_read h)
  rw [Line.Grammar.entryOf_category]
  rintro ⟨x, hx, hblank⟩
  rw [String.toList_ofList, Line.Grammar.column, List.head?_takeWhile] at hx
  have hhead : x ∈ (Text.trim line.toList).head? := (Option.mem_filter_iff.mp hx).1
  rw [Text.isBlank_of_mem_head?_trim hhead] at hblank
  cases hblank

/-- **Rules that make sense may have a category that no line records.** A line of a category and a
duration, with a space in between, is read on a workday as an entry of just that category and that
time, with no task and no comment, exactly when the category does not begin with white space. An
entry of a category that does is read from no line at all, on no day. -/
theorem recorded_iff_not_beginsBlank {r : Rules} (hrules : r.flaw? = none) {category : String}
    (hcategory : category ∈ r.categories) {d : Day} (hday : r.isHoliday d = false)
    {duration : String} {t : WorkTime}
    (hduration : WorkTime.ofTokens? (Token.tokenize duration) = some t) :
    (Line.Reader.read ⟨r.classifier, d⟩ (category ++ " " ++ duration) = .ok (.entry
        { category, hours := t.hours, minutes := t.minutes, task := none, comment := "" }) ↔
      ¬ Text.BeginsBlank category) ∧
    (Text.BeginsBlank category → ∀ (other : Day) (line : String) (e : Entry),
      Line.Reader.read ⟨r.classifier, other⟩ line = .ok (.entry e) → e.category ≠ category) := by
  refine ⟨⟨fun h => Line.Reader.not_beginsBlank_of_read h, fun hfirst => ?_⟩, ?_⟩
  · obtain ⟨hempty, hspace⟩ := Rules.flaw?_eq_none_iff.mp hrules category hcategory
    have hne : category.toList ≠ [] := by simpa using hempty
    have hnotBlank : ∀ x ∈ category.toList.head?, Text.isBlank x = false := fun x hx =>
      Bool.eq_false_iff.mpr fun hblank => hfirst ⟨x, hx, hblank⟩
    have hentry := Line.Grammar.entry_word_time r.classifier hne hspace hnotBlank
      (WorkTime.written_of_ofTokens? hduration)
      (by rw [String.ofList_toList]; exact Rules.isCategory_of_mem hcategory)
    have hline : (category ++ " " ++ duration).toList =
        category.toList ++ ' ' :: duration.toList := by simp
    rw [Line.read_eq_grammar_entry ⟨r.classifier, d⟩ hday, hline, hentry, String.ofList_toList]
    rfl
  · rintro hblank other line e hread rfl
    exact Line.Reader.not_beginsBlank_of_read hread hblank

/-- A category with digits, dots and white space inside and at its end. -/
theorem recorded_iff_not_beginsBlank_trailing :
    let r : Rules := { regular := ["dev"], overtime := ["1.5\u00a0v..\t"] }
    let d : Day := ⟨2022, 2, 2, by decide⟩
    r.flaw? = none ∧ "1.5\u00a0v..\t" ∈ r.categories ∧ r.isHoliday d = false ∧
    WorkTime.ofTokens? (Token.tokenize "007.25") = some ⟨7, 15⟩ ∧
    Line.Reader.read ⟨r.classifier, d⟩ ("1.5\u00a0v..\t" ++ " " ++ "007.25") = .ok (.entry
      { category := "1.5\u00a0v..\t", hours := 7, minutes := 15
        task := none, comment := "" }) := by
  intro r d
  have hrules : r.flaw? = none := rfl
  have hcategory : "1.5\u00a0v..\t" ∈ r.categories := by simp [r, Rules.categories]
  have hday : r.isHoliday d = false := rfl
  have hduration : WorkTime.ofTokens? (Token.tokenize "007.25") = some ⟨7, 15⟩ := rfl
  have hrecorded := (recorded_iff_not_beginsBlank hrules hcategory hday hduration).1
  exact ⟨hrules, hcategory, hday, hduration, hrecorded.mpr (by decide)⟩

/-- The tab at the beginning of a category is trimmed off the line, and what is left is no category,
though the rules make sense. -/
theorem not_recorded_beginningWithTab :
    let r : Rules := { regular := ["\tdev"] }
    let d : Day := ⟨2022, 2, 2, by decide⟩
    r.flaw? = none ∧ "\tdev" ∈ r.categories ∧ r.isHoliday d = false ∧
    WorkTime.ofTokens? (Token.tokenize "1") = some ⟨1, 0⟩ ∧
    Line.Reader.read ⟨r.classifier, d⟩ ("\tdev" ++ " " ++ "1") = .error .invalidCategory ∧
    Line.Reader.read ⟨r.classifier, d⟩ ("\tdev" ++ " " ++ "1") ≠ .ok (.entry
      { category := "\tdev", hours := 1, minutes := 0, task := none, comment := "" }) :=
  ⟨rfl, by decide, rfl, rfl, rfl, by decide⟩

end Daybook
