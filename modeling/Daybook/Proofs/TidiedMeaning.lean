/-
Daybook.Proofs.TidiedMeaning — tidying a text keeps what it records.

A line is read without the white space at its ends, so stripping it changes
neither its item nor its problem; only a holiday, which quotes the line as it
stands, loses the spaces at the end of its description (§1). The newline that
tidying adds ends the last line, and the empty line behind it does not count;
so the lines that count are the same lines, stripped (§2). Main statement:
`analyze_applyAll_tidy`.
-/
import Daybook.Analysis
import Daybook.Proofs.Tidying

namespace Daybook.Edit

/-! ## §1 Stripped lines -/

/-- A line as tidying leaves it. -/
def stripped (line : String) : String := String.ofList (stripSpaces line.toList)

/-- The item of a line, and that of the stripped line: the same on a workday, while a holiday loses
the spaces at the end of its description. -/
inductive KeepsItem : Bool → Item → Item → Prop
  | workday (item : Item) : KeepsItem false item item
  | holiday (date : Day) {description shorter : String}
      (h : Strips description.toList shorter.toList) :
      KeepsItem true (.holiday ⟨date, description⟩) (.holiday ⟨date, shorter⟩)

theorem eq_of_keepsItem_workday {before after : Item} (h : KeepsItem false before after) :
    after = before := by
  cases h
  rfl

/-- A problem that stays at its line, which may have become shorter. -/
structure KeepsProblem (before after : LineProblem) : Prop where
  line : after.line = before.line
  problem : after.problem = before.problem
  length : after.length ≤ before.length

theorem KeepsProblem.of_le {number long short : Nat} {p : Problem} (h : short ≤ long) :
    KeepsProblem ⟨number, long, p⟩ ⟨number, short, p⟩ := ⟨rfl, rfl, h⟩

/-- What a line yields, and what the stripped line does. -/
inductive KeepsOutcome (isHoliday : Bool) :
    Except LineProblem Item → Except LineProblem Item → Prop
  | ok {before after : Item} (h : KeepsItem isHoliday before after) :
      KeepsOutcome isHoliday (.ok before) (.ok after)
  | error {before after : LineProblem} (h : KeepsProblem before after) :
      KeepsOutcome isHoliday (.error before) (.error after)

theorem strips_stripped (line : String) : Strips line.toList (stripped line).toList := by
  rw [stripped, String.toList_ofList]
  exact strips_stripSpaces line.toList

theorem trimmed_stripped (line : String) : Text.trimmed (stripped line) = Text.trimmed line := by
  obtain ⟨n, hline⟩ := (strips_stripped line).spaces
  have hblank : ∀ c ∈ List.replicate n ' ', Text.isBlank c = true := fun c hc => by
    rw [List.eq_of_mem_replicate hc]
    exact Text.isBlank_space
  rw [Text.trimmed, Text.trimmed, hline, Text.trim_append_blank _ hblank]

theorem size_stripped_le (line : String) :
    Text.Utf8.size (stripped line).toList ≤ Text.Utf8.size line.toList := by
  rw [stripped, String.toList_ofList]
  exact measure_stripSpaces_le _ line.toList

/-- On a workday a stripped line reads as the line does. -/
theorem readValid_stripped_of_workday {r : Line.Reader} (workday : r.isHoliday = false)
    (line : String) : r.readValid (stripped line) = r.readValid line :=
  Line.Reader.readValid_congr_of_workday workday (trimmed_stripped line)

/-- On a holiday every line that is not blank is an item, and quoted as it stands. -/
theorem readValid_of_holiday {r : Line.Reader} (holiday : r.isHoliday = true) (line : String) :
    r.readValid line =
      if (Text.trimmed line).isEmpty then .error .emptyLine
      else .ok (.holiday { date := r.day, description := line }) := by
  unfold Line.Reader.readValid Line.Reader.read
  simp only [holiday, if_true]
  split <;> rfl

theorem keepsOutcome_stripped (r : Line.Reader) (line : String) (number : Nat) :
    KeepsOutcome r.isHoliday (lineOutcome r line number)
      (lineOutcome r (stripped line) number) := by
  have hproblem : ∀ p, KeepsProblem ⟨number, Text.Utf8.size line.toList, p⟩
      ⟨number, Text.Utf8.size (stripped line).toList, p⟩ := fun _ =>
    .of_le (size_stripped_le line)
  unfold lineOutcome
  cases hday : r.isHoliday with
  | false =>
    rw [readValid_stripped_of_workday hday]
    cases r.readValid line with
    | error p => exact .error (hproblem p)
    | ok item => exact .ok (.workday item)
  | true =>
    rw [readValid_of_holiday hday, readValid_of_holiday hday, trimmed_stripped]
    split
    · exact .error (hproblem .emptyLine)
    · exact .ok (.holiday r.day (strips_stripped line))

/-! ## §2 Tidied texts -/

/-- The lines of a tidied text are those of the text, stripped. -/
theorem countedLines_applyAll_tidy {text : String} (h : FitsCounts text) :
    countedLines (applyAll (tidy text) text) = (countedLines text).map stripped := by
  have hlines : (Text.pieces '\n' text.toList).map (String.ofList ∘ stripSpaces) =
      (Text.linesOf text).map stripped := by
    simp [Text.linesOf, Function.comp_def, stripped]
  have hlast : (Text.linesOf text).getLast? = some "" ↔
      (Text.pieces '\n' text.toList).getLast? = some [] := by
    simp [Text.linesOf, List.getLast?_map]
  have hafter : Text.linesOf (applyAll (tidy text) text) = (Text.linesOf text).map stripped ++
      if (Text.linesOf text).getLast? = some "" then [] else [""] := by
    rw [Text.linesOf, pieces_applyAll_tidy h, tidiedLines, List.map_append, List.map_map, hlines]
    by_cases hfinished : (Text.linesOf text).getLast? = some ""
    · rw [if_pos hfinished, if_pos (hlast.mp hfinished)]
      rfl
    · rw [if_neg hfinished, if_neg (mt hlast.mpr hfinished)]
      rfl
  unfold countedLines
  simp only [hafter]
  by_cases hfinished : (Text.linesOf text).getLast? = some ""
  · have hstripped : stripped "" = "" := by simp [stripped, stripSpaces]
    simp [hfinished, List.getLast?_map, hstripped, List.map_dropLast]
  · simp [hfinished]

theorem keepsOutcomes (r : Line.Reader) {text : String} (h : FitsCounts text) :
    List.Forall₂ (KeepsOutcome r.isHoliday) (lineOutcomes r text)
      (lineOutcomes r (applyAll (tidy text) text)) := by
  simp only [lineOutcomes, countedLines_applyAll_tidy h, List.zipIdx_map, List.map_map,
    List.forall₂_map_left_iff, List.forall₂_map_right_iff, List.forall₂_same, Function.comp_apply]
  rintro ⟨line, number⟩ _
  exact keepsOutcome_stripped r line number

/-- Tidying keeps the items, but for spaces at the end of what describes a
holiday. -/
theorem keepsItems (r : Line.Reader) {text : String} (h : FitsCounts text) :
    List.Forall₂ (KeepsItem r.isHoliday) (analyze r text).items
      (analyze r (applyAll (tidy text) text)).items := by
  have hitem : ∀ ⦃outcome outcome'⦄, KeepsOutcome r.isHoliday outcome outcome' →
      Option.Rel (KeepsItem r.isHoliday) outcome.toOption outcome'.toOption := by
    rintro _ _ (hitem | _)
    · exact .some hitem
    · exact .none
  rw [items_analyze, items_analyze]
  exact List.rel_filterMap hitem (keepsOutcomes r h)

/-- Tidying keeps the problems and their lines; lines get no longer. -/
theorem keepsProblems (r : Line.Reader) {text : String} (h : FitsCounts text) :
    List.Forall₂ KeepsProblem (analyze r text).problems
      (analyze r (applyAll (tidy text) text)).problems := by
  have hproblem : ∀ ⦃outcome outcome'⦄, KeepsOutcome r.isHoliday outcome outcome' →
      Option.Rel KeepsProblem (problem? outcome) (problem? outcome') := by
    rintro _ _ (_ | hproblem)
    · exact .none
    · exact .some hproblem
  rw [problems_analyze, problems_analyze]
  exact List.rel_filterMap hproblem (keepsOutcomes r h)

/-- **Tidying keeps the meaning of a text.** On a workday the tidied text yields the same items; on
a holiday it yields as many, their descriptions without the spaces at their ends. The problems are
the same problems of the same lines. -/
theorem analyze_applyAll_tidy (r : Line.Reader) (text : String) (h : FitsCounts text) :
    let before := analyze r text
    let after := analyze r (applyAll (tidy text) text)
    (r.isHoliday = false → after.items = before.items) ∧
    (r.isHoliday = true → List.Forall₂ (KeepsItem true) before.items after.items) ∧
    List.Forall₂ KeepsProblem before.problems after.problems := by
  have hitems := keepsItems r h
  have hproblems := keepsProblems r h
  dsimp only
  refine ⟨fun hday => ?_, fun hday => ?_, hproblems⟩
  · rw [hday] at hitems
    have heq : List.Forall₂ Eq _ _ := hitems.imp fun _ _ h => (eq_of_keepsItem_workday h).symm
    rw [List.forall₂_eq_eq_eq] at heq
    exact heq.symm
  · rwa [hday] at hitems

/-- An entry, a line that is none and a last line of spaces, on a workday and on a holiday. -/
theorem analyze_applyAll_tidy_of_trailing :
    let c := ({ regular := ["dev"], single := ["2022-02-03"] } : Rules).classifier
    let workday : Line.Reader := ⟨c, ⟨2022, 2, 2, by decide⟩⟩
    let dayOff : Day := ⟨2022, 2, 3, by decide⟩
    let holiday : Line.Reader := ⟨c, dayOff⟩
    let text := "dev 1 x  \nnope \n  "
    let tidied := applyAll (tidy text) text
    FitsCounts text ∧ workday.isHoliday = false ∧ holiday.isHoliday = true ∧
    ((analyze workday text).items = [.entry ⟨"dev", 1, 0, none, "x"⟩] ∧
      (analyze workday text).problems = [⟨1, 5, .invalidCategory⟩, ⟨2, 2, .emptyLine⟩] ∧
      (analyze workday tidied).items = (analyze workday text).items ∧
      List.Forall₂ KeepsProblem (analyze workday text).problems
        (analyze workday tidied).problems) ∧
    (analyze holiday text).items = [.holiday ⟨dayOff, "dev 1 x  "⟩, .holiday ⟨dayOff, "nope "⟩] ∧
      (analyze holiday text).problems = [⟨2, 2, .emptyLine⟩] ∧
      List.Forall₂ (KeepsItem true) (analyze holiday text).items (analyze holiday tidied).items ∧
      List.Forall₂ KeepsProblem (analyze holiday text).problems
        (analyze holiday tidied).problems := by
  intro c workday dayOff holiday text tidied
  have h : FitsCounts text := ⟨by decide, by decide⟩
  have hworkday : workday.isHoliday = false := by decide
  have hholiday : holiday.isHoliday = true := by decide
  obtain ⟨hsame, _, hproblems⟩ := analyze_applyAll_tidy workday text h
  obtain ⟨_, hstripped, hproblems'⟩ := analyze_applyAll_tidy holiday text h
  exact ⟨h, hworkday, hholiday, ⟨by decide, by decide, hsame hworkday, hproblems⟩, by decide,
    by decide, hstripped hholiday, hproblems'⟩

end Daybook.Edit
