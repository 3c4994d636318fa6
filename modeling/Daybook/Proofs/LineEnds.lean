/-
Daybook.Proofs.LineEnds — carriage returns at the ends of lines do not matter.

Lines are cut at newlines alone, so a text whose lines end in a carriage return
and a newline has the same lines with a carriage return behind each but the
last (§1). A carriage return is white space: reading a line and looking for its
words both begin by trimming it, and the last line, which counts unless it is
empty, is the same line (§2). Main statement: `analyze_returned`, for workdays;
on a holiday a line is quoted as it stands.
-/
import Daybook.Analysis
import Daybook.Highlight
import Daybook.Proofs.LineAccounts
import Daybook.Proofs.Trimming

namespace Daybook

/-! ## §1 The lines -/

namespace Text

/-- The characters of a text, with a carriage return before every newline. -/
def withReturns (cs : List Char) : List Char :=
  cs.flatMap fun c => if c = '\n' then ['\r', '\n'] else [c]

def returned (text : String) : String := String.ofList (withReturns text.toList)

def endReturned (line : String) : String := String.ofList (line.toList ++ ['\r'])

theorem withReturns_of_notMem {cs : List Char} (h : '\n' ∉ cs) : withReturns cs = cs := by
  induction cs with
  | nil => rfl
  | cons c cs ih =>
    obtain ⟨hc, hcs⟩ : '\n' ≠ c ∧ '\n' ∉ cs := by simpa using h
    rw [withReturns, List.flatMap_cons, if_neg (Ne.symm hc)]
    exact congrArg (c :: ·) (ih hcs)

/-- Each line but the last one is followed by a newline, and so by a carriage return. -/
theorem withReturns_glue {init : List (List Char)} {last : List Char}
    (hinit : ∀ p ∈ init, '\n' ∉ p) (hlast : '\n' ∉ last) :
    withReturns (glue '\n' (init ++ [last])) = glue '\n' (init.map (· ++ ['\r']) ++ [last]) := by
  induction init with
  | nil => exact withReturns_of_notMem hlast
  | cons p init ih =>
    have hp : withReturns p = p := withReturns_of_notMem (hinit p List.mem_cons_self)
    have hrest := ih fun q hq => hinit q (List.mem_cons_of_mem p hq)
    simp only [List.map_cons, List.cons_append]
    rw [glue_cons '\n' p (by simp), glue_cons '\n' (p ++ ['\r']) (by simp), ← hrest, withReturns,
      List.flatMap_append, List.flatMap_cons, if_pos rfl, List.append_assoc]
    exact congrArg (· ++ _) hp

/-- The lines of a text with carriage returns, beside its own lines. -/
theorem linesOf_returned (text : String) :
    ∃ init last, linesOf text = init ++ [last] ∧
      linesOf (returned text) = init.map endReturned ++ [last] := by
  obtain ⟨init, last, hpieces⟩ : ∃ init last, pieces '\n' text.toList = init ++ [last] :=
    ⟨_, _, (List.dropLast_concat_getLast (pieces_ne_nil '\n' text.toList)).symm⟩
  have hfree : ∀ p ∈ init ++ [last], '\n' ∉ p := fun p hp =>
    not_mem_of_mem_pieces (hpieces ▸ hp)
  have hinit : ∀ p ∈ init, '\n' ∉ p := fun p hp => hfree p (List.mem_append_left _ hp)
  have hlast : '\n' ∉ last := hfree last (by simp)
  have hreturned : pieces '\n' (withReturns text.toList) = init.map (· ++ ['\r']) ++ [last] := by
    rw [← glue_pieces '\n' text.toList, hpieces, withReturns_glue hinit hlast]
    refine pieces_glue (by simp) fun p hp => ?_
    rcases List.mem_append.mp hp with hp | hp
    · obtain ⟨q, hq, rfl⟩ := List.mem_map.mp hp
      simpa using hinit q hq
    · exact List.mem_singleton.mp hp ▸ hlast
  refine ⟨init.map String.ofList, String.ofList last, ?_, ?_⟩
  · rw [linesOf, hpieces, List.map_append, List.map_singleton]
  · rw [linesOf, returned, String.toList_ofList, hreturned, List.map_append, List.map_singleton,
      List.map_map, List.map_map]
    refine congrArg (· ++ _) (List.map_congr_left fun p _ => ?_)
    simp only [Function.comp_apply, endReturned, String.toList_ofList]

/-- Trimming takes a carriage return away. -/
theorem trimmed_endReturned (line : String) : trimmed (endReturned line) = trimmed line := by
  rw [trimmed, endReturned, String.toList_ofList, trim_append_blank _ (by simp), trimmed]

theorem size_endReturned (line : String) :
    Utf8.size (endReturned line).toList = Utf8.size line.toList + 1 := by
  rw [endReturned, String.toList_ofList, Utf8.size_append]
  rfl

/-- A numbered line among `n` lines, with a carriage return behind it unless it is the last one. -/
def endNumbered (n : Nat) (l : String × Nat) : String × Nat :=
  (if l.2 + 1 < n then endReturned l.1 else l.1, l.2)

theorem zipIdx_map_endReturned (init tail : List String) :
    (init.map endReturned ++ tail).zipIdx =
      (init ++ tail).zipIdx.map (endNumbered (init.length + 1)) := by
  have hfront : ∀ l ∈ init.zipIdx, (endReturned l.1, l.2) = endNumbered (init.length + 1) l := by
    intro l hl
    have := (List.mem_zipIdx hl).2.1
    rw [endNumbered, if_pos (by omega)]
  have hback : ∀ l ∈ tail.zipIdx init.length, l = endNumbered (init.length + 1) l := by
    intro l hl
    have := (List.mem_zipIdx hl).1
    rw [endNumbered, if_neg (by omega)]
  rw [List.zipIdx_append, List.zipIdx_append, List.map_append, List.length_map, Nat.zero_add,
    List.zipIdx_map]
  exact congr (congrArg _ (List.map_congr_left hfront))
    ((List.map_id _).symm.trans (List.map_congr_left hback))

end Text

/-! ## §2 What the lines yield -/

namespace Highlight

/-- White space behind a line moves none of its words. -/
theorem words_append_blank (line : List Char) {tail : List Char}
    (htail : ∀ c ∈ tail, Text.isBlank c = true) : words (line ++ tail) = words line := by
  have htrim := Text.trim_append_blank line htail
  by_cases hstart : Text.trimStart line = []
  · -- no words at all
    have hnone : Text.trim line = [] := by rw [Text.trim, hstart]; rfl
    simp only [words, htrim, hnone]
    rfl
  · have hkept : Text.trimStart (line ++ tail) = Text.trimStart line ++ tail := by
      simp only [Text.trimStart, List.dropWhile_append]
      exact if_neg (by simpa [Text.trimStart] using hstart)
    have hoffset : Text.Utf8.size (line ++ tail) - Text.Utf8.size (Text.trimStart (line ++ tail)) =
        Text.Utf8.size line - Text.Utf8.size (Text.trimStart line) := by
      rw [hkept, Text.Utf8.size_append, Text.Utf8.size_append]
      omega
    simp only [words, htrim, hoffset]

theorem markLine_endNumbered (number n : Nat) (l : String × Nat) :
    markLine number (Text.endNumbered n l).1 = markLine number l.1 := by
  rw [Text.endNumbered]
  split
  · rw [markLine, Text.endReturned, String.toList_ofList, words_append_blank _ (by simp), markLine]
  · rfl

end Highlight

/-- A problem of a line among `n` lines; a line that is not the last one has become longer by
its carriage return. -/
def LineProblem.endReturned (n : Nat) (p : LineProblem) : LineProblem :=
  if p.line + 1 < n then { p with length := p.length + 1 } else p

section

variable {r : Line.Reader} (workday : r.isHoliday = false)

include workday

/-- A carriage return does not change what a line is read as. -/
theorem readValid_endNumbered (n : Nat) (l : String × Nat) :
    r.readValid (Text.endNumbered n l).1 = r.readValid l.1 := by
  rw [Text.endNumbered]
  split
  · exact Line.Reader.readValid_congr_of_workday workday (Text.trimmed_endReturned l.1)
  · rfl

/-- A carriage return does not change whether a line records an entry. -/
theorem recordsEntry_endNumbered (n : Nat) (l : String × Nat) :
    Highlight.recordsEntry r (Text.endNumbered n l).1 = Highlight.recordsEntry r l.1 := by
  rw [Highlight.recordsEntry, readValid_endNumbered workday, Highlight.recordsEntry]

theorem itemOf?_endNumbered (n : Nat) (l : String × Nat) :
    itemOf? r (Text.endNumbered n l) = itemOf? r l := by
  rw [itemOf?, readValid_endNumbered workday, itemOf?]

/-- The problem of a line is the same with a carriage return, but for the length
of the line. -/
theorem problemOf?_endNumbered (n : Nat) (l : String × Nat) :
    problemOf? r (Text.endNumbered n l) = (problemOf? r l).map (.endReturned n) := by
  have hread := readValid_endNumbered workday n l
  rw [problemOf?, problemOf?, lineOutcome, lineOutcome, hread]
  cases r.readValid l.1 with
  | ok item => rfl
  | error p =>
    simp only [Except.mapError, problem?, Option.map_some, LineProblem.endReturned,
      Text.endNumbered]
    split
    · rw [Text.size_endReturned]
    · rfl

end

theorem countedLines_eq {text : String} {init : List String} {last : String}
    (h : Text.linesOf text = init ++ [last]) :
    countedLines text = init ++ if last = "" then [] else [last] := by
  simp only [countedLines, h, List.getLast?_append, List.getLast?_singleton, Option.some_or,
    Option.some.injEq]
  split
  · rw [List.dropLast_concat, List.append_nil]
  · rfl

/-- The lines that count are the same lines, but for their ends. -/
theorem numberedLines_returned (text : String) :
    numberedLines (Text.returned text) =
      (numberedLines text).map (Text.endNumbered (Text.linesOf text).length) := by
  obtain ⟨init, last, hlines, hreturned⟩ := Text.linesOf_returned text
  rw [numberedLines, numberedLines, countedLines_eq hreturned, countedLines_eq hlines, hlines,
    List.length_append, Text.zipIdx_map_endReturned]
  rfl

/-- **Line ends do not matter.** On a workday a text in which a carriage return stands before every
newline yields the same items, the same problems of the same lines — each line but the last is
longer by one — and the same marks. -/
theorem analyze_returned (r : Line.Reader) (workday : r.isHoliday = false) (text : String) :
    let before := analyze r text
    let after := analyze r (Text.returned text)
    after.items = before.items ∧
    after.problems.map (fun p => (p.line, p.problem)) =
      before.problems.map (fun p => (p.line, p.problem)) ∧
    after.problems = before.problems.map (.endReturned (Text.linesOf text).length) ∧
    Highlight.mark r (Text.linesOf (Text.returned text)) =
      Highlight.mark r (Text.linesOf text) := by
  intro before after
  have hitems : after.items = before.items := by
    rw [items_eq_filterMap, items_eq_filterMap, numberedLines_returned, List.filterMap_map]
    refine List.filterMap_congr fun l _ => ?_
    rw [Function.comp_apply, itemOf?_endNumbered workday]
  have hproblems : after.problems =
      before.problems.map (.endReturned (Text.linesOf text).length) := by
    rw [problems_eq_filterMap, problems_eq_filterMap, numberedLines_returned, List.filterMap_map,
      List.map_filterMap]
    refine List.filterMap_congr fun l _ => ?_
    rw [Function.comp_apply, problemOf?_endNumbered workday]
  refine ⟨hitems, ?pairs, hproblems, ?marks⟩
  case pairs =>
    rw [hproblems, List.map_map]
    refine List.map_congr_left fun p _ => ?_
    simp only [Function.comp_apply, LineProblem.endReturned]
    split <;> rfl
  case marks =>
    obtain ⟨init, last, hlines, hreturned⟩ := Text.linesOf_returned text
    rw [Highlight.mark, hreturned, Text.zipIdx_map_endReturned, ← hlines, List.flatMap_map,
      Highlight.mark]
    refine List.flatMap_congr fun l _ => ?_
    obtain ⟨line, number⟩ := l
    dsimp only
    rw [recordsEntry_endNumbered workday, Highlight.markLine_endNumbered]
    rfl

/-- Two entries, a line that is none and a blank line. -/
theorem analyze_returned_of_blank_line :
    let r : Line.Reader := ⟨({ regular := ["dev"] } : Rules).classifier, ⟨2022, 2, 2, by decide⟩⟩
    let text := "dev 1 x\nnope\n\ndev 2h0m y"
    let before := analyze r text
    let after := analyze r (Text.returned text)
    r.isHoliday = false ∧ Text.returned text = "dev 1 x\r\nnope\r\n\r\ndev 2h0m y" ∧
    before.items = [.entry ⟨"dev", 1, 0, none, "x"⟩, .entry ⟨"dev", 2, 0, none, "y"⟩] ∧
    before.problems = [⟨1, 4, .invalidCategory⟩, ⟨2, 0, .emptyLine⟩] ∧
    after.items = before.items ∧
    after.problems = [⟨1, 5, .invalidCategory⟩, ⟨2, 1, .emptyLine⟩] := by
  intro r text before after
  have workday : r.isHoliday = false := rfl
  obtain ⟨hitems, -, hproblems, -⟩ := analyze_returned r workday text
  have hbefore : before.problems = [⟨1, 4, .invalidCategory⟩, ⟨2, 0, .emptyLine⟩] := by decide
  have hlines : (Text.linesOf text).length = 4 := by decide
  refine ⟨workday, by decide, by decide, hbefore, hitems, ?_⟩
  rw [hproblems, hbefore, hlines]
  rfl

end Daybook
