/-
Daybook.Proofs.WrittenDays — a written day is that day wherever it is read.

A day is written into messages, into names of report files and, as a text
between quotes, into JSON. All that is needed of `Day.render` is that the
reader of dates takes it for the day it was written from: what has a left
inverse tells days apart (§1), and the JSON reader hands back the text between
the quotes as it was (§2). Nothing in the written form of a day has to be
escaped there, as it consists of digits, hyphens and perhaps a plus sign.
Main statement (§3): `written_day_is_read_back`.
-/
import Daybook.Proofs.DayText
import Daybook.Proofs.JsonRoundTrip
import Daybook.Report
import Mathlib.Data.List.Basic
import Mathlib.Logic.Function.Basic

namespace Daybook

open Text.Utf8 (encode)

namespace Day

/-! ## §1 Days told apart -/

/-- No two days are written alike. -/
theorem render_injective : Function.Injective render := fun a b h => by
  have hread : parse a.render = .ok b := h ▸ parse_render b
  rw [parse_render] at hread
  exact Except.ok.inj hread

/-- Days have reports of different names, as only the day varies in the name. -/
theorem fileName_injective : Function.Injective Report.fileName := by
  intro a b h
  unfold Report.fileName at h
  rw [String.append_left_inj, String.append_right_inj] at h
  exact render_injective h

end Day

/-! ## §2 Days in JSON -/

/-- Whatever is no control, quote or backslash stands for itself between quotes. -/
theorem Json.escapeChar_eq_self {c : Char} (hcontrol : 0x20 ≤ c.toNat)
    (hquote : c ≠ '"') (hbackslash : c ≠ '\\') : Json.escapeChar c = [c] := by
  unfold Json.escapeChar
  split
  · exact absurd rfl hquote
  · exact absurd rfl hbackslash
  · exact absurd hcontrol (by decide)
  · exact absurd hcontrol (by decide)
  · exact absurd hcontrol (by decide)
  · exact absurd hcontrol (by decide)
  · exact absurd hcontrol (by decide)
  · exact if_neg (Nat.not_lt.mpr hcontrol)

namespace Day

/-- A value is a day when it is a text that spells one. -/
theorem ofJson?_eq_some_iff {j : Json} {d : Day} :
    ofJson? j = some d ↔ ∃ text, j = .str text ∧ Spells text.toList d := by
  cases j with
  | str text =>
    have hread : ofJson? (.str text) = (parse text).toOption := rfl
    rw [hread]
    constructor
    · intro h
      cases hparse : parse text with
      | error e => simp [hparse, Except.toOption] at h
      | ok d' =>
        simp only [hparse, Except.toOption, Option.some.injEq] at h
        exact ⟨text, rfl, parse_eq_ok_iff.mp (h ▸ hparse)⟩
    · rintro ⟨_, ⟨⟩, h⟩
      rw [parse_eq_ok_iff.mpr h]
      rfl
  | _ => simp [ofJson?, Json.str?]

/-- A day is read back from its value. -/
theorem ofJson?_toJson (d : Day) : ofJson? d.toJson = some d := by
  refine ofJson?_eq_some_iff.mpr ⟨d.render, rfl, ?_⟩
  rw [render, String.toList_ofList]
  exact spells_chars d

/-- A written day holds digits and signs only. -/
theorem digit_or_sign_of_mem_chars {d : Day} {c : Char} (h : c ∈ d.chars) :
    c.isDigit = true ∨ c = '-' ∨ c = '+' := by
  have hdigits : ∀ {width n}, c ∈ Text.paddedNumeral width n → c.isDigit = true :=
    fun hmem => List.all_eq_true.mp (Text.isNumeral_paddedNumeral _ _).digits c hmem
  simp only [chars, monthDayText, List.mem_append, List.mem_cons] at h
  rcases h with hyear | rfl | hmonth | rfl | hday
  · unfold yearText at hyear
    split at hyear
    · rcases List.mem_cons.mp hyear with rfl | hmem
      · exact .inr (.inl rfl)
      · exact .inl (hdigits hmem)
    · split at hyear
      · exact .inl (hdigits hyear)
      · rcases List.mem_cons.mp hyear with rfl | hmem
        · exact .inr (.inr rfl)
        · exact .inl (hdigits hmem)
  · exact .inr (.inl rfl)
  · exact .inl (hdigits hmonth)
  · exact .inr (.inl rfl)
  · exact .inl (hdigits hday)

/-- A day is its written form between quotes. -/
theorem renderChars_toJson (d : Day) : d.toJson.renderChars = '"' :: d.chars ++ ['"'] := by
  have hplain : ∀ c ∈ d.chars, Json.escapeChar c = [c] := by
    intro c hc
    rcases digit_or_sign_of_mem_chars hc with hdigit | rfl | rfl
    · have hlow : '0'.toNat ≤ c.toNat := by
        simp only [Char.isDigit, Bool.and_eq_true, decide_eq_true_eq] at hdigit
        exact hdigit.1
      refine Json.escapeChar_eq_self (Nat.le_trans (by decide) hlow) ?_ ?_ <;>
        (rintro rfl; cases hdigit)
    · rfl
    · rfl
  have hsame : d.chars.flatMap Json.escapeChar = d.chars := by
    rw [List.flatMap_congr hplain, List.flatMap_singleton']
  rw [toJson, Json.renderChars, Json.renderString, render, String.toList_ofList, hsame]

/-- The bytes of a day are read as that day. -/
theorem ofJson?_parse?_toJson (depth : Nat) (d : Day) :
    (Json.Reader.parse? { depth } (encode d.toJson.renderChars)).bind ofJson? = some d := by
  have hback : Json.Reader.ReadsBack { depth } d.toJson := Json.Reader.readsBack_str rfl d.render
  have h := Json.Reader.parse?_render hback (show Json.Reader.skipBlanks [] = [] from rfl)
  rw [List.append_nil] at h
  rw [h]
  exact ofJson?_toJson d

/-! ## §3 Days as they are written -/

/-- **Every day of the calendar is read back from its written form**, as a text and as a JSON
value, for which it stands between quotes as it is; so no two days are written alike, nor are the
reports of two days given the same name. What is read as a day is what spells it: beyond the written
form, white space may stand before each of the three numbers, a month or day may have one digit, and
a year up to four digits, or its sign and any number of them. -/
theorem written_day_is_read_back :
    (∀ d : Day, parse d.render = .ok d) ∧
    (∀ (text : String) (d : Day), parse text = .ok d ↔ Spells text.toList d) ∧
    (∀ d : Day, ofJson? d.toJson = some d) ∧
    (∀ (j : Json) (d : Day),
      ofJson? j = some d ↔ ∃ text, j = .str text ∧ Spells text.toList d) ∧
    (∀ d : Day, d.toJson.renderChars = '"' :: d.chars ++ ['"']) ∧
    (∀ (depth : Nat) (d : Day),
      (Json.Reader.parse? { depth } (encode d.toJson.renderChars)).bind ofJson? = some d) ∧
    Function.Injective render ∧ Function.Injective Report.fileName :=
  ⟨parse_render, fun _ _ => parse_eq_ok_iff, ofJson?_toJson, fun _ _ => ofJson?_eq_some_iff,
    renderChars_toJson, ofJson?_parse?_toJson, render_injective, fileName_injective⟩

/-- A year before the year 0, a year of five digits, and a text that is no written form. -/
example :
    (⟨-5, 3, 31, by decide⟩ : Day).render = "-0005-03-31" ∧
    (⟨12345, 3, 31, by decide⟩ : Day).render = "+12345-03-31" ∧
    parse " 25- 3-31" = .ok ⟨25, 3, 31, by decide⟩ := by
  decide

end Day

end Daybook
