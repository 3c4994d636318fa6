/-
Daybook.Proofs.DayFiles — which paths name a day.

File names are matched by the digits of all scripts, and the reader of dates
would take signs, white space and short numbers. Neither is lax where the other
is: digits that the reader stops inside of are followed by one more digit, where
it asks for a hyphen or the end, so what passes both is four, two and two ASCII
digits (§1, §2). Whatever is written behind a slash leaves the components in
front of it as they are (§3), so the file that a day is given stands under its
root, and is found to be of that day. Main statement (§4): `dayOf_meaning`.
-/
import Daybook.DayFile
import Daybook.Proofs.DayText
import Daybook.Proofs.Utf8RoundTrip

namespace Daybook

open Text (IsNumeral isDecimalDigit)

/-! ## §1 Dates of four, two and two digits -/

/-- The texts `y`, `m` and `x` are the four, two and two ASCII digits of the date of `d`. -/
structure DayFile.SpellsDate (y m x : List Char) (d : Day) : Prop where
  lengths : y.length = 4 ∧ m.length = 2 ∧ x.length = 2
  digits : Text.allDigits y = true ∧ Text.allDigits m = true ∧ Text.allDigits x = true
  year : d.year = Text.decimalValue y
  month : d.month = Text.decimalValue m
  dayOfMonth : d.dayOfMonth = Text.decimalValue x

namespace Day

/-- A number that stops before no decimal digit has taken all the digits there
were, and they are ASCII digits. -/
theorem digits_of_readNumber {ds rest out : List Char} {n : Nat}
    (hds : ∀ c ∈ ds, isDecimalDigit c = true)
    (h : readNumber ds.length (ds ++ rest) = .ok (n, out))
    (hout : ∀ c ∈ out.head?, isDecimalDigit c = false) :
    Text.allDigits ds = true ∧ n = Text.decimalValue ds ∧ out = rest := by
  have htake : ((ds ++ rest).take ds.length).takeWhile Char.isDigit = ds.takeWhile Char.isDigit := by
    rw [List.take_left]
  have hself := List.takeWhile_append_dropWhile (p := Char.isDigit) (l := ds)
  unfold readNumber at h
  rw [htake] at h
  split at h
  · cases h
  · cases h
    have hcut : (ds ++ rest).drop (ds.takeWhile Char.isDigit).length =
        ds.dropWhile Char.isDigit ++ rest := by
      conv => lhs; arg 2; rw [← hself, List.append_assoc]
      exact List.drop_left
    rw [hcut] at hout ⊢
    -- a digit that is left over would be the one the number stops before
    have hall : ds.dropWhile Char.isDigit = [] := by
      cases hback : ds.dropWhile Char.isDigit with
      | nil => rfl
      | cons c cs =>
        have hmem : c ∈ ds := (List.dropWhile_suffix _).subset (hback ▸ List.mem_cons_self)
        have hno := hout c (by simp [hback])
        simp [hds c hmem] at hno
    rw [hall, List.append_nil] at hself
    exact ⟨List.all_eq_true.mpr (List.dropWhile_eq_nil_iff.mp hall), by rw [hself], by rw [hall]; rfl⟩

theorem digits_of_readField {limit n : Nat} {ds rest out : List Char} (hlength : ds.length = 2)
    (hds : ∀ c ∈ ds, isDecimalDigit c = true)
    (h : readField limit (ds ++ rest) = .ok (n, out))
    (hout : ∀ c ∈ out.head?, isDecimalDigit c = false) :
    Text.allDigits ds = true ∧ n = Text.decimalValue ds ∧ out = rest := by
  have hne : ds ≠ [] := List.ne_nil_of_length_pos (by omega)
  rw [readField, Text.trimStart_digits_append hds hne, ← hlength] at h
  simp only [bind_eq_ok_iff, Prod.exists] at h
  obtain ⟨n', out', hread, h⟩ := h
  split at h
  · cases h
    exact digits_of_readNumber hds hread hout
  · cases h

theorem digits_of_readYear {year : Int} {ds rest out : List Char} (hlength : ds.length = 4)
    (hds : ∀ c ∈ ds, isDecimalDigit c = true)
    (h : readYear (ds ++ rest) = .ok (year, out))
    (hout : ∀ c ∈ out.head?, isDecimalDigit c = false) :
    Text.allDigits ds = true ∧ year = Text.decimalValue ds ∧ out = rest := by
  have hne : ds ≠ [] := List.ne_nil_of_length_pos (by omega)
  have hfirst : ∀ c ∈ (ds ++ rest).head?, isDecimalDigit c = true := by
    obtain ⟨d, ds', rfl⟩ := List.exists_cons_of_ne_nil hne
    rintro c hc
    cases hc
    exact hds d List.mem_cons_self
  rw [readYear, Text.trimStart_digits_append hds hne] at h
  -- no sign is a digit
  split at h
  · next heq => cases hfirst '-' (by rw [heq]; rfl)
  · next heq => cases hfirst '+' (by rw [heq]; rfl)
  · simp only [bind_eq_ok_iff, Prod.exists] at h
    obtain ⟨n, out', hread, _, _, hpure, h⟩ := h
    cases hpure
    split at h
    · cases h
      rw [← hlength] at hread
      obtain ⟨hall, rfl, rfl⟩ := digits_of_readNumber hds hread hout
      exact ⟨hall, rfl, rfl⟩
    · cases h

/-- Where four, two and two decimal digits stand, the reader of dates takes ASCII digits only. -/
theorem spellsDate_of_ofChars {y m x : List Char} {d : Day}
    (hlengths : y.length = 4 ∧ m.length = 2 ∧ x.length = 2)
    (hdigits : ∀ c ∈ y ++ m ++ x, isDecimalDigit c = true)
    (h : ofChars (y ++ '-' :: (m ++ '-' :: x)) = .ok d) : DayFile.SpellsDate y m x d := by
  have hy : ∀ c ∈ y, isDecimalDigit c = true := fun c hc => hdigits c (by simp [hc])
  have hm : ∀ c ∈ m, isDecimalDigit c = true := fun c hc => hdigits c (by simp [hc])
  have hx : ∀ c ∈ x, isDecimalDigit c = true := fun c hc => hdigits c (by simp [hc])
  have hyphen : ∀ rest : List Char, ∀ c ∈ ('-' :: rest).head?, isDecimalDigit c = false := by
    rintro rest c hc
    cases hc
    rfl
  obtain ⟨year, month, day, rest, rest', hyear, hmonth, hday, hdate⟩ := ofChars_eq_ok_iff.mp h
  obtain ⟨hyd, rfl, hrest⟩ := digits_of_readYear hlengths.1 hy hyear (hyphen rest)
  cases hrest
  obtain ⟨hmd, rfl, hrest⟩ := digits_of_readField hlengths.2.1 hm hmonth (hyphen rest')
  cases hrest
  rw [← List.append_nil x] at hday
  obtain ⟨hxd, rfl, -⟩ := digits_of_readField hlengths.2.2 hx hday (by simp)
  obtain ⟨hdy, hdm, hdd⟩ := ofDate?_eq_some_iff.mp hdate
  exact ⟨hlengths, ⟨hyd, hmd, hxd⟩, hdy, hdm, hdd⟩

/-- A date that is spelled is read. -/
theorem ofChars_of_spellsDate {y m x : List Char} {d : Day} (h : DayFile.SpellsDate y m x d) :
    ofChars (y ++ '-' :: (m ++ '-' :: x)) = .ok d := by
  obtain ⟨⟨hy, hm, hx⟩, ⟨hyd, hmd, hxd⟩, hdy, hdm, hdd⟩ := h
  have numeral : ∀ {ds : List Char}, Text.allDigits ds = true → 0 < ds.length → IsNumeral ds :=
    fun hall hlength => ⟨List.ne_nil_of_length_pos hlength, hall⟩
  have hnone : ∀ c ∈ ([] : List Char), Text.isBlank c = true := by simp
  have hyear := SpellsYear.unsigned (numeral hyd (by omega)) (Nat.le_of_eq hy)
  rw [← hdy] at hyear
  have hmonth : SpellsField m d.month := ⟨numeral hmd (by omega), Nat.le_of_eq hm, hdm.symm⟩
  have hday : SpellsField x d.dayOfMonth := ⟨numeral hxd (by omega), Nat.le_of_eq hx, hdd.symm⟩
  exact ofChars_eq_ok_iff_spells.mpr
    (@Spells.mk [] [] [] y m x d hnone hnone hnone hyear hmonth hday)

end Day

/-! ## §2 Names of day files -/

namespace DayFile

/-- `y/m/x.tsf` -/
def fileName (y m x : List Char) : List Char := y ++ '/' :: (m ++ '/' :: (x ++ ".tsf".toList))

/-- What may stand in front of the name of a day file: nothing, or anything that ends in a slash. -/
def IsDirectory (cs : List Char) : Prop := cs = [] ∨ cs.getLast? = some '/'

/-- The text ends in the name of the file of `d`. -/
def EndsInName (cs : List Char) (d : Day) : Prop :=
  ∃ directory y m x, IsDirectory directory ∧ SpellsDate y m x d ∧ cs = directory ++ fileName y m x

theorem length_fileName {y m x : List Char} (h : y.length = 4 ∧ m.length = 2 ∧ x.length = 2) :
    (fileName y m x).length = nameLength := by
  simp [fileName, nameLength, h.1, h.2.1, h.2.2]

/-- The names that spell a date are `YYYY/MM/DD.tsf` with decimal digits of any
script. -/
theorem dateOfName?_eq_some_iff {cs date : List Char} :
    dateOfName? cs = some date ↔ ∃ y m x, (y.length = 4 ∧ m.length = 2 ∧ x.length = 2) ∧
      (∀ c ∈ y ++ m ++ x, isDecimalDigit c = true) ∧
      cs = fileName y m x ∧ date = y ++ '-' :: (m ++ '-' :: x) := by
  constructor
  · intro h
    unfold dateOfName? at h
    split at h
    · next y₁ y₂ y₃ y₄ m₁ m₂ d₁ d₂ =>
      split at h
      · next hall =>
        cases h
        exact ⟨[y₁, y₂, y₃, y₄], [m₁, m₂], [d₁, d₂], ⟨rfl, rfl, rfl⟩,
          List.all_eq_true.mp hall, rfl, rfl⟩
      · cases h
    · cases h
  · rintro ⟨y, m, x, ⟨hy, hm, hx⟩, hall, rfl, rfl⟩
    match y, m, x, hy, hm, hx, hall with
    | [_, _, _, _], [_, _], [_, _], _, _, _, hall => exact if_pos (List.all_eq_true.mpr hall)

/-- The name is the last fourteen characters. -/
theorem dateOfChars?_eq_some_iff {cs date : List Char} :
    dateOfChars? cs = some date ↔ ∃ directory name,
      IsDirectory directory ∧ name.length = nameLength ∧ cs = directory ++ name ∧
      dateOfName? name = some date := by
  constructor
  · intro h
    simp only [dateOfChars?] at h
    split at h
    · next hdirectory =>
      obtain ⟨y, m, x, hlengths, -, hname, -⟩ := dateOfName?_eq_some_iff.mp h
      exact ⟨_, _, hdirectory, hname ▸ length_fileName hlengths, (List.take_append_drop _ _).symm, h⟩
    · cases h
  · rintro ⟨directory, name, hdirectory, hlength, rfl, h⟩
    have hcut : (directory ++ name).length - nameLength = directory.length := by
      rw [List.length_append, hlength, Nat.add_sub_cancel]
    simp only [dateOfChars?, hcut, List.take_left, List.drop_left]
    exact (if_pos hdirectory).trans h

theorem SpellsDate.isDecimalDigit {y m x : List Char} {d : Day} (h : SpellsDate y m x d) :
    ∀ c ∈ y ++ m ++ x, isDecimalDigit c = true := by
  obtain ⟨hy, hm, hx⟩ := h.digits
  have hall : Text.allDigits (y ++ m ++ x) = true := by
    simp only [Text.allDigits] at hy hm hx
    simp [Text.allDigits, hy, hm, hx]
  exact fun c hc => Text.isDecimalDigit_of_isDigit (List.all_eq_true.mp hall c hc)

/-- The matcher finds a date that the reader takes just where the name of a day file stands. -/
theorem endsInName_iff {cs : List Char} {d : Day} :
    EndsInName cs d ↔ ∃ date, dateOfChars? cs = some date ∧ Day.ofChars date = .ok d := by
  constructor
  · rintro ⟨directory, y, m, x, hdirectory, hspells, hcs⟩
    have hname : dateOfName? (fileName y m x) = some (y ++ '-' :: (m ++ '-' :: x)) :=
      dateOfName?_eq_some_iff.mpr ⟨y, m, x, hspells.lengths, hspells.isDecimalDigit, rfl, rfl⟩
    refine ⟨_, dateOfChars?_eq_some_iff.mpr ⟨directory, _, hdirectory, ?_, hcs, hname⟩, ?_⟩
    · exact length_fileName hspells.lengths
    · exact Day.ofChars_of_spellsDate hspells
  · rintro ⟨date, hdate, hread⟩
    obtain ⟨directory, name, hdirectory, -, hcs, hname⟩ := dateOfChars?_eq_some_iff.mp hdate
    obtain ⟨y, m, x, hlengths, hdigits, rfl, rfl⟩ := dateOfName?_eq_some_iff.mp hname
    exact ⟨directory, y, m, x, hdirectory, Day.spellsDate_of_ofChars hlengths hdigits hread, hcs⟩

theorem filter_not_isUnder_eq_none_iff {path : Path} {root : Option Path} :
    (root.filter fun r => !path.isUnder r) = none ↔
      ∀ r, root = some r → r.components <+: path.components := by
  simp [Option.filter_eq_none_iff, Path.isUnder]

/-- A path has a day when it lies under the root and ends in the name of that day's file. -/
theorem dayOf_eq_ok_iff {path : Path} {root : Option Path} {d : Day} :
    dayOf path root = .ok d ↔
      (∀ r, root = some r → r.components <+: path.components) ∧
      EndsInName (normalize path.chars) d := by
  rw [← filter_not_isUnder_eq_none_iff, endsInName_iff, dayOf]
  split
  · next r hr => simp [hr]
  · next hnone =>
    rw [hnone]
    split
    · next hdate => simp [hdate]
    · next date hdate =>
      rw [hdate]
      cases hread : Day.ofChars date <;> simp [hread, Except.mapError]

end DayFile

/-! ## §3 Components -/

namespace Path

open Text.Utf8

/-- A slash parts the names of a path. -/
theorem names_slash (as bs : List UInt8) :
    names ⟨as ++ slash :: bs⟩ = names ⟨as⟩ ++ names ⟨bs⟩ := by
  simp only [names, Text.pieces_append_sep, List.filter_append]

/-- How a path starts is settled before its first slash. -/
theorem start_slash_of_ne_nil {as : List UInt8} (hne : as ≠ []) (bs : List UInt8) :
    start ⟨as ++ slash :: bs⟩ = start ⟨as⟩ := by
  have hhead : (as ++ slash :: bs).head? = as.head? := by
    obtain ⟨a, as, rfl⟩ := List.exists_cons_of_ne_nil hne
    rfl
  obtain ⟨p, ps, hp⟩ := List.exists_cons_of_ne_nil (Text.pieces_ne_nil slash as)
  simp only [start, isAbsolute, hhead, Text.pieces_append_sep, hp, List.cons_append,
    List.head?_cons]

theorem start_slash (as bs : List UInt8) : start ⟨as ++ slash :: bs⟩ = start ⟨as ++ [slash]⟩ := by
  by_cases hne : as = []
  · subst hne
    rfl
  · rw [start_slash_of_ne_nil hne, start_slash_of_ne_nil hne]

/-- What stands behind a slash adds its names to the components in front of it. -/
theorem components_slash (as bs : List UInt8) :
    components ⟨as ++ slash :: bs⟩ = components ⟨as ++ [slash]⟩ ++ (names ⟨bs⟩).map .name := by
  have hnil : names ⟨[]⟩ = [] := rfl
  simp only [components, start_slash as bs, names_slash, List.map_append, hnil, List.append_nil,
    List.append_assoc]

/-- A path lies under what stands before any of its slashes. -/
theorem components_prefix_slash (as bs : List UInt8) :
    components ⟨as⟩ <+: components ⟨as ++ slash :: bs⟩ := by
  by_cases hne : as = []
  · subst hne
    exact List.nil_prefix
  · simp only [components, start_slash_of_ne_nil hne, names_slash, List.map_append,
      ← List.append_assoc]
    exact List.prefix_append _ _

theorem chars_ofText (t : String) : (ofText t).chars = t.toList := by
  rw [chars, ofText, decodeLossy_encode]

/-- A text behind a slash is read as it is, whatever bytes stand in front of it. -/
theorem chars_slash (as : List UInt8) (cs : List Char) :
    chars ⟨as ++ slash :: encode cs⟩ = decodeLossy as ++ '/' :: cs :=
  decodeLossy_append as (c := '/') (by decide) cs

/-- Only a slash has the byte of one. -/
theorem slash_notMem_encode {cs : List Char} (h : '/' ∉ cs) : slash ∉ encode cs := by
  intro hmem
  obtain ⟨c, hc, hbyte⟩ := List.mem_flatMap.mp hmem
  by_cases hascii : c.toNat < 0x80
  · rw [encodeChar_ascii hascii, List.mem_singleton] at hbyte
    have hvalue : c.toNat = slash.toNat := by
      rw [hbyte, toNat_toUInt8 (by omega)]
    have hslash : c = '/' := by
      rw [← Char.ofNat_toNat c, hvalue]
      rfl
    exact h (hslash ▸ hc)
  · have := le_of_mem_encodeChar (Nat.not_lt.mp hascii) slash hbyte
    simp [slash] at this

/-- The last three components of a path. -/
def lastThree (p : Path) : List Component := p.components.drop (p.components.length - 3)

theorem lastThree_eq {p : Path} (before : List (List UInt8)) {a b c : List UInt8}
    (h : p.names = before ++ [a, b, c]) : p.lastThree = [.name a, .name b, .name c] := by
  have hsplit : p.components = (p.start ++ before.map .name) ++ [.name a, .name b, .name c] := by
    rw [components, h, List.map_append, List.append_assoc]
    rfl
  have hlength : p.components.length - 3 = (p.start ++ before.map Component.name).length := by
    rw [hsplit, List.length_append]
    rfl
  rw [lastThree, hlength, hsplit, List.drop_left]

end Path

/-! ## §4 The files of days -/

namespace DayFile

open Text.Utf8 (encode)

def slashed (p : Path) : Path := .ofText (String.ofList (normalize p.chars))

theorem normalize_of_notMem {cs : List Char} (h : '\\' ∉ cs) : normalize cs = cs := by
  refine (List.map_congr_left fun c hc => ?_).trans (List.map_id cs)
  exact if_neg fun (hback : c = '\\') => h (hback ▸ hc)

theorem slashed_ofText {t : String} (h : '\\' ∉ t.toList) : slashed (.ofText t) = .ofText t := by
  rw [slashed, Path.chars_ofText, normalize_of_notMem h, String.ofList_toList]

namespace SpellsDate

variable {y m x : List Char} {d : Day}

/-- A day is spelled in one way. -/
theorem unique {y' m' x' : List Char} (h : SpellsDate y m x d) (h' : SpellsDate y' m' x' d) :
    y = y' ∧ m = m' ∧ x = x' := by
  obtain ⟨⟨hy, hm, hx⟩, ⟨hyd, hmd, hxd⟩, hyear, hmonth, hday⟩ := h
  obtain ⟨⟨hy', hm', hx'⟩, ⟨hyd', hmd', hxd'⟩, hyear', hmonth', hday'⟩ := h'
  exact ⟨Text.eq_of_decimalValue_eq hyd hyd' (by omega) (by omega),
    Text.eq_of_decimalValue_eq hmd hmd' (by omega) (by omega),
    Text.eq_of_decimalValue_eq hxd hxd' (by omega) (by omega)⟩

/-- A name of digits holds no other slashes than its own, and no backslash. -/
theorem notMem (h : SpellsDate y m x d) {c : Char} (hc : c.isDigit = false) :
    c ∉ y ∧ c ∉ m ∧ c ∉ x := by
  have hall : ∀ {ds}, Text.allDigits ds = true → c ∉ ds := fun hds hmem =>
    Bool.false_ne_true (hc.symm.trans (List.all_eq_true.mp hds c hmem))
  exact ⟨hall h.digits.1, hall h.digits.2.1, hall h.digits.2.2⟩

theorem normalize_fileName (h : SpellsDate y m x d) :
    normalize (fileName y m x) = fileName y m x := by
  obtain ⟨hy, hm, hx⟩ := h.notMem (c := '\\') rfl
  apply normalize_of_notMem
  simp [fileName, hy, hm, hx]

/-- The three names that the name of a day file is made of. -/
theorem names_fileName (h : SpellsDate y m x d) :
    Path.names ⟨encode (fileName y m x)⟩ = [encode y, encode m, encode (x ++ ".tsf".toList)] := by
  obtain ⟨hy, hm, hx⟩ := h.notMem (c := '/') rfl
  have hbytes : encode (fileName y m x) =
      encode y ++ Path.slash :: (encode m ++ Path.slash :: encode (x ++ ".tsf".toList)) := by
    simp only [fileName, Text.Utf8.encode_append, Text.Utf8.encode_cons]
    rfl
  -- each of them has two characters at least, so none is empty or a dot
  have hkept : ∀ {cs : List Char}, 2 ≤ cs.length →
      decide (encode cs ≠ [] ∧ encode cs ≠ [Path.dot]) = true := by
    intro cs hcs
    have hlong := Text.Utf8.length_le_length_encode cs
    apply decide_eq_true
    constructor
    · intro heq
      rw [heq] at hlong
      exact absurd (Nat.le_trans hcs hlong) (by decide)
    · intro heq
      rw [heq] at hlong
      exact absurd (Nat.le_trans hcs hlong) (by decide)
  obtain ⟨hy4, hm2, hx2⟩ := h.lengths
  rw [Path.names, hbytes, Text.pieces_append (Path.slash_notMem_encode hy),
    Text.pieces_append (Path.slash_notMem_encode hm),
    Text.pieces_of_not_mem (Path.slash_notMem_encode (by simp [hx]))]
  refine List.filter_eq_self.mpr fun piece hpiece => ?_
  simp only [List.mem_cons, List.not_mem_nil, or_false] at hpiece
  rcases hpiece with rfl | rfl | rfl
  · exact hkept (by omega)
  · exact hkept (by omega)
  · exact hkept (by simp [hx2])

/-- A name of digits starts at no root. -/
theorem isAbsolute_eq_false (h : SpellsDate y m x d) :
    Path.isAbsolute ⟨encode (fileName y m x)⟩ = false := by
  have hy := Path.slash_notMem_encode (h.notMem (c := '/') rfl).1
  have hlong := Text.Utf8.length_le_length_encode y
  rw [h.lengths.1] at hlong
  rw [Path.isAbsolute, fileName, Text.Utf8.encode_append]
  cases hbytes : encode y with
  | nil =>
    rw [hbytes] at hlong
    cases hlong
  | cons b bs =>
    rw [hbytes] at hy
    simpa using Ne.symm (List.ne_of_not_mem_cons hy)

end SpellsDate

/-- The last three components of a path with a day are the name of that day's file. -/
theorem lastThree_slashed {p : Path} {directory y m x : List Char} {d : Day}
    (hdirectory : IsDirectory directory) (hspells : SpellsDate y m x d)
    (h : normalize p.chars = directory ++ fileName y m x) :
    (slashed p).lastThree =
      [.name (encode y), .name (encode m), .name (encode (x ++ ".tsf".toList))] := by
  have hnames := hspells.names_fileName
  have hbytes : slashed p = ⟨encode directory ++ encode (fileName y m x)⟩ := by
    rw [slashed, h, Path.ofText, String.toList_ofList, Text.Utf8.encode_append]
  rcases hdirectory with rfl | hlast
  · exact Path.lastThree_eq [] (hbytes ▸ hnames)
  · obtain ⟨outer, rfl⟩ := List.getLast?_eq_some_iff.mp hlast
    have hslash : encode (outer ++ ['/']) ++ encode (fileName y m x) =
        encode outer ++ Path.slash :: encode (fileName y m x) := by
      rw [Text.Utf8.encode_append, List.append_assoc]
      rfl
    refine Path.lastThree_eq (Path.names ⟨encode outer⟩) ?_
    rw [hbytes, hslash, Path.names_slash, hnames]

/-- The name of the file of a day of four digits spells it. -/
theorem name_eq_fileName {d : Day} (hlow : 0 ≤ d.year) (hhigh : d.year ≤ 9999) :
    ∃ y m x, SpellsDate y m x d ∧ (name d).toList = fileName y m x := by
  obtain ⟨hfirst, hlast, hmonth, hmonth', hday, hday'⟩ := d.isDate
  have hlimit := (monthLength_bounds d.year d.month).2
  have hyear : ((d.year.natAbs : Nat) : Int) = d.year := by omega
  have hkept : ∀ width n, (Text.paddedNumeral width n).map (fun c => if c = '-' then '/' else c) =
      Text.paddedNumeral width n := by
    intro width n
    refine (List.map_congr_left fun c hc => ?_).trans (List.map_id _)
    refine if_neg fun hhyphen => ?_
    have := List.all_eq_true.mp (Text.isNumeral_paddedNumeral width n).digits c hc
    rw [hhyphen] at this
    cases this
  refine ⟨Text.paddedNumeral 4 d.year.natAbs, Text.paddedNumeral 2 d.month,
    Text.paddedNumeral 2 d.dayOfMonth,
    { lengths := ⟨Text.length_paddedNumeral (by decide) (by omega),
        Text.length_paddedNumeral (by decide) (by omega),
        Text.length_paddedNumeral (by decide) (by omega)⟩
      digits := ⟨(Text.isNumeral_paddedNumeral _ _).digits, (Text.isNumeral_paddedNumeral _ _).digits,
        (Text.isNumeral_paddedNumeral _ _).digits⟩
      year := by rw [Text.decimalValue_paddedNumeral, hyear]
      month := (Text.decimalValue_paddedNumeral _ _).symm
      dayOfMonth := (Text.decimalValue_paddedNumeral _ _).symm }, ?_⟩
  have hwritten : Day.yearText d.year = Text.paddedNumeral 4 d.year.natAbs := by
    rw [Day.yearText, if_neg (by omega), if_pos hhigh]
  simp only [name, String.toList_ofList, Day.chars, Day.monthDayText, hwritten, List.map_append,
    List.map_cons, hkept, if_true, fileName, List.append_assoc, List.cons_append]

/-- The file of a day stands under any directory, and is found to be of that day. -/
theorem dayOf_slash_name {d : Day} (hlow : 0 ≤ d.year) (hhigh : d.year ≤ 9999) (as : List UInt8)
    {root : Path} (hroot : root.components <+: Path.components
      ⟨as ++ Path.slash :: (Path.ofText (name d)).bytes⟩) :
    dayOf ⟨as ++ Path.slash :: (Path.ofText (name d)).bytes⟩ (some root) = .ok d := by
  obtain ⟨y, m, x, hspells, hname⟩ := name_eq_fileName hlow hhigh
  refine dayOf_eq_ok_iff.mpr ⟨by rintro r ⟨⟩; exact hroot,
    normalize (Text.Utf8.decodeLossy as) ++ ['/'], y, m, x, .inr (by simp), hspells, ?_⟩
  rw [Path.ofText, hname, Path.chars_slash, normalize, List.map_append, List.map_cons,
    List.append_assoc]
  exact congrArg (normalize (Text.Utf8.decodeLossy as) ++ '/' :: ·) hspells.normalize_fileName

/-- The day of the file that is named after a day is that day. -/
theorem dayOf_join_name {d : Day} (hlow : 0 ≤ d.year) (hhigh : d.year ≤ 9999) (root : Path) :
    dayOf (root.join (.ofText (name d))) (some root) = .ok d := by
  obtain ⟨y, m, x, hspells, hname⟩ := name_eq_fileName hlow hhigh
  unfold Path.join
  rw [if_neg (by rw [Path.ofText, hname, hspells.isAbsolute_eq_false]; simp)]
  split
  · next hend =>
    rcases hend with hempty | hlast
    · refine dayOf_eq_ok_iff.mpr ⟨?_, [], y, m, x, .inl rfl, hspells, ?_⟩
      · rintro r ⟨⟩
        obtain ⟨bytes⟩ := root
        cases hempty
        exact List.nil_prefix
      · rw [hempty, List.nil_append, Path.chars_ofText, hname, hspells.normalize_fileName]
        rfl
    · obtain ⟨as, has⟩ := List.getLast?_eq_some_iff.mp hlast
      have hroot : root = ⟨as ++ [Path.slash]⟩ := congrArg Path.mk has
      rw [hroot, List.append_assoc]
      exact dayOf_slash_name hlow hhigh as ⟨_, (Path.components_slash as _).symm⟩
  · exact dayOf_slash_name hlow hhigh root.bytes (Path.components_prefix_slash _ _)

/-- **A path has a day exactly when it lies under the root, where there is one,
and is or ends in the name of a day file: its backslashes taken for slashes, it
ends in four, two and two ASCII digits of a date of the calendar, with slashes
between and in front of them and the ending `.tsf`. The day is that date. The
file of every day of the years 0 to 9999 is found to be of that day, under
every root; and paths of the same day have the same last three components.** -/
theorem dayOf_meaning :
    (∀ t : String, (Path.ofText t).chars = t.toList) ∧
    (∀ (path : Path) (root : Option Path) (d : Day),
      dayOf path root = .ok d ↔
        (∀ r, root = some r → r.components <+: path.components) ∧
        EndsInName (normalize path.chars) d) ∧
    (∀ (root : Path) (d : Day), 0 ≤ d.year → d.year ≤ 9999 →
      dayOf ⟨root.bytes ++ Path.slash :: (Path.ofText (name d)).bytes⟩ (some root) = .ok d ∧
      dayOf (root.join (.ofText (name d))) (some root) = .ok d) ∧
    (∀ (p q : Path) (root root' : Option Path) (d : Day),
      dayOf p root = .ok d → dayOf q root' = .ok d →
        (slashed p).lastThree = (slashed q).lastThree) ∧
    (∀ t : String, '\\' ∉ t.toList → slashed (.ofText t) = .ofText t) := by
  refine ⟨Path.chars_ofText, fun path root d => dayOf_eq_ok_iff, fun root d hlow hhigh => ?below,
    fun p q root root' d hp hq => ?same, fun t => slashed_ofText⟩
  case below =>
    exact ⟨dayOf_slash_name hlow hhigh root.bytes (Path.components_prefix_slash _ _),
      dayOf_join_name hlow hhigh root⟩
  case same =>
    obtain ⟨-, _, y, m, x, hdirectory, hspells, hchars⟩ := dayOf_eq_ok_iff.mp hp
    obtain ⟨-, _, y', m', x', hdirectory', hspells', hchars'⟩ := dayOf_eq_ok_iff.mp hq
    obtain ⟨rfl, rfl, rfl⟩ := hspells.unique hspells'
    rw [lastThree_slashed hdirectory hspells hchars, lastThree_slashed hdirectory' hspells' hchars']

/-- Backslashes are slashes, and digits of another script are digits to the matcher alone. -/
example : dayOf (.ofText "C:\\notes\\2024\\02\\29.tsf") none = .ok ⟨2024, 2, 29, by decide⟩ ∧
    dayOf (.ofText "/notes/٢٠٢٤/02/29.tsf") none =
      .error (.noDate (.ofText "/notes/٢٠٢٤/02/29.tsf")) := by
  decide +kernel

end DayFile

end Daybook
