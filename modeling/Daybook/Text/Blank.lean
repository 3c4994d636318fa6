/-
Daybook.Text.Blank — white space and trimming.

A character is blank when it has the Unicode property `White_Space`. The
table is wider than the ASCII one (no-break space, the typographic spaces,
the line and paragraph separators, the ideographic space) and narrower than
folklore: the zero-width space U+200B, the byte order mark U+FEFF and the
separators U+001C to U+001F are not blank.

§1 the property, §2 dropping characters at the two ends of a text.
-/

namespace Daybook.Text

/-! ## §1 White space -/

/-- The Unicode property `White_Space`, all of its 25 characters. -/
def isBlank (c : Char) : Bool :=
  let n := c.toNat
  (9 ≤ n && n ≤ 13) || n == 0x20 || n == 0x85 || n == 0xA0 || n == 0x1680 ||
    (0x2000 ≤ n && n ≤ 0x200A) || n == 0x2028 || n == 0x2029 || n == 0x202F ||
    n == 0x205F || n == 0x3000

@[simp] theorem isBlank_space : isBlank ' ' = true := by decide

@[simp] theorem isBlank_newline : isBlank '\n' = true := by decide

@[simp] theorem isBlank_return : isBlank '\r' = true := by decide

/-! ## §2 Trimming -/

def dropEndWhile (p : Char → Bool) (cs : List Char) : List Char :=
  (cs.reverse.dropWhile p).reverse

def trimStart (cs : List Char) : List Char := cs.dropWhile isBlank

def trimEnd (cs : List Char) : List Char := dropEndWhile isBlank cs

def trim (cs : List Char) : List Char := trimEnd (trimStart cs)

def trimmed (s : String) : String := String.ofList (trim s.toList)

@[simp] theorem toList_trimmed (s : String) : (trimmed s).toList = trim s.toList := by
  simp [trimmed]

@[simp] theorem dropEndWhile_nil (p : Char → Bool) : dropEndWhile p [] = [] := rfl

@[simp] theorem trim_nil : trim [] = [] := rfl

end Daybook.Text
