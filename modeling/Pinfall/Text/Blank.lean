/-!
# Blank characters

Two classes of blanks.  `isWhiteSpace` is the Unicode property `White_Space`: it
is what may stand around a number.  `isBlank` adds the four information
separators U+001C to U+001F: it is what is trimmed from a name, a setting or a
level, and what makes a text count as empty.
-/

namespace Pinfall.Text

/-- The Unicode property `White_Space`. -/
def isWhiteSpace (c : Char) : Bool :=
  let n := c.toNat
  (0x09 ≤ n && n ≤ 0x0D) || n == 0x20 || n == 0x85 || n == 0xA0 || n == 0x1680 ||
    (0x2000 ≤ n && n ≤ 0x200A) || n == 0x2028 || n == 0x2029 || n == 0x202F ||
    n == 0x205F || n == 0x3000

/-- White space within ASCII. -/
def isAsciiWhiteSpace (c : Char) : Bool :=
  (0x09 ≤ c.toNat && c.toNat ≤ 0x0D) || c.toNat == 0x20

/-- White space, or one of the information separators U+001C to U+001F. -/
def isBlank (c : Char) : Bool :=
  isWhiteSpace c || (0x1C ≤ c.toNat && c.toNat ≤ 0x1F)

/-- Leave out the characters of a class at both ends. -/
def stripBy (drop : Char → Bool) (cs : List Char) : List Char :=
  ((cs.dropWhile drop).reverse.dropWhile drop).reverse

/-- A text without the blanks at its ends. -/
def trim (s : String) : String :=
  String.ofList (stripBy isBlank s.toList)

/-- A text of blanks only; the empty text is one. -/
def isAllBlank (s : String) : Bool :=
  s.toList.all isBlank

/-- The trimmed text, unless nothing is left of it. -/
def trimmed? (s : String) : Option String :=
  if (trim s).isEmpty then none else some (trim s)

theorem isWhiteSpace_of_isAscii {c : Char} (h : isAsciiWhiteSpace c = true) :
    isWhiteSpace c = true := by
  simp only [isAsciiWhiteSpace, Bool.or_eq_true] at h
  rcases h with h | h <;> simp [isWhiteSpace, h]

end Pinfall.Text
