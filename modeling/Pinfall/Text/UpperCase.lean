/-!
# Upper case into ASCII

Full upper-casing as far as it leads into ASCII.  Besides the small letters of
ASCII these are the dotless i, the long s, the sharp s and the ligatures of f
and s.  Every other character outside ASCII has no ASCII text as its upper case,
and stands here for itself: a comparison with an ASCII name comes out the same.
-/

namespace Pinfall.Text

/-- The upper case of a character, where that is ASCII text. -/
def upperChar (c : Char) : List Char :=
  match c with
  | 'ß' => ['S', 'S']
  | 'ı' => ['I']
  | 'ſ' => ['S']
  | 'ﬀ' => ['F', 'F']
  | 'ﬁ' => ['F', 'I']
  | 'ﬂ' => ['F', 'L']
  | 'ﬃ' => ['F', 'F', 'I']
  | 'ﬄ' => ['F', 'F', 'L']
  | 'ﬅ' => ['S', 'T']
  | 'ﬆ' => ['S', 'T']
  | _ => [c.toUpper]

/-- The upper case of a text. -/
def upperCase (s : String) : String :=
  String.ofList (s.toList.flatMap upperChar)

end Pinfall.Text
