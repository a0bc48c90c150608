/-!
# Splitting at a mark

A text is split at the first character of a class.  The mark itself is dropped,
and a text without it has no second part.
-/

namespace Pinfall.Text

/-- The part before the first mark, and the part after it if there is one. -/
def splitAtFirst (isMark : Char → Bool) : List Char → List Char × Option (List Char)
  | [] => ([], none)
  | c :: rest =>
    if isMark c then ([], some rest)
    else
      let (before, after) := splitAtFirst isMark rest
      (c :: before, after)

theorem splitAtFirst_of_forall {isMark : Char → Bool} {cs : List Char}
    (h : ∀ c ∈ cs, isMark c = false) : splitAtFirst isMark cs = (cs, none) := by
  induction cs with
  | nil => rfl
  | cons c rest ih =>
    have hc := h c (by simp)
    have hrest := ih fun d hd => h d (by simp [hd])
    simp [splitAtFirst, hc, hrest]

theorem splitAtFirst_append {isMark : Char → Bool} {before : List Char} {mark : Char}
    (h : ∀ c ∈ before, isMark c = false) (hmark : isMark mark = true) (after : List Char) :
    splitAtFirst isMark (before ++ mark :: after) = (before, some after) := by
  induction before with
  | nil => simp [splitAtFirst, hmark]
  | cons c rest ih =>
    have hc := h c (by simp)
    have hrest := ih fun d hd => h d (by simp [hd])
    simp [splitAtFirst, hc, hrest]

end Pinfall.Text
