import Pinfall.Text.Split

/-!
# Texts in pieces

A text that is joined from pieces can be cut at its separators again if no piece is empty or
holds one, and what is read piece by piece can be read as a whole.  A text that is split at its
first mark is the part before it, the mark and the part after it.
-/

namespace Pinfall.Text

theorem mapM_eq_some_map {α β : Type} {f : α → Option β} {g : α → β} {as : List α}
    (h : ∀ a ∈ as, f a = some (g a)) : as.mapM f = some (as.map g) := by
  induction as with
  | nil => rfl
  | cons a as ih =>
    have hfirst := h a List.mem_cons_self
    have hrest := ih fun b hb => h b (List.mem_cons_of_mem a hb)
    simp [hfirst, hrest]

/-- What is left out of a joined text is left out of the separators and of the pieces. -/
theorem filter_intercalate (keep : Char → Bool) (separator : List Char)
    (pieces : List (List Char)) :
    (separator.intercalate pieces).filter keep =
      (separator.filter keep).intercalate (pieces.map (List.filter keep)) := by
  induction pieces with
  | nil => rfl
  | cons piece pieces ih =>
    cases pieces with
    | nil => simp
    | cons next pieces =>
      rw [List.intercalate_cons_cons, List.filter_append, List.filter_append, ih]
      rw [List.map_cons, List.map_cons, List.map_cons, List.intercalate_cons_cons]

theorem mem_or_exists_mem_of_mem_intercalate {c : Char} {separator : List Char}
    {pieces : List (List Char)} (h : c ∈ separator.intercalate pieces) :
    c ∈ separator ∨ ∃ piece ∈ pieces, c ∈ piece := by
  induction pieces with
  | nil => contradiction
  | cons piece pieces ih =>
    cases pieces with
    | nil =>
      rw [List.intercalate_singleton] at h
      exact Or.inr ⟨piece, List.mem_cons_self, h⟩
    | cons next pieces =>
      rw [List.intercalate_cons_cons, List.mem_append, List.mem_append] at h
      rcases h with (hpiece | hseparator) | hrest
      · exact Or.inr ⟨piece, List.mem_cons_self, hpiece⟩
      · exact Or.inl hseparator
      · rcases ih hrest with hseparator | ⟨other, hother, hc⟩
        · exact Or.inl hseparator
        · exact Or.inr ⟨other, List.mem_cons_of_mem piece hother, hc⟩

/-- The pieces of a text between separators; the empty text has none. -/
def piecesOf (separator : Char) (text : List Char) : List (List Char) :=
  if text.isEmpty then [] else text.splitOn separator

theorem piecesOf_intercalate {separator : Char} {pieces : List (List Char)}
    (h : ∀ piece ∈ pieces, piece ≠ [] ∧ separator ∉ piece) :
    piecesOf separator ([separator].intercalate pieces) = pieces := by
  cases pieces with
  | nil => rfl
  | cons piece rest =>
    have hne : [separator].intercalate (piece :: rest) ≠ [] := by
      have hpiece := (h piece List.mem_cons_self).1
      cases rest with
      | nil => simpa using hpiece
      | cons next rest => simp [List.intercalate_cons_cons]
    have hseparator : ∀ other ∈ piece :: rest, separator ∉ other :=
      fun other hother => (h other hother).2
    rw [piecesOf, if_neg (by simpa using hne)]
    exact List.splitOn_intercalate separator hseparator (List.cons_ne_nil piece rest)

/-- A text is split at no mark, or at a mark between the part before it and the part after. -/
theorem splitAtFirst_cases (isMark : Char → Bool) (cs : List Char) :
    splitAtFirst isMark cs = (cs, none) ∨ ∃ before mark after, cs = before ++ mark :: after ∧
      isMark mark = true ∧ splitAtFirst isMark cs = (before, some after) := by
  induction cs with
  | nil => exact Or.inl rfl
  | cons c rest ih =>
    cases hc : isMark c with
    | true => exact Or.inr ⟨[], c, rest, rfl, hc, by simp [splitAtFirst, hc]⟩
    | false =>
      rcases ih with hnone | ⟨before, mark, after, rfl, hmark, hsome⟩
      · exact Or.inl (by simp [splitAtFirst, hc, hnone])
      · exact Or.inr ⟨c :: before, mark, after, rfl, hmark, by simp [splitAtFirst, hc, hsome]⟩

end Pinfall.Text
