import Mathlib.Data.List.DropRight
import Pinfall.Text.Blank

/-!
# Trimmed texts

Trimming takes the blanks at the two ends of a text away, all of them and nothing else.  What
is left is empty just when the text is blank throughout.
-/

namespace Pinfall.Text

variable {drop : Char → Bool} {cs : List Char} {c : Char} {s : String}

theorem stripBy_eq_rdropWhile (drop : Char → Bool) (cs : List Char) :
    stripBy drop cs = (cs.dropWhile drop).rdropWhile drop := rfl

theorem exists_append_stripBy_append (drop : Char → Bool) (cs : List Char) :
    ∃ front back, cs = front ++ (stripBy drop cs ++ back) ∧
      (∀ c ∈ front, drop c = true) ∧ ∀ c ∈ back, drop c = true := by
  refine ⟨cs.takeWhile drop, (cs.dropWhile drop).rtakeWhile drop, ?_,
    fun c => List.mem_takeWhile_imp, fun c => List.mem_rtakeWhile_imp⟩
  rw [stripBy_eq_rdropWhile, List.rdropWhile_append_rtakeWhile, List.takeWhile_append_dropWhile]

/-- Dropping from the end leaves the first character alone, unless all of them are dropped. -/
theorem eq_false_of_head?_stripBy (h : (stripBy drop cs).head? = some c) : drop c = false := by
  obtain ⟨rest, hrest⟩ := List.rdropWhile_prefix drop (cs.dropWhile drop)
  have hhead : (cs.dropWhile drop).head? = some c := by
    rw [← hrest, List.head?_append, ← stripBy_eq_rdropWhile, h]
    rfl
  have hnot := List.head?_dropWhile_not drop cs
  rw [hhead] at hnot
  simpa using hnot

theorem eq_false_of_getLast?_stripBy (h : (stripBy drop cs).getLast? = some c) :
    drop c = false := by
  rw [stripBy_eq_rdropWhile] at h
  have hne : (cs.dropWhile drop).rdropWhile drop ≠ [] := by
    intro hnil
    rw [hnil] at h
    contradiction
  have hlast := List.rdropWhile_last_not drop (cs.dropWhile drop) hne
  rw [List.getLast?_eq_getLast_of_ne_nil hne] at h
  rw [← Option.some.inj h]
  simpa using hlast

theorem stripBy_eq_nil_iff : stripBy drop cs = [] ↔ ∀ c ∈ cs, drop c = true := by
  rw [stripBy_eq_rdropWhile, List.rdropWhile_eq_nil_iff]
  constructor
  · intro h c hc
    rw [← List.takeWhile_append_dropWhile (p := drop) (l := cs), List.mem_append] at hc
    exact hc.elim List.mem_takeWhile_imp (h c)
  · intro h c hc
    exact h c ((List.dropWhile_sublist drop).mem hc)

theorem dropWhile_of_head?_not (h : ∀ c, cs.head? = some c → drop c = false) :
    cs.dropWhile drop = cs := by
  cases cs with
  | nil => rfl
  | cons c rest => exact List.dropWhile_cons_of_neg (by simp [h c rfl])

/-- Characters that are dropped at both ends of a text leave the text between them, if that
neither starts nor ends with one. -/
theorem stripBy_append_append {front back : List Char} (hfront : ∀ c ∈ front, drop c = true)
    (hback : ∀ c ∈ back, drop c = true) (hhead : ∀ c, cs.head? = some c → drop c = false)
    (hlast : ∀ c, cs.getLast? = some c → drop c = false) :
    stripBy drop (front ++ (cs ++ back)) = cs := by
  by_cases hempty : cs = []
  · subst hempty
    rw [stripBy_eq_nil_iff, List.nil_append]
    intro c hc
    exact (List.mem_append.mp hc).elim (hfront c) (hback c)
  · have hstart : (cs ++ back).dropWhile drop = cs ++ back := by
      apply dropWhile_of_head?_not
      rwa [List.head?_append_of_ne_nil cs hempty]
    have hend : cs.reverse.dropWhile drop = cs.reverse := by
      apply dropWhile_of_head?_not
      rwa [List.head?_reverse]
    rw [stripBy, List.dropWhile_append_of_pos hfront, hstart, List.reverse_append,
      List.dropWhile_append_of_pos (by simpa using hback), hend, List.reverse_reverse]

/-- The text is what is left of another one without the blanks at its ends. -/
structure IsTrimOf (text raw : String) : Prop where
  exists_ends : ∃ front back, raw.toList = front ++ (text.toList ++ back) ∧
    (∀ c ∈ front, isBlank c = true) ∧ ∀ c ∈ back, isBlank c = true
  head_not_blank : ∀ c, text.toList.head? = some c → isBlank c = false
  last_not_blank : ∀ c, text.toList.getLast? = some c → isBlank c = false

theorem isTrimOf_trim (raw : String) : IsTrimOf (trim raw) raw where
  exists_ends := by
    rw [trim, String.toList_ofList]
    exact exists_append_stripBy_append isBlank raw.toList
  head_not_blank c h := by
    rw [trim, String.toList_ofList] at h
    exact eq_false_of_head?_stripBy h
  last_not_blank c h := by
    rw [trim, String.toList_ofList] at h
    exact eq_false_of_getLast?_stripBy h

/-- There is one way only to trim a text. -/
theorem IsTrimOf.eq_trim {text raw : String} (h : IsTrimOf text raw) : text = trim raw := by
  obtain ⟨front, back, hraw, hfront, hback⟩ := h.exists_ends
  rw [trim, hraw, stripBy_append_append hfront hback h.head_not_blank h.last_not_blank,
    String.ofList_toList]

theorem IsTrimOf.unique {text other raw : String} (h : IsTrimOf text raw)
    (hother : IsTrimOf other raw) : text = other :=
  h.eq_trim.trans hother.eq_trim.symm

/-- Nothing is left to be trimmed of a trimmed text. -/
theorem IsTrimOf.refl {text raw : String} (h : IsTrimOf text raw) : IsTrimOf text text where
  exists_ends := ⟨[], [], by simp, by simp, by simp⟩
  head_not_blank := h.head_not_blank
  last_not_blank := h.last_not_blank

theorem isEmpty_trim (raw : String) : (trim raw).isEmpty = isAllBlank raw := by
  rw [Bool.eq_iff_iff, String.isEmpty_iff, trim, isAllBlank, List.all_eq_true,
    ← stripBy_eq_nil_iff, String.ofList_eq_empty_iff]

/-- Of a text that is not blank throughout, the trimmed text is left. -/
theorem trimmed?_cases (raw : String) :
    isAllBlank raw = true ∧ trimmed? raw = none ∨
      isAllBlank raw = false ∧
        ∃ text, trimmed? raw = some text ∧ IsTrimOf text raw ∧ text ≠ "" := by
  cases hblank : isAllBlank raw with
  | true => exact Or.inl ⟨rfl, by simp [trimmed?, isEmpty_trim, hblank]⟩
  | false =>
    have hempty : (trim raw).isEmpty = false := by rw [isEmpty_trim, hblank]
    refine Or.inr ⟨rfl, trim raw, by simp [trimmed?, hempty], isTrimOf_trim raw, ?_⟩
    intro heq
    rw [heq] at hempty
    contradiction

end Pinfall.Text
