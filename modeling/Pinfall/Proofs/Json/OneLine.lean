import Pinfall.Proofs.Json.RoundTrip
import Pinfall.Proofs.Text.OneLine

/-!
# Documents on one line

No control below the space is left in a compact document: the layout adds none, and strings
spell out those that they hold.  In particular there is no line feed in it.
-/

namespace Pinfall

namespace Json

open Text

variable {j : Json} {depth : Nat}

theorem hasNoControl_escapeChar (c : Char) : HasNoControl (escapeChar c) := by
  unfold escapeChar
  iterate 7
    split
    next => decide
  split
  next h =>
    have hall : ∀ n < 0x20, HasNoControl ("\\u" ++ Number.hexNumeral 4 n) := by decide
    exact hall c.toNat h
  next h =>
    intro d hd
    rw [Char.toString, String.toList_singleton, List.mem_singleton] at hd
    subst hd
    exact Nat.not_lt.mp h

theorem hasNoControl_quote (s : String) : HasNoControl (quote s) := by
  have hbody : HasNoControl (String.join (s.toList.map escapeChar)) := by
    apply hasNoControl_join
    intro text htext
    obtain ⟨c, _, rfl⟩ := List.mem_map.mp htext
    exact hasNoControl_escapeChar c
  have hquote : HasNoControl "\"" := by decide
  exact (hquote.append hbody).append hquote

theorem hasNoControl_bracketed {opening closing : String} {items : List String}
    (hopening : HasNoControl opening) (hclosing : HasNoControl closing)
    (hitems : ∀ item ∈ items, HasNoControl item) :
    HasNoControl (bracketed .compact depth opening closing items) := by
  have hbreak : ∀ depth, HasNoControl (Layout.compact.lineBreak depth) := by
    intro depth c hc
    contradiction
  have hcomma : HasNoControl "," := by decide
  unfold bracketed
  split
  · exact hopening.append hclosing
  · exact (((hopening.append (hbreak _)).append
      (hasNoControl_intercalate (hcomma.append (hbreak _)) hitems)).append (hbreak _)).append
        hclosing

theorem IsPlain.hasNoControl_compact (h : j.IsPlain) (depth : Nat) :
    HasNoControl (write .compact depth j) := by
  induction h generalizing depth with
  | null =>
    rw [write]
    decide
  | bool b =>
    rw [write]
    cases b <;> decide
  | integer n =>
    rw [write]
    exact hasNoControl_numeral n
  | string s =>
    rw [write]
    exact hasNoControl_quote s
  | array _ ih =>
    rw [write, writeItems_eq_map]
    apply hasNoControl_bracketed (by decide) (by decide)
    intro text htext
    obtain ⟨item, hitem, rfl⟩ := List.mem_map.mp htext
    exact ih item hitem (depth + 1)
  | object _ ih =>
    rw [write, writeFields_eq_map]
    apply hasNoControl_bracketed (by decide) (by decide)
    intro text htext
    obtain ⟨⟨key, item⟩, hfield, rfl⟩ := List.mem_map.mp htext
    have hcolon : HasNoControl Layout.compact.colon := by decide
    exact ((hasNoControl_quote key).append hcolon).append (ih (key, item) hfield (depth + 1))

end Json

end Pinfall
