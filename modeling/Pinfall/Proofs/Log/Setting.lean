import Pinfall.Log
import Pinfall.Proofs.Text.FullUpperCase
import Pinfall.Proofs.Text.Trimming

/-!
# The level that a setting asks for

A setting asks for the level that it names when its blanks are left out and its letters are in
upper case, whichever letters of Unicode these are made from.  Any other setting, and a missing
one, leave the level at a warning.  So the outcome always has a name that is known, and a second
reading of this name changes nothing.
-/

namespace Pinfall

open Text

/-! ## Blanks around a text -/

theorem Text.trim_append_append {front text back : String}
    (hfront : ∀ c ∈ front.toList, isBlank c = true) (hback : ∀ c ∈ back.toList, isBlank c = true) :
    trim (front ++ text ++ back) = trim text := by
  have htrim := isTrimOf_trim text
  obtain ⟨before, after, htext, hbefore, hafter⟩ := htrim.exists_ends
  have hraw : IsTrimOf (trim text) (front ++ text ++ back) :=
    { exists_ends := by
        refine ⟨front.toList ++ before, after ++ back.toList, ?_, ?_, ?_⟩
        · simp only [String.toList_append, htext, List.append_assoc]
        · intro c hc
          exact (List.mem_append.mp hc).elim (hfront c) (hbefore c)
        · intro c hc
          exact (List.mem_append.mp hc).elim (hafter c) (hback c)
      head_not_blank := htrim.head_not_blank
      last_not_blank := htrim.last_not_blank }
  exact hraw.eq_trim.symm

namespace Log.Level

variable {level : Level} {text : String}

/-! ## Names -/

theorem name_injective : Function.Injective name := by
  intro level other
  cases level <;> cases other <;> decide

theorem not_leavesAscii_name (level : Level) : ¬LeavesAscii level.name.toList := by
  rintro ⟨c, hc, hascii⟩
  have hname : level.name.toList.all (·.toNat < 0x80) = true := by
    cases level <;> decide
  have hc := of_decide_eq_true (List.all_eq_true.mp hname c hc)
  exact Nat.not_le.mpr hc hascii

theorem ofName?_name (level : Level) : ofName? level.name = some level := by
  cases level <;> decide

theorem ofName?_eq_some_iff : ofName? text = some level ↔ text = level.name := by
  constructor
  · intro h
    rw [ofName?] at h
    have hname := List.find?_some h
    exact (eq_of_beq hname).symm
  · rintro rfl
    exact ofName?_name level

theorem ofName?_eq_none_iff : ofName? text = none ↔ ∀ level : Level, text ≠ level.name := by
  constructor
  · rintro h level rfl
    rw [ofName?_name] at h
    contradiction
  · intro h
    rw [ofName?, List.find?_eq_none]
    intro level _ hname
    exact h level (eq_of_beq hname).symm

/-! ## Settings -/

/-- A name asks for its level. -/
theorem ofSetting_name (level : Level) : ofSetting (some level.name) = level := by
  cases level <;> decide

theorem ofSetting_of_ofName? (h : ofName? (upperCase (trim text)) = some level) :
    ofSetting (some text) = level := by
  rw [ofSetting, Option.getD_some, h, Option.getD_some]

theorem ofSetting_of_ofName?_none (h : ofName? (upperCase (trim text)) = none) :
    ofSetting (some text) = .warning := by
  rw [ofSetting, Option.getD_some, h, Option.getD_none]

/-- A text asks for the level of which its trimmed upper case is the name.  If it is the name of
none, the level is the one of warnings. -/
theorem ofSetting_eq_iff :
    ofSetting (some text) = level ↔ fullUpperCase (trim text) = level.name ∨
      level = .warning ∧ ∀ other : Level, fullUpperCase (trim text) ≠ other.name := by
  have hcase : ∀ other : Level,
      fullUpperCase (trim text) = other.name ↔ upperCase (trim text) = other.name :=
    fun other => fullUpperCase_eq_iff other.not_leavesAscii_name
  simp only [hcase, ne_eq]
  cases hname : ofName? (upperCase (trim text)) with
  | some named =>
    have htext := ofName?_eq_some_iff.mp hname
    rw [ofSetting_of_ofName? hname, htext, name_injective.eq_iff]
    constructor
    · exact Or.inl
    · rintro (heq | ⟨-, hnone⟩)
      · exact heq
      · exact absurd rfl (hnone named)
  | none =>
    have hnone := ofName?_eq_none_iff.mp hname
    rw [ofSetting_of_ofName?_none hname]
    constructor
    · rintro rfl
      exact Or.inr ⟨rfl, hnone⟩
    · rintro (htext | ⟨rfl, -⟩)
      · exact absurd htext (hnone level)
      · rfl

/-- Whatever the setting is, the level has one of eight names; the name is known as that of this
level, and asks for this level again.  Blanks around a text make no difference.  A text asks for
the level whose name its trimmed and upper-cased text is, in the upper case of all scripts; any
other text and a missing setting fall back to warnings. -/
theorem ofSetting_isKnown :
    (∀ setting, (ofSetting setting).name ∈
        ["CRITICAL", "FATAL", "ERROR", "WARN", "WARNING", "INFO", "DEBUG", "NOTSET"] ∧
      ofName? (ofSetting setting).name = some (ofSetting setting) ∧
      ofSetting (some (ofSetting setting).name) = ofSetting setting) ∧
    (∀ front text back : String, (∀ c ∈ front.toList, isBlank c = true) →
      (∀ c ∈ back.toList, isBlank c = true) →
      ofSetting (some (front ++ text ++ back)) = ofSetting (some text)) ∧
    ofSetting none = .warning ∧
    ∀ (text : String) (level : Level), ofSetting (some text) = level ↔
      fullUpperCase (trim text) = level.name ∨
        level = .warning ∧ ∀ other : Level, fullUpperCase (trim text) ≠ other.name := by
  refine ⟨?_, ?_, by decide, fun text level => ofSetting_eq_iff⟩
  · intro setting
    refine ⟨?_, ofName?_name _, ofSetting_name _⟩
    cases ofSetting setting <;> decide
  · intro front text back hfront hback
    rw [ofSetting, ofSetting, Option.getD_some, Option.getD_some,
      trim_append_append hfront hback]

/-- A long s and an information separator. -/
theorem ofSetting_of_longS :
    (∀ c ∈ "\t".toList, isBlank c = true) ∧ (∀ c ∈ "\x1c\n".toList, isBlank c = true) ∧
      ofSetting (some ("\t" ++ "notſet" ++ "\x1c\n")) = .notset := by
  have hfront : ∀ c ∈ "\t".toList, isBlank c = true :=
    List.all_eq_true.mp (by decide : isAllBlank "\t" = true)
  have hback : ∀ c ∈ "\x1c\n".toList, isBlank c = true :=
    List.all_eq_true.mp (by decide : isAllBlank "\x1c\n" = true)
  exact ⟨hfront, hback, (ofSetting_isKnown.2.1 "\t" "notſet" "\x1c\n" hfront hback).trans
    (by decide)⟩

end Log.Level

end Pinfall
