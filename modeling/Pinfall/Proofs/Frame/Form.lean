import Pinfall.Frame.Basic

/-!
# The forms of a frame

The rules of the game list the rolls of a whole frame: an ordinary one is a strike
or two rolls on one rack, and the tenth has fill balls after a strike or a spare.
A frame that is not whole yet has one of a few open forms.  Frames are built up
from their first roll: an open frame takes exactly the rolls that the standing
pins allow, and each of them leads to another open form or to a whole one.
Conversely every proper beginning of a whole frame is open.
-/

namespace Pinfall

/-- The rolls of a whole ordinary frame. -/
inductive OrdinaryFrame : List Int → Prop where
  | strike : OrdinaryFrame [10]
  | twoRolls {a b : Int} (ha : 0 ≤ a) (ha9 : a ≤ 9) (hb : 0 ≤ b) (hab : b ≤ 10 - a) :
      OrdinaryFrame [a, b]

/-- The rolls of a whole tenth frame. -/
inductive TenthFrame : List Int → Prop where
  | twoRolls {a b : Int} (ha : 0 ≤ a) (hb : 0 ≤ b) (hab : a + b ≤ 9) : TenthFrame [a, b]
  | spare {a c : Int} (ha : 0 ≤ a) (ha9 : a ≤ 9) (hc : 0 ≤ c) (hc10 : c ≤ 10) :
      TenthFrame [a, 10 - a, c]
  | twoStrikes {c : Int} (hc : 0 ≤ c) (hc10 : c ≤ 10) : TenthFrame [10, 10, c]
  | strike {b c : Int} (hb : 0 ≤ b) (hb9 : b ≤ 9) (hc : 0 ≤ c) (hbc : c ≤ 10 - b) :
      TenthFrame [10, b, c]

namespace Pins

theorem check_int_of_check {most n : Int} {v : Value} (h : check most v = .ok n) :
    check most (.int n) = .ok n := by
  obtain ⟨-, hn, hmost⟩ := check_eq_ok_iff.mp h
  exact check_int hn hmost

theorem bounds_of_check {n : Int} {v : Value} (h : check fullRack v = .ok n) :
    0 ≤ n ∧ n ≤ 10 :=
  (check_eq_ok_iff.mp h).2

end Pins

attribute [ext] Frame

namespace Frame

/-- The frame has all rolls that its kind asks for, and no others. -/
def IsWhole (frame : Frame) : Prop :=
  if frame.isLast then TenthFrame frame.rolls else OrdinaryFrame frame.rolls

/-- The forms of a frame that takes another roll. -/
inductive IsOpen : Frame → Prop where
  | unplayed {isLast : Bool} : IsOpen ⟨[], isLast⟩
  | oneRoll {isLast : Bool} {a : Int} (ha : 0 ≤ a) (ha9 : a ≤ 9) : IsOpen ⟨[a], isLast⟩
  | lastStrike : IsOpen ⟨[10], true⟩
  | lastSpare {a : Int} (ha : 0 ≤ a) (ha9 : a ≤ 9) : IsOpen ⟨[a, 10 - a], true⟩
  | lastFillBall {b : Int} (hb : 0 ≤ b) (hb10 : b ≤ 10) : IsOpen ⟨[10, b], true⟩

/-- The frame follows the rules as far as it has come. -/
def IsLegal (frame : Frame) : Prop :=
  frame.IsOpen ∨ frame.IsWhole

/-- The frame with one more roll. -/
def push (frame : Frame) (pins : Int) : Frame :=
  { frame with rolls := frame.rolls ++ [pins] }

@[simp] theorem rolls_push (frame : Frame) (pins : Int) :
    (frame.push pins).rolls = frame.rolls ++ [pins] := rfl

@[simp] theorem isLast_push (frame : Frame) (pins : Int) :
    (frame.push pins).isLast = frame.isLast := rfl

@[simp] theorem isWhole_last {rolls : List Int} :
    IsWhole ⟨rolls, true⟩ ↔ TenthFrame rolls := by
  simp [IsWhole]

@[simp] theorem isWhole_ordinary {rolls : List Int} :
    IsWhole ⟨rolls, false⟩ ↔ OrdinaryFrame rolls := by
  simp [IsWhole]

/-! ## The tests of a frame on its first rolls -/

@[simp] theorem isStrike_nil {isLast : Bool} : isStrike ⟨[], isLast⟩ = false := rfl

@[simp] theorem isStrike_cons {a : Int} {rest : List Int} {isLast : Bool} :
    isStrike ⟨a :: rest, isLast⟩ = decide (a = 10) := by
  simp [isStrike, fullRack]

@[simp] theorem isSpare_nil {isLast : Bool} : isSpare ⟨[], isLast⟩ = false := rfl

@[simp] theorem isSpare_singleton {a : Int} {isLast : Bool} :
    isSpare ⟨[a], isLast⟩ = false := rfl

@[simp] theorem isSpare_cons_cons {a b : Int} {rest : List Int} {isLast : Bool} :
    isSpare ⟨a :: b :: rest, isLast⟩ = decide (a + b = 10 ∧ a ≠ 10) := by
  rw [Bool.eq_iff_iff]
  simp only [isSpare, isStrike_cons, Bool.and_eq_true, Bool.not_eq_true', decide_eq_true_eq,
    decide_eq_false_iff_not]
  exact Iff.rfl

theorem isSpare_eq_false_of_isStrike {frame : Frame} (h : frame.isStrike = true) :
    frame.isSpare = false := by
  unfold isSpare
  split
  · simp [h]
  · rfl

theorem remaining_ordinary {rolls : List Int} :
    remaining ⟨rolls, false⟩ = 10 - Number.total rolls := by
  simp [remaining, fullRack]

theorem remaining_last {rolls : List Int} :
    remaining ⟨rolls, true⟩ = rolls.foldl standingAfter 10 := by
  simp [remaining, fullRack]

/-- A roll that leaves pins standing leaves those that did not fall. -/
theorem standingAfter_of_ne {standing pins : Int} (h : pins ≠ standing) :
    standingAfter standing pins = standing - pins := by
  unfold standingAfter
  rw [if_neg (by omega)]

/-- A roll that clears the rack is followed by a full one. -/
@[simp] theorem standingAfter_self {standing : Int} : standingAfter standing standing = 10 := by
  simp [standingAfter, fullRack]

/-! ## Open and whole frames are told apart by the completion test -/

theorem IsOpen.isComplete_eq_false {frame : Frame} (h : frame.IsOpen) :
    frame.isComplete = false := by
  cases h with
  | unplayed => simp [isComplete]
  | oneRoll ha ha9 =>
    simp only [isComplete, isStrike_cons]
    simp
    omega
  | lastStrike => decide
  | @lastSpare a ha ha9 =>
    have hspare : a + (10 - a) = 10 ∧ a ≠ 10 := by omega
    simp [isComplete, hspare]
  | lastFillBall => simp [isComplete]

theorem IsWhole.isComplete_eq_true {frame : Frame} (h : frame.IsWhole) :
    frame.isComplete = true := by
  obtain ⟨rolls, isLast⟩ := frame
  cases isLast with
  | false =>
    cases isWhole_ordinary.mp h with
    | strike => decide
    | twoRolls => simp [isComplete]
  | true =>
    cases isWhole_last.mp h with
    | @twoRolls a b ha hb hab =>
      have hstrike : a ≠ 10 := by omega
      have hspare : a + b ≠ 10 := by omega
      simp [isComplete, hstrike, hspare]
    | spare => simp [isComplete]
    | twoStrikes => simp [isComplete]
    | strike => simp [isComplete]

theorem IsOpen.not_isWhole {frame : Frame} (h : frame.IsOpen) : ¬frame.IsWhole := by
  intro hwhole
  have hcomplete := hwhole.isComplete_eq_true
  rw [h.isComplete_eq_false] at hcomplete
  contradiction

theorem IsWhole.exists_eq_cons {frame : Frame} (h : frame.IsWhole) :
    ∃ first rest, frame.rolls = first :: rest := by
  obtain ⟨rolls, isLast⟩ := frame
  cases rolls with
  | nil => exact absurd h IsOpen.unplayed.not_isWhole
  | cons first rest => exact ⟨first, rest, rfl⟩

theorem IsWhole.one_le_length_rolls {frame : Frame} (h : frame.IsWhole) :
    1 ≤ frame.rolls.length := by
  obtain ⟨first, rest, hrolls⟩ := h.exists_eq_cons
  simp [hrolls]

theorem IsWhole.length_rolls_ordinary {frame : Frame} (h : frame.IsWhole)
    (hordinary : frame.isLast = false) : frame.rolls.length ≤ 2 := by
  obtain ⟨rolls, isLast⟩ := frame
  obtain rfl : isLast = false := hordinary
  cases isWhole_ordinary.mp h with
  | strike | twoRolls => simp

/-- A whole last frame has two rolls, or three if there is a fill ball. -/
theorem IsWhole.length_rolls_last {frame : Frame} (h : frame.IsWhole)
    (hlast : frame.isLast = true) : 2 ≤ frame.rolls.length ∧ frame.rolls.length ≤ 3 := by
  obtain ⟨rolls, isLast⟩ := frame
  obtain rfl : isLast = true := hlast
  cases isWhole_last.mp h with
  | twoRolls | spare | twoStrikes | strike => simp

theorem IsOpen.length_rolls_le {frame : Frame} (h : frame.IsOpen) : frame.rolls.length ≤ 2 := by
  cases h with
  | unplayed | oneRoll | lastStrike | lastSpare | lastFillBall => simp

/-- An ordinary frame is complete with all its pins. -/
theorem isComplete_of_isStrike_or_isSpare {frame : Frame} (hordinary : frame.isLast = false)
    (h : frame.isStrike = true ∨ frame.isSpare = true) : frame.isComplete = true := by
  obtain ⟨rolls, isLast⟩ := frame
  obtain rfl : isLast = false := hordinary
  rcases h with hstrike | hspare
  · simp [isComplete, hstrike]
  · match rolls with
    | [] | [_] => contradiction
    | _ :: _ :: _ => simp [isComplete]

theorem IsLegal.isComplete_iff {frame : Frame} (h : frame.IsLegal) :
    frame.isComplete = true ↔ frame.IsWhole := by
  constructor
  · intro hcomplete
    rcases h with hopen | hwhole
    · rw [hopen.isComplete_eq_false] at hcomplete
      contradiction
    · exact hwhole
  · exact IsWhole.isComplete_eq_true

theorem IsLegal.isOpen_iff {frame : Frame} (h : frame.IsLegal) :
    frame.IsOpen ↔ frame.isComplete = false := by
  constructor
  · exact IsOpen.isComplete_eq_false
  · intro hcomplete
    rcases h with hopen | hwhole
    · exact hopen
    · rw [hwhole.isComplete_eq_true] at hcomplete
      contradiction

/-! ## The standing pins of the open forms -/

theorem remaining_unplayed {isLast : Bool} : remaining ⟨[], isLast⟩ = 10 := by
  cases isLast
  · exact remaining_ordinary
  · exact remaining_last

theorem remaining_oneRoll {isLast : Bool} {a : Int} (ha9 : a ≤ 9) :
    remaining ⟨[a], isLast⟩ = 10 - a := by
  cases isLast
  · rw [remaining_ordinary, Number.total_cons, Number.total_nil]
    omega
  · rw [remaining_last]
    exact standingAfter_of_ne (by omega)

theorem remaining_lastStrike : remaining ⟨[10], true⟩ = 10 := by
  simp only [remaining_last, List.foldl_cons, List.foldl_nil, standingAfter_self]

theorem remaining_lastSpare {a : Int} (ha9 : a ≤ 9) :
    remaining ⟨[a, 10 - a], true⟩ = 10 := by
  have hne : a ≠ 10 := by omega
  simp only [remaining_last, List.foldl_cons, List.foldl_nil, standingAfter_of_ne hne,
    standingAfter_self]

theorem remaining_twoStrikes : remaining ⟨[10, 10], true⟩ = 10 := by
  simp only [remaining_last, List.foldl_cons, List.foldl_nil, standingAfter_self]

theorem remaining_lastFillBall {b : Int} (hb9 : b ≤ 9) :
    remaining ⟨[10, b], true⟩ = 10 - b := by
  have hne : b ≠ 10 := by omega
  simp only [remaining_last, List.foldl_cons, List.foldl_nil, standingAfter_self,
    standingAfter_of_ne hne]

/-- At least one pin stands in an open frame, and at most ten do. -/
theorem IsOpen.remaining_bounds {frame : Frame} (h : frame.IsOpen) :
    1 ≤ frame.remaining ∧ frame.remaining ≤ 10 := by
  cases h with
  | unplayed => rw [remaining_unplayed]; omega
  | oneRoll ha ha9 => rw [remaining_oneRoll ha9]; omega
  | lastStrike => rw [remaining_lastStrike]; omega
  | lastSpare ha ha9 => rw [remaining_lastSpare ha9]; omega
  | @lastFillBall b hb hb10 =>
    by_cases hten : b = 10
    · subst b
      rw [remaining_twoStrikes]
      omega
    · rw [remaining_lastFillBall (by omega)]
      omega

/-! ## What an open frame takes -/

theorem isOpen_of_rolls_eq_nil {frame : Frame} (h : frame.rolls = []) : frame.IsOpen := by
  obtain ⟨rolls, isLast⟩ := frame
  obtain rfl : rolls = [] := h
  exact IsOpen.unplayed

theorem isLegal_of_rolls_eq_nil {frame : Frame} (h : frame.rolls = []) : frame.IsLegal :=
  Or.inl (isOpen_of_rolls_eq_nil h)

/-- A roll within the standing pins leads from an open frame to a legal one. -/
theorem IsOpen.isLegal_push {frame : Frame} (h : frame.IsOpen) {pins : Int}
    (hpins : 0 ≤ pins) (hstanding : pins ≤ frame.remaining) :
    (frame.push pins).IsLegal := by
  have hpins10 : pins ≤ 10 := Int.le_trans hstanding h.remaining_bounds.2
  cases h with
  | @unplayed isLast =>
    by_cases hten : pins = 10
    · subst pins
      cases isLast
      · exact Or.inr OrdinaryFrame.strike
      · exact Or.inl IsOpen.lastStrike
    · exact Or.inl (IsOpen.oneRoll hpins (by omega))
  | @oneRoll isLast a ha ha9 =>
    rw [remaining_oneRoll ha9] at hstanding
    cases isLast with
    | false => exact Or.inr (OrdinaryFrame.twoRolls ha ha9 hpins hstanding)
    | true =>
      by_cases hspare : pins = 10 - a
      · subst pins
        exact Or.inl (IsOpen.lastSpare ha ha9)
      · exact Or.inr (TenthFrame.twoRolls ha hpins (by omega))
  | lastStrike => exact Or.inl (IsOpen.lastFillBall hpins hpins10)
  | lastSpare ha ha9 => exact Or.inr (TenthFrame.spare ha ha9 hpins hpins10)
  | @lastFillBall b hb hb10 =>
    by_cases hten : b = 10
    · subst b
      exact Or.inr (TenthFrame.twoStrikes hpins hpins10)
    · have hb9 : b ≤ 9 := by omega
      rw [remaining_lastFillBall hb9] at hstanding
      exact Or.inr (TenthFrame.strike hb hb9 hpins hstanding)

/-- The last roll of a legal frame was taken by an open one, within the pins that
stood there. -/
theorem IsLegal.of_push {frame : Frame} {pins : Int} (h : (frame.push pins).IsLegal) :
    frame.IsOpen ∧ 0 ≤ pins ∧ pins ≤ frame.remaining := by
  obtain ⟨rolls, isLast⟩ := frame
  change IsLegal ⟨rolls ++ [pins], isLast⟩ at h
  generalize hall : rolls ++ [pins] = all at h
  -- Each form is the form of an open frame, followed by its last roll.
  have hsplit (before : List Int) (last : Int) (hlast : all = before ++ [last]) :
      rolls = before ∧ pins = last :=
    List.append_singleton_inj.mp (hall.trans hlast)
  rcases h with hopen | hwhole
  · cases hopen with
    | unplayed => simp at hall
    | oneRoll ha ha9 =>
      obtain ⟨rfl, rfl⟩ := hsplit [] _ rfl
      exact ⟨IsOpen.unplayed, ha, by rw [remaining_unplayed]; omega⟩
    | lastStrike =>
      obtain ⟨rfl, rfl⟩ := hsplit [] _ rfl
      exact ⟨IsOpen.unplayed, by omega, Int.le_of_eq remaining_unplayed.symm⟩
    | lastSpare ha ha9 =>
      obtain ⟨rfl, rfl⟩ := hsplit [_] _ rfl
      exact ⟨IsOpen.oneRoll ha ha9, by omega, Int.le_of_eq (remaining_oneRoll ha9).symm⟩
    | lastFillBall hb hb10 =>
      obtain ⟨rfl, rfl⟩ := hsplit [_] _ rfl
      exact ⟨IsOpen.lastStrike, hb, by rwa [remaining_lastStrike]⟩
  · cases isLast with
    | false =>
      cases isWhole_ordinary.mp hwhole with
      | strike =>
        obtain ⟨rfl, rfl⟩ := hsplit [] _ rfl
        exact ⟨IsOpen.unplayed, by omega, Int.le_of_eq remaining_unplayed.symm⟩
      | twoRolls ha ha9 hb hab =>
        obtain ⟨rfl, rfl⟩ := hsplit [_] _ rfl
        exact ⟨IsOpen.oneRoll ha ha9, hb, by rwa [remaining_oneRoll ha9]⟩
    | true =>
      cases isWhole_last.mp hwhole with
      | @twoRolls a b ha hb hab =>
        obtain ⟨rfl, rfl⟩ := hsplit [_] _ rfl
        have ha9 : a ≤ 9 := by omega
        exact ⟨IsOpen.oneRoll ha ha9, hb, by rw [remaining_oneRoll ha9]; omega⟩
      | spare ha ha9 hc hc10 =>
        obtain ⟨rfl, rfl⟩ := hsplit [_, _] _ rfl
        exact ⟨IsOpen.lastSpare ha ha9, hc, by rwa [remaining_lastSpare ha9]⟩
      | twoStrikes hc hc10 =>
        obtain ⟨rfl, rfl⟩ := hsplit [_, _] _ rfl
        exact ⟨IsOpen.lastFillBall (by omega) (by omega), hc, by rwa [remaining_twoStrikes]⟩
      | strike hb hb9 hc hbc =>
        obtain ⟨rfl, rfl⟩ := hsplit [_, _] _ rfl
        exact ⟨IsOpen.lastFillBall hb (by omega), hc, by rwa [remaining_lastFillBall hb9]⟩

/-- A frame takes a value that stands for no more pins than are left in it, until it
is complete. -/
theorem addRoll_eq_ok_iff {frame next : Frame} {v : Value} :
    frame.addRoll v = .ok next ↔
      ∃ pins, Pins.check fullRack v = .ok pins ∧ frame.isComplete = false ∧
        pins ≤ frame.remaining ∧ next = frame.push pins := by
  constructor
  · exact addRoll_eq_ok
  · rintro ⟨pins, hpins, hopen, hstanding, rfl⟩
    simp [addRoll, hpins, hopen, push, Int.not_lt.mpr hstanding]

theorem IsLegal.of_addRoll {frame next : Frame} {v : Value} (h : frame.IsLegal)
    (hadd : frame.addRoll v = .ok next) : next.IsLegal := by
  obtain ⟨pins, hpins, hopen, hstanding, rfl⟩ := addRoll_eq_ok_iff.mp hadd
  exact (h.isOpen_iff.mpr hopen).isLegal_push (Pins.bounds_of_check hpins).1 hstanding

/-! ## Beginnings of whole frames -/

/-- Every beginning of a legal frame is legal. -/
theorem IsLegal.of_append {rolls rest : List Int} {isLast : Bool}
    (h : IsLegal ⟨rolls ++ rest, isLast⟩) : IsLegal ⟨rolls, isLast⟩ := by
  induction rest generalizing rolls with
  | nil => simpa using h
  | cons pins rest ih =>
    have hpush : (push ⟨rolls, isLast⟩ pins).IsLegal := ih (by simpa using h)
    exact Or.inl hpush.of_push.1

/-- With gutter balls an open frame comes to an end. -/
theorem IsOpen.exists_isWhole {frame : Frame} (h : frame.IsOpen) :
    ∃ rest, IsWhole { frame with rolls := frame.rolls ++ rest } := by
  cases h with
  | @unplayed isLast =>
    refine ⟨[0, 0], ?_⟩
    cases isLast
    · exact OrdinaryFrame.twoRolls (by omega) (by omega) (by omega) (by omega)
    · exact TenthFrame.twoRolls (by omega) (by omega) (by omega)
  | @oneRoll isLast a ha ha9 =>
    refine ⟨[0], ?_⟩
    cases isLast
    · exact OrdinaryFrame.twoRolls ha ha9 (by omega) (by omega)
    · exact TenthFrame.twoRolls ha (by omega) (by omega)
  | lastStrike => exact ⟨[0, 0], TenthFrame.strike (by omega) (by omega) (by omega) (by omega)⟩
  | lastSpare ha ha9 => exact ⟨[0], TenthFrame.spare ha ha9 (by omega) (by omega)⟩
  | @lastFillBall b hb hb10 =>
    refine ⟨[0], ?_⟩
    by_cases hten : b = 10
    · subst b
      exact TenthFrame.twoStrikes (by omega) (by omega)
    · exact TenthFrame.strike hb (by omega) (by omega) (by omega)

/-- The legal frames are the beginnings of whole ones. -/
theorem isLegal_iff_exists_isWhole {frame : Frame} :
    frame.IsLegal ↔ ∃ rest, IsWhole { frame with rolls := frame.rolls ++ rest } := by
  constructor
  · rintro (hopen | hwhole)
    · exact hopen.exists_isWhole
    · exact ⟨[], by simpa using hwhole⟩
  · rintro ⟨rest, hwhole⟩
    exact IsLegal.of_append (Or.inr hwhole)

end Frame

end Pinfall
