import Pinfall.Fault
import Pinfall.Proofs.Game.Standing

/-!
# What becomes of a roll

In a game that is played by the rules a roll has one of four outcomes, which the value,
the end of the game and the pins standing at the cursor decide between them.  The
other errors that rolling knows, a frame that is complete already and a cursor without
a frame, do not occur.  A game that is not over takes a gutter ball and a single pin,
so that it can always go on.
-/

namespace Pinfall.Game

variable {game : Game} {ended : List Frame} {current : Frame} {standing : Int} {v : Value}
  {error : RollError}

/-- The outcomes of a roll while so many pins stand at the cursor. -/
inductive Ruling (game : Game) (standing : Int) (v : Value) :
    Except RollError (Game × List Event) → Prop where
  | badPins {cause : Pins.Rejection} (hcheck : Pins.check fullRack v = .error cause) :
      Ruling game standing v (.error (.badPins cause))
  | gameOver {pins : Int} (hcheck : Pins.check fullRack v = .ok pins)
      (hover : game.isOver = true) : Ruling game standing v (.error .gameOver)
  | tooManyPins {pins : Int} (hcheck : Pins.check fullRack v = .ok pins)
      (hover : game.isOver = false) (hpins : standing < pins) :
      Ruling game standing v (.error .tooManyPins)
  | taken {pins : Int} {next : Game} {events : List Event}
      (hcheck : Pins.check fullRack v = .ok pins) (hover : game.isOver = false)
      (hpins : pins ≤ standing) : Ruling game standing v (.ok (next, events))

theorem Ruling.error_cases (h : Ruling game standing v (.error error)) :
    (∃ cause, error = .badPins cause) ∨ error = .gameOver ∨ error = .tooManyPins := by
  cases h with
  | badPins => exact Or.inl ⟨_, rfl⟩
  | gameOver => exact Or.inr (Or.inl rfl)
  | tooManyPins => exact Or.inr (Or.inr rfl)

/-- A game that is not over takes whatever the standing pins allow. -/
theorem Ruling.exists_eq_ok {pins : Int} {outcome : Except RollError (Game × List Event)}
    (h : Ruling game standing v outcome) (hcheck : Pins.check fullRack v = .ok pins)
    (hover : game.isOver = false) (hpins : pins ≤ standing) :
    ∃ result, outcome = .ok result := by
  cases h with
  | badPins hbad =>
    rw [hcheck] at hbad
    contradiction
  | gameOver _ hended =>
    rw [hover] at hended
    contradiction
  | tooManyPins hcheck' _ hmore =>
    obtain rfl := Except.ok.inj (hcheck.symm.trans hcheck')
    omega
  | taken => exact ⟨_, rfl⟩

theorem roll_eq_gameOver {pins : Int} (hcheck : Pins.check fullRack v = .ok pins)
    (hover : game.isOver = true) : game.roll v = .error .gameOver := by
  simp [roll, hcheck, hover]

namespace StandsAt

/-- When the frame under way is open, more pins than stand there are too many. -/
theorem roll_eq_tooManyPins {pins : Int} (h : game.StandsAt ended current)
    (hcheck : Pins.check fullRack v = .ok pins) (hopen : current.IsOpen)
    (hmore : current.remaining < pins) : game.roll v = .error .tooManyPins := by
  obtain ⟨i, hi, hposition⟩ := h.exists_position?
  have hover : game.isOver = false := by rw [h.isOver_eq, hopen.isComplete_eq_false]
  have hframe : position game.frameCursor = .ok i := position_eq_ok_iff.mpr hposition
  have hint : Pins.check fullRack (.int pins) = .ok pins := Pins.check_int_of_check hcheck
  have hadd : (game.frameAt i).addRoll (.int pins) = .error .tooManyPins := by
    rw [h.frameAt_current hi]
    simp [Frame.addRoll, hint, hopen.isComplete_eq_false, hmore]
  simp [roll, hcheck, hover, hframe, hadd]

theorem ruling (h : game.StandsAt ended current) (v : Value) :
    Ruling game current.remaining v (game.roll v) := by
  cases hcheck : Pins.check fullRack v with
  | error cause =>
    rw [roll_eq_error_of_check hcheck]
    exact Ruling.badPins hcheck
  | ok pins =>
    by_cases hover : game.isOver = true
    · rw [roll_eq_gameOver hcheck hover]
      exact Ruling.gameOver hcheck hover
    · have hgoes : game.isOver = false := by simpa using hover
      have hopen : current.IsOpen := by
        rw [h.current_isLegal.isOpen_iff, ← h.isOver_eq]
        exact hgoes
      by_cases hpins : pins ≤ current.remaining
      · obtain ⟨next, events, hroll⟩ := h.exists_roll_eq_ok hcheck hopen hpins
        rw [hroll]
        exact Ruling.taken hcheck hgoes hpins
      · have hmore : current.remaining < pins := by omega
        rw [h.roll_eq_tooManyPins hcheck hopen hmore]
        exact Ruling.tooManyPins hcheck hgoes hmore

theorem one_le_remaining (h : game.StandsAt ended current) (hover : game.isOver = false) :
    1 ≤ current.remaining := by
  rw [h.isOver_eq, ← h.current_isLegal.isOpen_iff] at hover
  exact hover.remaining_bounds.1

end StandsAt

/-- Every error of a roll is a fault on the grounds of the rules. -/
theorem IsUnderWay.exists_fault_of_roll (h : game.IsUnderWay) (hroll : game.roll v = .error error) :
    ∃ fault, error.fault? = some fault := by
  obtain ⟨ended, current, hstands⟩ := h
  have hruling := hstands.ruling v
  rw [hroll] at hruling
  rcases hruling.error_cases with ⟨cause, rfl⟩ | rfl | rfl
  · exact ⟨_, rfl⟩
  · exact ⟨_, rfl⟩
  · exact ⟨_, rfl⟩

/-- A game that is not over takes up to one pin. -/
theorem IsUnderWay.exists_roll_of_le_one {pins : Int} (h : game.IsUnderWay)
    (hover : game.isOver = false) (hcheck : Pins.check fullRack v = .ok pins) (hpins : pins ≤ 1) :
    ∃ result, game.roll v = .ok result := by
  obtain ⟨ended, current, hstands⟩ := h
  apply (hstands.ruling v).exists_eq_ok hcheck hover
  exact Int.le_trans hpins (hstands.one_le_remaining hover)

/-! ## After the end -/

theorem isOver_eq_false_of_roll {result : Game × List Event} (h : game.roll v = .ok result) :
    game.isOver = false := by
  obtain ⟨-, -, -, -, hover, -⟩ := roll_eq_ok_iff.mp h
  exact hover

theorem afterRolls_of_isOver (h : game.isOver = true) (vs : List Value) :
    game.afterRolls vs = game := by
  induction vs with
  | nil => rfl
  | cons v vs ih =>
    cases hroll : game.roll v with
    | error cause =>
      rw [afterRolls_cons_of_error hroll]
      exact ih
    | ok result =>
      have hgoes := isOver_eq_false_of_roll hroll
      rw [h] at hgoes
      contradiction

end Pinfall.Game
