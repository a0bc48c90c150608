import Pinfall.Game.Move
import Pinfall.Game.Play
import Pinfall.Proofs.Frame.Form

/-!
# Rolling

A roll is taken or refused.  When it is taken, the frame at the cursor has one
roll more and the cursor moves on; a refused roll changes nothing.  Two ways of
rolling a list of values differ in what they make of a refusal: `afterRolls` goes
on with the next value, `rollEach` stops there, as playing does.  All of them see
of a value only the pins that it stands for.
-/

namespace Pinfall.Game

/-- The game with the given frame in a place and one more roll counted. -/
def recorded (game : Game) (i : Fin 10) (frame : Frame) : Game :=
  (game.setFrame i frame).setCursor game.frameCursor (game.rollCursor + 1)

/-- The game in which a frame has taken a roll and the cursor has moved on, with the
events on the way. -/
def settle (game : Game) (i : Fin 10) (frame : Frame) : Game × List Event :=
  if frame.isComplete && game.frameCursor < 9 then
    ((game.recorded i frame).setCursor (game.frameCursor + 1) 0,
      [.frameComplete game.currentFrame frame])
  else
    (game.recorded i frame,
      if (game.recorded i frame).isOver then [.gameOver (game.recorded i frame).score] else [])

/-- The game after each of a list of values has been rolled, whether taken or not. -/
def afterRolls (game : Game) (vs : List Value) : Game :=
  game.after (vs.map Move.roll)

/-- The game after all of a list of values have been rolled, or the first refusal. -/
def rollEach (game : Game) : List Value → Except RollError Game
  | [] => .ok game
  | v :: rest =>
    match game.roll v with
    | .error cause => .error cause
    | .ok (next, _) => next.rollEach rest

/-! ## One roll -/

theorem settle_of_isComplete {game : Game} {frame : Frame} (hcomplete : frame.isComplete = true)
    (hcursor : game.frameCursor < 9) (i : Fin 10) :
    game.settle i frame =
      ((game.recorded i frame).setCursor (game.frameCursor + 1) 0,
        [.frameComplete game.currentFrame frame]) := by
  simp [settle, hcomplete, hcursor]

theorem settle_of_not_isComplete {game : Game} {frame : Frame}
    (h : frame.isComplete = false ∨ 9 ≤ game.frameCursor) (i : Fin 10) :
    game.settle i frame =
      (game.recorded i frame,
        if (game.recorded i frame).isOver then [.gameOver (game.recorded i frame).score]
        else []) := by
  have hmove : ¬(frame.isComplete && game.frameCursor < 9) = true := by
    rcases h with h | h
    · simp [h]
    · simp [Int.not_lt.mpr h]
  rw [settle, if_neg hmove]

/-- A roll that passes every check settles the game. -/
theorem roll_eq_settle {game : Game} {v : Value} {pins : Int} {i : Fin 10} {frame : Frame}
    (hpins : Pins.check fullRack v = .ok pins) (hover : game.isOver = false)
    (hi : position? game.frameCursor = some i)
    (hframe : (game.frameAt i).addRoll (.int pins) = .ok frame) :
    game.roll v = .ok (game.settle i frame) := by
  have hposition : position game.frameCursor = .ok i := position_eq_ok_iff.mpr hi
  have hgoes : ¬(false = true) := by decide
  simp only [roll, settle, hpins, hover, hposition, hframe, if_neg hgoes]
  by_cases hmove : (frame.isComplete && game.frameCursor < 9) = true
  · rw [if_pos hmove, if_pos hmove]
    rfl
  · rw [if_neg hmove, if_neg hmove]
    exact (apply_ite (fun events => Except.ok (game.recorded i frame, events)) _ _ _).symm

theorem roll_eq_ok_iff {game : Game} {v : Value} {result : Game × List Event} :
    game.roll v = .ok result ↔
      ∃ pins i frame, Pins.check fullRack v = .ok pins ∧ game.isOver = false ∧
        position? game.frameCursor = some i ∧
        (game.frameAt i).addRoll (.int pins) = .ok frame ∧ game.settle i frame = result := by
  constructor
  · intro h
    cases hpins : Pins.check fullRack v with
    | error cause => simp [roll, hpins] at h
    | ok pins =>
      cases hover : game.isOver with
      | true => simp [roll, hpins, hover] at h
      | false =>
        cases hposition : position game.frameCursor with
        | error cause => simp [roll, hpins, hover, hposition] at h
        | ok i =>
          cases hframe : (game.frameAt i).addRoll (.int pins) with
          | error cause => simp [roll, hpins, hover, hposition, hframe] at h
          | ok frame =>
            have hi : position? game.frameCursor = some i := position_eq_ok_iff.mp hposition
            rw [roll_eq_settle hpins hover hi hframe] at h
            exact ⟨pins, i, frame, rfl, rfl, hi, hframe, Except.ok.inj h⟩
  · rintro ⟨pins, i, frame, hpins, hover, hi, hframe, rfl⟩
    exact roll_eq_settle hpins hover hi hframe

/-- A roll that is taken changes only the frame at the cursor, by one more roll. -/
theorem exists_frames_of_roll {game next : Game} {v : Value} {events : List Event}
    (hroll : game.roll v = .ok (next, events)) :
    ∃ pins i, Pins.check fullRack v = .ok pins ∧ game.isOver = false ∧
      position? game.frameCursor = some i ∧
      next.frames = (game.setFrame i ((game.frameAt i).push pins)).frames := by
  obtain ⟨pins, i, frame, hpins, hover, hi, hframe, hsettle⟩ := roll_eq_ok_iff.mp hroll
  obtain ⟨pins', hpins', -, -, rfl⟩ := Frame.addRoll_eq_ok_iff.mp hframe
  obtain rfl : pins = pins' :=
    Except.ok.inj ((Pins.check_int_of_check hpins).symm.trans hpins')
  obtain rfl : (game.settle i ((game.frameAt i).push pins)).1 = next := congrArg Prod.fst hsettle
  refine ⟨pins, i, hpins, hover, hi, ?_⟩
  unfold settle
  split
  · rfl
  · rfl

/-- A roll sees of a value only the pins that it stands for. -/
theorem roll_congr {v w : Value} (h : Pins.check fullRack v = Pins.check fullRack w)
    (game : Game) : game.roll v = game.roll w := by
  unfold roll
  rw [h]

theorem roll_int_of_check {v : Value} {pins : Int} (h : Pins.check fullRack v = .ok pins)
    (game : Game) : game.roll (.int pins) = game.roll v :=
  roll_congr ((Pins.check_int_of_check h).trans h.symm) game

theorem roll_eq_error_of_check {v : Value} {cause : Pins.Rejection}
    (h : Pins.check fullRack v = .error cause) (game : Game) :
    game.roll v = .error (.badPins cause) := by
  simp [roll, h]

/-- The cursor stays at its frame or goes on to the next one. -/
theorem frameCursor_settle (game : Game) (i : Fin 10) (frame : Frame) :
    (game.settle i frame).1.frameCursor = game.frameCursor ∨
      (game.settle i frame).1.frameCursor = game.frameCursor + 1 := by
  unfold settle
  split
  · exact Or.inr rfl
  · exact Or.inl rfl

/-! ## A list of rolls -/

@[simp] theorem afterRolls_nil (game : Game) : game.afterRolls [] = game := rfl

theorem afterRolls_append (game : Game) (vs ws : List Value) :
    game.afterRolls (vs ++ ws) = (game.afterRolls vs).afterRolls ws := by
  simp [afterRolls]

theorem afterRolls_cons_of_ok {game next : Game} {v : Value} {events : List Event}
    (h : game.roll v = .ok (next, events)) (vs : List Value) :
    game.afterRolls (v :: vs) = next.afterRolls vs := by
  simp [afterRolls, perform, h]

theorem afterRolls_cons_of_error {game : Game} {v : Value} {cause : RollError}
    (h : game.roll v = .error cause) (vs : List Value) :
    game.afterRolls (v :: vs) = game.afterRolls vs := by
  simp [afterRolls, perform, h]

/-- What holds of a game and is kept by each roll that is taken holds after any list
of rolls. -/
theorem afterRolls_induction {motive : Game → Prop} {game : Game} (start : motive game)
    (step : ∀ {before next : Game} {v : Value} {events : List Event},
      motive before → before.roll v = .ok (next, events) → motive next)
    (vs : List Value) : motive (game.afterRolls vs) := by
  induction vs generalizing game with
  | nil => exact start
  | cons v vs ih =>
    cases h : game.roll v with
    | error cause =>
      rw [afterRolls_cons_of_error h]
      exact ih start
    | ok result =>
      rw [afterRolls_cons_of_ok h]
      exact ih (step start h)

theorem frameCursor_le_afterRolls (game : Game) (vs : List Value) :
    game.frameCursor ≤ (game.afterRolls vs).frameCursor := by
  refine afterRolls_induction (motive := fun next => game.frameCursor ≤ next.frameCursor)
    (Int.le_refl _) ?_ vs
  intro before next v events hle hroll
  obtain ⟨_, i, frame, -, -, -, -, hresult⟩ := roll_eq_ok_iff.mp hroll
  have hsettle := frameCursor_settle before i frame
  rw [hresult] at hsettle
  rcases hsettle with hstay | hnext
  · exact Int.le_trans hle (Int.le_of_eq hstay.symm)
  · dsimp only at hnext
    omega

/-! ## Rolling up to the first refusal -/

theorem rollEach_cons_of_ok {game next : Game} {v : Value} {events : List Event}
    (h : game.roll v = .ok (next, events)) (vs : List Value) :
    game.rollEach (v :: vs) = next.rollEach vs := by
  simp [rollEach, h]

theorem rollEach_cons_of_error {game : Game} {v : Value} {cause : RollError}
    (h : game.roll v = .error cause) (vs : List Value) :
    game.rollEach (v :: vs) = .error cause := by
  simp [rollEach, h]

theorem rollEach_append (game : Game) (vs ws : List Value) :
    game.rollEach (vs ++ ws) = (game.rollEach vs).bind fun next => next.rollEach ws := by
  induction vs generalizing game with
  | nil => rfl
  | cons v vs ih =>
    cases h : game.roll v with
    | error cause =>
      rw [List.cons_append, rollEach_cons_of_error h, rollEach_cons_of_error h]
      rfl
    | ok result => rw [List.cons_append, rollEach_cons_of_ok h, rollEach_cons_of_ok h, ih]

/-- If a list of rolls is taken, then so is every beginning of it. -/
theorem exists_rollEach_of_append {game next : Game} {vs ws : List Value}
    (h : game.rollEach (vs ++ ws) = .ok next) : ∃ before, game.rollEach vs = .ok before := by
  rw [rollEach_append] at h
  cases hvs : game.rollEach vs with
  | error cause =>
    rw [hvs] at h
    contradiction
  | ok before => exact ⟨before, rfl⟩

theorem rollEach_congr {vs ws : List Value}
    (h : vs.map (Pins.check fullRack) = ws.map (Pins.check fullRack)) (game : Game) :
    game.rollEach vs = game.rollEach ws := by
  induction vs generalizing game ws with
  | nil =>
    obtain rfl := List.map_eq_nil_iff.mp h.symm
    rfl
  | cons v vs ih =>
    obtain ⟨w, ws, rfl, hvw, hrest⟩ := List.map_eq_cons_iff.mp h.symm
    have hroll : game.roll v = game.roll w := roll_congr hvw.symm game
    cases hw : game.roll w with
    | error cause =>
      rw [rollEach_cons_of_error hw, rollEach_cons_of_error (hroll.trans hw)]
    | ok result =>
      rw [rollEach_cons_of_ok hw, rollEach_cons_of_ok (hroll.trans hw), ih hrest.symm]

/-- When no roll is refused, both ways of rolling lead to the same game. -/
theorem afterRolls_of_rollEach {game next : Game} {vs : List Value}
    (h : game.rollEach vs = .ok next) : game.afterRolls vs = next := by
  induction vs generalizing game with
  | nil => exact Except.ok.inj h
  | cons v vs ih =>
    cases hv : game.roll v with
    | error cause =>
      rw [rollEach_cons_of_error hv] at h
      contradiction
    | ok result =>
      rw [rollEach_cons_of_ok hv] at h
      rw [afterRolls_cons_of_ok hv]
      exact ih h

/-- The check before a roll refuses what the roll refuses. -/
theorem playOn_cons_of_error {game : Game} {v : Value} {cause : RollError}
    (h : game.roll v = .error cause) (vs : List Value) :
    game.playOn (v :: vs) = ⟨[], .error cause⟩ := by
  cases hpins : Pins.check fullRack v with
  | error rejection =>
    obtain rfl : RollError.badPins rejection = cause :=
      Except.error.inj ((roll_eq_error_of_check hpins game).symm.trans h)
    simp [playOn, hpins]
  | ok pins =>
    have hroll : game.roll (.int pins) = .error cause := (roll_int_of_check hpins game).trans h
    simp [playOn, hpins, hroll]

theorem playOn_cons_of_ok {game next : Game} {v : Value} {events : List Event}
    (h : game.roll v = .ok (next, events)) (vs : List Value) :
    game.playOn (v :: vs) = ⟨events ++ (next.playOn vs).events, (next.playOn vs).result⟩ := by
  obtain ⟨pins, -, -, hpins, -, -, -, -⟩ := roll_eq_ok_iff.mp h
  have hroll : game.roll (.int pins) = .ok (next, events) := (roll_int_of_check hpins game).trans h
  simp [playOn, hpins, hroll]

/-- Playing comes to the same as rolling up to the first refusal: checking a value
beforehand changes nothing. -/
theorem result_playOn (game : Game) (vs : List Value) :
    (game.playOn vs).result = game.rollEach vs := by
  induction vs generalizing game with
  | nil => rfl
  | cons v vs ih =>
    cases hroll : game.roll v with
    | error cause => rw [playOn_cons_of_error hroll, rollEach_cons_of_error hroll]
    | ok result => rw [playOn_cons_of_ok hroll, rollEach_cons_of_ok hroll, ih]

end Pinfall.Game
