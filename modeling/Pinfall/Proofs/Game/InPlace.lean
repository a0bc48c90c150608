import Pinfall.Proofs.Game.Legality

/-!
# Games changed in place

A move can also be done step by step on one game that is changed in place: a frame takes
a roll, the rolls are counted up, an event is noted, the cursor goes on.  An error breaks
the steps off and undoes none of them, so that whatever has been changed or noted before
it stays.  Each move checks everything before its first change.  Hence the steps come to
what the move as a whole comes to, and a refused roll leaves no trace in any game at all,
also in one whose frames and cursor were set without a check.
-/

namespace Pinfall.Game

/-- A game that is played on, and the events that have been noted. -/
structure Lane where
  game : Game
  log : List Event

/-- Steps on a lane, which an error may break off. -/
abbrev InPlace (α : Type) := ExceptT RollError (StateM Lane) α

namespace InPlace

variable {α β : Type}

/-- What the steps come to, and the lane as they leave it. -/
def exec (steps : InPlace α) (lane : Lane) : Except RollError α × Lane :=
  (ExceptT.run steps).run lane

/-- Go on with a result, or break off. -/
def orBreakOff (result : Except RollError α) : InPlace α :=
  ExceptT.mk (pure result)

def refuseIf (refused : Bool) (cause : RollError) : InPlace Unit :=
  if refused then throw cause else pure ()

/-- The game as it is now. -/
def current : InPlace Game :=
  return (← get).game

def change (f : Game → Game) : InPlace Unit :=
  modify fun lane => { lane with game := f lane.game }

def note (event : Event) : InPlace Unit :=
  modify fun lane => { lane with log := lane.log ++ [event] }

/-- The number of pins that a value stands for. -/
def checkPins (v : Value) : InPlace Int :=
  match Pins.check fullRack v with
  | .error cause => throw (.badPins cause)
  | .ok pins => pure pins

/-- A frame takes a roll. -/
def takeRoll (i : Fin 10) (v : Value) : InPlace Unit := do
  let pins ← checkPins v
  let frame := (← current).frameAt i
  refuseIf frame.isComplete .frameComplete
  refuseIf (frame.remaining < pins) .tooManyPins
  change fun game => game.setFrame i (frame.push pins)

/-- What follows when the frame at a position has taken a roll. -/
def goOn (i : Fin 10) : InPlace Unit := do
  let game ← current
  if (game.frameAt i).isComplete && game.frameCursor < 9 then
    note (.frameComplete game.currentFrame (game.frameAt i))
    change fun game => game.setCursor (game.frameCursor + 1) game.rollCursor
    change fun game => game.setCursor game.frameCursor 0
  else if game.isOver then
    note (.gameOver game.score)

def roll (v : Value) : InPlace Unit := do
  let pins ← checkPins v
  refuseIf (← current).isOver .gameOver
  let i ← orBreakOff (position (← current).frameCursor)
  takeRoll i (.int pins)
  change fun game => game.setCursor game.frameCursor (game.rollCursor + 1)
  goOn i

def addRollAt (index : Int) (v : Value) : InPlace Unit := do
  let i ← orBreakOff (position index)
  takeRoll i v

def assign (index : Int) (rolls : Option (List Int)) (isLast : Option Bool) : InPlace Unit := do
  let i ← orBreakOff (position index)
  change fun game => game.setFrame i
    { rolls := rolls.getD (game.frameAt i).rolls, isLast := isLast.getD (game.frameAt i).isLast }

end InPlace

/-- The steps of a move. -/
def Move.inPlace : Move → InPlace Unit
  | .roll v => InPlace.roll v
  | .addRollAt index v => InPlace.addRollAt index v
  | .setCursor frameCursor rollCursor =>
    InPlace.change fun game => game.setCursor frameCursor rollCursor
  | .assign index rolls isLast => InPlace.assign index rolls isLast

namespace Lane

/-- A lane before the first roll. -/
def new : Lane :=
  ⟨Game.new, []⟩

/-- The lane after the steps of some moves, each of which may break off. -/
def run (lane : Lane) (moves : List Move) : Lane :=
  moves.foldl (fun lane move => (move.inPlace.exec lane).2) lane

/-- What a move as a whole comes to on a lane. -/
def settled (lane : Lane) (moved : Moved) : Except RollError Unit × Lane :=
  (match moved.refusal with
    | none => .ok ()
    | some cause => .error cause,
    ⟨moved.game, lane.log ++ moved.events⟩)

end Lane

namespace InPlace

variable {α β : Type} {steps : InPlace α} {lane later : Lane}

/-! ## Single steps -/

theorem exec_bind (steps : InPlace α) (next : α → InPlace β) (lane : Lane) :
    (steps >>= next).exec lane =
      match steps.exec lane with
      | (.ok a, later) => (next a).exec later
      | (.error cause, later) => (.error cause, later) := by
  rw [exec, exec, ExceptT.run_bind, StateT.run_bind]
  rcases (ExceptT.run steps).run lane with ⟨result, later⟩
  cases result with
  | error cause => rfl
  | ok a => rfl

theorem exec_bind_of_ok {a : α} (h : steps.exec lane = (.ok a, later)) (next : α → InPlace β) :
    (steps >>= next).exec lane = (next a).exec later := by
  rw [exec_bind, h]

@[simp] theorem exec_orBreakOff (result : Except RollError α) (lane : Lane) :
    (orBreakOff result).exec lane = (result, lane) := rfl

@[simp] theorem exec_current (lane : Lane) : current.exec lane = (.ok lane.game, lane) := rfl

@[simp] theorem exec_change (f : Game → Game) (lane : Lane) :
    (change f).exec lane = (.ok (), { lane with game := f lane.game }) := rfl

@[simp] theorem exec_refuseIf (refused : Bool) (cause : RollError) (lane : Lane) :
    (refuseIf refused cause).exec lane = (if refused then .error cause else .ok (), lane) := by
  cases refused with
  | true => rfl
  | false => rfl

theorem exec_checkPins (v : Value) (lane : Lane) :
    (checkPins v).exec lane =
      match Pins.check fullRack v with
      | .error cause => (.error (.badPins cause), lane)
      | .ok pins => (.ok pins, lane) := by
  unfold checkPins
  cases Pins.check fullRack v with
  | error cause => rfl
  | ok pins => rfl

/-! ## Procedures -/

theorem exec_takeRoll (i : Fin 10) (v : Value) (lane : Lane) :
    (takeRoll i v).exec lane =
      match (lane.game.frameAt i).addRoll v with
      | .ok frame => (.ok (), { lane with game := lane.game.setFrame i frame })
      | .error cause => (.error cause, lane) := by
  cases hpins : Pins.check fullRack v with
  | error cause => simp [takeRoll, exec_bind, Frame.addRoll, hpins, exec_checkPins]
  | ok pins =>
    cases hcomplete : (lane.game.frameAt i).isComplete with
    | true => simp [takeRoll, exec_bind, Frame.addRoll, hpins, hcomplete, exec_checkPins]
    | false =>
      by_cases hmore : (lane.game.frameAt i).remaining < pins
      · simp [takeRoll, exec_bind, Frame.addRoll, hpins, hcomplete, hmore, exec_checkPins]
      · simp [takeRoll, exec_bind, Frame.addRoll, hpins, hcomplete, hmore, exec_checkPins,
          Frame.push]

theorem exec_goOn (game : Game) (i : Fin 10) (frame : Frame) (log : List Event) :
    (goOn i).exec ⟨game.recorded i frame, log⟩ =
      (.ok (), ⟨(game.settle i frame).1, log ++ (game.settle i frame).2⟩) := by
  have hframe : (game.recorded i frame).frameAt i = frame := game.frameAt_setFrame_self i frame
  have hcursor : (game.recorded i frame).frameCursor = game.frameCursor := rfl
  rw [goOn, exec_bind_of_ok (exec_current _)]
  by_cases hmove : (frame.isComplete && game.frameCursor < 9) = true
  · simp only [settle, hframe, hcursor, if_pos hmove]
    rfl
  · simp only [settle, hframe, hcursor, if_neg hmove]
    cases (game.recorded i frame).isOver with
    | true => rfl
    | false =>
      rw [if_neg Bool.false_ne_true, if_neg Bool.false_ne_true, List.append_nil]
      rfl

/-- Every check of a roll comes before the first change, so that an error leaves the lane
as it was. -/
theorem exec_roll (v : Value) (lane : Lane) :
    (roll v).exec lane = lane.settled (lane.game.perform (.roll v)) := by
  cases hpins : Pins.check fullRack v with
  | error cause =>
    have hroll := roll_eq_error_of_check hpins lane.game
    simp [roll, exec_bind, perform, Lane.settled, hpins, hroll, exec_checkPins]
  | ok pins =>
    cases hover : lane.game.isOver with
    | true =>
      simp [roll, Game.roll, exec_bind, perform, Lane.settled, hpins, hover, exec_checkPins]
    | false =>
      cases hposition : position lane.game.frameCursor with
      | error cause =>
        simp [roll, Game.roll, exec_bind, perform, Lane.settled, hpins, hover, hposition,
          exec_checkPins]
      | ok i =>
        have htake := exec_takeRoll i (.int pins) lane
        cases hframe : (lane.game.frameAt i).addRoll (.int pins) with
        | error cause =>
          rw [hframe] at htake
          simp [roll, Game.roll, exec_bind, perform, Lane.settled, hpins, hover, hposition, htake,
            hframe, exec_checkPins]
        | ok frame =>
          rw [hframe] at htake
          have hroll := roll_eq_settle hpins hover (position_eq_ok_iff.mp hposition) hframe
          have hgo := exec_goOn lane.game i frame lane.log
          simp only [roll, exec_bind, perform, Lane.settled, hpins, hover, hposition, htake, hroll,
            exec_checkPins, exec_orBreakOff, exec_current, exec_refuseIf, exec_change,
            Bool.false_eq_true, if_false]
          exact hgo

theorem exec_addRollAt (index : Int) (v : Value) (lane : Lane) :
    (addRollAt index v).exec lane = lane.settled (lane.game.perform (.addRollAt index v)) := by
  cases hposition : position index with
  | error cause =>
    simp [addRollAt, Game.addRollAt, exec_bind, perform, silently, Lane.settled, hposition]
  | ok i =>
    have htake := exec_takeRoll i v lane
    cases hframe : (lane.game.frameAt i).addRoll v with
    | error cause =>
      rw [hframe] at htake
      simp [addRollAt, Game.addRollAt, exec_bind, perform, silently, Lane.settled, hposition,
        htake, hframe]
    | ok frame =>
      rw [hframe] at htake
      simp [addRollAt, Game.addRollAt, exec_bind, perform, silently, Lane.settled, hposition,
        htake, hframe]

theorem exec_assign (index : Int) (rolls : Option (List Int)) (isLast : Option Bool)
    (lane : Lane) :
    (assign index rolls isLast).exec lane =
      lane.settled (lane.game.perform (.assign index rolls isLast)) := by
  cases hposition : position index with
  | error cause =>
    simp [assign, Game.assign, exec_bind, perform, silently, Lane.settled, hposition]
  | ok i => simp [assign, Game.assign, exec_bind, perform, silently, Lane.settled, hposition]

end InPlace

variable {game : Game} {lane later : Lane} {index : Int} {v : Value} {move : Move}
  {cause : RollError}

/-! ## Moves -/

/-- The steps of a move come to what the move as a whole comes to. -/
theorem Move.exec_inPlace (move : Move) (lane : Lane) :
    move.inPlace.exec lane = lane.settled (lane.game.perform move) := by
  cases move with
  | roll v => exact InPlace.exec_roll v lane
  | addRollAt index v => exact InPlace.exec_addRollAt index v lane
  | setCursor frameCursor rollCursor => simp [inPlace, perform, Lane.settled]
  | assign index rolls isLast => exact InPlace.exec_assign index rolls isLast lane

theorem Lane.run_eq (game : Game) (log : List Event) (moves : List Move) :
    Lane.run ⟨game, log⟩ moves = ⟨game.after moves, log ++ game.eventsOf moves⟩ := by
  induction moves generalizing game log with
  | nil => simp [Lane.run, eventsOf]
  | cons move moves ih =>
    have hrest := ih (game.perform move).game (log ++ (game.perform move).events)
    rw [List.append_assoc] at hrest
    rw [Lane.run, List.foldl_cons, move.exec_inPlace]
    exact hrest

theorem perform_of_refusal (h : (game.perform move).refusal = some cause) :
    (game.perform move).game = game ∧ (game.perform move).events = [] := by
  cases move with
  | roll v =>
    cases hroll : game.roll v with
    | error cause => simp [perform, hroll]
    | ok result => simp [perform, hroll] at h
  | addRollAt index v =>
    cases hadd : game.addRollAt index v with
    | error cause => simp [perform, silently, hadd]
    | ok next => simp [perform, silently, hadd] at h
  | setCursor frameCursor rollCursor => simp [perform] at h
  | assign index rolls isLast =>
    cases hassign : game.assign index rolls isLast with
    | error cause => simp [perform, silently, hassign]
    | ok next => simp [perform, silently, hassign] at h

/-- Whatever error breaks a move off, nothing has been changed or noted by then. -/
theorem eq_of_exec_inPlace (h : move.inPlace.exec lane = (.error cause, later)) :
    later = lane := by
  rw [move.exec_inPlace] at h
  obtain ⟨hresult, rfl⟩ := Prod.mk.inj h
  cases hrefusal : (lane.game.perform move).refusal with
  | none =>
    rw [hrefusal] at hresult
    contradiction
  | some refusal =>
    obtain ⟨hgame, hevents⟩ := perform_of_refusal hrefusal
    rw [hgame, hevents, List.append_nil]

/-- A frame that takes a roll out of turn is the only thing that changes, by this roll. -/
theorem exists_push_of_exec_addRollAt
    (h : (Move.addRollAt index v).inPlace.exec lane = (.ok (), later)) :
    ∃ i pins, position? index = some i ∧ Pins.check fullRack v = .ok pins ∧
      later = { lane with game := lane.game.setFrame i ((lane.game.frameAt i).push pins) } := by
  rw [Move.exec_inPlace] at h
  cases hadd : lane.game.addRollAt index v with
  | error cause => simp [Lane.settled, perform, silently, hadd] at h
  | ok next =>
    obtain ⟨i, frame, hi, hframe, rfl⟩ := addRollAt_eq_ok_iff.mp hadd
    obtain ⟨pins, hpins, -, -, rfl⟩ := Frame.addRoll_eq_ok_iff.mp hframe
    refine ⟨i, pins, hi, hpins, ?_⟩
    simpa [Lane.settled, perform, silently, hadd] using h.symm

/-- Whatever has been done to a game, with or without a check, the steps of a move come to
what the move as a whole comes to.  An error leaves all frames, both cursors and the log as
they were.  A roll out of turn that is taken is added to one frame, and nothing else
changes. -/
theorem lane_eq_of_refusal (moves : List Move) :
    let lane := Lane.new.run moves
    lane = ⟨Game.new.after moves, Game.new.eventsOf moves⟩ ∧
      (∀ move : Move, move.inPlace.exec lane = lane.settled (lane.game.perform move)) ∧
      (∀ (move : Move) (cause : RollError) (later : Lane),
        move.inPlace.exec lane = (.error cause, later) → later = lane) ∧
      ∀ index v later, (Move.addRollAt index v).inPlace.exec lane = (.ok (), later) →
        ∃ i pins, position? index = some i ∧ Pins.check fullRack v = .ok pins ∧
          later.game.frames = lane.game.frames.set i ((lane.game.frameAt i).push pins) ∧
          later.game.frameCursor = lane.game.frameCursor ∧
          later.game.rollCursor = lane.game.rollCursor ∧ later.log = lane.log := by
  intro lane
  refine ⟨Lane.run_eq Game.new [] moves, fun move => move.exec_inPlace lane, ?_, ?_⟩
  · intro move cause later h
    exact eq_of_exec_inPlace h
  · intro index v later h
    obtain ⟨i, pins, hi, hpins, rfl⟩ := exists_push_of_exec_addRollAt h
    exact ⟨i, pins, hi, hpins, rfl, rfl, rfl, rfl⟩

/-- With the cursor counted from the end and a full tenth frame of the ordinary kind, a
roll is refused where it stands, and the first frame can still be rolled into. -/
theorem lane_eq_of_wrapped_cursor :
    let lane := Lane.new.run
      [.assign 9 (some [10, 10, 10]) (some false), .setCursor (-1) 7]
    (Move.roll (.int 5)).inPlace.exec lane = (.error .frameComplete, lane) ∧
      ∃ later, (Move.addRollAt (-10) (.int 5)).inPlace.exec lane = (.ok (), later) ∧
        later.game.frames = lane.game.frames.set 0 ⟨[5], false⟩ ∧ later.log = [] := by
  intro lane
  obtain ⟨-, -, hrefused, htaken⟩ := lane_eq_of_refusal
    [.assign 9 (some [10, 10, 10]) (some false), .setCursor (-1) 7]
  constructor
  · have hlater := hrefused (.roll (.int 5)) .frameComplete _ rfl
    exact congrArg _ hlater
  · obtain ⟨i, pins, hi, hpins, hframes, -, -, hlog⟩ := htaken (-10) (.int 5) _ rfl
    obtain rfl : 0 = i := Option.some.inj hi
    obtain rfl : 5 = pins := Except.ok.inj hpins
    exact ⟨_, rfl, hframes, hlog⟩

end Pinfall.Game
