import Pinfall.Proofs.Game.InPlace
import Pinfall.Proofs.Game.Replay

/-!
# Spellings of a number of pins

A number of pins may come as an integer, as a number with a point, as a text or as bytes.  It
is checked before the game sees it, by the game, and again by the frame that takes it.  The
first check decides what all others come to, so that they change nothing, on whatever lane:
a value does what the integer does that it stands for, and only integers are recorded.
-/

namespace Pinfall.Game

/-- Each frame has its old rolls, and behind them integers that some of the values stand for. -/
def HasGrownBy (game later : Game) (vs : List Value) : Prop :=
  ∀ i, ∃ added, (later.frameAt i).rolls = (game.frameAt i).rolls ++ added ∧
    ∀ pins ∈ added, ∃ v ∈ vs, Pins.check fullRack v = .ok pins

attribute [ext] Played

variable {game next later : Game} {lane : Lane} {v w : Value} {vs ws : List Value} {pins : Int}
  {rejection : Pins.Rejection} {cause : RollError} {events : List Event}

namespace InPlace

/-- A frame takes a number of pins that has been checked. -/
def takePins (i : Fin 10) (pins : Int) : InPlace Unit := do
  let frame := (← current).frameAt i
  refuseIf frame.isComplete .frameComplete
  refuseIf (frame.remaining < pins) .tooManyPins
  change fun game => game.setFrame i (frame.push pins)

/-- A roll that checks its value only once. -/
def rollOnce (v : Value) : InPlace Unit := do
  let pins ← checkPins v
  refuseIf (← current).isOver .gameOver
  let i ← orBreakOff (position (← current).frameCursor)
  takePins i pins
  change fun game => game.setCursor game.frameCursor (game.rollCursor + 1)
  goOn i

/-- Roll values as they are, up to the first refusal. -/
def rollAll (vs : List Value) : InPlace Unit :=
  forM vs roll

/-- Roll the integers that values stand for, up to the first refusal. -/
def play (vs : List Value) : InPlace Unit :=
  forM vs fun v => do roll (.int (← checkPins v))

/-! ## One value -/

theorem checkPins_congr (h : Pins.check fullRack v = Pins.check fullRack w) :
    checkPins v = checkPins w := by
  rw [checkPins, checkPins, h]

/-- A roll sees of a value only the pins that it stands for, and so does a frame. -/
theorem roll_congr (h : Pins.check fullRack v = Pins.check fullRack w) : roll v = roll w := by
  rw [roll, roll, checkPins_congr h]

theorem takeRoll_congr (h : Pins.check fullRack v = Pins.check fullRack w) (i : Fin 10) :
    takeRoll i v = takeRoll i w := by
  rw [takeRoll, takeRoll, checkPins_congr h]

theorem roll_of_check (h : Pins.check fullRack v = .ok pins) : roll v = roll (.int pins) :=
  roll_congr (h.trans (Pins.check_int_of_check h).symm)

theorem takeRoll_of_check (h : Pins.check fullRack v = .ok pins) (i : Fin 10) :
    takeRoll i v = takeRoll i (.int pins) :=
  takeRoll_congr (h.trans (Pins.check_int_of_check h).symm) i

theorem checkPins_of_ok (h : Pins.check fullRack v = .ok pins) : checkPins v = pure pins := by
  rw [checkPins, h]

theorem checkPins_bind_of_error (h : Pins.check fullRack v = .error rejection)
    (next : Int → InPlace Unit) : checkPins v >>= next = throw (.badPins rejection) := by
  rw [checkPins, h]
  rfl

/-- What has been checked need not be checked again. -/
theorem takeRoll_int (h : Pins.check fullRack v = .ok pins) (i : Fin 10) :
    takeRoll i (.int pins) = takePins i pins := by
  rw [takeRoll, checkPins_of_ok (Pins.check_int_of_check h), pure_bind, takePins]

theorem rollOnce_eq_roll (v : Value) : rollOnce v = roll v := by
  cases hpins : Pins.check fullRack v with
  | error rejection =>
    rw [rollOnce, roll, checkPins_bind_of_error hpins, checkPins_bind_of_error hpins]
  | ok pins =>
    rw [rollOnce, roll, checkPins_of_ok hpins, pure_bind, pure_bind]
    simp only [takeRoll_int hpins]

theorem exec_checkPins_of_error (h : Pins.check fullRack v = .error rejection) (lane : Lane) :
    (checkPins v).exec lane = (.error (.badPins rejection), lane) := by
  rw [exec_checkPins, h]

theorem exec_roll_of_error (h : lane.game.roll v = .error cause) :
    (roll v).exec lane = (.error cause, lane) := by
  rw [exec_roll, perform, h]
  simp [Lane.settled]

theorem exec_roll_of_ok (h : lane.game.roll v = .ok (next, events)) :
    (roll v).exec lane = (.ok (), ⟨next, lane.log ++ events⟩) := by
  rw [exec_roll, perform, h]
  rfl

/-- The check before a roll comes to what the first check of the roll comes to. -/
theorem checkPins_bind_roll (v : Value) : (do roll (.int (← checkPins v))) = roll v := by
  cases hpins : Pins.check fullRack v with
  | error rejection =>
    rw [roll, checkPins_bind_of_error hpins, checkPins_bind_of_error hpins]
  | ok pins => rw [checkPins_of_ok hpins, pure_bind, roll_of_check hpins]

/-! ## A list of values -/

theorem play_eq_rollAll (vs : List Value) : play vs = rollAll vs := by
  rw [play, rollAll, funext checkPins_bind_roll]

theorem forM_rollOnce (vs : List Value) : forM vs rollOnce = rollAll vs := by
  rw [rollAll, funext rollOnce_eq_roll]

/-- Values that stand for the same pins are rolled alike. -/
theorem rollAll_congr (h : vs.map (Pins.check fullRack) = ws.map (Pins.check fullRack)) :
    rollAll vs = rollAll ws := by
  induction vs generalizing ws with
  | nil =>
    obtain rfl := List.map_eq_nil_iff.mp h.symm
    rfl
  | cons v vs ih =>
    obtain ⟨w, ws, rfl, hwv, hrest⟩ := List.map_eq_cons_iff.mp h.symm
    have hroll : roll v = roll w := roll_congr hwv.symm
    have hall : forM vs roll = forM ws roll := ih hrest.symm
    rw [rollAll, rollAll, List.forM_cons, List.forM_cons, hroll, hall]

theorem exec_rollAll_cons_of_error (h : lane.game.roll v = .error cause) (vs : List Value) :
    (rollAll (v :: vs)).exec lane = (.error cause, lane) := by
  rw [rollAll, List.forM_cons, exec_bind, exec_roll_of_error h]

theorem exec_rollAll_cons_of_ok (h : lane.game.roll v = .ok (next, events)) (vs : List Value) :
    (rollAll (v :: vs)).exec lane = (rollAll vs).exec ⟨next, lane.log ++ events⟩ := by
  rw [rollAll, List.forM_cons, exec_bind_of_ok (exec_roll_of_ok h)]
  rfl

/-- Rolling on a lane comes to what playing on comes to. -/
theorem exec_rollAll (vs : List Value) (lane : Lane) :
    let played := lane.game.playOn vs
    let outcome := (rollAll vs).exec lane
    outcome.2.log = lane.log ++ played.events ∧
      played.result = outcome.1.map fun _ => outcome.2.game := by
  induction vs generalizing lane with
  | nil => exact ⟨(List.append_nil lane.log).symm, rfl⟩
  | cons v vs ih =>
    cases hroll : lane.game.roll v with
    | error cause =>
      rw [exec_rollAll_cons_of_error hroll, playOn_cons_of_error hroll]
      exact ⟨(List.append_nil lane.log).symm, rfl⟩
    | ok result =>
      obtain ⟨hlog, hresult⟩ := ih ⟨result.1, lane.log ++ result.2⟩
      rw [exec_rollAll_cons_of_ok hroll, playOn_cons_of_ok hroll]
      refine ⟨?_, hresult⟩
      rw [← List.append_assoc]
      exact hlog

end InPlace

theorem playOn_congr (h : vs.map (Pins.check fullRack) = ws.map (Pins.check fullRack))
    (game : Game) : game.playOn vs = game.playOn ws := by
  obtain ⟨hlog, hresult⟩ := InPlace.exec_rollAll vs ⟨game, []⟩
  obtain ⟨hlog', hresult'⟩ := InPlace.exec_rollAll ws ⟨game, []⟩
  rw [InPlace.rollAll_congr h] at hlog hresult
  have hevents : (game.playOn vs).events = (game.playOn ws).events := hlog.symm.trans hlog'
  have hsame : (game.playOn vs).result = (game.playOn ws).result := hresult.trans hresult'.symm
  rw [Played.ext_iff]
  exact ⟨hevents, hsame⟩

/-! ## Recorded rolls -/

namespace HasGrownBy

theorem refl (game : Game) (vs : List Value) : HasGrownBy game game vs :=
  fun _ => ⟨[], (List.append_nil _).symm, nofun⟩

theorem trans (hfirst : HasGrownBy game next vs) (hrest : HasGrownBy next later vs) :
    HasGrownBy game later vs := by
  intro i
  obtain ⟨first, hnext, hof⟩ := hfirst i
  obtain ⟨rest, hlater, hof'⟩ := hrest i
  refine ⟨first ++ rest, ?_, ?_⟩
  · rw [hlater, hnext, List.append_assoc]
  · intro pins hpins
    rcases List.mem_append.mp hpins with hpins | hpins
    · exact hof pins hpins
    · exact hof' pins hpins

theorem mono (h : HasGrownBy game later vs) (hsub : vs ⊆ ws) : HasGrownBy game later ws := by
  intro i
  obtain ⟨added, hrolls, hof⟩ := h i
  refine ⟨added, hrolls, ?_⟩
  intro pins hpins
  obtain ⟨v, hv, hcheck⟩ := hof pins hpins
  exact ⟨v, hsub hv, hcheck⟩

theorem of_roll (h : game.roll v = .ok (next, events)) : HasGrownBy game next [v] := by
  obtain ⟨pins, i, hpins, -, -, hframes⟩ := exists_frames_of_roll h
  intro j
  rw [frameAt_congr hframes]
  by_cases hj : j = i
  · subst j
    refine ⟨[pins], ?_, ?_⟩
    · rw [frameAt_setFrame_self, Frame.rolls_push]
    · simpa using hpins
  · rw [frameAt_setFrame_of_ne game (Ne.symm hj)]
    exact HasGrownBy.refl game [v] j

theorem exec_rollAll (vs : List Value) (lane : Lane) :
    HasGrownBy lane.game ((InPlace.rollAll vs).exec lane).2.game vs := by
  induction vs generalizing lane with
  | nil => exact refl lane.game []
  | cons v vs ih =>
    cases hroll : lane.game.roll v with
    | error cause =>
      rw [InPlace.exec_rollAll_cons_of_error hroll]
      exact refl lane.game (v :: vs)
    | ok result =>
      rw [InPlace.exec_rollAll_cons_of_ok hroll]
      have hfirst : HasGrownBy lane.game result.1 (v :: vs) := (of_roll hroll).mono (by simp)
      have hrest := (ih ⟨result.1, lane.log ++ result.2⟩).mono (List.subset_cons_self v vs)
      exact hfirst.trans hrest

end HasGrownBy

/-! ## Values and integers -/

/-- On any lane, also one that has been changed without a check, a value is rolled as the
integer that it stands for, and a value that stands for none is refused by the roll as by the
check before it.  So playing a list comes to rolling its values as they are; lists that stand
for the same integers come to the same game; and only these integers are recorded. -/
theorem spelling_doesNotMatter (lane : Lane) (vs : List Value) :
    (∀ v pins, Pins.check fullRack v = .ok pins →
      Pins.check fullRack (.int pins) = .ok pins ∧
        (InPlace.roll v).exec lane = (InPlace.roll (.int pins)).exec lane ∧
        ∀ i, (InPlace.takeRoll i v).exec lane = (InPlace.takeRoll i (.int pins)).exec lane) ∧
    (∀ v rejection, Pins.check fullRack v = .error rejection →
      (InPlace.checkPins v).exec lane = (.error (.badPins rejection), lane) ∧
        (InPlace.roll v).exec lane = (.error (.badPins rejection), lane)) ∧
    (let outcome := (InPlace.play vs).exec lane
      let played := lane.game.playOn vs
      outcome = (InPlace.rollAll vs).exec lane ∧
        outcome = (forM vs InPlace.rollOnce : InPlace Unit).exec lane ∧
        played.result = lane.game.rollEach vs ∧
        played.result = (outcome.1.map fun _ => outcome.2.game) ∧
        outcome.2.log = lane.log ++ played.events ∧
        HasGrownBy lane.game outcome.2.game vs) ∧
    (∀ ws, ws.map (Pins.check fullRack) = vs.map (Pins.check fullRack) →
      (InPlace.play ws).exec lane = (InPlace.play vs).exec lane ∧
        lane.game.playOn ws = lane.game.playOn vs ∧
        (lane.game.playOn ws).result.map summary = (lane.game.playOn vs).result.map summary ∧
        (lane.game.playOn ws).result.map display = (lane.game.playOn vs).result.map display) ∧
    ∀ game, (Game.play vs).result = .ok game →
      vs.map (Pins.check fullRack) = (Scoring.rollsOf game.frames).map .ok := by
  refine ⟨?_, ?_, ?_, ?_, ?_⟩
  · intro v pins hpins
    refine ⟨Pins.check_int_of_check hpins, by rw [InPlace.roll_of_check hpins], ?_⟩
    intro i
    rw [InPlace.takeRoll_of_check hpins]
  · intro v rejection hpins
    have hroll := roll_eq_error_of_check hpins lane.game
    exact ⟨InPlace.exec_checkPins_of_error hpins lane, InPlace.exec_roll_of_error hroll⟩
  · intro outcome played
    have hraw : outcome = (InPlace.rollAll vs).exec lane := by
      rw [← InPlace.play_eq_rollAll]
    obtain ⟨hlog, hresult⟩ := InPlace.exec_rollAll vs lane
    rw [← hraw] at hlog hresult
    have honce : outcome = (forM vs InPlace.rollOnce : InPlace Unit).exec lane := by
      rw [InPlace.forM_rollOnce, hraw]
    refine ⟨hraw, honce, result_playOn lane.game vs, hresult, hlog, ?_⟩
    rw [hraw]
    exact HasGrownBy.exec_rollAll vs lane
  · intro ws hws
    have hplay : lane.game.playOn ws = lane.game.playOn vs := playOn_congr hws lane.game
    rw [InPlace.play_eq_rollAll, InPlace.play_eq_rollAll, InPlace.rollAll_congr hws, hplay]
    exact ⟨rfl, rfl, rfl, rfl⟩
  · intro game hgame
    rw [Game.play, result_playOn] at hgame
    rw [← afterRolls_of_rollEach hgame, ← map_check_taken, taken_of_rollEach hgame]

/-- Seven, three and four in three spellings, in a first frame that was given three pins and with
a cursor that counts from the end. -/
theorem spelling_doesNotMatter_of_mixedSpellings :
    let lane := Lane.new.run [.assign 0 (some [3]) none, .setCursor (-10) 7]
    let vs : List Value :=
      [.text " 7 ", .float ⟨false, 0x4008000000000000, by decide⟩, .bytes [0x34]]
    let ws : List Value := [.int 7, .int 3, .int 4]
    let game := Game.new.afterRolls ws
    ws.map (Pins.check fullRack) = vs.map (Pins.check fullRack) ∧
      (InPlace.play ws).exec lane = (InPlace.play vs).exec lane ∧
      ((InPlace.play vs).exec lane).2.game.frames.take 2 = [⟨[3, 7], false⟩, ⟨[3, 4], false⟩] ∧
      (InPlace.roll (.text " 7 ")).exec lane = (InPlace.roll (.int 7)).exec lane ∧
      (InPlace.roll (.bool true)).exec lane = (.error (.badPins .truthValue), lane) ∧
      (Game.play vs).result = .ok game ∧
      vs.map (Pins.check fullRack) = (Scoring.rollsOf game.frames).map .ok := by
  intro lane vs ws game
  have hseven : Pins.check fullRack (.text " 7 ") = .ok 7 := rfl
  have hthree : Pins.check fullRack (.float ⟨false, 0x4008000000000000, by decide⟩) = .ok 3 :=
    Pins.check_eq_ok_iff.mpr (by decide +kernel)
  have hvs : vs.map (Pins.check fullRack) = [.ok 7, .ok 3, .ok 4] := by
    rw [List.map_cons, List.map_cons, hseven, hthree]
    rfl
  have hsame : ws.map (Pins.check fullRack) = vs.map (Pins.check fullRack) := by
    rw [hvs]
    rfl
  have hgame : (Game.play vs).result = .ok game := by
    rw [Game.play, playOn_congr hsame.symm]
    rfl
  obtain ⟨hok, herror, -, hspelled, hrecorded⟩ := spelling_doesNotMatter lane vs
  obtain ⟨hplay, -, -, -⟩ := hspelled ws hsame
  refine ⟨hsame, hplay, ?_, (hok (.text " 7 ") 7 hseven).2.1,
    (herror (.bool true) .truthValue rfl).2, hgame, hrecorded game hgame⟩
  rw [← hplay]
  rfl

end Pinfall.Game
