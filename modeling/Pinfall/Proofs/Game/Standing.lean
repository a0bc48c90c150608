import Pinfall.Proofs.Game.Rolling

/-!
# Where a game stands

A game that is played from its beginning consists of the frames that have ended,
the frame under way, and frames as they were in a new game.  `StandsAt` says so,
with the cursor at the frame under way.  It is kept by every roll that is taken:
the frame under way takes the roll, and when an ordinary frame has ended with it,
an empty one is under way.  Hence every game that rolls lead to stands somewhere,
and its rolls are those of the ended frames and of the frame under way.
-/

namespace Pinfall.Game

variable {game next : Game} {ended : List Frame} {current : Frame} {v : Value}
  {events : List Event} {pins : Int} {i : Fin 10}

/-- The given frames have ended, and the given one is under way. -/
structure StandsAt (game : Game) (ended : List Frame) (current : Frame) : Prop where
  frames_eq : game.frames = ended ++ current :: new.frames.drop (ended.length + 1)
  frameCursor_eq : game.frameCursor = ended.length
  rollCursor_eq : game.rollCursor = current.rolls.length
  ended_whole : ∀ frame ∈ ended, frame.isLast = false ∧ frame.IsWhole
  current_isLast : current.isLast = decide (ended.length = 9)
  current_open_or_last : current.IsOpen ∨ current.isLast = true ∧ current.IsWhole

/-! ## The frames of a game by their position -/

theorem getElem?_frames (game : Game) (i : Fin 10) :
    game.frames[(i : Nat)]? = some (game.frameAt i) := by
  simp [frameAt]

theorem frameAt_mem_frames (game : Game) (i : Fin 10) : game.frameAt i ∈ game.frames :=
  List.mem_of_getElem? (game.getElem?_frames i)

theorem getElem?_lastFrame (game : Game) : game.frames[9]? = some game.lastFrame :=
  game.getElem?_frames 9

theorem frameAt_eq_of_getElem? {frame : Frame}
    (h : game.frames[(i : Nat)]? = some frame) : game.frameAt i = frame := by
  rw [getElem?_frames] at h
  exact Option.some.inj h

theorem frameAt_congr {other : Game} (h : game.frames = other.frames) (i : Fin 10) :
    game.frameAt i = other.frameAt i := by
  apply frameAt_eq_of_getElem?
  rw [h]
  exact other.getElem?_frames i

theorem frameAt_self_of_frames {frame : Frame} (h : next.frames = (game.setFrame i frame).frames) :
    next.frameAt i = frame := by
  rw [frameAt_congr h, frameAt_setFrame_self]

theorem frameAt_of_frames_of_ne {frame : Frame} {j : Fin 10}
    (h : next.frames = (game.setFrame i frame).frames) (hj : j ≠ i) :
    next.frameAt j = game.frameAt j := by
  rw [frameAt_congr h, frameAt_setFrame_of_ne game hj.symm]

/-- From any of its places on, a new game has an empty frame and then others. -/
theorem drop_frames_new {k : Nat} (hk : k ≤ 9) :
    new.frames.drop k = ⟨[], decide (k = 9)⟩ :: new.frames.drop (k + 1) := by
  have hall : ∀ k : Fin 10, new.frames.drop (k : Nat) =
      ⟨[], decide ((k : Nat) = 9)⟩ :: new.frames.drop ((k : Nat) + 1) := by decide
  exact hall ⟨k, by omega⟩

theorem rolls_of_mem_frames_new {frame : Frame} (h : frame ∈ new.frames) :
    frame.rolls = [] := by
  have hall : ∀ frame ∈ new.frames, frame.rolls = [] := by decide
  exact hall frame h

theorem rollsOf_drop_frames_new (k : Nat) : Scoring.rollsOf (new.frames.drop k) = [] := by
  rw [Scoring.rollsOf, List.flatMap_eq_nil_iff]
  intro frame hframe
  exact rolls_of_mem_frames_new (List.mem_of_mem_drop hframe)

theorem standsAt_new : new.StandsAt [] {} where
  frames_eq := rfl
  frameCursor_eq := rfl
  rollCursor_eq := rfl
  ended_whole := by simp
  current_isLast := rfl
  current_open_or_last := Or.inl Frame.IsOpen.unplayed

namespace StandsAt

theorem length_ended_le (h : game.StandsAt ended current) : ended.length ≤ 9 := by
  have hlength := game.length_frames
  rw [h.frames_eq] at hlength
  simp only [List.length_append, List.length_cons] at hlength
  omega

theorem length_ended_eq (h : game.StandsAt ended current) (hlast : current.isLast = true) :
    ended.length = 9 := by
  simpa [hlast] using h.current_isLast

theorem length_ended_lt (h : game.StandsAt ended current) (hordinary : current.isLast = false) :
    ended.length < 9 := by
  have hle := h.length_ended_le
  have hne : ended.length ≠ 9 := by simpa [hordinary] using h.current_isLast
  omega

/-- An ordinary frame under way takes another roll. -/
theorem current_isOpen (h : game.StandsAt ended current) (hordinary : current.isLast = false) :
    current.IsOpen := by
  simpa [hordinary] using h.current_open_or_last

theorem current_isLegal (h : game.StandsAt ended current) : current.IsLegal := by
  rcases h.current_open_or_last with hopen | ⟨-, hwhole⟩
  · exact Or.inl hopen
  · exact Or.inr hwhole

theorem getElem?_current (h : game.StandsAt ended current) :
    game.frames[ended.length]? = some current := by
  rw [h.frames_eq]
  simp

theorem frameAt_current (h : game.StandsAt ended current)
    (hi : (i : Nat) = ended.length) : game.frameAt i = current := by
  apply frameAt_eq_of_getElem?
  rw [hi]
  exact h.getElem?_current

/-- The cursor is at the frame under way. -/
theorem exists_position? (h : game.StandsAt ended current) :
    ∃ i : Fin 10, (i : Nat) = ended.length ∧ position? game.frameCursor = some i := by
  have hle := h.length_ended_le
  refine ⟨⟨ended.length, by omega⟩, rfl, ?_⟩
  rw [h.frameCursor_eq]
  exact position?_natCast ⟨ended.length, by omega⟩

/-- The position at the cursor is that behind the ended frames. -/
theorem position_eq (h : game.StandsAt ended current) (hi : position? game.frameCursor = some i) :
    (i : Nat) = ended.length := by
  obtain ⟨k, hk, hposition⟩ := h.exists_position?
  obtain rfl : k = i := Option.some.inj (hposition.symm.trans hi)
  exact hk

theorem rollsOf_frames (h : game.StandsAt ended current) :
    Scoring.rollsOf game.frames = Scoring.rollsOf ended ++ current.rolls := by
  rw [h.frames_eq, Scoring.rollsOf_append, Scoring.rollsOf_cons, rollsOf_drop_frames_new,
    List.append_nil]

/-- The game is over as soon as the frame under way takes no more rolls. -/
theorem isOver_eq (h : game.StandsAt ended current) : game.isOver = current.isComplete := by
  have hcursor := h.frameCursor_eq
  by_cases hlast : current.isLast = true
  · have hnine := h.length_ended_eq hlast
    have hcurrent : game.lastFrame = current := h.frameAt_current hnine.symm
    have hat : ¬game.frameCursor < 9 := by omega
    rw [isOver, if_neg hat, hcurrent, Frame.isComplete, if_pos hlast]
  · have hordinary : current.isLast = false := by simpa using hlast
    have hbefore : game.frameCursor < 9 := by
      have hlt := h.length_ended_lt hordinary
      omega
    rw [isOver, if_pos hbefore, (h.current_isOpen hordinary).isComplete_eq_false]

/-! ## The frames before and after the cursor -/

/-- Each frame that has ended holds one roll or two. -/
theorem length_rolls_of_mem_ended (h : game.StandsAt ended current) {frame : Frame}
    (hframe : frame ∈ ended) : 1 ≤ frame.rolls.length ∧ frame.rolls.length ≤ 2 := by
  obtain ⟨hordinary, hwhole⟩ := h.ended_whole frame hframe
  exact ⟨hwhole.one_le_length_rolls, hwhole.length_rolls_ordinary hordinary⟩

theorem frameAt_mem_ended (h : game.StandsAt ended current) (hi : (i : Nat) < ended.length) :
    game.frameAt i ∈ ended := by
  have hat := getElem?_frames game i
  rw [h.frames_eq, List.getElem?_append_left hi] at hat
  exact List.mem_of_getElem? hat

theorem frameAt_of_gt (h : game.StandsAt ended current) (hi : ended.length < (i : Nat)) :
    game.frameAt i = new.frameAt i := by
  apply frameAt_eq_of_getElem?
  obtain ⟨k, hk⟩ : ∃ k, (i : Nat) = ended.length + (k + 1) :=
    ⟨i - ended.length - 1, by omega⟩
  have hnew := getElem?_frames new i
  rw [hk] at hnew ⊢
  rw [h.frames_eq, List.getElem?_append_right (Nat.le_add_right _ _), Nat.add_sub_cancel_left,
    List.getElem?_cons_succ, List.getElem?_drop]
  rw [show ended.length + 1 + k = ended.length + (k + 1) by omega]
  exact hnew

theorem rolls_frameAt_of_gt (h : game.StandsAt ended current) (hi : ended.length < (i : Nat)) :
    (game.frameAt i).rolls = [] := by
  rw [h.frameAt_of_gt hi]
  exact rolls_of_mem_frames_new (new.frameAt_mem_frames i)

theorem isLast_frameAt (h : game.StandsAt ended current) (i : Fin 10) :
    (game.frameAt i).isLast = decide (i = 9) := by
  have hle := h.length_ended_le
  rcases Nat.lt_trichotomy i ended.length with hlt | heq | hgt
  · have hne : i ≠ 9 := by omega
    rw [(h.ended_whole _ (h.frameAt_mem_ended hlt)).1]
    simp [hne]
  · rw [h.frameAt_current heq, h.current_isLast, decide_eq_decide]
    omega
  · have hall : ∀ i : Fin 10, (new.frameAt i).isLast = decide (i = 9) := by decide
    rw [h.frameAt_of_gt hgt, hall i]

theorem frameAt_isLegal (h : game.StandsAt ended current) (i : Fin 10) :
    (game.frameAt i).IsLegal := by
  rcases Nat.lt_trichotomy i ended.length with hlt | heq | hgt
  · exact Or.inr (h.ended_whole _ (h.frameAt_mem_ended hlt)).2
  · rw [h.frameAt_current heq]
    exact h.current_isLegal
  · exact Frame.isLegal_of_rolls_eq_nil (h.rolls_frameAt_of_gt hgt)

/-! ## One roll -/

theorem frames_recorded (h : game.StandsAt ended current)
    (hi : (i : Nat) = ended.length) (frame : Frame) :
    (game.recorded i frame).frames =
      ended ++ frame :: new.frames.drop (ended.length + 1) := by
  simp [recorded, h.frames_eq, hi]

/-- The frame under way has taken a roll and stays under way. -/
theorem recorded_push (h : game.StandsAt ended current)
    (hi : (i : Nat) = ended.length)
    (hform : (current.push pins).IsOpen ∨ current.isLast = true ∧ (current.push pins).IsWhole) :
    (game.recorded i (current.push pins)).StandsAt ended (current.push pins) where
  frames_eq := h.frames_recorded hi _
  frameCursor_eq := h.frameCursor_eq
  rollCursor_eq := by simp [recorded, setCursor, h.rollCursor_eq]
  ended_whole := h.ended_whole
  current_isLast := h.current_isLast
  current_open_or_last := hform

/-- The frame under way has ended with a roll, and the next one is under way. -/
theorem advance_push (h : game.StandsAt ended current)
    (hi : (i : Nat) = ended.length) (hordinary : current.isLast = false)
    (hwhole : (current.push pins).IsWhole) :
    ((game.recorded i (current.push pins)).setCursor (game.frameCursor + 1) 0).StandsAt
      (ended ++ [current.push pins]) ⟨[], decide (ended.length + 1 = 9)⟩ := by
  have hbefore : ended.length + 1 ≤ 9 := h.length_ended_lt hordinary
  exact
    { frames_eq := by
        rw [frames_setCursor, h.frames_recorded hi, drop_frames_new hbefore]
        simp
      frameCursor_eq := by simp [setCursor, h.frameCursor_eq]
      rollCursor_eq := by simp [setCursor]
      ended_whole := by
        intro frame hframe
        rcases List.mem_append.mp hframe with hold | hnew
        · exact h.ended_whole frame hold
        · rw [List.mem_singleton.mp hnew]
          exact ⟨hordinary, hwhole⟩
      current_isLast := by simp
      current_open_or_last := Or.inl Frame.IsOpen.unplayed }

/-- When the frame under way has taken a roll, it stays under way, or the next one is
under way because an ordinary frame has ended. -/
theorem settle_push (h : game.StandsAt ended current) (hi : (i : Nat) = ended.length)
    (hlegal : (current.push pins).IsLegal)
    (hsettle : game.settle i (current.push pins) = (next, events)) :
    (next.StandsAt ended (current.push pins) ∧
        events = if next.isOver then [.gameOver next.score] else []) ∨
      (next.StandsAt (ended ++ [current.push pins]) ⟨[], decide (ended.length + 1 = 9)⟩ ∧
        current.isLast = false ∧ (current.push pins).IsWhole ∧
        events = [.frameComplete (ended.length + 1) (current.push pins)]) := by
  have hcursor := h.frameCursor_eq
  by_cases hmove : current.isLast = false ∧ (current.push pins).IsWhole
  · obtain ⟨hordinary, hwhole⟩ := hmove
    have hlt := h.length_ended_lt hordinary
    rw [settle_of_isComplete hwhole.isComplete_eq_true (by omega)] at hsettle
    obtain ⟨rfl, rfl⟩ := Prod.mk.inj hsettle
    refine Or.inr ⟨h.advance_push hi hordinary hwhole, hordinary, hwhole, ?_⟩
    rw [currentFrame, h.frameCursor_eq]
  · have hform : (current.push pins).IsOpen ∨
        current.isLast = true ∧ (current.push pins).IsWhole := by
      rcases hlegal with hstill | hwhole
      · exact Or.inl hstill
      · have hlast : current.isLast ≠ false := fun hordinary => hmove ⟨hordinary, hwhole⟩
        exact Or.inr ⟨by simpa using hlast, hwhole⟩
    have hstay : (current.push pins).isComplete = false ∨ 9 ≤ game.frameCursor := by
      rcases hform with hstill | ⟨hlast, -⟩
      · exact Or.inl hstill.isComplete_eq_false
      · have hnine := h.length_ended_eq hlast
        exact Or.inr (by omega)
    rw [settle_of_not_isComplete hstay] at hsettle
    obtain ⟨rfl, rfl⟩ := Prod.mk.inj hsettle
    exact Or.inl ⟨h.recorded_push hi hform, rfl⟩

/-- What a roll that is taken comes to: the frame under way takes it, and the game
moves on to the next frame if an ordinary one has ended. -/
theorem of_roll (h : game.StandsAt ended current) (hroll : game.roll v = .ok (next, events)) :
    ∃ pins, Pins.check fullRack v = .ok pins ∧ current.IsOpen ∧ pins ≤ current.remaining ∧
      ((next.StandsAt ended (current.push pins) ∧
          events = if next.isOver then [.gameOver next.score] else []) ∨
        (next.StandsAt (ended ++ [current.push pins]) ⟨[], decide (ended.length + 1 = 9)⟩ ∧
          current.isLast = false ∧ (current.push pins).IsWhole ∧
          events = [.frameComplete (ended.length + 1) (current.push pins)])) := by
  obtain ⟨pins, i, frame, hpins, -, hposition, hframe, hsettle⟩ := roll_eq_ok_iff.mp hroll
  have hi := h.position_eq hposition
  rw [h.frameAt_current hi] at hframe
  obtain ⟨pins', hpins', hcomplete, hstanding, rfl⟩ := Frame.addRoll_eq_ok_iff.mp hframe
  obtain rfl : pins = pins' :=
    Except.ok.inj ((Pins.check_int_of_check hpins).symm.trans hpins')
  have hopen : current.IsOpen := h.current_isLegal.isOpen_iff.mpr hcomplete
  have hlegal : (current.push pins).IsLegal :=
    hopen.isLegal_push (Pins.bounds_of_check hpins).1 hstanding
  exact ⟨pins, hpins, hopen, hstanding, h.settle_push hi hlegal hsettle⟩

/-- An open frame under way takes every number of pins up to those that stand. -/
theorem exists_roll_eq_ok (h : game.StandsAt ended current)
    (hpins : Pins.check fullRack v = .ok pins) (hopen : current.IsOpen)
    (hstanding : pins ≤ current.remaining) : ∃ next events, game.roll v = .ok (next, events) := by
  obtain ⟨i, hi, hposition⟩ := h.exists_position?
  have hover : game.isOver = false := by rw [h.isOver_eq, hopen.isComplete_eq_false]
  have hadd : (game.frameAt i).addRoll (.int pins) = .ok (current.push pins) := by
    rw [h.frameAt_current hi]
    exact Frame.addRoll_eq_ok_iff.mpr
      ⟨pins, Pins.check_int_of_check hpins, hopen.isComplete_eq_false, hstanding, rfl⟩
  exact ⟨_, _, roll_eq_settle hpins hover hposition hadd⟩

end StandsAt

/-- The game stands somewhere: it has come about by the rules. -/
def IsUnderWay (game : Game) : Prop :=
  ∃ ended current, game.StandsAt ended current

theorem isUnderWay_new : new.IsUnderWay :=
  ⟨[], {}, standsAt_new⟩

theorem IsUnderWay.isLast_frameAt (h : game.IsUnderWay) (i : Fin 10) :
    (game.frameAt i).isLast = decide (i = 9) := by
  obtain ⟨ended, current, hstands⟩ := h
  exact hstands.isLast_frameAt i

theorem IsUnderWay.of_roll (h : game.IsUnderWay) (hroll : game.roll v = .ok (next, events)) :
    next.IsUnderWay := by
  obtain ⟨ended, current, hstands⟩ := h
  obtain ⟨pins, -, -, -, ⟨hnext, -⟩ | ⟨hnext, -⟩⟩ := hstands.of_roll hroll
  · exact ⟨_, _, hnext⟩
  · exact ⟨_, _, hnext⟩

/-- A roll that is taken comes after all rolls before it. -/
theorem IsUnderWay.rollsOf_frames_of_roll (h : game.IsUnderWay)
    (hroll : game.roll v = .ok (next, events)) :
    ∃ pins, Pins.check fullRack v = .ok pins ∧
      Scoring.rollsOf next.frames = Scoring.rollsOf game.frames ++ [pins] := by
  obtain ⟨ended, current, hstands⟩ := h
  obtain ⟨pins, hpins, -, -, ⟨hnext, -⟩ | ⟨hnext, -⟩⟩ := hstands.of_roll hroll
  · refine ⟨pins, hpins, ?_⟩
    rw [hnext.rollsOf_frames, hstands.rollsOf_frames, Frame.rolls_push, List.append_assoc]
  · refine ⟨pins, hpins, ?_⟩
    rw [hnext.rollsOf_frames, hstands.rollsOf_frames]
    simp

/-- Every game that rolls lead to stands somewhere. -/
theorem isUnderWay_afterRolls (vs : List Value) : (new.afterRolls vs).IsUnderWay :=
  afterRolls_induction isUnderWay_new (fun h hroll => h.of_roll hroll) vs

end Pinfall.Game
