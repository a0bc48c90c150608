import Pinfall.Proofs.Game.Standing

/-!
# Scores by a sliding window

The classic way to score a game knows no frames, but only the list of all rolls: a
window moves over it from the first roll of a frame to the first roll of the next
one, by one roll after a strike and by two otherwise, and the score is read off the
three rolls in it.  The tenth frame is scored like the others.  In every game that
rolls lead to, also an unfinished one, this gives the scores of its frames.
-/

namespace Pinfall.Scoring

variable {frame : Frame} {following : List Frame} {rolls rest : List Int}

/-- The pins of the roll with the given number, counted from zero.  Rolls that are
still missing count as zero. -/
def pinsAt (rolls : List Int) (k : Nat) : Int :=
  rolls[k]?.getD 0

/-- The score of the frame whose first roll has the given number. -/
def windowScore (pins : Nat → Int) (start : Nat) : Int :=
  if pins start = 10 then 10 + pins (start + 1) + pins (start + 2)
  else if pins start + pins (start + 1) = 10 then 10 + pins (start + 2)
  else pins start + pins (start + 1)

/-- The number of the first roll of the next frame. -/
def nextStart (pins : Nat → Int) (start : Nat) : Nat :=
  if pins start = 10 then start + 1 else start + 2

/-- The scores of so many frames, the first of which begins with the given roll. -/
def windowScores (pins : Nat → Int) : Nat → Nat → List Int
  | 0, _ => []
  | count + 1, start =>
    windowScore pins start :: windowScores pins count (nextStart pins start)

/-! ## Rolls by their number -/

@[simp] theorem pinsAt_cons_zero (a : Int) (rolls : List Int) : pinsAt (a :: rolls) 0 = a := rfl

@[simp] theorem pinsAt_cons_succ (a : Int) (rolls : List Int) (k : Nat) :
    pinsAt (a :: rolls) (k + 1) = pinsAt rolls k := rfl

theorem pinsAt_of_length_le {k : Nat} (h : rolls.length ≤ k) : pinsAt rolls k = 0 := by
  rw [pinsAt, List.getElem?_eq_none h]
  rfl

@[simp] theorem pinsAt_nil (k : Nat) : pinsAt [] k = 0 :=
  pinsAt_of_length_le (Nat.zero_le k)

theorem pinsAt_append_add (rolls rest : List Int) (k : Nat) :
    pinsAt (rolls ++ rest) (rolls.length + k) = pinsAt rest k := by
  rw [pinsAt, List.getElem?_append_right (Nat.le_add_right _ _), Nat.add_sub_cancel_left]
  rfl

theorem total_take_one (rolls : List Int) : Number.total (rolls.take 1) = pinsAt rolls 0 := by
  cases rolls with
  | nil => rfl
  | cons a rolls => simp

theorem total_take_two (rolls : List Int) :
    Number.total (rolls.take 2) = pinsAt rolls 0 + pinsAt rolls 1 := by
  cases rolls with
  | nil => rfl
  | cons a rolls =>
    rw [List.take_succ_cons, Number.total_cons, total_take_one]
    rfl

/-! ## The window over a part of the rolls -/

theorem windowScore_append (rolls rest : List Int) (start : Nat) :
    windowScore (pinsAt (rolls ++ rest)) (rolls.length + start) =
      windowScore (pinsAt rest) start := by
  simp only [windowScore, Nat.add_assoc, pinsAt_append_add]

theorem nextStart_append (rolls rest : List Int) (start : Nat) :
    nextStart (pinsAt (rolls ++ rest)) (rolls.length + start) =
      rolls.length + nextStart (pinsAt rest) start := by
  unfold nextStart
  rw [pinsAt_append_add]
  split
  · rw [Nat.add_assoc]
  · rw [Nat.add_assoc]

/-- Behind the first rolls the window sees only the others. -/
theorem windowScores_append (rolls rest : List Int) (count start : Nat) :
    windowScores (pinsAt (rolls ++ rest)) count (rolls.length + start) =
      windowScores (pinsAt rest) count start := by
  induction count generalizing start with
  | zero => rfl
  | succ count ih =>
    rw [windowScores, windowScores, windowScore_append, nextStart_append, ih]

/-- Behind the last roll the window sees only zeros. -/
theorem windowScores_of_length_le {start : Nat} (h : rolls.length ≤ start) (count : Nat) :
    windowScores (pinsAt rolls) count start = List.replicate count 0 := by
  induction count generalizing start with
  | zero => rfl
  | succ count ih =>
    have hzero (k : Nat) : pinsAt rolls (start + k) = 0 := pinsAt_of_length_le (by omega)
    have hscore : windowScore (pinsAt rolls) start = 0 := by
      simp [windowScore, hzero, pinsAt_of_length_le h]
    have hnext : nextStart (pinsAt rolls) start = start + 2 := by
      simp [nextStart, pinsAt_of_length_le h]
    rw [windowScores, hscore, hnext, ih (by omega), List.replicate_succ]

/-! ## The scores of single frames -/

theorem frameScore_strike (following : List Frame) :
    frameScore ⟨[10], false⟩ following =
      10 + pinsAt (rollsOf following) 0 + pinsAt (rollsOf following) 1 := by
  have hbonus : bonusRolls ⟨[10], false⟩ = 2 := rfl
  rw [frameScore, hbonus, total_take_two]
  simp [Frame.pinfall]
  omega

theorem frameScore_spare {a b : Int} (ha9 : a ≤ 9) (hspare : a + b = 10)
    (following : List Frame) :
    frameScore ⟨[a, b], false⟩ following = 10 + pinsAt (rollsOf following) 0 := by
  have hne : a ≠ 10 := by omega
  have hbonus : bonusRolls ⟨[a, b], false⟩ = 1 := by simp [bonusRolls, hne, hspare]
  rw [frameScore, hbonus, total_take_one]
  simp [Frame.pinfall, hspare]

theorem frameScore_twoRolls {a b : Int} (ha9 : a ≤ 9) (hopen : a + b ≠ 10)
    (following : List Frame) : frameScore ⟨[a, b], false⟩ following = a + b := by
  have hne : a ≠ 10 := by omega
  have hbonus : bonusRolls ⟨[a, b], false⟩ = 0 := by simp [bonusRolls, hne, hopen]
  rw [frameScore, hbonus]
  simp [Frame.pinfall]

theorem frameScore_oneRoll {a : Int} (ha9 : a ≤ 9) (following : List Frame) :
    frameScore ⟨[a], false⟩ following = a := by
  have hne : a ≠ 10 := by omega
  have hbonus : bonusRolls ⟨[a], false⟩ = 0 := by simp [bonusRolls, hne]
  rw [frameScore, hbonus]
  simp [Frame.pinfall]

theorem frameScore_of_rolls_eq_nil (h : frame.rolls = []) (following : List Frame) :
    frameScore frame following = 0 := by
  obtain ⟨rolls, isLast⟩ := frame
  obtain rfl : rolls = [] := h
  simp [frameScore, bonusRolls, Frame.pinfall]

/-- The last frame scores its own pins, each of its rolls once. -/
theorem frameScore_of_isLast (h : frame.isLast = true) (following : List Frame) :
    frameScore frame following = Number.total frame.rolls := by
  have hbonus : bonusRolls frame = 0 := by simp [bonusRolls, h]
  rw [frameScore, hbonus]
  simp [Frame.pinfall]

theorem frameScores_of_rolls_eq_nil {frames : List Frame}
    (h : ∀ frame ∈ frames, frame.rolls = []) :
    frameScores frames = List.replicate frames.length 0 := by
  induction frames with
  | nil => rfl
  | cons frame frames ih =>
    rw [frameScores, frameScore_of_rolls_eq_nil (h frame List.mem_cons_self),
      ih (fun other hother => h other (List.mem_cons_of_mem _ hother)), List.length_cons,
      List.replicate_succ]

theorem getElem?_frameScores (frames : List Frame) (i : Nat) :
    (frameScores frames)[i]? =
      frames[i]?.map fun frame => frameScore frame (frames.drop (i + 1)) := by
  induction frames generalizing i with
  | nil => rfl
  | cons frame frames ih =>
    cases i with
    | zero => rfl
    | succ i => exact ih i

/-! ## The window over the frames of a game -/

/-- The window scores a whole ordinary frame, and goes on with the next one. -/
theorem windowScores_of_ordinaryFrame (h : OrdinaryFrame rolls) (following : List Frame)
    (count : Nat) :
    windowScores (pinsAt (rolls ++ rollsOf following)) (count + 1) 0 =
      frameScore ⟨rolls, false⟩ following ::
        windowScores (pinsAt (rollsOf following)) count 0 := by
  have hrest := windowScores_append rolls (rollsOf following) count 0
  cases h with
  | strike =>
    have hscore : windowScore (pinsAt ([10] ++ rollsOf following)) 0 =
        frameScore ⟨[10], false⟩ following := by
      rw [frameScore_strike]
      simp [windowScore]
    have hnext : nextStart (pinsAt ([10] ++ rollsOf following)) 0 = 1 := by simp [nextStart]
    rw [windowScores, hscore, hnext]
    exact congrArg _ hrest
  | @twoRolls a b ha ha9 hb hab =>
    have hne : a ≠ 10 := by omega
    have hscore : windowScore (pinsAt ([a, b] ++ rollsOf following)) 0 =
        frameScore ⟨[a, b], false⟩ following := by
      by_cases hspare : a + b = 10
      · rw [frameScore_spare ha9 hspare]
        simp [windowScore, hne, hspare]
      · rw [frameScore_twoRolls ha9 hspare]
        simp [windowScore, hne, hspare]
    have hnext : nextStart (pinsAt ([a, b] ++ rollsOf following)) 0 = 2 := by
      simp [nextStart, hne]
    rw [windowScores, hscore, hnext]
    exact congrArg _ hrest

/-- The window scores a last frame by its own pins, as far as it has come. -/
theorem windowScore_of_last (h : Frame.IsLegal ⟨rolls, true⟩) :
    windowScore (pinsAt rolls) 0 = Number.total rolls := by
  rcases h with hopen | hwhole
  · cases hopen with
    | unplayed => rfl
    | @oneRoll _ a ha ha9 =>
      have hne : a ≠ 10 := by omega
      simp [windowScore, hne]
    | lastStrike => rfl
    | @lastSpare a ha ha9 =>
      have hne : a ≠ 10 := by omega
      have hspare : a + (10 - a) = 10 := by omega
      simp [windowScore, hne, hspare]
    | lastFillBall => simp [windowScore]
  · cases Frame.isWhole_last.mp hwhole with
    | @twoRolls a b ha hb hab =>
      have hne : a ≠ 10 := by omega
      have hopen : a + b ≠ 10 := by omega
      simp [windowScore, hne, hopen]
    | @spare a c ha ha9 hc hc10 =>
      have hne : a ≠ 10 := by omega
      have hspare : a + (10 - a) = 10 := by omega
      simp [windowScore, hne, hspare]
      omega
    | twoStrikes => simp [windowScore]; omega
    | strike => simp [windowScore]; omega

/-- An open ordinary frame is scored by what it has so far, and the empty frames after
it by nothing. -/
theorem frameScores_of_isOpen (hopen : frame.IsOpen) (hordinary : frame.isLast = false)
    (hempty : ∀ other ∈ following, other.rolls = []) :
    frameScores (frame :: following) =
      windowScores (pinsAt frame.rolls) (following.length + 1) 0 := by
  rw [frameScores, frameScores_of_rolls_eq_nil hempty]
  cases hopen with
  | unplayed =>
    have hzeros : windowScores (pinsAt []) (following.length + 1) 0 =
        List.replicate (following.length + 1) 0 := windowScores_of_length_le (Nat.le_refl _) _
    rw [frameScore_of_rolls_eq_nil rfl]
    exact hzeros.symm
  | @oneRoll isLast a ha ha9 =>
    obtain rfl : isLast = false := hordinary
    have hne : a ≠ 10 := by omega
    have hscore : windowScore (pinsAt [a]) 0 = a := by simp [windowScore, hne]
    have hnext : nextStart (pinsAt [a]) 0 = 2 := by simp [nextStart, hne]
    rw [frameScore_oneRoll ha9, windowScores, hscore, hnext,
      windowScores_of_length_le (by simp)]
  | lastStrike => contradiction
  | lastSpare => contradiction
  | lastFillBall => contradiction

/-- Whole ordinary frames keep the window in step with the frames. -/
theorem frameScores_append_of_isWhole {ended : List Frame}
    (hended : ∀ frame ∈ ended, frame.isLast = false ∧ frame.IsWhole)
    (hrest : frameScores following =
      windowScores (pinsAt (rollsOf following)) following.length 0) :
    frameScores (ended ++ following) =
      windowScores (pinsAt (rollsOf (ended ++ following))) (ended ++ following).length 0 := by
  induction ended with
  | nil => exact hrest
  | cons frame ended ih =>
    obtain ⟨hordinary, hwhole⟩ := hended frame List.mem_cons_self
    obtain ⟨rolls, isLast⟩ := frame
    obtain rfl : isLast = false := hordinary
    have hothers := ih fun other hother => hended other (List.mem_cons_of_mem _ hother)
    rw [List.cons_append, frameScores, rollsOf_cons, List.length_cons,
      windowScores_of_ordinaryFrame (Frame.isWhole_ordinary.mp hwhole), hothers]

end Pinfall.Scoring

namespace Pinfall.Game

open Scoring

variable {game : Game} {ended : List Frame} {current : Frame}

/-- The window scores the frame under way, and nothing behind it. -/
theorem StandsAt.frameScores_current (h : game.StandsAt ended current) :
    Scoring.frameScores (current :: new.frames.drop (ended.length + 1)) =
      windowScores (pinsAt current.rolls)
        (current :: new.frames.drop (ended.length + 1)).length 0 := by
  by_cases hlast : current.isLast = true
  · have hnone : new.frames.drop (ended.length + 1) = [] := by
      rw [h.length_ended_eq hlast]
      rfl
    have hlegal : Frame.IsLegal ⟨current.rolls, true⟩ := by
      rw [← hlast]
      exact h.current_isLegal
    rw [hnone, Scoring.frameScores, frameScore_of_isLast hlast, List.length_singleton,
      windowScores, windowScore_of_last hlegal]
    rfl
  · have hordinary : current.isLast = false := by simpa using hlast
    have hempty : ∀ frame ∈ new.frames.drop (ended.length + 1), frame.rolls = [] :=
      fun frame hframe => rolls_of_mem_frames_new (List.mem_of_mem_drop hframe)
    exact frameScores_of_isOpen (h.current_isOpen hordinary) hordinary hempty

theorem StandsAt.frameScores_eq (h : game.StandsAt ended current) :
    game.frameScores = windowScores (pinsAt (rollsOf game.frames)) 10 0 := by
  have hrest : Scoring.frameScores (current :: new.frames.drop (ended.length + 1)) =
      windowScores (pinsAt (rollsOf (current :: new.frames.drop (ended.length + 1))))
        (current :: new.frames.drop (ended.length + 1)).length 0 := by
    rw [rollsOf_cons, rollsOf_drop_frames_new, List.append_nil]
    exact h.frameScores_current
  have hall := frameScores_append_of_isWhole h.ended_whole hrest
  rw [← h.frames_eq, game.length_frames] at hall
  exact hall

/-- After any rolls the scores of the frames are those of the sliding window, and the
score of the game is their sum.  The last of them is the sum of the rolls of the last
frame, so that a fill ball counts once there. -/
theorem frameScores_afterRolls (vs : List Value) :
    let game := new.afterRolls vs
    let scores := windowScores (pinsAt (rollsOf game.frames)) 10 0
    game.frameScores = scores ∧ game.score = Number.total scores ∧
      scores[9]? = some (Number.total game.lastFrame.rolls) := by
  intro game scores
  obtain ⟨ended, current, hstands⟩ := isUnderWay_afterRolls vs
  have hscores : game.frameScores = scores := hstands.frameScores_eq
  refine ⟨hscores, congrArg Number.total hscores, ?_⟩
  have hlast : game.lastFrame.isLast = true := hstands.isLast_frameAt 9
  rw [← hscores, frameScores, getElem?_frameScores, game.getElem?_lastFrame]
  exact congrArg some (frameScore_of_isLast hlast _)

example : windowScores (pinsAt (List.replicate 12 10)) 10 0 = List.replicate 10 30 := by
  decide

end Pinfall.Game
