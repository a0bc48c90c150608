import Pinfall.Proofs.Frame.Form

/-!
# Attempts on a frame

A frame is filled by attempts, of which it takes some and refuses others.  What it takes is
recorded as the integers that the values stand for, and a refusal leaves it as it was, so that
it stays legal.  The test for completion, the pins that remain and the attempts that are taken
are told by different rules, and agree on every frame that attempts lead to.
-/

namespace Pinfall.Frame

variable {frame : Frame} {v : Value}

/-- The frame after one attempt for each of the values. -/
def afterAttempts (frame : Frame) (vs : List Value) : Frame :=
  vs.foldl (fun frame v => (frame.attempt v).1) frame

/-- The values, each with what its attempt came to: nothing if it was taken, or the cause of the
refusal. -/
def outcomes (frame : Frame) : List Value → List (Value × Option RollError)
  | [] => []
  | v :: rest => (v, (frame.attempt v).2) :: (frame.attempt v).1.outcomes rest

/-- The values that are taken. -/
def admitted (frame : Frame) (vs : List Value) : List Value :=
  ((frame.outcomes vs).filter fun outcome => outcome.2.isNone).map Prod.fst

theorem afterAttempts_cons (frame : Frame) (v : Value) (vs : List Value) :
    frame.afterAttempts (v :: vs) = (frame.attempt v).1.afterAttempts vs := rfl

/-! ## One attempt -/

/-- An attempt puts a number of pins behind the rolls of an incomplete frame, or changes
nothing. -/
theorem attempt_cases (frame : Frame) (v : Value) :
    (∃ pins, Pins.check fullRack v = .ok pins ∧ frame.isComplete = false ∧
      pins ≤ frame.remaining ∧ frame.attempt v = (frame.push pins, none)) ∨
      ∃ cause, frame.attempt v = (frame, some cause) := by
  cases hadd : frame.addRoll v with
  | error cause => exact Or.inr ⟨cause, by simp [attempt, hadd]⟩
  | ok next =>
    obtain ⟨pins, hpins, hopen, hstanding, rfl⟩ := addRoll_eq_ok_iff.mp hadd
    exact Or.inl ⟨pins, hpins, hopen, hstanding, by simp [attempt, hadd]⟩

theorem isLast_attempt (frame : Frame) (v : Value) :
    (frame.attempt v).1.isLast = frame.isLast := by
  rcases attempt_cases frame v with ⟨pins, -, -, -, hattempt⟩ | ⟨cause, hattempt⟩
  · rw [hattempt, isLast_push]
  · rw [hattempt]

theorem IsLegal.attempt (h : frame.IsLegal) (v : Value) : (frame.attempt v).1.IsLegal := by
  rcases attempt_cases frame v with ⟨pins, hpins, hopen, hstanding, hattempt⟩ | ⟨cause, hattempt⟩
  · rw [hattempt]
    exact (h.isOpen_iff.mpr hopen).isLegal_push (Pins.bounds_of_check hpins).1 hstanding
  · rw [hattempt]
    exact h

/-! ## A run of attempts -/

theorem isLast_afterAttempts (frame : Frame) (vs : List Value) :
    (frame.afterAttempts vs).isLast = frame.isLast := by
  induction vs generalizing frame with
  | nil => rfl
  | cons v vs ih => rw [afterAttempts_cons, ih, isLast_attempt]

theorem IsLegal.afterAttempts (h : frame.IsLegal) (vs : List Value) :
    (frame.afterAttempts vs).IsLegal := by
  induction vs generalizing frame with
  | nil => exact h
  | cons v vs ih => exact ih (h.attempt v)

/-- The rolls behind those that the frame had are what the admitted values stand for. -/
theorem exists_rolls_afterAttempts (frame : Frame) (vs : List Value) :
    ∃ added, (frame.afterAttempts vs).rolls = frame.rolls ++ added ∧
      (frame.admitted vs).map (Pins.check fullRack) = added.map .ok := by
  induction vs generalizing frame with
  | nil => exact ⟨[], (List.append_nil _).symm, rfl⟩
  | cons v vs ih =>
    obtain ⟨added, hrolls, hadmitted⟩ := ih (frame.attempt v).1
    rw [afterAttempts_cons, hrolls]
    rcases attempt_cases frame v with ⟨pins, hpins, -, -, hattempt⟩ | ⟨cause, hattempt⟩
    · have hfirst : frame.admitted (v :: vs) = v :: (frame.push pins).admitted vs := by
        simp [admitted, outcomes, hattempt]
      rw [hattempt] at hadmitted
      refine ⟨pins :: added, by simp [hattempt], ?_⟩
      rw [hfirst, List.map_cons, hpins, hadmitted, List.map_cons]
    · have hfirst : frame.admitted (v :: vs) = frame.admitted vs := by
        simp [admitted, outcomes, hattempt]
      rw [hattempt] at hadmitted
      exact ⟨added, by rw [hattempt], by rw [hfirst, hadmitted]⟩

/-! ## Completion, remaining pins and refusals -/

/-- A complete frame takes nothing. -/
theorem exists_attempt_eq_of_isComplete (h : frame.isComplete = true) (v : Value) :
    ∃ cause, frame.attempt v = (frame, some cause) := by
  rcases attempt_cases frame v with ⟨pins, -, hopen, -, -⟩ | hrefused
  · rw [h] at hopen
    contradiction
  · exact hrefused

/-- An incomplete frame takes a gutter ball. -/
theorem IsOpen.addRoll_zero (h : frame.IsOpen) : frame.addRoll (.int 0) = .ok (frame.push 0) := by
  have hstanding : 0 ≤ frame.remaining := Int.le_trans (by decide) h.remaining_bounds.1
  exact addRoll_eq_ok_iff.mpr ⟨0, rfl, h.isComplete_eq_false, hstanding, rfl⟩

/-- A legal frame is complete when it refuses every value. -/
theorem IsLegal.isComplete_iff_forall_refused (h : frame.IsLegal) :
    frame.isComplete = true ↔ ∀ v, ∃ cause, frame.attempt v = (frame, some cause) := by
  constructor
  · exact exists_attempt_eq_of_isComplete
  · intro hrefused
    cases hcomplete : frame.isComplete with
    | true => rfl
    | false =>
      have hopen : frame.IsOpen := h.isOpen_iff.mpr hcomplete
      obtain ⟨cause, hcause⟩ := hrefused (.int 0)
      simp [Frame.attempt, hopen.addRoll_zero] at hcause

/-- An incomplete frame takes just the values that stand for no more pins than remain. -/
theorem IsOpen.addRoll_eq_ok_iff {next : Frame} (h : frame.IsOpen) :
    frame.addRoll v = .ok next ↔ ∃ pins, Pins.check fullRack v = .ok pins ∧ 0 ≤ pins ∧
      pins ≤ frame.remaining ∧ next = frame.push pins := by
  rw [Frame.addRoll_eq_ok_iff]
  constructor
  · rintro ⟨pins, hpins, -, hstanding, hnext⟩
    exact ⟨pins, hpins, (Pins.bounds_of_check hpins).1, hstanding, hnext⟩
  · rintro ⟨pins, hpins, -, hstanding, hnext⟩
    exact ⟨pins, hpins, h.isComplete_eq_false, hstanding, hnext⟩

/-- However attempts are made on a new frame of either kind, its rolls are what the admitted
values stand for, in their order, and the beginning of a whole frame.  It is complete just when
it is whole, and just when it refuses every value; before that, one to ten pins remain, and it
takes just the values that stand for no more than these. -/
theorem attempts_keep_rules (isLast : Bool) (vs : List Value) :
    let unplayed : Frame := ⟨[], isLast⟩
    let frame := unplayed.afterAttempts vs
    frame.isLast = isLast ∧
      (unplayed.admitted vs).map (Pins.check fullRack) = frame.rolls.map .ok ∧
      (∃ rest, IsWhole ⟨frame.rolls ++ rest, isLast⟩) ∧
      (frame.isComplete = true ↔ IsWhole ⟨frame.rolls, isLast⟩) ∧
      (frame.isComplete = true ↔ ∀ v, ∃ cause, frame.attempt v = (frame, some cause)) ∧
      (frame.isComplete = false →
        (1 ≤ frame.remaining ∧ frame.remaining ≤ 10) ∧
          ∀ v next, frame.addRoll v = .ok next ↔
            ∃ pins, Pins.check fullRack v = .ok pins ∧ 0 ≤ pins ∧ pins ≤ frame.remaining ∧
              next = frame.push pins) := by
  intro unplayed frame
  have hlast : frame.isLast = isLast := isLast_afterAttempts unplayed vs
  have hlegal : frame.IsLegal := (isLegal_of_rolls_eq_nil rfl).afterAttempts vs
  have hframe : frame = ⟨frame.rolls, isLast⟩ := by rw [← hlast]
  obtain ⟨added, hrolls, hadmitted⟩ := exists_rolls_afterAttempts unplayed vs
  refine ⟨hlast, ?_, ?_, ?_, hlegal.isComplete_iff_forall_refused, ?_⟩
  · rw [hadmitted, hrolls]
    rfl
  · obtain ⟨rest, hrest⟩ := isLegal_iff_exists_isWhole.mp hlegal
    refine ⟨rest, ?_⟩
    rw [← hlast]
    exact hrest
  · rw [← hframe]
    exact hlegal.isComplete_iff
  · intro hcomplete
    have hopen : frame.IsOpen := hlegal.isOpen_iff.mpr hcomplete
    exact ⟨hopen.remaining_bounds, fun v next => hopen.addRoll_eq_ok_iff⟩

/-- A last frame that has refused more pins than were left of a rack takes the rest of it, and
then stands again. -/
theorem attempts_keep_rules_of_spare :
    let frame := (⟨[], true⟩ : Frame).afterAttempts [.int 4, .int 7, .text " 6 ", .bool true]
    frame = ⟨[4, 6], true⟩ ∧ frame.isComplete = false ∧
      ∃ next, frame.addRoll (.int 10) = .ok next := by
  intro frame
  have hframe : frame = ⟨[4, 6], true⟩ := rfl
  obtain ⟨-, -, -, -, -, hopen⟩ :=
    attempts_keep_rules true [.int 4, .int 7, .text " 6 ", .bool true]
  obtain ⟨-, htakes⟩ := hopen rfl
  exact ⟨hframe, rfl, _, (htakes (.int 10) _).mpr ⟨10, rfl, by decide, by decide, rfl⟩⟩

end Pinfall.Frame
