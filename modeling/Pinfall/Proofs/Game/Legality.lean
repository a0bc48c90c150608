import Pinfall.Proofs.Game.Standing

/-!
# Legal games

Rolls can also be put into frames out of turn, so that frames fill up in any order and
the cursor stays behind.  Such a game need not stand anywhere, but it is still legal:
each of its frames follows the rules as far as it has come, and the cursor is at one of
them.  Being legal is kept by every move that checks what it is given.
-/

namespace Pinfall.Game

variable {game next : Game} {frame : Frame} {i : Fin 10} {index : Int} {v : Value}
  {events : List Event}

/-- Every frame follows the rules as far as it has come, and the cursor is at a frame. -/
structure IsLegal (game : Game) : Prop where
  isLast_frameAt : ∀ i, (game.frameAt i).isLast = decide (i = 9)
  frameAt_isLegal : ∀ i, (game.frameAt i).IsLegal
  frameCursor_nonneg : 0 ≤ game.frameCursor
  frameCursor_le : game.frameCursor ≤ 9
  rollCursor_nonneg : 0 ≤ game.rollCursor

theorem isLegal_new : new.IsLegal where
  isLast_frameAt := by decide
  frameAt_isLegal := fun i =>
    Frame.isLegal_of_rolls_eq_nil (rolls_of_mem_frames_new (new.frameAt_mem_frames i))
  frameCursor_nonneg := by decide
  frameCursor_le := by decide
  rollCursor_nonneg := by decide

theorem IsLegal.isLegal_of_mem (h : game.IsLegal) (hframe : frame ∈ game.frames) :
    frame.IsLegal := by
  obtain ⟨k, hk⟩ := List.mem_iff_getElem?.mp hframe
  have hlt : k < 10 := by
    rw [← game.length_frames]
    exact (List.getElem?_eq_some_iff.mp hk).1
  rw [← game.frameAt_eq_of_getElem? (i := ⟨k, hlt⟩) hk]
  exact h.frameAt_isLegal _

/-! ## Moves that check what they are given -/

/-- A frame out of turn takes a roll by its own rules alone. -/
theorem addRollAt_eq_ok_iff :
    game.addRollAt index v = .ok next ↔
      ∃ i frame, position? index = some i ∧ (game.frameAt i).addRoll v = .ok frame ∧
        next = game.setFrame i frame := by
  constructor
  · intro h
    cases hposition : position index with
    | error cause => simp [addRollAt, hposition] at h
    | ok i =>
      cases hframe : (game.frameAt i).addRoll v with
      | error cause => simp [addRollAt, hposition, hframe] at h
      | ok frame =>
        simp only [addRollAt, hposition, hframe, Except.ok.injEq] at h
        exact ⟨i, frame, position_eq_ok_iff.mp hposition, hframe, h.symm⟩
  · rintro ⟨i, frame, hi, hframe, rfl⟩
    simp [addRollAt, position_eq_ok_iff.mpr hi, hframe]

/-- A legal game stays legal when one of its frames takes a roll. -/
theorem IsLegal.setFrame (h : game.IsLegal) (hadd : (game.frameAt i).addRoll v = .ok frame) :
    (game.setFrame i frame).IsLegal := by
  obtain ⟨pins, -, -, -, hframe⟩ := Frame.addRoll_eq_ok_iff.mp hadd
  have hlast : frame.isLast = decide (i = 9) := by
    rw [hframe, Frame.isLast_push]
    exact h.isLast_frameAt i
  have hlegal : frame.IsLegal := (h.frameAt_isLegal i).of_addRoll hadd
  refine ⟨?_, ?_, h.frameCursor_nonneg, h.frameCursor_le, h.rollCursor_nonneg⟩
  · intro j
    by_cases hij : i = j
    · subst j
      rw [frameAt_setFrame_self]
      exact hlast
    · rw [frameAt_setFrame_of_ne game hij]
      exact h.isLast_frameAt j
  · intro j
    by_cases hij : i = j
    · subst j
      rw [frameAt_setFrame_self]
      exact hlegal
    · rw [frameAt_setFrame_of_ne game hij]
      exact h.frameAt_isLegal j

theorem IsLegal.setCursor (h : game.IsLegal) {frameCursor rollCursor : Int}
    (hnonneg : 0 ≤ frameCursor) (hle : frameCursor ≤ 9) (hroll : 0 ≤ rollCursor) :
    (game.setCursor frameCursor rollCursor).IsLegal :=
  ⟨h.isLast_frameAt, h.frameAt_isLegal, hnonneg, hle, hroll⟩

theorem IsLegal.of_addRollAt (h : game.IsLegal) (hadd : game.addRollAt index v = .ok next) :
    next.IsLegal := by
  obtain ⟨i, frame, -, hframe, rfl⟩ := addRollAt_eq_ok_iff.mp hadd
  exact h.setFrame hframe

theorem IsLegal.of_roll (h : game.IsLegal) (hroll : game.roll v = .ok (next, events)) :
    next.IsLegal := by
  obtain ⟨pins, i, frame, -, -, -, hframe, hsettle⟩ := roll_eq_ok_iff.mp hroll
  have hnonneg := h.frameCursor_nonneg
  have hle := h.frameCursor_le
  have hcount := h.rollCursor_nonneg
  have hrecorded : (game.recorded i frame).IsLegal :=
    (h.setFrame hframe).setCursor hnonneg hle (by omega)
  unfold settle at hsettle
  split at hsettle
  next hmove =>
    obtain ⟨rfl, -⟩ := Prod.mk.inj hsettle
    have hbefore : game.frameCursor < 9 := by
      rw [Bool.and_eq_true, decide_eq_true_eq] at hmove
      exact hmove.2
    exact hrecorded.setCursor (by omega) (by omega) (Int.le_refl 0)
  next =>
    obtain ⟨rfl, -⟩ := Prod.mk.inj hsettle
    exact hrecorded

/-! ## Runs of moves -/

/-- What holds of a game and is kept by each roll that is taken, in turn or out of turn,
holds after any run of moves that check what they are given. -/
theorem after_induction {motive : Game → Prop} (start : motive game)
    (roll : ∀ {before next : Game} {v : Value} {events : List Event},
      motive before → before.roll v = .ok (next, events) → motive next)
    (addRollAt : ∀ {before next : Game} {index : Int} {v : Value},
      motive before → before.addRollAt index v = .ok next → motive next)
    {moves : List Move} (hchecked : ∀ move ∈ moves, move.isChecked = true) :
    motive (game.after moves) := by
  induction moves generalizing game with
  | nil => exact start
  | cons move moves ih =>
    rw [after_cons]
    apply ih _ fun other hother => hchecked other (List.mem_cons_of_mem _ hother)
    cases move with
    | roll v =>
      cases h : game.roll v with
      | error cause => simpa [perform, h] using start
      | ok result => simpa [perform, h] using roll start h
    | addRollAt index v =>
      cases h : game.addRollAt index v with
      | error cause => simpa [perform, silently, h] using start
      | ok next => simpa [perform, silently, h] using addRollAt start h
    | setCursor | assign =>
      have hmove := hchecked _ List.mem_cons_self
      contradiction

/-- A game to which nothing is done without a check stays legal. -/
theorem isLegal_after {moves : List Move} (hchecked : ∀ move ∈ moves, move.isChecked = true) :
    (new.after moves).IsLegal :=
  after_induction isLegal_new (fun h hroll => h.of_roll hroll)
    (fun h hadd => h.of_addRollAt hadd) hchecked

/-- Rolls alone are moves that check what they are given. -/
theorem isLegal_afterRolls (vs : List Value) : (new.afterRolls vs).IsLegal := by
  apply isLegal_after
  intro move hmove
  obtain ⟨v, -, rfl⟩ := List.mem_map.mp hmove
  rfl

end Pinfall.Game
