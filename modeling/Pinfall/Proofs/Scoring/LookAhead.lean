import Pinfall.Proofs.Scoring.Window

/-!
# How far scoring looks

The score of a frame depends on its own rolls and on the next two rolls, in whatever frames
they are, and on nothing else: not on the frames before it, nor on later rolls, nor on frames
that hold no rolls.  This needs no rules of the game and holds of all lists of frames.
-/

namespace Pinfall.Scoring

variable {frame : Frame} {xs ys zs frames : List Frame} {k : Nat}

theorem bonusRolls_le_two (frame : Frame) : bonusRolls frame ≤ 2 := by
  unfold bonusRolls
  split
  · exact Nat.zero_le 2
  · split
    · exact Nat.le_refl 2
    · split <;> omega

/-- Lists that begin alike still do so behind the same list. -/
theorem take_append_congr {as bs cs : List Int} (h : bs.take k = cs.take k) :
    (as ++ bs).take k = (as ++ cs).take k := by
  have hshorter : bs.take (k - as.length) = cs.take (k - as.length) := by
    have htake := congrArg (List.take (k - as.length)) h
    rwa [List.take_take, List.take_take, Nat.min_eq_left (Nat.sub_le _ _)] at htake
  rw [List.take_append, List.take_append, hshorter]

theorem frameScore_of_take_two (h : (rollsOf ys).take 2 = (rollsOf zs).take 2) (frame : Frame) :
    frameScore frame ys = frameScore frame zs := by
  have htake := congrArg (List.take (bonusRolls frame)) h
  rw [List.take_take, List.take_take, Nat.min_eq_left (bonusRolls_le_two frame)] at htake
  rw [frameScore, frameScore, htake]

/-- The frames in front of others have no part in the scores of the others. -/
theorem drop_frameScores_append (xs ys : List Frame) :
    (frameScores (xs ++ ys)).drop xs.length = frameScores ys := by
  induction xs with
  | nil => rfl
  | cons frame xs ih => exact ih

/-- Of the frames behind others, the first two rolls have a part in the scores of the others. -/
theorem take_frameScores_append (h : (rollsOf ys).take 2 = (rollsOf zs).take 2)
    (xs : List Frame) :
    (frameScores (xs ++ ys)).take xs.length = (frameScores (xs ++ zs)).take xs.length := by
  induction xs with
  | nil => rfl
  | cons frame xs ih =>
    have hrolls : (rollsOf (xs ++ ys)).take 2 = (rollsOf (xs ++ zs)).take 2 := by
      rw [rollsOf_append, rollsOf_append]
      exact take_append_congr h
    rw [List.cons_append, List.cons_append, frameScores, frameScores, List.length_cons,
      List.take_succ_cons, List.take_succ_cons, frameScore_of_take_two hrolls, ih]

/-! ## Frames without rolls -/

theorem rollsOf_insertIdx_of_rolls_eq_nil (h : frame.rolls = []) (frames : List Frame)
    (i : Nat) : rollsOf (frames.insertIdx i frame) = rollsOf frames := by
  induction frames generalizing i with
  | nil =>
    cases i with
    | zero => simp [h]
    | succ i => rfl
  | cons first frames ih =>
    cases i with
    | zero => simp [h]
    | succ i => rw [List.insertIdx_succ_cons, rollsOf_cons, rollsOf_cons, ih]

/-- A frame without rolls scores nothing, and the others score what they did without it. -/
theorem frameScores_insertIdx_of_rolls_eq_nil (h : frame.rolls = []) (frames : List Frame)
    (i : Nat) : frameScores (frames.insertIdx i frame) = (frameScores frames).insertIdx i 0 := by
  have hfront (following : List Frame) :
      frameScores (frame :: following) = 0 :: frameScores following := by
    rw [frameScores, frameScore_of_rolls_eq_nil h]
  induction frames generalizing i with
  | nil =>
    cases i with
    | zero => exact hfront []
    | succ i => rfl
  | cons first frames ih =>
    cases i with
    | zero => exact hfront (first :: frames)
    | succ i =>
      have hfirst : frameScore first (frames.insertIdx i frame) = frameScore first frames := by
        rw [frameScore, frameScore, rollsOf_insertIdx_of_rolls_eq_nil h]
      rw [List.insertIdx_succ_cons, frameScores, hfirst, ih, frameScores, List.insertIdx_succ_cons]

/-- The frames with more of them put in, one after the other, each without rolls and marked as
last or not, at a position among the frames that are there by then. -/
def withUnplayed (frames : List Frame) (places : List (Nat × Bool)) : List Frame :=
  places.foldl (fun frames place => frames.insertIdx place.1 ⟨[], place.2⟩) frames

/-- The numbers with zeros put in, one after the other. -/
def withZeros (scores : List Int) (places : List Nat) : List Int :=
  places.foldl (fun scores place => scores.insertIdx place 0) scores

theorem frameScores_withUnplayed (frames : List Frame) (places : List (Nat × Bool)) :
    frameScores (withUnplayed frames places) =
      withZeros (frameScores frames) (places.map Prod.fst) := by
  induction places generalizing frames with
  | nil => rfl
  | cons place places ih =>
    have hstep : frameScores (frames.insertIdx place.1 ⟨[], place.2⟩) =
        (frameScores frames).insertIdx place.1 0 :=
      frameScores_insertIdx_of_rolls_eq_nil rfl frames place.1
    rw [withUnplayed, List.foldl_cons, ← withUnplayed, ih, hstep]
    rfl

/-! ## Two rolls ahead -/

/-- Whatever the frames hold and however they are marked, the scores of the frames at the end of
a list are their scores without those in front of them; the scores of the frames at the front
see no more of those behind them than their first two rolls; and frames without rolls score
nothing and change no other score, wherever they are put in.  Both of the two rolls are seen,
behind a strike. -/
theorem frameScores_lookAhead (xs ys zs : List Frame) (places : List (Nat × Bool)) :
    (frameScores (xs ++ ys)).drop xs.length = frameScores ys ∧
      ((rollsOf ys).take 2 = (rollsOf zs).take 2 →
        (frameScores (xs ++ ys)).take xs.length = (frameScores (xs ++ zs)).take xs.length) ∧
      frameScores (withUnplayed xs places) =
        withZeros (frameScores xs) (places.map Prod.fst) ∧
      frameScores (⟨[10], false⟩ :: ys) =
        (10 + pinsAt (rollsOf ys) 0 + pinsAt (rollsOf ys) 1) :: frameScores ys := by
  refine ⟨drop_frameScores_append xs ys, fun h => take_frameScores_append h xs,
    frameScores_withUnplayed xs places, ?_⟩
  rw [frameScores, frameScore_strike]

/-- Two strikes see the seven pins behind them, across a frame without rolls, and not whether a
spare is made of them. -/
theorem frameScores_lookAhead_of_strikes :
    let strikes : List Frame := [⟨[10], false⟩, ⟨[10], false⟩]
    let spare : List Frame := [⟨[], false⟩, ⟨[7], false⟩, ⟨[0, 3], true⟩]
    let miss : List Frame := [⟨[7, 0], false⟩, ⟨[], false⟩]
    (rollsOf spare).take 2 = (rollsOf miss).take 2 ∧
      (frameScores (strikes ++ spare)).take 2 = (frameScores (strikes ++ miss)).take 2 ∧
      (frameScores (strikes ++ miss)).take 2 = [27, 17] := by
  intro strikes spare miss
  have hrolls : (rollsOf spare).take 2 = (rollsOf miss).take 2 := by decide
  obtain ⟨-, hfront, -, -⟩ := frameScores_lookAhead strikes spare miss []
  exact ⟨hrolls, hfront hrolls, by decide⟩

end Pinfall.Scoring
