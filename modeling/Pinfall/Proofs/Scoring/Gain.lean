import Mathlib.Algebra.Order.BigOperators.Group.Finset
import Mathlib.Algebra.Order.Ring.Int
import Pinfall.Proofs.Scoring.Total

/-!
# What a roll adds to the scores

A roll counts once for the frame that takes it, and once more for each earlier strike or
spare that still waits for it.  Behind the frame at the cursor nothing has been rolled, so
that a waiting frame is never more than two frames away from it and a roll counts three
times at most.  Scores therefore only grow, and that of a complete frame which waits for
nothing stays as it is.
-/

namespace Pinfall

open Finset

namespace Scoring

variable {frame : Frame} {following later frames : List Frame} {rolls : List Int} {k : Nat}

theorem total_take_append_singleton (rolls : List Int) (pins : Int) (k : Nat) :
    Number.total ((rolls ++ [pins]).take k) =
      Number.total (rolls.take k) + if rolls.length < k then pins else 0 := by
  by_cases hk : rolls.length < k
  · have hall : (rolls ++ [pins]).length ≤ k := by
      rw [List.length_append]
      exact hk
    rw [if_pos hk, List.take_of_length_le hall, List.take_of_length_le (Nat.le_of_lt hk),
      Number.total_append]
    simp
  · rw [if_neg hk, List.take_append_of_le_length (Nat.not_lt.mp hk), Int.add_zero]

/-- One more roll behind a frame counts for it as long as its bonus is not complete. -/
theorem frameScore_of_rollsOf_append {pins : Int}
    (h : rollsOf later = rollsOf following ++ [pins]) (frame : Frame) :
    frameScore frame later = frameScore frame following +
      if (rollsOf following).length < bonusRolls frame then pins else 0 := by
  rw [frameScore, frameScore, h, total_take_append_singleton, Int.add_assoc]

theorem frameScore_congr (h : rollsOf later = rollsOf following) (frame : Frame) :
    frameScore frame later = frameScore frame following := by
  rw [frameScore, frameScore, h]

theorem frameScore_of_rollsOf_eq_nil (h : rollsOf following = []) (frame : Frame) :
    frameScore frame following = Number.total frame.rolls := by
  simp [frameScore, h, Frame.pinfall]

theorem frameScore_push (h : rollsOf following = []) (frame : Frame) (pins : Int) :
    frameScore (frame.push pins) following = frameScore frame following + pins := by
  rw [frameScore_of_rollsOf_eq_nil h, frameScore_of_rollsOf_eq_nil h, Frame.rolls_push,
    Number.total_append]
  simp

/-- A roll in a frame with nothing behind it is the last of all rolls. -/
theorem rollsOf_set_push (hk : frames[k]? = some frame) (hbehind : rollsOf (frames.drop (k + 1)) = [])
    (pins : Int) : rollsOf (frames.set k (frame.push pins)) = rollsOf frames ++ [pins] := by
  induction frames generalizing k with
  | nil => contradiction
  | cons first rest ih =>
    cases k with
    | zero =>
      obtain rfl : first = frame := Option.some.inj hk
      have hrest : rollsOf rest = [] := hbehind
      simp [hrest]
    | succ k =>
      rw [List.set_cons_succ, rollsOf_cons, ih hk hbehind, rollsOf_cons, List.append_assoc]

end Scoring

namespace Game

open Scoring

variable {game next : Game} {ended : List Frame} {current : Frame} {i j : Fin 10} {v : Value}
  {events : List Event} {pins : Int}

/-- The rolls recorded behind the frame at a position. -/
def rollsBehind (game : Game) (i : Fin 10) : List Int :=
  rollsOf (game.frames.drop (i + 1))

/-- The frame at a position is a strike behind which fewer than two rolls are recorded,
or a spare behind which there is none; the last frame waits for nothing. -/
def IsPending (game : Game) (i : Fin 10) : Prop :=
  (i : Nat) < 9 ∧
    ((game.frameAt i).isStrike = true ∧ (game.rollsBehind i).length < 2 ∨
      (game.frameAt i).isSpare = true ∧ (game.rollsBehind i).length = 0)

instance (game : Game) : DecidablePred game.IsPending := fun i =>
  inferInstanceAs (Decidable ((i : Nat) < 9 ∧
    ((game.frameAt i).isStrike = true ∧ (game.rollsBehind i).length < 2 ∨
      (game.frameAt i).isSpare = true ∧ (game.rollsBehind i).length = 0)))

/-- The positions of the frames that wait for a roll. -/
def pending (game : Game) : Finset (Fin 10) :=
  univ.filter game.IsPending

theorem mem_pending : i ∈ game.pending ↔ game.IsPending i := by
  simp [pending]

/-- A frame waits for a roll as long as its bonus is not complete. -/
theorem isPending_iff (hlast : (game.frameAt i).isLast = decide (i = 9)) :
    game.IsPending i ↔ (game.rollsBehind i).length < bonusRolls (game.frameAt i) := by
  unfold IsPending bonusRolls
  by_cases hi : i = 9
  · subst i
    have hkind : (game.frameAt 9).isLast = true := by simpa using hlast
    simp [hkind]
  · have hnine : (i : Nat) < 9 := by omega
    cases hstrike : (game.frameAt i).isStrike with
    | true => simp [hlast, hi, hnine, Frame.isSpare_eq_false_of_isStrike hstrike]
    | false =>
      cases (game.frameAt i).isSpare with
      | true => simp [hlast, hi, hnine]
      | false => simp [hlast, hi]

/-! ## Two games that differ by one roll -/

section Recorded

variable (hframes : next.frames = (game.setFrame i ((game.frameAt i).push pins)).frames)

include hframes

theorem rollsBehind_of_frames_of_le (hj : i ≤ j) : next.rollsBehind j = game.rollsBehind j := by
  rw [rollsBehind, rollsBehind, hframes, frames_setFrame, List.drop_set, if_pos (by omega)]

theorem rollsBehind_of_frames_of_lt (hbehind : game.rollsBehind i = []) (hj : j < i) :
    next.rollsBehind j = game.rollsBehind j ++ [pins] := by
  obtain ⟨k, hk⟩ : ∃ k, (i : Nat) = j + 1 + k := ⟨i - (j + 1), by omega⟩
  have hat : (game.frames.drop (j + 1))[k]? = some (game.frameAt i) := by
    rw [List.getElem?_drop, ← hk, getElem?_frames]
  have hrest : rollsOf ((game.frames.drop (j + 1)).drop (k + 1)) = [] := by
    rw [List.drop_drop, ← Nat.add_assoc, ← hk]
    exact hbehind
  rw [rollsBehind, rollsBehind, hframes, frames_setFrame, List.drop_set, if_neg (by omega),
    show (i : Nat) - (j + 1) = k by omega]
  exact rollsOf_set_push hat hrest pins

/-- With nothing behind the frame that takes a roll, the roll counts for this frame and for
those in front of it with an incomplete bonus. -/
theorem scoreAt_of_frames (hbehind : game.rollsBehind i = []) (j : Fin 10) :
    next.scoreAt j = game.scoreAt j +
      if j = i ∨ j < i ∧ (game.rollsBehind j).length < bonusRolls (game.frameAt j) then pins
      else 0 := by
  rw [scoreAt_eq, scoreAt_eq]
  rcases lt_trichotomy j i with hlt | rfl | hgt
  · have hrolls := rollsBehind_of_frames_of_lt hframes hbehind hlt
    rw [frameAt_of_frames_of_ne hframes (ne_of_lt hlt), frameScore_of_rollsOf_append hrolls]
    simp [hlt, ne_of_lt hlt, rollsBehind]
  · have hnone : rollsOf (next.frames.drop (j + 1)) = [] :=
      (rollsBehind_of_frames_of_le hframes (le_refl j)).trans hbehind
    rw [frameAt_self_of_frames hframes, frameScore_push hnone, frameScore_of_rollsOf_eq_nil hnone,
      frameScore_of_rollsOf_eq_nil hbehind]
    simp
  · have hrolls := rollsBehind_of_frames_of_le hframes (le_of_lt hgt)
    rw [frameAt_of_frames_of_ne hframes (ne_of_gt hgt), frameScore_congr hrolls]
    simp [not_lt_of_gt hgt, ne_of_gt hgt]

/-- A roll in another frame makes no frame wait that did not wait before. -/
theorem isPending_of_frames (hbehind : game.rollsBehind i = []) (hj : j ≠ i)
    (hpending : next.IsPending j) : game.IsPending j := by
  have hlength : (game.rollsBehind j).length ≤ (next.rollsBehind j).length := by
    rcases lt_or_gt_of_ne hj with hlt | hgt
    · rw [rollsBehind_of_frames_of_lt hframes hbehind hlt, List.length_append]
      exact Nat.le_add_right _ _
    · rw [rollsBehind_of_frames_of_le hframes (le_of_lt hgt)]
  obtain ⟨hnine, hwaits⟩ := hpending
  rw [frameAt_of_frames_of_ne hframes hj] at hwaits
  refine ⟨hnine, ?_⟩
  rcases hwaits with ⟨hstrike, hfew⟩ | ⟨hspare, hnone⟩
  · exact Or.inl ⟨hstrike, lt_of_le_of_lt hlength hfew⟩
  · exact Or.inr ⟨hspare, Nat.eq_zero_of_le_zero (hnone ▸ hlength)⟩

end Recorded

/-! ## The frames that wait for a roll -/

namespace StandsAt

theorem rollsBehind_of_lt (h : game.StandsAt ended current) (hj : (j : Nat) < ended.length) :
    game.rollsBehind j = rollsOf (ended.drop (j + 1)) ++ current.rolls := by
  rw [rollsBehind, h.frames_eq, List.drop_append_of_le_length (by omega), rollsOf_append,
    rollsOf_cons, rollsOf_drop_frames_new, List.append_nil]

/-- Nothing has been rolled behind the frame under way. -/
theorem rollsBehind_of_ge (h : game.StandsAt ended current) (hj : ended.length ≤ (j : Nat)) :
    game.rollsBehind j = [] := by
  obtain ⟨k, hk⟩ : ∃ k, (j : Nat) + 1 = ended.length + (k + 1) := ⟨j - ended.length, by omega⟩
  rw [rollsBehind, h.frames_eq, hk, List.drop_length_add_append, List.drop_succ_cons,
    List.drop_drop, rollsOf_drop_frames_new]

theorem isComplete_eq_false_of_ge (h : game.StandsAt ended current)
    (hj : ended.length ≤ (j : Nat)) (hne : j ≠ 9) : (game.frameAt j).isComplete = false := by
  rcases Nat.eq_or_lt_of_le hj with heq | hlt
  · have hordinary : current.isLast = false := by
      rw [h.current_isLast, decide_eq_false_iff_not]
      omega
    rw [h.frameAt_current heq.symm]
    exact (h.current_isOpen hordinary).isComplete_eq_false
  · exact (Frame.isOpen_of_rolls_eq_nil (h.rolls_frameAt_of_gt hlt)).isComplete_eq_false

/-- Only an ended frame waits for a roll, and only one of the last two. -/
theorem bounds_of_isPending (h : game.StandsAt ended current) (hpending : game.IsPending j) :
    (j : Nat) < ended.length ∧ ended.length ≤ j + 2 := by
  obtain ⟨hnine, hwaits⟩ := hpending
  have hne : j ≠ 9 := by omega
  have hordinary : (game.frameAt j).isLast = false := by
    rw [h.isLast_frameAt, decide_eq_false hne]
  have hlt : (j : Nat) < ended.length := by
    by_contra hge
    have hopen := h.isComplete_eq_false_of_ge (Nat.not_lt.mp hge) hne
    have hcomplete : (game.frameAt j).isComplete = true := by
      apply Frame.isComplete_of_isStrike_or_isSpare hordinary
      rcases hwaits with ⟨hstrike, -⟩ | ⟨hspare, -⟩
      · exact Or.inl hstrike
      · exact Or.inr hspare
    rw [hopen] at hcomplete
    contradiction
  have hfew : (game.rollsBehind j).length < 2 := by
    rcases hwaits with ⟨-, hfew⟩ | ⟨-, hnone⟩
    · exact hfew
    · omega
  have hbetween : (ended.drop (j + 1)).length ≤ (rollsOf (ended.drop (j + 1))).length := by
    apply length_le_length_rollsOf
    intro frame hframe
    exact (h.length_rolls_of_mem_ended (List.mem_of_mem_drop hframe)).1
  rw [h.rollsBehind_of_lt hlt, List.length_append] at hfew
  rw [List.length_drop] at hbetween
  exact ⟨hlt, by omega⟩

theorem card_pending_le (h : game.StandsAt ended current) : game.pending.card ≤ 2 := by
  have hwindow : ∀ n : Fin 10,
      (univ.filter fun j : Fin 10 => (j : Nat) < n ∧ (n : Nat) ≤ j + 2).card ≤ 2 := by decide
  have hle := h.length_ended_le
  refine le_trans (card_le_card ?_) (hwindow ⟨ended.length, by omega⟩)
  intro j hj
  rw [mem_filter]
  exact ⟨mem_univ j, h.bounds_of_isPending (mem_pending.mp hj)⟩

end StandsAt

/-! ## One roll in a game under way -/

/-- A roll that is taken goes to the frame at the cursor, which is not complete and has
nothing behind it. -/
theorem IsUnderWay.exists_frames_of_roll (h : game.IsUnderWay)
    (hroll : game.roll v = .ok (next, events)) :
    ∃ pins i, Pins.check fullRack v = .ok pins ∧ position? game.frameCursor = some i ∧
      (game.frameAt i).isComplete = false ∧ game.rollsBehind i = [] ∧
      next.frames = (game.setFrame i ((game.frameAt i).push pins)).frames := by
  obtain ⟨ended, current, hstands⟩ := h
  obtain ⟨pins, i, hpins, hover, hposition, hframes⟩ := Game.exists_frames_of_roll hroll
  have hi := hstands.position_eq hposition
  have hbehind := hstands.rollsBehind_of_ge (Nat.le_of_eq hi.symm)
  refine ⟨pins, i, hpins, hposition, ?_, hbehind, hframes⟩
  rw [hstands.frameAt_current hi, ← hstands.isOver_eq]
  exact hover

theorem IsUnderWay.lt_of_isPending (h : game.IsUnderWay) (hi : position? game.frameCursor = some i)
    (hpending : game.IsPending j) : j < i := by
  obtain ⟨ended, current, hstands⟩ := h
  have hat := hstands.position_eq hi
  have hlt := (hstands.bounds_of_isPending hpending).1
  omega

theorem IsUnderWay.card_pending_le (h : game.IsUnderWay) : game.pending.card ≤ 2 := by
  obtain ⟨ended, current, hstands⟩ := h
  exact hstands.card_pending_le

theorem IsUnderWay.scoreAt_of_frames (h : game.IsUnderWay)
    (hi : position? game.frameCursor = some i) (hbehind : game.rollsBehind i = [])
    (hframes : next.frames = (game.setFrame i ((game.frameAt i).push pins)).frames)
    (j : Fin 10) :
    next.scoreAt j = game.scoreAt j + if j = i ∨ game.IsPending j then pins else 0 := by
  have hwaits : j < i ∧ (game.rollsBehind j).length < bonusRolls (game.frameAt j) ↔
      game.IsPending j := by
    rw [← isPending_iff (h.isLast_frameAt j)]
    constructor
    · exact And.right
    · intro hpending
      exact ⟨h.lt_of_isPending hi hpending, hpending⟩
  rw [Game.scoreAt_of_frames hframes hbehind]
  simp only [hwaits]

theorem score_of_scoreAt (hi : ¬game.IsPending i)
    (hscores : ∀ j, next.scoreAt j =
      game.scoreAt j + if j = i ∨ game.IsPending j then pins else 0) :
    next.score = game.score + (game.pending.card + 1) * pins := by
  have hfilter : univ.filter (fun j => j = i ∨ game.IsPending j) = insert i game.pending := by
    ext j
    simp [mem_pending]
  have hcard : (insert i game.pending).card = game.pending.card + 1 :=
    card_insert_of_notMem fun hmem => hi (mem_pending.mp hmem)
  rw [score_eq_sum, score_eq_sum, sum_congr rfl fun j _ => hscores j, sum_add_distrib,
    ← sum_filter, hfilter, sum_const, hcard, nsmul_eq_mul]
  push_cast
  rfl

/-! ## Runs of rolls -/

theorem IsUnderWay.scoreAt_le_afterRolls (h : game.IsUnderWay) (vs : List Value) (j : Fin 10) :
    game.scoreAt j ≤ (game.afterRolls vs).scoreAt j := by
  refine (afterRolls_induction
    (motive := fun later => later.IsUnderWay ∧ game.scoreAt j ≤ later.scoreAt j)
    ⟨h, le_refl _⟩ ?_ vs).2
  intro before next v events ⟨hbefore, hle⟩ hroll
  obtain ⟨pins, i, hpins, hi, -, hbehind, hframes⟩ := hbefore.exists_frames_of_roll hroll
  have hnonneg := (Pins.bounds_of_check hpins).1
  refine ⟨hbefore.of_roll hroll, ?_⟩
  rw [hbefore.scoreAt_of_frames hi hbehind hframes j]
  split
  · omega
  · omega

theorem IsUnderWay.score_le_afterRolls (h : game.IsUnderWay) (vs : List Value) :
    game.score ≤ (game.afterRolls vs).score := by
  rw [score_eq_sum, score_eq_sum]
  exact sum_le_sum fun j _ => h.scoreAt_le_afterRolls vs j

/-- A complete frame that waits for nothing stays so, and its score is final. -/
theorem IsUnderWay.scoreAt_afterRolls (h : game.IsUnderWay)
    (hcomplete : (game.frameAt j).isComplete = true) (hsettled : ¬game.IsPending j)
    (vs : List Value) : (game.afterRolls vs).scoreAt j = game.scoreAt j := by
  refine (afterRolls_induction
    (motive := fun later => later.IsUnderWay ∧ (later.frameAt j).isComplete = true ∧
      ¬later.IsPending j ∧ later.scoreAt j = game.scoreAt j)
    ⟨h, hcomplete, hsettled, rfl⟩ ?_ vs).2.2.2
  intro before next v events ⟨hbefore, hdone, hwaits, hscore⟩ hroll
  obtain ⟨pins, i, -, hi, hopen, hbehind, hframes⟩ := hbefore.exists_frames_of_roll hroll
  have hj : j ≠ i := by
    rintro rfl
    rw [hopen] at hdone
    contradiction
  refine ⟨hbefore.of_roll hroll, ?_, ?_, ?_⟩
  · rw [frameAt_of_frames_of_ne hframes hj]
    exact hdone
  · intro hpending
    exact hwaits (isPending_of_frames hframes hbehind hj hpending)
  · rw [hbefore.scoreAt_of_frames hi hbehind hframes j, if_neg (by simp [hj, hwaits]), hscore,
      Int.add_zero]

/-- A roll that is taken counts for the frame at the cursor and once more for each frame
before it that waits for a roll, of which there are two at most; no other score changes.
So no score ever falls, and that of a complete frame which waits for nothing is final. -/
theorem scores_afterRolls (vs : List Value) :
    let game := new.afterRolls vs
    (∀ v next events, game.roll v = .ok (next, events) →
        ∃ pins i, Pins.check fullRack v = .ok pins ∧ position? game.frameCursor = some i ∧
          next.frames = (game.setFrame i ((game.frameAt i).push pins)).frames ∧
          (∀ j, next.scoreAt j =
            game.scoreAt j + if j = i ∨ game.IsPending j then pins else 0) ∧
          (∀ j, game.IsPending j → j < i) ∧ game.pending.card ≤ 2 ∧
          next.score = game.score + (game.pending.card + 1) * pins) ∧
      (∀ more, game.score ≤ (game.afterRolls more).score ∧
        ∀ j, game.scoreAt j ≤ (game.afterRolls more).scoreAt j) ∧
      ∀ j, (game.frameAt j).isComplete = true → ¬game.IsPending j →
        ∀ more, (game.afterRolls more).scoreAt j = game.scoreAt j := by
  intro game
  have hgame : game.IsUnderWay := isUnderWay_afterRolls vs
  refine ⟨?_, ?_, ?_⟩
  · intro v next events hroll
    obtain ⟨pins, i, hpins, hi, -, hbehind, hframes⟩ := hgame.exists_frames_of_roll hroll
    have hscores := hgame.scoreAt_of_frames hi hbehind hframes
    have hfirst : ∀ j, game.IsPending j → j < i := fun j => hgame.lt_of_isPending hi
    refine ⟨pins, i, hpins, hi, hframes, hscores, hfirst, hgame.card_pending_le, ?_⟩
    exact score_of_scoreAt (fun hpending => lt_irrefl i (hfirst i hpending)) hscores
  · intro more
    exact ⟨hgame.score_le_afterRolls more, hgame.scoreAt_le_afterRolls more⟩
  · intro j hcomplete hsettled
    exact hgame.scoreAt_afterRolls hcomplete hsettled

/-- The third strike in a row counts three times. -/
theorem score_of_third_strike :
    ∃ next events, (new.afterRolls [.int 10, .int 10]).roll (.int 10) = .ok (next, events) ∧
      next.score = (new.afterRolls [.int 10, .int 10]).score + 3 * 10 := by
  refine ⟨_, _, rfl, ?_⟩
  obtain ⟨pins, -, hpins, -, -, -, -, -, hscore⟩ :=
    (scores_afterRolls [.int 10, .int 10]).1 (.int 10) _ _ rfl
  obtain rfl : 10 = pins := Except.ok.inj hpins
  have hpending : (new.afterRolls [.int 10, .int 10]).pending.card = 2 := by decide
  rw [hscore, hpending]
  rfl

end Game

end Pinfall
