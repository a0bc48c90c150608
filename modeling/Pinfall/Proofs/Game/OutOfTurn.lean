import Pinfall.Proofs.Game.Legality

/-!
# Rolls out of turn

A roll that is put into a frame out of turn does not move the cursor.  So the cursor counts the
rolls of its frame only up to the strays among them, and it lags behind just when there are
any.  Once strays have completed an ordinary frame that the cursor is at, or comes to, the game
is stuck: the cursor never leaves that frame, and no roll is taken any more although the game
is not over.
-/

namespace Pinfall.Game

variable {game next : Game} {counts : Fin 10 → Nat} {i : Fin 10} {index : Int} {v : Value}
  {events : List Event}

/-! ## Counting the strays -/

/-- How many rolls a move puts into the frame at a position out of turn. -/
def strayOf (game : Game) (i : Fin 10) : Move → Nat
  | .addRollAt index v =>
    match game.addRollAt index v with
    | .ok _ => if position? index = some i then 1 else 0
    | .error _ => 0
  | _ => 0

/-- How many rolls a run of moves puts into the frame at a position out of turn. -/
def strays (game : Game) (i : Fin 10) : List Move → Nat
  | [] => 0
  | move :: moves => game.strayOf i move + (game.perform move).game.strays i moves

/-- The cursor counts all rolls of its frame but the strays, and the frames ahead of it hold
nothing else. -/
structure Tally (game : Game) (counts : Fin 10 → Nat) : Prop where
  isLegal : game.IsLegal
  rollCursor_add : ∀ i : Fin 10, (i : Nat) = game.frameCursor →
    game.rollCursor + counts i = (game.frameAt i).rolls.length
  length_ahead : ∀ i : Fin 10, game.frameCursor < (i : Nat) →
    (game.frameAt i).rolls.length = counts i
  incomplete_at : ∀ i : Fin 10, (i : Nat) = game.frameCursor → i ≠ 9 → counts i = 0 →
    (game.frameAt i).isComplete = false

theorem tally_new : new.Tally fun _ => 0 where
  isLegal := isLegal_new
  rollCursor_add := by decide
  length_ahead := by decide
  incomplete_at := by decide

/-! ## The frame at the cursor -/

theorem IsLegal.exists_position? (h : game.IsLegal) :
    ∃ i : Fin 10, (i : Nat) = game.frameCursor ∧ position? game.frameCursor = some i := by
  have hnonneg := h.frameCursor_nonneg
  have hle := h.frameCursor_le
  obtain ⟨k, hk⟩ := Int.eq_ofNat_of_zero_le hnonneg
  refine ⟨⟨k, by omega⟩, hk.symm, ?_⟩
  rw [hk]
  exact position?_natCast ⟨k, by omega⟩

theorem IsLegal.eq_frameCursor (h : game.IsLegal) (hi : position? game.frameCursor = some i) :
    (i : Nat) = game.frameCursor := by
  obtain ⟨k, hk, hposition⟩ := h.exists_position?
  obtain rfl : k = i := Option.some.inj (hposition.symm.trans hi)
  exact hk

/-- At the last frame the game is over when that frame is complete. -/
theorem IsLegal.isOver_eq_isComplete (h : game.IsLegal) (hnine : 9 ≤ game.frameCursor) :
    game.isOver = (game.frameAt 9).isComplete := by
  have hlast : (game.frameAt 9).isLast = true := h.isLast_frameAt 9
  rw [isOver, if_neg (Int.not_lt.mpr hnine), Frame.isComplete, if_pos hlast]
  rfl

/-- What a roll that is taken does to a legal game.  The frame at the cursor takes it, and the
cursor goes on if that frame is complete now and not the last one. -/
theorem IsLegal.roll_cases (h : game.IsLegal) (hroll : game.roll v = .ok (next, events)) :
    ∃ (i : Fin 10) (pins : Int), (i : Nat) = game.frameCursor ∧
      (game.frameAt i).isComplete = false ∧
      next.frames = (game.setFrame i ((game.frameAt i).push pins)).frames ∧
      (next.frameCursor = game.frameCursor + 1 ∧ next.rollCursor = 0 ∨
        next.frameCursor = game.frameCursor ∧ next.rollCursor = game.rollCursor + 1 ∧
          (i ≠ 9 → ((game.frameAt i).push pins).isComplete = false)) := by
  obtain ⟨_, i, frame, -, -, hposition, hframe, hsettle⟩ := roll_eq_ok_iff.mp hroll
  obtain ⟨pins, -, hcomplete, -, rfl⟩ := Frame.addRoll_eq_ok_iff.mp hframe
  have hi := h.eq_frameCursor hposition
  by_cases hmove : ((game.frameAt i).push pins).isComplete = true ∧ game.frameCursor < 9
  · rw [settle_of_isComplete hmove.1 hmove.2] at hsettle
    obtain ⟨rfl, -⟩ := Prod.mk.inj hsettle
    exact ⟨i, pins, hi, hcomplete, rfl, Or.inl ⟨rfl, rfl⟩⟩
  · have hstay : ((game.frameAt i).push pins).isComplete = false ∨ 9 ≤ game.frameCursor := by
      cases hpushed : ((game.frameAt i).push pins).isComplete with
      | false => exact Or.inl rfl
      | true => exact Or.inr (Int.not_lt.mp fun hbefore => hmove ⟨hpushed, hbefore⟩)
    rw [settle_of_not_isComplete hstay] at hsettle
    obtain ⟨rfl, -⟩ := Prod.mk.inj hsettle
    refine ⟨i, pins, hi, hcomplete, rfl, Or.inr ⟨rfl, rfl, fun hne => ?_⟩⟩
    exact hstay.resolve_right (by omega)

/-! ## What a move preserves -/

/-- A stray is counted in its frame, and the cursor does not notice. -/
theorem Tally.of_addRollAt (h : game.Tally counts) (hadd : game.addRollAt index v = .ok next) :
    next.Tally fun i => counts i + if position? index = some i then 1 else 0 := by
  have hlegal := h.isLegal.of_addRollAt hadd
  obtain ⟨k, frame, hk, hframe, rfl⟩ := addRollAt_eq_ok_iff.mp hadd
  obtain ⟨pins, -, -, -, rfl⟩ := Frame.addRoll_eq_ok_iff.mp hframe
  have hlength : ∀ i, ((game.setFrame k ((game.frameAt k).push pins)).frameAt i).rolls.length =
      (game.frameAt i).rolls.length + if position? index = some i then 1 else 0 := by
    intro i
    by_cases hki : k = i
    · subst i
      rw [frameAt_setFrame_self, if_pos hk, Frame.rolls_push, List.length_append]
      rfl
    · have hne : position? index ≠ some i := by simpa [hk] using hki
      rw [frameAt_setFrame_of_ne game hki, if_neg hne, Nat.add_zero]
  refine ⟨hlegal, ?_, ?_, ?_⟩
  · intro i hi
    have hold := h.rollCursor_add i hi
    rw [hlength]
    change game.rollCursor + _ = _
    omega
  · intro i hi
    rw [hlength, h.length_ahead i hi]
  · intro i hi hne hzero
    obtain ⟨hnone, hother⟩ := Nat.add_eq_zero_iff.mp hzero
    have hki : k ≠ i := by
      rintro rfl
      rw [if_pos hk] at hother
      contradiction
    rw [frameAt_setFrame_of_ne game hki]
    exact h.incomplete_at i hi hne hnone

/-- A roll is counted at the cursor.  In the frame that the cursor goes on to, only strays can
be waiting. -/
theorem Tally.of_roll (h : game.Tally counts) (hroll : game.roll v = .ok (next, events)) :
    next.Tally counts := by
  obtain ⟨k, pins, hk, -, hframes, hcursor⟩ := h.isLegal.roll_cases hroll
  have hself := frameAt_self_of_frames hframes
  have hahead : ∀ i : Fin 10, game.frameCursor < (i : Nat) →
      next.frameAt i = game.frameAt i := by
    intro i hi
    exact frameAt_of_frames_of_ne hframes (by omega)
  rcases hcursor with ⟨hframe, hroll0⟩ | ⟨hframe, hroll1, hopen⟩
  · refine ⟨h.isLegal.of_roll hroll, ?_, ?_, ?_⟩
    · intro i hi
      have hi' : game.frameCursor < (i : Nat) := by omega
      rw [hahead i hi', h.length_ahead i hi', hroll0, Int.zero_add]
    · intro i hi
      have hi' : game.frameCursor < (i : Nat) := by omega
      rw [hahead i hi', h.length_ahead i hi']
    · intro i hi _ hzero
      have hi' : game.frameCursor < (i : Nat) := by omega
      have hempty : (game.frameAt i).rolls = [] :=
        List.length_eq_zero_iff.mp ((h.length_ahead i hi').trans hzero)
      rw [hahead i hi']
      exact (Frame.isOpen_of_rolls_eq_nil hempty).isComplete_eq_false
  · have hat : ∀ i : Fin 10, (i : Nat) = next.frameCursor → i = k := by
      intro i hi
      omega
    refine ⟨h.isLegal.of_roll hroll, ?_, ?_, ?_⟩
    · intro i hi
      obtain rfl := hat i hi
      have hold := h.rollCursor_add i hk
      rw [hself, Frame.rolls_push, List.length_append, hroll1]
      simp only [List.length_singleton]
      omega
    · intro i hi
      have hi' : game.frameCursor < (i : Nat) := by omega
      rw [hahead i hi', h.length_ahead i hi']
    · intro i hi hne _
      obtain rfl := hat i hi
      rw [hself]
      exact hopen hne

/-- Along a run of moves the tally goes on. -/
theorem Tally.after {moves : List Move} (h : game.Tally counts)
    (hchecked : ∀ move ∈ moves, move.isChecked = true) :
    (game.after moves).Tally fun i => counts i + game.strays i moves := by
  induction moves generalizing game counts with
  | nil => exact h
  | cons move moves ih =>
    have hstep : (game.perform move).game.Tally fun i => counts i + game.strayOf i move := by
      cases move with
      | roll v =>
        cases hroll : game.roll v with
        | error cause => simpa [perform, strayOf, hroll] using h
        | ok result => simpa [perform, strayOf, hroll] using h.of_roll hroll
      | addRollAt index v =>
        cases hadd : game.addRollAt index v with
        | error cause => simpa [perform, silently, strayOf, hadd] using h
        | ok next => simpa [perform, silently, strayOf, hadd] using h.of_addRollAt hadd
      | setCursor | assign =>
        have hmove := hchecked _ List.mem_cons_self
        contradiction
    have hrest := ih hstep fun other hother => hchecked other (List.mem_cons_of_mem _ hother)
    simpa only [after_cons, strays, Nat.add_assoc] using hrest

/-! ## Taking a gutter ball -/

/-- A legal game takes a gutter ball as long as the frame at the cursor is not complete. -/
theorem IsLegal.exists_roll_gutter (h : game.IsLegal) (hi : (i : Nat) = game.frameCursor)
    (hover : game.isOver = false) (hopen : (game.frameAt i).isComplete = false) :
    ∃ result, game.roll (.int 0) = .ok result := by
  have hposition : position? game.frameCursor = some i := by
    rw [← hi]
    exact position?_natCast i
  have hcheck : Pins.check fullRack (.int 0) = .ok 0 := Pins.check_int (by decide) (by decide)
  have hremaining := ((h.frameAt_isLegal i).isOpen_iff.mpr hopen).remaining_bounds.1
  have hadd : (game.frameAt i).addRoll (.int 0) = .ok ((game.frameAt i).push 0) :=
    Frame.addRoll_eq_ok_iff.mpr ⟨0, hcheck, hopen, by omega, rfl⟩
  exact ⟨_, roll_eq_settle hcheck hover hposition hadd⟩

/-- The cursor is at a frame that is complete and not the last one. -/
def IsStuck (game : Game) : Prop :=
  game.frameCursor < 9 ∧
    ∃ i : Fin 10, (i : Nat) = game.frameCursor ∧ (game.frameAt i).isComplete = true

theorem IsStuck.isOver_eq_false (h : game.IsStuck) : game.isOver = false := by
  rw [isOver, if_pos h.1]

/-- A stuck game takes no roll. -/
theorem IsStuck.exists_roll_eq_error (h : game.IsStuck) (v : Value) :
    ∃ error, game.roll v = .error error := by
  cases hroll : game.roll v with
  | error error => exact ⟨error, rfl⟩
  | ok result =>
    obtain ⟨-, i, hi, hcomplete⟩ := h
    obtain ⟨_, k, frame, -, -, hposition, hframe, -⟩ := roll_eq_ok_iff.mp hroll
    rw [← hi, position?_natCast] at hposition
    obtain rfl := Option.some.inj hposition
    obtain ⟨_, -, hopen, -⟩ := Frame.addRoll_eq_ok_iff.mp hframe
    rw [hcomplete] at hopen
    contradiction

/-- Neither do strays get the cursor of a stuck game to move on. -/
theorem IsStuck.of_addRollAt (h : game.IsStuck) (hadd : game.addRollAt index v = .ok next) :
    next.IsStuck := by
  obtain ⟨hbefore, i, hi, hcomplete⟩ := h
  obtain ⟨k, frame, -, hframe, rfl⟩ := addRollAt_eq_ok_iff.mp hadd
  obtain ⟨_, -, hopen, -⟩ := Frame.addRoll_eq_ok_iff.mp hframe
  have hki : k ≠ i := by
    rintro rfl
    rw [hcomplete] at hopen
    contradiction
  refine ⟨hbefore, i, hi, ?_⟩
  rw [frameAt_setFrame_of_ne game hki]
  exact hcomplete

theorem IsStuck.after {moves : List Move} (h : game.IsStuck)
    (hchecked : ∀ move ∈ moves, move.isChecked = true) : (game.after moves).IsStuck := by
  apply after_induction h _ (fun hbefore hadd => hbefore.of_addRollAt hadd) hchecked
  intro before next v events hbefore hroll
  obtain ⟨error, herror⟩ := hbefore.exists_roll_eq_error v
  rw [hroll] at herror
  contradiction

/-- A legal game that is neither over nor takes a gutter ball is stuck. -/
theorem IsLegal.isStuck (h : game.IsLegal) (hover : game.isOver = false)
    (hrefused : ¬∃ result, game.roll (.int 0) = .ok result) : game.IsStuck := by
  obtain ⟨i, hi, -⟩ := h.exists_position?
  have hcomplete : (game.frameAt i).isComplete = true := by
    cases hopen : (game.frameAt i).isComplete with
    | true => rfl
    | false => exact absurd (h.exists_roll_gutter hi hover hopen) hrefused
  refine ⟨?_, i, hi, hcomplete⟩
  cases Int.lt_or_le game.frameCursor 9 with
  | inl hbefore => exact hbefore
  | inr hnine =>
    obtain rfl : i = 9 := by omega
    rw [h.isOver_eq_isComplete hnine, hcomplete] at hover
    contradiction

/-- However rolls in turn and out of turn are mixed, the cursor counts the rolls of its frame
and a game that is not over takes a gutter ball, just when no stray has gone into that frame.
The cursor lags behind by the strays, and if they keep the game from going on, nothing that
is done to it with a check ever brings it on or to its end. -/
theorem cursor_counts_iff_noStray {moves : List Move}
    (hchecked : ∀ move ∈ moves, move.isChecked = true) :
    let game := new.after moves
    ∃ i : Fin 10, (i : Nat) = game.frameCursor ∧
      game.rollCursor + new.strays i moves = (game.frameAt i).rolls.length ∧
      ((game.rollCursor = (game.frameAt i).rolls.length ∧
          (game.isOver = false → ∃ result, game.roll (.int 0) = .ok result)) ↔
        new.strays i moves = 0) ∧
      (game.isOver = false → (¬∃ result, game.roll (.int 0) = .ok result) →
        ∀ more : List Move, (∀ move ∈ more, move.isChecked = true) →
          (game.after more).isOver = false ∧
            ∀ v, ∃ error, (game.after more).roll v = .error error) := by
  intro game
  have htally : game.Tally fun i => new.strays i moves := by
    simpa using tally_new.after hchecked
  obtain ⟨i, hi, -⟩ := htally.isLegal.exists_position?
  have hcount := htally.rollCursor_add i hi
  refine ⟨i, hi, hcount, ⟨?_, ?_⟩, ?_⟩
  · rintro ⟨hequal, -⟩
    omega
  · intro hnone
    refine ⟨by omega, fun hover => htally.isLegal.exists_roll_gutter hi hover ?_⟩
    by_cases hlast : i = 9
    · subst hlast
      rw [← htally.isLegal.isOver_eq_isComplete (Int.le_of_eq hi)]
      exact hover
    · exact htally.incomplete_at i hi hlast hnone
  · intro hover hrefused more hmore
    have hstuck := (htally.isLegal.isStuck hover hrefused).after hmore
    exact ⟨hstuck.isOver_eq_false, hstuck.exists_roll_eq_error⟩

/-- A stray ahead of the cursor does no harm before the cursor gets there. -/
theorem cursor_counts_before_stray :
    let moves : List Move := [.roll (.int 3), .addRollAt 5 (.int 10)]
    (∀ move ∈ moves, move.isChecked = true) ∧
      (new.after moves).rollCursor = 1 ∧
      ∃ result, (new.after moves).roll (.int 0) = .ok result := by
  intro moves
  have hchecked : ∀ move ∈ moves, move.isChecked = true := by decide
  obtain ⟨i, hi, -, hcounts, -⟩ := cursor_counts_iff_noStray hchecked
  have hcursor : (new.after moves).frameCursor = 0 := by decide
  obtain rfl : i = 0 := by omega
  exact ⟨hchecked, by decide, (hcounts.mpr (by decide)).2 (by decide)⟩

/-- Pins that fall out of turn in the first frame are not counted by the cursor there, and a
strike that falls so leaves a game that is not over and takes no more rolls. -/
theorem cursor_lags_after_stray :
    let three := new.after [.addRollAt 0 (.int 3)]
    let strike := new.after [.addRollAt 0 (.int 10)]
    (three.frameCursor = 0 ∧ three.rollCursor = 0 ∧ (three.frameAt 0).rolls = [3]) ∧
      strike.isOver = false ∧ strike.frameCursor = 0 ∧ (strike.frameAt 0).rolls = [10] ∧
      strike.roll (.int 0) = .error .frameComplete :=
  ⟨⟨rfl, rfl, rfl⟩, rfl, rfl, rfl, rfl⟩

end Pinfall.Game
