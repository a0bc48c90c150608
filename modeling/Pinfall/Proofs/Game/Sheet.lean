import Pinfall.Proofs.Game.Replay

/-!
# Score sheets

A full score sheet has nine whole ordinary frames and a whole tenth frame.  The
lists of rolls that a game takes are the beginnings of those on a full sheet, and a
game is over when its rolls fill one.  A game finds the frames of the sheet again,
so that no list of rolls fills two sheets.
-/

namespace Pinfall.Game

open Scoring

variable {game next : Game} {ended : List Frame} {current : Frame} {pins : Int}

/-- The rolls of a complete game by frames. -/
def IsFullSheet (sheet : List (List Int)) : Prop :=
  ∃ nine tenth, sheet = nine ++ [tenth] ∧ nine.length = 9 ∧
    (∀ rolls ∈ nine, OrdinaryFrame rolls) ∧ TenthFrame tenth

/-- The rolls of a complete game in one list. -/
def IsCompleteGame (rolls : List Int) : Prop :=
  ∃ sheet, IsFullSheet sheet ∧ rolls = sheet.flatten

theorem rollsOf_eq_flatten (frames : List Frame) :
    rollsOf frames = (frames.map Frame.rolls).flatten := rfl

/-! ## From a game to a sheet -/

theorem StandsAt.forall_ordinaryFrame (h : game.StandsAt ended current) :
    ∀ rolls ∈ ended.map Frame.rolls, OrdinaryFrame rolls := by
  intro rolls hrolls
  obtain ⟨frame, hframe, rfl⟩ := List.mem_map.mp hrolls
  obtain ⟨hordinary, hwhole⟩ := h.ended_whole frame hframe
  simpa [Frame.IsWhole, hordinary] using hwhole

/-- In its last frame a game has filled the nine frames before. -/
theorem StandsAt.isFullSheet_append (h : game.StandsAt ended current)
    (hlast : current.isLast = true) {tenth : List Int} (htenth : TenthFrame tenth) :
    IsFullSheet (ended.map Frame.rolls ++ [tenth]) := by
  have hnine : (ended.map Frame.rolls).length = 9 := by
    rw [List.length_map]
    exact h.length_ended_eq hlast
  exact ⟨_, _, rfl, hnine, h.forall_ordinaryFrame, htenth⟩

/-- A game that is over has filled a sheet. -/
theorem StandsAt.isCompleteGame_of_isOver (h : game.StandsAt ended current)
    (hover : game.isOver = true) : IsCompleteGame (rollsOf game.frames) := by
  rw [h.isOver_eq] at hover
  rcases h.current_open_or_last with hopen | ⟨hlast, hwhole⟩
  · rw [hopen.isComplete_eq_false] at hover
    contradiction
  · have htenth : TenthFrame current.rolls := by simpa [Frame.IsWhole, hlast] using hwhole
    refine ⟨_, h.isFullSheet_append hlast htenth, ?_⟩
    rw [h.rollsOf_frames, rollsOf_eq_flatten]
    simp

/-- With gutter balls every game comes to fill a sheet. -/
theorem StandsAt.exists_isCompleteGame (h : game.StandsAt ended current) :
    ∃ rest, IsCompleteGame (rollsOf game.frames ++ rest) := by
  obtain ⟨rest, hwhole⟩ := Frame.isLegal_iff_exists_isWhole.mp h.current_isLegal
  by_cases hlast : current.isLast = true
  · have htenth : TenthFrame (current.rolls ++ rest) := by
      simpa [Frame.IsWhole, hlast] using hwhole
    refine ⟨rest, _, h.isFullSheet_append hlast htenth, ?_⟩
    rw [h.rollsOf_frames, rollsOf_eq_flatten]
    simp
  · have hordinary : OrdinaryFrame (current.rolls ++ rest) := by
      simpa [Frame.IsWhole, hlast] using hwhole
    have hlt := h.length_ended_lt (by simpa using hlast)
    have hgutter : OrdinaryFrame [0, 0] :=
      OrdinaryFrame.twoRolls (by omega) (by omega) (by omega) (by omega)
    have htenth : TenthFrame [0, 0] := TenthFrame.twoRolls (by omega) (by omega) (by omega)
    let gutters : List (List Int) := List.replicate (8 - ended.length) [0, 0]
    have hlength :
        (ended.map Frame.rolls ++ (current.rolls ++ rest) :: gutters).length = 9 := by
      simp only [gutters, List.length_append, List.length_map, List.length_cons,
        List.length_replicate]
      omega
    have hnine : ∀ rolls ∈ ended.map Frame.rolls ++ (current.rolls ++ rest) :: gutters,
        OrdinaryFrame rolls := by
      intro rolls hrolls
      rcases List.mem_append.mp hrolls with hbefore | hafter
      · exact h.forall_ordinaryFrame rolls hbefore
      · rcases List.mem_cons.mp hafter with rfl | hblank
        · exact hordinary
        · rw [List.eq_of_mem_replicate hblank]
          exact hgutter
    refine ⟨rest ++ gutters.flatten ++ [0, 0], _,
      ⟨_, [0, 0], rfl, hlength, hnine, htenth⟩, ?_⟩
    rw [h.rollsOf_frames, rollsOf_eq_flatten]
    simp

/-! ## From a sheet to a game -/

/-- The frame under way takes the next roll of a legal frame, and only an ordinary
frame that is whole with it gives way to the next one. -/
theorem StandsAt.exists_roll_push (h : game.StandsAt ended current)
    (hlegal : (current.push pins).IsLegal) :
    ∃ next events, game.roll (.int pins) = .ok (next, events) ∧
      (((current.push pins).IsOpen ∨ current.isLast = true) →
        next.StandsAt ended (current.push pins)) ∧
      ((current.push pins).IsWhole → current.isLast = false →
        next.StandsAt (ended ++ [current.push pins]) ⟨[], decide (ended.length + 1 = 9)⟩) := by
  obtain ⟨hopen, hpins, hstanding⟩ := hlegal.of_push
  have hten : pins ≤ fullRack := Int.le_trans hstanding hopen.remaining_bounds.2
  obtain ⟨next, events, hroll⟩ :=
    h.exists_roll_eq_ok (Pins.check_int hpins hten) hopen hstanding
  obtain ⟨pins', hpins', -, -, hcases⟩ := h.of_roll hroll
  obtain rfl : pins = pins' := Except.ok.inj ((Pins.check_int hpins hten).symm.trans hpins')
  refine ⟨next, events, hroll, ?_, ?_⟩
  · intro hstays
    rcases hcases with ⟨hnext, -⟩ | ⟨-, hordinary, hwhole, -⟩
    · exact hnext
    · rcases hstays with hstill | hlast
      · exact absurd hwhole hstill.not_isWhole
      · rw [hordinary] at hlast
        contradiction
  · intro hwhole hordinary
    rcases hcases with ⟨hnext, -⟩ | ⟨hnext, -⟩
    · rcases hnext.current_open_or_last with hstill | ⟨hlast, -⟩
      · exact absurd hwhole hstill.not_isWhole
      · rw [Frame.isLast_push, hordinary] at hlast
        contradiction
    · exact hnext

/-- The game takes all rolls that are left of a whole frame. -/
theorem StandsAt.exists_rollEach_frame {rolls rest : List Int} (h : game.StandsAt ended current)
    (hrolls : current.rolls ++ pins :: rest = rolls)
    (hwhole : Frame.IsWhole ⟨rolls, current.isLast⟩) :
    ∃ next, game.rollEach ((pins :: rest).map Value.int) = .ok next ∧
      (current.isLast = true → next.StandsAt ended ⟨rolls, true⟩) ∧
      (current.isLast = false →
        next.StandsAt (ended ++ [⟨rolls, false⟩]) ⟨[], decide (ended.length + 1 = 9)⟩) := by
  induction rest generalizing game current pins with
  | nil =>
    have hpush : current.push pins = ⟨rolls, current.isLast⟩ := by rw [← hrolls]; rfl
    rw [← hpush] at hwhole
    obtain ⟨next, events, hroll, hstays, hmoves⟩ := h.exists_roll_push (Or.inr hwhole)
    refine ⟨next, rollEach_cons_of_ok hroll [], ?_, ?_⟩
    · intro hlast
      have hnext := hstays (Or.inr hlast)
      rwa [hpush, hlast] at hnext
    · intro hordinary
      have hnext := hmoves hwhole hordinary
      rwa [hpush, hordinary] at hnext
  | cons second rest ih =>
    have hall : rolls = ((current.push pins).push second).rolls ++ rest := by simp [← hrolls]
    have hleft : (current.push pins).rolls ++ second :: rest = rolls := by simp [← hrolls]
    have hlegal : ((current.push pins).push second).IsLegal := by
      rw [hall] at hwhole
      exact Frame.IsLegal.of_append (Or.inr hwhole)
    have hopen : (current.push pins).IsOpen := hlegal.of_push.1
    obtain ⟨between, events, hroll, hstays, -⟩ := h.exists_roll_push (Or.inl hopen)
    obtain ⟨next, hrest, hnext⟩ := ih (hstays (Or.inl hopen)) hleft hwhole
    refine ⟨next, ?_, hnext⟩
    rw [List.map_cons, rollEach_cons_of_ok hroll]
    exact hrest

/-- The game takes a whole frame from its first roll on. -/
theorem StandsAt.exists_rollEach_whole {rolls : List Int} {isLast : Bool}
    (h : game.StandsAt ended ⟨[], isLast⟩) (hwhole : Frame.IsWhole ⟨rolls, isLast⟩) :
    ∃ next, game.rollEach (rolls.map Value.int) = .ok next ∧
      (isLast = true → next.StandsAt ended ⟨rolls, true⟩) ∧
      (isLast = false →
        next.StandsAt (ended ++ [⟨rolls, false⟩]) ⟨[], decide (ended.length + 1 = 9)⟩) := by
  obtain ⟨first, rest, hrolls⟩ := hwhole.exists_eq_cons
  obtain rfl : rolls = first :: rest := hrolls
  exact h.exists_rollEach_frame rfl hwhole

/-- The game takes whole ordinary frames one after the other. -/
theorem StandsAt.exists_rollEach_flatten {sheet : List (List Int)}
    (h : game.StandsAt ended ⟨[], decide (ended.length = 9)⟩)
    (hlength : ended.length + sheet.length ≤ 9) (hsheet : ∀ rolls ∈ sheet, OrdinaryFrame rolls) :
    ∃ next, game.rollEach (sheet.flatten.map Value.int) = .ok next ∧
      next.StandsAt (ended ++ sheet.map fun rolls => ⟨rolls, false⟩)
        ⟨[], decide (ended.length + sheet.length = 9)⟩ := by
  induction sheet generalizing game ended with
  | nil => exact ⟨game, rfl, by simpa using h⟩
  | cons rolls sheet ih =>
    rw [List.length_cons] at hlength
    have hne : ended.length ≠ 9 := by omega
    rw [decide_eq_false hne] at h
    have hrolls : Frame.IsWhole ⟨rolls, false⟩ :=
      Frame.isWhole_ordinary.mpr (hsheet rolls List.mem_cons_self)
    obtain ⟨between, hfirst, -, hmoves⟩ := h.exists_rollEach_whole hrolls
    have hbetween : between.StandsAt (ended ++ [⟨rolls, false⟩])
        ⟨[], decide ((ended ++ [(⟨rolls, false⟩ : Frame)]).length = 9)⟩ := by
      simpa using hmoves rfl
    obtain ⟨next, hrest, hnext⟩ := ih hbetween (by simp; omega)
      fun other hother => hsheet other (List.mem_cons_of_mem _ hother)
    refine ⟨next, ?_, ?_⟩
    · rw [List.flatten_cons, List.map_append, rollEach_append, hfirst]
      exact hrest
    · simpa [Nat.add_assoc, Nat.add_comm 1] using hnext

/-- A new game takes a full sheet, and ends with just its frames. -/
theorem IsFullSheet.exists_rollEach {sheet : List (List Int)} (h : IsFullSheet sheet) :
    ∃ game, new.rollEach (sheet.flatten.map Value.int) = .ok game ∧ game.isOver = true ∧
      game.frames.map Frame.rolls = sheet := by
  obtain ⟨nine, tenth, rfl, hnine, hordinary, htenth⟩ := h
  obtain ⟨between, hfirst, hbetween⟩ :=
    standsAt_new.exists_rollEach_flatten (by simp [hnine]) hordinary
  have hlast : decide (([] : List Frame).length + nine.length = 9) = true := by simp [hnine]
  rw [hlast] at hbetween
  obtain ⟨game, hrest, hstays, -⟩ :=
    hbetween.exists_rollEach_whole (Frame.isWhole_last.mpr htenth)
  have hstands := hstays rfl
  refine ⟨game, ?_, ?_, ?_⟩
  · rw [List.flatten_append, List.flatten_singleton, List.map_append, rollEach_append, hfirst]
    exact hrest
  · rw [hstands.isOver_eq]
    exact (Frame.isWhole_last.mpr htenth).isComplete_eq_true
  · have hrolls : (nine.map fun rolls => (⟨rolls, false⟩ : Frame)).map Frame.rolls = nine := by
      rw [List.map_map]
      exact List.map_id nine
    have hnone : new.frames.drop (nine.length + 1) = [] := by
      rw [hnine]
      rfl
    rw [hstands.frames_eq, List.nil_append, List.map_append, List.map_cons, hrolls,
      List.length_map, hnone]
    rfl

/-! ## The rolls that a game takes -/

theorem eq_of_map_check_int {xs pins : List Int}
    (h : (xs.map Value.int).map (Pins.check fullRack) = pins.map .ok) : xs = pins := by
  induction xs generalizing pins with
  | nil => exact (List.map_eq_nil_iff.mp h.symm).symm
  | cons x xs ih =>
    obtain ⟨first, rest, rfl, hfirst, hrest⟩ := List.map_eq_cons_iff.mp h.symm
    have hx : some x = some first := (Pins.check_eq_ok_iff.mp hfirst.symm).1
    rw [Option.some.inj hx, ih hrest.symm]

/-- The frames of a game hold just the rolls that led to it. -/
theorem rollsOf_of_rollEach {xs : List Int} (h : new.rollEach (xs.map Value.int) = .ok game) :
    game.IsUnderWay ∧ rollsOf game.frames = xs := by
  obtain rfl := afterRolls_of_rollEach h
  have hchecks := map_check_taken (xs.map Value.int)
  rw [taken_of_rollEach h] at hchecks
  exact ⟨isUnderWay_afterRolls _, (eq_of_map_check_int hchecks).symm⟩

theorem exists_rollEach_iff {xs : List Int} :
    (∃ game, new.rollEach (xs.map Value.int) = .ok game) ↔
      ∃ whole, IsCompleteGame whole ∧ xs <+: whole := by
  constructor
  · rintro ⟨game, hgame⟩
    obtain ⟨⟨ended, current, hstands⟩, rfl⟩ := rollsOf_of_rollEach hgame
    obtain ⟨rest, hwhole⟩ := hstands.exists_isCompleteGame
    exact ⟨_, hwhole, List.prefix_append _ rest⟩
  · rintro ⟨whole, ⟨sheet, hsheet, rfl⟩, rest, hrest⟩
    obtain ⟨game, hgame, -⟩ := hsheet.exists_rollEach
    rw [← hrest, List.map_append] at hgame
    exact exists_rollEach_of_append hgame

theorem isOver_iff_of_rollEach {xs : List Int}
    (h : new.rollEach (xs.map Value.int) = .ok game) :
    game.isOver = true ↔ IsCompleteGame xs := by
  constructor
  · intro hover
    obtain ⟨⟨ended, current, hstands⟩, rfl⟩ := rollsOf_of_rollEach h
    exact hstands.isCompleteGame_of_isOver hover
  · rintro ⟨sheet, hsheet, rfl⟩
    obtain ⟨filled, hfilled, hover, -⟩ := hsheet.exists_rollEach
    obtain rfl : game = filled := Except.ok.inj (h.symm.trans hfilled)
    exact hover

/-- Playing a list of rolls succeeds just when the list is the beginning of a complete
game.  Then the game is over when the list itself is complete, and its frames are those
of the sheet that the list fills.  Rolling one by one comes to the same. -/
theorem play_accepts_iff (xs : List Int) :
    (play (xs.map Value.int)).result = new.rollEach (xs.map Value.int) ∧
      ((∃ game, (play (xs.map Value.int)).result = .ok game) ↔
        ∃ whole, IsCompleteGame whole ∧ xs <+: whole) ∧
      ∀ game, (play (xs.map Value.int)).result = .ok game →
        (game.isOver = true ↔ IsCompleteGame xs) ∧
        ∀ sheet, IsFullSheet sheet → xs = sheet.flatten →
          game.frames.map Frame.rolls = sheet := by
  have hplay : (play (xs.map Value.int)).result = new.rollEach (xs.map Value.int) :=
    result_playOn new _
  rw [hplay]
  refine ⟨rfl, exists_rollEach_iff, ?_⟩
  intro game hgame
  refine ⟨isOver_iff_of_rollEach hgame, ?_⟩
  rintro sheet hsheet rfl
  obtain ⟨filled, hfilled, -, hframes⟩ := hsheet.exists_rollEach
  obtain rfl : game = filled := Except.ok.inj (hgame.symm.trans hfilled)
  exact hframes

end Pinfall.Game
