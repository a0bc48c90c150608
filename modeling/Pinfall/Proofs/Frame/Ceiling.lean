import Pinfall.Proofs.Frame.Form

/-!
# The ten-pin ceiling

No rack gives more than ten pins.  An ordinary frame has one rack, so that the
ceiling is one for the sum of its rolls; the rolls of the last frame are split into
racks, and the ceiling is one for each of them.
-/

namespace Pinfall.Frame

variable {frame : Frame}

/-- The rolls by racks, the first of which has already had the given ones: a rack is
over when all of its ten pins have fallen. -/
def racksFrom (rack : List Int) : List Int → List (List Int)
  | [] => [rack]
  | pins :: rest =>
    if Number.total (rack ++ [pins]) = 10 then (rack ++ [pins]) :: racksFrom [] rest
    else racksFrom (rack ++ [pins]) rest

/-- The rolls of a frame by racks, the last of which still stands. -/
def racks (rolls : List Int) : List (List Int) :=
  racksFrom [] rolls

theorem racksFrom_of_total {rack rest : List Int} {pins : Int}
    (h : Number.total (rack ++ [pins]) = 10) :
    racksFrom rack (pins :: rest) = (rack ++ [pins]) :: racksFrom [] rest := by
  rw [racksFrom, if_pos h]

theorem racksFrom_of_total_ne {rack rest : List Int} {pins : Int}
    (h : Number.total (rack ++ [pins]) ≠ 10) :
    racksFrom rack (pins :: rest) = racksFrom (rack ++ [pins]) rest := by
  rw [racksFrom, if_neg h]

/-- The pins that stand are those that have not fallen on the last rack, and the next
roll is one on this rack. -/
theorem exists_standing_rack (rack : List Int) (rolls : List Int) :
    ∃ done standing, racksFrom rack rolls = done ++ [standing] ∧
      rolls.foldl standingAfter (10 - Number.total rack) = 10 - Number.total standing ∧
      ∀ pins, racksFrom rack (rolls ++ [pins]) = done ++ racksFrom standing [pins] := by
  induction rolls generalizing rack with
  | nil => exact ⟨[], rack, rfl, rfl, fun pins => rfl⟩
  | cons first rest ih =>
    have htotal : Number.total (rack ++ [first]) = Number.total rack + first := by simp
    by_cases hfull : Number.total (rack ++ [first]) = 10
    · obtain ⟨done, standing, hracks, hstanding, hnext⟩ := ih []
      refine ⟨(rack ++ [first]) :: done, standing, ?_, ?_, ?_⟩
      · rw [racksFrom_of_total hfull, hracks, List.cons_append]
      · have hcleared : standingAfter (10 - Number.total rack) first = 10 := by
          rw [show first = 10 - Number.total rack by omega]
          exact standingAfter_self
        rw [List.foldl_cons, hcleared]
        exact hstanding
      · intro pins
        rw [List.cons_append, racksFrom_of_total hfull, hnext pins, List.cons_append]
    · obtain ⟨done, standing, hracks, hstanding, hnext⟩ := ih (rack ++ [first])
      refine ⟨done, standing, ?_, ?_, ?_⟩
      · rw [racksFrom_of_total_ne hfull, hracks]
      · have hleft : standingAfter (10 - Number.total rack) first =
            10 - Number.total (rack ++ [first]) := by
          rw [standingAfter_of_ne (by omega)]
          omega
        rw [List.foldl_cons, hleft]
        exact hstanding
      · intro pins
        rw [List.cons_append, racksFrom_of_total_ne hfull, hnext pins]

/-- What holds of a frame before its first roll and is kept by each roll that an open
frame takes holds of every legal frame. -/
theorem IsLegal.push_induction {motive : Frame → Prop}
    (unplayed : ∀ isLast, motive ⟨[], isLast⟩)
    (push : ∀ (frame : Frame) (pins : Int), frame.IsOpen → 0 ≤ pins → pins ≤ frame.remaining →
      motive frame → motive (frame.push pins))
    (h : frame.IsLegal) : motive frame := by
  obtain ⟨rolls, isLast⟩ := frame
  -- A frame is taken apart from its last roll, so that the list is run through backwards.
  rw [← List.reverse_reverse rolls] at h ⊢
  generalize rolls.reverse = backwards at h ⊢
  induction backwards with
  | nil => exact unplayed isLast
  | cons pins before ih =>
    rw [List.reverse_cons] at h ⊢
    have hpush : (Frame.push ⟨before.reverse, isLast⟩ pins).IsLegal := h
    obtain ⟨hopen, hpins, hstanding⟩ := hpush.of_push
    exact push _ pins hopen hpins hstanding (ih (Or.inl hopen))

theorem IsLegal.roll_bounds (h : frame.IsLegal) : ∀ pins ∈ frame.rolls, 0 ≤ pins ∧ pins ≤ 10 := by
  refine IsLegal.push_induction
    (motive := fun frame => ∀ pins ∈ frame.rolls, 0 ≤ pins ∧ pins ≤ 10) ?_ ?_ h
  · intro isLast pins hpins
    contradiction
  · intro frame last hopen hlast hstanding ih pins hpins
    rcases List.mem_append.mp hpins with hbefore | hnew
    · exact ih pins hbefore
    · obtain rfl := List.mem_singleton.mp hnew
      exact ⟨hlast, Int.le_trans hstanding hopen.remaining_bounds.2⟩

/-- An ordinary frame keeps below the ceiling in at most two rolls. -/
theorem IsLegal.ordinary_bounds (h : frame.IsLegal) (hordinary : frame.isLast = false) :
    Number.total frame.rolls ≤ 10 ∧ frame.rolls.length ≤ 2 := by
  obtain ⟨rolls, isLast⟩ := frame
  obtain rfl : isLast = false := hordinary
  rcases h with hopen | hwhole
  · cases hopen with
    | unplayed => simp
    | oneRoll ha ha9 => simp; omega
  · cases isWhole_ordinary.mp hwhole with
    | strike => simp
    | twoRolls ha ha9 hb hab => simp; omega

/-- Every rack of the last frame keeps below the ceiling. -/
theorem IsLegal.total_rack_le (h : frame.IsLegal) (hlast : frame.isLast = true) :
    ∀ rack ∈ racks frame.rolls, Number.total rack ≤ 10 := by
  refine IsLegal.push_induction (motive := fun frame => frame.isLast = true →
    ∀ rack ∈ racks frame.rolls, Number.total rack ≤ 10) ?_ ?_ h hlast
  · intro isLast _ rack hrack
    obtain rfl := List.mem_singleton.mp hrack
    decide
  · intro frame pins _ _ hpins ih hlast rack hrack
    obtain ⟨rolls, isLast⟩ := frame
    obtain rfl : isLast = true := hlast
    obtain ⟨done, standing, hracks, hstanding, hnext⟩ := exists_standing_rack [] rolls
    rw [remaining_last] at hpins
    have hfits : Number.total (standing ++ [pins]) ≤ 10 := by
      simp only [Number.total_append, Number.total_cons, Number.total_nil]
      simp only [Number.total_nil, Int.sub_zero] at hstanding
      omega
    have hbefore : ∀ rack ∈ done, Number.total rack ≤ 10 := by
      intro rack hdone
      apply ih rfl
      rw [racks, hracks]
      exact List.mem_append_left _ hdone
    rw [rolls_push, racks, hnext pins] at hrack
    rcases List.mem_append.mp hrack with hdone | hnew
    · exact hbefore rack hdone
    · by_cases hfull : Number.total (standing ++ [pins]) = 10
      · rw [racksFrom_of_total hfull] at hnew
        rcases List.mem_cons.mp hnew with rfl | hempty
        · exact hfits
        · obtain rfl := List.mem_singleton.mp hempty
          decide
      · rw [racksFrom_of_total_ne hfull] at hnew
        obtain rfl := List.mem_singleton.mp hnew
        exact hfits

end Pinfall.Frame
