import Mathlib.Order.Monotone.Basic
import Mathlib.Tactic.Ring
import Pinfall.Number.Binary64

/-!
# The order of magnitudes

The codes of magnitudes count the numbers upwards: each code stands for a larger number than the
one before.  From one binade to the next the distance between neighbours doubles, so that the
numbers of a binade and all larger ones are multiples of this distance.
-/

namespace Pinfall.Number.Binary64

variable {code k r shift : Nat}

/-! ## Binades -/

theorem binade_pos : 0 < binade := by
  decide

theorem binade_eq : binade = 2 ^ 52 := rfl

theorem unitsOfCode_of_lt (h : code < binade) : unitsOfCode code = code := if_pos h

/-- The numbers of a binade, and the first one of the next, are at equal distances. -/
theorem unitsOfCode_add (hr : r ≤ binade) :
    unitsOfCode ((k + 1) * binade + r) = (binade + r) * 2 ^ k := by
  have hof : ∀ {k r}, r < binade → unitsOfCode ((k + 1) * binade + r) = (binade + r) * 2 ^ k := by
    intro k r hlt
    have hdiv : ((k + 1) * binade + r) / binade = k + 1 := by
      rw [Nat.add_comm, Nat.add_mul_div_right r _ binade_pos, Nat.div_eq_of_lt hlt, Nat.zero_add]
    have hmod : ((k + 1) * binade + r) % binade = r := by
      rw [Nat.add_comm, Nat.add_mul_mod_self_right, Nat.mod_eq_of_lt hlt]
    have hnot : ¬(k + 1) * binade + r < binade := by
      rw [Nat.add_mul, Nat.one_mul]
      omega
    rw [unitsOfCode, if_neg hnot, hdiv, hmod, Nat.add_sub_cancel]
    rfl
  rcases Nat.lt_or_eq_of_le hr with hlt | rfl
  · exact hof hlt
  · have hnext : (k + 1) * binade + binade = (k + 1 + 1) * binade + 0 := by ring
    rw [hnext, hof binade_pos]
    ring

/-- A code is below the first full binade, or so far above the start of its own. -/
theorem lt_binade_or_exists_eq (code : Nat) :
    code < binade ∨ ∃ k r, r < binade ∧ code = (k + 1) * binade + r := by
  rcases Nat.lt_or_ge code binade with hlt | hge
  · exact Or.inl hlt
  · right
    have hpos := Nat.div_pos hge binade_pos
    refine ⟨code / binade - 1, code % binade, Nat.mod_lt _ binade_pos, ?_⟩
    rw [Nat.sub_add_cancel hpos, Nat.div_add_mod']

theorem unitsOfCode_lt_succ (code : Nat) : unitsOfCode code < unitsOfCode (code + 1) := by
  rcases lt_binade_or_exists_eq code with hlt | ⟨k, r, hr, rfl⟩
  · rcases Nat.lt_or_eq_of_le (Nat.succ_le_of_lt hlt) with hnext | hnext
    · rw [unitsOfCode_of_lt hlt, unitsOfCode_of_lt hnext]
      exact Nat.lt_succ_self code
    · have hfirst : code + 1 = (0 + 1) * binade + 0 := by omega
      rw [unitsOfCode_of_lt hlt, hfirst, unitsOfCode_add (Nat.zero_le _)]
      omega
  · rw [Nat.add_assoc, unitsOfCode_add hr.le, unitsOfCode_add (Nat.succ_le_of_lt hr)]
    exact Nat.mul_lt_mul_of_pos_right (by omega) (Nat.two_pow_pos k)

/-- A larger code stands for a larger number. -/
theorem unitsOfCode_strictMono : StrictMono unitsOfCode :=
  strictMono_nat_of_lt_succ unitsOfCode_lt_succ

/-! ## Multiples -/

/-- With 53 significant digits a number is coded by the count of binades below it and by its
digits. -/
theorem unitsOfCode_mul_binade_add {digits : Nat} (hle : digits ≤ 2 * binade)
    (hge : shift = 0 ∨ binade ≤ digits) :
    unitsOfCode (shift * binade + digits) = digits * 2 ^ shift := by
  rcases Nat.lt_or_ge digits binade with hlt | hfull
  · obtain rfl : shift = 0 := by omega
    rw [Nat.zero_mul, Nat.zero_add, unitsOfCode_of_lt hlt, Nat.pow_zero, Nat.mul_one]
  · obtain ⟨r, rfl⟩ := Nat.exists_eq_add_of_le hfull
    have hcode : shift * binade + (binade + r) = (shift + 1) * binade + r := by ring
    rw [hcode, unitsOfCode_add (by omega)]

/-- A number is a multiple of the distance in a binade, or smaller than the numbers there. -/
theorem dvd_unitsOfCode_or_lt (shift code : Nat) :
    2 ^ shift ∣ unitsOfCode code ∨ 0 < shift ∧ unitsOfCode code < binade * 2 ^ shift := by
  rcases Nat.eq_zero_or_pos shift with rfl | hpos
  · exact Or.inl (one_dvd _)
  · rcases lt_binade_or_exists_eq code with hlt | ⟨k, r, hr, rfl⟩
    · refine Or.inr ⟨hpos, ?_⟩
      rw [unitsOfCode_of_lt hlt]
      exact hlt.trans_le (Nat.le_mul_of_pos_right binade (Nat.two_pow_pos shift))
    · rw [unitsOfCode_add hr.le]
      rcases Nat.lt_or_ge k shift with hk | hk
      · refine Or.inr ⟨hpos, ?_⟩
        calc (binade + r) * 2 ^ k < (binade + binade) * 2 ^ k :=
              Nat.mul_lt_mul_of_pos_right (by omega) (Nat.two_pow_pos k)
          _ = binade * 2 ^ (k + 1) := by ring
          _ ≤ binade * 2 ^ shift := Nat.mul_le_mul_left binade (Nat.pow_le_pow_right (by decide) hk)
      · exact Or.inl (Dvd.dvd.mul_left (Nat.pow_dvd_pow 2 hk) _)

/-! ## The codes of one and of infinity -/

/-- The code of one. -/
def oneCode : Nat := 1023 * binade

theorem unitsPerOne_eq : unitsPerOne = binade * 2 ^ 1022 := by
  unfold unitsPerOne
  generalize hk : 1022 = k
  have hsum : 1074 = 52 + k := by omega
  rw [hsum]
  exact Nat.pow_add 2 52 k

theorem two_mul_unitsPerOne_eq : 2 * unitsPerOne = 2 ^ 1075 := by
  unfold unitsPerOne
  generalize hk : 1074 = k
  have hnext : 1075 = k + 1 := by omega
  rw [hnext]
  exact (Nat.pow_succ' (m := 2) (n := k)).symm

theorem unitsOfCode_oneCode : unitsOfCode oneCode = unitsPerOne := by
  have hcode : oneCode = (1022 + 1) * binade + 0 := rfl
  rw [hcode, unitsOfCode_add (Nat.zero_le _), unitsPerOne_eq, Nat.add_zero]

/-- The numbers from one to two are at equal distances. -/
theorem unitsOfCode_oneCode_add_one : unitsOfCode (oneCode + 1) = unitsPerOne + 2 ^ 1022 := by
  have hcode : oneCode + 1 = (1022 + 1) * binade + 1 := rfl
  rw [hcode, unitsOfCode_add binade_pos, unitsPerOne_eq, Nat.add_mul, Nat.one_mul]

/-- Infinity has the code of two to the power of 1024. -/
theorem unitsOfCode_infinityCode : unitsOfCode infinityCode = 2 ^ 1024 * unitsPerOne := by
  have hcode : infinityCode = (2046 + 1) * binade + 0 := rfl
  rw [hcode, unitsOfCode_add (Nat.zero_le _), unitsPerOne_eq, Nat.add_zero]
  generalize hk : 1022 = k
  have hhigh : 1024 = k + 2 := by omega
  have hboth : 2046 = k + 2 + k := by omega
  rw [hhigh, hboth]
  ring

end Pinfall.Number.Binary64
