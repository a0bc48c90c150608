/-!
# Totals

The sum of a list of integers.
-/

namespace Pinfall.Number

/-- The sum of a list of integers. -/
def total : List Int → Int
  | [] => 0
  | n :: ns => n + total ns

@[simp] theorem total_nil : total [] = 0 := rfl

@[simp] theorem total_cons (n : Int) (ns : List Int) : total (n :: ns) = n + total ns := rfl

@[simp] theorem total_append (ns ms : List Int) : total (ns ++ ms) = total ns + total ms := by
  induction ns with
  | nil => simp
  | cons n ns ih => simp [ih, Int.add_assoc]

end Pinfall.Number
