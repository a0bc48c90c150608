import Pinfall.Number.Integer

/-!
# Sources of identifiers

Identifiers come first from a list, which may repeat itself, and after it are
counted up from one, as hexadecimal numerals of 32 digits.
-/

namespace Pinfall.Users

/-- The identifiers still to come. -/
structure IdSource where
  /-- The rest of the list. -/
  listed : List String := []
  /-- How many numerals have been drawn after the list. -/
  counted : Nat := 0
  deriving DecidableEq

namespace IdSource

/-- The identifier with a number. -/
def numbered (n : Nat) : String :=
  Number.hexNumeral 32 n

/-- The least number from `n` on whose identifier is not taken.  No number is
tried twice, so an identifier that was met needs no second look. -/
def freeNumber (taken : List String) (n : Nat) : Nat :=
  if numbered n ∈ taken then freeNumber (taken.erase (numbered n)) (n + 1) else n
termination_by taken.length
decreasing_by
  rename_i h
  have hpos := List.length_pos_of_mem h
  have := List.length_erase_of_mem h
  omega

/-- Draw identifiers up to the first that is not taken. -/
def drawFrom (taken : List String) (counted : Nat) : List String → String × IdSource
  | [] =>
    let n := freeNumber taken (counted + 1)
    (numbered n, ⟨[], n⟩)
  | id :: listed =>
    if id ∈ taken then drawFrom taken counted listed else (id, ⟨listed, counted⟩)

/-- The first identifier that is not taken, and what is left of the source. -/
def draw (source : IdSource) (taken : List String) : String × IdSource :=
  drawFrom taken source.counted source.listed

end IdSource

end Pinfall.Users
