import Pinfall.Pins
import Pinfall.Proofs.Number.ExactValue
import Pinfall.Proofs.Number.Grammar
import Pinfall.Proofs.Number.Numeral

/-!
# What a value stands for

An integer stands for itself, a floating-point number for its exact value if that is an integer,
a text and a byte string for the integer that they spell, and no other value for any integer.
The check of a number of pins follows this meaning: it takes the integers from zero to the
given most, and of any other value it tells what is wrong with it.
-/

namespace Pinfall

open Number

variable {v : Value} {n m : Int}

/-- The value stands for the integer. -/
inductive Value.Denotes : Value → Int → Prop where
  | int (n : Int) : Denotes (.int n) n
  | float {x : Binary64} {n : Int} (hvalue : x.value? = some (n : ℚ)) : Denotes (.float x) n
  | text {s : String} {n : Int} (hspells : SpellsInteger .unicode s.toList n) : Denotes (.text s) n
  | bytes {bs : List UInt8} {n : Int}
      (hspells : SpellsInteger .ascii (bs.map fun b => Char.ofNat b.toNat) n) :
      Denotes (.bytes bs) n

/-- The integer of a value is what it stands for. -/
theorem Value.integer?_eq_some_iff : v.integer? = some n ↔ v.Denotes n := by
  constructor
  · intro h
    cases v with
    | int k =>
      obtain rfl := Option.some.inj h
      exact Denotes.int k
    | float x => exact Denotes.float (Binary64.toInt?_eq_some_iff.mp h)
    | text s => exact Denotes.text ((readInteger_eq_some_iff Alphabet.isClear_unicode).mp h)
    | bytes bs => exact Denotes.bytes ((readInteger_eq_some_iff Alphabet.isClear_ascii).mp h)
    | null | bool | list | object => contradiction
  · intro h
    cases h with
    | int => rfl
    | float hvalue => exact Binary64.toInt?_eq_some_iff.mpr hvalue
    | text hspells => exact (readInteger_eq_some_iff Alphabet.isClear_unicode).mpr hspells
    | bytes hspells => exact (readInteger_eq_some_iff Alphabet.isClear_ascii).mpr hspells

theorem Value.integer?_eq_none_iff : v.integer? = none ↔ ∀ n, ¬v.Denotes n := by
  simp only [← integer?_eq_some_iff, Option.eq_none_iff_forall_ne_some, ne_eq]

/-- No value stands for two integers. -/
theorem Value.Denotes.unique (hn : v.Denotes n) (hm : v.Denotes m) : n = m := by
  rw [← integer?_eq_some_iff] at hn hm
  exact Option.some.inj (hn.symm.trans hm)

theorem Value.Denotes.ne_bool (h : v.Denotes n) (b : Bool) : v ≠ .bool b := by
  rintro rfl
  cases h

namespace Pins

variable {most : Int} {rejection : Rejection}

/-! ## The wording of a rejection -/

theorem Rejection.message_outOfRange (most : Int) :
    (outOfRange most).message = "Pins must be between 0 and " ++ Number.numeral most ++ "." := rfl

/-- The wordings for integers out of range differ from the others at their fourteenth letter. -/
theorem Rejection.getElem?_message_outOfRange (most : Int) :
    (outOfRange most).message.toList[13]? = some 'b' := by
  rw [message_outOfRange, String.toList_append, String.toList_append, List.append_assoc]
  exact List.getElem?_append_left (by decide)

theorem Rejection.eq_outOfRange_of_message (h : rejection.message = (outOfRange most).message) :
    rejection = outOfRange most := by
  cases rejection with
  | outOfRange other =>
    rw [message_outOfRange, message_outOfRange, String.append_left_inj,
      String.append_right_inj] at h
    rw [numeral_injective h]
  | truthValue | notInteger =>
    have hletter := getElem?_message_outOfRange most
    rw [← h] at hletter
    exact absurd hletter (by decide)

/-- A rejection can be told from its wording. -/
theorem Rejection.message_injective : Function.Injective Rejection.message := by
  intro r s h
  cases r with
  | outOfRange => exact (eq_outOfRange_of_message h.symm).symm
  | truthValue =>
    cases s with
    | truthValue => rfl
    | notInteger => exact absurd h (by decide)
    | outOfRange => exact eq_outOfRange_of_message h
  | notInteger =>
    cases s with
    | truthValue => exact absurd h (by decide)
    | notInteger => rfl
    | outOfRange => exact eq_outOfRange_of_message h

/-! ## The check -/

/-- What the check should say about a value. -/
inductive IsVerdict (most : Int) (v : Value) : Except Rejection Int → Prop where
  | taken {n : Int} (hdenotes : v.Denotes n) (hrange : 0 ≤ n ∧ n ≤ most) : IsVerdict most v (.ok n)
  | outOfRange {n : Int} (hdenotes : v.Denotes n) (hrange : ¬(0 ≤ n ∧ n ≤ most)) :
      IsVerdict most v (.error (.outOfRange most))
  | truthValue {b : Bool} (hbool : v = .bool b) : IsVerdict most v (.error .truthValue)
  | notInteger (hbool : ∀ b, v ≠ .bool b) (hnone : ∀ n, ¬v.Denotes n) :
      IsVerdict most v (.error .notInteger)

theorem check_bool (most : Int) (b : Bool) : check most (.bool b) = .error .truthValue := rfl

/-- What is no truth value is checked by the integer that it stands for. -/
theorem check_of_ne_bool (h : ∀ b, v ≠ .bool b) (most : Int) :
    check most v = match v.integer? with
      | none => .error .notInteger
      | some n => if 0 ≤ n ∧ n ≤ most then .ok n else .error (.outOfRange most) := by
  cases v with
  | bool b => exact absurd rfl (h b)
  | null | int | float | text | bytes | list | object => rfl

theorem isVerdict_check (most : Int) (v : Value) : IsVerdict most v (check most v) := by
  by_cases hbool : ∃ b, v = .bool b
  · obtain ⟨b, rfl⟩ := hbool
    exact IsVerdict.truthValue rfl
  · have hne := not_exists.mp hbool
    rw [check_of_ne_bool hne]
    cases hinteger : v.integer? with
    | none => exact IsVerdict.notInteger hne (Value.integer?_eq_none_iff.mp hinteger)
    | some n =>
      have hdenotes := Value.integer?_eq_some_iff.mp hinteger
      by_cases hrange : 0 ≤ n ∧ n ≤ most
      · simp only [if_pos hrange]
        exact IsVerdict.taken hdenotes hrange
      · simp only [if_neg hrange]
        exact IsVerdict.outOfRange hdenotes hrange

/-- The check says what it should, and nothing else. -/
theorem check_eq_iff {result : Except Rejection Int} :
    check most v = result ↔ IsVerdict most v result := by
  constructor
  · rintro rfl
    exact isVerdict_check most v
  · intro h
    cases h with
    | taken hdenotes hrange =>
      exact check_eq_ok_iff.mpr ⟨Value.integer?_eq_some_iff.mpr hdenotes, hrange⟩
    | outOfRange hdenotes hrange =>
      rw [check_of_ne_bool hdenotes.ne_bool, Value.integer?_eq_some_iff.mpr hdenotes]
      exact if_neg hrange
    | truthValue hbool => rw [hbool, check_bool]
    | notInteger hbool hnone =>
      rw [check_of_ne_bool hbool, Value.integer?_eq_none_iff.mpr hnone]

theorem message_check_iff (rejection : Rejection) :
    (check most v).mapError Rejection.message = .error rejection.message ↔
      IsVerdict most v (.error rejection) := by
  rw [← check_eq_iff]
  cases check most v with
  | ok => exact ⟨nofun, nofun⟩
  | error other =>
    change Except.error other.message = _ ↔ _
    rw [Except.error.injEq, Except.error.injEq, Rejection.message_injective.eq_iff]

/-- No value stands for two integers, and the check follows what a value stands for: it takes
just the integers from zero to the most, rejects integers out of this range by naming its bounds,
truth values as such, and everything else as no integer. -/
theorem check_decides (most : Int) (v : Value) :
    (∀ n m, v.Denotes n → v.Denotes m → n = m) ∧
      (∀ n, check most v = .ok n ↔ v.Denotes n ∧ 0 ≤ n ∧ n ≤ most) ∧
      ((check most v).mapError Rejection.message =
          .error ("Pins must be between 0 and " ++ numeral most ++ ".") ↔
        ∃ n, v.Denotes n ∧ ¬(0 ≤ n ∧ n ≤ most)) ∧
      ((check most v).mapError Rejection.message =
          .error "Pins must be an integer (not a boolean)." ↔ ∃ b, v = .bool b) ∧
      ((check most v).mapError Rejection.message = .error "Pins must be an integer." ↔
        (∀ b, v ≠ .bool b) ∧ ∀ n, ¬v.Denotes n) := by
  refine ⟨fun n m => Value.Denotes.unique, fun n => check_eq_iff.trans ?_,
    (message_check_iff (.outOfRange most)).trans ?_, (message_check_iff .truthValue).trans ?_,
    (message_check_iff .notInteger).trans ?_⟩
  · constructor
    · intro h
      cases h with
      | taken hdenotes hrange => exact ⟨hdenotes, hrange⟩
    · rintro ⟨hdenotes, hrange⟩
      exact IsVerdict.taken hdenotes hrange
  · constructor
    · intro h
      cases h with
      | outOfRange hdenotes hrange => exact ⟨_, hdenotes, hrange⟩
    · rintro ⟨n, hdenotes, hrange⟩
      exact IsVerdict.outOfRange hdenotes hrange
  · constructor
    · intro h
      cases h with
      | truthValue hbool => exact ⟨_, hbool⟩
    · rintro ⟨b, hbool⟩
      exact IsVerdict.truthValue hbool
  · constructor
    · intro h
      cases h with
      | notInteger hbool hnone => exact ⟨hbool, hnone⟩
    · rintro ⟨hbool, hnone⟩
      exact IsVerdict.notInteger hbool hnone

/-- A no-break space, a sign, leading zeros and an underscore are all left out of account. -/
theorem check_decides_padded :
    (Value.text "\u00a0+0_07 ").Denotes 7 ∧
      (∀ n, (Value.text "\u00a0+0_07 ").Denotes n → n = 7) ∧
      check fullRack (.text "\u00a0+0_07 ") = .ok 7 := by
  have hdenotes : (Value.text "\u00a0+0_07 ").Denotes 7 :=
    Value.integer?_eq_some_iff.mp (by decide)
  obtain ⟨hunique, hcheck, -⟩ := check_decides fullRack (.text "\u00a0+0_07 ")
  exact ⟨hdenotes, fun n hn => hunique n 7 hn hdenotes,
    (hcheck 7).mpr ⟨hdenotes, by decide, by decide⟩⟩

/-- A digit behind an information separator, which is blank but not white space, is not read:
blanks of that kind around the digits are not left out. -/
theorem check_of_separator :
    SpellsInteger ⟨Text.isBlank, Text.digitValue?⟩ "\u001c5".toList 5 ∧
      (check fullRack (.text "\u001c5")).mapError Rejection.message =
        .error "Pins must be an integer." := by
  refine ⟨⟨false, ['5'], [5], ?_, DigitRun.last (by decide), by decide, by decide⟩, by decide⟩
  exact ⟨['\u001c'], [], [], by decide, IsSign.none,
    List.forall_mem_singleton.mpr rfl, List.forall_mem_nil _⟩

end Pins

end Pinfall
