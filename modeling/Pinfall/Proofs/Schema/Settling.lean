import Pinfall.Proofs.Schema.Acceptance
import Pinfall.Proofs.Users.Registration

/-!
# Checking twice

One and the same record can be put down in many ways: numbers and truth values as texts or as
each other, names with blanks around them, fields under either of two names.  Once it has been
accepted and rendered, only one way is left, and this one is accepted again, with the same
record.  So a second check changes nothing, and what is rendered keeps within the limits.
-/

namespace Pinfall.Schema

variable {α β : Type} {check : Value → Checked α} {render : α → Json} {limits : α → Prop}
  {a : α} {b : β} {v : Value} {n least : Int} {most : Option Int}

/-- Whatever the check accepts keeps to the limits, and is accepted again as it is rendered.  So
is anything else that keeps to them. -/
structure Settles (check : Value → Checked α) (render : α → Json) (limits : α → Prop) : Prop where
  limits_of_check : ∀ v a, check v = .accepted a → limits a
  check_again : ∀ v a, check v = .accepted a → check (.ofJson (render a)) = .accepted a
  check_of_limits : ∀ a, limits a → check (.ofJson (render a)) = .accepted a

theorem settles_of_limits (hlimits : ∀ v a, check v = .accepted a → limits a)
    (haccepts : ∀ a, limits a → check (.ofJson (render a)) = .accepted a) :
    Settles check render limits where
  limits_of_check := hlimits
  check_again := fun v a h => haccepts a (hlimits v a h)
  check_of_limits := haccepts

/-- A check that recovers all that is rendered needs no limits. -/
theorem Recovers.settles (h : Recovers check render) : Settles check render fun _ => True :=
  settles_of_limits (fun _ _ _ => trivial) fun a _ => h a

/-! ## Behind what is accepted -/

namespace Checked

variable {f : Checked (α → β)} {g : α → β} {outcome : Checked α}

theorem map_eq_accepted_iff :
    g <$> outcome = .accepted b ↔ ∃ a, outcome = .accepted a ∧ g a = b := by
  have happly : g <$> outcome = apply (.accepted g) outcome := rfl
  rw [happly, apply_eq_accepted_iff]
  simp

theorem seq_eq_accepted_iff :
    f <*> outcome = .accepted b ↔ ∃ g a, f = .accepted g ∧ outcome = .accepted a ∧ g a = b :=
  apply_eq_accepted_iff

theorem under_eq_accepted_iff {step : Step} :
    outcome.under step = .accepted a ↔ outcome = .accepted a := by
  cases outcome <;> simp [under]

theorem ensure_eq_accepted_iff {test : α → Option Cause} :
    outcome.ensure test = .accepted a ↔ outcome = .accepted a ∧ test a = none := by
  cases outcome with
  | refused complaints => simp [ensure]
  | accepted x =>
    rw [ensure, accepted.injEq]
    cases htest : test x with
    | none =>
      rw [accepted.injEq]
      constructor
      · rintro rfl
        exact ⟨rfl, htest⟩
      · exact And.left
    | some cause =>
      constructor
      · intro hrefused
        contradiction
      · rintro ⟨rfl, hnone⟩
        rw [htest] at hnone
        contradiction

end Checked

/-- Behind a field that is accepted stands a value that is. -/
theorem exists_of_required {name : String} {others : List String}
    {fields : List (String × Value)} (h : required name others check fields = .accepted a) :
    ∃ v, check v = .accepted a := by
  unfold required at h
  split at h
  next key v _ => exact ⟨v, Checked.under_eq_accepted_iff.mp h⟩
  next => contradiction

theorem bounds_of_boundedInteger (h : boundedInteger least most v = .accepted n) :
    least ≤ n ∧ ∀ bound ∈ most, n ≤ bound := by
  obtain ⟨-, htest⟩ := Checked.ensure_eq_accepted_iff.mp h
  split at htest
  next => contradiction
  next hleast =>
    refine ⟨Int.not_lt.mp hleast, ?_⟩
    intro bound hbound
    obtain rfl := Option.mem_def.mp hbound
    dsimp only at htest
    by_contra hlt
    rw [if_pos (Int.not_le.mp hlt)] at htest
    contradiction

end Pinfall.Schema

namespace Pinfall

open Schema

variable {v : Value} {fields : List (String × Value)}

namespace Registration

variable {registration : Registration}

/-- Both texts of a registration are trimmed and within their limits. -/
structure IsTidy (registration : Registration) : Prop where
  name : Gives IsName (.text registration.name) registration.name
  email : Gives IsEmail (.text registration.email) registration.email

/-- What is accepted as a registration gives a name and an e-mail address. -/
theorem exists_of_check (h : check v = .accepted registration) :
    (∃ name, Gives IsName name registration.name) ∧
      ∃ email, Gives IsEmail email registration.email := by
  cases v with
  | object fields =>
    simp only [check, record, Checked.seq_eq_accepted_iff, Checked.map_eq_accepted_iff] at h
    obtain ⟨_, _, ⟨_, email, ⟨name, hname, rfl⟩, hemail, rfl⟩, -, rfl⟩ := h
    obtain ⟨rawName, hrawName⟩ := exists_of_required hname
    obtain ⟨rawEmail, hrawEmail⟩ := exists_of_required hemail
    exact ⟨⟨rawName, checkName_eq_accepted_iff.mp hrawName⟩,
      ⟨rawEmail, checkEmail_eq_accepted_iff.mp hrawEmail⟩⟩
  | _ => contradiction

theorem isTidy_of_check (h : check v = .accepted registration) : registration.IsTidy := by
  obtain ⟨⟨name, hname⟩, ⟨email, hemail⟩⟩ := exists_of_check h
  exact ⟨hname.refl, hemail.refl⟩

theorem check_of_isTidy (h : registration.IsTidy) :
    check (.ofJson registration.toJson) = .accepted registration := by
  have hrecord : Value.ofJson registration.toJson =
      .object [("name", .text registration.name), ("email", .text registration.email)] := rfl
  rw [hrecord, check_pair, checkName_eq_accepted_iff.mpr h.name,
    checkEmail_eq_accepted_iff.mpr h.email]
  rfl

end Registration

namespace User

/-- A user is accepted field by field. -/
theorem check_object {user : User} (hid : required "id" [] text fields = .accepted user.id)
    (hname : required "name" [] text fields = .accepted user.name)
    (hemail : required "email" [] text fields = .accepted user.email) :
    check (.object fields) = .accepted user := by
  simp only [check, record, hid, hname, hemail]
  rfl

theorem check_recovers : Recovers check toJson := by
  intro user
  apply check_object
  · exact required_of_lookup rfl (text_recovers user.id)
  · exact required_of_lookup rfl (text_recovers user.name)
  · exact required_of_lookup rfl (text_recovers user.email)

end User

namespace Summary

variable {summary : Summary}

/-- The numbers of a summary are in their ranges. -/
structure InRange (summary : Summary) : Prop where
  total_nonneg : 0 ≤ summary.total
  total_le : summary.total ≤ 300
  one_le_currentFrame : 1 ≤ summary.currentFrame
  currentFrame_le : summary.currentFrame ≤ 10
  one_le_currentRoll : 1 ≤ summary.currentRoll

theorem inRange_of_check (h : check v = .accepted summary) : summary.InRange := by
  cases v with
  | object fields =>
    simp only [check, record, Checked.seq_eq_accepted_iff, Checked.map_eq_accepted_iff] at h
    -- The fields come apart from the last to the first.
    obtain ⟨_, isOver, ⟨_, roll, ⟨_, frame, ⟨_, total, ⟨_, cumulative, ⟨_, scores,
      ⟨frames, -, rfl⟩, -, rfl⟩, -, rfl⟩, htotal, rfl⟩, hframe, rfl⟩, hroll, rfl⟩, -, rfl⟩ := h
    obtain ⟨_, htotal⟩ := exists_of_required htotal
    obtain ⟨_, hframe⟩ := exists_of_required hframe
    obtain ⟨_, hroll⟩ := exists_of_required hroll
    obtain ⟨hzero, h300⟩ := bounds_of_boundedInteger htotal
    obtain ⟨hone, h10⟩ := bounds_of_boundedInteger hframe
    obtain ⟨hfirst, -⟩ := bounds_of_boundedInteger hroll
    exact ⟨hzero, h300 300 rfl, hone, h10 10 rfl, hfirst⟩
  | _ => contradiction

theorem check_of_inRange (h : summary.InRange) (naming : Naming) :
    check (.ofJson (summary.toJson naming)) = .accepted summary :=
  check_toJson h.total_nonneg h.total_le h.one_le_currentFrame h.currentFrame_le
    h.one_le_currentRoll naming

end Summary

/-- However a registration, a user, a summary or a problem has been put down, it is accepted
once more as it is rendered, with the same fields.  The texts of a registration need no more
trimming then, and they and the numbers of a summary are within their limits. -/
theorem checks_settle :
    Settles Registration.check Registration.toJson Registration.IsTidy ∧
    Settles User.check User.toJson (fun _ => True) ∧
    (∀ naming, Settles Summary.check (Summary.toJson naming) Summary.InRange) ∧
    Settles Problem.check Problem.toJson (fun _ => True) := by
  refine ⟨?_, User.check_recovers.settles, ?_, Problem.check_recovers.settles⟩
  · exact settles_of_limits (fun _ _ => Registration.isTidy_of_check)
      fun _ => Registration.check_of_isTidy
  · intro naming
    exact settles_of_limits (fun _ _ => Summary.inRange_of_check)
      fun _ h => Summary.check_of_inRange h naming

/-- Numbers and truth values in other forms, under names of both kinds. -/
example : Summary.check (.object
    [("frames", .list [.list [.text " 7.0 ", .text "+0_3"]]), ("scores", .list []),
      ("cumulative", .list []), ("total", .bool false), ("current_frame", .text "1"),
      ("currentRoll", .bool true), ("gameOver", .text "No")]) =
    .accepted ⟨[[7, 3]], [], [], 0, 1, 1, false⟩ := by
  rfl

end Pinfall
