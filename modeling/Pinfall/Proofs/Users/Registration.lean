import Pinfall.Proofs.Text.Trimming
import Pinfall.Proofs.Users.History

/-!
# Who can register

A user registers with a name and an e-mail address.  Each of them is a text that is trimmed
before it is measured, and an e-mail address has an at sign.  About a value that gives neither
there is one thing to be said, and of two complaints only the one about the name is heard.
What is stored needs no more trimming, so that every user could register again.
-/

namespace Pinfall

open Schema

variable {kind : String → Prop} {v name email : Value} {text complaint : String} {cause : Cause}

/-! ## Names and e-mail addresses -/

/-- A name has between one and 200 characters. -/
def IsName (text : String) : Prop :=
  1 ≤ text.length ∧ text.length ≤ 200

/-- An e-mail address has an at sign and at most 320 characters. -/
def IsEmail (text : String) : Prop :=
  '@' ∈ text.toList ∧ text.length ≤ 320

/-- A value gives a text of a kind: it is one, but for the blanks at its ends. -/
structure Gives (kind : String → Prop) (v : Value) (text : String) : Prop where
  exists_raw : ∃ raw, v = .text raw ∧ Text.IsTrimOf text raw
  isOfKind : kind text

/-- What is said about a value that gives no name. -/
inductive NameComplaint : Value → String → Prop where
  | notText {v : Value} (h : ∀ raw, v ≠ .text raw) : NameComplaint v "Name must be a string"
  | blank {raw : String} (h : Text.IsTrimOf "" raw) :
      NameComplaint (.text raw) "Name cannot be empty"
  | tooLong {raw name : String} (h : Text.IsTrimOf name raw) (hlength : 200 < name.length) :
      NameComplaint (.text raw) "String should have at most 200 characters"

/-- What is said about a value that gives no e-mail address. -/
inductive EmailComplaint : Value → String → Prop where
  | notText {v : Value} (h : ∀ raw, v ≠ .text raw) : EmailComplaint v "Invalid email format"
  | noAt {raw email : String} (h : Text.IsTrimOf email raw) (hat : '@' ∉ email.toList) :
      EmailComplaint (.text raw) "Invalid email format"
  | tooLong {raw email : String} (h : Text.IsTrimOf email raw) (hat : '@' ∈ email.toList)
      (hlength : 320 < email.length) :
      EmailComplaint (.text raw) "String should have at most 320 characters"

theorem Gives.unique {other : String} (h : Gives kind v text) (hother : Gives kind v other) :
    text = other := by
  obtain ⟨raw, rfl, htrim⟩ := h.exists_raw
  obtain ⟨raw', hraw, htrim'⟩ := hother.exists_raw
  obtain rfl := Value.text.inj hraw
  exact htrim.unique htrim'

/-- A text that has been trimmed gives itself. -/
theorem Gives.refl (h : Gives kind v text) : Gives kind (.text text) text := by
  obtain ⟨raw, -, htrim⟩ := h.exists_raw
  exact ⟨⟨text, rfl, htrim.refl⟩, h.isOfKind⟩

/-- There is nothing to be said about a value that gives a name. -/
theorem NameComplaint.not_gives (h : NameComplaint v complaint) (text : String) :
    ¬Gives IsName v text := by
  rintro ⟨⟨raw, hraw, htrim⟩, hone, hlength⟩
  cases h with
  | notText hnot => exact hnot raw hraw
  | blank hblank =>
    obtain rfl := Value.text.inj hraw
    obtain rfl := htrim.unique hblank
    contradiction
  | tooLong hlong hmost =>
    obtain rfl := Value.text.inj hraw
    obtain rfl := htrim.unique hlong
    omega

theorem EmailComplaint.not_gives (h : EmailComplaint v complaint) (text : String) :
    ¬Gives IsEmail v text := by
  rintro ⟨⟨raw, hraw, htrim⟩, hat, hlength⟩
  cases h with
  | notText hnot => exact hnot raw hraw
  | noAt hemail hnone =>
    obtain rfl := Value.text.inj hraw
    obtain rfl := htrim.unique hemail
    exact hnone hat
  | tooLong hemail _ hmost =>
    obtain rfl := Value.text.inj hraw
    obtain rfl := htrim.unique hemail
    omega

/-! ## The two checks -/

namespace Registration

/-- The wording of a cause without the mark of a rule. -/
def wording (cause : Cause) : String :=
  Users.firstMessage [some (.text cause.message)] ""

/-- What a rule says is worded without its mark. -/
theorem wording_broken {rule : String} (h : rule ≠ "") : wording (.broken rule) = rule := by
  have hmessage : (Value.text (Cause.broken rule).message).display = Users.ruleMark ++ rule := rfl
  have hbare : Users.ruleMark.toList.isPrefixOf? (Users.ruleMark ++ rule).toList =
      some rule.toList := by
    rw [List.isPrefixOf?_eq_some_iff_append_eq, String.toList_append]
  have hne : rule.toList.isEmpty = false := by simpa using h
  simp only [wording, Users.firstMessage, Option.map_some, Option.getD_some, hmessage, hbare, hne]
  exact String.ofList_toList

theorem wording_tooLong_name :
    wording (.tooLong 200) = "String should have at most 200 characters" := rfl

theorem wording_tooLong_email :
    wording (.tooLong 320) = "String should have at most 320 characters" := rfl

/-- A text is accepted within its limit, and refused as too long beyond it. -/
theorem within_cases (limit : Nat) (text : String) :
    (text.length ≤ limit ∧ within limit (.accepted text) = .accepted text) ∨
      (limit < text.length ∧ within limit (.accepted text) = Checked.refuse (.tooLong limit)) := by
  rcases Nat.lt_or_ge limit text.length with hlong | hlength
  · exact .inr ⟨hlong, by rw [within, Checked.ensure, if_pos hlong]⟩
  · exact .inl ⟨hlength, by rw [within, Checked.ensure, if_neg (Nat.not_lt.mpr hlength)]⟩

theorem one_le_length_of_ne_empty (h : text ≠ "") : 1 ≤ text.length := by
  rw [← String.length_toList]
  exact List.length_pos_iff.mpr (by simpa using h)

/-- A value gives a name, which is accepted, or is refused with what there is to be said. -/
theorem checkName_cases (v : Value) :
    (∃ text, Gives IsName v text ∧ checkName v = .accepted text) ∨
      ∃ cause, NameComplaint v (wording cause) ∧ checkName v = Checked.refuse cause := by
  have hnotText : ∀ v, (∀ raw, v ≠ .text raw) →
      NameComplaint v (wording (.broken "Name must be a string")) := by
    intro v h
    rw [wording_broken (by decide)]
    exact .notText h
  cases v with
  | text raw =>
    rcases Text.trimmed?_cases raw with ⟨hblank, htrimmed⟩ | ⟨-, text, htrimmed, htrim, hne⟩
    · have hempty : Text.trim raw = "" := by rw [← String.isEmpty_iff, Text.isEmpty_trim, hblank]
      have hnothing : Text.IsTrimOf "" raw := by
        rw [← hempty]
        exact Text.isTrimOf_trim raw
      refine .inr ⟨.broken "Name cannot be empty", ?_, ?_⟩
      · rw [wording_broken (by decide)]
        exact .blank hnothing
      · simp only [checkName, htrimmed]
        rfl
    · have hcheck : checkName (.text raw) = within 200 (.accepted text) := by
        simp only [checkName, htrimmed, nameLimit]
      rcases within_cases 200 text with ⟨hlength, hwithin⟩ | ⟨hlong, hwithin⟩
      · exact .inl ⟨text, ⟨⟨raw, rfl, htrim⟩, one_le_length_of_ne_empty hne, hlength⟩,
          hcheck.trans hwithin⟩
      · refine .inr ⟨.tooLong 200, ?_, hcheck.trans hwithin⟩
        rw [wording_tooLong_name]
        exact .tooLong htrim hlong
  | _ => exact .inr ⟨.broken "Name must be a string", hnotText _ nofun, rfl⟩

theorem checkEmail_cases (v : Value) :
    (∃ text, Gives IsEmail v text ∧ checkEmail v = .accepted text) ∨
      ∃ cause, EmailComplaint v (wording cause) ∧ checkEmail v = Checked.refuse cause := by
  have hnotText : ∀ v, (∀ raw, v ≠ .text raw) →
      EmailComplaint v (wording (.broken "Invalid email format")) := by
    intro v h
    rw [wording_broken (by decide)]
    exact .notText h
  cases v with
  | text raw =>
    have htrim := Text.isTrimOf_trim raw
    by_cases hat : '@' ∈ (Text.trim raw).toList
    · have hcheck : checkEmail (.text raw) = within 320 (.accepted (Text.trim raw)) := by
        simp only [checkEmail, List.contains_iff_mem.mpr hat, if_true, emailLimit]
      rcases within_cases 320 (Text.trim raw) with ⟨hlength, hwithin⟩ | ⟨hlong, hwithin⟩
      · exact .inl ⟨_, ⟨⟨raw, rfl, htrim⟩, hat, hlength⟩, hcheck.trans hwithin⟩
      · refine .inr ⟨.tooLong 320, ?_, hcheck.trans hwithin⟩
        rw [wording_tooLong_email]
        exact .tooLong htrim hat hlong
    · have hnone : (Text.trim raw).toList.contains '@' = false := by simpa using hat
      refine .inr ⟨.broken "Invalid email format", ?_, ?_⟩
      · rw [wording_broken (by decide)]
        exact .noAt htrim hat
      · simp only [checkEmail, hnone]
        rfl
  | _ => exact .inr ⟨.broken "Invalid email format", hnotText _ nofun, rfl⟩

/-- A check whose refusals have their reasons accepts all that gives a text of its kind. -/
theorem eq_accepted_iff_of_cases {check : Value → Checked String}
    {complains : Value → String → Prop}
    (hcases : (∃ text, Gives kind v text ∧ check v = .accepted text) ∨
      ∃ cause, complains v (wording cause) ∧ check v = Checked.refuse cause)
    (hnot : ∀ {complaint}, complains v complaint → ∀ text, ¬Gives kind v text) :
    check v = .accepted text ↔ Gives kind v text := by
  rcases hcases with ⟨given, hgives, hcheck⟩ | ⟨cause, hcomplaint, hcheck⟩
  · rw [hcheck, Checked.accepted.injEq]
    constructor
    · rintro rfl
      exact hgives
    · exact hgives.unique
  · rw [hcheck]
    exact ⟨nofun, fun hgives => absurd hgives (hnot hcomplaint text)⟩

theorem checkName_eq_accepted_iff : checkName v = .accepted text ↔ Gives IsName v text :=
  eq_accepted_iff_of_cases (checkName_cases v) NameComplaint.not_gives

theorem checkEmail_eq_accepted_iff : checkEmail v = .accepted text ↔ Gives IsEmail v text :=
  eq_accepted_iff_of_cases (checkEmail_cases v) EmailComplaint.not_gives

/-! ## Both together -/

/-- Of a record with just a name and an e-mail address, both are checked. -/
theorem check_pair (name email : Value) :
    Registration.check (.object [("name", name), ("email", email)]) =
      (fun name email () => ⟨name, email⟩) <$> (checkName name).under (.field "name") <*>
        (checkEmail email).under (.field "email") <*> .accepted () := rfl

end Registration

namespace Users

open Registration

variable {registry : Registry} {source : IdSource} {n e : String}

/-- The error of a registration that is refused with a complaint. -/
def refusal (complaint : String) : RequestError :=
  .fault (.invalidArgument (.text complaint))

end Users

end Pinfall
