import Pinfall.Json.Basic
import Pinfall.Schema.Field

/-!
# Registrations and users

A registration is the name and the e-mail address that a user signs up with,
both trimmed.  A user is a registration with an identifier.
-/

namespace Pinfall

/-- What a user signs up with. -/
structure Registration where
  name : String
  email : String
  deriving DecidableEq

namespace Registration

/-- The most characters of a name. -/
def nameLimit : Nat := 200

/-- The most characters of an e-mail address. -/
def emailLimit : Nat := 320

/-- A text that has no more characters than allowed. -/
def within (limit : Nat) : Schema.Checked String → Schema.Checked String :=
  Schema.Checked.ensure fun s => if limit < s.length then some (.tooLong limit) else none

/-- A name is a text that is not blank; it is trimmed before it is measured. -/
def checkName (v : Value) : Schema.Checked String :=
  within nameLimit <|
    match v with
    | .text s =>
      match Text.trimmed? s with
      | some name => .accepted name
      | none => .refuse (.broken "Name cannot be empty")
    | _ => .refuse (.broken "Name must be a string")

/-- An e-mail address is a text with an at sign; it is trimmed before it is
measured. -/
def checkEmail (v : Value) : Schema.Checked String :=
  within emailLimit <|
    match v with
    | .text s =>
      let email := Text.trim s
      if email.toList.contains '@' then .accepted email
      else .refuse (.broken "Invalid email format")
    | _ => .refuse (.broken "Invalid email format")

/-- Check the record of a registration, which has no other fields. -/
def check : Value → Schema.Checked Registration :=
  Schema.record "UserCreate" fun fields =>
    (fun name email () => Registration.mk name email)
      <$> Schema.required "name" [] checkName fields
      <*> Schema.required "email" [] checkEmail fields
      <*> Schema.onlyFields ["name", "email"] fields

/-- The record of a registration. -/
def toJson (registration : Registration) : Json :=
  .object [("name", .string registration.name), ("email", .string registration.email)]

end Registration

/-- A registered user. -/
structure User where
  id : String
  name : String
  email : String
  deriving DecidableEq

namespace User

/-- Check the record of a user: three texts of any content. -/
def check : Value → Schema.Checked User :=
  Schema.record "UserOut" fun fields =>
    User.mk <$> Schema.required "id" [] Schema.text fields
      <*> Schema.required "name" [] Schema.text fields
      <*> Schema.required "email" [] Schema.text fields

/-- The record of a user. -/
def toJson (user : User) : Json :=
  .object
    [("id", .string user.id), ("name", .string user.name), ("email", .string user.email)]

end User

end Pinfall
