import Pinfall.Fault
import Pinfall.Log
import Pinfall.Users.IdSource
import Pinfall.Users.Registration
import Pinfall.Value.Key

/-!
# The user registry

Users in the order in which they were created, each under an identifier of its
own.  Users are added and looked up, and never changed.
-/

namespace Pinfall.Users

/-- The registered users. -/
structure Registry where
  users : List User := []
  deriving DecidableEq

/-- Why a request to the registry fails. -/
inductive RequestError where
  | fault (fault : Fault)
  | notAKey (cause : NotAKey)
  /-- The identifier that is not found cannot be printed. -/
  | unprintable

namespace RequestError

/-- The wording of a failure. -/
def message : RequestError → String
  | .fault f => f.message
  | .notAKey cause => cause.message
  | .unprintable => Number.unprintableMessage

/-- The failure to find an identifier: a fault, unless the identifier to report cannot
be printed. -/
def notFound (id : Value) : RequestError :=
  match Fault.userNotFound? id with
  | some f => .fault f
  | none => .unprintable

end RequestError

/-- What a rule of the program puts in front of its wording. -/
def ruleMark : String := "Value error, "

/-- The wording of the first of several complaints without the mark of a rule.
A complaint may have no wording; if there is none or it is empty, the fallback
is used.  A wording that is no text is one that can be printed. -/
def firstMessage (messages : List (Option Value)) (fallback : String) : String :=
  match messages with
  | [] => fallback
  | message :: _ =>
    let wording := ((message.map Value.display).getD "").toList
    let bare := (ruleMark.toList.isPrefixOf? wording).getD wording
    if bare.isEmpty then fallback else String.ofList bare

namespace Registry

/-- The number of users. -/
def size (registry : Registry) : Nat :=
  registry.users.length

/-- The identifiers in use. -/
def ids (registry : Registry) : List String :=
  registry.users.map User.id

/-- A created user, the registry and the identifiers after it, and the log. -/
structure Created where
  user : User
  registry : Registry
  source : IdSource
  log : List Log.Record

/-- Register a user with a name and an e-mail address.  An identifier is drawn
only once both have passed their checks.  The fallback for the message is left
empty: every refusal has a complaint, and every complaint a wording, so that it is
never used. -/
def create (registry : Registry) (source : IdSource) (name email : Value) :
    Except RequestError Created :=
  match Registration.check (.object [("name", name), ("email", email)]) with
  | .refused complaints =>
    let messages := complaints.map fun complaint =>
      some (Value.text complaint.cause.message)
    .error (.fault (.invalidArgument (.text (firstMessage messages ""))))
  | .accepted registration =>
    let (id, source) := source.draw registry.ids
    let user : User := ⟨id, registration.name, registration.email⟩
    .ok
      { user := user
        registry := ⟨registry.users ++ [user]⟩
        source := source
        log := [⟨.info, .users, "Created user " ++ id⟩] }

/-- Look a user up by identifier. -/
def find? (registry : Registry) (id : Value) : Except RequestError (Option User) :=
  match id.notAKey?, id with
  | some cause, _ => .error (.notAKey cause)
  | none, .text s => .ok (registry.users.find? (·.id == s))
  | none, _ => .ok none

/-- The user with an identifier, who must exist. -/
def get (registry : Registry) (id : Value) : Except RequestError User :=
  match registry.find? id with
  | .error error => .error error
  | .ok (some user) => .ok user
  | .ok none => .error (.notFound id)

end Registry

end Pinfall.Users
