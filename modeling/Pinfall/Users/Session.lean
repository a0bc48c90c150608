import Pinfall.Users.Registry

/-!
# Sessions with the registry

A session is a registry and the identifiers still to come.  Requests are answered
one after the other; a request that fails leaves the session as it was.
-/

namespace Pinfall.Users

/-- What can be asked of a registry. -/
inductive Request where
  | create (name email : Value)
  | find (id : Value)
  | get (id : Value)

/-- A registry and the identifiers still to come. -/
structure Session where
  registry : Registry := {}
  source : IdSource := {}
  deriving DecidableEq

/-- The answer to a request: the user that was created or found, if any, or why
the request failed. -/
structure Reply where
  session : Session
  result : Except RequestError (Option User)
  log : List Log.Record := []

namespace Session

/-- Answer a request. -/
def answer (session : Session) : Request → Reply
  | .create name email =>
    match session.registry.create session.source name email with
    | .ok created =>
      { session := ⟨created.registry, created.source⟩
        result := .ok (some created.user)
        log := created.log }
    | .error error => { session := session, result := .error error }
  | .find id => { session := session, result := session.registry.find? id }
  | .get id => { session := session, result := some <$> session.registry.get id }

/-- The session after a run of requests. -/
def after (session : Session) (requests : List Request) : Session :=
  requests.foldl (fun session request => (session.answer request).session) session

/-- The replies to a run of requests. -/
def replies (session : Session) : List Request → List Reply
  | [] => []
  | request :: requests =>
    session.answer request :: (session.answer request).session.replies requests

end Session

end Pinfall.Users
