import Mathlib.Data.List.Nodup
import Pinfall.Proofs.Number.Numeral
import Pinfall.Users.Session

/-!
# The history of a registry

A registry holds the users that it has created, in order and each under an identifier of its
own; nothing else is ever done to it.  So whatever it answers can be read off the history of
its requests and their results.
-/

namespace Pinfall.Users

variable {taken : List String} {registry : Registry} {source : IdSource} {session : Session}
  {request : Request} {requests : List Request} {user : User} {id : String} {x : Value}

/-! ## Drawing identifiers -/

namespace IdSource

/-- A number whose identifier is not taken is found, and none before the first. -/
theorem freeNumber_spec (taken : List String) (n : Nat) :
    n ≤ freeNumber taken n ∧ numbered (freeNumber taken n) ∉ taken := by
  fun_induction freeNumber taken n with
  | case1 taken n hmem ih =>
    obtain ⟨hle, hfree⟩ := ih
    refine ⟨by omega, ?_⟩
    intro htaken
    have hne : numbered (freeNumber (taken.erase (numbered n)) (n + 1)) ≠ numbered n := by
      intro h
      have := Number.hexNumeral_injective 32 h
      omega
    exact hfree ((List.mem_erase_of_ne hne).mpr htaken)
  | case2 taken n hfree => exact ⟨Nat.le_refl n, hfree⟩

theorem notMem_of_drawFrom (taken : List String) (counted : Nat) (listed : List String) :
    (drawFrom taken counted listed).1 ∉ taken := by
  induction listed with
  | nil => exact (freeNumber_spec taken (counted + 1)).2
  | cons id listed ih =>
    by_cases hid : id ∈ taken
    · rw [drawFrom, if_pos hid]
      exact ih
    · rw [drawFrom, if_neg hid]
      exact hid

/-- Whatever the source is, an identifier that is drawn is not taken. -/
theorem draw_notMem (source : IdSource) (taken : List String) :
    (source.draw taken).1 ∉ taken :=
  notMem_of_drawFrom taken source.counted source.listed

end IdSource

/-! ## Results -/

/-- What a request comes to: the user that was created or found, if any, or an error. -/
abbrev Result := Except RequestError (Option User)

/-- The user that a request has created, if its result says so. -/
def createdBy : Request × Result → Option User
  | (.create _ _, .ok user) => user
  | _ => none

/-- A creation that has not failed. -/
def hasCreated : Request × Result → Bool
  | (.create _ _, .ok _) => true
  | _ => false

/-- The users that the creations among some requests have returned. -/
def created (requests : List Request) (results : List Result) : List User :=
  (requests.zip results).filterMap createdBy

/-- The record that a user is created. -/
def creationRecord (user : User) : Log.Record :=
  ⟨.info, .users, "Created user " ++ user.id⟩

namespace Session

/-- The results of a run of requests. -/
def results (session : Session) (requests : List Request) : List Result :=
  (session.replies requests).map Reply.result

/-- The log of a run of requests. -/
def log (session : Session) (requests : List Request) : List Log.Record :=
  (session.replies requests).flatMap Reply.log

variable (session : Session) (request : Request) (requests : List Request)

theorem after_cons : session.after (request :: requests) =
    (session.answer request).session.after requests := rfl

theorem results_cons : session.results (request :: requests) =
    (session.answer request).result :: (session.answer request).session.results requests := rfl

theorem log_cons : session.log (request :: requests) =
    (session.answer request).log ++ (session.answer request).session.log requests := by
  rw [log, replies, List.flatMap_cons, log]

end Session

/-! ## One request -/

/-- What a user signs up with, or why that is refused. -/
def register (name email : Value) : Except RequestError Registration :=
  match Registration.check (.object [("name", name), ("email", email)]) with
  | .refused complaints =>
    let messages := complaints.map fun complaint => some (Value.text complaint.cause.message)
    .error (.fault (.invalidArgument (.text (firstMessage messages ""))))
  | .accepted registration => .ok registration

/-- A registration becomes a user under an identifier that is free. -/
def Registry.enter (registry : Registry) (source : IdSource) (registration : Registration) :
    Created :=
  let (id, source) := source.draw registry.ids
  let user : User := ⟨id, registration.name, registration.email⟩
  ⟨user, ⟨registry.users ++ [user]⟩, source, [creationRecord user]⟩

theorem Registry.create_eq (registry : Registry) (source : IdSource) (name email : Value) :
    registry.create source name email = (register name email).map (registry.enter source) := by
  unfold create register
  cases Registration.check (.object [("name", name), ("email", email)]) with
  | refused complaints => rfl
  | accepted registration => rfl

/-- A request that creates a user adds it at the end, under a free identifier, and notes so;
any other request changes and notes nothing. -/
theorem Session.answer_spec (session : Session) (request : Request) :
    let reply := session.answer request
    let user := createdBy (request, reply.result)
    reply.session.registry.users = session.registry.users ++ user.toList ∧
      (∀ u ∈ user, u.id ∉ session.registry.ids) ∧
      reply.log = user.toList.map creationRecord := by
  cases request with
  | create name email =>
    have hcreate := session.registry.create_eq session.source name email
    cases hregister : register name email with
    | error error =>
      rw [hregister] at hcreate
      simp [answer, hcreate, Except.map, createdBy]
    | ok registration =>
      have hid := session.source.draw_notMem session.registry.ids
      rw [hregister] at hcreate
      simpa [answer, hcreate, Except.map, createdBy, Registry.enter] using hid
  | find x => simp [answer, createdBy]
  | get x => simp [answer, createdBy]

theorem Session.answer_of_error {error : RequestError}
    (h : (session.answer request).result = .error error) :
    (session.answer request).session = session ∧ (session.answer request).log = [] := by
  cases request with
  | create name email =>
    cases hcreate : session.registry.create session.source name email with
    | error error => simp [answer, hcreate]
    | ok created => simp [answer, hcreate] at h
  | find x => exact ⟨rfl, rfl⟩
  | get x => exact ⟨rfl, rfl⟩

/-- A creation is refused with the registration, and else returns its user. -/
theorem Session.result_answer_create (session : Session) (name email : Value) :
    ∃ id, id ∉ session.registry.ids ∧
      (session.answer (.create name email)).result =
        (register name email).map fun accepted => some ⟨id, accepted.name, accepted.email⟩ := by
  refine ⟨_, session.source.draw_notMem session.registry.ids, ?_⟩
  have hcreate := session.registry.create_eq session.source name email
  cases hregister : register name email with
  | error error =>
    rw [hregister] at hcreate
    simp [answer, hcreate, Except.map]
  | ok registration =>
    rw [hregister] at hcreate
    simp [answer, hcreate, Except.map, Registry.enter]

theorem Session.isSome_createdBy_answer (session : Session) (request : Request) :
    (createdBy (request, (session.answer request).result)).isSome =
      hasCreated (request, (session.answer request).result) := by
  cases request with
  | create name email =>
    cases hcreate : session.registry.create session.source name email with
    | error error => simp [answer, hcreate, createdBy, hasCreated]
    | ok created => simp [answer, hcreate, createdBy, hasCreated]
  | find x => rfl
  | get x => rfl

/-! ## A run of requests -/

theorem created_cons (request : Request) (requests : List Request) (result : Result)
    (results : List Result) :
    created (request :: requests) (result :: results) =
      (createdBy (request, result)).toList ++ created requests results := by
  cases h : createdBy (request, result) <;> simp [created, h]

/-- The registry has grown by the created users, and their creation has been noted. -/
theorem Session.after_spec (session : Session) (requests : List Request) :
    let users := created requests (session.results requests)
    (session.after requests).registry.users = session.registry.users ++ users ∧
      session.log requests = users.map creationRecord := by
  induction requests generalizing session with
  | nil => simp [after, log, results, replies, created]
  | cons request requests ih =>
    obtain ⟨husers, -, hlog⟩ := session.answer_spec request
    obtain ⟨hafter, hrest⟩ := ih (session.answer request).session
    rw [results_cons, created_cons, after_cons, log_cons]
    constructor
    · rw [hafter, husers, List.append_assoc]
    · rw [hlog, hrest, List.map_append]

/-- Each creation that has not failed has returned a user. -/
theorem Session.length_created (session : Session) (requests : List Request) :
    (created requests (session.results requests)).length =
      (requests.zip (session.results requests)).countP hasCreated := by
  induction requests generalizing session with
  | nil => rfl
  | cons request requests ih =>
    have hfirst := session.isSome_createdBy_answer request
    rw [results_cons, created_cons, List.length_append, ih, List.zip_cons_cons,
      List.countP_cons, ← hfirst, Nat.add_comm]
    cases createdBy (request, (session.answer request).result) with
    | none => rfl
    | some user => rfl

theorem Session.nodup_ids_answer (h : session.registry.ids.Nodup) (request : Request) :
    (session.answer request).session.registry.ids.Nodup := by
  obtain ⟨husers, hfree, -⟩ := session.answer_spec request
  rw [Registry.ids, husers, List.map_append]
  cases huser : createdBy (request, (session.answer request).result) with
  | none =>
    rw [Option.toList_none, List.map_nil, List.append_nil]
    exact h
  | some user =>
    have hid : user.id ∉ session.registry.ids := hfree user huser
    rw [Option.toList_some, List.map_singleton, ← List.concat_eq_append]
    exact h.concat hid

theorem Session.nodup_ids_after (h : session.registry.ids.Nodup) (requests : List Request) :
    (session.after requests).registry.ids.Nodup := by
  induction requests generalizing session with
  | nil => exact h
  | cons request requests ih => exact ih (session.nodup_ids_answer h request)

/-! ## Looking users up -/

namespace RequestError

theorem notFound_eq (x : Value) :
    notFound x = if x.isPrintable then .fault (.userNotFound x.display) else .unprintable := by
  unfold notFound Fault.userNotFound? Value.print?
  cases x.isPrintable <;> rfl

theorem fault_eq_notFound_iff {fault : Fault} :
    .fault fault = notFound x ↔ x.isPrintable = true ∧ fault = .userNotFound x.display := by
  rw [notFound_eq]
  cases x.isPrintable <;> simp

theorem unprintable_eq_notFound_iff : .unprintable = notFound x ↔ x.isPrintable = false := by
  rw [notFound_eq]
  cases x.isPrintable <;> simp

theorem notAKey_ne_notFound {cause : NotAKey} : .notAKey cause ≠ notFound x := by
  rw [notFound_eq]
  cases x.isPrintable <;> simp

end RequestError

namespace Registry

/-- A list or an object is refused, a text is looked up, and nothing else is an identifier. -/
theorem find?_cases (registry : Registry) (x : Value) :
    (∃ cause, x.notAKey? = some cause ∧ registry.find? x = .error (.notAKey cause)) ∨
      (∃ id, x = .text id ∧ registry.find? x = .ok (registry.users.find? (·.id == id))) ∨
      (x.notAKey? = none ∧ (∀ id, x ≠ .text id) ∧ registry.find? x = .ok none) := by
  cases x with
  | text id => exact .inr (.inl ⟨id, rfl, rfl⟩)
  | list items => exact .inl ⟨.list, rfl, rfl⟩
  | object fields => exact .inl ⟨.object, rfl, rfl⟩
  | _ => exact .inr (.inr ⟨rfl, nofun, rfl⟩)

theorem find?_eq_error_iff {error : RequestError} :
    registry.find? x = .error error ↔ ∃ cause, x.notAKey? = some cause ∧ error = .notAKey cause := by
  rcases registry.find?_cases x with ⟨cause, hkey, hfind⟩ | ⟨id, rfl, hfind⟩ | ⟨hkey, -, hfind⟩
  · simp [hkey, hfind, eq_comm]
  · simp [hfind, Value.notAKey?]
  · simp [hkey, hfind]

theorem find?_users_eq_some_iff (h : registry.ids.Nodup) :
    registry.users.find? (·.id == id) = some user ↔ user ∈ registry.users ∧ user.id = id := by
  constructor
  · intro hfind
    exact ⟨List.mem_of_find?_eq_some hfind, by simpa using List.find?_some hfind⟩
  · rintro ⟨hmem, rfl⟩
    cases hfind : registry.users.find? (·.id == user.id) with
    | none => simpa using List.find?_eq_none.mp hfind user hmem
    | some other =>
      have hid : other.id = user.id := by simpa using List.find?_some hfind
      rw [List.inj_on_of_nodup_map h (List.mem_of_find?_eq_some hfind) hmem hid]

/-- When no two users share an identifier, each is found under its own. -/
theorem find?_eq_some_iff (h : registry.ids.Nodup) :
    registry.find? x = .ok (some user) ↔ x = .text user.id ∧ user ∈ registry.users := by
  rcases registry.find?_cases x with ⟨cause, hkey, hfind⟩ | ⟨id, rfl, hfind⟩ | ⟨-, htext, hfind⟩
  · have htext : x ≠ .text user.id := by
      rintro rfl
      contradiction
    simp [hfind, htext]
  · rw [hfind, Except.ok.injEq, find?_users_eq_some_iff h, Value.text.injEq, and_comm, eq_comm]
  · simp [hfind, htext]

/-- A user is got just when it is found. -/
theorem get_eq_ok_iff : registry.get x = .ok user ↔ registry.find? x = .ok (some user) := by
  unfold get
  cases registry.find? x with
  | error error => simp
  | ok found => cases found <;> simp

/-- Getting fails as finding does, or because nothing is found. -/
theorem get_eq_error_iff {error : RequestError} :
    registry.get x = .error error ↔ registry.find? x = .error error ∨
      (registry.find? x = .ok none ∧ error = .notFound x) := by
  unfold get
  cases registry.find? x with
  | error error => simp
  | ok found => cases found <;> simp [eq_comm]

/-- What is looked up in vain can be printed unless it is too long an integer. -/
theorem isPrintable_iff_of_find? (h : registry.find? x = .ok none) :
    x.isPrintable = true ↔ ∀ n, x = .int n → Number.IsPrintable n := by
  cases x with
  | int n => simp [Value.isPrintable]
  | list items => contradiction
  | object fields => contradiction
  | _ => simp [Value.isPrintable]

theorem get_eq_notAKey_iff {cause : NotAKey} :
    registry.get x = .error (.notAKey cause) ↔ x.notAKey? = some cause := by
  simp [get_eq_error_iff, find?_eq_error_iff, RequestError.notAKey_ne_notFound]

/-- Any error but the refusal of a key means that nothing is found. -/
theorem get_eq_error_iff_of_ne {error : RequestError} (h : ∀ cause, error ≠ .notAKey cause) :
    registry.get x = .error error ↔ registry.find? x = .ok none ∧ error = .notFound x := by
  rw [get_eq_error_iff, find?_eq_error_iff]
  constructor
  · rintro (⟨cause, -, herror⟩ | hfind)
    · exact absurd herror (h cause)
    · exact hfind
  · exact Or.inr

/-- A fault is met just when nothing is found and what is looked up can be printed. -/
theorem get_eq_fault_iff {fault : Fault} :
    registry.get x = .error (.fault fault) ↔ registry.find? x = .ok none ∧
      (∀ n, x = .int n → Number.IsPrintable n) ∧ fault = .userNotFound x.display := by
  have hne : ∀ cause, RequestError.fault fault ≠ .notAKey cause := fun _ => nofun
  rw [get_eq_error_iff_of_ne hne, RequestError.fault_eq_notFound_iff]
  refine and_congr_right fun hfind => ?_
  rw [isPrintable_iff_of_find? hfind]

/-- Only an integer can be too long to be reported, and none is ever found. -/
theorem get_eq_unprintable_iff :
    registry.get x = .error .unprintable ↔ ∃ n, x = .int n ∧ ¬Number.IsPrintable n := by
  have hne : ∀ cause, RequestError.unprintable ≠ .notAKey cause := fun _ => nofun
  rw [get_eq_error_iff_of_ne hne, RequestError.unprintable_eq_notFound_iff]
  constructor
  · rintro ⟨hfind, hlong⟩
    rw [← Bool.not_eq_true, isPrintable_iff_of_find? hfind] at hlong
    simpa using hlong
  · rintro ⟨n, rfl, hlong⟩
    exact ⟨rfl, by simpa [Value.isPrintable] using hlong⟩

end Registry

/-! ## The history as a whole -/

/-- What a registry holds and answers, and what has been noted, is told by the results that
its requests have had.  Getting what is not found is a fault, unless that is an integer of more
than 4300 digits, which cannot be printed. -/
structure IsToldBy (registry : Registry) (log : List Log.Record) (requests : List Request)
    (results : List Result) : Prop where
  size_eq : registry.size = (requests.zip results).countP hasCreated
  nodup_ids : ((created requests results).map User.id).Nodup
  find?_eq_some_iff : ∀ x user, registry.find? x = .ok (some user) ↔
    ∃ id, x = .text id ∧ user ∈ created requests results ∧ user.id = id
  get_eq_ok_iff : ∀ x user, registry.get x = .ok user ↔ registry.find? x = .ok (some user)
  get_eq_error_iff : ∀ x error, registry.get x = .error error ↔
    registry.find? x = .error error ∨
      (registry.find? x = .ok none ∧ error = .notFound x)
  get_eq_fault_iff : ∀ x fault, registry.get x = .error (.fault fault) ↔
    registry.find? x = .ok none ∧
      (∀ n : Int, x = .int n → (Nat.toDigits 10 n.natAbs).length ≤ 4300) ∧
      fault = .userNotFound x.display
  get_eq_unprintable_iff : ∀ x, registry.get x = .error .unprintable ↔
    ∃ n : Int, x = .int n ∧ 4300 < (Nat.toDigits 10 n.natAbs).length
  find?_eq_error_iff : ∀ x error,
    registry.find? x = .error error ↔ ∃ cause, x.notAKey? = some cause ∧ error = .notAKey cause
  get_eq_notAKey_iff : ∀ x cause,
    registry.get x = .error (.notAKey cause) ↔ x.notAKey? = some cause
  log_eq : log = (created requests results).map fun user =>
    ⟨.info, .users, "Created user " ++ user.id⟩

theorem isToldBy_of_users {log : List Log.Record} {results : List Result}
    (husers : registry.users = created requests results)
    (hcount : (created requests results).length = (requests.zip results).countP hasCreated)
    (hids : registry.ids.Nodup) (hlog : log = registry.users.map creationRecord) :
    IsToldBy registry log requests results where
  size_eq := by rw [Registry.size, husers, hcount]
  nodup_ids := by rwa [← husers]
  find?_eq_some_iff := by
    intro x user
    rw [Registry.find?_eq_some_iff hids, ← husers]
    simp
  get_eq_ok_iff := fun _ _ => Registry.get_eq_ok_iff
  get_eq_error_iff := fun _ _ => Registry.get_eq_error_iff
  get_eq_fault_iff := fun _ _ => Registry.get_eq_fault_iff
  get_eq_unprintable_iff := by
    intro x
    simpa [Number.IsPrintable, Number.digitLimit] using Registry.get_eq_unprintable_iff (x := x)
  find?_eq_error_iff := fun _ _ => Registry.find?_eq_error_iff
  get_eq_notAKey_iff := fun _ _ => Registry.get_eq_notAKey_iff
  log_eq := by rw [hlog, husers]; rfl

theorem Session.isToldBy (source : IdSource) (requests : List Request) :
    let session : Session := { source }
    IsToldBy (session.after requests).registry (session.log requests) requests
      (session.results requests) := by
  intro session
  obtain ⟨husers, hlog⟩ := session.after_spec requests
  have hempty : session.registry.users = [] := rfl
  rw [hempty, List.nil_append] at husers
  refine isToldBy_of_users husers (session.length_created requests)
    (session.nodup_ids_after List.nodup_nil requests) ?_
  rw [husers, hlog]

/-- A user that is found stays so, whatever is asked for later. -/
theorem Session.find?_after (h : session.registry.ids.Nodup)
    (hfind : session.registry.find? x = .ok (some user)) (requests : List Request) :
    (session.after requests).registry.find? x = .ok (some user) := by
  obtain ⟨husers, -⟩ := session.after_spec requests
  obtain ⟨rfl, hmem⟩ := (Registry.find?_eq_some_iff h).mp hfind
  have hlater := session.nodup_ids_after h requests
  refine (Registry.find?_eq_some_iff hlater).mpr ⟨rfl, ?_⟩
  rw [husers]
  exact List.mem_append_left _ hmem

/-- A session only ever adds users: a registration that is accepted becomes a user under a free
identifier, a request that fails has no effect, and a user that is found stays so, whatever is
asked for later. -/
structure Session.IsAppendOnly (session : Session) : Prop where
  answer_create : ∀ name email, ∃ id, id ∉ session.registry.ids ∧
    (session.answer (.create name email)).result =
      (register name email).map fun accepted => some ⟨id, accepted.name, accepted.email⟩
  answer_of_error : ∀ request error, (session.answer request).result = .error error →
    (session.answer request).session = session ∧ (session.answer request).log = []
  find?_after : ∀ x user, session.registry.find? x = .ok (some user) →
    ∀ requests, (session.after requests).registry.find? x = .ok (some user)

theorem Session.isAppendOnly_of_nodup (h : session.registry.ids.Nodup) :
    session.IsAppendOnly where
  answer_create := session.result_answer_create
  answer_of_error := fun _ _ => answer_of_error
  find?_after := fun _ _ => session.find?_after h

end Pinfall.Users
