import Mathlib.Data.Nat.Find
import Pinfall.Proofs.Users.History

/-!
# A desk with a table

Requests can also be answered step by step at a desk.  There users lie in a table under their
identifiers, which is changed in place: what is put under an identifier takes the place of
what lies there.  Identifiers come from a sequence of any kind, which may repeat itself for
ever, so that the search for one that is free need not end.

As long as it ends, nothing is ever replaced, and the desk comes to what a session comes to
whose source lists the identifiers that have been drawn.
-/

namespace Pinfall.Users

open Classical in
/-- The first identifier of a sequence, from a place on, that is not taken, and the place behind
it.  There is none if a search from place to place never ends. -/
noncomputable def firstFree (ids : Nat → String) (taken : List String) (place : Nat) :
    Option (String × Nat) :=
  if h : ∃ n, place ≤ n ∧ ids n ∉ taken then some (ids (Nat.find h), Nat.find h + 1) else none

/-- Users in a table, the number of identifiers that have been drawn, and the log. -/
structure Desk where
  table : List (String × User) := []
  drawn : Nat := 0
  log : List Log.Record := []

namespace Desk

/-- The identifiers under which something lies. -/
def keys (desk : Desk) : List String :=
  desk.table.map Prod.fst

/-- A table with a user under an identifier, in place of what lies there. -/
def put (id : String) (user : User) : List (String × User) → List (String × User)
  | [] => [(id, user)]
  | (key, other) :: rest =>
    if key = id then (key, user) :: rest else (key, other) :: put id user rest

/-- The users in the table. -/
def registry (desk : Desk) : Registry :=
  ⟨desk.table.map Prod.snd⟩

end Desk

/-- Steps at a desk, which an error may break off and which need not end. -/
abbrev AtDesk (α : Type) := ExceptT RequestError (StateT Desk Option) α

namespace AtDesk

variable {α β : Type}

/-- What the steps come to, and the desk as they leave it, if they end. -/
def exec (steps : AtDesk α) (desk : Desk) : Option (Except RequestError α × Desk) :=
  (ExceptT.run steps).run desk

def orBreakOff (result : Except RequestError α) : AtDesk α :=
  ExceptT.mk (pure result)

/-- Draw identifiers until one is free. -/
noncomputable def drawFree (ids : Nat → String) : AtDesk String := do
  let desk ← get
  let (id, place) ← (firstFree ids desk.keys desk.drawn : Option (String × Nat))
  set { desk with drawn := place }
  return id

def store (id : String) (user : User) : AtDesk Unit :=
  modify fun desk => { desk with table := Desk.put id user desk.table }

def note (record : Log.Record) : AtDesk Unit :=
  modify fun desk => { desk with log := desk.log ++ [record] }

noncomputable def create (ids : Nat → String) (name email : Value) : AtDesk User := do
  let registration ← orBreakOff (register name email)
  let id ← drawFree ids
  let user : User := ⟨id, registration.name, registration.email⟩
  store id user
  note (creationRecord user)
  return user

def find (x : Value) : AtDesk (Option User) := do
  match x.notAKey?, x with
  | some cause, _ => throw (.notAKey cause)
  | none, .text id => return (← get).table.lookup id
  | none, _ => return none

def getUser (x : Value) : AtDesk User := do
  match ← find x with
  | some user => return user
  | none => throw (.notFound x)

/-- Answer a request. -/
noncomputable def serve (ids : Nat → String) : Request → AtDesk (Option User)
  | .create name email => some <$> create ids name email
  | .find x => find x
  | .get x => some <$> getUser x

end AtDesk

/-- The results of a run of requests, and the desk after it, if all of them come to an end. -/
noncomputable def Desk.run (ids : Nat → String) (desk : Desk) :
    List Request → Option (List Result × Desk)
  | [] => some ([], desk)
  | request :: requests => do
    let (result, later) ← (AtDesk.serve ids request).exec desk
    let (results, last) ← Desk.run ids later requests
    return (result :: results, last)

variable {ids : Nat → String} {desk later : Desk} {request : Request}
  {requests : List Request}

/-! ## Searching -/

theorem firstFree_of_notMem {taken : List String} {place : Nat} (h : ids place ∉ taken) :
    firstFree ids taken place = some (ids place, place + 1) := by
  have hex : ∃ n, place ≤ n ∧ ids n ∉ taken := ⟨place, Nat.le_refl place, h⟩
  have hfind : Nat.find hex = place :=
    Nat.le_antisymm (Nat.find_min' hex ⟨Nat.le_refl place, h⟩) (Nat.find_spec hex).1
  rw [firstFree, dif_pos hex, hfind]

/-- Past an identifier that is taken the search goes on. -/
theorem firstFree_of_mem {taken : List String} {place : Nat} (h : ids place ∈ taken) :
    firstFree ids taken place = firstFree ids taken (place + 1) := by
  have hiff : ∀ n, (place ≤ n ∧ ids n ∉ taken) ↔ (place + 1 ≤ n ∧ ids n ∉ taken) := by
    intro n
    constructor
    · rintro ⟨hle, hfree⟩
      have hne : place ≠ n := by
        rintro rfl
        exact hfree h
      exact ⟨by omega, hfree⟩
    · rintro ⟨hle, hfree⟩
      exact ⟨by omega, hfree⟩
  by_cases hex : ∃ n, place ≤ n ∧ ids n ∉ taken
  · have hnext : ∃ n, place + 1 ≤ n ∧ ids n ∉ taken := hex.imp fun n => (hiff n).mp
    have hfind : Nat.find hex = Nat.find hnext := Nat.find_congr' (hiff _)
    rw [firstFree, firstFree, dif_pos hex, dif_pos hnext, hfind]
  · have hnext : ¬∃ n, place + 1 ≤ n ∧ ids n ∉ taken := fun h => hex (h.imp fun n => (hiff n).mpr)
    rw [firstFree, firstFree, dif_neg hex, dif_neg hnext]

/-- A search ends just when there is something to be found. -/
theorem firstFree_eq_none_iff {taken : List String} {place : Nat} :
    firstFree ids taken place = none ↔ ∀ n, place ≤ n → ids n ∈ taken := by
  simp [firstFree]

/-- The identifiers of a sequence from a place on, up to a bound. -/
def listing (ids : Nat → String) (place bound : Nat) : List String :=
  (List.range' place (bound - place)).map ids

theorem listing_of_lt {place bound : Nat} (h : place < bound) :
    listing ids place bound = ids place :: listing ids (place + 1) bound := by
  have hlength : bound - place = bound - (place + 1) + 1 := by omega
  rw [listing, hlength, List.range'_succ, List.map_cons, listing]

/-- A source that lists the sequence up to a free identifier comes to this one. -/
theorem drawFrom_listing {taken : List String} {place n bound : Nat} (hle : place ≤ n)
    (htaken : ∀ m, place ≤ m → m < n → ids m ∈ taken) (hfree : ids n ∉ taken)
    (hbound : n < bound) :
    IdSource.drawFrom taken 0 (listing ids place bound) =
      (ids n, ⟨listing ids (n + 1) bound, 0⟩) := by
  obtain ⟨distance, rfl⟩ := Nat.exists_eq_add_of_le hle
  induction distance generalizing place with
  | zero =>
    rw [Nat.add_zero] at hfree hbound ⊢
    rw [listing_of_lt hbound, IdSource.drawFrom, if_neg hfree]
  | succ distance ih =>
    have hplace : ids place ∈ taken := htaken place (Nat.le_refl place) (by omega)
    have hnext : place + (distance + 1) = place + 1 + distance := by omega
    rw [listing_of_lt (by omega), IdSource.drawFrom, if_pos hplace]
    rw [hnext] at htaken hfree hbound ⊢
    exact ih (by omega) (fun m hm => htaken m (by omega)) hfree hbound

/-- An identifier that is found is the free one before the new place, and a source that lists
the sequence far enough comes to the same identifier. -/
theorem firstFree_spec {taken : List String} {place next : Nat} {id : String}
    (h : firstFree ids taken place = some (id, next)) :
    (∃ n, place ≤ n ∧ next = n + 1 ∧ id = ids n ∧ ids n ∉ taken) ∧ ∀ bound, next ≤ bound →
      IdSource.drawFrom taken 0 (listing ids place bound) = (id, ⟨listing ids next bound, 0⟩) := by
  classical
  unfold firstFree at h
  split at h
  next hex =>
    obtain ⟨rfl, rfl⟩ := Prod.mk.inj (Option.some.inj h)
    obtain ⟨hle, hfree⟩ := Nat.find_spec hex
    refine ⟨⟨_, hle, rfl, rfl, hfree⟩, ?_⟩
    intro bound hbound
    refine drawFrom_listing hle ?_ hfree hbound
    intro m hm hlt
    by_contra hmem
    exact Nat.find_min hex hlt ⟨hm, hmem⟩
  next => contradiction

theorem notMem_of_firstFree {taken : List String} {place next : Nat} {id : String}
    (h : firstFree ids taken place = some (id, next)) : id ∉ taken := by
  obtain ⟨⟨n, -, -, rfl, hfree⟩, -⟩ := firstFree_spec h
  exact hfree

/-! ## The table -/

namespace Desk

theorem put_of_notMem {id : String} {table : List (String × User)}
    (h : id ∉ table.map Prod.fst) (user : User) : put id user table = table ++ [(id, user)] := by
  induction table with
  | nil => rfl
  | cons entry table ih =>
    rw [List.map_cons, List.mem_cons, not_or] at h
    rw [put, if_neg (Ne.symm h.1), ih h.2, List.cons_append]

/-- Every user lies under its own identifier. -/
def IsKeyed (desk : Desk) : Prop :=
  desk.table = desk.registry.users.map fun user => (user.id, user)

theorem IsKeyed.keys_eq (h : desk.IsKeyed) : desk.keys = desk.registry.ids := by
  rw [keys, h, List.map_map]
  rfl

theorem IsKeyed.lookup_eq (h : desk.IsKeyed) (id : String) :
    desk.table.lookup id = desk.registry.users.find? (·.id == id) := by
  rw [h]
  induction desk.registry.users with
  | nil => rfl
  | cons user users ih =>
    rw [List.map_cons, List.lookup_cons, List.find?_cons, Bool.beq_comm]
    cases hid : user.id == id with
    | true => rfl
    | false => exact ih

end Desk

/-! ## Steps -/

namespace AtDesk

variable {α β : Type}

theorem exec_bind (steps : AtDesk α) (next : α → AtDesk β) (desk : Desk) :
    (steps >>= next).exec desk =
      match steps.exec desk with
      | none => none
      | some (.ok a, later) => (next a).exec later
      | some (.error error, later) => some (.error error, later) := by
  rw [exec, exec, ExceptT.run_bind, StateT.run_bind]
  rcases (ExceptT.run steps).run desk with _ | ⟨result, later⟩
  · rfl
  · cases result with
    | error error => rfl
    | ok a => rfl

@[simp] theorem exec_pure (a : α) (desk : Desk) :
    (pure a : AtDesk α).exec desk = some (.ok a, desk) := rfl

@[simp] theorem exec_orBreakOff (result : Except RequestError α) (desk : Desk) :
    (orBreakOff result).exec desk = some (result, desk) := rfl

@[simp] theorem exec_store (id : String) (user : User) (desk : Desk) :
    (store id user).exec desk =
      some (.ok (), { desk with table := Desk.put id user desk.table }) := rfl

@[simp] theorem exec_note (record : Log.Record) (desk : Desk) :
    (note record).exec desk = some (.ok (), { desk with log := desk.log ++ [record] }) := rfl

theorem exec_map (f : α → β) (steps : AtDesk α) (desk : Desk) :
    (f <$> steps).exec desk =
      (steps.exec desk).map fun outcome => (f <$> outcome.1, outcome.2) := by
  rw [map_eq_pure_bind, exec_bind]
  rcases steps.exec desk with _ | ⟨_ | _, later⟩ <;> rfl

theorem exec_lift (a : Option α) (desk : Desk) :
    (liftM a : AtDesk α).exec desk = a.map fun a => (.ok a, desk) := by
  cases a with
  | none => rfl
  | some a => rfl

theorem exec_drawFree (ids : Nat → String) (desk : Desk) :
    (drawFree ids).exec desk =
      (firstFree ids desk.keys desk.drawn).map fun found =>
        (.ok found.1, { desk with drawn := found.2 }) := by
  have hget : (get : AtDesk Desk).exec desk = some (.ok desk, desk) := rfl
  have hset : ∀ next, (set next : AtDesk PUnit).exec desk = some (.ok ⟨⟩, next) := fun _ => rfl
  rw [drawFree, exec_bind, hget]
  dsimp only
  rw [exec_bind, exec_lift]
  cases firstFree ids desk.keys desk.drawn with
  | none => rfl
  | some found => rfl

/-- A creation breaks off before its first change, or puts a user under an identifier that
was free. -/
theorem exec_create (ids : Nat → String) (name email : Value) (desk : Desk) :
    (create ids name email).exec desk =
      match register name email with
      | .error error => some (.error error, desk)
      | .ok registration =>
        (firstFree ids desk.keys desk.drawn).map fun found =>
          let user : User := ⟨found.1, registration.name, registration.email⟩
          (.ok user,
            { table := desk.table ++ [(found.1, user)]
              drawn := found.2
              log := desk.log ++ [creationRecord user] }) := by
  rw [create, exec_bind, exec_orBreakOff]
  cases register name email with
  | error error => rfl
  | ok registration =>
    dsimp only
    rw [exec_bind, exec_drawFree]
    cases hfound : firstFree ids desk.keys desk.drawn with
    | none => rfl
    | some found =>
      have hfree := notMem_of_firstFree hfound
      simp only [exec_bind, exec_store, exec_note, exec_pure, Option.map_some,
        Desk.put_of_notMem hfree]

theorem exec_find (h : desk.IsKeyed) (x : Value) :
    (find x).exec desk = some (desk.registry.find? x, desk) := by
  cases x with
  | text id =>
    have hfind : desk.registry.find? (.text id) = .ok (desk.table.lookup id) := by
      rw [h.lookup_eq]
      rfl
    rw [hfind]
    rfl
  | _ => rfl

theorem exec_getUser (h : desk.IsKeyed) (x : Value) :
    (getUser x).exec desk = some (desk.registry.get x, desk) := by
  rw [getUser, exec_bind, exec_find h, Registry.get]
  cases desk.registry.find? x with
  | error error => rfl
  | ok found =>
    cases found with
    | none => rfl
    | some user => rfl

end AtDesk

/-! ## One request -/

/-- A request that is answered either creates a user under a free identifier or leaves the
desk as it was, and any session with the same users does likewise. -/
theorem AtDesk.exec_serve_cases {result : Result} (hkeyed : desk.IsKeyed)
    (h : (serve ids request).exec desk = some (result, later)) :
    (later = desk ∧ ∀ source, (Session.mk desk.registry source).answer request =
      { session := ⟨desk.registry, source⟩, result }) ∨
    ∃ user, result = .ok (some user) ∧
      firstFree ids desk.registry.ids desk.drawn = some (user.id, later.drawn) ∧
      later.table = desk.table ++ [(user.id, user)] ∧
      later.log = desk.log ++ [creationRecord user] ∧
      ∀ source rest, source.draw desk.registry.ids = (user.id, rest) →
        (Session.mk desk.registry source).answer request =
          { session := ⟨⟨desk.registry.users ++ [user]⟩, rest⟩
            result
            log := [creationRecord user] } := by
  cases request with
  | create name email =>
    have hcreate source := desk.registry.create_eq source name email
    rw [serve, exec_map, exec_create, hkeyed.keys_eq] at h
    cases hregister : register name email with
    | error error =>
      rw [hregister, Option.map_some, Option.some.injEq, Prod.mk.injEq] at h
      obtain ⟨rfl, rfl⟩ := h
      refine .inl ⟨rfl, ?_⟩
      intro source
      simp only [Session.answer, hcreate, hregister]
      rfl
    | ok registration =>
      simp only [hregister, Option.map_map, Option.map_eq_some_iff] at h
      obtain ⟨⟨id, place⟩, hfound, hlater⟩ := h
      obtain ⟨rfl, rfl⟩ := Prod.mk.inj hlater
      refine .inr ⟨⟨id, registration.name, registration.email⟩, rfl, hfound, rfl, rfl, ?_⟩
      intro source rest hdraw
      simp only [Session.answer, hcreate, hregister, Except.map, Registry.enter, hdraw]
      rfl
  | find x =>
    rw [serve, exec_find hkeyed, Option.some.injEq, Prod.mk.injEq] at h
    obtain ⟨rfl, rfl⟩ := h
    exact .inl ⟨rfl, fun _ => rfl⟩
  | get x =>
    rw [serve, exec_map, exec_getUser hkeyed, Option.map_some, Option.some.injEq,
      Prod.mk.injEq] at h
    obtain ⟨rfl, rfl⟩ := h
    exact .inl ⟨rfl, fun _ => rfl⟩

/-- A request that fails leaves the desk as it was. -/
theorem AtDesk.exec_serve_of_error {error : RequestError} (hkeyed : desk.IsKeyed)
    (h : (serve ids request).exec desk = some (.error error, later)) : later = desk := by
  rcases exec_serve_cases hkeyed h with ⟨hlater, -⟩ | ⟨user, hresult, -⟩
  · exact hlater
  · contradiction

/-- Only a creation may never end, and only because no identifier to come is free. -/
theorem AtDesk.exec_serve_eq_none_iff (hkeyed : desk.IsKeyed) :
    (serve ids request).exec desk = none ↔
      (∃ name email registration, request = .create name email ∧
        register name email = .ok registration) ∧
      ∀ n, desk.drawn ≤ n → ids n ∈ desk.registry.ids := by
  cases request with
  | create name email =>
    rw [serve, exec_map, exec_create, hkeyed.keys_eq, ← firstFree_eq_none_iff]
    cases hregister : register name email with
    | error error => simp [hregister]
    | ok registration => simp [hregister]
  | find x => simp [serve, exec_find hkeyed]
  | get x => simp [serve, exec_map, exec_getUser hkeyed]

/-! ## A desk and a session -/

namespace Desk

/-- The users of a desk with a source that lists the identifiers up to a bound. -/
def session (desk : Desk) (ids : Nat → String) (bound : Nat) : Session :=
  ⟨desk.registry, ⟨listing ids desk.drawn bound, 0⟩⟩

/-- A desk and a session that lists enough identifiers answer a request alike. -/
theorem serve_spec {result : Result} (hkeyed : desk.IsKeyed)
    (h : (AtDesk.serve ids request).exec desk = some (result, later)) :
    later.IsKeyed ∧ desk.drawn ≤ later.drawn ∧ ∀ bound, later.drawn ≤ bound →
      ∃ log, (desk.session ids bound).answer request = ⟨later.session ids bound, result, log⟩ ∧
        later.log = desk.log ++ log := by
  rcases AtDesk.exec_serve_cases hkeyed h with ⟨rfl, hanswer⟩ |
    ⟨user, rfl, hfound, htable, hlog, hanswer⟩
  · refine ⟨hkeyed, Nat.le_refl later.drawn, ?_⟩
    intro bound _
    exact ⟨[], hanswer _, (List.append_nil later.log).symm⟩
  · obtain ⟨⟨n, hle, hnext, -, -⟩, hdraw⟩ := firstFree_spec hfound
    have husers : later.registry.users = desk.registry.users ++ [user] := by
      simp [registry, htable]
    refine ⟨?_, by omega, ?_⟩
    · rw [IsKeyed, husers, htable, List.map_append, ← hkeyed]
      rfl
    · intro bound hbound
      have hanswer := hanswer ⟨listing ids desk.drawn bound, 0⟩ _ (hdraw bound hbound)
      refine ⟨[creationRecord user], ?_, hlog⟩
      rw [session, hanswer, session, ← husers]

/-- As long as every request ends, a desk comes to what a session comes to. -/
theorem run_spec {results : List Result} (hkeyed : desk.IsKeyed)
    (h : Desk.run ids desk requests = some (results, later)) :
    later.IsKeyed ∧ desk.drawn ≤ later.drawn ∧ ∀ bound, later.drawn ≤ bound →
      (desk.session ids bound).after requests = later.session ids bound ∧
        (desk.session ids bound).results requests = results ∧
        later.log = desk.log ++ (desk.session ids bound).log requests := by
  induction requests generalizing desk results with
  | nil =>
    rw [run, Option.some.injEq, Prod.mk.injEq] at h
    obtain ⟨rfl, rfl⟩ := h
    refine ⟨hkeyed, Nat.le_refl desk.drawn, ?_⟩
    intro bound _
    exact ⟨rfl, rfl, (List.append_nil desk.log).symm⟩
  | cons request requests ih =>
    simp only [run, Option.bind_eq_bind, Option.bind_eq_some_iff, Option.pure_def,
      Option.some.injEq, Prod.exists, Prod.mk.injEq] at h
    obtain ⟨result, next, hserve, rest, last, hrest, rfl, rfl⟩ := h
    obtain ⟨hnext, hle, hanswer⟩ := serve_spec hkeyed hserve
    obtain ⟨hlast, hle', hafter⟩ := ih hnext hrest
    refine ⟨hlast, by omega, ?_⟩
    intro bound hbound
    obtain ⟨log, hfirst, hlog⟩ := hanswer bound (by omega)
    obtain ⟨hsession, hresults, hrestLog⟩ := hafter bound hbound
    rw [Session.after_cons, Session.results_cons, Session.log_cons, hfirst]
    refine ⟨hsession, congrArg (List.cons result) hresults, ?_⟩
    rw [hrestLog, hlog, List.append_assoc]

/-- Where free identifiers never run out, every run of requests ends. -/
theorem exists_run (hids : ∀ (taken : List String) place, ∃ n, place ≤ n ∧ ids n ∉ taken)
    (hkeyed : desk.IsKeyed) (requests : List Request) :
    ∃ results later, Desk.run ids desk requests = some (results, later) := by
  induction requests generalizing desk with
  | nil => exact ⟨[], desk, rfl⟩
  | cons request requests ih =>
    cases hserve : (AtDesk.serve ids request).exec desk with
    | none =>
      obtain ⟨-, htaken⟩ := (AtDesk.exec_serve_eq_none_iff hkeyed).mp hserve
      obtain ⟨n, hle, hfree⟩ := hids desk.registry.ids desk.drawn
      exact absurd (htaken n hle) hfree
    | some outcome =>
      obtain ⟨hnext, -, -⟩ := serve_spec hkeyed hserve
      obtain ⟨results, last, hrest⟩ := ih hnext
      exact ⟨outcome.1 :: results, last, by simp [run, hserve, hrest]⟩

end Desk

/-! ## The registry as a whole -/

/-- A desk only ever adds users.  What it finds is what its users tell; a request that fails
has no effect; one that never ends is a creation for which no identifier to come is free; and
a user that is found stays so, as long as the requests end. -/
structure Desk.IsAppendOnly (ids : Nat → String) (desk : Desk) : Prop where
  exec_find : ∀ x, (AtDesk.find x).exec desk = some (desk.registry.find? x, desk)
  exec_getUser : ∀ x, (AtDesk.getUser x).exec desk = some (desk.registry.get x, desk)
  eq_of_error : ∀ request error later,
    (AtDesk.serve ids request).exec desk = some (.error error, later) → later = desk
  serve_eq_none_iff : ∀ request, (AtDesk.serve ids request).exec desk = none ↔
    (∃ name email registration, request = .create name email ∧
      register name email = .ok registration) ∧
    ∀ n, desk.drawn ≤ n → ids n ∈ desk.registry.ids
  find_run : ∀ x user, (AtDesk.find x).exec desk = some (.ok (some user), desk) →
    ∀ requests results later, Desk.run ids desk requests = some (results, later) →
      (AtDesk.find x).exec later = some (.ok (some user), later)

theorem Desk.IsKeyed.isAppendOnly (hkeyed : desk.IsKeyed) (hids : desk.registry.ids.Nodup) :
    desk.IsAppendOnly ids where
  exec_find := AtDesk.exec_find hkeyed
  exec_getUser := AtDesk.exec_getUser hkeyed
  eq_of_error := fun _ _ _ => AtDesk.exec_serve_of_error hkeyed
  serve_eq_none_iff := fun _ => AtDesk.exec_serve_eq_none_iff hkeyed
  find_run := by
    intro x user hfind requests results later hrun
    obtain ⟨hlater, -, hspec⟩ := run_spec hkeyed hrun
    obtain ⟨hafter, -⟩ := hspec later.drawn (Nat.le_refl _)
    rw [AtDesk.exec_find hkeyed, Option.some.injEq, Prod.mk.injEq] at hfind
    have hstays : (later.session ids later.drawn).registry.find? x = .ok (some user) := by
      rw [← hafter]
      exact Session.find?_after hids hfind.1 requests
    rw [AtDesk.exec_find hlater]
    exact congrArg (fun found => some (found, later)) hstays

/-- Whatever is asked of a new registry and wherever the identifiers come from, the history of
the requests tells what is held, found and noted, and nothing is ever changed or removed.  At
a desk every request ends if free identifiers never run out. -/
theorem registry_isAppendOnly (requests : List Request) :
    (∀ source : IdSource,
      let start : Session := { source }
      let session := start.after requests
      IsToldBy session.registry (start.log requests) requests (start.results requests) ∧
        session.IsAppendOnly) ∧
    ∀ ids : Nat → String,
      ((∀ (taken : List String) place, ∃ n, place ≤ n ∧ ids n ∉ taken) →
        ∃ results desk, Desk.run ids {} requests = some (results, desk)) ∧
      ∀ results desk, Desk.run ids {} requests = some (results, desk) →
        IsToldBy desk.registry desk.log requests results ∧ desk.IsAppendOnly ids := by
  have hnew : ({} : Desk).IsKeyed := rfl
  constructor
  · intro source start session
    have hids : session.registry.ids.Nodup := start.nodup_ids_after List.nodup_nil requests
    exact ⟨Session.isToldBy source requests, Session.isAppendOnly_of_nodup hids⟩
  · intro ids
    refine ⟨fun hids => Desk.exists_run hids hnew requests, ?_⟩
    intro results desk hrun
    obtain ⟨hkeyed, -, hspec⟩ := Desk.run_spec hnew hrun
    obtain ⟨hafter, rfl, hlog⟩ := hspec desk.drawn (Nat.le_refl desk.drawn)
    let start : Session := { source := ⟨listing ids 0 desk.drawn, 0⟩ }
    have hregistry : (start.after requests).registry = desk.registry :=
      congrArg Session.registry hafter
    have htold : IsToldBy (start.after requests).registry (start.log requests) requests
        (start.results requests) := Session.isToldBy start.source requests
    have hids := start.nodup_ids_after List.nodup_nil requests
    rw [hregistry] at htold hids
    rw [hlog]
    exact ⟨htold, hkeyed.isAppendOnly hids⟩

/-- Identifiers that come twice, with an end to the free ones and without. -/
theorem registry_isAppendOnly_of_repetition :
    let ids : Nat → String := fun place => if place = 2 then "b" else "a"
    let ann : User := ⟨"a", "Ann", "ann@home"⟩
    let bob : User := ⟨"b", "Bob", "bob@home"⟩
    let requests : List Request :=
      [.create (.text "Ann") (.text "ann@home"), .create (.text "Bob") (.text "bob@home"),
        .get (.text "a")]
    let results : List Result := [.ok (some ann), .ok (some bob), .ok (some ann)]
    let desk : Desk :=
      { table := [("a", ann), ("b", bob)], drawn := 3
        log := [⟨.info, .users, "Created user a"⟩, ⟨.info, .users, "Created user b"⟩] }
    (Desk.run ids {} requests = some (results, desk) ∧
      IsToldBy desk.registry desk.log requests results ∧ desk.IsAppendOnly ids) ∧
    ∃ results desk,
      Desk.run (fun place => IdSource.numbered (place / 2)) {} requests = some (results, desk) := by
  intro ids ann bob requests results desk
  let withAnn : Desk := { table := [("a", ann)], drawn := 1, log := [creationRecord ann] }
  have hann : firstFree ids ({} : Desk).keys 0 = some ("a", 1) := by
    rw [firstFree_of_notMem (by decide)]
    rfl
  have hbob : firstFree ids withAnn.keys 1 = some ("b", 3) := by
    rw [firstFree_of_mem (by decide), firstFree_of_notMem (by decide)]
    rfl
  have hfirst : (AtDesk.serve ids (.create (.text "Ann") (.text "ann@home"))).exec {} =
      some (.ok (some ann), withAnn) := by
    have hregister : register (.text "Ann") (.text "ann@home") = .ok ⟨"Ann", "ann@home"⟩ := rfl
    rw [AtDesk.serve, AtDesk.exec_map, AtDesk.exec_create, hregister]
    dsimp only
    rw [hann]
    rfl
  have hsecond : (AtDesk.serve ids (.create (.text "Bob") (.text "bob@home"))).exec withAnn =
      some (.ok (some bob), desk) := by
    have hregister : register (.text "Bob") (.text "bob@home") = .ok ⟨"Bob", "bob@home"⟩ := rfl
    rw [AtDesk.serve, AtDesk.exec_map, AtDesk.exec_create, hregister]
    dsimp only
    rw [hbob]
    rfl
  have hrun : Desk.run ids {} requests = some (results, desk) := by
    simp only [requests, Desk.run, Option.bind_eq_bind, hfirst, hsecond, Option.bind_some]
    rfl
  have htwice : ∀ (taken : List String) place, ∃ n, place ≤ n ∧
      IdSource.numbered (n / 2) ∉ taken := by
    intro taken place
    obtain ⟨hle, hfree⟩ := IdSource.freeNumber_spec taken place
    refine ⟨2 * IdSource.freeNumber taken place, by omega, ?_⟩
    rwa [Nat.mul_div_cancel_left _ (by decide)]
  have hdesk := (registry_isAppendOnly requests).2
  exact ⟨⟨hrun, (hdesk ids).2 results desk hrun⟩, (hdesk _).1 htwice⟩

/-- An integer that is too long to be printed is not found, but there is no fault to say so. -/
theorem get_of_long_integer :
    let x : Value := .int (Nat.pow 10 Number.digitLimit)
    let start : Session := {}
    start.results [.find x, .get x] = [.ok none, .error .unprintable] ∧
      start.registry.find? x = .ok none ∧
      ∀ fault, start.registry.get x ≠ .error (.fault fault) := by
  intro x start
  have hlong := Number.not_isPrintable_pow (Nat.le_refl Number.digitLimit)
  have hget : start.registry.get x = .error .unprintable :=
    Registry.get_eq_unprintable_iff.mpr ⟨_, rfl, hlong⟩
  refine ⟨?_, rfl, ?_⟩
  · change [Except.ok none, some <$> start.registry.get x] = _
    rw [hget]
    rfl
  · intro fault
    rw [hget]
    exact nofun

end Pinfall.Users
