import Mathlib.Data.Nat.Nth
import Pinfall.Proofs.Users.History

/-!
# Which identifiers are handed out

A source is a sequence without end: its list, and behind it numerals that are all different.
A creation goes through the sequence until it comes to an identifier that no user has.  As
each user has one, this is so after as many draws as there are users and places in the list,
and one more at most.  From a new registry on, everything that has been drawn is an identifier
of some user.  So what is passed over repeats something earlier, and what is handed out is the
sequence without its repetitions.
-/

namespace Pinfall.Users

variable {ids : Nat → String} {place : Nat} {id : String}

/-! ## A sequence without its repetitions -/

/-- What stands at a place of a sequence has not come before. -/
def IsNew (ids : Nat → String) (place : Nat) : Prop :=
  ∀ earlier < place, ids earlier ≠ ids place

instance (ids : Nat → String) : DecidablePred (IsNew ids) := fun place =>
  inferInstanceAs (Decidable (∀ earlier < place, ids earlier ≠ ids place))

/-- A sequence of which everything is left out that repeats something earlier. -/
noncomputable def distinct (ids : Nat → String) (k : Nat) : String :=
  ids (Nat.nth (IsNew ids) k)

/-- What comes before a place of a sequence, without repetitions. -/
noncomputable def distinctBefore (ids : Nat → String) (place : Nat) : List String :=
  (List.range (Nat.count (IsNew ids) place)).map (distinct ids)

/-- Leaving repetitions out takes nothing away: whatever comes before a place has come there
for a first time. -/
theorem mem_distinctBefore_iff : id ∈ distinctBefore ids place ↔ ∃ m < place, ids m = id := by
  rw [distinctBefore, List.mem_map]
  constructor
  · rintro ⟨k, hk, rfl⟩
    exact ⟨_, Nat.nth_lt_of_lt_count (List.mem_range.mp hk), rfl⟩
  · intro hex
    obtain ⟨hlt, hid⟩ := Nat.find_spec hex
    have hnew : IsNew ids (Nat.find hex) := by
      intro earlier hearlier heq
      exact Nat.find_min hex hearlier ⟨by omega, heq.trans hid⟩
    refine ⟨_, List.mem_range.mpr (Nat.count_strict_mono hnew hlt), ?_⟩
    rw [distinct, Nat.nth_count hnew, hid]

theorem isNew_iff : IsNew ids place ↔ ids place ∉ distinctBefore ids place := by
  rw [mem_distinctBefore_iff]
  simp [IsNew]

theorem distinctBefore_succ_of_mem (h : ids place ∈ distinctBefore ids place) :
    distinctBefore ids (place + 1) = distinctBefore ids place := by
  have hold : ¬IsNew ids place := fun hnew => isNew_iff.mp hnew h
  rw [distinctBefore, distinctBefore, Nat.count_succ, if_neg hold, Nat.add_zero]

theorem distinctBefore_succ_of_notMem (h : ids place ∉ distinctBefore ids place) :
    distinctBefore ids (place + 1) = distinctBefore ids place ++ [ids place] := by
  have hnew : IsNew ids place := isNew_iff.mpr h
  rw [distinctBefore, Nat.count_succ, if_pos hnew, List.range_succ, List.map_append,
    List.map_singleton, distinct, Nat.nth_count hnew, distinctBefore]

/-- Passing over repetitions adds nothing. -/
theorem distinctBefore_add {n : Nat} (h : ∀ m < n, ids (place + m) ∈ distinctBefore ids place) :
    distinctBefore ids (place + n) = distinctBefore ids place := by
  induction n with
  | zero => rfl
  | succ n ih =>
    have hbefore := ih fun m hm => h m (by omega)
    have hlast := h n (Nat.lt_succ_self n)
    rw [← hbefore] at hlast
    rw [← Nat.add_assoc, distinctBefore_succ_of_mem hlast, hbefore]

/-! ## A source as a sequence -/

namespace IdSource

/-- What a source has at a place: its list first, then numerals. -/
def value (source : IdSource) (place : Nat) : String :=
  source.listed[place]?.getD
    (numbered (source.counted + 1 + (place - source.listed.length)))

/-- What is left of a source after a number of draws. -/
def rest (source : IdSource) (drawn : Nat) : IdSource :=
  ⟨source.listed.drop drawn, source.counted + (drawn - source.listed.length)⟩

variable (source : IdSource)

theorem rest_zero : source.rest 0 = source := by
  simp [rest]

theorem value_rest (drawn place : Nat) :
    (source.rest drawn).value place = source.value (drawn + place) := by
  rw [value, value, rest, List.getElem?_drop]
  cases hlisted : source.listed[drawn + place]? with
  | some id => rw [Option.getD_some, Option.getD_some]
  | none =>
    have hlength := List.getElem?_eq_none_iff.mp hlisted
    rw [List.length_drop]
    apply congrArg numbered
    dsimp only
    omega

theorem rest_rest (drawn more : Nat) :
    (source.rest drawn).rest more = source.rest (drawn + more) := by
  rw [rest, rest, rest, List.drop_drop, List.length_drop, IdSource.mk.injEq]
  refine ⟨rfl, ?_⟩
  dsimp only
  omega

/-- No number is passed over but those of identifiers that are taken, and there are no more
of these than identifiers that are taken. -/
theorem freeNumber_first (taken : List String) (n : Nat) :
    freeNumber taken n ≤ n + taken.length ∧
      ∀ m, n ≤ m → m < freeNumber taken n → numbered m ∈ taken := by
  fun_induction freeNumber taken n with
  | case1 taken n hmem ih =>
    obtain ⟨hle, htaken⟩ := ih
    have hlength := List.length_erase_of_mem hmem
    have hpos := List.length_pos_of_mem hmem
    refine ⟨by omega, ?_⟩
    intro m hm hlt
    rcases Nat.eq_or_lt_of_le hm with rfl | hm
    · exact hmem
    · exact List.mem_of_mem_erase (htaken m hm hlt)
  | case2 taken n hfree => exact ⟨by omega, fun m hm hlt => by omega⟩

/-- A place is the first of a sequence at which an identifier is free. -/
structure IsFirstFree (source : IdSource) (taken : List String) (n : Nat) : Prop where
  taken_before : ∀ m < n, source.value m ∈ taken
  free : source.value n ∉ taken

/-- Draw one identifier after the other until one is not taken, but no more than a number of
them. -/
def search (taken : List String) : Nat → IdSource → Option (String × IdSource)
  | 0, _ => none
  | draws + 1, source =>
    if source.value 0 ∈ taken then search taken draws (source.rest 1)
    else some (source.value 0, source.rest 1)

variable {source} {taken : List String} {n : Nat}

theorem value_rest_one (place : Nat) : (source.rest 1).value place = source.value (place + 1) := by
  rw [value_rest, Nat.add_comm]

theorem rest_one_rest (drawn : Nat) : (source.rest 1).rest drawn = source.rest (drawn + 1) := by
  rw [rest_rest, Nat.add_comm]

/-- If what comes next is taken, the first free identifier is that of the rest. -/
theorem isFirstFree_succ_iff : source.IsFirstFree taken (n + 1) ↔
    source.value 0 ∈ taken ∧ (source.rest 1).IsFirstFree taken n := by
  constructor
  · intro h
    refine ⟨h.taken_before 0 (Nat.zero_lt_succ n), ?_, ?_⟩
    · intro m hm
      rw [value_rest_one]
      exact h.taken_before (m + 1) (Nat.succ_lt_succ hm)
    · rw [value_rest_one]
      exact h.free
  · rintro ⟨htaken, h⟩
    constructor
    · intro m hm
      cases m with
      | zero => exact htaken
      | succ m =>
        rw [← value_rest_one]
        exact h.taken_before m (Nat.lt_of_succ_lt_succ hm)
    · rw [← value_rest_one]
      exact h.free

/-- A search ends with the first free identifier, and not before. -/
theorem search_eq (h : source.IsFirstFree taken n) (draws : Nat) :
    source.search taken draws =
      if n < draws then some (source.value n, source.rest (n + 1)) else none := by
  induction draws generalizing source n with
  | zero => rw [search, if_neg (Nat.not_lt_zero n)]
  | succ draws ih =>
    cases n with
    | zero => rw [search, if_neg h.free, if_pos (Nat.zero_lt_succ draws)]
    | succ n =>
      obtain ⟨htaken, hrest⟩ := isFirstFree_succ_iff.mp h
      rw [search, if_pos htaken, ih hrest, value_rest_one, rest_one_rest]
      simp only [Nat.add_lt_add_iff_right]

example : (IdSource.mk ["a", "a", "b"] 0).search ["a"] 2 = none ∧
    (IdSource.mk ["a", "a", "b"] 0).search ["a"] 3 = some ("b", {}) := by
  decide

/-- A drawing comes to the first free identifier, within the list or as many numerals as
identifiers are taken, and one more. -/
theorem drawFrom_spec (taken : List String) (counted : Nat) (listed : List String) :
    let source : IdSource := ⟨listed, counted⟩
    ∃ n ≤ listed.length + taken.length, source.IsFirstFree taken n ∧
      drawFrom taken counted listed = (source.value n, source.rest (n + 1)) := by
  induction listed with
  | nil =>
    obtain ⟨hle, hfree⟩ := freeNumber_spec taken (counted + 1)
    obtain ⟨hbound, htaken⟩ := freeNumber_first taken (counted + 1)
    obtain ⟨n, hn⟩ := Nat.exists_eq_add_of_le hle
    have hvalue : ∀ m, (IdSource.mk [] counted).value m = numbered (counted + 1 + m) :=
      fun _ => rfl
    have hrest : (IdSource.mk [] counted).rest (n + 1) = ⟨[], freeNumber taken (counted + 1)⟩ := by
      rw [hn, Nat.add_assoc, Nat.add_comm 1 n]
      rfl
    refine ⟨n, by rw [List.length_nil]; omega, ⟨?_, ?_⟩, ?_⟩
    · intro m hm
      rw [hvalue]
      exact htaken _ (by omega) (by omega)
    · rwa [hvalue, ← hn]
    · rw [hrest, hvalue, ← hn, drawFrom]
  | cons id listed ih =>
    by_cases hid : id ∈ taken
    · obtain ⟨n, hn, hfirst, hdraw⟩ := ih
      have hrest : (IdSource.mk (id :: listed) counted).rest 1 = ⟨listed, counted⟩ := by
        simp [rest]
      rw [← hrest] at hfirst hdraw
      refine ⟨n + 1, by rw [List.length_cons]; omega,
        isFirstFree_succ_iff.mpr ⟨hid, hfirst⟩, ?_⟩
      rw [drawFrom, if_pos hid, hdraw, value_rest_one, rest_one_rest]
    · exact ⟨0, by omega, ⟨by simp, hid⟩, by simp [drawFrom, hid, value, rest]⟩

/-- Whatever is taken, a source comes to a free identifier in the end. -/
theorem exists_isFirstFree (source : IdSource) (taken : List String) :
    ∃ n ≤ source.listed.length + taken.length, source.IsFirstFree taken n ∧
      source.draw taken = (source.value n, source.rest (n + 1)) :=
  drawFrom_spec taken source.counted source.listed

/-- A source never runs out of values that it has not had before. -/
theorem infinite_isNew (source : IdSource) : {place | IsNew source.value place}.Infinite := by
  refine Set.infinite_of_forall_exists_gt ?_
  intro bound
  let taken := (List.range (bound + 1)).map source.value
  have hmem : ∀ m ≤ bound, source.value m ∈ taken := by
    intro m hm
    exact List.mem_map_of_mem (List.mem_range.mpr (by omega))
  obtain ⟨n, -, hfirst, -⟩ := source.exists_isFirstFree taken
  refine ⟨n, ?_, ?_⟩
  · intro earlier hearlier heq
    have htaken := hfirst.taken_before earlier hearlier
    rw [heq] at htaken
    exact hfirst.free htaken
  · by_contra hle
    exact hfirst.free (hmem n (by omega))

end IdSource

/-! ## One creation -/

namespace Session

variable {session : Session} {name email : Value} {registration : Registration}
  {error : RequestError} {source : IdSource}

/-- An accepted registration becomes a user under the first identifier that is free, and what
has been drawn for it is gone. -/
theorem answer_create_of_ok (session : Session) (h : register name email = .ok registration) :
    ∃ n ≤ session.source.listed.length + session.registry.size,
      session.source.IsFirstFree session.registry.ids n ∧
      let user : User := ⟨session.source.value n, registration.name, registration.email⟩
      session.answer (.create name email) =
        { session := ⟨⟨session.registry.users ++ [user]⟩, session.source.rest (n + 1)⟩
          result := .ok (some user)
          log := [creationRecord user] } := by
  obtain ⟨n, hn, hfirst, hdraw⟩ := session.source.exists_isFirstFree session.registry.ids
  rw [Registry.ids, List.length_map] at hn
  refine ⟨n, hn, hfirst, ?_⟩
  simp only [answer, Registry.create_eq, h, Except.map, Registry.enter, hdraw]

theorem answer_create_of_error (h : register name email = .error error) :
    session.answer (.create name email) = { session, result := .error error } := by
  simp only [answer, Registry.create_eq, h, Except.map]

/-! ## A run from a new registry -/

/-- A session has drawn the values of a source before a place: its users have those that are
different, and the others are still to come. -/
structure HasDrawn (source : IdSource) (place : Nat) (session : Session) : Prop where
  source_eq : session.source = source.rest place
  ids_eq : session.registry.ids = distinctBefore source.value place

theorem HasDrawn.start (source : IdSource) : HasDrawn source 0 { source } where
  source_eq := source.rest_zero.symm
  ids_eq := by simp [Registry.ids, distinctBefore]

theorem HasDrawn.answer (h : HasDrawn source place session) (request : Request) :
    ∃ later, HasDrawn source later (session.answer request).session := by
  cases request with
  | create name email =>
    cases hregister : register name email with
    | error error =>
      rw [answer_create_of_error hregister]
      exact ⟨place, h⟩
    | ok registration =>
      obtain ⟨n, -, hfirst, hanswer⟩ := answer_create_of_ok session hregister
      rw [h.source_eq, h.ids_eq] at hfirst
      have hbefore : distinctBefore source.value (place + n) = distinctBefore source.value place := by
        apply distinctBefore_add
        intro m hm
        rw [← source.value_rest]
        exact hfirst.taken_before m hm
      have hnew : source.value (place + n) ∉ distinctBefore source.value (place + n) := by
        rw [hbefore, ← source.value_rest]
        exact hfirst.free
      refine ⟨place + n + 1, ?_⟩
      rw [hanswer]
      constructor
      · rw [h.source_eq, source.rest_rest, Nat.add_assoc]
      · rw [distinctBefore_succ_of_notMem hnew, hbefore, ← h.ids_eq, ← source.value_rest,
          ← h.source_eq]
        simp [Registry.ids]
  | find id => exact ⟨place, h⟩
  | get id => exact ⟨place, h⟩

theorem HasDrawn.after (h : HasDrawn source place session) (requests : List Request) :
    ∃ later, HasDrawn source later (session.after requests) := by
  induction requests generalizing session place with
  | nil => exact ⟨place, h⟩
  | cons request requests ih =>
    obtain ⟨later, hlater⟩ := h.answer request
    exact ih hlater

/-- From a new registry on, the users have the values of the source without repetitions. -/
theorem map_id_created (source : IdSource) (requests : List Request) :
    let users := created requests (({ source } : Session).results requests)
    users.map User.id = (List.range users.length).map (distinct source.value) := by
  intro users
  have husers := (Session.after_spec { source } requests).1
  rw [List.nil_append] at husers
  obtain ⟨place, hdrawn⟩ := (HasDrawn.start source).after requests
  have hids := hdrawn.ids_eq
  rw [Registry.ids, husers, distinctBefore] at hids
  have hlength := congrArg List.length hids
  rw [List.length_map, List.length_map, List.length_range] at hlength
  rw [hids, hlength]

end Session

/-- The search of a creation for an identifier ends with the first that is free, after no more
draws than the list is long and the registry has users, and one; just what has been drawn is gone
then, and nothing after a creation that is refused.  So creations from a new registry on hand
out what is left of the source when all repetitions are left out, and this is without end. -/
theorem ids_are_distinct_values :
    (∀ (session : Session) (name email : Value),
      (∀ registration, register name email = .ok registration →
        ∃ n, n + 1 ≤ session.source.listed.length + session.registry.size + 1 ∧
          session.source.IsFirstFree session.registry.ids n ∧
          (∀ draws, session.source.search session.registry.ids draws =
            if n < draws then some (session.source.value n, session.source.rest (n + 1))
            else none) ∧
          let user : User := ⟨session.source.value n, registration.name, registration.email⟩
          session.answer (.create name email) =
            { session := ⟨⟨session.registry.users ++ [user]⟩, session.source.rest (n + 1)⟩
              result := .ok (some user)
              log := [creationRecord user] }) ∧
      ∀ error, register name email = .error error →
        session.answer (.create name email) = { session, result := .error error }) ∧
    ∀ source : IdSource,
      {place | IsNew source.value place}.Infinite ∧
      ∀ requests : List Request,
        let results := ({ source } : Session).results requests
        let users := created requests results
        users.length = (requests.zip results).countP hasCreated ∧
          users.map User.id = (List.range users.length).map (distinct source.value) := by
  constructor
  · intro session name email
    refine ⟨?_, fun error => Session.answer_create_of_error⟩
    intro registration hregister
    obtain ⟨n, hn, hfirst, hanswer⟩ := Session.answer_create_of_ok session hregister
    exact ⟨n, by omega, hfirst, IdSource.search_eq hfirst, hanswer⟩
  · intro source
    refine ⟨source.infinite_isNew, ?_⟩
    intro requests
    exact ⟨Session.length_created _ requests, Session.map_id_created source requests⟩

end Pinfall.Users
