import GuardedStore.Account.Service
import GuardedStore.Proofs.Run
import GuardedStore.Proofs.Store.Contents
import GuardedStore.Proofs.Store.Fields

/-! # What account operations do

Registering and logging in check everything before they write, and what they write cannot fail: the
session that is replaced was added just before. Logging out deletes sessions that a search has found,
each of them once, so that none of them is missing when its turn comes.
-/

namespace GuardedStore.Account

open Access (Principal)

/-- The stored sessions under their ids. -/
def sessions (world : World) : Entries Record :=
  world.accounts.entries sessionCollection

/-- The stored users under their ids. -/
def users (service : Service) (world : World) : Entries Record :=
  world.accounts.entries service.userCollection

/-- The records as a store hands them out. -/
def handedOut (entries : Entries Record) : List Record :=
  entries.map fun (id, record) => withId id record

/-- The stored entries of a collection that have the expected fields. -/
def search (collection : String) (expected : Fields) (world : World) :
    Except OutOfRange (Entries Record) :=
  Store.filterEntries (Store.matchesFields · expected) (world.accounts.entries collection)

theorem find_run (collection : String) (expected : Fields) (world : World) :
    find collection expected world =
      match search collection expected world with
      | .ok found => .ok (handedOut found) world
      | .error _ => .error .outOfRange world := by
  simp only [find, get_bind, search, Store.query, Store.collection, Store.entries]
  cases world.accounts.collections.get? collection with
  | none => rfl
  | some collection =>
      change _ = match Store.filterEntries (Store.matchesFields · expected) collection.entries with
        | .ok found => _
        | .error _ => _
      cases filtered : Store.filterEntries (Store.matchesFields · expected) collection.entries with
      | ok found =>
          simp only [bind, Except.bind, liftM, monadLift, MonadLift.monadLift, Except.mapError, filtered]
          rfl
      | error fault =>
          simp only [bind, Except.bind, liftM, monadLift, MonadLift.monadLift, Except.mapError, filtered]
          rfl

theorem still_find (collection : String) (expected : Fields) : Still (find collection expected) := by
  intro world
  simp only [leaves, find_run]
  cases search collection expected world <;> rfl

theorem find_bind_of_ok {α : Type} {collection : String} {expected : Fields} {world : World}
    {found : Entries Record} (h : search collection expected world = .ok found)
    (f : List Record → Serve α) : (find collection expected >>= f) world = f (handedOut found) world := by
  refine bind_of_ok ?_
  rw [find_run, h]

theorem find_bind_of_error {α : Type} {collection : String} {expected : Fields} {world : World}
    {fault : OutOfRange} (h : search collection expected world = .error fault)
    (f : List Record → Serve α) :
    (find collection expected >>= f) world = .error .outOfRange world := by
  refine bind_of_error ?_
  rw [find_run, h]

@[simp]
theorem idOf_withId (id : String) (record : Record) : idOf (withId id record) = id := by
  simp [idOf, Store.value_withId, Value.asName]

/-- The stored record is a session of a user, with a token. -/
structure IsSession (record : Record) (user : Value) (token : String) : Prop where
  user : Entries.get? record.fields userIdField = some user
  token : Entries.get? record.fields tokenField = some (.str token)
  plain : record.identities = []

/-- The id of the next session. -/
def nextSession (world : World) : String :=
  world.accounts.nextId world.supply sessionCollection

/-- The state once a session is stored under the next id. -/
def withSession (world : World) (session : Record) : World :=
  { world with
    accounts := world.accounts.put sessionCollection (nextSession world) session
    supply := (world.accounts.restSupply world.supply sessionCollection).tick.2 }

/-- What is answered when a session was opened for a user. -/
def opened (user : Record) (token : String) : Fields :=
  Entries.set (Entries.erase user.fields passwordHashField) tokenField (.str token)

theorem isSession_replaced (user : Value) (id token : String) (added changed : Int) :
    let session := Store.newRecord (.plain [(userIdField, user)]) none added
    IsSession
      (Store.replacedRecord session ((withId id session).set tokenField (.str token)) changed)
      user token := by
  intro session
  have plain : session.identities = [] := Store.identities_newRecord rfl none added
  have alone : (Entries.names [(userIdField, user)]).Nodup := by simp [Entries.names]
  have kept : Entries.get? session.fields userIdField = some user := by
    rw [Store.get?_newRecord alone none added (by decide)]
    rfl
  refine ⟨?_, ?_, ?_⟩
  · rw [Store.get?_replacedRecord _ _ _ (by decide)]
    simp only [Record.set]
    rw [Entries.get?_set_of_ne (by decide), Store.get?_withId _ _ (by decide)]
    exact kept
  · rw [Store.get?_replacedRecord _ _ _ (by decide)]
    exact Entries.get?_set_self _ _ _
  · refine Store.identities_replacedRecord plain ?_ changed
    simp [Record.set, withId, plain, Entries.erase]

/-- Opening a session stores it under the next id and answers the hash of that id; it never fails. -/
theorem openSession_run (service : Service) (user : Record) (world : World) :
    ∃ session, IsSession session (user.value idField) (service.hasher (nextSession world)) ∧
      openSession service user world =
        .ok (opened user (service.hasher (nextSession world))) (withSession world session) := by
  let id := nextSession world
  let rest := world.accounts.restSupply world.supply sessionCollection
  let session := Store.newRecord (.plain [(userIdField, user.value idField)]) none world.supply.clock
  let data := (withId id session).set tokenField (.str (service.hasher id))
  let replaced := Store.replacedRecord session data rest.clock
  have stored : Entries.get? ((world.accounts.put sessionCollection id session).entries
      sessionCollection) id = some session := by
    rw [Store.get?_put, if_pos ⟨rfl, rfl⟩]
  have wrote := Store.replace_of_stored stored rest data
  rw [Store.put_put] at wrote
  refine ⟨replaced, isSession_replaced _ _ _ _ _, ?_⟩
  simp only [openSession, get_bind, Store.add_eq, Serve.keepAccounts_bind, idOf_withId]
  change (Serve.orRefuse ((world.accounts.put sessionCollection id session).replace rest
    sessionCollection id data) >>= _) _ = _
  rw [wrote]
  rfl

theorem sure_openSession (service : Service) (user : Record) : Sure (openSession service user) := by
  intro world
  obtain ⟨session, -, done⟩ := openSession_run service user world
  exact ⟨_, _, done⟩

/-- A session was opened for the user with an id: what is answered, and the state that is left. -/
structure Opening (service : Service) (id : String) (user session : Record) (world : World)
    (answer : Fields) (world' : World) : Prop where
  isSession : IsSession session (.str id) (service.hasher (nextSession world))
  answer_eq : answer = opened (withId id user) (service.hasher (nextSession world))
  world_eq : world' = withSession world session

theorem opening_of_openSession {service : Service} {id : String} {user : Record} {world world' : World}
    {answer : Fields} (h : openSession service (withId id user) world = .ok answer world') :
    ∃ session, Opening service id user session world answer world' := by
  obtain ⟨session, isSession, done⟩ := openSession_run service (withId id user) world
  rw [done] at h
  cases h
  rw [Store.value_withId] at isSession
  exact ⟨session, isSession, rfl, rfl⟩

theorem Opening.users_eq {service : Service} {id : String} {user session : Record}
    {world world' : World} {answer : Fields} (apart : service.userCollection ≠ sessionCollection)
    (opening : Opening service id user session world answer world') :
    users service world' = users service world := by
  obtain ⟨-, -, rfl⟩ := opening
  rw [users, withSession, Store.entries_put, if_neg apart.symm, users]

theorem Opening.freshDiffer {service : Service} {id : String} {user session : Record}
    {world world' : World} {answer : Fields}
    (opening : Opening service id user session world answer world')
    (differ : world.supply.FreshDiffer) : world'.supply.FreshDiffer := by
  obtain ⟨-, -, rfl⟩ := opening
  exact (differ.drawId _).tick

theorem get?_opened_id (id : String) (user : Record) (token : String) :
    Entries.get? (opened (withId id user) token) idField = some (.str id) := by
  have apart : tokenField ≠ idField := by decide
  have kept : passwordHashField ≠ idField := by decide
  rw [opened, Entries.get?_set_of_ne apart, Entries.get?_erase, if_neg kept]
  exact Entries.get?_set_self _ _ _

theorem get?_opened_token (user : Record) (token : String) :
    Entries.get? (opened user token) tokenField = some (.str token) :=
  Entries.get?_set_self _ _ _

/-- The identity in a request. -/
def identityIn (service : Service) (body : Fields) : Value :=
  Value.fieldOrNull body service.identityField

/-- The password in a request. -/
def passwordIn (body : Fields) : Value :=
  Value.fieldOrNull body passwordField

/-- The users with the identity in a request. -/
def namesakes (service : Service) (body : Fields) (world : World) : Except OutOfRange (Entries Record) :=
  search service.userCollection [(service.identityField, identityIn service body)] world

/-- The id of the next user. -/
def nextUser (service : Service) (world : World) : String :=
  world.accounts.nextId world.supply service.userCollection

/-- The record of the next user. -/
def userRecord (service : Service) (body : Fields) (world : World) : Record :=
  Store.newRecord (.plain (newUser service body)) none world.supply.clock

/-- The state once a user is stored under the next id. -/
def withUser (service : Service) (body : Fields) (world : World) : World :=
  { world with
    accounts := world.accounts.put service.userCollection (nextUser service world)
      (userRecord service body world)
    supply := world.accounts.restSupply world.supply service.userCollection }

theorem register_run (service : Service) (body : Fields) (world : World) :
    register service body world =
      if isBlankValue (identityIn service body) || isBlankValue (passwordIn body) then
        .error (.refused .credentialsMissing) world
      else match namesakes service body world with
        | .error _ => .error .outOfRange world
        | .ok (_ :: _) => .error (.refused (.identityTaken service.identityField)) world
        | .ok [] =>
          openSession service (withId (nextUser service world) (userRecord service body world))
            (withUser service body world) := by
  simp only [register]
  split
  · rename_i blank
    exact (throw_bind _ _ _).trans (if_pos blank).symm
  · rename_i given
    refine Eq.trans ?_ (if_neg given).symm
    cases found : namesakes service body world with
    | error fault => exact find_bind_of_error found _
    | ok users =>
        refine (find_bind_of_ok found _).trans ?_
        cases users with
        | nil =>
            simp only [handedOut, List.map_nil, List.isEmpty_nil, Bool.not_true,
              Bool.false_eq_true, if_false, get_bind, Store.add_eq, Serve.keepAccounts_bind]
            rfl
        | cons user others =>
            simp only [handedOut, List.map_cons, List.isEmpty_cons, Bool.not_false, if_true,
              throw_bind]

theorem login_run (service : Service) (body : Fields) (world : World) :
    login service body world =
      match namesakes service body world with
      | .error _ => .error .outOfRange world
      | .ok [(id, user)] =>
        if (passwordIn body).kind = .null then .error (.refused .loginWrong) world
        else match passwordMatches service (withId id user) (passwordIn body) with
          | .error fault => .error fault world
          | .ok false => .error (.refused .loginWrong) world
          | .ok true => openSession service (withId id user) world
      | .ok _ => .error (.refused .loginWrong) world := by
  simp only [login]
  cases found : namesakes service body world with
  | error fault => exact find_bind_of_error found _
  | ok users =>
      refine (find_bind_of_ok found _).trans ?_
      match users with
      | [] => rfl
      | _ :: _ :: _ => rfl
      | [(id, user)] =>
          simp only [handedOut, List.map_cons, List.map_nil]
          split
          · rename_i missing
            exact (throw_bind _ _ _).trans (if_pos missing).symm
          · rename_i given
            refine Eq.trans ?_ (if_neg given).symm
            change (Serve.ofExcept (passwordMatches service (withId id user) (passwordIn body)) >>= _)
              world = _
            cases passwordMatches service (withId id user) (passwordIn body) with
            | error fault => rfl
            | ok known => cases known <;> rfl

theorem register_ok {service : Service} {body answer : Fields} {world world' : World}
    (h : register service body world = .ok answer world') :
    (isBlankValue (identityIn service body) || isBlankValue (passwordIn body)) = false ∧
      namesakes service body world = .ok [] ∧
      ∃ session, Opening service (nextUser service world) (userRecord service body world) session
        (withUser service body world) answer world' := by
  rw [register_run] at h
  split at h
  · cases h
  · rename_i given
    cases found : namesakes service body world with
    | error fault =>
        rw [found] at h
        cases h
    | ok users =>
        rw [found] at h
        cases users with
        | cons user others => cases h
        | nil => exact ⟨by simpa using given, rfl, opening_of_openSession h⟩

theorem login_ok {service : Service} {body answer : Fields} {world world' : World}
    (h : login service body world = .ok answer world') :
    ∃ id user session, namesakes service body world = .ok [(id, user)] ∧
      (passwordIn body).kind ≠ .null ∧
      passwordMatches service (withId id user) (passwordIn body) = .ok true ∧
      Opening service id user session world answer world' := by
  rw [login_run] at h
  split at h
  · cases h
  · rename_i id user found
    split at h
    · cases h
    · rename_i given
      split at h
      · cases h
      · cases h
      · rename_i known
        obtain ⟨session, opening⟩ := opening_of_openSession h
        exact ⟨id, user, session, found, given, known, opening⟩
  · cases h

/-- The state once the sessions with some ids are deleted. -/
def withoutSessions (world : World) (ids : List String) : World :=
  { world with
    accounts := world.accounts.withoutAll sessionCollection ids
    supply := { world.supply with clock := world.supply.clock + ids.length } }

theorem users_withoutSessions {service : Service} (apart : service.userCollection ≠ sessionCollection)
    (world : World) (ids : List String) :
    users service (withoutSessions world ids) = users service world := by
  rw [users, withoutSessions, Store.entries_withoutAll, if_neg apart.symm, users]

/-- Different stored sessions can all be deleted, one after another. -/
theorem deleteSessions_run {found : Entries Record} (unique : (Entries.names found).Nodup)
    (world : World) (stored : ∀ entry ∈ found,
      Entries.get? (world.accounts.entries sessionCollection) entry.1 = some entry.2) :
    deleteSessions (handedOut found) world = .ok () (withoutSessions world (Entries.names found)) := by
  induction found generalizing world with
  | nil => simp [deleteSessions, handedOut, withoutSessions, Entries.names, Store.withoutAll, pure_run]
  | cons entry rest ih =>
      obtain ⟨id, session⟩ := entry
      obtain ⟨new, unique⟩ := List.nodup_cons.mp unique
      have here := stored (id, session) List.mem_cons_self
      have deleted := Store.delete_of_stored here world.supply
      let next : World :=
        { world with accounts := world.accounts.without sessionCollection id
                     supply := world.supply.tick.2 }
      have others : ∀ entry ∈ rest,
          Entries.get? (next.accounts.entries sessionCollection) entry.1 = some entry.2 := by
        intro entry member
        rw [Store.get?_without, if_neg]
        · exact stored entry (List.mem_cons_of_mem _ member)
        · rintro ⟨-, rfl⟩
          exact new (List.mem_map.mpr ⟨entry, member, rfl⟩)
      have done := ih unique next others
      simp only [handedOut, List.map_cons, deleteSessions, get_bind, idOf_withId]
      rw [deleted]
      refine Eq.trans done ?_
      simp only [withoutSessions, Entries.names, List.map_cons, List.length_cons, Store.withoutAll,
        next, Supply.tick]
      congr 3
      push_cast
      omega

/-- The sessions with a token and a user. -/
def sessionsOf (principal : Principal) (token : String) (world : World) :
    Except OutOfRange (Entries Record) :=
  search sessionCollection [(tokenField, .str token), (userIdField, .str principal.id)] world

theorem logout_run (principal : Principal) (token : String) (world : World) :
    logout (some principal) (some token) world =
      match sessionsOf principal token world with
      | .error _ => .error .outOfRange world
      | .ok found => .ok () (withoutSessions world (Entries.names found)) := by
  simp only [logout]
  cases found : sessionsOf principal token world with
  | error fault => exact find_bind_of_error found _
  | ok sessions =>
      have unique := world.accounts.nodup_entries sessionCollection
      have inside := Store.filterEntries_sublist found
      refine (find_bind_of_ok found _).trans (deleteSessions_run ?_ world ?_)
      · have names : (Entries.names sessions).Sublist
            (Entries.names (world.accounts.entries sessionCollection)) := inside.map _
        exact unique.sublist names
      · intro entry member
        exact Entries.get?_of_mem unique (inside.subset member)

theorem logout_ok {principal : Option Principal} {token : Option String} {world world' : World}
    (h : logout principal token world = .ok () world') :
    ∃ caller given found, principal = some caller ∧ token = some given ∧
      sessionsOf caller given world = .ok found ∧
      world' = withoutSessions world (Entries.names found) := by
  cases principal with
  | none => cases h
  | some caller =>
      cases token with
      | none => cases h
      | some given =>
          rw [logout_run] at h
          cases searched : sessionsOf caller given world with
          | error fault =>
              rw [searched] at h
              cases h
          | ok found =>
              rw [searched] at h
              cases h
              exact ⟨caller, given, found, rfl, rfl, searched, rfl⟩

/-- The sessions with a token. -/
def sessionsWith (token : String) (world : World) : Except OutOfRange (Entries Record) :=
  search sessionCollection [(tokenField, .str token)] world

/-- The id of the user of a session. -/
def userOf (session : Record) : String :=
  (session.value userIdField).asName

theorem userOf_withId (id : String) (session : Record) : userOf (withId id session) = userOf session := by
  simp only [userOf, Record.value, Value.fieldOrNull, Store.get?_withId id session
    (show idField ≠ userIdField by decide)]

theorem resolve_run (service : Service) (token : String) (world : World) :
    resolve service (some token) world =
      match sessionsWith token world with
      | .error _ => .error .outOfRange world
      | .ok [] => .error (.refused .tokenInvalid) world
      | .ok ((_, session) :: _) =>
        match Entries.get? (users service world) (userOf session) with
        | none => .error (.refused .tokenInvalid) world
        | some user =>
          .ok (some (.ofUser (userOf session) (withId (userOf session) user))) world := by
  simp only [resolve]
  cases found : sessionsWith token world with
  | error fault => exact find_bind_of_error found _
  | ok sessions =>
      refine (find_bind_of_ok found _).trans ?_
      cases sessions with
      | nil => rfl
      | cons entry others =>
          obtain ⟨id, session⟩ := entry
          have same : ((withId id session).value userIdField).asName = userOf session :=
            userOf_withId id session
          simp only [handedOut, List.map_cons, get_bind, same]
          cases there : Entries.get? (users service world) (userOf session) with
          | none =>
              obtain ⟨refusal, missing⟩ := Store.find_of_missing there
              rw [missing]
              rfl
          | some user =>
              rw [Store.find_of_get? there]
              simp only [idOf_withId]
              rfl

theorem still_resolve (service : Service) (token : Option String) :
    Still (resolve service token) := by
  cases token with
  | none => exact still_pure _
  | some token =>
      simp only [resolve]
      refine (still_find _ _).bind fun sessions => ?_
      cases sessions with
      | nil => exact still_throw _
      | cons session others =>
          refine still_get.bind fun world => ?_
          split
          · exact still_pure _
          · exact still_throw _

theorem still_me (principal : Option Principal) : Still (me principal) := by
  cases principal with
  | none => exact still_throw _
  | some principal => exact still_pure _

/-- A registration that fails leaves the state as it was. -/
theorem atomic_register (service : Service) (body : Fields) : Atomic (register service body) := by
  intro world fault world' failed
  have last (user : Record) (next : World) : openSession service user next ≠ .error fault world' := by
    intro failed
    obtain ⟨session, -, done⟩ := openSession_run service user next
    rw [done] at failed
    cases failed
  rw [register_run] at failed
  split at failed
  · cases failed
    rfl
  · split at failed
    · cases failed
      rfl
    · cases failed
      rfl
    · exact absurd failed (last _ _)

/-- A login that fails leaves the state as it was. -/
theorem atomic_login (service : Service) (body : Fields) : Atomic (login service body) := by
  simp only [login]
  refine (still_find _ _).bind_atomic fun users => ?_
  split
  · split
    · intro world fault world' failed
      rw [throw_bind] at failed
      cases failed
      rfl
    · refine (Serve.still_ofExcept _).bind_atomic fun known => ?_
      split
      · exact (sure_openSession _ _).atomic
      · exact (still_throw _).atomic
  · exact (still_throw _).atomic

/-- A logout that fails leaves the state as it was. -/
theorem atomic_logout (principal : Option Principal) (token : Option String) :
    Atomic (logout principal token) := by
  match principal, token with
  | none, _ => exact (still_throw _).atomic
  | some _, none => exact (still_throw _).atomic
  | some principal, some token =>
      intro world fault world' failed
      rw [logout_run] at failed
      split at failed
      · cases failed
        rfl
      · cases failed

end GuardedStore.Account
