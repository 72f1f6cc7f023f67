import GuardedStore.Proofs.Account.Registration
import GuardedStore.Proofs.Value.Symmetry

/-! # Identities of any kind

An identity may be any value, and users are searched for by the relation of the store, which takes
texts and truth values for numbers. It is no equivalence, but it goes both ways. So a registration
that finds nobody with its identity adds a user who is not found with the identity of anybody else.
-/

namespace GuardedStore.Account

variable {service : Service} {world : World}

/-- The stored user is found with the identity of another one. Nobody is found with an identity that
is missing or that holds itself. -/
def Matches (service : Service) (user other : Record) : Prop :=
  ∃ identity, Entries.get? other.fields service.identityField = some identity ∧
    other.isCircularAt service.identityField = false ∧
    Store.matchesFields user [(service.identityField, identity)] = .ok true

/-- No two different users match each other. -/
def IdentitiesDiffer (service : Service) (world : World) : Prop :=
  ∀ id user other another, (id, user) ∈ users service world →
    (other, another) ∈ users service world → id ≠ other → ¬ Matches service user another

/-- In the identities of stored users no object has two fields of one name. -/
def IdentitiesProper (service : Service) (world : World) : Prop :=
  ∀ id user identity, (id, user) ∈ users service world →
    Entries.get? user.fields service.identityField = some identity → identity.isProper = true

/-- A registration is asked for with an object in which, as inside its values, no field comes twice. -/
def AsksProperly : Step → Prop
  | .register body => (Value.object body).isProper = true
  | _ => True

theorem matchesValue_comm {a b : Value} (left : a.isProper = true) (right : b.isProper = true) :
    Store.matchesValue a b = Store.matchesValue b a := by
  by_cases texts : ∃ s t, a = .str s ∧ b = .str t
  · obtain ⟨s, t, rfl, rfl⟩ := texts
    simp only [Store.matchesValue, eq_comm]
  · rw [Store.matchesValue.eq_2 a b fun s t isText isText' => texts ⟨s, t, isText, isText'⟩,
      Store.matchesValue.eq_2 b a fun t s isText' isText => texts ⟨s, t, isText, isText'⟩]
    exact Value.looseEquals_comm left right

theorem Matches.symm {user other : Record} (h : Matches service user other)
    (proper : ∀ identity, Entries.get? user.fields service.identityField = some identity →
      identity.isProper = true)
    (proper' : ∀ identity, Entries.get? other.fields service.identityField = some identity →
      identity.isProper = true) : Matches service other user := by
  obtain ⟨expected, there', plain', found⟩ := h
  obtain ⟨actual, there, plain, same⟩ := Store.matchesFields_single_iff.mp found
  rw [matchesValue_comm (proper' _ there') (proper _ there)] at same
  exact ⟨actual, there, plain, Store.matchesFields_single_iff.mpr ⟨expected, there', plain', same⟩⟩

/-- A search for an identity that finds nobody has found that nobody matches. -/
theorem not_found_of_namesakes_nil {body : Fields} (h : namesakes service body world = .ok [])
    {id : String} {user : Record} (there : (id, user) ∈ users service world) :
    Store.matchesFields user [(service.identityField, identityIn service body)] ≠ .ok true := by
  obtain ⟨passes, tested, nobody⟩ := Store.total_of_filterEntries h
  have failed := List.filter_eq_nil_iff.mp nobody.symm (id, user) there
  rw [tested (id, user) there]
  simpa using failed

theorem found_of_namesakes_cons {body : Fields} {id : String} {user : Record}
    {others : Entries Record} (h : namesakes service body world = .ok ((id, user) :: others)) :
    (id, user) ∈ users service world ∧
      Store.matchesFields user [(service.identityField, identityIn service body)] = .ok true := by
  obtain ⟨passes, tested, found⟩ := Store.total_of_filterEntries h
  have member : (id, user) ∈ (world.accounts.entries service.userCollection).filter passes := by
    rw [← found]
    exact List.mem_cons_self
  obtain ⟨there, passed⟩ := List.mem_filter.mp member
  exact ⟨there, (tested (id, user) there).trans (congrArg Except.ok passed)⟩

theorem found_of_conflict {body : Fields} {refusal : Refusal} {world' : World}
    (h : register service body world = .error (.refused refusal) world')
    (conflict : refusal.kind = .conflict) :
    ∃ id user, (id, user) ∈ users service world ∧
      Store.matchesFields user [(service.identityField, identityIn service body)] = .ok true := by
  rw [register_run] at h
  split at h
  · cases h
    cases conflict
  · split at h
    · cases h
    · rename_i entry others found
      obtain ⟨id, user⟩ := entry
      exact ⟨id, user, found_of_namesakes_cons found⟩
    · obtain ⟨answer, world'', done⟩ := sure_openSession service
        (withId (nextUser service world) (userRecord service body world))
        (withUser service body world)
      rw [done] at h
      cases h

/-- The stored users are told apart by proper identities. -/
structure ToldApart (service : Service) (world : World) : Prop where
  proper : IdentitiesProper service world
  differ : IdentitiesDiffer service world

theorem ToldApart.congr (told : ToldApart service world) {world' : World}
    (same : users service world' = users service world) : ToldApart service world' where
  proper := by
    rw [IdentitiesProper, same]
    exact told.proper
  differ := by
    rw [IdentitiesDiffer, same]
    exact told.differ

theorem get?_userRecord_identity (own : OwnIdentityField service) {body : Fields}
    (unique : (Entries.names body).Nodup)
    (given : isBlankValue (identityIn service body) = false) (world : World) :
    Entries.get? (userRecord service body world).fields service.identityField =
      some (identityIn service body) := by
  have kept : (Entries.names (newUser service body)).Nodup :=
    Entries.nodup_set (Entries.nodup_erase unique _) _ _
  rw [userRecord, Store.get?_newRecord kept none _ own.notSystem]
  simp only [Record.plain, newUser]
  rw [Entries.get?_set_of_ne own.notHash.symm, Entries.get?_erase, if_neg own.notPassword.symm]
  cases found : Entries.get? body service.identityField with
  | none => simp [identityIn, Value.fieldOrNull, found, isBlankValue] at given
  | some identity => simp [identityIn, Value.fieldOrNull, found]

theorem isProper_identityIn {body : Fields} (proper : (Value.object body).isProper = true) :
    (identityIn service body).isProper = true := by
  rw [identityIn, Value.fieldOrNull]
  cases found : Entries.get? body service.identityField with
  | none => rfl
  | some identity => exact Value.isProper_of_get? proper found

/-- A registration that found nobody with its identity adds a user who matches nobody. -/
theorem ToldApart.registered (told : ToldApart service world) (own : OwnIdentityField service)
    {body : Fields} (proper : (Value.object body).isProper = true)
    (given : isBlankValue (identityIn service body) = false)
    (unknown : namesakes service body world = .ok []) {world' : World}
    (grown : users service world' =
      Entries.set (users service world) (nextUser service world) (userRecord service body world)) :
    ToldApart service world' := by
  let added := userRecord service body world
  have unique : (Entries.names body).Nodup := (Value.isProper_object_iff.mp proper).1
  have identity : Entries.get? added.fields service.identityField =
      some (identityIn service body) := get?_userRecord_identity own unique given world
  have addedProper : ∀ identity, Entries.get? added.fields service.identityField = some identity →
      identity.isProper = true := by
    intro one found
    cases identity.symm.trans found
    exact isProper_identityIn proper
  have stranger : ∀ id user, (id, user) ∈ users service world → ¬ Matches service user added := by
    rintro id user there ⟨one, found, -, matched⟩
    cases identity.symm.trans found
    exact not_found_of_namesakes_nil unknown there matched
  refine ⟨?_, ?_⟩
  · intro id user one there found
    rw [grown] at there
    rcases Entries.mem_set there with new | old
    · cases new
      exact addedProper one found
    · exact told.proper id user one old found
  · intro id user other another there there' apart matched
    rw [grown] at there there'
    rcases Entries.mem_set there with new | old <;> rcases Entries.mem_set there' with new' | old'
    · cases new
      cases new'
      exact apart rfl
    · cases new
      have back := matched.symm addedProper fun one found => told.proper other another one old' found
      exact stranger other another old' back
    · cases new'
      exact stranger id user old matched
    · exact told.differ id user other another old old' apart matched

theorem ToldApart.step (own : OwnIdentityField service)
    (apart : service.userCollection ≠ sessionCollection) {step : Step} {reply : Except Fault Reply}
    {world' : World} (asked : AsksProperly step)
    (effect : StepEffect service world step reply world') (told : ToldApart service world) :
    ToldApart service world' := by
  cases effect with
  | failed ended => exact told
  | read reads => exact told
  | registered given unknown opening =>
      refine told.registered own asked (Bool.or_eq_false_iff.mp given).1 unknown ?_
      rw [opening.users_eq apart, users, withUser, Store.entries_put, if_pos rfl, users]
  | loggedIn found opening => exact told.congr (opening.users_eq apart)
  | loggedOut searched => exact told.congr (users_withoutSessions apart world _)

theorem Along.of_forall {allowed : Step → Prop} {steps : List Step}
    (h : ∀ step ∈ steps, allowed step) (world : World) :
    Along service (fun _ => allowed) steps world := by
  induction steps generalizing world with
  | nil => trivial
  | cons step rest ih =>
      exact ⟨h step List.mem_cons_self, ih (fun step later => h step (List.mem_cons_of_mem _ later)) _⟩

/-- Identities stay unique. Where no two users match each other, none do after any run in which users
register with identities of any kind, log in and out, and are resolved; and after any such run a
registration is in conflict only with a user who is found with its identity. -/
theorem identities_stay_unique {service : Service} {world : World} {steps : List Step}
    (own : OwnIdentityField service) (apart : service.userCollection ≠ sessionCollection)
    (proper : IdentitiesProper service world) (differ : IdentitiesDiffer service world)
    (asked : ∀ step ∈ steps, AsksProperly step) :
    let now := runAll service steps world
    IdentitiesDiffer service now ∧
      ∀ (body : Fields) (refusal : Refusal) (world' : World),
        register service body now = .error (.refused refusal) world' → refusal.kind = .conflict →
        ∃ id user, (id, user) ∈ users service now ∧
          Store.matchesFields user [(service.identityField, identityIn service body)] = .ok true := by
  intro now
  have told : ToldApart service now :=
    (Along.of_forall asked world).keeps
      (fun asked effect told => ToldApart.step own apart asked effect told) ⟨proper, differ⟩
  exact ⟨told.differ, fun body refusal world' failed conflict => found_of_conflict failed conflict⟩

/-- Two stored users, one with a number for an identity and one with a list. -/
def oddUsers : World :=
  { emptyWorld with
    accounts := .ofSnapshot
      [("users", [("u1", [("email", .int 1)]), ("u2", [("email", .list [.bool true])])])] }

/-- A text that reads as the number and a list that equals the list are asked for, and Ann's identity. -/
theorem identities_stay_unique_of_odd_users :
    let steps : List Step :=
      [.register [("email", .str "1"), ("password", .str "x")],
        .register [("email", .list [.int 1]), ("password", .str "x")], .register ann]
    OwnIdentityField plainService ∧ plainService.userCollection ≠ sessionCollection ∧
      IdentitiesProper plainService oddUsers ∧ IdentitiesDiffer plainService oddUsers ∧
      (∀ step ∈ steps, AsksProperly step) ∧
      IdentitiesDiffer plainService (runAll plainService steps oddUsers) := by
  intro steps
  have own : OwnIdentityField plainService := ⟨by decide, by decide, by decide⟩
  have apart : plainService.userCollection ≠ sessionCollection := by decide
  have stored : users plainService oddUsers =
      [("u1", .plain [("email", .int 1)]), ("u2", .plain [("email", .list [.bool true])])] := rfl
  have proper : IdentitiesProper plainService oddUsers := by
    intro id user identity there found
    simp only [stored, List.mem_cons, Prod.mk.injEq, List.not_mem_nil, or_false] at there
    rcases there with ⟨rfl, rfl⟩ | ⟨rfl, rfl⟩ <;> cases found <;> rfl
  have differ : IdentitiesDiffer plainService oddUsers := by
    intro id user other another there there' different matched
    simp only [stored, List.mem_cons, Prod.mk.injEq, List.not_mem_nil, or_false] at there there'
    obtain ⟨identity, found, -, matched⟩ := matched
    rcases there with ⟨rfl, rfl⟩ | ⟨rfl, rfl⟩ <;> rcases there' with ⟨rfl, rfl⟩ | ⟨rfl, rfl⟩
    · exact different rfl
    · cases found
      cases matched
    · cases found
      cases matched
    · exact different rfl
  have asked : ∀ step ∈ steps, AsksProperly step := by
    intro step member
    simp only [steps, List.mem_cons, List.not_mem_nil, or_false] at member
    rcases member with rfl | rfl | rfl <;> rfl
  exact ⟨own, apart, proper, differ, asked,
    (identities_stay_unique own apart proper differ asked).1⟩

end GuardedStore.Account
