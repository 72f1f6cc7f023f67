import GuardedStore.Proofs.Agreement
import GuardedStore.Proofs.Query.Relations
import GuardedStore.Proofs.Request.Ownership

/-! # What requests see of the accounts

Requests reach the accounts only through relations to users, and those come without the password hash.
So two servers that differ in hashes, in sessions and in whatever else is stored beside the users
answer every sequence of requests alike, and leave the same records.
-/

namespace GuardedStore

/-- A user as relations show it. -/
def withoutHash (record : Record) : Record :=
  record.erase passwordHashField

/-- Two stores hold the same users under the same ids in the same order, apart from the password
hashes. What else they hold may differ. -/
structure SameUsers (collection : String) (one other : Store) : Prop where
  kept : (one.collections.get? collection).isSome = (other.collections.get? collection).isSome
  users : (one.entries collection).map (fun (id, user) => (id, withoutHash user)) =
    (other.entries collection).map fun (id, user) => (id, withoutHash user)

theorem withoutHash_withId (id : String) (record : Record) :
    withoutHash (withId id record) = withId id (withoutHash record) := by
  have apart : idField ≠ passwordHashField := by decide
  simp only [withoutHash, withId, Record.set, Record.erase, Entries.erase_set_of_ne apart]
  simp only [Entries.erase, List.filter_filter, Bool.and_comm]

/-- A user is found, apart from the hash, or is missing in both stores alike. -/
theorem SameUsers.find_eq {collection : String} {one other : Store}
    (same : SameUsers collection one other) (id : String) :
    (one.find collection id).map withoutHash = (other.find collection id).map withoutHash := by
  have found : (Entries.get? (one.entries collection) id).map withoutHash =
      (Entries.get? (other.entries collection) id).map withoutHash := by
    rw [← Entries.get?_map, ← Entries.get?_map, same.users]
  have kept := same.kept
  rw [Store.find_eq, Store.find_eq]
  cases here : one.collections.get? collection <;> cases there : other.collections.get? collection
  · rfl
  · simp [here, there] at kept
  · simp [here, there] at kept
  · cases first : Entries.get? (one.entries collection) id <;>
      cases second : Entries.get? (other.entries collection) id
    · rfl
    · simp [first, second] at found
    · simp [first, second] at found
    · simp only [first, second, Option.map_some, Option.some.injEq] at found
      simp only [Except.map, withoutHash_withId, found]

namespace Request

variable {service : Service} {accounts accounts' : Store}

/-- Two servers have the same records and the same supply, each with accounts of its own. -/
structure SameRecords (accounts accounts' : Store) (_ : Unit) (one other : World) : Prop where
  records : one.records = other.records
  supply : one.supply = other.supply
  accounts : one.accounts = accounts
  accounts' : other.accounts = accounts'

/-- The operation ends alike on both servers, and leaves them with the same records. -/
def Unseen (accounts accounts' : Store) {α : Type} (x y : Serve α) : Prop :=
  Agree (SameRecords accounts accounts') (fun _ a b => a = b) () x y

theorem sameRelated_of_sameUsers {one other : World}
    (users : SameUsers service.engine.identityCollection accounts accounts')
    (same : SameRecords accounts accounts' () one other) :
    service.engine.SameRelated (fetchRelated service one) (fetchRelated service other) := by
  intro relation id
  by_cases isUser : relation.collection = service.engine.identityCollection
  · have related (world : World) :
        service.engine.related (fetchRelated service world) relation id =
          ((world.accounts.find service.engine.identityCollection id.plainText).map
            withoutHash).mapError .refused := by
      simp only [Query.Engine.related, fetchRelated, isUser, if_true]
      cases world.accounts.find service.engine.identityCollection id.plainText <;> rfl
    rw [related, related, same.accounts, same.accounts', users.find_eq]
  · simp only [Query.Engine.related, fetchRelated, isUser, if_false, same.records]

theorem unseen_ofExcept {α : Type} (result : Except Fault α) :
    Unseen accounts accounts' (Serve.ofExcept result) (Serve.ofExcept result) := by
  cases result with
  | ok a => exact agree_pure rfl
  | error fault => exact agree_throw fault

theorem unseen_orRefuse {α : Type} (result : Except Refusal α) :
    Unseen accounts accounts' (Serve.orRefuse result) (Serve.orRefuse result) :=
  unseen_ofExcept _

theorem unseen_checked {α : Type} (check : Access.Guarded α) :
    Unseen accounts accounts' (checked check) (checked check) := by
  intro one other matched
  simp only [checked]
  cases check.run .empty with
  | ok a heap => exact ⟨(), le_refl _, .ok matched rfl⟩
  | error fault heap => exact ⟨(), le_refl _, .error matched⟩

theorem unseen_keepRecords (written : Store.Written) :
    Unseen accounts accounts' (Serve.keepRecords written) (Serve.keepRecords written) :=
  fun _ _ matched => ⟨(), le_refl _, .ok ⟨rfl, rfl, matched.accounts, matched.accounts'⟩ rfl⟩

theorem Unseen.bind {α β : Type} {x : Serve α} {f g : α → Serve β}
    (first : Unseen accounts accounts' x x) (second : ∀ a, Unseen accounts accounts' (f a) (g a)) :
    Unseen accounts accounts' (x >>= f) (x >>= g) :=
  Agree.bind_equal first fun _ a _ => second a

theorem unseen_get {β : Type} {f g : World → Serve β}
    (h : ∀ one other, SameRecords accounts accounts' () one other →
      Unseen accounts accounts' (f one) (g other)) :
    Unseen accounts accounts' (get >>= f) (get >>= g) :=
  Agree.bind agree_get fun _ one other _ matched => h one other matched

theorem unseen_shape {one other : World} {β : Type} {f : List Record → Serve β}
    (users : SameUsers service.engine.identityCollection accounts accounts')
    (same : SameRecords accounts accounts' () one other) (parameters : Query.Parameters)
    (records : List Record) (rest : ∀ shaped, Unseen accounts accounts' (f shaped) (f shaped)) :
    Unseen accounts accounts'
      (Serve.ofExcept (service.engine.shape (fetchRelated service one) parameters records) >>= f)
      (Serve.ofExcept (service.engine.shape (fetchRelated service other) parameters records) >>= f) := by
  rw [(sameRelated_of_sameUsers users same).shape_eq]
  exact (unseen_ofExcept _).bind rest

theorem unseen_listCollections (request : Request) :
    Unseen accounts accounts' (listCollections service request) (listCollections service request) := by
  refine unseen_get fun one other same => ?_
  rw [same.records]
  exact (unseen_checked _).bind fun _ => agree_pure rfl

theorem unseen_readMany (users : SameUsers service.engine.identityCollection accounts accounts')
    (request : Request) (name : String) :
    Unseen accounts accounts' (readMany service request name) (readMany service request name) := by
  refine unseen_get fun one other same => ?_
  rw [same.records]
  refine (unseen_orRefuse _).bind fun all => (unseen_ofExcept _).bind fun arranged => ?_
  refine (unseen_checked _).bind fun gated => ?_
  split
  · exact agree_pure rfl
  · exact unseen_shape users same _ _ fun shaped => agree_pure rfl

theorem unseen_readOne (users : SameUsers service.engine.identityCollection accounts accounts')
    (request : Request) (name id : String) :
    Unseen accounts accounts' (readOne service request name id) (readOne service request name id) := by
  refine unseen_get fun one other same => ?_
  rw [same.records]
  refine (unseen_orRefuse _).bind fun record => (unseen_checked _).bind fun gated => ?_
  exact unseen_shape users same _ _ fun shaped => agree_pure rfl

theorem unseen_read (users : SameUsers service.engine.identityCollection accounts accounts')
    (request : Request) :
    Unseen accounts accounts' (read service request) (read service request) := by
  simp only [read]
  split
  · exact unseen_listCollections request
  · split
    · exact unseen_readOne users request _ _
    · exact unseen_readMany users request _

theorem unseen_create (request : Request) :
    Unseen accounts accounts' (create service request) (create service request) := by
  refine (unseen_orRefuse _).bind fun name => ?_
  split
  · exact agree_throw _
  · refine unseen_get fun one other same => ?_
    rw [same.records, same.supply]
    refine (unseen_checked _).bind fun payload => ?_
    exact (unseen_keepRecords _).bind fun _ => agree_pure rfl

theorem unseen_update (request : Request) :
    Unseen accounts accounts' (update service request) (update service request) := by
  refine (unseen_orRefuse _).bind fun name => (unseen_orRefuse _).bind fun id => ?_
  refine unseen_get fun one other same => ?_
  rw [same.records, same.supply]
  refine (unseen_orRefuse _).bind fun existing => (unseen_checked _).bind fun payload => ?_
  refine (unseen_orRefuse _).bind fun written => ?_
  exact (unseen_keepRecords _).bind fun _ => agree_pure rfl

theorem unseen_delete (request : Request) :
    Unseen accounts accounts' (delete service request) (delete service request) := by
  refine (unseen_orRefuse _).bind fun name => (unseen_orRefuse _).bind fun id => ?_
  refine unseen_get fun one other same => ?_
  rw [same.records, same.supply]
  refine (unseen_orRefuse _).bind fun existing => (unseen_checked _).bind fun _ => ?_
  refine (unseen_orRefuse _).bind fun written => ?_
  exact (unseen_keepRecords _).bind fun _ => agree_pure rfl

theorem unseen_execute (users : SameUsers service.engine.identityCollection accounts accounts')
    (request : Request) :
    Unseen accounts accounts' (execute service request) (execute service request) := by
  simp only [execute]
  split
  · exact unseen_read users request
  · exact unseen_create request
  · exact unseen_update request
  · exact unseen_delete request

/-- What requests are answered, one after another, whether they succeed or not. -/
def outcomes (service : Service) : List Request → World → List (Except Fault Answer)
  | [], _ => []
  | request :: rest, world =>
    outcome (execute service request) world ::
      outcomes service rest (leaves (execute service request) world)

theorem SameRecords.executed (users : SameUsers service.engine.identityCollection accounts accounts')
    {one other : World} (same : SameRecords accounts accounts' () one other) (request : Request) :
    outcome (execute service request) one = outcome (execute service request) other ∧
      SameRecords accounts accounts' () (leaves (execute service request) one)
        (leaves (execute service request) other) := by
  obtain ⟨⟨⟩, -, ended⟩ := unseen_execute users request one other same
  simp only [outcome, leaves]
  generalize execute service request one = first at ended ⊢
  generalize execute service request other = second at ended ⊢
  cases ended with
  | ok matched equal =>
      cases equal
      exact ⟨rfl, matched⟩
  | error matched => exact ⟨rfl, matched⟩

theorem SameRecords.executedAll
    (users : SameUsers service.engine.identityCollection accounts accounts') {one other : World}
    (same : SameRecords accounts accounts' () one other) (requests : List Request) :
    outcomes service requests one = outcomes service requests other ∧
      SameRecords accounts accounts' () (executeAll service requests one)
        (executeAll service requests other) := by
  induction requests generalizing one other with
  | nil => exact ⟨rfl, same⟩
  | cons request rest ih =>
      obtain ⟨answered, left⟩ := same.executed users request
      obtain ⟨answers, left⟩ := ih left
      exact ⟨by simp only [outcomes, answered, answers], left⟩

/-- Password hashes and sessions never influence requests. On two servers with the same records and
the same users apart from password hashes, whatever else their accounts hold, every sequence of
requests is answered alike and leaves the same records, and neither server's accounts change. -/
theorem hashes_and_sessions_unseen {service : Service} {one other : World}
    (records : one.records = other.records) (supply : one.supply = other.supply)
    (users : SameUsers service.engine.identityCollection one.accounts other.accounts)
    (requests : List Request) :
    outcomes service requests one = outcomes service requests other ∧
      (executeAll service requests one).records = (executeAll service requests other).records ∧
      (executeAll service requests one).accounts = one.accounts ∧
      (executeAll service requests other).accounts = other.accounts := by
  have same : SameRecords one.accounts other.accounts () one other := ⟨records, supply, rfl, rfl⟩
  obtain ⟨answers, left⟩ := same.executedAll users requests
  exact ⟨answers, left.records, left.accounts, left.accounts'⟩

/-- Ann with a hash, and the sessions beside her. -/
def accountsOfAnn (hash : String) (sessions : List (String × Fields)) : Store :=
  .ofSnapshot
    [("users", [("u1", [("hashedPassword", .str hash), ("email", .str "ann")])]),
      ("sessions", sessions)]

theorem sameUsers_accountsOfAnn (hash hash' : String) (sessions sessions' : List (String × Fields)) :
    SameUsers "users" (accountsOfAnn hash sessions) (accountsOfAnn hash' sessions') := by
  have kept (hash : String) (sessions : List (String × Fields)) :
      ((accountsOfAnn hash sessions).collections.get? "users").isSome = true := rfl
  have users (hash : String) (sessions : List (String × Fields)) :
      ((accountsOfAnn hash sessions).entries "users").map (fun (id, user) => (id, withoutHash user)) =
        [("u1", .plain [("email", .str "ann")])] := rfl
  exact ⟨(kept _ _).trans (kept _ _).symm, (users _ _).trans (users _ _).symm⟩

/-- A server with a note of Ann's. -/
def noteOfAnn (accounts : Store) : World where
  records := .ofSnapshot [("notes", [("n1", [("author", .str "u1")])])]
  accounts
  supply := .numbered []

/-- The author of a note is loaded, then loaded again by the text of what was attached, and the note is
deleted; on the one server Ann is logged in and on the other she is not. -/
theorem hashes_and_sessions_unseen_of_ann :
    let service : Service := ⟨{}, {}⟩
    let accounts := accountsOfAnn "aa" [("s1", [("userId", .str "u1")])]
    let accounts' := accountsOfAnn "bb" []
    let requests : List Request :=
      [{ action := .read, collection := "notes", id := "n1",
         query := { load := "by=author:users" } },
       { action := .read, collection := "notes", query := { load := "by=author:users,it=by:users" } },
       { action := .delete, collection := "notes", id := "n1" }]
    (noteOfAnn accounts).records = (noteOfAnn accounts').records ∧
      (noteOfAnn accounts).supply = (noteOfAnn accounts').supply ∧
      SameUsers service.engine.identityCollection accounts accounts' ∧
      outcomes service requests (noteOfAnn accounts) =
        outcomes service requests (noteOfAnn accounts') := by
  intro service accounts accounts' requests
  have records : (noteOfAnn accounts).records = (noteOfAnn accounts').records := by
    simp only [noteOfAnn]
  have supply : (noteOfAnn accounts).supply = (noteOfAnn accounts').supply := by
    simp only [noteOfAnn]
  have users : SameUsers service.engine.identityCollection accounts accounts' :=
    sameUsers_accountsOfAnn _ _ _ _
  have run := @hashes_and_sessions_unseen service _ _ records supply users requests
  exact ⟨records, supply, users, run.1⟩

end Request

end GuardedStore
