import GuardedStore.Proofs.Account.Run

/-! # Credentials and registrations

Users are told apart by their identities without regard to case. Since a registration is refused while
there is a user with its identity, a login finds one user at most, and succeeds exactly with the
identity and the password of an earlier registration.
-/

namespace GuardedStore.Account

/-- The value is missing or a text. -/
def Textual (v : Value) : Prop :=
  v = .null ∨ ∃ text, v = .str text

/-- A request whose identity and password are texts, where they are given. -/
structure TextRequest (service : Service) (body : Fields) : Prop where
  identity : Textual (identityIn service body)
  password : Textual (passwordIn body)

/-- A registration is asked for with texts, in an object in which no field comes twice. -/
def AsksWithText (service : Service) (_ : World) : Step → Prop
  | .register body => TextRequest service body ∧ (Entries.names body).Nodup
  | _ => True

/-- A registration was answered for a user with an identity, up to case, and with a password. -/
def Event.Registers (service : Service) (event : Event) (user identity password : String) : Prop :=
  ∃ body fields given, event.step = .register body ∧ event.reply = .ok (.user fields) ∧
    Entries.get? fields idField = some (.str user) ∧ identityIn service body = .str given ∧
    Text.foldCase given = Text.foldCase identity ∧ passwordIn body = .str password

/-- A user was registered with an identity, up to case, and with a password. -/
def Registered (service : Service) (past : List Event) (user identity password : String) : Prop :=
  ∃ event ∈ past, event.Registers service user identity password

/-- A login succeeds for the user with an id. -/
def LogsIn (service : Service) (body : Fields) (user : String) (world : World) : Prop :=
  ∃ answer world', login service body world = .ok answer world' ∧
    Entries.get? answer idField = some (.str user)

variable {service : Service} {past : List Event} {world : World}

theorem registered_concat {event : Event} {user identity password : String} :
    Registered service (past ++ [event]) user identity password ↔
      Registered service past user identity password ∨
        event.Registers service user identity password := by
  constructor
  · rintro ⟨other, member, registers⟩
    rcases List.mem_append.mp member with old | new
    · exact .inl ⟨other, old, registers⟩
    · rw [List.mem_singleton.mp new] at registers
      exact .inr registers
  · rintro (⟨other, member, registers⟩ | registers)
    · exact ⟨other, List.mem_append_left _ member, registers⟩
    · exact ⟨event, by simp, registers⟩

theorem Event.Registers.congr {event : Event} {user identity other password : String}
    (h : event.Registers service user identity password)
    (same : Text.foldCase identity = Text.foldCase other) :
    event.Registers service user other password := by
  obtain ⟨body, fields, given, step, reply, id, asked, known, secret⟩ := h
  exact ⟨body, fields, given, step, reply, id, asked, known.trans same, secret⟩

theorem Registered.congr {user identity other password : String}
    (h : Registered service past user identity password)
    (same : Text.foldCase identity = Text.foldCase other) :
    Registered service past user other password := by
  obtain ⟨event, member, registers⟩ := h
  exact ⟨event, member, registers.congr same⟩

theorem TextRequest.texts {body : Fields} (request : TextRequest service body)
    (given : (isBlankValue (identityIn service body) || isBlankValue (passwordIn body)) = false) :
    ∃ identity password, identityIn service body = .str identity ∧ passwordIn body = .str password := by
  rw [Bool.or_eq_false_iff] at given
  rcases request.identity with missing | ⟨identity, isIdentity⟩
  · rw [missing] at given
    cases given.1
  rcases request.password with missing | ⟨password, isPassword⟩
  · rw [missing] at given
    cases given.2
  exact ⟨identity, password, isIdentity, isPassword⟩

/-- An answered registration registers the user that it answers, with what it asked for. -/
theorem registers_opened_iff {event : Event} {body : Fields} {id given identity password : String}
    {user : Record} (step : event.step = .register body)
    (reply : event.reply = .ok (.user (opened (withId id user) given)))
    (isIdentity : identityIn service body = .str identity)
    (isPassword : passwordIn body = .str password) {other name secret : String} :
    event.Registers service other name secret ↔
      other = id ∧ Text.foldCase identity = Text.foldCase name ∧ secret = password := by
  constructor
  · rintro ⟨asked, fields, spelled, same, replied, isId, isName, known, isSecret⟩
    cases step.symm.trans same
    cases reply.symm.trans replied
    cases isIdentity.symm.trans isName
    cases isPassword.symm.trans isSecret
    rw [get?_opened_id] at isId
    cases isId
    exact ⟨rfl, known, rfl⟩
  · rintro ⟨rfl, known, rfl⟩
    exact ⟨body, _, identity, step, reply, get?_opened_id _ _ _, isIdentity, known, isPassword⟩

/-- The stored record is a user with an identity and a password. -/
structure IsUser (service : Service) (record : Record) (identity password : String) : Prop where
  identity : Entries.get? record.fields service.identityField = some (.str identity)
  digest : Entries.get? record.fields passwordHashField = some (.str (service.hasher password))
  plain : record.identities = []

/-- The field of the identity is none that accounts or the store write. -/
structure OwnIdentityField (service : Service) : Prop where
  notSystem : service.identityField ∉ systemFields
  notPassword : service.identityField ≠ passwordField
  notHash : service.identityField ≠ passwordHashField

theorem get?_of_fieldOrNull {fields : Fields} {name text : String}
    (h : Value.fieldOrNull fields name = .str text) : Entries.get? fields name = some (.str text) := by
  rw [Value.fieldOrNull] at h
  cases found : Entries.get? fields name with
  | none =>
      rw [found] at h
      cases h
  | some v =>
      rw [found] at h
      cases h
      rfl

theorem isUser_userRecord (own : OwnIdentityField service) {body : Fields}
    (unique : (Entries.names body).Nodup) {identity password : String}
    (isIdentity : identityIn service body = .str identity)
    (isPassword : passwordIn body = .str password) (world : World) :
    IsUser service (userRecord service body world) identity password := by
  have hashed : (passwordIn body).asName = password := by rw [isPassword, Value.asName]
  have kept : (Entries.names (newUser service body)).Nodup :=
    Entries.nodup_set (Entries.nodup_erase unique _) _ _
  refine ⟨?_, ?_, ?_⟩
  · rw [userRecord, Store.get?_newRecord kept none _ own.notSystem]
    simp only [Record.plain, newUser]
    rw [Entries.get?_set_of_ne own.notHash.symm, Entries.get?_erase, if_neg own.notPassword.symm]
    exact get?_of_fieldOrNull isIdentity
  · rw [userRecord, Store.get?_newRecord kept none _ (by decide)]
    simp only [Record.plain, newUser]
    rw [Entries.get?_set_self, ← passwordIn, hashed]
  · exact Store.identities_newRecord rfl none _

/-- The stored users are those who were registered, and no two of them have the same identity. -/
structure Lists (service : Service) (past : List Event) (world : World) : Prop where
  differ : world.supply.FreshDiffer
  stored : ∀ id user, (id, user) ∈ users service world → ∃ identity password,
    IsUser service user identity password ∧ Registered service past id identity password
  kept : ∀ id identity password, Registered service past id identity password →
    ∃ user given, (id, user) ∈ users service world ∧ IsUser service user given password ∧
      Text.foldCase given = Text.foldCase identity
  distinct : ∀ id user other another identity given password secret,
    (id, user) ∈ users service world → (other, another) ∈ users service world →
    IsUser service user identity password → IsUser service another given secret →
    Text.foldCase identity = Text.foldCase given → id = other

theorem Lists.start (empty : world.accounts = .empty)
    (differ : world.supply.FreshDiffer) : Lists service [] world where
  differ := differ
  stored id user member := by
    simp [users, empty] at member
  kept id identity password registered := by
    simp [Registered] at registered
  distinct id user other another identity given password secret member := by
    simp [users, empty] at member

theorem IsUser.identity_unique {record : Record} {identity other password secret : String}
    (h : IsUser service record identity password) (h' : IsUser service record other secret) :
    identity = other := by
  have same := h.identity.symm.trans h'.identity
  cases same
  rfl

theorem IsUser.password_unique (ideal : service.hasher.Ideal) {record : Record}
    {identity other password secret : String} (h : IsUser service record identity password)
    (h' : IsUser service record other secret) : password = secret := by
  have same := h.digest.symm.trans h'.digest
  rw [Option.some.injEq, Value.str.injEq] at same
  exact ideal.injective same

/-- Users with the same identity are the same one, with one password. -/
theorem Lists.user_unique (lists : Lists service past world) (ideal : service.hasher.Ideal)
    {id other given name password secret : String} {user another : Record}
    (there : (id, user) ∈ users service world) (isUser : IsUser service user given password)
    (there' : (other, another) ∈ users service world) (isUser' : IsUser service another name secret)
    (same : Text.foldCase given = Text.foldCase name) : id = other ∧ password = secret := by
  have ids := lists.distinct _ _ _ _ _ _ _ _ there there' isUser isUser' same
  subst ids
  have unique := world.accounts.nodup_entries service.userCollection
  have records := (Entries.get?_of_mem unique there).symm.trans (Entries.get?_of_mem unique there')
  cases records
  exact ⟨rfl, isUser.password_unique ideal isUser'⟩

/-- The stored user has an identity, up to case. -/
def hasIdentity (service : Service) (identity : String) (entry : String × Record) : Bool :=
  match Entries.get? entry.2.fields service.identityField with
  | some (.str given) => Text.foldCase identity = Text.foldCase given
  | _ => false

theorem IsUser.hasIdentity_iff {user : Record} {given password : String}
    (isUser : IsUser service user given password) (identity id : String) :
    hasIdentity service identity (id, user) = true ↔ Text.foldCase identity = Text.foldCase given := by
  simp only [hasIdentity, isUser.identity, decide_eq_true_eq]

theorem Lists.namesakes_eq (lists : Lists service past world) {body : Fields} {identity : String}
    (isIdentity : identityIn service body = .str identity) :
    namesakes service body world = .ok ((users service world).filter (hasIdentity service identity)) := by
  rw [namesakes, isIdentity]
  refine Store.filterEntries_of_total ?_
  rintro ⟨id, user⟩ member
  obtain ⟨given, password, isUser, -⟩ := lists.stored id user member
  have tested := isUser.hasIdentity_iff identity id
  rw [Store.matchesFields_text isUser.plain isUser.identity, Store.matchesFields_nil]
  by_cases same : Text.foldCase identity = Text.foldCase given
  · rw [if_pos same, tested.mpr same]
  · rw [if_neg same, Bool.eq_false_iff.mpr (mt tested.mp same)]

theorem Lists.namesakes_of_null (lists : Lists service past world) {body : Fields}
    (missing : identityIn service body = .null) : namesakes service body world = .ok [] := by
  have nobody : namesakes service body world = .ok ((users service world).filter fun _ => false) := by
    rw [namesakes, missing]
    refine Store.filterEntries_of_total ?_
    rintro ⟨id, user⟩ member
    obtain ⟨given, password, isUser, -⟩ := lists.stored id user member
    simp [Store.matchesFields, isUser.identity, Store.isCircularAt_of_identities isUser.plain,
      Store.matchesValue, Value.looseEquals, bind, Except.bind, pure, Except.pure]
  simpa using nobody

theorem Lists.namesakes_cases (lists : Lists service past world) {body : Fields} {identity : String}
    (isIdentity : identityIn service body = .str identity) :
    (∃ id user given password, (id, user) ∈ users service world ∧
        IsUser service user given password ∧ Text.foldCase given = Text.foldCase identity ∧
        namesakes service body world = .ok [(id, user)]) ∨
      namesakes service body world = .ok [] ∧ ∀ id user given password,
        (id, user) ∈ users service world → IsUser service user given password →
        Text.foldCase given ≠ Text.foldCase identity := by
  have searched := lists.namesakes_eq isIdentity
  have unique : (Entries.names ((users service world).filter (hasIdentity service identity))).Nodup :=
    Entries.nodup_filter (world.accounts.nodup_entries service.userCollection) _
  have passed (entry : String × Record)
      (member : entry ∈ (users service world).filter (hasIdentity service identity)) :
      ∃ given password, entry ∈ users service world ∧ IsUser service entry.2 given password ∧
        Text.foldCase identity = Text.foldCase given := by
    obtain ⟨there, test⟩ := List.mem_filter.mp member
    obtain ⟨given, password, isUser, -⟩ := lists.stored entry.1 entry.2 there
    exact ⟨given, password, there, isUser, (isUser.hasIdentity_iff identity entry.1).mp test⟩
  match found : (users service world).filter (hasIdentity service identity) with
  | [] =>
      rw [found] at searched
      refine .inr ⟨searched, ?_⟩
      intro id user given password there isUser same
      have absent := List.filter_eq_nil_iff.mp found (id, user) there
      exact absent ((isUser.hasIdentity_iff identity id).mpr same.symm)
  | [(id, user)] =>
      obtain ⟨given, password, there, isUser, same⟩ := passed (id, user) (by simp [found])
      rw [found] at searched
      exact .inl ⟨id, user, given, password, there, isUser, same.symm, searched⟩
  | first :: second :: others =>
      obtain ⟨given, password, there, isUser, same⟩ := passed first (by simp [found])
      obtain ⟨other, secret, there', isUser', same'⟩ := passed second (by simp [found])
      have equal := lists.distinct _ _ _ _ _ _ _ _ there there' isUser isUser' (same.symm.trans same')
      rw [found] at unique
      simp [Entries.names, equal] at unique

theorem IsUser.passwordMatches_eq (ideal : service.hasher.Ideal) {user : Record}
    {given password : String} (isUser : IsUser service user given password) (id secret : String) :
    passwordMatches service (withId id user) (.str secret) = .ok (decide (secret = password)) := by
  have kept := (Store.get?_withId id user (show idField ≠ passwordHashField by decide)).trans
    isUser.digest
  simp only [passwordMatches, kept, Option.getD_some, Value.asName]
  exact ideal.verify_digest secret password

theorem Lists.login_cases (lists : Lists service past world) (ideal : service.hasher.Ideal)
    {body : Fields} (request : TextRequest service body) :
    (∃ id user given identity password, (id, user) ∈ users service world ∧
        IsUser service user given password ∧ Text.foldCase given = Text.foldCase identity ∧
        identityIn service body = .str identity ∧ passwordIn body = .str password ∧
        login service body world = openSession service (withId id user) world) ∨
      login service body world = .error (.refused .loginWrong) world ∧
        ∀ id user given identity password, (id, user) ∈ users service world →
          IsUser service user given password → Text.foldCase given = Text.foldCase identity →
          identityIn service body = .str identity → passwordIn body ≠ .str password := by
  have run := login_run service body world
  rcases request.identity with missing | ⟨identity, isIdentity⟩
  · rw [lists.namesakes_of_null missing] at run
    refine .inr ⟨run, ?_⟩
    intro _ _ _ _ _ _ _ _ isIdentity
    cases missing.symm.trans isIdentity
  rcases lists.namesakes_cases isIdentity with
    ⟨id, user, given, password, there, isUser, same, found⟩ | ⟨found, nobody⟩
  · rw [found] at run
    rcases request.password with missing | ⟨secret, isPassword⟩
    · rw [missing] at run
      refine .inr ⟨run, ?_⟩
      intro _ _ _ _ _ _ _ _ _ isPassword
      cases missing.symm.trans isPassword
    · simp only [isPassword, isUser.passwordMatches_eq ideal] at run
      by_cases right : secret = password
      · subst right
        simp only [decide_true] at run
        exact .inl ⟨id, user, given, identity, secret, there, isUser, same, isIdentity, isPassword, run⟩
      · simp only [right, decide_false] at run
        refine .inr ⟨run, ?_⟩
        intro other another name asked wanted there' isUser' same' isAsked isWanted
        cases isIdentity.symm.trans isAsked
        cases isPassword.symm.trans isWanted
        have equal := lists.user_unique ideal there isUser there' isUser' (same.trans same'.symm)
        exact right equal.2.symm
  · rw [found] at run
    refine .inr ⟨run, ?_⟩
    intro id user given asked password there isUser same isAsked
    cases isIdentity.symm.trans isAsked
    exact absurd same (nobody id user given password there isUser)

theorem not_registers_of_step {event : Event} (other : ∀ body, event.step ≠ .register body)
    (user identity password : String) : ¬ event.Registers service user identity password := by
  rintro ⟨body, fields, given, step, -⟩
  exact other body step

theorem not_registers_of_error {event : Event} {fault : Fault} (failed : event.reply = .error fault)
    (user identity password : String) : ¬ event.Registers service user identity password := by
  rintro ⟨body, fields, given, -, reply, -⟩
  rw [failed] at reply
  cases reply

/-- An event that registers nobody changes nothing about the users, if it leaves them stored. -/
theorem Lists.idle (lists : Lists service past world) {event : Event} {world' : World}
    (noRegistration : ∀ user identity password, ¬ event.Registers service user identity password)
    (same : users service world' = users service world) (differ : world'.supply.FreshDiffer) :
    Lists service (past ++ [event]) world' where
  differ := differ
  stored id user member := by
    rw [same] at member
    obtain ⟨identity, password, isUser, registered⟩ := lists.stored id user member
    exact ⟨identity, password, isUser, registered_concat.mpr (.inl registered)⟩
  kept id identity password registered := by
    rw [same]
    rcases registered_concat.mp registered with registered | registers
    · exact lists.kept id identity password registered
    · exact absurd registers (noRegistration id identity password)
  distinct := by
    rw [same]
    exact lists.distinct

theorem Lists.registered (lists : Lists service past world) (own : OwnIdentityField service)
    (apart : service.userCollection ≠ sessionCollection) {body answer : Fields} {world' : World}
    (asked : AsksWithText service world (.register body))
    (given : (isBlankValue (identityIn service body) || isBlankValue (passwordIn body)) = false)
    (found : namesakes service body world = .ok []) {session : Record}
    (opening : Opening service (nextUser service world) (userRecord service body world) session
      (withUser service body world) answer world') {event : Event}
    (step : event.step = .register body) (reply : event.reply = .ok (.user answer)) :
    Lists service (past ++ [event]) world' := by
  obtain ⟨request, unique⟩ := asked
  obtain ⟨identity, password, isIdentity, isPassword⟩ := request.texts given
  have nobody : ∀ id user name secret, (id, user) ∈ users service world →
      IsUser service user name secret → Text.foldCase name ≠ Text.foldCase identity := by
    rcases lists.namesakes_cases isIdentity with ⟨id, user, _, _, -, -, -, some⟩ | ⟨-, nobody⟩
    · rw [found] at some
      cases some
    · exact nobody
  have isUser := isUser_userRecord own unique isIdentity isPassword world
  have grown : users service world' =
      users service world ++ [(nextUser service world, userRecord service body world)] := by
    rw [opening.users_eq apart]
    exact Store.entries_put_nextId lists.differ world.accounts service.userCollection _
  have registers_iff := @registers_opened_iff service event body _ _ _ _ _ step
    (opening.answer_eq ▸ reply) isIdentity isPassword
  refine ⟨opening.freshDiffer (lists.differ.drawId _), ?_, ?_, ?_⟩
  · intro id user member
    rw [grown] at member
    rcases List.mem_append.mp member with old | new
    · obtain ⟨name, secret, isUser, registered⟩ := lists.stored id user old
      exact ⟨name, secret, isUser, registered_concat.mpr (.inl registered)⟩
    · cases List.mem_singleton.mp new
      refine ⟨identity, password, isUser, registered_concat.mpr (.inr ?_)⟩
      exact registers_iff.mpr ⟨rfl, rfl, rfl⟩
  · intro id name secret registered
    rw [grown]
    rcases registered_concat.mp registered with registered | registers
    · obtain ⟨user, spelled, there, found⟩ := lists.kept id name secret registered
      exact ⟨user, spelled, List.mem_append_left _ there, found⟩
    · obtain ⟨rfl, known, rfl⟩ := registers_iff.mp registers
      exact ⟨_, identity, by simp, isUser, known⟩
  · intro id user other another name spelled secret wanted there there' isFirst isSecond same
    rw [grown] at there there'
    rcases List.mem_append.mp there with old | new <;>
      rcases List.mem_append.mp there' with old' | new'
    · exact lists.distinct _ _ _ _ _ _ _ _ old old' isFirst isSecond same
    · cases List.mem_singleton.mp new'
      cases isSecond.identity_unique isUser
      exact absurd same (nobody _ _ _ _ old isFirst)
    · cases List.mem_singleton.mp new
      cases isFirst.identity_unique isUser
      exact absurd same.symm (nobody _ _ _ _ old' isSecond)
    · cases List.mem_singleton.mp new
      cases List.mem_singleton.mp new'
      rfl

/-- Whatever step a run takes, if it registers with texts, the history goes on telling which users are
stored. -/
theorem Lists.step (own : OwnIdentityField service)
    (apart : service.userCollection ≠ sessionCollection) {step : Step} {reply : Except Fault Reply}
    {world' : World} (asked : AsksWithText service world step)
    (effect : StepEffect service world step reply world') (lists : Lists service past world) :
    Lists service (past ++ [⟨step, reply⟩]) world' := by
  cases effect with
  | failed ended => exact lists.idle (not_registers_of_error rfl) rfl lists.differ
  | @read step reply reads =>
      refine lists.idle (not_registers_of_step ?_) rfl lists.differ
      rintro body rfl
      cases reads
  | registered given unknown opening =>
      exact lists.registered own apart asked given unknown opening rfl rfl
  | loggedIn found opening =>
      exact lists.idle (not_registers_of_step (by simp)) (opening.users_eq apart)
        (opening.freshDiffer lists.differ)
  | @loggedOut principal token found searched =>
      exact lists.idle (not_registers_of_step (by simp)) (users_withoutSessions apart world _)
        lists.differ

theorem Lists.logsIn_iff (lists : Lists service past world) (ideal : service.hasher.Ideal)
    {body : Fields} (request : TextRequest service body) (user : String) :
    LogsIn service body user world ↔ ∃ identity password, identityIn service body = .str identity ∧
      passwordIn body = .str password ∧ Registered service past user identity password := by
  constructor
  · rintro ⟨answer, world', done, isId⟩
    rcases lists.login_cases ideal request with
      ⟨id, record, given, identity, password, there, isUser, same, isIdentity, isPassword, run⟩ |
      ⟨refused, -⟩
    · rw [run] at done
      obtain ⟨session, opening⟩ := opening_of_openSession done
      rw [opening.answer_eq, get?_opened_id] at isId
      cases isId
      obtain ⟨name, secret, isUser', registered⟩ := lists.stored _ record there
      cases isUser.identity_unique isUser'
      cases isUser.password_unique ideal isUser'
      exact ⟨identity, password, isIdentity, isPassword, registered.congr same⟩
    · rw [refused] at done
      cases done
  · rintro ⟨identity, password, isIdentity, isPassword, registered⟩
    obtain ⟨record, given, there, isUser, same⟩ := lists.kept user identity password registered
    rcases lists.login_cases ideal request with
      ⟨id, other, name, asked, secret, there', isUser', same', isAsked, -, run⟩ | ⟨-, nobody⟩
    · cases isIdentity.symm.trans isAsked
      obtain ⟨rfl, -⟩ := lists.user_unique ideal there isUser there' isUser' (same.trans same'.symm)
      obtain ⟨session, -, done⟩ := openSession_run service (withId user other) world
      exact ⟨_, _, run.trans done, get?_opened_id _ _ _⟩
    · exact absurd isPassword (nobody _ _ _ _ _ there isUser same isIdentity)

theorem Lists.login_refused (lists : Lists service past world) (ideal : service.hasher.Ideal)
    {body : Fields} (request : TextRequest service body)
    (none : ∀ user, ¬ LogsIn service body user world) :
    login service body world = .error (.refused .loginWrong) world := by
  rcases lists.login_cases ideal request with
    ⟨id, user, _, _, _, -, -, -, -, -, run⟩ | ⟨refused, -⟩
  · obtain ⟨session, -, done⟩ := openSession_run service (withId id user) world
    exact absurd ⟨_, _, run.trans done, get?_opened_id _ _ _⟩ (none id)
  · exact refused

/-- Logins succeed exactly for registered credentials. After every part of a run from empty accounts
in which users register with texts, a login succeeds for a user when an earlier registration was
answered for the user with the same identity, up to case, and with the same password, and is refused
otherwise. -/
theorem logsIn_iff_registered {service : Service} {world : World} {steps past : List Step}
    (ideal : service.hasher.Ideal) (own : OwnIdentityField service)
    (apart : service.userCollection ≠ sessionCollection) (empty : world.accounts = .empty)
    (differ : world.supply.FreshDiffer) (asked : Along service (AsksWithText service) steps world)
    (part : past <+: steps) {body : Fields} (request : TextRequest service body) :
    let events := history service past world
    let now := runAll service past world
    (∀ user, LogsIn service body user now ↔ ∃ identity password,
        identityIn service body = .str identity ∧ passwordIn body = .str password ∧
          Registered service events user identity password) ∧
      ((∀ user, ¬ LogsIn service body user now) → ∃ refusal : Refusal, refusal.kind = .credential ∧
        login service body now = .error (.refused refusal) now) := by
  intro events now
  have lists : Lists service events now :=
    (asked.of_prefix part).keeps (Lists.step own apart) (.start empty differ)
  refine ⟨lists.logsIn_iff ideal request, ?_⟩
  intro none
  exact ⟨.loginWrong, rfl, lists.login_refused ideal request none⟩

/-- A registration of Ann's that carries fields which are not hers to set. -/
def boldAnn : Fields :=
  [("_id", .str "root"), ("hashedPassword", .str "none"), ("accessToken", .str "mine")] ++ ann

/-- Ann registers, and logs in with her identity in capitals. -/
theorem logsIn_ann_in_capitals :
    let steps : List Step := [.register boldAnn, .logout none none]
    let body : Fields := [("email", .str "ANN"), ("password", .str "secret")]
    plainService.hasher.Ideal ∧ OwnIdentityField plainService ∧
      plainService.userCollection ≠ sessionCollection ∧ emptyWorld.accounts = .empty ∧
      emptyWorld.supply.FreshDiffer ∧
      Along plainService (AsksWithText plainService) steps emptyWorld ∧
      TextRequest plainService body ∧
      LogsIn plainService body "id-1" (runAll plainService steps emptyWorld) := by
  intro steps body
  have ideal : plainService.hasher.Ideal := Text.spelled_ideal
  have own : OwnIdentityField plainService := ⟨by decide, by decide, by decide⟩
  have apart : plainService.userCollection ≠ sessionCollection := by decide
  have differ : emptyWorld.supply.FreshDiffer := Supply.numbered_freshDiffer _
  have asked : Along plainService (AsksWithText plainService) steps emptyWorld := by
    have request : TextRequest plainService boldAnn := ⟨.inr ⟨"ann", rfl⟩, .inr ⟨"secret", rfl⟩⟩
    exact ⟨⟨request, by decide⟩, trivial, trivial⟩
  have request : TextRequest plainService body := ⟨.inr ⟨"ANN", rfl⟩, .inr ⟨"secret", rfl⟩⟩
  let answer : Fields :=
    [("accessToken", .str (Text.spelled "id-2")), ("email", .str "ann"), ("_createdOn", .int 0),
      ("_id", .str "id-1")]
  have reply : (Step.event plainService (.register boldAnn) emptyWorld).reply = .ok (.user answer) := by
    rfl
  have same : Text.foldCase "ann" = Text.foldCase "ANN" := by rfl
  have run := logsIn_iff_registered ideal own apart rfl differ asked (List.prefix_refl _) request
  refine ⟨ideal, own, apart, rfl, differ, asked, request, (run.1 "id-1").mpr ?_⟩
  refine ⟨"ANN", "secret", rfl, rfl, Step.event plainService (.register boldAnn) emptyWorld, ?_, ?_⟩
  · exact List.mem_cons_self
  · exact ⟨boldAnn, answer, "ann", rfl, reply, rfl, rfl, same, rfl⟩

end GuardedStore.Account
