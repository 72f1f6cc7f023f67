import GuardedStore.Proofs.Account.Run

/-! # Tokens and their sessions

A token stands for a user from the registration or the login that handed it out until a logout is done
with it. Tokens that differ in case only are the same token, since sessions are searched without regard
to case. The sessions that are stored are exactly those that the history leaves open, each under an id
that the supply does not hand out again.
-/

namespace GuardedStore.Account

open Access (Principal)

/-- A registration or a login was answered for a user, with a token. -/
def Event.Opens (event : Event) (token user : String) : Prop :=
  ∃ body fields given, (event.step = .register body ∨ event.step = .login body) ∧
    event.reply = .ok (.user fields) ∧ Entries.get? fields idField = some (.str user) ∧
    Entries.get? fields tokenField = some (.str given) ∧ Text.foldCase given = Text.foldCase token

/-- A logout was done with a token. -/
def Event.Closes (event : Event) (token : String) : Prop :=
  ∃ principal given, event.step = .logout principal (some given) ∧
    Text.foldCase given = Text.foldCase token

/-- A token was handed out for a user, and no logout was done with it since. -/
def OpenFor (past : List Event) (token user : String) : Prop :=
  ∃ before event later, past = before ++ event :: later ∧ event.Opens token user ∧
    ∀ after ∈ later, ¬ after.Closes token

/-- A logout passes the principal that its token stands for. -/
def Vouched (service : Service) (world : World) : Step → Prop
  | .logout principal token => resolve service token world = .ok principal world
  | _ => True

theorem Event.Opens.congr {event : Event} {token other user : String} (h : event.Opens token user)
    (same : Text.foldCase token = Text.foldCase other) : event.Opens other user := by
  obtain ⟨body, fields, given, step, reply, id, handed, known⟩ := h
  exact ⟨body, fields, given, step, reply, id, handed, known.trans same⟩

theorem Event.Closes.congr {event : Event} {token other : String} (h : event.Closes token)
    (same : Text.foldCase token = Text.foldCase other) : event.Closes other := by
  obtain ⟨principal, given, step, known⟩ := h
  exact ⟨principal, given, step, known.trans same⟩

theorem OpenFor.congr {past : List Event} {token other user : String} (h : OpenFor past token user)
    (same : Text.foldCase token = Text.foldCase other) : OpenFor past other user := by
  obtain ⟨before, event, later, split, opens, kept⟩ := h
  refine ⟨before, event, later, split, opens.congr same, ?_⟩
  intro after member closes
  exact kept after member (closes.congr same.symm)

theorem not_openFor_nil (token user : String) : ¬ OpenFor [] token user := by
  rintro ⟨before, event, later, split, -⟩
  simp at split

theorem openFor_concat {past : List Event} {event : Event} {token user : String} :
    OpenFor (past ++ [event]) token user ↔
      event.Opens token user ∨ OpenFor past token user ∧ ¬ event.Closes token := by
  constructor
  · rintro ⟨before, opening, later, split, opens, kept⟩
    rcases List.eq_nil_or_concat later with rfl | ⟨between, last, rfl⟩
    · obtain ⟨rfl, rfl⟩ := List.append_singleton_inj.mp split
      exact .inl opens
    · rw [List.concat_eq_append, ← List.cons_append, ← List.append_assoc] at split
      obtain ⟨rfl, rfl⟩ := List.append_singleton_inj.mp split
      refine .inr ⟨⟨before, opening, between, rfl, opens, ?_⟩, kept event (by simp)⟩
      intro after member
      exact kept after (by simp [member])
  · rintro (opens | ⟨⟨before, opening, later, rfl, opens, kept⟩, unclosed⟩)
    · exact ⟨past, event, [], rfl, opens, by simp⟩
    · refine ⟨before, opening, later ++ [event], by simp, opens, ?_⟩
      intro after member
      rcases List.mem_append.mp member with old | new
      · exact kept after old
      · rw [List.mem_singleton.mp new]
        exact unclosed

theorem not_closes_of_logsIn {event : Event} {body : Fields}
    (step : event.step = .register body ∨ event.step = .login body) (token : String) :
    ¬ event.Closes token := by
  rintro ⟨principal, given, other, -⟩
  rcases step with step | step <;> rw [step] at other <;> cases other

theorem noOpening_of_step {event : Event} (notRegister : ∀ body, event.step ≠ .register body)
    (notLogin : ∀ body, event.step ≠ .login body) (token user : String) : ¬ event.Opens token user := by
  rintro ⟨body, fields, given, step | step, -⟩
  · exact notRegister body step
  · exact notLogin body step

/-- An answered registration or login opens the session whose token it answers. -/
theorem opens_opened_iff {event : Event} {body : Fields} {id given : String} {user : Record}
    (step : event.step = .register body ∨ event.step = .login body)
    (reply : event.reply = .ok (.user (opened (withId id user) given))) {token other : String} :
    event.Opens token other ↔ other = id ∧ Text.foldCase given = Text.foldCase token := by
  constructor
  · rintro ⟨_, fields, handed, -, replied, isUser, isToken, known⟩
    rw [reply] at replied
    cases replied
    rw [get?_opened_id] at isUser
    rw [get?_opened_token] at isToken
    cases isUser
    cases isToken
    exact ⟨rfl, known⟩
  · rintro ⟨rfl, known⟩
    exact ⟨body, _, given, step, reply, get?_opened_id _ _ _, get?_opened_token _ _, known⟩

/-- The stored sessions are those that the history leaves open, and their ids as well as those of the
sessions that were closed are not handed out again. -/
structure Tracks (service : Service) (past : List Event) (world : World) : Prop where
  unrepeated : world.supply.NeverRepeats
  stored : ∀ id session, (id, session) ∈ sessions world →
    ∃ user, IsSession session (.str user) (service.hasher id) ∧
      user ∈ Entries.names (users service world) ∧ OpenFor past (service.hasher id) user
  kept : ∀ token user, OpenFor past token user → ∃ id session, (id, session) ∈ sessions world ∧
    IsSession session (.str user) (service.hasher id) ∧ Text.foldCase token = service.hasher id
  spent : ∀ id ∈ Entries.names (sessions world), world.supply.Spent id
  closed : ∀ event ∈ past, ∀ token, event.Closes token → ∃ id,
    Text.foldCase token = service.hasher id ∧ world.supply.Spent id ∧
      id ∉ Entries.names (sessions world)

variable {service : Service} {past : List Event} {world : World}

theorem Tracks.start (empty : world.accounts = .empty)
    (unrepeated : world.supply.NeverRepeats) : Tracks service [] world where
  unrepeated := unrepeated
  stored id session member := by
    simp [sessions, empty] at member
  kept token user isOpen := absurd isOpen (not_openFor_nil token user)
  spent id member := by
    simp [sessions, empty, Entries.names] at member
  closed event member := by
    simp at member

theorem IsSession.user_unique {session : Record} {user other token given : String}
    (h : IsSession session (.str user) token) (h' : IsSession session (.str other) given) :
    user = other := by
  have same := h.user.symm.trans h'.user
  cases same
  rfl

theorem IsSession.userOf_eq {session : Record} {user token : String}
    (h : IsSession session (.str user) token) : userOf session = user := by
  simp only [userOf, Record.value, Value.fieldOrNull, h.user, Option.getD_some, Value.asName]

theorem session_unique (ideal : service.hasher.Ideal) {id other : String} {session another : Record}
    (member : (id, session) ∈ sessions world) (member' : (other, another) ∈ sessions world)
    (same : service.hasher id = service.hasher other) : id = other ∧ session = another := by
  cases ideal.injective same
  have unique := world.accounts.nodup_entries sessionCollection
  have first := Entries.get?_of_mem unique member
  have second := Entries.get?_of_mem unique member'
  rw [first] at second
  cases second
  exact ⟨rfl, rfl⟩

theorem Tracks.sessionsWith_eq (tracks : Tracks service past world) (ideal : service.hasher.Ideal)
    (token : String) :
    sessionsWith token world =
      .ok ((sessions world).filter fun entry => Text.foldCase token = service.hasher entry.1) := by
  refine Store.filterEntries_of_total ?_
  rintro ⟨id, session⟩ member
  obtain ⟨user, isSession, -⟩ := tracks.stored id session member
  rw [Store.matchesFields_text isSession.plain isSession.token, ideal.foldCase_digest,
    Store.matchesFields_nil]
  by_cases same : Text.foldCase token = service.hasher id <;> simp [same]

theorem Tracks.resolve_cases (tracks : Tracks service past world) (ideal : service.hasher.Ideal)
    (token : String) :
    (∃ id session user principal, (id, session) ∈ sessions world ∧
        IsSession session (.str user) (service.hasher id) ∧
        Text.foldCase token = service.hasher id ∧ principal.id = user ∧
        resolve service (some token) world = .ok (some principal) world) ∨
      (∀ entry ∈ sessions world, Text.foldCase token ≠ service.hasher entry.1) ∧
        resolve service (some token) world = .error (.refused .tokenInvalid) world := by
  have run := resolve_run service token world
  rw [tracks.sessionsWith_eq ideal token] at run
  cases found : (sessions world).filter
      fun entry => Text.foldCase token = service.hasher entry.1 with
  | nil =>
      rw [found] at run
      refine .inr ⟨?_, run⟩
      intro entry member same
      have absent := List.filter_eq_nil_iff.mp found entry member
      simp [same] at absent
  | cons entry others =>
      obtain ⟨id, session⟩ := entry
      have head : (id, session) ∈ (sessions world).filter
          fun entry => Text.foldCase token = service.hasher entry.1 := by
        rw [found]
        exact List.mem_cons_self
      obtain ⟨member, same⟩ := List.mem_filter.mp head
      obtain ⟨user, isSession, known, -⟩ := tracks.stored id session member
      rw [found] at run
      simp only [isSession.userOf_eq] at run
      cases there : Entries.get? (users service world) user with
      | none => exact absurd known (Entries.get?_eq_none_iff.mp there)
      | some record =>
          rw [there] at run
          exact .inl ⟨id, session, user, _, member, isSession, of_decide_eq_true same, rfl, run⟩

/-- An event that hands out no token and closes no session changes nothing about sessions. -/
theorem Tracks.idle (tracks : Tracks service past world) {event : Event}
    (noOpening : ∀ token user, ¬ event.Opens token user) (noClosing : ∀ token, ¬ event.Closes token) :
    Tracks service (past ++ [event]) world where
  unrepeated := tracks.unrepeated
  stored id session member := by
    obtain ⟨user, isSession, known, isOpen⟩ := tracks.stored id session member
    exact ⟨user, isSession, known, openFor_concat.mpr (.inr ⟨isOpen, noClosing _⟩)⟩
  kept token user isOpen := by
    rcases openFor_concat.mp isOpen with opens | ⟨isOpen, -⟩
    · exact absurd opens (noOpening token user)
    · exact tracks.kept token user isOpen
  spent := tracks.spent
  closed other member token closes := by
    rcases List.mem_append.mp member with old | new
    · exact tracks.closed other old token closes
    · rw [List.mem_singleton.mp new] at closes
      exact absurd closes (noClosing token)

theorem Tracks.registered (tracks : Tracks service past world)
    (apart : service.userCollection ≠ sessionCollection) (body : Fields) :
    Tracks service past (withUser service body world) := by
  have same : sessions (withUser service body world) = sessions world := by
    rw [sessions, withUser, Store.entries_put, if_neg apart, sessions]
  have follows : world.supply.Follows (withUser service body world).supply :=
    Store.follows_restSupply tracks.unrepeated _ _
  refine ⟨follows.neverRepeats tracks.unrepeated, ?_, ?_, ?_, ?_⟩
  · intro id session member
    rw [same] at member
    obtain ⟨user, isSession, known, isOpen⟩ := tracks.stored id session member
    refine ⟨user, isSession, ?_, isOpen⟩
    rw [users, withUser, Store.entries_put, if_pos rfl]
    exact Entries.mem_names_set.mpr (.inl known)
  · rw [same]
    exact tracks.kept
  · intro id member
    rw [same] at member
    exact follows.spent (tracks.spent id member)
  · intro event member token closes
    obtain ⟨id, known, spent, gone⟩ := tracks.closed event member token closes
    rw [same]
    exact ⟨id, known, follows.spent spent, gone⟩

theorem Tracks.opening (tracks : Tracks service past world) (ideal : service.hasher.Ideal)
    (apart : service.userCollection ≠ sessionCollection) {id : String} {user session : Record}
    {body answer : Fields} {world' : World} {event : Event}
    (known : id ∈ Entries.names (users service world))
    (opening : Opening service id user session world answer world')
    (step : event.step = .register body ∨ event.step = .login body)
    (reply : event.reply = .ok (.user answer)) : Tracks service (past ++ [event]) world' := by
  have same := opening.users_eq apart
  obtain ⟨isSession, rfl, rfl⟩ := opening
  have differ := tracks.unrepeated.freshDiffer
  have opens := @opens_opened_iff event body id (service.hasher (nextSession world)) user step reply
  rw [ideal.foldCase_digest] at opens
  have noClosing := not_closes_of_logsIn step
  have grown : sessions (withSession world session) =
      sessions world ++ [(nextSession world, session)] :=
    Store.entries_put_nextId differ world.accounts sessionCollection session
  have follows : world.supply.Follows (withSession world session).supply :=
    (Store.follows_restSupply tracks.unrepeated _ _).trans (Supply.follows_tick _)
  have spentNow : (withSession world session).supply.Spent (nextSession world) :=
    (Supply.follows_tick _).spent (Store.spent_nextId tracks.unrepeated _ _)
  refine ⟨follows.neverRepeats tracks.unrepeated, ?_, ?_, ?_, ?_⟩
  · intro other another member
    rw [same]
    rw [grown] at member
    rcases List.mem_append.mp member with old | new
    · obtain ⟨owner, isSession, known, isOpen⟩ := tracks.stored other another old
      exact ⟨owner, isSession, known, openFor_concat.mpr (.inr ⟨isOpen, noClosing _⟩)⟩
    · cases List.mem_singleton.mp new
      refine ⟨id, isSession, known, openFor_concat.mpr (.inl (opens.mpr ⟨rfl, ?_⟩))⟩
      rw [ideal.foldCase_digest]
  · intro token owner isOpen
    rw [grown]
    rcases openFor_concat.mp isOpen with opened | ⟨isOpen, -⟩
    · obtain ⟨rfl, digest⟩ := opens.mp opened
      exact ⟨nextSession world, session, by simp, isSession, digest.symm⟩
    · obtain ⟨other, another, member, found⟩ := tracks.kept token owner isOpen
      exact ⟨other, another, List.mem_append_left _ member, found⟩
  · intro other member
    rw [grown, Entries.names, List.map_append] at member
    rcases List.mem_append.mp member with old | new
    · exact follows.spent (tracks.spent other old)
    · rw [List.mem_singleton.mp new]
      exact spentNow
  · intro closing member token closes
    rcases List.mem_append.mp member with old | new
    · obtain ⟨other, digest, spent, gone⟩ := tracks.closed closing old token closes
      refine ⟨other, digest, follows.spent spent, ?_⟩
      rw [grown, Entries.names, List.map_append, List.mem_append, not_or]
      refine ⟨gone, ?_⟩
      rw [List.map_singleton, List.mem_singleton]
      exact (spent.ne_drawId differ _).symm
    · rw [List.mem_singleton.mp new] at closes
      exact absurd closes (noClosing token)

theorem Tracks.searched_of_resolved (tracks : Tracks service past world) (ideal : service.hasher.Ideal)
    {principal : Principal} {token : String}
    (resolved : resolve service (some token) world = .ok (some principal) world) :
    ∃ id found, id ∈ Entries.names (sessions world) ∧ Text.foldCase token = service.hasher id ∧
      sessionsOf principal token world = .ok found ∧
      sessions (withoutSessions world (Entries.names found)) = Entries.erase (sessions world) id := by
  rcases tracks.resolve_cases ideal token with
    ⟨id, session, user, caller, member, isSession, digest, isUser, done⟩ | ⟨-, refused⟩
  · rw [resolved] at done
    cases done
    have searched : sessionsOf principal token world =
        .ok ((sessions world).filter fun entry => Text.foldCase token = service.hasher entry.1 ∧
          Text.foldCase principal.id = Text.foldCase (userOf entry.2)) := by
      refine Store.filterEntries_of_total ?_
      rintro ⟨other, another⟩ there
      obtain ⟨owner, belongs, -⟩ := tracks.stored other another there
      rw [Store.matchesFields_text belongs.plain belongs.token, ideal.foldCase_digest,
        Store.matchesFields_text belongs.plain belongs.user, Store.matchesFields_nil,
        belongs.userOf_eq]
      by_cases same : Text.foldCase token = service.hasher other <;>
        by_cases hers : Text.foldCase principal.id = Text.foldCase owner <;> simp [same, hers]
    refine ⟨id, _, Entries.mem_names_iff.mpr ⟨session, member⟩, digest, searched, ?_⟩
    rw [sessions, withoutSessions, Store.entries_withoutAll, if_pos rfl, Entries.erase, sessions]
    refine List.filter_congr ?_
    rintro ⟨other, another⟩ there
    -- Among the stored sessions, only that of the token passes the search.
    have found : other ∈ Entries.names ((sessions world).filter fun entry =>
        Text.foldCase token = service.hasher entry.1 ∧
          Text.foldCase principal.id = Text.foldCase (userOf entry.2)) ↔ other = id := by
      rw [Entries.mem_names_iff]
      constructor
      · rintro ⟨third, passed⟩
        obtain ⟨here, tests⟩ := List.mem_filter.mp passed
        have same := (of_decide_eq_true tests).1.symm.trans digest
        exact ideal.injective same
      · rintro rfl
        refine ⟨session, List.mem_filter.mpr ⟨member, decide_eq_true ⟨digest, ?_⟩⟩⟩
        rw [isSession.userOf_eq, isUser]
    simpa [sessions] using found
  · rw [resolved] at refused
    cases refused

theorem Tracks.closing (tracks : Tracks service past world) (ideal : service.hasher.Ideal)
    (apart : service.userCollection ≠ sessionCollection) {principal : Principal} {token : String}
    {event : Event} {found : Entries Record}
    (resolved : resolve service (some token) world = .ok (some principal) world)
    (searched : sessionsOf principal token world = .ok found)
    (step : event.step = .logout (some principal) (some token)) :
    Tracks service (past ++ [event]) (withoutSessions world (Entries.names found)) := by
  obtain ⟨id, same, member, digest, again, erased⟩ := tracks.searched_of_resolved ideal resolved
  cases searched.symm.trans again
  have closes_iff (other : String) : event.Closes other ↔ Text.foldCase token = Text.foldCase other := by
    constructor
    · rintro ⟨caller, given, same, known⟩
      rw [step] at same
      cases same
      exact known
    · intro known
      exact ⟨_, _, step, known⟩
  have noOpening := @noOpening_of_step event (by simp [step]) (by simp [step])
  have same := users_withoutSessions apart world (Entries.names found)
  have follows : world.supply.Follows (withoutSessions world (Entries.names found)).supply :=
    ⟨0, fun _ => rfl⟩
  have smaller : ∀ other ∈ Entries.names (sessions (withoutSessions world (Entries.names found))),
      other ∈ Entries.names (sessions world) ∧ other ≠ id := by
    intro other left
    rw [erased] at left
    obtain ⟨session, left⟩ := Entries.mem_names_iff.mp left
    obtain ⟨there, different⟩ := Entries.mem_erase.mp left
    exact ⟨Entries.mem_names_iff.mpr ⟨session, there⟩, different⟩
  refine ⟨follows.neverRepeats tracks.unrepeated, ?_, ?_, ?_, ?_⟩
  · intro other another left
    rw [erased] at left
    obtain ⟨there, different⟩ := Entries.mem_erase.mp left
    obtain ⟨user, isSession, known, isOpen⟩ := tracks.stored other another there
    rw [same]
    refine ⟨user, isSession, known, openFor_concat.mpr (.inr ⟨isOpen, ?_⟩)⟩
    rw [closes_iff, ideal.foldCase_digest, digest]
    intro equal
    exact different (ideal.injective equal).symm
  · intro other user isOpen
    rcases openFor_concat.mp isOpen with opens | ⟨isOpen, unclosed⟩
    · exact absurd opens (noOpening other user)
    · obtain ⟨third, session, there, isSession, known⟩ := tracks.kept other user isOpen
      refine ⟨third, session, ?_, isSession, known⟩
      rw [erased, Entries.mem_erase]
      refine ⟨there, ?_⟩
      rintro rfl
      exact unclosed ((closes_iff other).mpr (digest.trans known.symm))
  · intro other left
    exact follows.spent (tracks.spent other (smaller other left).1)
  · intro closing there other closes
    rcases List.mem_append.mp there with old | new
    · obtain ⟨third, known, spent, gone⟩ := tracks.closed closing old other closes
      exact ⟨third, known, follows.spent spent, fun left => gone (smaller third left).1⟩
    · rw [List.mem_singleton.mp new, closes_iff] at closes
      refine ⟨id, closes.symm.trans digest, follows.spent (tracks.spent id member), ?_⟩
      intro left
      exact (smaller id left).2 rfl

theorem Tracks.not_closes_of_failed (tracks : Tracks service past world)
    (ideal : service.hasher.Ideal) {step : Step} (vouched : Vouched service world step) {fault : Fault}
    (ended : step.run service world = .error fault world) (token : String) :
    ¬ Event.Closes ⟨step, .error fault⟩ token := by
  rintro ⟨principal, given, rfl, -⟩
  have resolved : resolve service (some given) world = .ok principal world := vouched
  rcases tracks.resolve_cases ideal given with
    ⟨_, _, _, caller, -, -, -, -, done⟩ | ⟨-, refused⟩
  · cases resolved.symm.trans done
    obtain ⟨id, found, -, -, searched, -⟩ := tracks.searched_of_resolved ideal resolved
    have run := logout_run caller given world
    rw [searched] at run
    cases (bind_of_ok run).symm.trans ended
  · cases resolved.symm.trans refused

/-- Whatever step a run takes, if its logouts are vouched for, the history goes on telling which
sessions are stored. -/
theorem Tracks.step (ideal : service.hasher.Ideal)
    (apart : service.userCollection ≠ sessionCollection) {step : Step} {reply : Except Fault Reply}
    {world' : World} (vouched : Vouched service world step)
    (effect : StepEffect service world step reply world') (tracks : Tracks service past world) :
    Tracks service (past ++ [⟨step, reply⟩]) world' := by
  cases effect with
  | failed ended =>
      refine tracks.idle ?_ (tracks.not_closes_of_failed ideal vouched ended)
      rintro token user ⟨body, fields, given, -, reply, -⟩
      cases reply
  | @read step reply reads =>
      cases step with
      | register _ | login _ | logout _ _ => cases reads
      | me principal | resolve token =>
          refine tracks.idle (noOpening_of_step (by simp) (by simp)) ?_
          rintro token ⟨caller, given, closes, -⟩
          cases closes
  | @registered body answer session world' given unknown opening =>
      refine (tracks.registered apart body).opening ideal apart ?_ opening (.inl rfl) rfl
      rw [users, withUser, Store.entries_put, if_pos rfl]
      exact Entries.mem_names_set.mpr (.inr rfl)
  | @loggedIn body answer id user session world' found opening =>
      have member := (Store.filterEntries_sublist found).subset (List.mem_singleton.mpr rfl)
      have known : id ∈ Entries.names (users service world) :=
        Entries.mem_names_iff.mpr ⟨user, member⟩
      exact tracks.opening ideal apart known opening (.inr rfl) rfl
  | loggedOut searched => exact tracks.closing ideal apart vouched searched rfl

/-- A token is resolved to the principal with an id, and the state stays as it is. -/
def ResolvesTo (service : Service) (token user : String) (world : World) : Prop :=
  ∃ principal, resolve service (some token) world = .ok (some principal) world ∧ principal.id = user

theorem Tracks.resolvesTo_iff (tracks : Tracks service past world) (ideal : service.hasher.Ideal)
    {token user : String} : ResolvesTo service token user world ↔ OpenFor past token user := by
  constructor
  · rintro ⟨principal, resolved, rfl⟩
    rcases tracks.resolve_cases ideal token with
      ⟨id, session, user, caller, member, isSession, digest, isUser, done⟩ | ⟨-, refused⟩
    · rw [resolved] at done
      cases done
      obtain ⟨owner, belongs, -, isOpen⟩ := tracks.stored id session member
      cases isSession.user_unique belongs
      rw [isUser]
      exact isOpen.congr ((ideal.foldCase_digest id).trans digest.symm)
    · rw [resolved] at refused
      cases refused
  · intro isOpen
    obtain ⟨id, session, member, isSession, digest⟩ := tracks.kept token user isOpen
    rcases tracks.resolve_cases ideal token with
      ⟨other, another, owner, caller, there, belongs, same, isOwner, done⟩ | ⟨none, -⟩
    · obtain ⟨-, rfl⟩ := session_unique ideal member there (digest.symm.trans same)
      cases isSession.user_unique belongs
      exact ⟨caller, done, isOwner⟩
    · exact absurd digest (none (id, session) member)

theorem Tracks.resolve_refused (tracks : Tracks service past world) (ideal : service.hasher.Ideal)
    {token : String} (none : ∀ user, ¬ OpenFor past token user) :
    resolve service (some token) world = .error (.refused .tokenInvalid) world := by
  rcases tracks.resolve_cases ideal token with
    ⟨id, session, user, caller, -, -, -, isUser, done⟩ | ⟨-, refused⟩
  · exact absurd ((tracks.resolvesTo_iff ideal).mp ⟨caller, done, isUser⟩) (none user)
  · exact refused

theorem Tracks.not_openFor_of_closes (tracks : Tracks service past world)
    (ideal : service.hasher.Ideal) {event : Event} (member : event ∈ past) {token : String}
    (closes : event.Closes token) (user : String) : ¬ OpenFor past token user := by
  intro isOpen
  obtain ⟨id, session, there, -, digest⟩ := tracks.kept token user isOpen
  obtain ⟨other, known, -, gone⟩ := tracks.closed event member token closes
  have same : id = other := ideal.injective (digest.symm.trans known)
  exact gone (same ▸ Entries.mem_names_iff.mpr ⟨session, there⟩)

/-- Tokens are valid exactly while their session is open. After every part of a run from empty accounts
whose logouts are vouched for, a token stands for a user when it was handed out for the user and no
logout was done with it since, and is refused otherwise. A logout closes no session but that of its
token, and a closed token never stands for anybody again. -/
theorem resolvesTo_iff_openFor {service : Service} {world : World} {steps past : List Step}
    (ideal : service.hasher.Ideal) (apart : service.userCollection ≠ sessionCollection)
    (empty : world.accounts = .empty) (unrepeated : world.supply.NeverRepeats)
    (vouched : Along service (Vouched service) steps world) (part : past <+: steps) (token : String) :
    let events := history service past world
    let now := runAll service past world
    (∀ user, ResolvesTo service token user now ↔ OpenFor events token user) ∧
      ((∀ user, ¬ OpenFor events token user) → ∃ refusal : Refusal, refusal.kind = .credential ∧
        resolve service (some token) now = .error (.refused refusal) now) ∧
      (∀ principal given, past ++ [.logout principal (some given)] <+: steps →
        Text.foldCase given ≠ Text.foldCase token → ∀ user, ResolvesTo service token user now →
          ResolvesTo service token user
            (runAll service (past ++ [.logout principal (some given)]) world)) ∧
      ((∃ event ∈ events, event.Closes token) → ∀ user, ¬ ResolvesTo service token user now) := by
  intro events now
  have tracked {taken : List Step} (part : taken <+: steps) :
      Tracks service (history service taken world) (runAll service taken world) :=
    (vouched.of_prefix part).keeps (Tracks.step ideal apart) (.start empty unrepeated)
  refine ⟨?_, ?_, ?_, ?_⟩
  · intro user
    exact (tracked part).resolvesTo_iff ideal
  · intro none
    exact ⟨.tokenInvalid, rfl, (tracked part).resolve_refused ideal none⟩
  · intro principal given further different user resolves
    rw [(tracked further).resolvesTo_iff ideal, history_concat, openFor_concat]
    refine .inr ⟨((tracked part).resolvesTo_iff ideal).mp resolves, ?_⟩
    rintro ⟨caller, closing, step, same⟩
    cases step
    exact different same
  · rintro ⟨event, member, closes⟩ user resolves
    exact (tracked part).not_openFor_of_closes ideal member closes user
      (((tracked part).resolvesTo_iff ideal).mp resolves)

/-- The principal behind the first user, Ann. -/
def annAsCaller : Principal where
  id := "id-1"
  attributes := [("email", .str "ann"), ("_createdOn", .int 0)]

/-- Ann registers and logs in again, and then closes her first session. -/
theorem resolvesTo_second_session_of_ann :
    let past : List Step := [.register ann, .login ann]
    let logout : Step := .logout annAsCaller (Text.spelled "id-2")
    plainService.hasher.Ideal ∧ plainService.userCollection ≠ sessionCollection ∧
      emptyWorld.accounts = .empty ∧ emptyWorld.supply.NeverRepeats ∧
      Along plainService (Vouched plainService) (past ++ [logout]) emptyWorld ∧
      ResolvesTo plainService (Text.spelled "id-3") "id-1"
        (runAll plainService (past ++ [logout]) emptyWorld) ∧
      ∀ user, ¬ ResolvesTo plainService (Text.spelled "id-2") user
        (runAll plainService (past ++ [logout]) emptyWorld) := by
  intro past logout
  have ideal : plainService.hasher.Ideal := Text.spelled_ideal
  have apart : plainService.userCollection ≠ sessionCollection := by decide
  have unrepeated : emptyWorld.supply.NeverRepeats := Supply.numbered_neverRepeats
  have first : resolve plainService (some (Text.spelled "id-2"))
      (runAll plainService [.register ann, .login ann] emptyWorld) =
      .ok (some annAsCaller) (runAll plainService [.register ann, .login ann] emptyWorld) := by rfl
  have second : resolve plainService (some (Text.spelled "id-3"))
      (runAll plainService [.register ann, .login ann] emptyWorld) =
      .ok (some annAsCaller) (runAll plainService [.register ann, .login ann] emptyWorld) := by rfl
  have vouched : Along plainService (Vouched plainService) (past ++ [logout]) emptyWorld :=
    ⟨trivial, trivial, first, trivial⟩
  have different : Text.foldCase (Text.spelled "id-2") ≠ Text.foldCase (Text.spelled "id-3") := by
    rw [Text.spelled_ideal.foldCase_digest, Text.spelled_ideal.foldCase_digest]
    exact fun same => absurd (Text.spelled_ideal.injective same) (by decide)
  refine ⟨ideal, apart, rfl, unrepeated, vouched, ?_, ?_⟩
  · have run := resolvesTo_iff_openFor ideal apart rfl unrepeated vouched
      (List.prefix_append past [logout]) (Text.spelled "id-3")
    exact run.2.2.1 annAsCaller _ (List.prefix_refl _) different "id-1" ⟨annAsCaller, second, rfl⟩
  · have run := resolvesTo_iff_openFor ideal apart rfl unrepeated vouched (List.prefix_refl _)
      (Text.spelled "id-2")
    refine run.2.2.2 ⟨logout.event plainService (runAll plainService past emptyWorld), ?_, ?_⟩
    · rw [history_concat]
      exact List.mem_append_right _ List.mem_cons_self
    · exact ⟨annAsCaller, Text.spelled "id-2", rfl, rfl⟩

end GuardedStore.Account
