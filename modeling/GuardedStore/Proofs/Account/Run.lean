import GuardedStore.Proofs.Account.Effect
import GuardedStore.Proofs.Digest.Ideal

/-! # Runs of account operations

A run takes one step after another, whether they succeed or not. Its history tells what was asked and
what was answered. What holds at the start of a run and is kept by every step that the run may take
holds all along.
-/

namespace GuardedStore.Account

open Access (Principal)

/-- An account operation with its arguments. -/
inductive Step where
  | register (body : Fields)
  | login (body : Fields)
  | logout (principal : Option Principal) (token : Option String)
  | me (principal : Option Principal)
  | resolve (token : Option String)

/-- What a step is answered with. -/
inductive Reply where
  /-- The fields of a user, with an access token when a session was opened. -/
  | user (fields : Fields)
  /-- Sessions were closed. -/
  | closed
  /-- The caller behind a token. -/
  | caller (principal : Option Principal)

def Step.run (service : Service) : Step → Serve Reply
  | .register body => return .user (← Account.register service body)
  | .login body => return .user (← Account.login service body)
  | .logout principal token => do
    Account.logout principal token
    return .closed
  | .me principal => return .user (← Account.me principal)
  | .resolve token => return .caller (← Account.resolve service token)

/-- A step that was taken, and how it ended. -/
structure Event where
  step : Step
  reply : Except Fault Reply

def Step.event (service : Service) (step : Step) (world : World) : Event :=
  ⟨step, outcome (step.run service) world⟩

/-- The step asks for what is there and changes nothing. -/
def Step.Reads : Step → Prop
  | .me _ | .resolve _ => True
  | .register _ | .login _ | .logout _ _ => False

theorem Step.still_run (service : Service) {step : Step} (reads : step.Reads) :
    Still (step.run service) := by
  cases step with
  | me principal => exact (still_me principal).bind fun _ => still_pure _
  | resolve token => exact (still_resolve service token).bind fun _ => still_pure _
  | register _ | login _ | logout _ _ => cases reads

theorem Step.atomic_run (service : Service) (step : Step) : Atomic (step.run service) := by
  cases step with
  | register body => exact (atomic_register service body).bind_sure fun _ => sure_pure _
  | login body => exact (atomic_login service body).bind_sure fun _ => sure_pure _
  | logout principal token => exact (atomic_logout principal token).bind_sure fun _ => sure_pure _
  | me principal => exact ((still_me principal).bind fun _ => still_pure _).atomic
  | resolve token => exact ((still_resolve service token).bind fun _ => still_pure _).atomic

/-- How a step ends, and the state that it leaves. -/
inductive StepEffect (service : Service) (world : World) :
    Step → Except Fault Reply → World → Prop
  | failed {step : Step} {fault : Fault} (ended : step.run service world = .error fault world) :
      StepEffect service world step (.error fault) world
  | read {step : Step} {reply : Reply} (reads : step.Reads) :
      StepEffect service world step (.ok reply) world
  | registered {body answer : Fields} {session : Record} {world' : World}
      (given : (isBlankValue (identityIn service body) || isBlankValue (passwordIn body)) = false)
      (unknown : namesakes service body world = .ok [])
      (opening : Opening service (nextUser service world) (userRecord service body world) session
        (withUser service body world) answer world') :
      StepEffect service world (.register body) (.ok (.user answer)) world'
  | loggedIn {body answer : Fields} {id : String} {user session : Record} {world' : World}
      (found : namesakes service body world = .ok [(id, user)])
      (opening : Opening service id user session world answer world') :
      StepEffect service world (.login body) (.ok (.user answer)) world'
  | loggedOut {principal : Principal} {token : String} {found : Entries Record}
      (searched : sessionsOf principal token world = .ok found) :
      StepEffect service world (.logout (some principal) (some token)) (.ok .closed)
        (withoutSessions world (Entries.names found))

theorem step_effect (service : Service) (step : Step) (world : World) :
    StepEffect service world step (step.event service world).reply
      (leaves (step.run service) world) := by
  rw [Step.event]
  cases ended : step.run service world with
  | error fault world' =>
      cases step.atomic_run service world fault world' ended
      rw [outcome_of_error ended, leaves_of_error ended]
      exact .failed ended
  | ok reply world' =>
      rw [outcome_of_ok ended, leaves_of_ok ended]
      cases step with
      | register body =>
          obtain ⟨answer, next, done, last⟩ := bind_ok_iff.mp ended
          cases last
          obtain ⟨given, unknown, session, opening⟩ := register_ok done
          exact .registered given unknown opening
      | login body =>
          obtain ⟨answer, next, done, last⟩ := bind_ok_iff.mp ended
          cases last
          obtain ⟨id, user, session, found, -, -, opening⟩ := login_ok done
          exact .loggedIn found opening
      | logout principal token =>
          obtain ⟨answer, next, done, last⟩ := bind_ok_iff.mp ended
          cases last
          obtain ⟨caller, given, found, rfl, rfl, searched, rfl⟩ := logout_ok done
          exact .loggedOut searched
      | me principal =>
          cases (Step.still_run service (show (Step.me principal).Reads from trivial)).of_ok ended
          exact .read trivial
      | resolve token =>
          cases (Step.still_run service (show (Step.resolve token).Reads from trivial)).of_ok ended
          exact .read trivial

/-- Account operations leave the records of requests alone. -/
theorem Step.leaves_records (service : Service) (step : Step) (world : World) :
    (leaves (step.run service) world).records = world.records := by
  have effect := step_effect service step world
  generalize (step.event service world).reply = reply at effect
  generalize leaves (step.run service) world = world' at effect ⊢
  cases effect with
  | failed | read | loggedOut => rfl
  | registered _ _ opening | loggedIn _ opening =>
      rw [opening.world_eq]
      rfl

/-- What happens in a run. -/
def history (service : Service) : List Step → World → List Event
  | [], _ => []
  | step :: rest, world =>
    step.event service world :: history service rest (leaves (step.run service) world)

/-- The state that a run leaves. -/
def runAll (service : Service) : List Step → World → World
  | [], world => world
  | step :: rest, world => runAll service rest (leaves (step.run service) world)

/-- Every step of a run is allowed in the state that it starts from. -/
def Along (service : Service) (allowed : World → Step → Prop) : List Step → World → Prop
  | [], _ => True
  | step :: rest, world =>
    allowed world step ∧ Along service allowed rest (leaves (step.run service) world)

variable {service : Service} {allowed : World → Step → Prop}

theorem Along.of_prefix {past steps : List Step} {world : World} (h : Along service allowed steps world)
    (part : past <+: steps) : Along service allowed past world := by
  induction steps generalizing past world with
  | nil =>
      rw [List.prefix_nil.mp part]
      trivial
  | cons step rest ih =>
      cases past with
      | nil => trivial
      | cons first past =>
          obtain ⟨rfl, others⟩ := List.cons_prefix_cons.mp part
          exact ⟨h.1, ih h.2 others⟩

theorem history_concat (past : List Step) (step : Step) (world : World) :
    history service (past ++ [step]) world =
      history service past world ++ [step.event service (runAll service past world)] := by
  induction past generalizing world with
  | nil => rfl
  | cons first rest ih => simp only [List.cons_append, history, runAll, ih]

/-- What a step that is allowed keeps, for the history up to it and the state, a run keeps. -/
theorem Along.keeps {Inv : List Event → World → Prop}
    (step_keeps : ∀ {past : List Event} {world : World} {step : Step} {reply : Except Fault Reply}
      {world' : World}, allowed world step → StepEffect service world step reply world' →
      Inv past world → Inv (past ++ [⟨step, reply⟩]) world')
    {steps : List Step} {world : World} (h : Along service allowed steps world)
    (start : Inv [] world) : Inv (history service steps world) (runAll service steps world) := by
  have go (past : List Event) (steps : List Step) (world : World)
      (h : Along service allowed steps world) (held : Inv past world) :
      Inv (past ++ history service steps world) (runAll service steps world) := by
    induction steps generalizing past world with
    | nil => simpa [history, runAll] using held
    | cons step rest ih =>
        have kept := step_keeps h.1 (step_effect service step world) held
        have next := ih _ _ h.2 kept
        rwa [List.append_assoc, List.singleton_append] at next
  exact go [] steps world h start

/-- Accounts whose digests spell their texts. -/
def plainService : Service where
  hasher := Text.spelled

/-- A server on which nothing is stored yet. -/
def emptyWorld : World where
  records := .empty
  accounts := .empty
  supply := .numbered []

/-- The request by which Ann registers and logs in. -/
def ann : Fields :=
  [("email", .str "ann"), ("password", .str "secret")]

end GuardedStore.Account
