import GuardedStore.Http.Server
import GuardedStore.Proofs.Account.Run
import GuardedStore.Proofs.Request.Ownership
import GuardedStore.Proofs.Request.Unshared

/-! # Calls that fail

A call checks before it writes, and only then its reply is turned into a text. There is none for a
record that a rule has put into itself, and none for half of a surrogate pair. So an answer that
reports an error leaves both stores as they were, unless it reports that what was done could not be
told. Only a rule that assigns puts a record into itself.
-/

namespace GuardedStore.Http

open Request (Answer execute Assignless)

/-- All that was changed in either store is that a record which holds itself was written to a
collection. -/
structure LoopWritten (name : String) (before after : World) : Prop where
  accounts : after.accounts = before.accounts
  records : ∃ id record, record.isCircular = true ∧
    after.records = before.records.put name id record

theorem isCircular_of_withId {id : String} {record : Record}
    (h : (withId id record).isCircular = true) : record.isCircular = true := by
  obtain ⟨⟨name, v⟩, member, circular⟩ := List.any_eq_true.mp h
  simp only [withId, Record.isCircularAt_set] at circular
  split at circular
  · cases circular
  · rename_i apart
    rcases Entries.mem_set member with same | before
    · exact absurd (congrArg Prod.fst same).symm apart
    · exact List.any_eq_true.mpr ⟨(name, v), before, circular⟩

theorem isCircular_of_plain {record : Record} (plain : record.identities = []) :
    record.isCircular = false := by
  simp [Record.isCircular, Store.isCircularAt_of_identities plain]

/-- A request that is answered with what holds itself has written it, unless it is a read. -/
theorem loopWritten_of_effect {service : Request.Service} {request : Request} {name : String}
    {world world' : World} {answer : Answer} (named : request.collection = some name)
    (effect : Request.Effect service request world answer world')
    (circular : answer.isCircular = true) : world' = world ∨ LoopWritten name world world' := by
  have same {other : String} (required : request.requireCollection = .ok other) : other = name :=
    Option.some.inj ((Request.collection_of_required required).symm.trans named)
  -- A write is answered with the stored record, to which only its id was added.
  cases effect with
  | read => exact .inl rfl
  | created _ required | merged _ required | replaced _ required =>
      cases same required
      exact .inr ⟨rfl, _, _, isCircular_of_withId circular, rfl⟩
  | deleted =>
      rw [Answer.isCircular, isCircular_of_plain rfl] at circular
      cases circular

/-- How the answer to a request is sent. -/
def send (answer : Answer) : Serve Reply := do
  if answer.isCircular then throw .circular
  return .ok answer.toValue

theorem still_send (answer : Answer) : Still (send answer) := by
  unfold send
  split
  · exact still_throw _
  · exact still_pure _

namespace Server

variable (server : Server) (call : Call) {world world' : World} {fault : Fault} {reply : Reply}

theorem still_principal : Still (server.principal call) :=
  Account.still_resolve _ _

/-- A call to records fails before it does anything, or is a request whose answer is sent. -/
theorem records_run (name : String) (behind : List Char) (world : World) :
    (∃ fault, server.records call name behind world = .error fault world) ∨
      ∃ request : Request, request.collection = some name ∧
        server.records call name behind world = (execute server.requests request >>= send) world := by
  unfold records
  rcases (server.still_principal call).bind_run _ world with early | ⟨principal, -, next⟩
  · exact .inl early
  rw [next]
  rcases (Serve.still_orRefuse _).bind_run _ world with early | ⟨id, -, next⟩
  · exact .inl early
  rw [next]
  split
  · rcases (Serve.still_orRefuse _).bind_run _ world with early | ⟨payload, -, next⟩
    · exact .inl early
    rw [next]
    exact .inr ⟨_, rfl, rfl⟩
  · exact .inr ⟨_, rfl, rfl⟩

theorem records_error {name : String} {behind : List Char}
    (h : server.records call name behind world = .error fault world') :
    world' = world ∨ fault = .circular ∧ LoopWritten name world world' := by
  rcases server.records_run call name behind world with ⟨_, early⟩ | ⟨request, named, run⟩
  · rw [early] at h
    cases h
    exact .inl rfl
  · rw [run] at h
    rcases bind_error_iff.mp h with failed | ⟨answer, written, done, unsent⟩
    · exact .inl (Request.atomic_execute _ _ _ _ _ failed)
    · cases circular : answer.isCircular with
      | false => simp [send, circular, pure_run] at unsent
      | true =>
          simp only [send, circular, if_true, throw_bind] at unsent
          cases unsent
          refine (loopWritten_of_effect named (Request.execute_effect done) circular).imp_right ?_
          exact fun wrote => ⟨rfl, wrote⟩

theorem records_ok {name : String} {behind : List Char}
    (h : server.records call name behind world = .ok reply world') : reply.status = 200 := by
  rcases server.records_run call name behind world with ⟨_, early⟩ | ⟨request, named, run⟩
  · rw [early] at h
    cases h
  · rw [run] at h
    obtain ⟨answer, written, -, sent⟩ := bind_ok_iff.mp h
    simp only [send] at sent
    split at sent
    · cases sent
    · cases sent
      rfl

theorem still_health : Still server.health :=
  still_get.bind fun _ => still_pure _

theorem still_collections : Still (server.collections call) :=
  (server.still_principal call).bind fun _ =>
    (Request.still_execute server.requests rfl).bind fun _ => still_pure _

theorem still_serve_me : Still (server.serve call .me) :=
  (server.still_principal call).bind fun principal =>
    (Account.still_me principal).bind fun _ => still_pure _

theorem atomic_withCredentials {run : Fields → Serve Fields} (atomic : ∀ body, Atomic (run body)) :
    Atomic (withCredentials call run) := by
  unfold withCredentials
  split
  · exact (atomic _).bind_sure fun _ => sure_pure _
  · exact (still_pure _).atomic
  · exact (still_throw _).atomic

theorem atomic_serve {resource : Resource} (other : ∀ name behind, resource ≠ .records name behind) :
    Atomic (server.serve call resource) := by
  cases resource with
  | health => exact server.still_health.atomic
  | collections => exact (server.still_collections call).atomic
  | records name behind => exact absurd rfl (other name behind)
  | register => exact atomic_withCredentials call fun body => Account.atomic_register _ body
  | login => exact atomic_withCredentials call fun body => Account.atomic_login _ body
  | logout =>
      exact (server.still_principal call).bind_atomic fun principal =>
        (Account.atomic_logout principal _).bind_sure fun _ => sure_pure _
  | me => exact (server.still_serve_me call).atomic
  | manual => exact (still_pure _).atomic

theorem serve_error {resource : Resource}
    (h : server.serve call resource world = .error fault world') :
    world' = world ∨
      fault = .circular ∧ ∃ name behind, resource = .records name behind ∧
        LoopWritten name world world' := by
  by_cases records : ∃ name behind, resource = .records name behind
  · obtain ⟨name, behind, rfl⟩ := records
    refine (server.records_error call h).imp_right fun ⟨same, wrote⟩ => ?_
    exact ⟨same, name, behind, rfl, wrote⟩
  · have other : ∀ name behind, resource ≠ .records name behind :=
      fun name behind same => records ⟨name, behind, same⟩
    exact .inl (server.atomic_serve call other world fault world' h)

theorem withCredentials_ok {run : Fields → Serve Fields}
    (h : withCredentials call run world = .ok reply world') : reply.status < 400 ∨ world' = world := by
  unfold withCredentials at h
  cases given : readCredentials call.body with
  | ok body =>
      rw [given] at h
      obtain ⟨fields, written, -, sent⟩ := bind_ok_iff.mp h
      cases sent
      exact .inl (show 200 < 400 by decide)
  | error reason =>
      rw [given] at h
      cases reason with
      | unreadable =>
          cases h
          exact .inr rfl
      | refused => cases h

theorem serve_ok {resource : Resource} (h : server.serve call resource world = .ok reply world') :
    reply.status < 400 ∨ world' = world := by
  cases resource with
  | health => exact .inr (server.still_health.of_ok h)
  | collections => exact .inr ((server.still_collections call).of_ok h)
  | records name behind =>
      rw [server.records_ok call h]
      exact .inl (by decide)
  | register | login => exact withCredentials_ok call h
  | logout =>
      obtain ⟨principal, _, -, h⟩ := bind_ok_iff.mp h
      obtain ⟨_, _, -, sent⟩ := bind_ok_iff.mp h
      cases sent
      exact .inl (by decide)
  | me => exact .inr ((server.still_serve_me call).of_ok h)
  | manual =>
      cases h
      exact .inr rfl

/-- What a call is answered with, and the state that it leaves, when serving it ends. -/
def ended : EStateM.Result Fault World Reply → Reply × World
  | .ok reply world => (reply, world)
  | .error fault world => (.ofFault fault, world)

theorem snd_answer (world : World) :
    (server.answer call world).2 = (server.reply call world).2 := rfl

theorem status_answer (world : World) :
    (server.answer call world).1.status = (call.rendered (server.reply call world).1).status := by
  simp only [answer]
  split <;> rfl

theorem rendered_or_noText (reply : Reply) :
    call.rendered reply = reply ∨
      (call.rendered reply).status = 500 ∧ ∃ body, reply.body = some body ∧ call.renders body = false := by
  unfold Call.rendered
  split
  · rename_i body held
    cases text : call.renders body with
    | true => exact .inl rfl
    | false => exact .inr ⟨rfl, body, held, text⟩
  · exact .inl rfl

/-- A call is carried out, and there is no text for its reply. -/
structure Unsent (world : World) : Prop where
  carriedOut : (server.reply call world).1.status < 400
  noText : ∃ body, (server.reply call world).1.body = some body ∧ call.renders body = false

theorem reply_failed_of_answer {world : World} (failed : 400 ≤ (server.answer call world).1.status) :
    400 ≤ (server.reply call world).1.status ∧
        ((server.reply call world).1.status = 500 → (server.answer call world).1.status = 500) ∨
      (server.answer call world).1.status = 500 ∧ server.Unsent call world := by
  rw [status_answer] at failed ⊢
  rcases rendered_or_noText call (server.reply call world).1 with same | ⟨status, noText⟩
  · rw [same] at failed ⊢
    exact .inl ⟨failed, id⟩
  · by_cases carriedOut : (server.reply call world).1.status < 400
    · exact .inr ⟨status, carriedOut, noText⟩
    · exact .inl ⟨Nat.le_of_not_lt carriedOut, fun _ => status⟩

/-- A call either does nothing, or it is answered with what serving the resource on its path ends
with. -/
theorem reply_run (world : World) :
    (server.reply call world).2 = world ∨
      ∃ resource, Resource.ofPath? call.target.path = some resource ∧
        server.reply call world = ended (server.serve call resource world) := by
  unfold reply
  cases Resource.ofPath? call.target.path with
  | none => exact .inl rfl
  | some resource =>
      dsimp only
      split
      · exact .inr ⟨resource, rfl, rfl⟩
      · exact .inl rfl

/-- A call that ends with an error leaves the state as it was, or it has written a record that holds
itself to the collection on its path. -/
theorem reply_error {world : World} (failed : 400 ≤ (server.reply call world).1.status) :
    (server.reply call world).2 = world ∨
      (server.reply call world).1.status = 500 ∧ ∃ name behind,
        Resource.ofPath? call.target.path = some (.records name behind) ∧
          LoopWritten name world (server.reply call world).2 := by
  rcases server.reply_run call world with idle | ⟨resource, found, run⟩
  · exact .inl idle
  rw [run] at failed ⊢
  cases served : server.serve call resource world with
  | ok reply world' =>
      rw [served] at failed
      exact .inl ((server.serve_ok call served).resolve_left (Nat.not_lt.mpr failed))
  | error fault world' =>
      refine (server.serve_error call served).imp_right ?_
      rintro ⟨rfl, name, behind, rfl, wrote⟩
      exact ⟨rfl, name, behind, found, wrote⟩

/-- Some rule that is in force where records are created or updated assigns something. -/
def Assigning : Prop :=
  ∃ action collection key, action.isWrite = true ∧
    ¬ (server.requests.rules.resolve action collection key).Unassigning

variable {server} {call}

theorem assignless_of_not_assigning (quiet : ¬ server.Assigning) {request : Request}
    (write : request.action.isWrite = true) : Assignless server.requests request :=
  fun key => not_not.mp fun assigns => quiet ⟨_, _, key, write, assigns⟩

/-- No stored record has shared parts. -/
def Plain (world : World) : Prop :=
  world.records.IsPlain

theorem maintains_step (service : Account.Service) (step : Account.Step) :
    Maintains Plain (step.run service) := by
  intro world plain
  rwa [Plain, step.leaves_records]

theorem maintains_withCredentials {run : Fields → Serve Fields}
    (maintains : ∀ body, Maintains Plain (run body)) : Maintains Plain (withCredentials call run) := by
  unfold withCredentials
  split
  · exact (maintains _).bind fun _ => (still_pure _).maintains
  · exact (still_pure _).maintains
  · exact (still_throw _).maintains

theorem maintains_records (quiet : ¬ server.Assigning) (name : String) (behind : List Char) :
    Maintains Plain (server.records call name behind) := by
  intro world plain
  rcases server.records_run call name behind world with ⟨fault, early⟩ | ⟨request, -, run⟩
  · rwa [leaves_of_error early]
  · have executed : Maintains Plain (execute server.requests request) := fun world plain =>
      Request.isPlain_execute (assignless_of_not_assigning quiet) plain
    rw [leaves, run]
    exact executed.bind (fun answer => (still_send answer).maintains) world plain

theorem maintains_serve (quiet : ¬ server.Assigning) (resource : Resource) :
    Maintains Plain (server.serve call resource) := by
  cases resource with
  | health => exact server.still_health.maintains
  | collections => exact (server.still_collections call).maintains
  | records name behind => exact maintains_records quiet name behind
  | register =>
      exact maintains_withCredentials fun body =>
        (maintains_step server.accounts (.register body)).of_bind_pure
  | login =>
      exact maintains_withCredentials fun body =>
        (maintains_step server.accounts (.login body)).of_bind_pure
  | logout =>
      refine (server.still_principal call).maintains.bind fun principal => ?_
      have kept := (maintains_step server.accounts (.logout principal call.token?)).of_bind_pure
      exact kept.bind fun _ => (still_pure _).maintains
  | me => exact (server.still_serve_me call).maintains
  | manual => exact (still_pure _).maintains

theorem snd_ended (x : Serve Reply) (world : World) : (ended (x world)).2 = leaves x world := by
  rw [leaves]
  cases x world <;> rfl

theorem plain_answer (quiet : ¬ server.Assigning) {world : World} (plain : Plain world) :
    Plain (server.answer call world).2 := by
  rw [snd_answer]
  rcases server.reply_run call world with idle | ⟨resource, -, run⟩
  · rwa [idle]
  · rw [run, snd_ended]
    exact maintains_serve quiet resource world plain

theorem plain_answerAll (quiet : ¬ server.Assigning) (calls : List Call) {world : World}
    (plain : Plain world) : Plain (server.answerAll calls world).2 := by
  induction calls generalizing world with
  | nil => exact plain
  | cons call calls ih => exact ih (plain_answer quiet plain)

/-- A server gets into a state: it was started and has answered some calls. -/
def Reaches (server : Server) (world : World) : Prop :=
  ∃ settings sources supply first calls,
    start settings sources supply = .ok (server, first) ∧ (server.answerAll calls first).2 = world

theorem plain_start {settings : Settings} {sources : Sources} {supply : Supply} {world : World}
    (h : start settings sources supply = .ok (server, world)) : Plain world := by
  obtain ⟨records, -, h⟩ := except_bind_ok_iff.mp h
  split at h
  all_goals
    obtain ⟨accounts, -, h⟩ := except_bind_ok_iff.mp h
    obtain ⟨rules, -, made⟩ := except_bind_ok_iff.mp h
    cases made
    exact Request.isPlain_ofSnapshot records

theorem Reaches.plain {world : World} (reached : server.Reaches world) (quiet : ¬ server.Assigning) :
    Plain world := by
  obtain ⟨_, _, _, first, calls, started, rfl⟩ := reached
  exact plain_answerAll quiet calls (plain_start started)

theorem not_loopWritten_of_plain {name : String} {before after : World} (plain : Plain after) :
    ¬ LoopWritten name before after := by
  rintro ⟨-, id, record, circular, wrote⟩
  have stored : Entries.get? (after.records.entries name) id = some record := by
    rw [wrote, Store.get?_put, if_pos ⟨rfl, rfl⟩]
  rw [isCircular_of_plain (plain.of_stored stored)] at circular
  cases circular

/-- Notes are put into themselves. -/
def selfishSources : Sources where
  rules := .mapping
    [(.str "notes", .mapping [(.str ".create", .str "newData.self = newData")])]

/-- Somebody posts a note without fields. -/
def postNote : Call where
  method := .post
  target := ⟨"/data/notes".toList, []⟩
  body := [0x7b, 0x7d]

/-- Somebody replaces the first note. -/
def putNote : Call where
  method := .put
  target := ⟨"/data/notes/id-1".toList, []⟩

/-- The status of a call behind other calls, and the collections before and after it. -/
def observed (calls : List Call) (call : Call) (started : Server × World) :
    Nat × List String × List String :=
  let (server, first) := started
  let world := (server.answerAll calls first).2
  let (reply, after) := server.answer call world
  (reply.status, world.records.collectionNames, after.records.collectionNames)

/-- What is observed of a server that is started from the files is observed of one that did start. -/
theorem started_of_observed {calls : List Call} {call : Call} {seen : Nat × List String × List String}
    (h : (start {} selfishSources (.numbered [])).toOption.map (observed calls call) = some seen) :
    ∃ server first, start {} selfishSources (.numbered []) = .ok (server, first) ∧
      observed calls call (server, first) = seen := by
  cases started : start {} selfishSources (.numbered []) with
  | error fault =>
      rw [started] at h
      cases h
  | ok pair =>
      rw [started] at h
      exact ⟨pair.1, pair.2, rfl, Option.some.inj h⟩

/-- A note that anybody may post stays when there is no text for it. -/
example :
    let sources : Sources := { rules := .mapping [(.str "notes", .mapping [(.str ".create", .bool true)])] }
    (start {} sources (.numbered [])).toOption.map (observed [] { postNote with renders := fun _ => false }) =
      some (500, [], ["notes"]) := by
  decide +kernel

end Server

end GuardedStore.Http
