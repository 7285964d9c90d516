/-
  Query tasks that run at the same time.

  A task is one query over UDP or TCP. It goes through the steps of its handler: parsing and
  filtering, the lookup under the lock, `forward_raw` without it, the insertion under the
  lock, the reply; over UDP the insertion comes before the reply, over TCP after it. Between
  two steps of a task any other task may take any of its own. Every step brings its own
  upstreams, clock readings and failing writes (`Moment`).

  `alone_serve`: a task whose steps nothing comes between does what its handler does.
-/
import VantaDns.Service.Run

namespace VantaDns.Service

open Lib Protocol Cache VantaDns.Filter Resolver

/-- How far a task has come, with the values it still needs. -/
inductive Phase where
  | begun
  /-- The first question has passed the filter. -/
  | admitted (packet : DnsPacket) (question : DnsQuestion)
  /-- The lookup found nothing. -/
  | missed (packet : DnsPacket) (question : DnsQuestion)
  /-- `forward_raw` returned a message. -/
  | received (question : DnsQuestion) (resp : List UInt8)
  /-- Over UDP: the message was put into the cache, if it parsed. -/
  | stored (resp : List UInt8)
  /-- Over TCP: the message was written to the client. -/
  | written (question : DnsQuestion) (resp : List UInt8)
  | ended (ending : Ending)
  deriving DecidableEq

structure Task where
  transport : Transport
  query : List UInt8
  phase : Phase
  /-- What its own `forward_raw` returned. -/
  fetched : Option (List UInt8)
  /-- The message it answered its client with. -/
  reply : Option (List UInt8)
  deriving DecidableEq

def Task.start (transport : Transport) (query : List UInt8) : Task :=
  ⟨transport, query, .begun, none, none⟩

/-- The task answers with a message that it built and ends. -/
def Task.answer (task : Task) (m : Moment) (resp : List UInt8) : Task where
  transport := task.transport
  query := task.query
  phase :=
    match task.transport with
    | .udp => .ended .returned
    | .tcp => .ended (afterWrite (writeFrame m.env resp).2)
  fetched := task.fetched
  reply := some resp

/-- The next step of a task, and the cache after it. -/
def Task.step (task : Task) (state : DnsServiceState) (m : Moment) : DnsCache × Task :=
  match task.phase with
  | .begun =>
    match DnsPacket.parse task.query with
    | .panic => (state.cache, { task with phase := .ended .panicked })
    | .err _ => (state.cache, { task with phase := .ended .returned })
    | .ok packet =>
      match packet.questions.head? with
      | none => (state.cache, { task with phase := .ended .returned })
      | some question =>
        match state.filter.evaluate question.name with
        | .Blocked _ => (state.cache, task.answer m (blockedReply state packet).toBytes)
        | .AllowListMatched _ | .Allowed =>
            (state.cache, { task with phase := .admitted packet question })
  | .admitted packet question =>
    match state.cache.get question.name question.qtype m.now₁ m.now₂ with
    | (some cachedResp, cache) => (cache, task.answer m cachedResp.toBytes)
    | (none, cache) => (cache, { task with phase := .missed packet question })
  | .missed packet question =>
    match state.forwarder.forwardRaw m.net task.query with
    | .ok resp =>
        (state.cache, { task with phase := .received question resp, fetched := some resp })
    | .error _ =>
      match task.transport with
      | .udp => (state.cache, { task with phase := .ended .returned })
      | .tcp => (state.cache, { task with
          phase := .ended .returned, reply := some (servFailReply packet).toBytes })
  | .received question resp =>
    match task.transport with
    | .udp =>
      match store m.env question resp state.cache with
      | (cache, .returned) => (cache, { task with phase := .stored resp })
      | (cache, ending) => (cache, { task with phase := .ended ending })
    | .tcp =>
      match (writeFrame m.env resp).2 with
      | true => (state.cache, { task with phase := .written question resp, reply := some resp })
      | false => (state.cache, { task with phase := .ended .failed, reply := some resp })
  | .stored resp => (state.cache, { task with phase := .ended .returned, reply := some resp })
  | .written question resp =>
    match store m.env question resp state.cache with
    | (cache, ending) => (cache, { task with phase := .ended ending })
  | .ended _ => (state.cache, task)

structure System where
  state : DnsServiceState
  tasks : List Task

def System.start (settings : Settings) : System := ⟨settings.initial, []⟩

/-- A query arrives, or the task with a number takes its next step. -/
inductive Action where
  | spawn (transport : Transport) (query : List UInt8)
  | act (i : Nat) (moment : Moment)

def System.step (s : System) : Action → System
  | .spawn transport query => { s with tasks := s.tasks ++ [Task.start transport query] }
  | .act i m =>
    match s.tasks[i]? with
    | none => s
    | some task =>
      let (cache, task') := task.step s.state m
      ⟨{ s.state with cache := cache }, s.tasks.set i task'⟩

/-! ## One task alone -/

/-- The steps of a task that nothing comes between, `n` of them. -/
def Task.steps (m : Moment) : Nat → DnsServiceState → Task → DnsCache × Task
  | 0, state, task => (state.cache, task)
  | n + 1, state, task =>
      Task.steps m n { state with cache := (task.step state m).1 } (task.step state m).2

theorem steps_ended (m : Moment) (n : Nat) (state : DnsServiceState) (transport : Transport)
    (query : List UInt8) (ending : Ending) (fetched reply : Option (List UInt8)) :
    Task.steps m n state ⟨transport, query, .ended ending, fetched, reply⟩ =
      (state.cache, ⟨transport, query, .ended ending, fetched, reply⟩) := by
  induction n generalizing state with
  | zero => rfl
  | succ n ih => exact ih _

theorem steps_answer (m : Moment) (n : Nat) (state : DnsServiceState) (task : Task)
    (resp : List UInt8) :
    Task.steps m n state (task.answer m resp) = (state.cache, task.answer m resp) := by
  unfold Task.answer
  cases task.transport <;> exact steps_ended ..

/-- The last steps of a task with a message from upstream. -/
theorem steps_received (m : Moment) (n : Nat) (state : DnsServiceState) (transport : Transport)
    (query : List UInt8) (packet : DnsPacket) (question : DnsQuestion) (resp : List UInt8)
    (fetched : Option (List UInt8)) :
    Task.steps m (n + 2) state ⟨transport, query, .received question resp, fetched, none⟩ =
      (((Route.answered packet question resp state.cache).serve state m.env transport).cache,
        ⟨transport, query,
          .ended ((Route.answered packet question resp state.cache).serve state m.env
            transport).ending, fetched,
          ((Route.answered packet question resp state.cache).serve state m.env transport).reply⟩) := by
  cases transport with
  | udp =>
    rw [Task.steps, Task.steps]
    unfold Task.step Route.serve Route.udp
    dsimp only
    rcases store m.env question resp state.cache with ⟨cache, _ | _ | _⟩
    · exact steps_ended ..
    · exact steps_ended ..
    · exact steps_ended ..
  | tcp =>
    rw [Task.steps, Task.steps]
    unfold Task.step Route.serve Route.tcp
    dsimp only
    rcases (writeFrame m.env resp).2 with _ | _
    · exact steps_ended ..
    · exact steps_ended ..

/-- The steps of a task that has passed the filter. -/
theorem steps_admitted (m : Moment) (state : DnsServiceState) (transport : Transport)
    (query : List UInt8) (packet : DnsPacket) (question : DnsQuestion) :
    ∃ fetched, Task.steps m 4 state ⟨transport, query, .admitted packet question, none, none⟩ =
      (((routeAllowed query state m.env packet question).serve state m.env transport).cache,
        ⟨transport, query,
          .ended ((routeAllowed query state m.env packet question).serve state m.env
            transport).ending, fetched,
          ((routeAllowed query state m.env packet question).serve state m.env transport).reply⟩) := by
  rw [Task.steps, Task.step]
  have hget : (m.env.beforeGet state.cache).get question.name question.qtype m.env.now₁ m.env.now₂ =
      state.cache.get question.name question.qtype m.now₁ m.now₂ := rfl
  unfold routeAllowed
  rw [hget]
  dsimp only
  rcases state.cache.get question.name question.qtype m.now₁ m.now₂ with ⟨_ | cachedResp, cache⟩
  · rw [Task.steps, Task.step]
    have hforward : state.forwarder.forwardRaw m.env.net query =
        state.forwarder.forwardRaw m.net query := rfl
    rw [hforward]
    dsimp only
    rcases state.forwarder.forwardRaw m.net query with e | resp
    · cases transport <;> exact ⟨none, steps_ended ..⟩
    · refine ⟨some resp, ?_⟩
      have hlast := steps_received m 0 { state with cache := cache } transport query packet question
        resp (some resp)
      cases transport <;> exact hlast
  · refine ⟨none, (steps_answer ..).trans ?_⟩
    cases transport <;> rfl

/-- A task whose steps nothing comes between leaves the cache, the reply and the ending of its
    handler. -/
theorem alone_serve (transport : Transport) (query : List UInt8) (state : DnsServiceState)
    (m : Moment) :
    ∃ fetched, (Task.start transport query).steps m 5 state =
      ((serve transport query state m.env).cache, ⟨transport, query,
        .ended (serve transport query state m.env).ending, fetched,
        (serve transport query state m.env).reply⟩) := by
  rw [serve_eq]
  unfold routeOf Task.start
  rw [Task.steps, Task.step]
  dsimp only
  rcases DnsPacket.parse query with packet | e | _
  · dsimp only
    rcases packet.questions.head? with _ | question
    · refine ⟨none, (steps_ended ..).trans ?_⟩
      cases transport <;> rfl
    · dsimp only
      rcases state.filter.evaluate question.name with _ | rule | rule
      case Blocked =>
        refine ⟨none, (steps_answer ..).trans ?_⟩
        cases transport <;> rfl
      all_goals exact steps_admitted m state transport query packet question
  · refine ⟨none, (steps_ended ..).trans ?_⟩
    cases transport <;> rfl
  · refine ⟨none, (steps_ended ..).trans ?_⟩
    cases transport <;> rfl

end VantaDns.Service
