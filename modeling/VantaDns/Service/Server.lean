/-
  The server (`run_server` in `main.rs`): the UDP loop, the accept loops, and the tasks that
  they spawn, all on one state.

  A datagram is read into a buffer of 4096 bytes and served by a task of its own, whose answer
  goes back to where the datagram came from, if `send_to` does not fail. A connection over TCP or
  TLS is served by `serve_tcp_dns`: it reads one frame after the other and serves it before it
  reads the next. The bytes of a connection come in at any time and in any pieces.

  Every query is a task of `System`, so what holds of those in any interleaving holds here
  (`system_step`). `server_datagrams`: every reply is handed to `send_to` once, with the source of
  its query. `server_connections`: what a connection whose own writes do not fail has written are
  the frames of the replies to its own frames, in order, whatever the other clients do.
-/
import VantaDns.Config.SocketAddr
import VantaDns.Protocol.Extension
import VantaDns.Service.Progress

namespace VantaDns.Service

open Lib Protocol Cache VantaDns.Filter Resolver Config

/-- Whose query a task serves. -/
inductive Owner where
  | datagram (source : SocketAddr) (payload : List UInt8)
  | connection (j : Nat)

/-- A connection over TCP or TLS and its handler. -/
structure Client where
  /-- All bytes that came in. -/
  arrived : List UInt8
  /-- Those behind the last query that was read. -/
  unread : List UInt8
  /-- The stream is over, by the end of the file or an error. -/
  hungUp : Option Bool
  /-- The tasks of the queries that were read, in order. -/
  rounds : List Nat
  serving : Option Nat
  written : List UInt8
  ending : Option Ending

def Client.accepted : Client := ⟨[], [], none, [], none, [], none⟩

/-- A call of `send_to`, for the reply of a task. -/
structure SendTo where
  task : Nat
  resp : List UInt8
  src : SocketAddr
  /-- It does not fail. -/
  ok : Bool

/-- The longest datagram that can be sent to an address. -/
def maxDatagram : SocketAddr → Nat
  | .V4 _ _ => 65507
  | .V6 _ _ _ => 65527

structure Server where
  system : System
  /-- For every task, whose query it serves. -/
  owners : List Owner
  clients : List Client
  /-- The calls of `send_to`, in order. -/
  sends : List SendTo

/-- The datagrams that were sent, with the task and the address. -/
def Server.sent (s : Server) : List (Nat × SocketAddr × List UInt8) :=
  (s.sends.filter SendTo.ok).map fun call => (call.task, call.src, call.resp)

def Server.start (settings : Settings) : Server := ⟨System.start settings, [], [], []⟩

inductive ServerAction where
  | datagram (source : SocketAddr) (payload : List UInt8)
  /-- A step of the task of a datagram; `ok` says that a datagram can be sent now. -/
  | resolve (i : Nat) (m : Moment) (ok : Bool)
  | accept
  | receive (j : Nat) (bytes : List UInt8)
  | hangUp (j : Nat) (broken : Bool)
  /-- A step of the handler of a connection. -/
  | serve (j : Nat) (m : Moment)

/-- What a step of a task writes to its connection. -/
def Task.wrote (task : Task) (m : Moment) (task' : Task) : List UInt8 :=
  match task.reply, task'.reply with
  | none, some resp =>
    match task.phase with
    | .missed _ _ => (writeAll m.prefixFault (lengthPrefix resp)).1 ++
        (writeAll m.payloadFault resp).1
    | _ => (writeFrame m.env resp).1
  | _, _ => []

/-- The connection after a step of its task. -/
def Client.after (client : Client) (m : Moment) (task task' : Task) : Client :=
  let client := { client with written := client.written ++ task.wrote m task' }
  match task'.phase with
  | .ended .returned => { client with serving := none }
  | .ended ending => { client with serving := none, ending := some ending }
  | _ => client

/-- What the reading of the next frame comes to. -/
inductive Reading where
  | waiting
  | closed (ending : Ending)
  | query (query rest : List UInt8)

/-- The two calls of `read_exact` at the head of the loop of `serve_tcp_dns`. -/
def Client.read (client : Client) : Reading :=
  match client.unread with
  | x :: y :: rest =>
      let msgLen := x.toNat * 256 + y.toNat
      if msgLen = 0 then .closed .returned
      else if rest.length < msgLen then
        match client.hungUp with
        | none => .waiting
        | some _ => .closed .failed
      else .query (rest.take msgLen) (rest.drop msgLen)
  | _ =>
    match client.hungUp with
    | none => .waiting
    | some broken => .closed (if broken then .failed else .returned)

/-- A step of the handler of connection `j`. -/
def Server.serve (s : Server) (j : Nat) (client : Client) (m : Moment) : Server :=
  match client.serving with
  | none =>
    match client.read with
    | .waiting => s
    | .closed ending => { s with clients := s.clients.set j { client with ending := some ending } }
    | .query query rest =>
        let i := s.system.tasks.length
        { s with
          system := s.system.step (.spawn .tcp query)
          owners := s.owners ++ [.connection j]
          clients := s.clients.set j
            { client with unread := rest, rounds := client.rounds ++ [i], serving := some i } }
  | some i =>
    match s.system.tasks[i]? with
    | none => s
    | some task =>
        { s with
          system := s.system.step (.act i m)
          clients := s.clients.set j (client.after m task (task.step s.system.state m).2) }

def Server.step (s : Server) : ServerAction → Server
  | .datagram source payload =>
      { s with
        system := s.system.step (.spawn .udp (payload.take 4096))
        owners := s.owners ++ [.datagram source payload] }
  | .resolve i m ok =>
    match s.owners[i]?, s.system.tasks[i]? with
    | some (.datagram src _), some task =>
        let task' := (task.step s.system.state m).2
        { s with
          system := s.system.step (.act i m)
          sends :=
            match task.reply, task'.reply with
            -- whether it fails is not looked at
            | none, some resp => s.sends ++ [⟨i, resp, src, ok && resp.length ≤ maxDatagram src⟩]
            | _, _ => s.sends }
    | _, _ => s
  | .accept => { s with clients := s.clients ++ [.accepted] }
  | .receive j bytes =>
    match s.clients[j]? with
    | none => s
    | some client =>
      match client.hungUp with
      | some _ => s
      | none =>
          { s with
            clients := s.clients.set j
              { client with arrived := client.arrived ++ bytes, unread := client.unread ++ bytes } }
  | .hangUp j broken =>
    match s.clients[j]? with
    | none => s
    | some client => { s with clients := s.clients.set j { client with hungUp := some broken } }
  | .serve j m =>
    match s.clients[j]? with
    | none => s
    | some client =>
      match client.ending with
      | some _ => s
      | none => s.serve j client m

/-! ## Tasks -/

/-- A step of the server takes at most one step of the system. -/
theorem system_step (s : Server) (a : ServerAction) :
    (s.step a).system = s.system ∨ ∃ b, (s.step a).system = s.system.step b := by
  match a with
  | .datagram source payload => exact Or.inr ⟨.spawn .udp (payload.take 4096), rfl⟩
  | .resolve i m _ =>
    unfold Server.step
    dsimp only
    split
    · exact Or.inr ⟨.act i m, rfl⟩
    · exact Or.inl rfl
  | .accept => exact Or.inl rfl
  | .receive j bytes =>
    unfold Server.step
    dsimp only
    split
    · exact Or.inl rfl
    · split <;> exact Or.inl rfl
  | .hangUp j broken =>
    unfold Server.step
    dsimp only
    split <;> exact Or.inl rfl
  | .serve j m =>
    unfold Server.step
    dsimp only
    split
    · exact Or.inl rfl
    · split
      · exact Or.inl rfl
      · unfold Server.serve
        split
        · split
          · exact Or.inl rfl
          · exact Or.inl rfl
          · next query rest _ => exact Or.inr ⟨.spawn .tcp query, rfl⟩
        · split
          · exact Or.inl rfl
          · next i _ _ _ _ => exact Or.inr ⟨.act i m, rfl⟩

theorem due_server {settings : Settings} (s : Server) (a : ServerAction)
    (h : Due settings s.system) : Due settings (s.step a).system := by
  obtain hsame | ⟨b, hstep⟩ := system_step s a
  · rw [hsame]
    exact h
  · rw [hstep]
    exact due_step s.system b h

/-- A step keeps the reply that a task has given. -/
theorem reply_step {settings : Settings} {task : Task} (hs : Sound settings task)
    {resp : List UInt8} (hr : task.reply = some resp) (state : DnsServiceState) (m : Moment) :
    (task.step state m).2.reply = some resp := by
  obtain ⟨t, query, phase, fetched, reply⟩ := task
  match phase with
  | .begun => exact absurd (hs.2.symm.trans hr) (by simp)
  | .admitted packet question => exact absurd (hs.2.2.symm.trans hr) (by simp)
  | .missed packet question => exact absurd (hs.2.2.symm.trans hr) (by simp)
  | .received question resp => exact absurd (hs.2.2.symm.trans hr) (by simp)
  | .stored resp => exact absurd (hs.2.symm.trans hr) (by simp)
  | .written question resp => exact hr
  | .ended ending => exact hr

/-- Without failing writes a step writes the frame of the reply, if it gives one. -/
theorem wrote_unfailing {task task' : Task} {m : Moment} (hm : Unfailing m.env)
    (hkeep : ∀ resp, task.reply = some resp → task'.reply = some resp) :
    task.reply.toList.flatMap frame ++ task.wrote m task' = task'.reply.toList.flatMap frame := by
  unfold Task.wrote
  cases hr : task.reply with
  | some resp =>
    rw [hkeep resp hr]
    simp
  | none =>
    cases hr' : task'.reply with
    | none => rfl
    | some resp =>
      have hframe : frame resp = (writeAll m.prefixFault (lengthPrefix resp)).1 ++
          (writeAll m.payloadFault resp).1 := by
        obtain ⟨hpre, hpayload⟩ : m.prefixFault = none ∧ m.payloadFault = none := hm
        rw [hpre, hpayload]
        rfl
      have hwrite := congrArg Prod.fst (writeFrame_unfailing hm resp)
      dsimp only at hwrite ⊢
      split
      · rw [← hframe]
        simp
      · rw [hwrite]
        simp

/-- Over TCP exactly the answerable queries have replies in the end. -/
theorem Settled.isSome_reply {settings : Settings} {task : Task} (h : Settled settings task)
    (ht : task.transport = .tcp) : task.reply.isSome = answerable task.query := by
  cases ha : answerable task.query with
  | false =>
    rw [h.dropped ha]
    rfl
  | true =>
    obtain ⟨packet, question, hp, hq⟩ := answerable_iff.1 ha
    have hsome : ∃ resp, task.reply = some resp := by
      cases he : settings.filter.evaluate question.name with
      | Blocked rule => exact ⟨_, h.blocked packet question rule hp hq he⟩
      | Allowed => exact h.tcp packet question ⟨hp, hq, fun rule hb => by cases he.symm.trans hb⟩ ht
      | AllowListMatched rule =>
        exact h.tcp packet question ⟨hp, hq, fun rule hb => by cases he.symm.trans hb⟩ ht
    obtain ⟨resp, hresp⟩ := hsome
    rw [hresp]
    rfl

/-! ## Lists -/

theorem getElem?_set_cases {α : Type} {l : List α} {j k : Nat} {a b : α}
    (h : (l.set j a)[k]? = some b) : k = j ∧ b = a ∨ k ≠ j ∧ l[k]? = some b := by
  by_cases hk : j = k
  · rw [hk, List.getElem?_set_self'] at h
    obtain ⟨-, -, rfl⟩ := Option.map_eq_some_iff.1 h
    exact Or.inl ⟨hk.symm, rfl⟩
  · rw [List.getElem?_set_ne hk] at h
    exact Or.inr ⟨Ne.symm hk, h⟩

theorem lt_of_getElem? {α : Type} {l : List α} {i : Nat} {a : α} (h : l[i]? = some a) :
    i < l.length := (List.getElem?_eq_some_iff.1 h).1

theorem getElem?_append_of_some {α : Type} {l : List α} {i : Nat} {a : α} (h : l[i]? = some a)
    (l' : List α) : (l ++ l')[i]? = some a :=
  (List.getElem?_append_left (lt_of_getElem? h)).trans h

theorem nodup_map_concat {α β : Type} {f : α → β} {l : List α} {a : α} (h : (l.map f).Nodup)
    (hnew : ∀ b ∈ l, f b ≠ f a) : ((l ++ [a]).map f).Nodup := by
  rw [List.map_append, List.map_singleton, ← List.concat_eq_append]
  refine h.concat fun hmem => ?_
  obtain ⟨b, hb, heq⟩ := List.mem_map.1 hmem
  exact hnew b hb heq

theorem getElem?_concat_cases {α : Type} {l : List α} {a b : α} {i : Nat}
    (h : (l ++ [a])[i]? = some b) : l[i]? = some b ∨ i = l.length ∧ b = a := by
  rw [List.getElem?_append] at h
  split at h
  · exact Or.inl h
  · next hge =>
    rw [List.getElem?_singleton] at h
    split at h
    · next hzero =>
      cases h
      exact Or.inr ⟨by omega, rfl⟩
    · cases h

theorem after_spec (c : Client) (m : Moment) (task task' : Task) :
    (c.after m task task').arrived = c.arrived ∧ (c.after m task task').unread = c.unread ∧
      (c.after m task task').rounds = c.rounds ∧
      (c.after m task task').written = c.written ++ task.wrote m task' ∧
      (task'.Ended ∧ (c.after m task task').serving = none ∨
        (c.after m task task').serving = c.serving) := by
  unfold Client.after
  dsimp only
  split
  · next hp => exact ⟨rfl, rfl, rfl, rfl, Or.inl ⟨⟨_, hp⟩, rfl⟩⟩
  · next ending _ hp => exact ⟨rfl, rfl, rfl, rfl, Or.inl ⟨⟨ending, hp⟩, rfl⟩⟩
  · exact ⟨rfl, rfl, rfl, rfl, Or.inr rfl⟩

/-! ## Datagrams -/

/-- The reply of task `i` was handed to `send_to`. -/
def Handed (sends : List SendTo) (i : Nat) (src : SocketAddr) (resp : List UInt8) : Prop :=
  ∃ ok, ⟨i, resp, src, ok⟩ ∈ sends

theorem handed_concat {sends : List SendTo} {call : SendTo} {i : Nat} {src : SocketAddr}
    {resp : List UInt8} : Handed (sends ++ [call]) i src resp ↔
      Handed sends i src resp ∨ i = call.task ∧ src = call.src ∧ resp = call.resp := by
  unfold Handed
  simp only [List.mem_append, List.mem_singleton, exists_or]
  refine or_congr_right ⟨?_, ?_⟩
  · intro ⟨ok, heq⟩
    rw [← heq]
    exact ⟨rfl, rfl, rfl⟩
  · intro ⟨hi, hsrc, hresp⟩
    exact ⟨call.ok, by rw [hi, hsrc, hresp]⟩

theorem Handed.of_sent {s : Server} {i : Nat} {src : SocketAddr} {resp : List UInt8}
    (h : (i, src, resp) ∈ s.sent) : Handed s.sends i src resp := by
  obtain ⟨call, hcall, heq⟩ := List.mem_map.1 h
  cases heq
  exact ⟨call.ok, (List.mem_filter.1 hcall).1⟩

/-- The tasks of datagrams, and what was handed over for them. -/
structure Datagrams (tasks : List Task) (owners : List Owner) (sends : List SendTo) : Prop where
  asked : ∀ (i : Nat) src payload, owners[i]? = some (Owner.datagram src payload) →
    ∃ task : Task, tasks[i]? = some task ∧ task.transport = .udp ∧ task.query = payload.take 4096
  once : (sends.map SendTo.task).Nodup
  handed_iff : ∀ (i : Nat) src resp, Handed sends i src resp ↔ ∃ payload, ∃ task : Task,
    owners[i]? = some (Owner.datagram src payload) ∧ tasks[i]? = some task ∧
      task.reply = some resp

/-- The tasks of connections do not matter. -/
theorem Datagrams.congr {tasks tasks' : List Task} {owners owners' : List Owner}
    {sends : List SendTo} (h : Datagrams tasks owners sends)
    (ht : ∀ (i : Nat) src payload, owners[i]? = some (Owner.datagram src payload) →
      tasks'[i]? = tasks[i]?)
    (ho : ∀ (i : Nat) src payload, owners'[i]? = some (Owner.datagram src payload) ↔
      owners[i]? = some (Owner.datagram src payload)) : Datagrams tasks' owners' sends := by
  refine ⟨?_, h.once, ?_⟩
  · intro i src payload howner
    have hold := (ho i src payload).1 howner
    rw [ht i src payload hold]
    exact h.asked i src payload hold
  · intro i src resp
    rw [h.handed_iff]
    refine exists_congr fun payload => exists_congr fun task => ?_
    rw [ho]
    exact and_congr_right fun howner => by rw [ht i src payload howner]

/-- A step of the task of a datagram: with a reply, it is handed over. -/
theorem Datagrams.resolved {tasks : List Task} {owners : List Owner} {sends : List SendTo}
    (h : Datagrams tasks owners sends) {i : Nat} {src : SocketAddr} {payload : List UInt8}
    {task task' : Task} (ho : owners[i]? = some (.datagram src payload))
    (hi : tasks[i]? = some task) (hquery : task'.query = task.query)
    (htransport : task'.transport = task.transport)
    (hkeep : ∀ resp, task.reply = some resp → task'.reply = some resp) (ok : List UInt8 → Bool) :
    Datagrams (tasks.set i task') owners
      (match task.reply, task'.reply with
      | none, some resp => sends ++ [⟨i, resp, src, ok resp⟩]
      | _, _ => sends) := by
  have hself : (tasks.set i task')[i]? = some task' :=
    List.getElem?_set_self (List.getElem?_eq_some_iff.1 hi).1
  have hother : ∀ k, k ≠ i → (tasks.set i task')[k]? = tasks[k]? := fun k hk =>
    List.getElem?_set_ne (Ne.symm hk)
  have hhanded : ∀ src' resp, Handed sends i src' resp ↔ src' = src ∧ task.reply = some resp := by
    intro src' resp
    rw [h.handed_iff]
    constructor
    · rintro ⟨_, _, ho', hi', hr⟩
      cases ho.symm.trans ho'
      cases hi.symm.trans hi'
      exact ⟨rfl, hr⟩
    · rintro ⟨rfl, hr⟩
      exact ⟨payload, task, ho, hi, hr⟩
  have hasked : ∀ (k : Nat) src' payload', owners[k]? = some (Owner.datagram src' payload') →
      ∃ task : Task, (tasks.set i task')[k]? = some task ∧ task.transport = .udp ∧
        task.query = payload'.take 4096 := by
    intro k src' payload' ho'
    obtain ⟨task₀, hget, ht, hq⟩ := h.asked k src' payload' ho'
    by_cases hk : k = i
    · rw [hk] at hget ⊢
      cases hi.symm.trans hget
      exact ⟨task', hself, htransport.trans ht, hquery.trans hq⟩
    · rw [hother k hk]
      exact ⟨task₀, hget, ht, hq⟩
  -- what is handed over for task `i` is what it has replied, and for the others it stays
  have hiff : ∀ {sends' : List SendTo},
      (∀ k src' resp, k ≠ i → (Handed sends' k src' resp ↔ Handed sends k src' resp)) →
      (∀ src' resp, Handed sends' i src' resp ↔ src' = src ∧ task'.reply = some resp) →
      ∀ (k : Nat) src' resp, Handed sends' k src' resp ↔ ∃ payload', ∃ task : Task,
        owners[k]? = some (Owner.datagram src' payload') ∧
          (tasks.set i task')[k]? = some task ∧ task.reply = some resp := by
    intro sends' hne heq k src' resp
    by_cases hk : k = i
    · subst hk
      rw [heq, hself]
      constructor
      · rintro ⟨rfl, hr⟩
        exact ⟨payload, task', ho, rfl, hr⟩
      · rintro ⟨_, _, ho', heq', hr⟩
        cases ho.symm.trans ho'
        cases heq'
        exact ⟨rfl, hr⟩
    · rw [hne k src' resp hk, h.handed_iff, hother k hk]
  cases hr : task.reply with
  | some old =>
    rw [hr] at hhanded
    refine ⟨hasked, h.once, hiff (fun _ _ _ _ => Iff.rfl) fun src' resp => ?_⟩
    rw [hkeep old hr]
    exact hhanded src' resp
  | none =>
    rw [hr] at hhanded
    cases hr' : task'.reply with
    | none =>
      refine ⟨hasked, h.once, hiff (fun _ _ _ _ => Iff.rfl) fun src' resp => ?_⟩
      rw [hr']
      exact hhanded src' resp
    | some new =>
      have hfresh : ∀ src' resp, ¬ Handed sends i src' resp := fun src' resp hmem =>
        nomatch ((hhanded src' resp).1 hmem).2
      refine ⟨hasked, ?_, hiff (fun k src' resp hk => ?_) fun src' resp => ?_⟩
      · refine nodup_map_concat h.once fun call hmem heq => hfresh call.src call.resp ⟨call.ok, ?_⟩
        rw [← show call.task = i from heq]
        exact hmem
      · rw [handed_concat, or_iff_left fun hlast => hk hlast.1]
      · rw [handed_concat, or_iff_right (hfresh src' resp), hr', Option.some.injEq]
        exact ⟨fun hlast => ⟨hlast.2.1, hlast.2.2.symm⟩, fun hnew => ⟨rfl, hnew.1, hnew.2.symm⟩⟩

/-- Every task has an owner, and a connection is served by tasks of its own. -/
structure Assigned (settings : Settings) (s : Server) : Prop where
  due : Due settings s.system
  owners : s.owners.length = s.system.tasks.length
  serving : ∀ (j : Nat) c, s.clients[j]? = some c → ∀ i, c.serving = some i →
    s.owners[i]? = some (.connection j)
  datagrams : Datagrams s.system.tasks s.owners s.sends

theorem assigned_start (settings : Settings) : Assigned settings (Server.start settings) :=
  ⟨due_start settings, rfl, (fun _ _ h => nomatch h),
    ⟨(fun _ _ _ h => nomatch h), List.nodup_nil,
      fun _ _ _ => iff_of_false (fun ⟨_, h⟩ => nomatch h) fun ⟨_, _, h, _⟩ => nomatch h⟩⟩

section Steps

variable {settings : Settings} {s : Server}

/-- A step that changes nothing but one connection, and not what serves it. -/
theorem Assigned.set (h : Assigned settings s) {j : Nat} {c : Client}
    (hc : ∀ i, c.serving = some i → ∃ c', s.clients[j]? = some c' ∧ c'.serving = some i) :
    Assigned settings { s with clients := s.clients.set j c } := by
  refine ⟨h.due, h.owners, ?_, h.datagrams⟩
  intro k c' hk i hi
  obtain ⟨rfl, rfl⟩ | ⟨-, hold⟩ := getElem?_set_cases hk
  · obtain ⟨c'', hold, hserving⟩ := hc i hi
    exact h.serving k c'' hold i hserving
  · exact h.serving k c' hold i hi

theorem assigned_datagram (h : Assigned settings s) (src : SocketAddr) (payload : List UInt8) :
    Assigned settings (s.step (.datagram src payload)) := by
  have hold : ∀ {i : Nat} {owner : Owner}, s.owners[i]? = some owner →
      (s.system.tasks ++ [Task.start .udp (payload.take 4096)])[i]? = s.system.tasks[i]? :=
    fun ho => List.getElem?_append_left (h.owners ▸ lt_of_getElem? ho)
  have hself : (s.system.tasks ++ [Task.start .udp (payload.take 4096)])[s.owners.length]? =
      some (Task.start .udp (payload.take 4096)) := by
    rw [h.owners]
    exact List.getElem?_concat_length
  refine ⟨due_server s _ h.due, ?_, ?_, ?_, h.datagrams.once, ?_⟩
  · show (s.owners ++ _).length = (s.system.tasks ++ _).length
    rw [List.length_append, List.length_append, h.owners]
    rfl
  · intro j c hc i hi
    exact getElem?_append_of_some (h.serving j c hc i hi) _
  · intro i src' payload' ho
    obtain howner | ⟨rfl, heq⟩ := getElem?_concat_cases ho
    · obtain ⟨task, hget, hspec⟩ := h.datagrams.asked i src' payload' howner
      exact ⟨task, (hold howner).trans hget, hspec⟩
    · cases heq
      exact ⟨_, hself, rfl, rfl⟩
  · intro i src' resp
    refine (h.datagrams.handed_iff i src' resp).trans ?_
    constructor
    · rintro ⟨payload', task, ho, hget, hr⟩
      exact ⟨payload', task, getElem?_append_of_some ho _, (hold ho).trans hget, hr⟩
    · rintro ⟨payload', task, ho, hget, hr⟩
      obtain howner | ⟨rfl, -⟩ := getElem?_concat_cases ho
      · exact ⟨payload', task, howner, (hold howner).symm.trans hget, hr⟩
      · -- the new task has not replied
        obtain rfl := Option.some.inj (hself.symm.trans hget)
        cases hr

theorem assigned_resolve (h : Assigned settings s) (i : Nat) (m : Moment) (ok : Bool) :
    Assigned settings (s.step (.resolve i m ok)) := by
  have hdue := due_server s (.resolve i m ok) h.due
  unfold Server.step at *
  dsimp only at *
  split
  · next src payload task ho hi =>
    rw [ho, hi] at hdue
    have hstep := step_act_some hi m
    have hsound := h.due.invariant.tasks task (List.mem_of_getElem? hi)
    obtain ⟨hquery, htransport⟩ := query_step task s.system.state m
    refine ⟨hdue, ?_, h.serving, ?_⟩
    · show s.owners.length = (s.system.step (.act i m)).tasks.length
      rw [hstep, List.length_set, h.owners]
    · show Datagrams (s.system.step (.act i m)).tasks s.owners _
      rw [hstep]
      exact h.datagrams.resolved ho hi hquery htransport (fun resp hr =>
        reply_step hsound hr s.system.state m) fun resp => ok && resp.length ≤ maxDatagram src
  · exact h

theorem assigned_serve (h : Assigned settings s) {j : Nat} {c : Client} (m : Moment)
    (hc : s.clients[j]? = some c) : Assigned settings (s.serve j c m) := by
  unfold Server.serve
  split
  · next hnone =>
    split
    · exact h
    · exact h.set fun i hi => nomatch hnone.symm.trans hi
    · next query rest _ =>
      refine ⟨due_step s.system (.spawn .tcp query) h.due, ?_, ?_, ?_⟩
      · show (s.owners ++ _).length = (s.system.tasks ++ _).length
        rw [List.length_append, List.length_append, h.owners]
        rfl
      · intro k c' hk i hi
        obtain ⟨rfl, rfl⟩ | ⟨-, hold⟩ := getElem?_set_cases hk
        · cases hi
          rw [← h.owners]
          exact List.getElem?_concat_length
        · exact getElem?_append_of_some (h.serving k c' hold i hi) _
      · refine h.datagrams.congr (fun i src payload ho => ?_) fun i src payload => ?_
        · exact List.getElem?_append_left (h.owners ▸ lt_of_getElem? ho)
        · constructor
          · intro ho
            obtain hold | ⟨-, heq⟩ := getElem?_concat_cases ho
            · exact hold
            · cases heq
          · intro ho
            exact getElem?_append_of_some ho _
  · next i hserving =>
    split
    · exact h
    · next task hi =>
      have hstep := step_act_some hi m
      have howner := h.serving j c hc i hserving
      refine ⟨due_step s.system (.act i m) h.due, ?_, ?_, ?_⟩
      · show s.owners.length = (s.system.step (.act i m)).tasks.length
        rw [hstep, List.length_set, h.owners]
      · intro k c' hk i' hi'
        obtain ⟨rfl, rfl⟩ | ⟨-, hold⟩ := getElem?_set_cases hk
        · obtain ⟨-, hnone⟩ | hkeep := (after_spec c m task _).2.2.2.2
          · cases hnone.symm.trans hi'
          · exact h.serving k c hc i' (hkeep.symm.trans hi')
        · exact h.serving k c' hold i' hi'
      · show Datagrams (s.system.step (.act i m)).tasks s.owners s.sends
        rw [hstep]
        refine h.datagrams.congr (fun i' src payload ho => List.getElem?_set_ne ?_)
          fun _ _ _ => Iff.rfl
        rintro rfl
        cases howner.symm.trans ho

theorem assigned_step (s : Server) (a : ServerAction) (h : Assigned settings s) :
    Assigned settings (s.step a) := by
  match a with
  | .datagram src payload => exact assigned_datagram h src payload
  | .resolve i m ok => exact assigned_resolve h i m ok
  | .accept =>
    refine ⟨h.due, h.owners, ?_, h.datagrams⟩
    intro j c hc i hi
    obtain hold | ⟨-, rfl⟩ := getElem?_concat_cases hc
    · exact h.serving j c hold i hi
    · cases hi
  | .receive j bytes =>
    unfold Server.step
    dsimp only
    split
    · exact h
    · next c hc =>
      split
      · exact h
      · exact h.set fun i hi => ⟨c, hc, hi⟩
  | .hangUp j broken =>
    unfold Server.step
    dsimp only
    split
    · exact h
    · next c hc => exact h.set fun i hi => ⟨c, hc, hi⟩
  | .serve j m =>
    unfold Server.step
    dsimp only
    split
    · exact h
    · next c hc =>
      split
      · exact h
      · exact assigned_serve h m hc

/-- Only the step of the task of a datagram calls `send_to`. -/
theorem sends_step (s : Server) (a : ServerAction) :
    (s.step a).sends = s.sends ∨ ∃ i m ok resp src, a = .resolve i m ok ∧
      (s.step a).sends = s.sends ++ [⟨i, resp, src, ok && resp.length ≤ maxDatagram src⟩] := by
  match a with
  | .datagram src payload => exact Or.inl rfl
  | .resolve i m ok =>
    unfold Server.step
    dsimp only
    split
    · split
      · exact Or.inr ⟨i, m, ok, _, _, rfl, rfl⟩
      · exact Or.inl rfl
    · exact Or.inl rfl
  | .accept => exact Or.inl rfl
  | .receive j bytes =>
    unfold Server.step
    dsimp only
    split
    · exact Or.inl rfl
    · split <;> exact Or.inl rfl
  | .hangUp j broken =>
    unfold Server.step
    dsimp only
    split <;> exact Or.inl rfl
  | .serve j m =>
    unfold Server.step
    dsimp only
    split
    · exact Or.inl rfl
    · split
      · exact Or.inl rfl
      · unfold Server.serve
        split
        · split <;> exact Or.inl rfl
        · split <;> exact Or.inl rfl

/-- Why a datagram was sent, or not. -/
def SendTo.Explained (actions : List ServerAction) (call : SendTo) : Prop :=
  if call.ok then call.resp.length ≤ maxDatagram call.src
  else maxDatagram call.src < call.resp.length ∨ ∃ m, .resolve call.task m false ∈ actions

theorem explained_step {actions : List ServerAction} (s : Server) (a : ServerAction)
    (h : ∀ call ∈ s.sends, call.Explained actions) (ha : a ∈ actions) :
    ∀ call ∈ (s.step a).sends, call.Explained actions := by
  obtain hsame | ⟨i, m, ok, resp, src, rfl, hsends⟩ := sends_step s a
  · rw [hsame]
    exact h
  · rw [hsends]
    intro call hcall
    obtain hold | hnew := List.mem_append.1 hcall
    · exact h call hold
    · rw [List.mem_singleton.1 hnew]
      unfold SendTo.Explained
      cases ok with
      | false => exact Or.inr ⟨m, ha⟩
      | true =>
        rw [Bool.true_and]
        split
        · next hfits => exact of_decide_eq_true hfits
        · next hlong => exact Or.inl (Nat.not_le.1 fun hfits => hlong (decide_eq_true hfits))

end Steps

theorem Due.settled {settings : Settings} {s : System} (h : Due settings s) {task : Task}
    (hmem : task ∈ s.tasks) (hended : task.Ended) : Settled settings task := by
  obtain ⟨ending, hp⟩ := hended
  have howed := h.tasks task hmem
  unfold Owed at howed
  rw [hp] at howed
  exact howed

theorem assigned_run (settings : Settings) (actions : List ServerAction) :
    Assigned settings (actions.foldl Server.step (Server.start settings)) :=
  Along.invariant (assigned_start settings) (fun s a h _ => assigned_step s a h)
    (along_of_forall (P := fun _ _ => True) fun _ _ => trivial)

/-- In every run, with any number of clients and any interleaving: the replies of the tasks of
    datagrams, and nothing else, are handed to `send_to`, each once and with the address its query
    came from; it is sent unless it is too long for a datagram or the sending fails. The task was
    asked what fits the buffer, which is decoded as the whole datagram if it is decoded, and is
    settled when it has ended. -/
theorem server_datagrams (settings : Settings) (actions : List ServerAction) :
    let s := actions.foldl Server.step (Server.start settings)
    (s.sends.map SendTo.task).Nodup ∧
    (∀ (i : Nat) src resp, Handed s.sends i src resp ↔ ∃ payload, ∃ task : Task,
      s.owners[i]? = some (Owner.datagram src payload) ∧ s.system.tasks[i]? = some task ∧
        task.reply = some resp) ∧
    (∀ call ∈ s.sends, call.Explained actions) ∧
    ∀ (i : Nat) src payload, s.owners[i]? = some (Owner.datagram src payload) →
      ∃ task : Task, s.system.tasks[i]? = some task ∧ task.transport = .udp ∧
        task.query = payload.take 4096 ∧
        (∀ packet, DnsPacket.parse task.query = .ok packet → DnsPacket.parse payload = .ok packet) ∧
        (task.Ended → Settled settings task) := by
  intro s
  have h : Assigned settings s := assigned_run settings actions
  have hexplained : ∀ call ∈ s.sends, call.Explained actions :=
    Along.invariant (fun _ hcall => absurd hcall List.not_mem_nil) explained_step
      (along_of_mem fun _ _ ha => ha)
  refine ⟨h.datagrams.once, h.datagrams.handed_iff, hexplained, ?_⟩
  intro i src payload ho
  obtain ⟨task, hget, ht, hq⟩ := h.datagrams.asked i src payload ho
  refine ⟨task, hget, ht, hq, ?_, h.due.settled (List.mem_of_getElem? hget)⟩
  intro packet hp
  rw [hq] at hp
  exact parse_extend (List.take_prefix 4096 payload) hp

/-! ## Connections -/

/-- The tasks with the numbers `rounds`. -/
def tasksOf (tasks : List Task) (rounds : List Nat) : List Task :=
  rounds.filterMap fun i => tasks[i]?

theorem tasksOf_congr {tasks tasks' : List Task} {rounds : List Nat}
    (h : ∀ i ∈ rounds, tasks'[i]? = tasks[i]?) : tasksOf tasks' rounds = tasksOf tasks rounds :=
  List.filterMap_congr h

theorem tasksOf_concat {tasks : List Task} (rounds : List Nat) {i : Nat} {task : Task}
    (h : tasks[i]? = some task) :
    tasksOf tasks (rounds ++ [i]) = tasksOf tasks rounds ++ [task] := by
  unfold tasksOf
  rw [List.filterMap_append, List.filterMap_cons_some h]
  rfl

/-- What holds of connection `j` while its writes go through. -/
structure ClientKept (tasks : List Task) (owners : List Owner) (j : Nat) (c : Client) : Prop where
  owned : ∀ i ∈ c.rounds, owners[i]? = some (.connection j)
  nodup : c.rounds.Nodup
  tcp : ∀ i ∈ c.rounds, ∃ task, tasks[i]? = some task ∧ task.transport = .tcp ∧
    0 < task.query.length ∧ task.query.length < 65536
  arrived : c.arrived = ((tasksOf tasks c.rounds).map Task.query).flatMap frame ++ c.unread
  written : c.written = ((tasksOf tasks c.rounds).filterMap Task.reply).flatMap frame
  serving : ∀ i, c.serving = some i → ∃ init, c.rounds = init ++ [i]
  ended : ∀ i ∈ c.rounds, c.serving ≠ some i → ∃ task, tasks[i]? = some task ∧ task.Ended

/-- The tasks of other connections do not matter. -/
theorem ClientKept.congr {tasks tasks' : List Task} {owners owners' : List Owner} {j : Nat}
    {c : Client} (h : ClientKept tasks owners j c) (ht : ∀ i ∈ c.rounds, tasks'[i]? = tasks[i]?)
    (ho : ∀ i ∈ c.rounds, owners'[i]? = owners[i]?) : ClientKept tasks' owners' j c := by
  refine ⟨?_, h.nodup, ?_, ?_, ?_, h.serving, ?_⟩
  · intro i hi
    rw [ho i hi]
    exact h.owned i hi
  · intro i hi
    rw [ht i hi]
    exact h.tcp i hi
  · rw [tasksOf_congr ht]
    exact h.arrived
  · rw [tasksOf_congr ht]
    exact h.written
  · intro i hi hne
    rw [ht i hi]
    exact h.ended i hi hne

theorem clientKept_accepted (tasks : List Task) (owners : List Owner) (j : Nat) :
    ClientKept tasks owners j .accepted :=
  ⟨fun _ h => absurd h List.not_mem_nil, List.nodup_nil, fun _ h => absurd h List.not_mem_nil, rfl,
    rfl, (fun _ h => nomatch h), fun _ h => absurd h List.not_mem_nil⟩

theorem filterMap_reply (task : Task) : [task].filterMap Task.reply = task.reply.toList := by
  rw [List.filterMap_cons]
  cases task.reply <;> rfl

/-- The connection whose task takes a step. -/
theorem clientKept_after {settings : Settings} {tasks : List Task} {owners : List Owner} {j i : Nat}
    {c : Client} {task : Task} {m : Moment} (state : DnsServiceState)
    (h : ClientKept tasks owners j c) (hserving : c.serving = some i) (hi : tasks[i]? = some task)
    (hs : Sound settings task) (hm : Unfailing m.env) :
    ClientKept (tasks.set i (task.step state m).2) owners j
      (c.after m task (task.step state m).2) := by
  obtain ⟨init, hrounds⟩ := h.serving i hserving
  obtain ⟨harrived, hunread, hsame, hwritten, hended⟩ := after_spec c m task (task.step state m).2
  have hself : (tasks.set i (task.step state m).2)[i]? = some (task.step state m).2 :=
    List.getElem?_set_self (List.getElem?_eq_some_iff.1 hi).1
  have hnew : i ∉ init := by
    have hnodup := h.nodup
    rw [hrounds] at hnodup
    exact fun hmem => List.disjoint_of_nodup_append hnodup hmem (List.mem_singleton_self i)
  have hold : ∀ k ∈ init, (tasks.set i (task.step state m).2)[k]? = tasks[k]? := by
    intro k hk
    refine List.getElem?_set_ne ?_
    rintro rfl
    exact hnew hk
  obtain ⟨hquery, htransport⟩ := query_step task state m
  have hbefore := tasksOf_concat init hi
  have hafter := tasksOf_concat init hself
  rw [tasksOf_congr hold] at hafter
  have hround : ∀ k ∈ c.rounds, k ≠ i → k ∈ init := by
    intro k hk hne
    rw [hrounds] at hk
    exact (List.mem_append.1 hk).resolve_right fun hlast => hne (List.mem_singleton.1 hlast)
  refine ⟨?_, ?_, ?_, ?_, ?_, ?_, ?_⟩
  · rw [hsame]
    exact h.owned
  · rw [hsame]
    exact h.nodup
  · rw [hsame]
    intro k hk
    by_cases hki : k = i
    · obtain ⟨task', htask', ht, hlen⟩ := h.tcp k hk
      rw [hki, hi] at htask'
      rw [← Option.some.inj htask'] at ht hlen
      rw [hki]
      exact ⟨_, hself, htransport.trans ht, by rw [hquery]; exact hlen⟩
    · rw [hold k (hround k hk hki)]
      exact h.tcp k hk
  · have hin := h.arrived
    rw [hrounds, hbefore] at hin
    rw [harrived, hunread, hsame, hrounds, hafter, hin]
    simp only [List.map_append, List.map_cons, hquery]
  · have hout := h.written
    rw [hrounds, hbefore] at hout
    have hwrote := wrote_unfailing hm fun resp hr => reply_step hs hr state m
    rw [hwritten, hsame, hrounds, hafter, hout, List.filterMap_append, List.filterMap_append,
      List.flatMap_append, List.flatMap_append, List.append_assoc, filterMap_reply,
      filterMap_reply, hwrote]
  · intro k hk
    obtain ⟨-, hnone⟩ | hkeep := hended
    · cases hnone.symm.trans hk
    · rw [hsame]
      exact h.serving k (hkeep.symm.trans hk)
  · rw [hsame]
    intro k hk hne
    by_cases hki : k = i
    · obtain ⟨hend, -⟩ | hkeep := hended
      · rw [hki]
        exact ⟨_, hself, hend⟩
      · rw [hkeep, hserving, hki] at hne
        exact absurd rfl hne
    · rw [hold k (hround k hk hki)]
      refine h.ended k hk ?_
      rw [hserving]
      exact fun heq => hki (Option.some.inj heq).symm

/-- The connection that reads a query. -/
theorem clientKept_query {tasks : List Task} {owners : List Owner} {j : Nat} {c : Client}
    {query rest : List UInt8} (h : ClientKept tasks owners j c)
    (hlen : owners.length = tasks.length) (hserving : c.serving = none) (hread : c.read = .query query rest) :
    ClientKept (tasks ++ [Task.start .tcp query]) (owners ++ [.connection j]) j
      { c with unread := rest, rounds := c.rounds ++ [tasks.length],
               serving := some tasks.length } := by
  have hin : c.unread = frame query ++ rest ∧ 0 < query.length ∧ query.length < 65536 := by
    unfold Client.read at hread
    split at hread
    · next x y bytes hunread =>
      dsimp only at hread
      split at hread
      · cases hread
      · next hpos =>
        split at hread
        · split at hread <;> cases hread
        · next hfull =>
          cases hread
          have hle := Nat.not_lt.1 hfull
          have hx := x.toNat_lt
          have hy := y.toNat_lt
          rw [hunread, frame_take_append hle, List.length_take, min_eq_left hle]
          exact ⟨rfl, by omega, by omega⟩
    · split at hread <;> cases hread
  obtain ⟨hunread, hpos, hshort⟩ := hin
  have hlt : ∀ i ∈ c.rounds, i < tasks.length := by
    intro i hi
    rw [← hlen]
    exact (List.getElem?_eq_some_iff.1 (h.owned i hi)).1
  have hold : ∀ i ∈ c.rounds, (tasks ++ [Task.start .tcp query])[i]? = tasks[i]? :=
    fun i hi => List.getElem?_append_left (hlt i hi)
  have hself : (tasks ++ [Task.start .tcp query])[tasks.length]? = some (Task.start .tcp query) :=
    List.getElem?_concat_length
  have hkept : ClientKept (tasks ++ [Task.start .tcp query]) (owners ++ [.connection j]) j c :=
    h.congr hold fun i hi => List.getElem?_append_left (hlen ▸ hlt i hi)
  have hafter := tasksOf_concat c.rounds hself
  refine ⟨?_, ?_, ?_, ?_, ?_, ?_, ?_⟩
  · intro i hi
    obtain hold | hnew := List.mem_append.1 hi
    · exact hkept.owned i hold
    · rw [List.mem_singleton.1 hnew, ← hlen]
      exact List.getElem?_concat_length
  · rw [← List.concat_eq_append]
    exact h.nodup.concat fun hmem => lt_irrefl _ (hlt _ hmem)
  · intro i hi
    obtain hold | hnew := List.mem_append.1 hi
    · exact hkept.tcp i hold
    · rw [List.mem_singleton.1 hnew]
      exact ⟨_, hself, rfl, hpos, hshort⟩
  · rw [hafter, List.map_append, List.flatMap_append, List.append_assoc]
    refine hkept.arrived.trans ?_
    rw [hunread]
    simp [Task.start]
  · rw [hafter, List.filterMap_append, filterMap_reply]
    refine hkept.written.trans ?_
    simp [Task.start]
  · intro i hi
    cases hi
    exact ⟨c.rounds, rfl⟩
  · intro i hi hne
    obtain hold | hnew := List.mem_append.1 hi
    · exact hkept.ended i hold (by rw [hserving]; simp)
    · exact absurd (congrArg some (List.mem_singleton.1 hnew).symm) hne

/-- What is kept of connection `j`. -/
structure ServerKept (settings : Settings) (j : Nat) (s : Server) : Prop where
  assigned : Assigned settings s
  client : ∀ c, s.clients[j]? = some c → ClientKept s.system.tasks s.owners j c

section Steps

variable {settings : Settings} {s : Server} {j : Nat} {c : Client}

/-- A new task that the connection has not asked for before. -/
theorem ClientKept.spawned (h : ClientKept s.system.tasks s.owners j c)
    (hlen : s.owners.length = s.system.tasks.length) (task : Task) (owner : Owner) :
    ClientKept (s.system.tasks ++ [task]) (s.owners ++ [owner]) j c := by
  have hlt : ∀ i ∈ c.rounds, i < s.owners.length := fun i hi => lt_of_getElem? (h.owned i hi)
  exact h.congr (fun i hi => List.getElem?_append_left (hlen ▸ hlt i hi))
    fun i hi => List.getElem?_append_left (hlt i hi)

/-- A step of a task that serves somebody else. -/
theorem ClientKept.stepped (h : ClientKept s.system.tasks s.owners j c) {i : Nat}
    (ho : s.owners[i]? ≠ some (.connection j)) (task' : Task) :
    ClientKept (s.system.tasks.set i task') s.owners j c := by
  refine h.congr (fun k hk => List.getElem?_set_ne ?_) fun _ _ => rfl
  rintro rfl
  exact ho (h.owned _ hk)

/-- A step of the handler of any connection. -/
theorem clientKept_serve (h : ServerKept settings j s) {k : Nat} (m : Moment)
    (hc : s.clients[k]? = some c) (hm : k = j → Unfailing m.env) :
    ∀ c', (s.serve k c m).clients[j]? = some c' →
      ClientKept (s.serve k c m).system.tasks (s.serve k c m).owners j c' := by
  have hlen := h.assigned.owners
  unfold Server.serve
  split
  · next hserving =>
    split
    · exact h.client
    · next ending _ =>
      intro c' hj
      obtain ⟨rfl, rfl⟩ | ⟨-, hold⟩ := getElem?_set_cases hj
      · have hkept := h.client c hc
        exact ⟨hkept.owned, hkept.nodup, hkept.tcp, hkept.arrived, hkept.written, hkept.serving,
          hkept.ended⟩
      · exact h.client c' hold
    · next query rest hread =>
      intro c' hj
      obtain ⟨rfl, rfl⟩ | ⟨-, hold⟩ := getElem?_set_cases hj
      · exact clientKept_query (h.client c hc) hlen hserving hread
      · exact (h.client c' hold).spawned hlen _ _
  · next i hserving =>
    split
    · exact h.client
    · next task hi =>
      have hstep := step_act_some hi m
      have hsound := h.assigned.due.invariant.tasks task (List.mem_of_getElem? hi)
      intro c' hj
      show ClientKept (s.system.step (.act i m)).tasks s.owners j c'
      rw [hstep]
      obtain ⟨rfl, rfl⟩ | ⟨hne, hold⟩ := getElem?_set_cases hj
      · exact clientKept_after s.system.state (h.client c hc) hserving hi hsound (hm rfl)
      · refine (h.client c' hold).stepped ?_ _
        rw [h.assigned.serving k c hc i hserving]
        exact fun heq => hne (by cases heq; rfl)

theorem clientKept_step (h : ServerKept settings j s) {a : ServerAction}
    (ha : ∀ m, a = .serve j m → Unfailing m.env) :
    ∀ c, (s.step a).clients[j]? = some c →
      ClientKept (s.step a).system.tasks (s.step a).owners j c := by
  match a with
  | .datagram src payload =>
    intro c hc
    exact (h.client c hc).spawned h.assigned.owners _ _
  | .resolve i m ok =>
    unfold Server.step
    dsimp only
    split
    · next src payload task ho hi =>
      intro c hc
      show ClientKept (s.system.step (.act i m)).tasks s.owners j c
      rw [step_act_some hi m]
      exact (h.client c hc).stepped (by rw [ho]; simp) _
    · exact h.client
  | .accept =>
    intro c hc
    obtain hold | ⟨-, rfl⟩ := getElem?_concat_cases hc
    · exact h.client c hold
    · exact clientKept_accepted ..
  | .receive k bytes =>
    unfold Server.step
    dsimp only
    split
    · exact h.client
    · next c hc =>
      split
      · exact h.client
      · intro c' hj
        obtain ⟨rfl, rfl⟩ | ⟨-, hold⟩ := getElem?_set_cases hj
        · have hkept := h.client c hc
          refine ⟨hkept.owned, hkept.nodup, hkept.tcp, ?_, hkept.written, hkept.serving,
            hkept.ended⟩
          dsimp only
          rw [hkept.arrived, List.append_assoc]
        · exact h.client c' hold
  | .hangUp k broken =>
    unfold Server.step
    dsimp only
    split
    · exact h.client
    · next c hc =>
      intro c' hj
      obtain ⟨rfl, rfl⟩ | ⟨-, hold⟩ := getElem?_set_cases hj
      · have hkept := h.client c hc
        exact ⟨hkept.owned, hkept.nodup, hkept.tcp, hkept.arrived, hkept.written, hkept.serving,
          hkept.ended⟩
      · exact h.client c' hold
  | .serve k m =>
    unfold Server.step
    dsimp only
    split
    · exact h.client
    · next c hc =>
      split
      · exact h.client
      · exact clientKept_serve h m hc fun hk => ha m (by rw [hk])

end Steps

/-- What clients over TCP and TLS see: connection `j` has read whole frames in their order and
    written the frames of their replies in that order; all but the last of them have ended, with
    a reply exactly to those that parse with a question. -/
structure ServedInOrder (settings : Settings) (tasks : List Task) (c : Client) : Prop where
  read : c.arrived = ((tasksOf tasks c.rounds).map Task.query).flatMap frame ++ c.unread
  lengths : ∀ task ∈ tasksOf tasks c.rounds, 0 < task.query.length ∧ task.query.length < 65536
  written : c.written = ((tasksOf tasks c.rounds).filterMap Task.reply).flatMap frame
  /-- A query that is still being served is the last one. -/
  serving : ∀ i, c.serving = some i → ∃ init, c.rounds = init ++ [i]
  ended : ∀ i ∈ c.rounds, c.serving ≠ some i → ∃ task, tasks[i]? = some task ∧ task.Ended ∧
    Settled settings task ∧ task.reply.isSome = answerable task.query

/-- In every run, with any number of clients, any interleaving and any pieces in which bytes come
    in, a connection none of whose own writes fails is served in order. -/
theorem server_connections {settings : Settings} {actions : List ServerAction} {j : Nat}
    (hwrites : ∀ m, .serve j m ∈ actions → Unfailing m.env) :
    let s := actions.foldl Server.step (Server.start settings)
    ∀ c, s.clients[j]? = some c → ServedInOrder settings s.system.tasks c := by
  intro s c hj
  have hkept : ServerKept settings j s := by
    refine Along.invariant ⟨assigned_start settings, fun _ h => nomatch h⟩ (fun s a h ha => ?_)
      (along_of_mem fun _ _ ha => ha)
    exact ⟨assigned_step s a h.assigned, clientKept_step h fun m heq => hwrites m (heq ▸ ha)⟩
  have h := hkept.client c hj
  refine ⟨h.arrived, ?_, h.written, h.serving, ?_⟩
  · intro task htask
    obtain ⟨i, hi, hget⟩ := List.mem_filterMap.1 htask
    obtain ⟨task', hget', -, hlen⟩ := h.tcp i hi
    rw [hget] at hget'
    rw [Option.some.inj hget']
    exact hlen
  · intro i hi hne
    obtain ⟨task, hget, hended⟩ := h.ended i hi hne
    obtain ⟨task', hget', ht, -⟩ := h.tcp i hi
    rw [hget] at hget'
    rw [← Option.some.inj hget'] at ht
    have hsettled := hkept.assigned.due.settled (List.mem_of_getElem? hget) hended
    exact ⟨task, hget, hended, hsettled, hsettled.isSome_reply ht⟩

/-- Three clients: one over UDP, one whose frame comes in two pieces, the second one with the
    beginning of another frame, and one to whom nothing can be written. -/
def threeClients : List ServerAction :=
  [.accept, .accept, .receive 0 [0, 19, 0, 1, 1, 0], .serve 0 silentMoment,
    .datagram (.V4 (.ofFn ![127, 0, 0, 1]) 4000) (ask 2 1 0), .resolve 0 silentMoment true,
    .receive 0 ((ask 1 1 0).drop 4 ++ [0, 19, 0]), .receive 1 (frame (ask 3 1 0)),
    .serve 0 silentMoment] ++
    (List.replicate 4 [ServerAction.serve 0 silentMoment,
      .serve 1 { silentMoment with prefixFault := some 0 }, .resolve 0 silentMoment true]).flatten

theorem server_connections_threeClients :
    ∃ c, (threeClients.foldl Server.step (Server.start openSettings)).clients[0]? = some c ∧
      ServedInOrder openSettings
        (threeClients.foldl Server.step (Server.start openSettings)).system.tasks c := by
  have hwrites : ∀ m, .serve 0 m ∈ threeClients → Unfailing m.env := by
    intro m hm
    simp only [threeClients, List.replicate, List.flatten_cons, List.flatten_nil, List.mem_append,
      List.mem_cons, ServerAction.serve.injEq, reduceCtorEq, List.not_mem_nil, true_and, false_and,
      zero_ne_one, or_false, false_or, or_self] at hm
    rw [hm]
    exact ⟨rfl, rfl⟩
  have hlt : 0 < (threeClients.foldl Server.step (Server.start openSettings)).clients.length := by
    decide +kernel
  exact ⟨_, List.getElem?_eq_getElem hlt,
    server_connections hwrites _ (List.getElem?_eq_getElem hlt)⟩

end VantaDns.Service
