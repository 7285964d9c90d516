/-
  The forwarder in front of the server on the phone (`dns-udp-forwarder.py`).

  For every packet that it receives it starts a thread, which sends the packet to the server
  from a socket of its own, waits five seconds for one datagram, and sends that on to where
  the packet came from. Neither the identifier nor the sender of the datagram is checked, so it
  may be a foreign one. The server may take longer, and answers a port whose socket is closed by
  then, and perhaps given to another thread.

  `forwarder_answers`: as long as a thread is not given a port for which the server or the
  network still has something from before, an address gets for each of its packets one answer at
  most, which is the reply of the server to this packet unless somebody else sent to the port of
  its thread, and no reply goes out twice.
-/
import VantaDns.Service.Server
import VantaDns.Service.Shared

namespace VantaDns.Phone

open Lib Resolver Service

/-- A thread that runs `handle`. -/
structure Handler where
  pkt : List UInt8
  addr : SocketAddr
  /-- The port of its socket. -/
  port : UInt16
  /-- The packet has not come to the server, and may still do so. -/
  underway : Bool
  closed : Bool

def localhost (port : UInt16) : SocketAddr := .V4 (.ofFn ![127, 0, 0, 1]) port

/-- A datagram that went out on `UDP`. -/
structure Answer where
  thread : Nat
  /-- The task of the server whose reply it is, or none for a foreign datagram. -/
  task : Option Nat
  addr : SocketAddr
  resp : List UInt8

structure Forwarder where
  server : Server
  handlers : List Handler
  /-- The tasks of the server whose reply is not under way any more. -/
  delivered : List Nat
  answers : List Answer

def Forwarder.start (settings : Settings) : Forwarder := ⟨.start settings, [], [], []⟩

inductive Happening where
  /-- A packet is received, and its thread sends it on from a port. -/
  | handle (pkt : List UInt8) (addr : SocketAddr) (port : UInt16)
  | arrive (k : Nat)
  | drop (k : Nat)
  /-- Thread `k` receives the reply of task `i`; `ok` says that it can send it on. -/
  | receive (k i : Nat) (ok : Bool)
  /-- Thread `k` receives what somebody else sent to its port. -/
  | foreign (k : Nat) (resp : List UInt8) (ok : Bool)
  /-- The reply of task `i` comes to no socket. -/
  | lose (i : Nat)
  | timeout (k : Nat)
  /-- A step of the server, with datagrams of others. -/
  | server (a : ServerAction)

/-- Some thread holds the port. -/
def Forwarder.holds (s : Forwarder) (port : UInt16) : Prop :=
  ∃ h ∈ s.handlers, h.closed = false ∧ h.port = port

instance (s : Forwarder) (port : UInt16) : Decidable (s.holds port) :=
  inferInstanceAs (Decidable (∃ h ∈ s.handlers, _))

/-- Others do not send from the port of a thread. -/
def Forwarder.admits (s : Forwarder) : ServerAction → Prop
  | .datagram source _ => ∀ h ∈ s.handlers, h.closed = false → localhost h.port ≠ source
  | _ => True

instance (s : Forwarder) (a : ServerAction) : Decidable (s.admits a) := by
  cases a <;> unfold Forwarder.admits <;> infer_instance

/-- `UDP.sendto(resp, addr)` in thread `k`, and the end of the thread. -/
def Forwarder.answer (s : Forwarder) (k : Nat) (h : Handler) (task : Option Nat)
    (resp : List UInt8) (ok : Bool) : Forwarder :=
  { s with
    handlers := s.handlers.set k { h with closed := true }
    answers := if ok then s.answers ++ [⟨k, task, h.addr, resp⟩] else s.answers }

def Forwarder.step (s : Forwarder) : Happening → Forwarder
  | .handle pkt addr port =>
      if s.holds port then s
      else { s with handlers := s.handlers ++ [⟨pkt, addr, port, true, false⟩] }
  | .arrive k =>
    match s.handlers[k]? with
    | none => s
    | some h =>
        if h.underway then
          { s with
            server := s.server.step (.datagram (localhost h.port) h.pkt)
            handlers := s.handlers.set k { h with underway := false } }
        else s
  | .drop k =>
    match s.handlers[k]? with
    | none => s
    | some h => { s with handlers := s.handlers.set k { h with underway := false } }
  | .receive k i ok =>
    match s.handlers[k]?, s.server.sent.find? fun message => message.1 = i with
    | some h, some (_, dest, resp) =>
        if h.closed = false ∧ dest = localhost h.port ∧ i ∉ s.delivered then
          { s with delivered := s.delivered ++ [i] }.answer k h (some i) resp ok
        else s
    | _, _ => s
  | .foreign k resp ok =>
    match s.handlers[k]? with
    | none => s
    | some h => if h.closed then s else s.answer k h none resp ok
  | .lose i => { s with delivered := s.delivered ++ [i] }
  | .timeout k =>
    match s.handlers[k]? with
    | none => s
    | some h => { s with handlers := s.handlers.set k { h with closed := true } }
  | .server a => if s.admits a then { s with server := s.server.step a } else s

/-- The task has ended, and its reply is not under way. -/
def Through (server : Server) (delivered : List Nat) (i : Nat) : Prop :=
  match server.system.tasks[i]? with
  | none => False
  | some task => task.phase.stepsLeft = 0 ∧ (task.reply.isSome → i ∈ delivered)

instance (server : Server) (delivered : List Nat) (i : Nat) :
    Decidable (Through server delivered i) := by
  unfold Through
  split <;> infer_instance

def sourceOf : Owner → Option SocketAddr
  | .datagram source _ => some source
  | .connection _ => none

/-- The server and the network are done with what was sent from the port. -/
def Quiet (s : Forwarder) (port : UInt16) : Prop :=
  (∀ h ∈ s.handlers, h.port = port → h.underway = false) ∧
    ∀ i < s.server.owners.length, Through s.server s.delivered i ∨
      s.server.owners[i]?.bind sourceOf ≠ some (localhost port)

instance (s : Forwarder) (port : UInt16) : Decidable (Quiet s port) :=
  inferInstanceAs (Decidable (_ ∧ _))

/-- A thread is given a port that is quiet. -/
def Fresh (s : Forwarder) : Happening → Prop
  | .handle _ _ port => Quiet s port
  | _ => True

instance (s : Forwarder) (e : Happening) : Decidable (Fresh s e) := by
  cases e <;> unfold Fresh <;> infer_instance

/-! ## What the server keeps -/

section Server

variable {settings : Settings} {s : Server} {a : ServerAction}

theorem owners_step (s : Server) (a : ServerAction) :
    (s.step a).owners = s.owners ∨
      (∃ source payload, a = .datagram source payload ∧
        (s.step a).owners = s.owners ++ [.datagram source payload]) ∨
      ∃ j, (s.step a).owners = s.owners ++ [.connection j] := by
  match a with
  | .datagram source payload => exact Or.inr (Or.inl ⟨source, payload, rfl, rfl⟩)
  | .resolve i m ok =>
    dsimp only [Server.step]
    split <;> exact Or.inl rfl
  | .accept => exact Or.inl rfl
  | .receive j bytes =>
    dsimp only [Server.step]
    split
    · exact Or.inl rfl
    · split <;> exact Or.inl rfl
  | .hangUp j broken =>
    dsimp only [Server.step]
    split <;> exact Or.inl rfl
  | .serve j m =>
    dsimp only [Server.step]
    split
    · exact Or.inl rfl
    · split
      · exact Or.inl rfl
      · unfold Server.serve
        split
        · split
          · exact Or.inl rfl
          · exact Or.inl rfl
          · exact Or.inr (Or.inr ⟨j, rfl⟩)
        · split <;> exact Or.inl rfl

theorem owner_kept {i : Nat} {owner : Owner} (h : s.owners[i]? = some owner) :
    (s.step a).owners[i]? = some owner := by
  obtain heq | ⟨_, _, -, heq⟩ | ⟨_, heq⟩ := owners_step s a
  · rw [heq, h]
  · rw [heq, getElem?_append_of_some h]
  · rw [heq, getElem?_append_of_some h]

/-- Only a datagram brings a task of a datagram. -/
theorem owner_new {i : Nat} {source : SocketAddr} {payload : List UInt8}
    (h : (s.step a).owners[i]? = some (.datagram source payload)) :
    s.owners[i]? = some (.datagram source payload) ∨ a = .datagram source payload := by
  obtain heq | ⟨_, _, ha, heq⟩ | ⟨_, heq⟩ := owners_step s a
  · exact Or.inl (by rw [← heq, h])
  · rw [heq] at h
    obtain hold | ⟨-, hnew⟩ := getElem?_concat_cases h
    · exact Or.inl hold
    · cases hnew
      exact Or.inr ha
  · rw [heq] at h
    obtain hold | ⟨-, hnew⟩ := getElem?_concat_cases h
    · exact Or.inl hold
    · cases hnew

/-- A task keeps the reply it has given, and has nothing more to do when it has ended. -/
theorem task_kept (hdue : Due settings s.system) {i : Nat} {task : Task}
    (h : s.system.tasks[i]? = some task) :
    ∃ task', (s.step a).system.tasks[i]? = some task' ∧
      (∀ resp, task.reply = some resp → task'.reply = some resp) ∧
      (task.phase.stepsLeft = 0 → task' = task) := by
  have hlt := (List.getElem?_eq_some_iff.1 h).1
  obtain heq | ⟨b, heq⟩ := system_step s a
  · exact ⟨task, by rw [heq, h], fun _ hr => hr, fun _ => rfl⟩
  · match b with
    | .spawn transport query =>
      refine ⟨task, ?_, fun _ hr => hr, fun _ => rfl⟩
      rw [heq]
      exact getElem?_append_of_some h _
    | .act j m =>
      cases hj : s.system.tasks[j]? with
      | none => exact ⟨task, by rw [heq, step_act_none hj, h], fun _ hr => hr, fun _ => rfl⟩
      | some task' =>
        rw [heq, step_act_some hj]
        by_cases hij : j = i
        · subst hij
          cases hj.symm.trans h
          refine ⟨_, List.getElem?_set_self hlt, fun resp hr => ?_, fun hended => ?_⟩
          · exact reply_step (hdue.invariant.tasks task (List.mem_of_getElem? h)) hr _ m
          · obtain ⟨ending, hphase⟩ := ended_of_stepsLeft hended
            unfold Task.step
            rw [hphase]
        · exact ⟨task, (List.getElem?_set_ne hij).trans h, fun _ hr => hr, fun _ => rfl⟩

theorem Through.step (hdue : Due settings s.system) {delivered : List Nat} {i : Nat}
    (h : Through s delivered i) : Through (s.step a) delivered i := by
  unfold Through at h
  split at h
  · exact h.elim
  · next task hi =>
    obtain ⟨task', hi', -, hsame⟩ := task_kept (a := a) hdue hi
    unfold Through
    rw [hi', hsame h.1]
    exact h

end Server

/-! ## Answers -/

theorem localhost_inj {port port' : UInt16} (h : localhost port = localhost port') :
    port = port' := by
  injection h

/-- What was sent on: to where the packet of the thread came from, and if it is the reply of a
    task, this was asked the packet. -/
def Answered (s : Server) (handlers : List Handler) (answer : Answer) : Prop :=
  ∃ h : Handler, handlers[answer.thread]? = some h ∧ h.closed = true ∧ h.addr = answer.addr ∧
    ∀ i, answer.task = some i → s.owners[i]? = some (.datagram (localhost h.port) h.pkt) ∧
      ∃ task : Task, s.system.tasks[i]? = some task ∧ task.reply = some answer.resp

/-- The server has, for the port of an open thread, the packet of this thread at most, and else
    only tasks it is through with; nothing else is under way from this port. -/
structure Relayed (settings : Settings) (s : Forwarder) : Prop where
  assigned : Assigned settings s.server
  alone : ∀ (k k' : Nat) h h', s.handlers[k]? = some h → s.handlers[k']? = some h' →
    h.closed = false → h'.port = h.port → k' = k ∨ h'.closed = true ∧ h'.underway = false
  own : ∀ (k : Nat) h, s.handlers[k]? = some h → h.closed = false → ∀ (i : Nat) payload,
    s.server.owners[i]? = some (.datagram (localhost h.port) payload) →
      Through s.server s.delivered i ∨ payload = h.pkt ∧ h.underway = false
  answers : ∀ answer ∈ s.answers, Answered s.server s.handlers answer ∧
    ∀ i, answer.task = some i → i ∈ s.delivered
  threads : (s.answers.map Answer.thread).Nodup
  tasks : (s.answers.filterMap Answer.task).Nodup

theorem relayed_start (settings : Settings) : Relayed settings (.start settings) :=
  ⟨assigned_start settings, (fun _ _ _ _ h => nomatch h), (fun _ _ h => nomatch h),
    fun _ h => absurd h List.not_mem_nil, List.nodup_nil, List.nodup_nil⟩

section Steps

variable {settings : Settings} {s : Forwarder}

theorem Answered.step (hdue : Due settings s.server.system) {answer : Answer}
    (h : Answered s.server s.handlers answer) (a : ServerAction) :
    Answered (s.server.step a) s.handlers answer := by
  obtain ⟨handler, hk, hclosed, haddr, hreply⟩ := h
  refine ⟨handler, hk, hclosed, haddr, fun i hi => ?_⟩
  obtain ⟨howner, task, htask, hr⟩ := hreply i hi
  obtain ⟨task', htask', hkeep, -⟩ := task_kept (a := a) hdue htask
  exact ⟨owner_kept howner, task', htask', hkeep answer.resp hr⟩

/-- Threads that only change in what is under way, or close. -/
structure Calmed (h h' : Handler) : Prop where
  pkt : h'.pkt = h.pkt
  addr : h'.addr = h.addr
  port : h'.port = h.port
  closed : h.closed = true → h'.closed = true
  underway : h.underway = false → h'.underway = false

theorem Calmed.refl (h : Handler) : Calmed h h := ⟨rfl, rfl, rfl, id, id⟩

theorem calmed_drop (h : Handler) : Calmed h { h with underway := false } :=
  ⟨rfl, rfl, rfl, id, fun _ => rfl⟩

theorem calmed_close (h : Handler) : Calmed h { h with closed := true } :=
  ⟨rfl, rfl, rfl, fun _ => rfl, id⟩

theorem Answered.calmed {handlers : List Handler} {answer : Answer}
    (h : Answered s.server s.handlers answer)
    (hcalm : ∀ (k : Nat) h, s.handlers[k]? = some h → ∃ h', handlers[k]? = some h' ∧ Calmed h h') :
    Answered s.server handlers answer := by
  obtain ⟨handler, hk, hclosed, haddr, hreply⟩ := h
  obtain ⟨handler', hk', hc⟩ := hcalm answer.thread handler hk
  refine ⟨handler', hk', hc.closed hclosed, hc.addr.trans haddr, ?_⟩
  rw [hc.port, hc.pkt]
  exact hreply

/-- Changes of the threads, and replies that are not under way any more. -/
theorem Relayed.calmed (h : Relayed settings s) {handlers : List Handler} {gone : List Nat}
    (hforth : ∀ (k : Nat) h, s.handlers[k]? = some h → ∃ h', handlers[k]? = some h' ∧ Calmed h h')
    (hback : ∀ (k : Nat) h', handlers[k]? = some h' → ∃ h, s.handlers[k]? = some h ∧ Calmed h h') :
    Relayed settings { s with handlers := handlers, delivered := s.delivered ++ gone } := by
  have hthrough : ∀ {i}, Through s.server s.delivered i →
      Through s.server (s.delivered ++ gone) i := by
    intro i hi
    unfold Through at hi ⊢
    split at hi
    · exact hi
    · exact ⟨hi.1, fun hr => List.mem_append_left _ (hi.2 hr)⟩
  have hopen : ∀ {h h' : Handler}, Calmed h h' → h'.closed = false → h.closed = false :=
    fun hc hclosed => Bool.eq_false_iff.2 fun htrue => by
      rw [hc.closed htrue] at hclosed
      cases hclosed
  refine ⟨h.assigned, ?_, ?_, ?_, h.threads, h.tasks⟩
  · intro k k' h₁ h₂ hk hk' hclosed hport
    obtain ⟨h₁', hold, hc⟩ := hback k h₁ hk
    obtain ⟨h₂', hold', hc'⟩ := hback k' h₂ hk'
    rw [hc.port, hc'.port] at hport
    exact (h.alone k k' h₁' h₂' hold hold' (hopen hc hclosed) hport).imp_right
      fun hother => ⟨hc'.closed hother.1, hc'.underway hother.2⟩
  · intro k h₁ hk hclosed i payload howner
    obtain ⟨h₁', hold, hc⟩ := hback k h₁ hk
    rw [hc.port] at howner
    rw [hc.pkt]
    exact (h.own k h₁' hold (hopen hc hclosed) i payload howner).imp hthrough
      fun hown => ⟨hown.1, hc.underway hown.2⟩
  · intro answer hmem
    obtain ⟨hanswered, hdelivered⟩ := h.answers answer hmem
    exact ⟨hanswered.calmed hforth, fun i hi => List.mem_append_left _ (hdelivered i hi)⟩

/-- One thread changes. -/
theorem Relayed.set (h : Relayed settings s) {k : Nat} {h₁ h₂ : Handler} (gone : List Nat)
    (hk : s.handlers[k]? = some h₁) (hc : Calmed h₁ h₂) :
    Relayed settings
      { s with handlers := s.handlers.set k h₂, delivered := s.delivered ++ gone } := by
  refine h.calmed ?_ ?_
  · intro k' h' hk'
    by_cases heq : k = k'
    · subst heq
      cases hk.symm.trans hk'
      exact ⟨h₂, List.getElem?_set_self (List.getElem?_eq_some_iff.1 hk).1, hc⟩
    · exact ⟨h', (List.getElem?_set_ne heq).trans hk', .refl h'⟩
  · intro k' h' hk'
    obtain ⟨rfl, rfl⟩ | ⟨-, hold⟩ := getElem?_set_cases hk'
    · exact ⟨h₁, hk, hc⟩
    · exact ⟨h', hold, .refl h'⟩

/-- A step of the server, by a datagram that is that of the thread if a thread holds the port. -/
theorem Relayed.server (h : Relayed settings s) (a : ServerAction)
    (hown : ∀ port payload, a = .datagram (localhost port) payload → ∀ (k : Nat) h,
      s.handlers[k]? = some h → h.closed = false → h.port = port →
        payload = h.pkt ∧ h.underway = false) :
    Relayed settings { s with server := s.server.step a } := by
  have hdue := h.assigned.due
  refine ⟨assigned_step s.server a h.assigned, h.alone, ?_, ?_, h.threads, h.tasks⟩
  · intro k h₁ hk hclosed i payload howner
    obtain hold | rfl := owner_new howner
    · exact (h.own k h₁ hk hclosed i payload hold).imp_left fun hi => hi.step hdue
    · exact Or.inr (hown h₁.port payload rfl k h₁ hk hclosed rfl)
  · intro answer hmem
    obtain ⟨hanswered, hdelivered⟩ := h.answers answer hmem
    exact ⟨hanswered.step hdue a, hdelivered⟩

theorem relayed_handle (h : Relayed settings s) (pkt : List UInt8) (addr : SocketAddr)
    {port : UInt16} (hfresh : Quiet s port) :
    Relayed settings (s.step (.handle pkt addr port)) := by
  dsimp only [Forwarder.step]
  split
  · exact h
  · next hfree =>
    obtain ⟨hunderway, hthrough⟩ := hfresh
    have hclosed : ∀ (k : Nat) h', s.handlers[k]? = some h' → h'.port = port →
        h'.closed = true ∧ h'.underway = false := by
      intro k h' hk hport
      have hmem := List.mem_of_getElem? hk
      refine ⟨?_, hunderway h' hmem hport⟩
      rw [← Bool.not_eq_false]
      exact fun hopen => hfree ⟨h', hmem, hopen, hport⟩
    refine ⟨h.assigned, ?_, ?_, ?_, h.threads, h.tasks⟩
    · intro k k' h₁ h₂ hk hk' hopen hport
      obtain hk | ⟨rfl, rfl⟩ := getElem?_concat_cases hk
      · obtain hk' | ⟨-, rfl⟩ := getElem?_concat_cases hk'
        · exact h.alone k k' h₁ h₂ hk hk' hopen hport
        · cases hopen.symm.trans (hclosed k h₁ hk hport.symm).1
      · obtain hk' | ⟨rfl, -⟩ := getElem?_concat_cases hk'
        · exact Or.inr (hclosed k' h₂ hk' hport)
        · exact Or.inl rfl
    · intro k h₁ hk hopen i payload howner
      obtain hk | ⟨-, rfl⟩ := getElem?_concat_cases hk
      · exact h.own k h₁ hk hopen i payload howner
      · refine (hthrough i (List.getElem?_eq_some_iff.1 howner).1).imp_right fun hne => ?_
        rw [howner] at hne
        exact absurd rfl hne
    · intro answer hmem
      obtain ⟨hanswered, hdelivered⟩ := h.answers answer hmem
      refine ⟨hanswered.calmed fun k h' hk => ⟨h', ?_, .refl h'⟩, hdelivered⟩
      exact getElem?_append_of_some hk _

theorem relayed_arrive (h : Relayed settings s) (k : Nat) :
    Relayed settings (s.step (.arrive k)) := by
  dsimp only [Forwarder.step]
  split
  · exact h
  · next h₁ hk =>
    split
    · next hunderway =>
      have hset := h.set [] hk (calmed_drop h₁)
      rw [List.append_nil] at hset
      refine hset.server (.datagram (localhost h₁.port) h₁.pkt) ?_
      intro port payload heq k' h₂ hk' hopen hport
      injection heq with hsource hpayload
      obtain ⟨rfl, rfl⟩ | ⟨hne, hold⟩ := getElem?_set_cases hk'
      · exact ⟨hpayload.symm, rfl⟩
      · -- no other thread has the port while the packet is under way
        have hsame : h₁.port = h₂.port := (localhost_inj hsource).trans hport.symm
        obtain heq | ⟨-, hcalm⟩ := h.alone k' k h₂ h₁ hold hk hopen hsame
        · exact absurd heq.symm hne
        · rw [hunderway] at hcalm
          cases hcalm
    · exact h

/-- An open thread answers, with the reply of a task that has come to nobody or with something
    foreign. -/
theorem Relayed.answer (h : Relayed settings s) {k : Nat} {h₁ : Handler} {o : Option Nat}
    {r : List UInt8} (hk : s.handlers[k]? = some h₁) (hopen : h₁.closed = false)
    (horigin : ∀ i, o = some i → i ∉ s.delivered ∧
      s.server.owners[i]? = some (.datagram (localhost h₁.port) h₁.pkt) ∧
      ∃ task : Task, s.server.system.tasks[i]? = some task ∧ task.reply = some r) (ok : Bool) :
    Relayed settings
      ({ s with delivered := s.delivered ++ o.toList }.answer k h₁ o r ok) := by
  have hset := h.set o.toList hk (calmed_close h₁)
  have hlt := lt_of_getElem? hk
  unfold Forwarder.answer
  cases ok with
  | false => exact hset
  | true =>
    refine ⟨hset.assigned, hset.alone, hset.own, ?_, ?_, ?_⟩
    · intro answer hmem
      obtain hold | hnew := List.mem_append.1 hmem
      · exact hset.answers answer hold
      · rw [List.mem_singleton.1 hnew]
        refine ⟨⟨_, List.getElem?_set_self hlt, rfl, rfl, fun i hi => (horigin i hi).2⟩, ?_⟩
        intro i hi
        exact List.mem_append_right _ (Option.mem_toList.2 hi)
    · refine nodup_map_concat h.threads fun answer hmem heq => ?_
      obtain ⟨⟨h₂, hk₂, hclosed, -⟩, -⟩ := h.answers answer hmem
      rw [show answer.thread = k from heq, hk] at hk₂
      rw [← Option.some.inj hk₂, hopen] at hclosed
      cases hclosed
    · show ((s.answers ++ [Answer.mk k o h₁.addr r]).filterMap Answer.task).Nodup
      rw [List.filterMap_append]
      cases o with
      | none =>
        rw [show [Answer.mk k none h₁.addr r].filterMap Answer.task = [] from rfl,
          List.append_nil]
        exact h.tasks
      | some i =>
        rw [show [Answer.mk k (some i) h₁.addr r].filterMap Answer.task = [i] from rfl,
          ← List.concat_eq_append]
        refine h.tasks.concat fun hmem => ?_
        obtain ⟨answer, hanswer, htask⟩ := List.mem_filterMap.1 hmem
        exact (horigin i rfl).1 ((h.answers answer hanswer).2 i htask)

theorem relayed_receive (h : Relayed settings s) (k i : Nat) (ok : Bool) :
    Relayed settings (s.step (.receive k i ok)) := by
  dsimp only [Forwarder.step]
  split
  · next h₁ i' dest resp hk hfind =>
    split
    · next hguard =>
      obtain ⟨hopen, rfl, hnew⟩ := hguard
      obtain rfl : i' = i := by simpa using List.find?_some hfind
      obtain ⟨payload, task, howner, htask, hr⟩ := (h.assigned.datagrams.handed_iff i' _ resp).1
        (Handed.of_sent (List.mem_of_find?_eq_some hfind))
      -- the reply is still under way, so the server was not through with the task before
      obtain ⟨rfl, -⟩ : payload = h₁.pkt ∧ _ := by
        refine (h.own k h₁ hk hopen i' payload howner).resolve_left fun hthrough => ?_
        unfold Through at hthrough
        rw [htask] at hthrough
        exact hnew (hthrough.2 (by rw [hr]; rfl))
      refine h.answer (o := some i') hk hopen (fun i hi => ?_) ok
      obtain rfl := Option.some.inj hi
      exact ⟨hnew, howner, task, htask, hr⟩
    · exact h
  · exact h

theorem relayed_foreign (h : Relayed settings s) (k : Nat) (resp : List UInt8) (ok : Bool) :
    Relayed settings (s.step (.foreign k resp ok)) := by
  dsimp only [Forwarder.step]
  split
  · exact h
  · next h₁ hk =>
    split
    · exact h
    · next hopen =>
      have hanswer := h.answer (o := none) (r := resp) hk (Bool.eq_false_iff.2 hopen) nofun ok
      rw [Option.toList_none, List.append_nil] at hanswer
      exact hanswer

theorem relayed_step (h : Relayed settings s) {e : Happening} (he : Fresh s e) :
    Relayed settings (s.step e) := by
  match e, he with
  | .handle pkt addr port, he => exact relayed_handle h pkt addr he
  | .arrive k, _ => exact relayed_arrive h k
  | .drop k, _ =>
    dsimp only [Forwarder.step]
    split
    · exact h
    · next hk =>
      have hset := h.set [] hk (calmed_drop _)
      rw [List.append_nil] at hset
      exact hset
  | .timeout k, _ =>
    dsimp only [Forwarder.step]
    split
    · exact h
    · next hk =>
      have hset := h.set [] hk (calmed_close _)
      rw [List.append_nil] at hset
      exact hset
  | .receive k i ok, _ => exact relayed_receive h k i ok
  | .foreign k resp ok, _ => exact relayed_foreign h k resp ok
  | .lose i, _ =>
    exact h.calmed (fun _ h' hk => ⟨h', hk, .refl h'⟩) fun _ h' hk => ⟨h', hk, .refl h'⟩
  | .server a, _ =>
    dsimp only [Forwarder.step]
    split
    · next hadmits =>
      refine h.server a ?_
      rintro port payload rfl k h₁ hk hopen rfl
      exact absurd rfl (hadmits h₁ (List.mem_of_getElem? hk) hopen)
    · exact h

end Steps

/-- What a step sends on: a reply of the server, or what a thread received from somebody else. -/
theorem answers_step (s : Forwarder) (e : Happening) (answer : Answer)
    (h : answer ∈ (s.step e).answers) :
    answer ∈ s.answers ∨ answer.task ≠ none ∨ e = .foreign answer.thread answer.resp true := by
  match e with
  | .handle pkt addr port =>
    dsimp only [Forwarder.step] at h
    split at h <;> exact Or.inl h
  | .arrive k =>
    dsimp only [Forwarder.step] at h
    split at h
    · exact Or.inl h
    · split at h <;> exact Or.inl h
  | .drop k =>
    dsimp only [Forwarder.step] at h
    split at h <;> exact Or.inl h
  | .receive k i ok =>
    dsimp only [Forwarder.step] at h
    split at h
    · split at h
      · cases ok with
        | false => exact Or.inl h
        | true =>
          obtain hold | hnew := List.mem_append.1 h
          · exact Or.inl hold
          · rw [List.mem_singleton.1 hnew]
            exact Or.inr (Or.inl nofun)
      · exact Or.inl h
    · exact Or.inl h
  | .foreign k resp ok =>
    dsimp only [Forwarder.step] at h
    split at h
    · exact Or.inl h
    · split at h
      · exact Or.inl h
      · cases ok with
        | false => exact Or.inl h
        | true =>
          obtain hold | hnew := List.mem_append.1 h
          · exact Or.inl hold
          · rw [List.mem_singleton.1 hnew]
            exact Or.inr (Or.inr rfl)
  | .lose i => exact Or.inl h
  | .timeout k =>
    dsimp only [Forwarder.step] at h
    split at h <;> exact Or.inl h
  | .server a =>
    dsimp only [Forwarder.step] at h
    split at h <;> exact Or.inl h

/-- An answer that is no reply of the server came from somebody else. -/
theorem foreign_step {events : List Happening} (s : Forwarder) (e : Happening)
    (h : ∀ answer ∈ s.answers, answer.task = none →
      .foreign answer.thread answer.resp true ∈ events) (he : e ∈ events) :
    ∀ answer ∈ (s.step e).answers, answer.task = none →
      .foreign answer.thread answer.resp true ∈ events := by
  intro answer hanswer htask
  obtain hold | hreply | rfl := answers_step s e answer hanswer
  · exact h answer hold htask
  · exact absurd htask hreply
  · exact he

/-- Whatever the clients, the threads, the server and the network do: no thread answers twice and
    no reply goes out twice. What goes out goes to where the packet of the thread came from. It is
    the reply of a task that was asked this packet, and is settled when it has ended, or somebody
    else sent it to the thread. -/
theorem forwarder_answers {settings : Settings} {events : List Happening}
    (h : Along Forwarder.step Fresh (.start settings) events) :
    let s := events.foldl Forwarder.step (.start settings)
    (s.answers.map Answer.thread).Nodup ∧ (s.answers.filterMap Answer.task).Nodup ∧
    ∀ answer ∈ s.answers, ∃ handler : Handler,
      s.handlers[answer.thread]? = some handler ∧ handler.addr = answer.addr ∧
      match answer.task with
      | none => .foreign answer.thread answer.resp true ∈ events
      | some i => ∃ task : Task, s.server.system.tasks[i]? = some task ∧ task.transport = .udp ∧
          task.query = handler.pkt.take 4096 ∧ task.reply = some answer.resp ∧
          (task.Ended → Settled settings task) := by
  intro s
  have hkept : Relayed settings s :=
    Along.invariant (relayed_start settings) (fun _ _ hs he => relayed_step hs he) h
  have hforeign : ∀ answer ∈ s.answers, answer.task = none →
      .foreign answer.thread answer.resp true ∈ events :=
    Along.invariant (fun _ hanswer => absurd hanswer List.not_mem_nil) foreign_step
      (along_of_mem fun _ _ he => he)
  refine ⟨hkept.threads, hkept.tasks, ?_⟩
  intro answer hmem
  obtain ⟨⟨handler, hk, -, haddr, hreply⟩, -⟩ := hkept.answers answer hmem
  refine ⟨handler, hk, haddr, ?_⟩
  split
  · next htask => exact hforeign answer hmem htask
  · next i htask =>
    obtain ⟨howner, task, htask, hr⟩ := hreply i htask
    obtain ⟨task', htask', htransport, hquery⟩ := hkept.assigned.datagrams.asked i _ _ howner
    cases htask.symm.trans htask'
    exact ⟨task, htask, htransport, hquery, hr,
      hkept.assigned.due.settled (List.mem_of_getElem? htask)⟩

/-- Two packets; the second one is answered first, and the first one too late. Its port is used
    again, and somebody else answers there. -/
def portTwice : List Happening :=
  [.handle (ask 1 1 0) (localhost 9000) 40000, .handle (ask 2 1 0) (localhost 9001) 40001,
    .arrive 1, .arrive 0] ++
  (List.replicate 5 [Happening.server (.resolve 0 (denyingMoment 0) true),
    .server (.resolve 1 (denyingMoment 0) true)]).flatten ++
  [.receive 1 0 true, .timeout 0, .lose 1, .handle (ask 3 1 0) (localhost 9002) 40000, .arrive 2,
    .foreign 2 [0] true]

theorem forwarder_answers_portTwice :
    let s := portTwice.foldl Forwarder.step (.start openSettings)
    (s.answers.map Answer.thread).Nodup ∧ (s.answers.filterMap Answer.task).Nodup ∧
    ∀ answer ∈ s.answers, ∃ handler : Handler,
      s.handlers[answer.thread]? = some handler ∧ handler.addr = answer.addr ∧
      match answer.task with
      | none => .foreign answer.thread answer.resp true ∈ portTwice
      | some i => ∃ task : Task, s.server.system.tasks[i]? = some task ∧ task.transport = .udp ∧
          task.query = handler.pkt.take 4096 ∧ task.reply = some answer.resp ∧
          (task.Ended → Settled openSettings task) :=
  forwarder_answers (by decide +kernel)

/-- Without quiet ports the reply to one client goes to the next one that is given the port. -/
example :
    let late : List Happening :=
      [.handle (ask 1 1 0) (localhost 9000) 40000, .arrive 0] ++
      List.replicate 5 (Happening.server (.resolve 0 (denyingMoment 0) true)) ++
      [.timeout 0, .handle (ask 3 1 0) (localhost 9002) 40000, .receive 1 0 true]
    (late.foldl Forwarder.step (.start openSettings)).answers.map Answer.addr =
      [localhost 9002] := by
  decide +kernel

end VantaDns.Phone
