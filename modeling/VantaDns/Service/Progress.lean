/-
  What becomes of every concurrent task in the end.

  `stepsLeft` bounds the steps a task has before it; only its own steps count. A task may wait
  for the cache while another has it, which `serve_tcp_dns` keeps during the writes of a hit;
  waiting takes no steps and only rules out some interleavings. `Settled` is how a query ends: a
  query without a question is not answered, a blocked one with the blocked reply and nothing
  else, whatever the other tasks did, and an allowed one is answered over TCP in any case. Over
  UDP it goes without an answer if no upstream gave one, or one on which the parser panics.
  `settled_of_scheduled`: a task that has taken five steps, among whatever steps of the others,
  is settled.
-/
import VantaDns.Service.Interleaving

namespace VantaDns.Service

open Lib Lib.Decoder Protocol Cache VantaDns.Filter Resolver

/-- How many steps a task takes at most. -/
def Phase.stepsLeft : Phase → Nat
  | .begun => 5
  | .admitted _ _ => 4
  | .missed _ _ => 3
  | .received _ _ => 2
  | .stored _ => 1
  | .written _ _ => 1
  | .ended _ => 0

/-- How a query ends. -/
structure Settled (settings : Settings) (task : Task) : Prop where
  dropped : answerable task.query = false → task.reply = none
  blocked : ∀ packet question rule, DnsPacket.parse task.query = .ok packet →
    packet.questions.head? = some question →
    settings.filter.evaluate question.name = .Blocked rule →
    task.reply = some (blockedReply settings.initial packet).toBytes
  tcp : ∀ packet question, Admitted settings.initial task.query packet question →
    task.transport = .tcp → ∃ resp, task.reply = some resp
  udp : ∀ packet question, Admitted settings.initial task.query packet question →
    task.transport = .udp → task.reply = none →
    task.fetched = none ∨ ∃ resp, task.fetched = some resp ∧ TxtOverrun resp

/-- What is known of a task on its way. -/
def Owed (settings : Settings) (task : Task) : Prop :=
  match task.phase with
  | .begun => task.fetched = none ∧ task.reply = none
  | .admitted packet question | .missed packet question =>
      Admitted settings.initial task.query packet question ∧ task.fetched = none ∧
        task.reply = none
  | .received question resp =>
      (∃ packet, Admitted settings.initial task.query packet question) ∧
        task.fetched = some resp ∧ task.reply = none
  | .stored resp =>
      (∃ packet question, Admitted settings.initial task.query packet question) ∧
        task.fetched = some resp ∧ task.reply = none
  | .written question resp =>
      (∃ packet, Admitted settings.initial task.query packet question) ∧
        task.fetched = some resp ∧ task.reply = some resp
  | .ended _ => Settled settings task

section TaskSteps

variable {settings : Settings} {state : DnsServiceState} {task : Task} {m : Moment}

theorem Admitted.answerable {query : List UInt8} {packet : DnsPacket} {question : DnsQuestion}
    (h : Admitted state query packet question) : answerable query = true :=
  answerable_iff.2 ⟨packet, question, h.parse, h.head⟩

/-- An allowed query with a reply is settled. -/
theorem settled_replied {packet : DnsPacket} {question : DnsQuestion} {resp : List UInt8}
    (ha : Admitted settings.initial task.query packet question) (hr : task.reply = some resp) :
    Settled settings task := by
  refine ⟨?_, ?_, fun _ _ _ _ => ⟨resp, hr⟩, ?_⟩
  · intro hno
    rw [ha.answerable] at hno
    cases hno
  · intro packet' question' rule hp hq hb
    obtain rfl := Outcome.ok.inj (ha.parse.symm.trans hp)
    obtain rfl := Option.some.inj (ha.head.symm.trans hq)
    exact absurd hb (ha.allowed rule)
  · intro _ _ _ _ hnone
    rw [hr] at hnone
    cases hnone

/-- A query that is not answered is settled if it has no question. -/
theorem settled_dropped (hno : answerable task.query = false) (hr : task.reply = none) :
    Settled settings task := by
  have hnone : ∀ packet question, DnsPacket.parse task.query = .ok packet →
      packet.questions.head? ≠ some question := by
    intro packet question hp hq
    rw [answerable_iff.2 ⟨packet, question, hp, hq⟩] at hno
    cases hno
  refine ⟨fun _ => hr, ?_, ?_, ?_⟩
  · intro packet question _ hp hq _
    exact absurd hq (hnone packet question hp)
  · intro packet question ha _
    exact absurd ha.head (hnone packet question ha.parse)
  · intro packet question ha _ _
    exact absurd ha.head (hnone packet question ha.parse)

theorem settled_blocked {packet : DnsPacket} {question : DnsQuestion} {rule : Str}
    (hp : DnsPacket.parse task.query = .ok packet) (hq : packet.questions.head? = some question)
    (hb : settings.filter.evaluate question.name = .Blocked rule)
    (hr : task.reply = some (blockedReply settings.initial packet).toBytes) :
    Settled settings task := by
  have hopen : ∀ packet' question',
      ¬ Admitted settings.initial task.query packet' question' := by
    intro packet' question' ha
    obtain rfl := Outcome.ok.inj (ha.parse.symm.trans hp)
    obtain rfl := Option.some.inj (ha.head.symm.trans hq)
    exact absurd hb (ha.allowed rule)
  refine ⟨?_, ?_, fun _ _ ha => absurd ha (hopen _ _), fun _ _ ha => absurd ha (hopen _ _)⟩
  · intro hno
    rw [answerable_iff.2 ⟨packet, question, hp, hq⟩] at hno
    cases hno
  · intro packet' _ _ hp' _ _
    obtain rfl := Outcome.ok.inj (hp'.symm.trans hp)
    exact hr

/-- An allowed query over UDP without a reply is settled if there is a reason. -/
theorem settled_udp {packet : DnsPacket} {question : DnsQuestion}
    (ha : Admitted settings.initial task.query packet question) (ht : task.transport = .udp)
    (hwhy : task.fetched = none ∨ ∃ resp, task.fetched = some resp ∧ TxtOverrun resp) :
    Settled settings task := by
  refine ⟨?_, ?_, ?_, fun _ _ _ _ _ => hwhy⟩
  · intro hno
    rw [ha.answerable] at hno
    cases hno
  · intro packet' question' rule hp hq hb
    obtain rfl := Outcome.ok.inj (ha.parse.symm.trans hp)
    obtain rfl := Option.some.inj (ha.head.symm.trans hq)
    exact absurd hb (ha.allowed rule)
  · intro _ _ _ htcp
    cases ht.symm.trans htcp

/-! ## Steps -/

theorem owed_ended {ending : Ending} (hp : task.phase = .ended ending)
    (h : Settled settings task) : Owed settings task := by
  unfold Owed
  rw [hp]
  exact h

/-- A task that answers has the answer and ends. -/
theorem answer_spec (task : Task) (m : Moment) (resp : List UInt8) :
    (task.answer m resp).query = task.query ∧ (task.answer m resp).reply = some resp ∧
      ∃ ending, (task.answer m resp).phase = .ended ending := by
  unfold Task.answer
  cases task.transport <;> exact ⟨rfl, rfl, _, rfl⟩

theorem owed_begun (hfilter : state.filter = settings.filter)
    (hmode : state.blockMode = settings.blockMode) (hp : task.phase = .begun)
    (h : Owed settings task) : Owed settings (task.step state m).2 := by
  obtain ⟨t, query, phase, fetched, reply⟩ := task
  obtain rfl : phase = .begun := hp
  obtain ⟨rfl, rfl⟩ : fetched = none ∧ reply = none := h
  unfold Task.step
  dsimp only
  have hdrop : ∀ ending, answerable query = false →
      Owed settings ⟨t, query, .ended ending, none, none⟩ := fun ending hno =>
    owed_ended rfl (settled_dropped hno rfl)
  rcases hparse : DnsPacket.parse query with packet | e | _
  · dsimp only
    rcases hq : packet.questions.head? with _ | question
    · refine hdrop _ ?_
      rw [answerable, hparse]
      simpa using hq
    · dsimp only
      rcases he : state.filter.evaluate question.name with _ | rule | rule
      case Blocked =>
        obtain ⟨hquery, hreply, ending, hended⟩ := answer_spec ⟨t, query, .begun, none, none⟩ m
          (blockedReply state packet).toBytes
        have hsame : blockedReply state packet = blockedReply settings.initial packet := by
          unfold blockedReply
          rw [hmode]
          rfl
        rw [hfilter] at he
        rw [hsame] at hquery hreply hended ⊢
        refine owed_ended hended (settled_blocked ?_ hq he hreply)
        rw [hquery]
        exact hparse
      all_goals
        refine ⟨⟨hparse, hq, ?_⟩, rfl, rfl⟩
        rw [hfilter] at he
        intro rule' hb
        cases he.symm.trans hb
  · refine hdrop _ ?_
    rw [answerable, hparse]
  · refine hdrop _ ?_
    rw [answerable, hparse]

theorem owed_admitted {packet : DnsPacket} {question : DnsQuestion}
    (hp : task.phase = .admitted packet question) (h : Owed settings task) :
    Owed settings (task.step state m).2 := by
  obtain ⟨t, query, phase, fetched, reply⟩ := task
  obtain rfl : phase = .admitted packet question := hp
  obtain ⟨ha, rfl, rfl⟩ : _ ∧ fetched = none ∧ reply = none := h
  unfold Task.step
  dsimp only
  rcases state.cache.get question.name question.qtype m.now₁ m.now₂ with ⟨_ | cachedResp, cache⟩
  · exact ⟨ha, rfl, rfl⟩
  · obtain ⟨hquery, hreply, ending, hended⟩ := answer_spec
      ⟨t, query, .admitted packet question, none, none⟩ m cachedResp.toBytes
    rw [← hquery] at ha
    exact owed_ended hended (settled_replied ha hreply)

theorem owed_missed {packet : DnsPacket} {question : DnsQuestion}
    (hp : task.phase = .missed packet question) (h : Owed settings task) :
    Owed settings (task.step state m).2 := by
  obtain ⟨t, query, phase, fetched, reply⟩ := task
  obtain rfl : phase = .missed packet question := hp
  obtain ⟨ha, rfl, rfl⟩ : _ ∧ fetched = none ∧ reply = none := h
  unfold Task.step
  dsimp only
  rcases state.forwarder.forwardRaw m.net query with e | resp
  · cases t with
    | udp => exact owed_ended rfl (settled_udp ha rfl (Or.inl rfl))
    | tcp => exact owed_ended rfl (settled_replied ha rfl)
  · exact ⟨⟨packet, ha⟩, rfl, rfl⟩

/-- Over UDP a panic of the parser, and nothing else, keeps a fetched answer from the client. -/
theorem owed_received (hbounds : state.cache.minTtl ≤ state.cache.maxTtl) {question : DnsQuestion}
    {resp : List UInt8} (hp : task.phase = .received question resp) (h : Owed settings task) :
    Owed settings (task.step state m).2 := by
  obtain ⟨t, query, phase, fetched, reply⟩ := task
  obtain rfl : phase = .received question resp := hp
  obtain ⟨⟨packet, ha⟩, rfl, rfl⟩ : _ ∧ fetched = some resp ∧ reply = none := h
  unfold Task.step
  dsimp only
  cases t with
  | udp =>
    have hstore := @store_ending m.env question resp state.cache
    dsimp only
    generalize store m.env question resp state.cache = stored at hstore ⊢
    obtain ⟨cache, ending⟩ := stored
    have hpanic : ending ≠ .returned → TxtOverrun resp := by
      intro hne
      refine (hstore.1 hne).resolve_right ?_
      rintro ⟨_, -, hlt⟩
      exact absurd hlt (Nat.not_lt.2 hbounds)
    cases ending with
    | returned => exact ⟨⟨packet, question, ha⟩, rfl, rfl⟩
    | failed =>
      exact owed_ended rfl (settled_udp ha rfl (Or.inr ⟨resp, rfl, hpanic (by simp)⟩))
    | panicked =>
      exact owed_ended rfl (settled_udp ha rfl (Or.inr ⟨resp, rfl, hpanic (by simp)⟩))
  | tcp =>
    dsimp only
    rcases (writeFrame m.env resp).2 with _ | _
    · exact owed_ended rfl (settled_replied ha rfl)
    · exact ⟨⟨packet, ha⟩, rfl, rfl⟩

/-- A step leaves a task with what is known of it in its next phase. -/
theorem owed_step (hfilter : state.filter = settings.filter)
    (hmode : state.blockMode = settings.blockMode)
    (hbounds : state.cache.minTtl ≤ state.cache.maxTtl) (h : Owed settings task) :
    Owed settings (task.step state m).2 := by
  cases hp : task.phase with
  | begun => exact owed_begun hfilter hmode hp h
  | admitted packet question => exact owed_admitted hp h
  | missed packet question => exact owed_missed hp h
  | received question resp => exact owed_received hbounds hp h
  | stored resp =>
    obtain ⟨t, query, phase, fetched, reply⟩ := task
    obtain rfl : phase = .stored resp := hp
    obtain ⟨⟨packet, question, ha⟩, -⟩ : _ ∧ fetched = some resp ∧ reply = none := h
    exact owed_ended rfl (settled_replied ha rfl)
  | written question resp =>
    obtain ⟨t, query, phase, fetched, reply⟩ := task
    obtain rfl : phase = .written question resp := hp
    obtain ⟨⟨packet, ha⟩, -, rfl⟩ : _ ∧ fetched = some resp ∧ reply = some resp := h
    exact owed_ended rfl (settled_replied ha rfl)
  | ended ending =>
    unfold Task.step
    rw [hp]
    exact h

/-- A step of a task leaves it fewer steps. -/
theorem stepsLeft_step (task : Task) (state : DnsServiceState) (m : Moment) :
    (task.step state m).2.phase.stepsLeft ≤ task.phase.stepsLeft - 1 := by
  have hanswer : ∀ resp, (task.answer m resp).phase.stepsLeft = 0 := by
    intro resp
    obtain ⟨-, -, ending, hended⟩ := answer_spec task m resp
    rw [hended]
    rfl
  unfold Task.step
  cases hp : task.phase with
  | begun =>
    dsimp only
    split
    · exact Nat.zero_le _
    · exact Nat.zero_le _
    · split
      · exact Nat.zero_le _
      · split
        · exact (hanswer _).trans_le (Nat.zero_le _)
        · exact le_rfl
        · exact le_rfl
  | admitted packet question =>
    dsimp only
    split
    · exact (hanswer _).trans_le (Nat.zero_le _)
    · exact le_rfl
  | missed packet question =>
    dsimp only
    split
    · exact le_rfl
    · split
      · exact Nat.zero_le _
      · exact Nat.zero_le _
  | received question resp =>
    dsimp only
    split
    · split
      · exact le_rfl
      · exact Nat.zero_le _
    · split
      · exact le_rfl
      · exact Nat.zero_le _
  | stored resp => exact le_rfl
  | written question resp => exact le_rfl
  | ended ending =>
    dsimp only
    rw [hp]
    exact Nat.zero_le _

/-- The query and the connection of a task stay. -/
theorem query_step (task : Task) (state : DnsServiceState) (m : Moment) :
    (task.step state m).2.query = task.query ∧
      (task.step state m).2.transport = task.transport := by
  obtain ⟨t, query, phase, fetched, reply⟩ := task
  unfold Task.step
  cases phase with
  | begun =>
    dsimp only
    split
    · exact ⟨rfl, rfl⟩
    · exact ⟨rfl, rfl⟩
    · split
      · exact ⟨rfl, rfl⟩
      · split <;> exact ⟨rfl, rfl⟩
  | admitted packet question =>
    dsimp only
    split <;> exact ⟨rfl, rfl⟩
  | missed packet question =>
    dsimp only
    split
    · exact ⟨rfl, rfl⟩
    · cases t <;> exact ⟨rfl, rfl⟩
  | received question resp =>
    cases t with
    | udp =>
      dsimp only
      split <;> exact ⟨rfl, rfl⟩
    | tcp =>
      dsimp only
      split <;> exact ⟨rfl, rfl⟩
  | stored resp => exact ⟨rfl, rfl⟩
  | written question resp => exact ⟨rfl, rfl⟩
  | ended ending => exact ⟨rfl, rfl⟩

end TaskSteps

/-! ## Runs -/

/-- The invariant of the system, and of every task what is known on its way. -/
structure Due (settings : Settings) (s : System) : Prop where
  invariant : Invariant settings s
  blockMode : s.state.blockMode = settings.blockMode
  tasks : ∀ task ∈ s.tasks, Owed settings task

theorem due_start (settings : Settings) : Due settings (System.start settings) :=
  ⟨invariant_start settings, rfl, fun _ h => absurd h List.not_mem_nil⟩

theorem due_step {settings : Settings} (s : System) (a : Action) (h : Due settings s) :
    Due settings (s.step a) := by
  refine ⟨invariant_step s a h.invariant, ?_, ?_⟩
  · cases a with
    | spawn transport query => exact h.blockMode
    | act i m =>
      cases hi : s.tasks[i]? with
      | none =>
        rw [step_act_none hi]
        exact h.blockMode
      | some task =>
        rw [step_act_some hi]
        exact h.blockMode
  · cases a with
    | spawn transport query =>
      intro task htask
      rcases List.mem_append.1 htask with hmem | hmem
      · exact h.tasks task hmem
      · obtain rfl := List.mem_singleton.1 hmem
        exact ⟨rfl, rfl⟩
    | act i m =>
      cases hi : s.tasks[i]? with
      | none =>
        rw [step_act_none hi]
        exact h.tasks
      | some task =>
        rw [step_act_some hi]
        intro task' htask'
        rcases List.mem_or_eq_of_mem_set htask' with hmem | rfl
        · exact h.tasks task' hmem
        · exact owed_step h.invariant.filter h.blockMode h.invariant.bounds
            (h.tasks task (List.mem_of_getElem? hi))

theorem due_foldl (settings : Settings) (actions : List Action) :
    Due settings (actions.foldl System.step (System.start settings)) :=
  Along.invariant (due_start settings) (fun s a h _ => due_step s a h)
    (along_of_forall (P := fun _ _ => True) fun _ _ => trivial)

/-- The action is a step of task `i`. -/
def Action.isOf (i : Nat) : Action → Bool
  | .spawn _ _ => false
  | .act j _ => j == i

/-- What a step of the system does to one of its tasks. -/
theorem task_step {s : System} {i : Nat} {task : Task} (hi : s.tasks[i]? = some task)
    (a : Action) :
    ∃ task', (s.step a).tasks[i]? = some task' ∧ task'.query = task.query ∧
      task'.transport = task.transport ∧
      task'.phase.stepsLeft ≤ task.phase.stepsLeft - if a.isOf i then 1 else 0 := by
  have hlt := (List.getElem?_eq_some_iff.1 hi).1
  cases a with
  | spawn transport query =>
    refine ⟨task, ?_, rfl, rfl, le_rfl⟩
    show (s.tasks ++ _)[i]? = some task
    rw [List.getElem?_append_left hlt]
    exact hi
  | act j m =>
    by_cases hj : j = i
    · subst hj
      obtain ⟨hquery, htransport⟩ := query_step task s.state m
      refine ⟨_, ?_, hquery, htransport, ?_⟩
      · rw [step_act_some hi]
        exact List.getElem?_set_self hlt
      · have hof : (Action.act j m).isOf j = true := beq_self_eq_true j
        rw [if_pos hof]
        exact stepsLeft_step task s.state m
    · have hof : ¬ (Action.act j m).isOf i = true := fun h => hj (beq_iff_eq.1 h)
      refine ⟨task, ?_, rfl, rfl, by rw [if_neg hof]; exact le_rfl⟩
      cases hother : s.tasks[j]? with
      | none =>
        rw [step_act_none hother]
        exact hi
      | some other =>
        rw [step_act_some hother]
        exact (List.getElem?_set_ne hj).trans hi

/-- What a run does to one of the tasks. -/
theorem task_foldl {s : System} {i : Nat} {task : Task} (hi : s.tasks[i]? = some task)
    (actions : List Action) :
    ∃ task', (actions.foldl System.step s).tasks[i]? = some task' ∧
      task'.query = task.query ∧ task'.transport = task.transport ∧
      task'.phase.stepsLeft ≤ task.phase.stepsLeft - actions.countP (Action.isOf i) := by
  induction actions generalizing s task with
  | nil => exact ⟨task, hi, rfl, rfl, le_rfl⟩
  | cons a actions ih =>
    obtain ⟨task₁, hi₁, hquery₁, htransport₁, hleft₁⟩ := task_step hi a
    obtain ⟨task₂, hi₂, hquery₂, htransport₂, hleft₂⟩ := ih hi₁
    refine ⟨task₂, hi₂, hquery₂.trans hquery₁, htransport₂.trans htransport₁, ?_⟩
    rw [List.countP_cons]
    omega

theorem ended_of_stepsLeft {task : Task} (h : task.phase.stepsLeft = 0) : task.Ended := by
  cases hp : task.phase with
  | ended ending => exact ⟨ending, hp⟩
  | _ =>
    rw [hp] at h
    cases h

/-- A task that has arrived and has taken five steps since has ended and is settled, whatever
    the other tasks did in between. -/
theorem settled_of_scheduled (settings : Settings) (before after : List Action) (i : Nat)
    (task : Task)
    (hi : (before.foldl System.step (System.start settings)).tasks[i]? = some task)
    (hsteps : 5 ≤ after.countP (Action.isOf i)) :
    ∃ task', ((before ++ after).foldl System.step (System.start settings)).tasks[i]? = some task' ∧
      task'.query = task.query ∧ task'.transport = task.transport ∧ task'.Ended ∧
      Settled settings task' := by
  have hdue := (due_foldl settings (before ++ after)).tasks
  rw [List.foldl_append] at hdue ⊢
  obtain ⟨task', hi', hquery, htransport, hleft⟩ := task_foldl hi after
  have hmost : task.phase.stepsLeft ≤ 5 := by
    unfold Phase.stepsLeft
    split <;> decide
  obtain ⟨ending, hended⟩ := ended_of_stepsLeft (show task'.phase.stepsLeft = 0 by omega)
  refine ⟨task', hi', hquery, htransport, ⟨ending, hended⟩, ?_⟩
  have howed := hdue task' (List.mem_of_getElem? hi')
  unfold Owed at howed
  rw [hended] at howed
  exact howed

/-- Upstreams that do not answer, no failing write, and a clock that stands still. -/
def silentMoment : Moment := ⟨fun _ => ⟨fun _ => .timedOut, fun _ => .timedOut⟩, 0, 0, 0, none, none⟩

/-- A second query arrives, and both take five steps in turn. -/
def inTurn : List Action :=
  .spawn .tcp (ask 2 1 0) ::
    (List.replicate 5 [Action.act 1 silentMoment, .act 0 silentMoment]).flatten

theorem settled_of_scheduled_inTurn :
    ∃ task', (([Action.spawn .udp (ask 1 1 0)] ++ inTurn).foldl System.step
        (System.start openSettings)).tasks[0]? = some task' ∧
      task'.query = ask 1 1 0 ∧ task'.transport = .udp ∧ task'.Ended ∧
      Settled openSettings task' :=
  settled_of_scheduled openSettings [.spawn .udp (ask 1 1 0)] inTurn 0
    (Task.start .udp (ask 1 1 0)) rfl (by decide)

end VantaDns.Service
