/-
  What holds in every state that concurrent tasks can reach.

  `Consistent`: every entry of the cache is the parsed answer that some task got from upstream
  for the name and type of its own first question, no entry is for a blocked name, the
  entries are within the capacity, and a task that got an answer from upstream sends its
  client these bytes and no others, and has sent them when it ends.

  The last part fails when a task over UDP inserts an answer on which the parser panics: the
  task ends before it replies. `consistent_iff`: exactly the runs without such a step are
  consistent throughout. All else holds in every run (`invariant_foldl`).
-/
import VantaDns.Service.Concurrent
import VantaDns.Service.Connection

namespace VantaDns.Service

open Lib Lib.Unicode Protocol Cache VantaDns.Filter Resolver

/-- What is known of a task in its phase. -/
def Sound (settings : Settings) (task : Task) : Prop :=
  match task.phase with
  | .begun => task.fetched = none ∧ task.reply = none
  | .admitted packet question | .missed packet question =>
      Admitted settings.initial task.query packet question ∧ task.fetched = none ∧
        task.reply = none
  | .received question resp =>
      (∃ packet, Admitted settings.initial task.query packet question) ∧
        task.fetched = some resp ∧ task.reply = none
  | .stored resp => task.fetched = some resp ∧ task.reply = none
  | .written question resp =>
      (∃ packet, Admitted settings.initial task.query packet question) ∧
        task.fetched = some resp ∧ task.reply = some resp
  | .ended _ => ∀ resp, task.fetched = some resp → task.reply = some resp ∨ task.reply = none

/-- The task has ended. -/
def Task.Ended (task : Task) : Prop := ∃ ending, task.phase = .ended ending

/-- The entry is the parsed answer that a task got for its first question. -/
def Sourced (settings : Settings) (tasks : List Task) (k : Str × QueryType) (e : CachedResponse) :
    Prop :=
  ∃ task ∈ tasks, ∃ resp packet question, task.fetched = some resp ∧
    DnsPacket.parse resp = .ok e.packet ∧ Admitted settings.initial task.query packet question ∧
    k = DnsCache.key question.name question.qtype

/-- What every step of every task keeps. -/
structure Invariant (settings : Settings) (s : System) : Prop where
  filter : s.state.filter = settings.filter
  cap : s.state.cache.cache.cap = settings.capacity
  bounds : s.state.cache.minTtl ≤ s.state.cache.maxTtl
  tasks : ∀ task ∈ s.tasks, Sound settings task
  entries : ∀ k e, s.state.cache.cache.lookup k = some e → Sourced settings s.tasks k e

theorem invariant_start (settings : Settings) : Invariant settings (System.start settings) where
  filter := rfl
  cap := if_neg (Nat.pos_iff_ne_zero.1 settings.capacity_pos)
  bounds := Nat.mul_le_mul_right _ settings.ttl_le
  tasks := fun _ h => absurd h List.not_mem_nil
  entries := fun k _ h => by cases (Lru.lookup_new _ _ k).symm.trans h

/-! ## One step of a task -/

/-- A cache with the capacity and the TTL bounds of another. -/
structure SameBounds (c c' : DnsCache) : Prop where
  cap : c'.cache.cap = c.cache.cap
  minTtl : c'.minTtl = c.minTtl
  maxTtl : c'.maxTtl = c.maxTtl

/-- What a step of a task does to the cache: no entry is new, or one is, which holds what the
    task fetched for its first question. -/
inductive CacheEffect (settings : Settings) (task : Task) (c c' : DnsCache) : Prop where
  | kept : SameBounds c c' → (∀ k e, c'.cache.lookup k = some e → c.cache.lookup k = some e) →
      CacheEffect settings task c c'
  | filled {resp : List UInt8} {packet : DnsPacket} {question : DnsQuestion} {e : CachedResponse} :
      SameBounds c c' → task.fetched = some resp → DnsPacket.parse resp = .ok e.packet →
      Admitted settings.initial task.query packet question →
      c'.cache = c.cache.put (DnsCache.key question.name question.qtype) e →
      CacheEffect settings task c c'

/-- What a step of a sound task does. -/
structure Stepped (settings : Settings) (c : DnsCache) (task : Task) (result : DnsCache × Task) :
    Prop where
  query : result.2.query = task.query
  fetched : ∀ resp, task.fetched = some resp → result.2.fetched = some resp
  sound : Sound settings result.2
  effect : CacheEffect settings task c result.1

section TaskSteps

variable {settings : Settings} {state : DnsServiceState} {task : Task} {m : Moment}

theorem sameBounds_refl (c : DnsCache) : SameBounds c c := ⟨rfl, rfl, rfl⟩

theorem kept_refl (c : DnsCache) : CacheEffect settings task c c :=
  .kept (sameBounds_refl c) fun _ _ => id

theorem kept_get (c : DnsCache) (domain : Str) (qtype : QueryType) (now₁ now₂ : Nat) :
    CacheEffect settings task c (c.get domain qtype now₁ now₂).2 :=
  .kept ⟨c.cap_get .., (c.bounds_get ..).1, (c.bounds_get ..).2⟩ fun _ _ => DnsCache.lookup_get

/-- What a task does to the cache with an answer that it fetched. -/
theorem effect_store {question : DnsQuestion} {resp : List UInt8} {packet : DnsPacket} (c : DnsCache)
    (ha : Admitted settings.initial task.query packet question) (hf : task.fetched = some resp) :
    CacheEffect settings task c (store m.env question resp c).1 := by
  rcases store_cases m question resp c with ⟨p, e, c', hp, he, hstore, hc, hmin, hmax⟩ | ⟨hsame, -⟩
  · rw [hstore]
    refine .filled ⟨?_, hmin, hmax⟩ hf (he ▸ hp) ha hc
    rw [hc, Lru.cap_put]
  · rw [hsame]
    exact kept_refl c

/-- An answer that a task builds itself ends a task that has fetched nothing. -/
theorem sound_answer {resp : List UInt8} (h : task.fetched = none) :
    Sound settings (task.answer m resp) := by
  have hended : ∃ ending, (task.answer m resp).phase = .ended ending := by
    unfold Task.answer
    cases task.transport <;> exact ⟨_, rfl⟩
  obtain ⟨ending, hending⟩ := hended
  unfold Sound
  rw [hending]
  intro resp' hf
  cases h.symm.trans hf

theorem stepped_begun (hfilter : state.filter = settings.filter) (hp : task.phase = .begun)
    (hs : Sound settings task) : Stepped settings state.cache task (task.step state m) := by
  obtain ⟨t, query, phase, fetched, reply⟩ := task
  obtain rfl : phase = .begun := hp
  obtain ⟨rfl, rfl⟩ : fetched = none ∧ reply = none := hs
  have hend : ∀ ending, Stepped settings state.cache ⟨t, query, .begun, none, none⟩
      (state.cache, ⟨t, query, .ended ending, none, none⟩) := fun ending =>
    ⟨rfl, fun _ h => h, (fun _ h => nomatch h), kept_refl _⟩
  unfold Task.step
  dsimp only
  rcases hparse : DnsPacket.parse query with packet | e | _
  · dsimp only
    rcases hq : packet.questions.head? with _ | question
    · exact hend _
    · dsimp only
      have hopen : (∀ rule, state.filter.evaluate question.name ≠ .Blocked rule) →
          ∀ rule, settings.initial.filter.evaluate question.name ≠ .Blocked rule := fun h => by
        rw [hfilter] at h
        exact h
      have hadmit : (∀ rule, state.filter.evaluate question.name ≠ .Blocked rule) →
          Stepped settings state.cache ⟨t, query, .begun, none, none⟩
            (state.cache, ⟨t, query, .admitted packet question, none, none⟩) := fun h =>
        ⟨rfl, fun _ h => h, ⟨⟨hparse, hq, hopen h⟩, rfl, rfl⟩, kept_refl _⟩
      rcases he : state.filter.evaluate question.name with _ | rule | rule
      · exact hadmit (by simp [he])
      · exact hadmit (by simp [he])
      · exact ⟨rfl, fun _ h => h, sound_answer rfl, kept_refl _⟩
  · exact hend _
  · exact hend _

theorem stepped_admitted {packet : DnsPacket} {question : DnsQuestion}
    (hp : task.phase = .admitted packet question) (hs : Sound settings task) :
    Stepped settings state.cache task (task.step state m) := by
  obtain ⟨t, query, phase, fetched, reply⟩ := task
  obtain rfl : phase = .admitted packet question := hp
  obtain ⟨ha, rfl, rfl⟩ : _ ∧ fetched = none ∧ reply = none := hs
  have hkept := @kept_get settings ⟨t, query, .admitted packet question, none, none⟩ state.cache
    question.name question.qtype m.now₁ m.now₂
  unfold Task.step
  dsimp only
  rcases hget : state.cache.get question.name question.qtype m.now₁ m.now₂ with
    ⟨_ | cachedResp, cache⟩
  · rw [hget] at hkept
    exact ⟨rfl, fun _ h => h, ⟨ha, rfl, rfl⟩, hkept⟩
  · rw [hget] at hkept
    exact ⟨rfl, fun _ h => h, sound_answer rfl, hkept⟩

theorem stepped_missed {packet : DnsPacket} {question : DnsQuestion}
    (hp : task.phase = .missed packet question) (hs : Sound settings task) :
    Stepped settings state.cache task (task.step state m) := by
  obtain ⟨t, query, phase, fetched, reply⟩ := task
  obtain rfl : phase = .missed packet question := hp
  obtain ⟨ha, rfl, rfl⟩ : _ ∧ fetched = none ∧ reply = none := hs
  unfold Task.step
  dsimp only
  rcases state.forwarder.forwardRaw m.net query with e | resp
  · cases t <;> exact ⟨rfl, fun _ h => h, (fun _ h => nomatch h), kept_refl _⟩
  · exact ⟨rfl, (fun _ h => nomatch h), ⟨⟨packet, ha⟩, rfl, rfl⟩, kept_refl _⟩

theorem stepped_received {question : DnsQuestion} {resp : List UInt8}
    (hp : task.phase = .received question resp) (hs : Sound settings task) :
    Stepped settings state.cache task (task.step state m) := by
  obtain ⟨t, query, phase, fetched, reply⟩ := task
  obtain rfl : phase = .received question resp := hp
  obtain ⟨⟨packet, ha⟩, rfl, rfl⟩ : _ ∧ fetched = some resp ∧ reply = none := hs
  unfold Task.step
  dsimp only
  cases t with
  | udp =>
    have heffect := @effect_store settings ⟨.udp, query, .received question resp, some resp, none⟩ m
      question resp packet state.cache ha rfl
    dsimp only
    rcases hstore : store m.env question resp state.cache with ⟨cache, _ | _ | _⟩
    · rw [hstore] at heffect
      exact ⟨rfl, fun _ h => h, ⟨rfl, rfl⟩, heffect⟩
    · rw [hstore] at heffect
      exact ⟨rfl, fun _ h => h, fun _ _ => Or.inr rfl, heffect⟩
    · rw [hstore] at heffect
      exact ⟨rfl, fun _ h => h, fun _ _ => Or.inr rfl, heffect⟩
  | tcp =>
    dsimp only
    rcases (writeFrame m.env resp).2 with _ | _
    · exact ⟨rfl, fun _ h => h, fun _ h => Or.inl h, kept_refl _⟩
    · exact ⟨rfl, fun _ h => h, ⟨⟨packet, ha⟩, rfl, rfl⟩, kept_refl _⟩

theorem stepped_stored {resp : List UInt8} (hp : task.phase = .stored resp)
    (hs : Sound settings task) : Stepped settings state.cache task (task.step state m) := by
  obtain ⟨t, query, phase, fetched, reply⟩ := task
  obtain rfl : phase = .stored resp := hp
  obtain ⟨rfl, rfl⟩ : fetched = some resp ∧ reply = none := hs
  exact ⟨rfl, fun _ h => h, fun _ h => Or.inl h, kept_refl _⟩

theorem stepped_written {question : DnsQuestion} {resp : List UInt8}
    (hp : task.phase = .written question resp) (hs : Sound settings task) :
    Stepped settings state.cache task (task.step state m) := by
  obtain ⟨t, query, phase, fetched, reply⟩ := task
  obtain rfl : phase = .written question resp := hp
  obtain ⟨⟨packet, ha⟩, rfl, rfl⟩ : _ ∧ fetched = some resp ∧ reply = some resp := hs
  exact ⟨rfl, fun _ h => h, fun _ h => Or.inl h, effect_store state.cache ha rfl⟩

/-- The spec of a step, phase by phase. -/
theorem stepped (hfilter : state.filter = settings.filter) (hs : Sound settings task) :
    Stepped settings state.cache task (task.step state m) := by
  cases hp : task.phase with
  | begun => exact stepped_begun hfilter hp hs
  | admitted packet question => exact stepped_admitted hp hs
  | missed packet question => exact stepped_missed hp hs
  | received question resp => exact stepped_received hp hs
  | stored resp => exact stepped_stored hp hs
  | written question resp => exact stepped_written hp hs
  | ended ending =>
    have hsame : task.step state m = (state.cache, task) := by
      unfold Task.step
      rw [hp]
    rw [hsame]
    exact ⟨rfl, fun _ h => h, hs, kept_refl _⟩

/-! ## Answers -/

/-- A task that fetched an answer and has ended has sent it. -/
def Task.Answered (task : Task) : Prop :=
  ∀ resp, task.fetched = some resp → task.Ended → task.reply = some resp

/-- The next step of the task does not insert, over UDP, an answer that the parser panics on. -/
def Task.Unharmed (task : Task) : Prop :=
  ∀ question resp, task.phase = .received question resp → task.transport = .udp → ¬ TxtOverrun resp

theorem Task.answered_of_open (h : ∀ ending, task.phase ≠ .ended ending) : task.Answered := by
  rintro resp - ⟨ending, he⟩
  exact absurd he (h ending)

theorem Task.answered_of_unfetched (h : task.fetched = none) : task.Answered := by
  intro resp hf
  cases h.symm.trans hf

theorem Task.unharmed_of_ne (h : ∀ question resp, task.phase ≠ .received question resp) :
    task.Unharmed := fun question resp hp => absurd hp (h question resp)

/-- The step that may do harm: over UDP the insertion comes before the reply. -/
theorem answered_received {question : DnsQuestion} {resp : List UInt8}
    (hbounds : state.cache.minTtl ≤ state.cache.maxTtl) (hp : task.phase = .received question resp)
    (hs : Sound settings task) : (task.step state m).2.Answered ↔ task.Unharmed := by
  obtain ⟨t, query, phase, fetched, reply⟩ := task
  obtain rfl : phase = .received question resp := hp
  obtain ⟨-, rfl, rfl⟩ : _ ∧ fetched = some resp ∧ reply = none := hs
  unfold Task.step
  dsimp only
  cases t with
  | udp =>
    have hstore := @store_ending m.env question resp state.cache
    generalize store m.env question resp state.cache = stored at hstore ⊢
    obtain ⟨cache, ending⟩ := stored
    have hpanic : ending ≠ .returned ↔ TxtOverrun resp := by
      refine hstore.trans (or_iff_left ?_)
      rintro ⟨p, -, hlt⟩
      exact absurd hlt (Nat.not_lt.2 hbounds)
    have hharmed : ending ≠ .returned →
        ¬ Task.Unharmed ⟨.udp, query, .received question resp, some resp, none⟩ := fun hne h =>
      h question resp rfl rfl (hpanic.1 hne)
    cases ending with
    | returned =>
      refine iff_of_true (Task.answered_of_open (by simp)) ?_
      intro question' resp' hp _ ho
      cases hp
      exact hpanic.2 ho rfl
    | failed => exact iff_of_false (fun h => nomatch h resp rfl ⟨_, rfl⟩) (hharmed (by simp))
    | panicked => exact iff_of_false (fun h => nomatch h resp rfl ⟨_, rfl⟩) (hharmed (by simp))
  | tcp =>
    refine iff_of_true ?_ (fun _ _ _ ht => nomatch ht)
    dsimp only
    split
    · exact Task.answered_of_open (by simp)
    · intro resp' hf _
      exact hf

/-- A step leaves a task answered exactly if it is unharmed. -/
theorem answered_step_iff (hbounds : state.cache.minTtl ≤ state.cache.maxTtl)
    (hs : Sound settings task) (ha : task.Answered) :
    (task.step state m).2.Answered ↔ task.Unharmed := by
  obtain ⟨t, query, phase, fetched, reply⟩ := task
  cases phase with
  | received question resp => exact answered_received hbounds rfl hs
  | begun =>
    obtain ⟨rfl, rfl⟩ : fetched = none ∧ reply = none := hs
    refine iff_of_true (Task.answered_of_unfetched ?_) (Task.unharmed_of_ne (by simp))
    unfold Task.step
    dsimp only
    split
    · rfl
    · rfl
    · split
      · rfl
      · split <;> rfl
  | admitted packet question =>
    obtain ⟨-, rfl, rfl⟩ : _ ∧ fetched = none ∧ reply = none := hs
    refine iff_of_true (Task.answered_of_unfetched ?_) (Task.unharmed_of_ne (by simp))
    unfold Task.step
    dsimp only
    split <;> rfl
  | missed packet question =>
    obtain ⟨-, rfl, rfl⟩ : _ ∧ fetched = none ∧ reply = none := hs
    refine iff_of_true ?_ (Task.unharmed_of_ne (by simp))
    unfold Task.step
    dsimp only
    split
    · exact Task.answered_of_open (by simp)
    · refine Task.answered_of_unfetched ?_
      cases t <;> rfl
  | stored resp =>
    obtain ⟨rfl, rfl⟩ : fetched = some resp ∧ reply = none := hs
    exact iff_of_true (fun _ hf _ => hf) (Task.unharmed_of_ne (by simp))
  | written question resp =>
    obtain ⟨-, rfl, rfl⟩ : _ ∧ fetched = some resp ∧ reply = some resp := hs
    exact iff_of_true (fun _ hf _ => hf) (Task.unharmed_of_ne (by simp))
  | ended ending => exact iff_of_true ha (Task.unharmed_of_ne (by simp))

end TaskSteps

/-! ## Steps of the system -/

/-- The step leaves every task unharmed. -/
def Unharmed (s : System) : Action → Prop
  | .spawn _ _ => True
  | .act i _ => ∀ task, s.tasks[i]? = some task → task.Unharmed

theorem step_act_none {s : System} {i : Nat} (h : s.tasks[i]? = none) (m : Moment) :
    s.step (.act i m) = s := by
  unfold System.step
  dsimp only
  rw [h]

theorem step_act_some {s : System} {i : Nat} {task : Task} (h : s.tasks[i]? = some task)
    (m : Moment) :
    s.step (.act i m) = ⟨{ s.state with cache := (task.step s.state m).1 },
      s.tasks.set i (task.step s.state m).2⟩ := by
  unfold System.step
  dsimp only
  rw [h]

/-- A task that is replaced by one with its query, and with what it fetched, is still a source. -/
theorem Sourced.set {settings : Settings} {tasks : List Task} {i : Nat} {task task' : Task}
    {k : Str × QueryType} {e : CachedResponse} (h : Sourced settings tasks k e)
    (hi : tasks[i]? = some task) (hquery : task'.query = task.query)
    (hfetched : ∀ resp, task.fetched = some resp → task'.fetched = some resp) :
    Sourced settings (tasks.set i task') k e := by
  obtain ⟨source, hmem, resp, packet, question, hf, hp, ha, hk⟩ := h
  obtain ⟨j, hj⟩ := List.mem_iff_getElem?.1 hmem
  by_cases hij : i = j
  · subst hij
    cases hi.symm.trans hj
    have hlt := (List.getElem?_eq_some_iff.1 hi).1
    exact ⟨task', List.mem_set hlt task', resp, packet, question, hfetched resp hf, hp,
      hquery ▸ ha, hk⟩
  · refine ⟨source, List.mem_iff_getElem?.2 ⟨j, ?_⟩, resp, packet, question, hf, hp, ha, hk⟩
    rw [List.getElem?_set_ne hij]
    exact hj

theorem invariant_step {settings : Settings} (s : System) (a : Action) (h : Invariant settings s) :
    Invariant settings (s.step a) := by
  cases a with
  | spawn transport query =>
    refine ⟨h.filter, h.cap, h.bounds, ?_, ?_⟩
    · intro task htask
      rcases List.mem_append.1 htask with hmem | hmem
      · exact h.tasks task hmem
      · obtain rfl := List.mem_singleton.1 hmem
        exact ⟨rfl, rfl⟩
    · intro k e he
      obtain ⟨source, hmem, hsource⟩ := h.entries k e he
      exact ⟨source, List.mem_append_left _ hmem, hsource⟩
  | act i m =>
    cases hi : s.tasks[i]? with
    | none =>
      rw [step_act_none hi]
      exact h
    | some task =>
      rw [step_act_some hi]
      have hmem := List.mem_of_getElem? hi
      have hs := stepped (m := m) h.filter (h.tasks task hmem)
      have hbounds : SameBounds s.state.cache (task.step s.state m).1 := by
        cases hs.effect with
        | kept hb => exact hb
        | filled hb => exact hb
      refine ⟨h.filter, hbounds.cap.trans h.cap, ?_, ?_, ?_⟩
      · show (task.step s.state m).1.minTtl ≤ (task.step s.state m).1.maxTtl
        rw [hbounds.minTtl, hbounds.maxTtl]
        exact h.bounds
      · intro task' htask'
        rcases List.mem_or_eq_of_mem_set htask' with hmem' | rfl
        · exact h.tasks task' hmem'
        · exact hs.sound
      · intro k e he
        cases hs.effect with
        | kept _ hkept => exact (h.entries k e (hkept k e he)).set hi hs.query hs.fetched
        | @filled resp packet question e' _ hf hp ha hput =>
          rw [hput] at he
          rcases Lru.lookup_put he with ⟨rfl, rfl⟩ | ⟨-, hold⟩
          · have hlt := (List.getElem?_eq_some_iff.1 hi).1
            exact ⟨_, List.mem_set hlt _, resp, packet, question, hs.fetched resp hf, hp,
              hs.query ▸ ha, rfl⟩
          · exact (h.entries k e hold).set hi hs.query hs.fetched

/-- Every run keeps the invariant. -/
theorem invariant_foldl (settings : Settings) (actions : List Action) :
    Invariant settings (actions.foldl System.step (System.start settings)) :=
  Along.invariant (invariant_start settings) (fun s a h _ => invariant_step s a h)
    (along_of_forall fun _ _ => trivial)

/-- A step leaves all tasks answered exactly if it leaves every task unharmed. -/
theorem answered_iff {settings : Settings} (s : System) (a : Action) (h : Invariant settings s)
    (ha : ∀ task ∈ s.tasks, task.Answered) :
    (∀ task ∈ (s.step a).tasks, task.Answered) ↔ Unharmed s a := by
  cases a with
  | spawn transport query =>
    refine iff_of_true ?_ trivial
    intro task htask
    rcases List.mem_append.1 htask with hmem | hmem
    · exact ha task hmem
    · obtain rfl := List.mem_singleton.1 hmem
      intro resp hf
      cases hf
  | act i m =>
    cases hi : s.tasks[i]? with
    | none =>
      rw [step_act_none hi]
      refine iff_of_true ha ?_
      intro task htask
      cases hi.symm.trans htask
    | some task =>
      rw [step_act_some hi]
      have hmem := List.mem_of_getElem? hi
      have hiff := answered_step_iff (m := m) h.bounds (h.tasks task hmem) (ha task hmem)
      have hlt := (List.getElem?_eq_some_iff.1 hi).1
      constructor
      · intro hall task' htask'
        cases hi.symm.trans htask'
        exact hiff.1 (hall _ (List.mem_set hlt _))
      · intro hun task' htask'
        rcases List.mem_or_eq_of_mem_set htask' with hmem' | rfl
        · exact ha task' hmem'
        · exact hiff.2 (hun task hi)

/-! ## Consistency -/

/-- What a state reached by concurrent tasks ought to be like. -/
structure Consistent (settings : Settings) (s : System) : Prop where
  /-- An entry is the parsed answer of some task's own `forward_raw`, under the lower-cased name
      and the type of that task's first question. -/
  entries : ∀ n t e, s.state.cache.cache.lookup (n, t) = some e →
    ∃ task ∈ s.tasks, ∃ resp packet question, task.fetched = some resp ∧
      DnsPacket.parse resp = .ok e.packet ∧ DnsPacket.parse task.query = .ok packet ∧
      packet.questions.head? = some question ∧ n = toLowercase question.name ∧ t = question.qtype
  unblocked : ∀ n t e, s.state.cache.cache.lookup (n, t) = some e →
    ¬ IsBlocked (settings.filter.evaluate n)
  capacity : s.state.cache.len ≤ settings.capacity
  /-- A task that fetched an answer replies with no other bytes. -/
  own : ∀ task ∈ s.tasks, ∀ resp, task.fetched = some resp →
    ∀ reply, task.reply = some reply → reply = resp
  answered : ∀ task ∈ s.tasks, task.Answered

/-- The names of decoded questions are in lower case. -/
theorem toLowercase_question {b : List UInt8} {packet : DnsPacket} {question : DnsQuestion}
    (hp : DnsPacket.parse b = .ok packet) (hq : packet.questions.head? = some question) :
    toLowercase question.name = question.name := by
  obtain ⟨_, -, -, -, -, -, _, _, _, hqs, -⟩ := parse_ok.1 hp
  obtain ⟨_, _, _, hname, -⟩ := hqs.exists_of_mem (List.mem_of_mem_head? hq)
  exact toLowercase_of_settled (settled_of_read hname)

theorem Sound.own {settings : Settings} {task : Task} (h : Sound settings task) {resp : List UInt8}
    (hf : task.fetched = some resp) : task.reply = some resp ∨ task.reply = none := by
  unfold Sound at h
  split at h
  · exact Or.inr h.2
  · exact Or.inr h.2.2
  · exact Or.inr h.2.2
  · exact Or.inr h.2.2
  · exact Or.inr h.2
  · obtain ⟨-, hf', hr⟩ := h
    cases hf.symm.trans hf'
    exact Or.inl hr
  · exact h resp hf

theorem consistent_of_invariant {settings : Settings} {s : System} (h : Invariant settings s) :
    Consistent settings s ↔ ∀ task ∈ s.tasks, task.Answered := by
  refine ⟨Consistent.answered, fun hanswered => ⟨?_, ?_, ?_, ?_, hanswered⟩⟩
  · intro n t e he
    obtain ⟨task, hmem, resp, packet, question, hf, hp, ha, hk⟩ := h.entries _ e he
    cases hk
    exact ⟨task, hmem, resp, packet, question, hf, hp, ha.parse, ha.head, rfl, rfl⟩
  · intro n t e he
    obtain ⟨task, hmem, resp, packet, question, hf, hp, ha, hk⟩ := h.entries _ e he
    cases hk
    rw [toLowercase_question ha.parse ha.head]
    rintro ⟨rule, hb⟩
    exact ha.allowed rule hb
  · rw [← h.cap]
    exact s.state.cache.cache.len_le
  · intro task hmem resp hf reply hr
    rcases (h.tasks task hmem).own hf with hown | hnone
    · cases hr.symm.trans hown
      rfl
    · cases hr.symm.trans hnone

/-- For any number of tasks over UDP and TCP and any interleaving of their steps, with any
    upstreams, clocks and failing writes: the run is consistent in every state exactly if no
    step of it inserts, over UDP, an answer on which the parser panics. -/
theorem consistent_iff (settings : Settings) (actions : List Action) :
    (∀ pre, pre <+: actions → Consistent settings (pre.foldl System.step (System.start settings))) ↔
      Along System.step Unharmed (System.start settings) actions := by
  rw [← forall_prefix_iff_along (invariant_start settings) (fun _ h => absurd h List.not_mem_nil)
    (fun s a h => invariant_step s a h) answered_iff]
  refine forall₂_congr fun pre _ => ?_
  exact consistent_of_invariant (invariant_foldl settings pre)

/-- A task asks for `a` over UDP and takes four steps; the upstream answers with a `TXT` string
    that runs past the end. -/
def overrunActions : List Action :=
  .spawn .udp (ask 1 1 0) :: List.replicate 4 (.act 0
    ⟨fun _ => ⟨fun _ => .received overrunningReply, fun _ => .timedOut⟩, 0, 0, 0, none, none⟩)

/-- The task has an answer from upstream and ends without a reply. -/
theorem not_consistent_overrunActions :
    ¬ Consistent openSettings (overrunActions.foldl System.step (System.start openSettings)) := by
  intro h
  have htasks : (overrunActions.foldl System.step (System.start openSettings)).tasks =
      [⟨.udp, ask 1 1 0, .ended .panicked, some overrunningReply, none⟩] := by
    decide +kernel
  have ha := h.answered _ (by rw [htasks]; exact List.mem_singleton_self _)
  cases ha overrunningReply rfl ⟨_, rfl⟩

end VantaDns.Service
