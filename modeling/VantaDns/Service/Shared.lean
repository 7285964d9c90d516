/-
  What concurrent tasks do to the cache that they share.

  A step of a task calls the cache at most once (`Task.calls`), and the cache bears on the task
  by what a lookup finds and nothing else (`Task.resume`, `step_eq`). So in any interleaving
  the cache is that of all the calls, one after the other (`cache_foldl`), and keeps to the
  tasks together what it promises to one caller: `shared_promises`.

  A task that a lookup does not help waits to call an upstream, and does so once.
  `misses_forwarded`: the misses that the cache counts are these calls and the tasks that wait.
-/
import VantaDns.Cache.Memory
import VantaDns.Cache.Statistics
import VantaDns.Service.Progress

namespace VantaDns.Service

open Lib Protocol Cache VantaDns.Filter Resolver

/-! ## Calls -/

/-- How an answer from upstream is put into the cache: not at all if it does not parse. -/
def fillOps (question : DnsQuestion) (resp : List UInt8) (now : Nat) : List Op :=
  match DnsPacket.parse resp with
  | .ok packet => [.insert question.name question.qtype packet now]
  | _ => []

/-- What the next step of a task asks of the cache. -/
def Task.calls (task : Task) (m : Moment) : List Op :=
  match task.phase with
  | .admitted _ question => [.get question.name question.qtype m.now₁ m.now₂]
  | .received question resp =>
    match task.transport with
    | .udp => fillOps question resp m.insertTime
    | .tcp => []
  | .written question resp => fillOps question resp m.insertTime
  | _ => []

/-- The task after its next step, if `find` answers its lookup. Apart from the lookup it goes on
    as with the cache of the start. -/
def Task.resume (settings : Settings) (find : Str → QueryType → Nat → Nat → Option DnsPacket)
    (task : Task) (m : Moment) : Task :=
  match task.phase with
  | .admitted packet question =>
    match find question.name question.qtype m.now₁ m.now₂ with
    | some cachedResp => task.answer m cachedResp.toBytes
    | none => { task with phase := .missed packet question }
  | _ => (task.step settings.initial m).2

/-- A lookup in the cache. -/
def find (c : DnsCache) (domain : Str) (qtype : QueryType) (now₁ now₂ : Nat) : Option DnsPacket :=
  (c.get domain qtype now₁ now₂).1

/-- What a step of the system asks of the cache. -/
def System.calls (s : System) : Action → List Op
  | .spawn _ _ => []
  | .act i m => (s.tasks[i]?.map fun task => task.calls m).getD []

/-- The calls of a run, in their order. -/
def callsAlong (settings : Settings) (actions : List Action) : List Op :=
  outputs System.step System.calls (System.start settings) actions

/-! ## One step -/

/-- How a task ends that puts an answer into the cache. -/
def fillEnding (resp : List UInt8) : Ending :=
  match DnsPacket.parse resp with
  | .panic => .panicked
  | _ => .returned

theorem store_eq {cache : DnsCache} (hbounds : cache.minTtl ≤ cache.maxTtl) (m : Moment)
    (question : DnsQuestion) (resp : List UInt8) :
    store m.env question resp cache =
      ((fillOps question resp m.insertTime).foldl DnsCache.step cache, fillEnding resp) := by
  unfold store fillOps fillEnding
  rcases DnsPacket.parse resp with p | e | _
  · dsimp only [List.foldl, DnsCache.step]
    have hnone := @DnsCache.insert_eq_none cache question.name question.qtype p m.insertTime
    have hinsert : cache.insert question.name question.qtype p m.insertTime ≠ none :=
      fun hinsert => absurd (hnone.1 hinsert) (Nat.not_lt.2 hbounds)
    obtain ⟨cache', hcache⟩ := Option.ne_none_iff_exists'.1 hinsert
    have henv : (m.env.beforeInsert cache).insert question.name question.qtype p
        m.env.insertTime = some cache' := hcache
    simp only [henv, hcache, Option.getD_some]
  · rfl
  · rfl

theorem initial_bounds (settings : Settings) :
    settings.initial.cache.minTtl ≤ settings.initial.cache.maxTtl :=
  Nat.mul_le_mul_right _ settings.ttl_le

/-- A step of a task is its call of the cache, and what it makes of the answer. -/
theorem step_eq (settings : Settings) {cache : DnsCache} (hbounds : cache.minTtl ≤ cache.maxTtl)
    (task : Task) (m : Moment) :
    task.step { settings.initial with cache := cache } m =
      ((task.calls m).foldl DnsCache.step cache, task.resume settings (find cache) m) := by
  obtain ⟨t, query, phase, fetched, reply⟩ := task
  match phase with
  | .begun =>
    unfold Task.resume Task.calls Task.step
    dsimp only
    split
    · rfl
    · rfl
    · split
      · rfl
      · split <;> rfl
  | .admitted packet question =>
    unfold Task.resume Task.calls Task.step find
    dsimp only [List.foldl, DnsCache.step]
    rcases cache.get question.name question.qtype m.now₁ m.now₂ with ⟨_ | cachedResp, cache'⟩
    · rfl
    · rfl
  | .missed packet question =>
    unfold Task.resume Task.calls Task.step
    dsimp only
    split
    · rfl
    · split <;> rfl
  | .received question resp =>
    unfold Task.resume Task.calls Task.step
    match t with
    | .udp =>
      dsimp only
      rw [store_eq hbounds, store_eq (initial_bounds settings)]
      cases fillEnding resp <;> rfl
    | .tcp =>
      dsimp only
      split <;> rfl
  | .stored resp => rfl
  | .written question resp =>
    unfold Task.resume Task.calls Task.step
    dsimp only
    rw [store_eq hbounds, store_eq (initial_bounds settings)]
  | .ended ending => rfl

/-! ## Runs -/

section Runs

variable (settings : Settings)

/-- The invariant of the system, with nothing but the cache changed. -/
structure Common (s : System) : Prop where
  invariant : Invariant settings s
  state : s.state = { settings.initial with cache := s.state.cache }

theorem common_start : Common settings (System.start settings) :=
  ⟨invariant_start settings, rfl⟩

variable {settings}

theorem common_step (s : System) (a : Action) (h : Common settings s) :
    Common settings (s.step a) := by
  refine ⟨invariant_step s a h.invariant, ?_⟩
  match a with
  | .spawn transport query => exact h.state
  | .act i m =>
    cases hi : s.tasks[i]? with
    | none =>
      rw [step_act_none hi]
      exact h.state
    | some task =>
      rw [step_act_some hi]
      dsimp only
      rw [h.state]

theorem Common.step_eq {s : System} (h : Common settings s) (task : Task) (m : Moment) :
    task.step s.state m = ((task.calls m).foldl DnsCache.step s.state.cache,
      task.resume settings (find s.state.cache) m) := by
  have heq := Service.step_eq settings h.invariant.bounds task m
  rw [← h.state] at heq
  exact heq

theorem cache_step {s : System} (h : Common settings s) (a : Action) :
    (s.step a).state.cache = (s.calls a).foldl DnsCache.step s.state.cache := by
  match a with
  | .spawn transport query => rfl
  | .act i m =>
    unfold System.calls
    dsimp only
    cases hi : s.tasks[i]? with
    | none =>
      rw [step_act_none hi]
      rfl
    | some task =>
      rw [step_act_some hi]
      dsimp only
      rw [h.step_eq]
      rfl

variable (settings)

theorem common_foldl (actions : List Action) :
    Common settings (actions.foldl System.step (System.start settings)) :=
  Along.invariant (common_start settings) (fun s a h _ => common_step s a h)
    (along_of_forall (P := fun _ _ => True) fun _ _ => trivial)

/-- The cache of a run is that of its calls. -/
theorem cache_foldl (actions : List Action) :
    (actions.foldl System.step (System.start settings)).state.cache =
      (callsAlong settings actions).foldl DnsCache.step settings.initial.cache :=
  foldl_outputs (fun s => s.state.cache) (common_start settings) common_step
    fun _ a h => cache_step h a

/-- The calls of a run with their log. -/
def watchedAlong (actions : List Action) : Watched :=
  (callsAlong settings actions).foldl Watched.step
    (.start settings.capacity settings.minTtlSecs settings.maxTtlSecs)

/-- The clock does not go back from one call to the next. -/
def Clocked (actions : List Action) : Prop :=
  Along Watched.step InOrder (.start settings.capacity settings.minTtlSecs settings.maxTtlSecs)
    (callsAlong settings actions)

theorem watchedAlong_cache (actions : List Action) :
    (watchedAlong settings actions).cache =
      (actions.foldl System.step (System.start settings)).state.cache := by
  rw [cache_foldl]
  exact Cache.foldl_cache _ _

variable {settings}

theorem effectiveCap_capacity : DnsCache.effectiveCap settings.capacity = settings.capacity :=
  if_neg (Nat.pos_iff_ne_zero.1 settings.capacity_pos)

theorem callsAlong_append (before after : List Action) :
    callsAlong settings (before ++ after) = callsAlong settings before ++
      outputs System.step System.calls (before.foldl System.step (System.start settings)) after :=
  outputs_append

theorem Clocked.before {before after : List Action} (h : Clocked settings (before ++ after)) :
    Clocked settings before := by
  unfold Clocked at h
  rw [callsAlong_append, along_append] at h
  exact h.1

theorem Clocked.kept {actions : List Action} (h : Clocked settings actions) :
    Kept settings.capacity settings.minTtlSecs settings.maxTtlSecs
      (watchedAlong settings actions) :=
  Along.invariant (kept_start _ _ _) (kept_step settings.ttl_le) h

/-- A step of a task right after a run reads the clock in order. -/
theorem Clocked.next {before : List Action} {i : Nat} {m : Moment} {task : Task}
    (h : Clocked settings (before ++ [.act i m]))
    (hi : (before.foldl System.step (System.start settings)).tasks[i]? = some task) :
    Along Watched.step InOrder (watchedAlong settings before) (task.calls m) := by
  unfold Clocked at h
  rw [callsAlong_append, along_append] at h
  have hnext := h.2
  unfold outputs System.calls at hnext
  dsimp only at hnext
  rw [hi] at hnext
  exact (along_append.1 hnext).1

/-! ## Lookups -/

/-- The packet is an answer that a task got from upstream for the name and type of `k`. -/
def FetchedFor (tasks : List Task) (k : Key) (packet : DnsPacket) : Prop :=
  ∃ source ∈ tasks, ∃ resp asked question, source.fetched = some resp ∧
    DnsPacket.parse resp = .ok packet ∧ DnsPacket.parse source.query = .ok asked ∧
    asked.questions.head? = some question ∧ k = DnsCache.key question.name question.qtype

/-- What a task finds in the cache, when its turn comes. -/
theorem resume_admitted {task : Task} {packet : DnsPacket} {question : DnsQuestion}
    (hphase : task.phase = .admitted packet question)
    (find : Str → QueryType → Nat → Nat → Option DnsPacket) (m : Moment) :
    task.resume settings find m = match find question.name question.qtype m.now₁ m.now₂ with
      | some cachedResp => task.answer m cachedResp.toBytes
      | none => { task with phase := .missed packet question } := by
  unfold Task.resume
  rw [hphase]

/-- With the clock in order, what a task finds in the cache is the answer from upstream that was
    stored last for this name and type, by whatever task, and it is within its lifetime. It does
    find that while, of all tasks together, fewer other names and types were used since than the
    cache has room for; then it does not call an upstream. -/
theorem shared_promises {before : List Action} {i : Nat} {m : Moment} {task : Task}
    {packet : DnsPacket} {question : DnsQuestion}
    (horder : Clocked settings (before ++ [.act i m]))
    (hi : (before.foldl System.step (System.start settings)).tasks[i]? = some task)
    (hphase : task.phase = .admitted packet question) :
    let s := before.foldl System.step (System.start settings)
    let log := (watchedAlong settings before).log
    let k := DnsCache.key question.name question.qtype
    let next := (task.step s.state m).2
    (∀ reply, next.reply = some reply → ∃ answer ttl,
      Fresh settings.minTtlSecs settings.maxTtlSecs log k m.now₁ answer ∧
        FetchedFor s.tasks k answer ∧ reply = (withAnswerTtl answer ttl).toBytes) ∧
    (∀ answer, Fresh settings.minTtlSecs settings.maxTtlSecs log k m.now₁ answer →
      (usedSince log k).card < settings.capacity → ∃ ttl,
        next.reply = some (withAnswerTtl answer ttl).toBytes ∧ next.fetched = none ∧
          next.Ended) := by
  intro s log k next
  have hkept := horder.before.kept
  have hcommon := common_foldl settings before
  have hcache := watchedAlong_cache settings before
  obtain ⟨hclock, -⟩ : Along Watched.step InOrder _ [Op.get question.name question.qtype _ _] := by
    have hcalls := horder.next hi
    unfold Task.calls at hcalls
    rw [hphase] at hcalls
    exact hcalls
  have hsound := hcommon.invariant.tasks task (List.mem_of_getElem? hi)
  unfold Sound at hsound
  rw [hphase] at hsound
  obtain ⟨-, hfetched, hreply⟩ := hsound
  have hnext : next = match find s.state.cache question.name question.qtype m.now₁ m.now₂ with
      | some cachedResp => task.answer m cachedResp.toBytes
      | none => { task with phase := .missed packet question } := by
    rw [← resume_admitted hphase]
    exact congrArg Prod.snd (hcommon.step_eq task m)
  constructor
  · intro reply hr
    cases hfind : find s.state.cache question.name question.qtype m.now₁ m.now₂ with
    | none =>
      rw [hnext, hfind] at hr
      exact absurd (hreply.symm.trans hr) (by simp)
    | some cachedResp =>
      rw [hnext, hfind] at hr
      obtain rfl := Option.some.inj
        ((answer_spec task m cachedResp.toBytes).2.1.symm.trans hr)
      have hget := hfind
      unfold find at hget
      rw [← hcache] at hget
      obtain ⟨answer, ttl, hfresh, heq⟩ := fresh_of_reply hkept hget
      rw [DnsCache.get_fst] at hget
      obtain ⟨e, hlive, -⟩ := Option.map_eq_some_iff.1 hget
      have hlookup := DnsCache.lookup_of_live hlive
      have hpacket := entry_of_fresh hkept hfresh hlookup
      rw [hcache] at hlookup
      obtain ⟨source, hmem, resp, asked, first, hf, hp, ha, hk⟩ :=
        hcommon.invariant.entries _ e hlookup
      rw [hpacket] at hp
      exact ⟨answer, ttl, hfresh,
        ⟨source, hmem, resp, asked, first, hf, hp, ha.parse, ha.head, hk⟩, by rw [heq]⟩
  · intro answer hfresh hused
    rw [← effectiveCap_capacity] at hused
    obtain ⟨ttl, hget⟩ : ∃ ttl, ((watchedAlong settings before).cache.get question.name
        question.qtype m.now₁ m.now₂).1 = some (withAnswerTtl answer ttl) :=
      reply_of_fresh hkept hclock hfresh hused
    have hfind : find s.state.cache question.name question.qtype m.now₁ m.now₂ =
        some (withAnswerTtl answer ttl) := by
      unfold find
      rw [← hcache]
      exact hget
    rw [hnext, hfind]
    obtain ⟨-, hanswered, hended⟩ := answer_spec task m (withAnswerTtl answer ttl).toBytes
    refine ⟨ttl, hanswered, ?_, hended⟩
    exact hfetched

instance (actions : List Action) : Decidable (Clocked settings actions) :=
  inferInstanceAs (Decidable (Along _ _ _ _))

/-- An upstream answers that `a` has no address; the clock reads `now`. -/
def denyingMoment (now : Nat) : Moment :=
  ⟨fun _ => ⟨fun _ => .received (ask 1 0x81 0x83), fun _ => .timedOut⟩, now, now, now, none, none⟩

/-- A task asks for `a` and gets the denial; a second one asks and is admitted. -/
def askingTwice : List Action :=
  .spawn .udp (ask 1 1 0) :: List.replicate 4 (.act 0 (denyingMoment 0)) ++
    [.spawn .tcp (ask 2 1 0), .act 1 (denyingMoment 5)]

theorem shared_promises_askingTwice :
    ∃ task packet question,
      (askingTwice.foldl System.step (System.start openSettings)).tasks[1]? = some task ∧
      task.phase = .admitted packet question ∧
      let s := askingTwice.foldl System.step (System.start openSettings)
      let log := (watchedAlong openSettings askingTwice).log
      let k := DnsCache.key question.name question.qtype
      let next := (task.step s.state (denyingMoment 5)).2
      (∀ reply, next.reply = some reply → ∃ answer ttl,
        Fresh 60 86400 log k 5 answer ∧ FetchedFor s.tasks k answer ∧
          reply = (withAnswerTtl answer ttl).toBytes) ∧
      (∀ answer, Fresh 60 86400 log k 5 answer → (usedSince log k).card < 16 → ∃ ttl,
        next.reply = some (withAnswerTtl answer ttl).toBytes ∧ next.fetched = none ∧
          next.Ended) := by
  have horder : Clocked openSettings (askingTwice ++ [.act 1 (denyingMoment 5)]) := by
    decide +kernel
  have htask : (askingTwice.foldl System.step (System.start openSettings)).tasks[1]? =
      some ⟨.tcp, ask 2 1 0, .admitted
        ⟨⟨2, false, .Query, false, false, true, false, .NoError, 1, 0, 0, 0⟩,
          [⟨['a'], .A, .IN⟩], [], [], []⟩ ⟨['a'], .A, .IN⟩, none, none⟩ := by
    decide +kernel
  exact ⟨_, _, _, htask, rfl, shared_promises horder htask rfl⟩

/-! ## Calls of the upstreams -/

/-- The next step of the task calls `forward_raw`. -/
def Task.waits (task : Task) : Bool :=
  match task.phase with
  | .missed _ _ => true
  | _ => false

/-- The task that calls `forward_raw` in this step, if one does. -/
def System.forwards (s : System) : Action → List Nat
  | .spawn _ _ => []
  | .act i _ => if s.tasks[i]?.any Task.waits then [i] else []

/-- The tasks that called `forward_raw`, in the order of their calls. -/
def forwardsAlong (settings : Settings) (actions : List Action) : List Nat :=
  outputs System.step System.forwards (System.start settings) actions

theorem misses_get (c : DnsCache) (domain : Str) (qtype : QueryType) (now₁ now₂ : Nat) :
    (c.get domain qtype now₁ now₂).2.stats.misses =
      c.stats.misses + if (c.get domain qtype now₁ now₂).1 = none then 1 else 0 := by
  unfold DnsCache.get
  split
  · split
    · rfl
    · rfl
  · rfl

theorem misses_fillOps (c : DnsCache) (question : DnsQuestion) (resp : List UInt8) (now : Nat) :
    ((fillOps question resp now).foldl DnsCache.step c).stats.misses = c.stats.misses := by
  unfold fillOps
  split
  · next p hp =>
    dsimp only [List.foldl, DnsCache.step]
    cases hinsert : c.insert question.name question.qtype p now with
    | none => rfl
    | some c' => exact (Counted.stats_insert hinsert).2.1
  · rfl

theorem not_waits_of_stepsLeft {task : Task} (h : task.phase.stepsLeft < 3) :
    task.waits = false := by
  unfold Task.waits
  split
  · next packet question hp =>
    rw [hp] at h
    exact absurd h (lt_irrefl 3)
  · rfl

theorem waits_answer (task : Task) (m : Moment) (resp : List UInt8) :
    (task.answer m resp).waits = false := by
  obtain ⟨-, -, ending, hended⟩ := answer_spec task m resp
  refine not_waits_of_stepsLeft ?_
  rw [hended]
  exact Nat.zero_lt_succ 2

theorem not_waits_step_begun (t : Transport) (query : List UInt8) (fetched reply : Option (List UInt8))
    (state : DnsServiceState) (m : Moment) :
    (Task.step ⟨t, query, .begun, fetched, reply⟩ state m).2.waits = false := by
  unfold Task.step
  dsimp only
  split
  · rfl
  · rfl
  · split
    · rfl
    · split
      · exact waits_answer ..
      · rfl
      · rfl

/-- A step counts a miss exactly if the task waits after it. -/
theorem misses_step (settings : Settings) (cache : DnsCache) (task : Task) (m : Moment) :
    ((task.calls m).foldl DnsCache.step cache).stats.misses = cache.stats.misses +
      if (task.resume settings (find cache) m).waits then 1 else 0 := by
  obtain ⟨t, query, phase, fetched, reply⟩ := task
  have hlast : ∀ phase : Phase, phase.stepsLeft < 4 →
      (Task.step ⟨t, query, phase, fetched, reply⟩ settings.initial m).2.waits = false := by
    intro phase hlt
    have hle := stepsLeft_step ⟨t, query, phase, fetched, reply⟩ settings.initial m
    refine not_waits_of_stepsLeft (hle.trans_lt ?_)
    dsimp only
    omega
  match phase with
  | .begun =>
    show cache.stats.misses = cache.stats.misses + if (Task.step _ _ _).2.waits then 1 else 0
    rw [not_waits_step_begun]
    rfl
  | .admitted packet question =>
    rw [resume_admitted rfl]
    unfold find
    refine (misses_get cache question.name question.qtype m.now₁ m.now₂).trans ?_
    rcases (cache.get question.name question.qtype m.now₁ m.now₂).1 with _ | cachedResp
    · rfl
    · dsimp only
      rw [waits_answer]
      rfl
  | .missed packet question =>
    show cache.stats.misses = cache.stats.misses + if (Task.step _ _ _).2.waits then 1 else 0
    rw [hlast _ (show (Phase.missed packet question).stepsLeft < 4 from (show 3 < 4 by decide))]
    rfl
  | .received question resp =>
    show _ = cache.stats.misses + if (Task.step _ _ _).2.waits then 1 else 0
    rw [hlast _ (show (Phase.received question resp).stepsLeft < 4 from (show 2 < 4 by decide))]
    match t with
    | .udp => exact misses_fillOps cache question resp m.insertTime
    | .tcp => rfl
  | .stored resp => rfl
  | .written question resp =>
    show _ = cache.stats.misses + if (Task.step _ _ _).2.waits then 1 else 0
    rw [hlast _ (show (Phase.written question resp).stepsLeft < 4 from (show 1 < 4 by decide))]
    exact misses_fillOps cache question resp m.insertTime
  | .ended ending => rfl

/-- The misses are the calls of `forward_raw` and the tasks that are about to call it, and no
    task calls it twice. -/
structure Balanced (s : System) (calls : List Nat) : Prop where
  misses : s.state.cache.stats.misses = calls.length + s.tasks.countP Task.waits
  once : calls.Nodup
  /-- A task that called it does not wait again. -/
  past : ∀ i ∈ calls, ∃ task, s.tasks[i]? = some task ∧ task.phase.stepsLeft < 3

theorem balanced_step {s : System} {calls : List Nat} (a : Action) (h : Common settings s)
    (hbal : Balanced s calls) : Balanced (s.step a) (calls ++ s.forwards a) := by
  have hpast : ∀ i ∈ calls, ∃ task, (s.step a).tasks[i]? = some task ∧ task.phase.stepsLeft < 3 := by
    intro i hi
    obtain ⟨task, htask, hlt⟩ := hbal.past i hi
    obtain ⟨task', htask', -, -, hle⟩ := task_step htask a
    exact ⟨task', htask', by omega⟩
  match a with
  | .spawn transport query =>
    refine ⟨?_, by simpa [System.forwards] using hbal.once, by simpa [System.forwards] using hpast⟩
    show s.state.cache.stats.misses = _ + (s.tasks ++ [Task.start transport query]).countP _
    rw [List.countP_append, hbal.misses]
    simp [System.forwards, Task.start, Task.waits]
  | .act i m =>
    cases hi : s.tasks[i]? with
    | none =>
      have hnone : s.forwards (.act i m) = [] := by
        unfold System.forwards
        dsimp only
        rw [hi]
        rfl
      rw [hnone, List.append_nil, step_act_none hi]
      exact hbal
    | some task =>
      have hforwards : s.forwards (.act i m) = if task.waits then [i] else [] := by
        unfold System.forwards
        dsimp only
        rw [hi]
        rfl
      have hlt := (List.getElem?_eq_some_iff.1 hi).1
      have htask : s.tasks[i] = task := (List.getElem?_eq_some_iff.1 hi).2
      have hmisses := misses_step settings s.state.cache task m
      have hcount : (s.tasks.set i (task.resume settings (find s.state.cache) m)).countP Task.waits =
          s.tasks.countP Task.waits - (if task.waits then 1 else 0) +
            if (task.resume settings (find s.state.cache) m).waits then 1 else 0 := by
        rw [List.countP_set hlt, htask]
      rw [hforwards]
      refine ⟨?_, ?_, ?_⟩
      · rw [step_act_some hi, h.step_eq]
        dsimp only
        rw [hmisses, hbal.misses, hcount, List.length_append]
        by_cases hw : task.waits = true
        · have hpos : 0 < s.tasks.countP Task.waits :=
            List.countP_pos_iff.2 ⟨task, List.mem_of_getElem? hi, hw⟩
          rw [if_pos hw, if_pos hw, List.length_singleton]
          omega
        · rw [if_neg hw, if_neg hw, List.length_nil]
          omega
      · by_cases hw : task.waits = true
        · rw [if_pos hw, ← List.concat_eq_append]
          refine hbal.once.concat fun hmem => ?_
          obtain ⟨task', htask', hless⟩ := hbal.past i hmem
          rw [hi] at htask'
          rw [← Option.some.inj htask'] at hless
          rw [not_waits_of_stepsLeft hless] at hw
          exact absurd hw (by simp)
        · rw [if_neg hw, List.append_nil]
          exact hbal.once
      · intro j hj
        rcases List.mem_append.1 hj with hold | hnew
        · exact hpast j hold
        · by_cases hw : task.waits = true
          · rw [if_pos hw, List.mem_singleton] at hnew
            refine ⟨(task.step s.state m).2, ?_, ?_⟩
            · rw [hnew, step_act_some hi]
              exact List.getElem?_set_self hlt
            · have hle := stepsLeft_step task s.state m
              unfold Task.waits at hw
              split at hw
              · next packet question hp =>
                rw [hp] at hle
                exact hle.trans_lt (show 3 - 1 < 3 by decide)
              · exact absurd hw (by simp)
          · rw [if_neg hw] at hnew
            exact absurd hnew List.not_mem_nil

/-- In any interleaving, the misses that the cache has counted are the calls of `forward_raw`
    so far and the tasks that are about to make one; no task makes two. -/
theorem misses_forwarded (settings : Settings) (actions : List Action) :
    let s := actions.foldl System.step (System.start settings)
    s.state.cache.stats.misses =
        (forwardsAlong settings actions).length + s.tasks.countP Task.waits ∧
      (forwardsAlong settings actions).Nodup := by
  have hbal : Balanced (actions.foldl System.step (System.start settings))
      (forwardsAlong settings actions) := by
    induction actions using List.reverseRecOn with
    | nil => exact ⟨rfl, List.nodup_nil, fun i hi => absurd hi List.not_mem_nil⟩
    | append_singleton before a ih =>
      have hstep := balanced_step a (common_foldl settings before) ih
      unfold forwardsAlong
      rw [outputs_concat, List.foldl_append]
      exact hstep
  exact ⟨hbal.misses, hbal.once⟩

end Runs

end VantaDns.Service
