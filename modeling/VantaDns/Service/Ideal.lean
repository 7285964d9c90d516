/-
  The service with a memory in the place of its cache.

  In `Ideal` tasks take the steps that they take in `System`, but what they look up and insert
  goes to a `Memory`: nothing is dropped for want of room, and what a name and type is answered
  with is what some task stored for it last, as long as its lifetime has not passed.

  `tasks_eq_ideal`: as long as no more names and types are asked for than the cache has room
  for, and the clock does not go back, the tasks of the service are those of the ideal one, in
  any interleaving: they have the same replies, and ask the upstreams for the same.
-/
import VantaDns.Service.Shared

namespace VantaDns.Service

open Lib Protocol Cache VantaDns.Filter Resolver

structure Ideal where
  memory : Memory
  tasks : List Task

def Ideal.start : Ideal := ⟨fun _ => none, []⟩

def Ideal.step (settings : Settings) (s : Ideal) : Action → Ideal
  | .spawn transport query => { s with tasks := s.tasks ++ [Task.start transport query] }
  | .act i m =>
    match s.tasks[i]? with
    | none => s
    | some task =>
      let find := s.memory.find settings.minTtlSecs settings.maxTtlSecs
      ⟨(task.calls m).foldl Memory.step s.memory, s.tasks.set i (task.resume settings find m)⟩

/-- The name and type a query asks for, as the cache knows them. -/
def askedKey (query : List UInt8) : Option Key :=
  match DnsPacket.parse query with
  | .ok packet => packet.questions.head?.map fun q => DnsCache.key q.name q.qtype
  | _ => none

def Action.asked : Action → Option Key
  | .spawn _ query => askedKey query
  | .act _ _ => none

/-- The names and types that the queries of a run ask for. -/
def askedKeys (actions : List Action) : Finset Key := (actions.filterMap Action.asked).toFinset

theorem Admitted.askedKey {state : DnsServiceState} {query : List UInt8} {packet : DnsPacket}
    {question : DnsQuestion} (h : Admitted state query packet question) :
    askedKey query = some (DnsCache.key question.name question.qtype) := by
  unfold Service.askedKey
  rw [h.parse]
  dsimp only
  rw [h.head]
  rfl

section Refinement

variable {settings : Settings} {keys : Finset Key}

/-- Every query asks for one of the keys, or for nothing. -/
def AsksFor (keys : Finset Key) (task : Task) : Prop := ∀ k, askedKey task.query = some k → k ∈ keys

/-- The calls of a task are about what it asks for. -/
theorem key_of_calls {task : Task} {m : Moment} (hs : Sound settings task)
    (ha : AsksFor keys task) : ∀ op ∈ task.calls m, ∀ k, op.key = some k → k ∈ keys := by
  have hfill : ∀ question resp, (∃ packet, Admitted settings.initial task.query packet question) →
      ∀ op ∈ fillOps question resp m.insertTime, ∀ k, op.key = some k → k ∈ keys := by
    intro question resp hadmitted op hop k hk
    obtain ⟨packet, hadmitted⟩ := hadmitted
    unfold fillOps at hop
    split at hop
    · rw [List.mem_singleton.1 hop] at hk
      obtain rfl := Option.some.inj hk
      exact ha _ hadmitted.askedKey
    · exact absurd hop List.not_mem_nil
  obtain ⟨t, query, phase, fetched, reply⟩ := task
  match phase with
  | .admitted packet question =>
    intro op hop k hk
    rw [List.mem_singleton.1 hop] at hk
    obtain rfl := Option.some.inj hk
    exact ha _ (Admitted.askedKey hs.1)
  | .received question resp =>
    match t with
    | .udp => exact hfill question resp hs.1
    | .tcp => exact fun op hop => absurd hop List.not_mem_nil
  | .written question resp => exact hfill question resp hs.1
  | .begun => exact fun op hop => absurd hop List.not_mem_nil
  | .missed packet question => exact fun op hop => absurd hop List.not_mem_nil
  | .stored resp => exact fun op hop => absurd hop List.not_mem_nil
  | .ended ending => exact fun op hop => absurd hop List.not_mem_nil

theorem roomy_foldl {w : Watched} {memory : Memory} {ops : List Op}
    (h : Roomy settings.capacity settings.minTtlSecs settings.maxTtlSecs keys w memory)
    (horder : Along Watched.step InOrder w ops) (hops : ∀ op ∈ ops, ∀ k, op.key = some k → k ∈ keys) :
    Roomy settings.capacity settings.minTtlSecs settings.maxTtlSecs keys (ops.foldl Watched.step w)
      (ops.foldl Memory.step memory) :=
  Along.simulation h (fun _ _ op h hop => roomy_step settings.ttl_le op h hop.1 hop.2)
    (along_and.2 ⟨horder, along_of_mem fun _ op hop => hops op hop⟩)

/-- A lookup of a task in the cache finds what one in the memory finds. -/
theorem resume_eq {c : DnsCache} {w : Watched} {memory : Memory} {task : Task} {m : Moment}
    (h : Roomy settings.capacity settings.minTtlSecs settings.maxTtlSecs keys w memory)
    (hroom : keys.card ≤ settings.capacity) (hcache : w.cache = c)
    (horder : Along Watched.step InOrder w (task.calls m)) (hs : Sound settings task)
    (ha : AsksFor keys task) :
    task.resume settings (find c) m =
      task.resume settings (memory.find settings.minTtlSecs settings.maxTtlSecs) m := by
  have hkeys := key_of_calls (m := m) hs ha
  obtain ⟨t, query, phase, fetched, reply⟩ := task
  match phase with
  | .admitted packet question =>
    rw [resume_admitted rfl, resume_admitted rfl]
    have hfind : find c question.name question.qtype m.now₁ m.now₂ =
        memory.find settings.minTtlSecs settings.maxTtlSecs question.name question.qtype m.now₁
          m.now₂ := by
      rw [← effectiveCap_capacity] at hroom
      unfold find
      rw [← hcache]
      exact h.find_eq hroom m.now₂ horder.1 (hkeys _ List.mem_cons_self _ rfl)
    rw [hfind]
  | .begun => rfl
  | .missed packet question => rfl
  | .received question resp => rfl
  | .stored resp => rfl
  | .written question resp => rfl
  | .ended ending => rfl

/-- The service and the ideal one after the same run. -/
structure Refines (settings : Settings) (keys : Finset Key) (s : System) (w : Watched) (t : Ideal) :
    Prop where
  common : Common settings s
  cache : w.cache = s.state.cache
  roomy : Roomy settings.capacity settings.minTtlSecs settings.maxTtlSecs keys w t.memory
  tasks : s.tasks = t.tasks
  asked : ∀ task ∈ s.tasks, AsksFor keys task

theorem refines_start : Refines settings keys (System.start settings)
    (.start settings.capacity settings.minTtlSecs settings.maxTtlSecs) .start :=
  ⟨common_start settings, rfl, roomy_start keys, rfl, fun _ h => absurd h List.not_mem_nil⟩

theorem refines_step {s : System} {w : Watched} {t : Ideal} (a : Action)
    (h : Refines settings keys s w t) (hroom : keys.card ≤ settings.capacity)
    (horder : Along Watched.step InOrder w (s.calls a)) (ha : ∀ k, a.asked = some k → k ∈ keys) :
    Refines settings keys (s.step a) ((s.calls a).foldl Watched.step w) (t.step settings a) := by
  match a with
  | .spawn transport query =>
    refine ⟨common_step s _ h.common, h.cache, h.roomy, ?_, ?_⟩
    · show s.tasks ++ _ = t.tasks ++ _
      rw [h.tasks]
    · intro task htask
      rcases List.mem_append.1 htask with hmem | hmem
      · exact h.asked task hmem
      · rw [List.mem_singleton.1 hmem]
        exact ha
  | .act i m =>
    have hcommon := common_step s (.act i m) h.common
    have hcache : ((s.calls (.act i m)).foldl Watched.step w).cache =
        (s.step (.act i m)).state.cache := by
      rw [Cache.foldl_cache, h.cache, cache_step h.common]
    unfold System.calls Ideal.step at *
    dsimp only at *
    rw [← h.tasks]
    match hi : s.tasks[i]? with
    | none =>
      rw [hi] at hcache
      rw [step_act_none hi]
      exact h
    | some task =>
      rw [hi] at hcache horder
      have hmem := List.mem_of_getElem? hi
      have hsound := h.common.invariant.tasks task hmem
      have hasks := h.asked task hmem
      have hstep : (s.step (.act i m)).tasks = s.tasks.set i
          (task.resume settings (t.memory.find settings.minTtlSecs settings.maxTtlSecs) m) := by
        rw [step_act_some hi, h.common.step_eq]
        dsimp only
        rw [resume_eq h.roomy hroom h.cache horder hsound hasks]
      refine ⟨hcommon, hcache, roomy_foldl h.roomy horder (key_of_calls hsound hasks), hstep, ?_⟩
      intro task' htask'
      rw [step_act_some hi] at htask'
      rcases List.mem_or_eq_of_mem_set htask' with hold | rfl
      · exact h.asked task' hold
      · unfold AsksFor
        rw [(query_step task s.state m).1]
        exact hasks

end Refinement

/-- While no more names and types are asked for than the cache has room for, and the clock does
    not go back from one call of the cache to the next, the tasks are those of the ideal
    service. -/
theorem tasks_eq_ideal {settings : Settings} {actions : List Action}
    (hroom : (askedKeys actions).card ≤ settings.capacity) (horder : Clocked settings actions) :
    (actions.foldl System.step (System.start settings)).tasks =
      (actions.foldl (Ideal.step settings) .start).tasks := by
  suffices h : ∀ before, before <+: actions → Refines settings (askedKeys actions)
      (before.foldl System.step (System.start settings)) (watchedAlong settings before)
      (before.foldl (Ideal.step settings) .start) from (h actions List.prefix_rfl).tasks
  intro before
  induction before using List.reverseRecOn with
  | nil => exact fun _ => refines_start
  | append_singleton before a ih =>
    intro hpre
    have hbefore := ih ((List.prefix_append before [a]).trans hpre)
    have hclocked : Clocked settings (before ++ [a]) := by
      obtain ⟨after, rfl⟩ := hpre
      exact horder.before
    unfold Clocked at hclocked
    unfold callsAlong at hclocked
    rw [outputs_concat, along_append] at hclocked
    have hwatched : watchedAlong settings (before ++ [a]) =
        ((before.foldl System.step (System.start settings)).calls a).foldl Watched.step
          (watchedAlong settings before) := by
      unfold watchedAlong callsAlong
      rw [outputs_concat, List.foldl_append]
    rw [hwatched, List.foldl_append, List.foldl_append]
    refine refines_step a hbefore hroom hclocked.2 fun k hk => ?_
    exact List.mem_toFinset.2 (List.mem_filterMap.2 ⟨a, hpre.subset (by simp), hk⟩)

/-- The second task is answered with what the first one got. -/
theorem tasks_eq_ideal_askingTwice :
    ((askingTwice ++ [Action.act 1 (denyingMoment 5)]).foldl System.step
        (System.start openSettings)).tasks =
      ((askingTwice ++ [Action.act 1 (denyingMoment 5)]).foldl (Ideal.step openSettings) .start).tasks :=
  tasks_eq_ideal (by decide +kernel) (by decide +kernel)

end VantaDns.Service
