/-
  Which queries leave for the upstreams.

  `forwarded_iff`: a query is forwarded exactly when its first question passes the filter and
  no live entry answers it. The filter is asked about the first question only, while the bytes
  are forwarded as they came: `forwarded_unblocked_iff` says for which queries that is enough.
-/
import VantaDns.Service.Handlers

namespace VantaDns.Service

open Lib Protocol Cache VantaDns.Filter Resolver

/-- The decision is to block. -/
def IsBlocked (r : FilterResult) : Prop := ∃ rule, r = .Blocked rule

/-- The lookup of the query finds nothing to answer it with. -/
def Missed (state : DnsServiceState) (env : Env) (question : DnsQuestion) : Prop :=
  (env.beforeGet state.cache).live question.name question.qtype env.now₁ = none

theorem Route.forwarded_serve (state : DnsServiceState) (env : Env) (t : Transport)
    (route : Route) : (route.serve state env t).forwarded = true ↔
      (∃ packet question resp cache, route = .answered packet question resp cache) ∨
        ∃ packet question cache, route = .unanswered packet question cache := by
  cases route with
  | answered packet question resp cache =>
    refine iff_of_true ?_ (Or.inl ⟨_, _, _, _, rfl⟩)
    cases t with
    | udp =>
      unfold Route.serve Route.udp
      dsimp only
      split <;> rfl
    | tcp =>
      unfold Route.serve Route.tcp
      dsimp only
      split <;> rfl
  | unanswered packet question cache =>
    refine iff_of_true ?_ (Or.inr ⟨_, _, _, rfl⟩)
    cases t <;> rfl
  | _ =>
    refine iff_of_false ?_ (by simp)
    cases t <;> exact Bool.false_ne_true

theorem Admitted.unique {state : DnsServiceState} {query : List UInt8} {packet packet' : DnsPacket}
    {question question' : DnsQuestion} (h : Admitted state query packet question)
    (h' : Admitted state query packet' question') : packet = packet' ∧ question = question' := by
  have hp := h.parse
  rw [h'.parse] at hp
  cases hp
  have hq := h.head
  rw [h'.head] at hq
  cases hq
  exact ⟨rfl, rfl⟩

/-- A query is forwarded exactly when it is admitted and missed. -/
theorem forwarded_iff (t : Transport) (query : List UInt8) (state : DnsServiceState) (env : Env) :
    (serve t query state env).forwarded = true ↔
      ∃ packet question, Admitted state query packet question ∧ Missed state env question := by
  rw [serve_eq, Route.forwarded_serve]
  constructor
  · intro h
    have hr := routed query state env
    rcases h with ⟨packet, question, resp, cache, hroute⟩ | ⟨packet, question, cache, hroute⟩
    · rw [hroute] at hr
      cases hr with
      | answered ha hm _ => exact ⟨packet, question, ha, hm⟩
    · rw [hroute] at hr
      cases hr with
      | unanswered ha hm _ => exact ⟨packet, question, ha, hm⟩
  · intro h
    obtain ⟨packet, question, ha, hm⟩ := h
    rcases hf : state.forwarder.forwardRaw env.net query with e | resp
    · exact Or.inr ⟨packet, question, _, routeOf_unanswered ha hm hf⟩
    · exact Or.inl ⟨packet, question, resp, _, routeOf_answered ha hm hf⟩

/-- What is forwarded asks for no blocked name exactly if, of every query that is admitted and
    missed, none of the questions behind the first is blocked. -/
theorem forwarded_unblocked_iff (t : Transport) (query : List UInt8) (state : DnsServiceState)
    (env : Env) :
    ((serve t query state env).forwarded = true → ∀ packet, DnsPacket.parse query = .ok packet →
        ∀ q ∈ packet.questions, ¬ IsBlocked (state.filter.evaluate q.name)) ↔
      ∀ packet question, Admitted state query packet question → Missed state env question →
        ∀ q ∈ packet.questions.tail, ¬ IsBlocked (state.filter.evaluate q.name) := by
  rw [forwarded_iff]
  constructor
  · intro h packet question ha hm q hq
    exact h ⟨packet, question, ha, hm⟩ packet ha.parse q (List.mem_of_mem_tail hq)
  · rintro h ⟨packet, question, ha, hm⟩ packet' hp q hq
    have heq := ha.parse
    rw [hp] at heq
    cases heq
    obtain ⟨tail, htail⟩ := List.head?_eq_some_iff.1 ha.head
    rw [htail] at hq
    rcases List.mem_cons.1 hq with rfl | hq
    · rintro ⟨rule, hb⟩
      exact ha.allowed rule hb
    · exact h _ question ha hm q (by rw [htail]; exact hq)

def localUpstream : UpstreamEntry := ⟨.V4 ⟨[127, 0, 0, 1], rfl⟩ 5335, .Udp⟩

/-- A service that blocks b.com, with one upstream over UDP. -/
def blockingState : DnsServiceState where
  cache := .new 16 60 86400
  forwarder := ⟨[localUpstream]⟩
  filter := loaded [.blocklistRule "||b.com^".toList]
  blockMode := "nxdomain".toList

/-- No other task, no failing write, and upstreams that do not answer. -/
def silentEnv : Env where
  net _ := ⟨fun _ => .timedOut, fun _ => .timedOut⟩
  now₁ := 0
  now₂ := 0
  insertTime := 0
  beforeGet := id
  beforeInsert := id
  prefixFault := none
  payloadFault := none

/-- A query with two questions: a.com and b.com, both for addresses. -/
def twoQuestions : List UInt8 :=
  [0, 1, 1, 0, 0, 2, 0, 0, 0, 0, 0, 0] ++
    [1, 97, 3, 99, 111, 109, 0, 0, 1, 0, 1] ++ [1, 98, 3, 99, 111, 109, 0, 0, 1, 0, 1]

/-- Both handlers forward the question for b.com behind the one for a.com. -/
theorem forwarded_twoQuestions :
    (∀ t, (serve t twoQuestions blockingState silentEnv).forwarded = true) ∧
      ∃ packet, DnsPacket.parse twoQuestions = .ok packet ∧
        ∃ q ∈ packet.questions, IsBlocked (blockingState.filter.evaluate q.name) := by
  refine ⟨?_, ⟨⟨1, false, .Query, false, false, true, false, .NoError, 2, 0, 0, 0⟩,
    [⟨"a.com".toList, .A, .IN⟩, ⟨"b.com".toList, .A, .IN⟩], [], [], []⟩, by decide +kernel,
    ⟨"b.com".toList, .A, .IN⟩, by decide, "b.com".toList, by decide +kernel⟩
  intro t
  cases t <;> decide +kernel

end VantaDns.Service
