/-
  What a blocked reply contains.

  `build_blocked_response` changes a copy of the query: it sets QR and RCODE and may append
  one address. The sections of the query stay in it (`buildBlockedResponse_eq`), so the reply
  holds the block answer and nothing else exactly if the query came with no answers and no
  authorities of its own (`onlyBlockAnswer_iff`). The additional section is not looked at.
-/
import VantaDns.Protocol.Packet

namespace VantaDns.Protocol

open Lib

/-- A reply to `p` with the given code and answers, and no authorities. -/
structure RepliesWith (p reply : DnsPacket) (rcode : ResponseCode)
    (answers : List ResourceRecord → Prop) : Prop where
  isResponse : reply.header.isResponse = true
  id : reply.header.id = p.header.id
  questions : reply.questions = p.questions
  rcode : reply.header.rcode = rcode
  answers : answers reply.answers
  authorities : reply.authorities = []

/-- One address record 0.0.0.0 for the name of an `A` question, and nothing for another. -/
def NullAddress (question : DnsQuestion) (answers : List ResourceRecord) : Prop :=
  if question.qtype = .A then
    ∃ r, answers = [r] ∧ r.name = question.name ∧ r.rtype = .A ∧ r.rdata = .A (.replicate 4 0)
  else answers = []

/-- Both blocked replies hold the block answer and nothing else. -/
structure OnlyBlockAnswer (p : DnsPacket) : Prop where
  nxdomain : RepliesWith p (p.buildBlockedResponse true) .NXDomain (· = [])
  zeroIp : ∀ question, p.questions.head? = some question →
    RepliesWith p (p.buildBlockedResponse false) .NoError (NullAddress question)

/-- The answers that a blocked reply adds to those of the query. -/
def addedAnswers (p : DnsPacket) (useNxdomain : Bool) : List ResourceRecord :=
  if useNxdomain then []
  else (p.questions.head?.filter fun question => question.qtype = .A).toList.map blockedRecord

/-- A blocked reply is the query with other header bits and further answers. -/
theorem buildBlockedResponse_eq (p : DnsPacket) (useNxdomain : Bool) :
    p.buildBlockedResponse useNxdomain =
      { p with
        header := { p.header with
          isResponse := true
          rcode := if useNxdomain then .NXDomain else .NoError }
        answers := p.answers ++ addedAnswers p useNxdomain } := by
  unfold DnsPacket.buildBlockedResponse addedAnswers
  cases useNxdomain with
  | true => simp
  | false =>
    cases p.questions.head? with
    | none => simp
    | some question =>
      by_cases hq : question.qtype = .A
      · simp [hq, Option.filter]
      · simp [hq, Option.filter]

theorem repliesWith_iff (p : DnsPacket) (useNxdomain : Bool) (answers : List ResourceRecord → Prop) :
    RepliesWith p (p.buildBlockedResponse useNxdomain)
        (if useNxdomain then .NXDomain else .NoError) answers ↔
      answers (p.answers ++ addedAnswers p useNxdomain) ∧ p.authorities = [] := by
  rw [buildBlockedResponse_eq]
  constructor
  · intro h
    exact ⟨h.answers, h.authorities⟩
  · intro h
    exact ⟨rfl, rfl, rfl, rfl, h.1, h.2⟩

/-- Behind other answers the address is not the only one. -/
theorem nullAddress_iff {p : DnsPacket} {question : DnsQuestion}
    (h : p.questions.head? = some question) :
    NullAddress question (p.answers ++ addedAnswers p false) ↔ p.answers = [] := by
  unfold NullAddress addedAnswers
  rw [h]
  by_cases hq : question.qtype = .A
  · simp only [hq, Option.filter, decide_true, if_true, Bool.false_eq_true, if_false,
      Option.toList_some, List.map_cons, List.map_nil]
    constructor
    · intro h
      obtain ⟨r, heq, -⟩ := h
      have hlen := congrArg List.length heq
      rw [List.length_append, List.length_singleton, List.length_singleton] at hlen
      exact List.length_eq_zero_iff.1 (by omega)
    · intro hnil
      rw [hnil]
      exact ⟨blockedRecord question, rfl, rfl, rfl, rfl⟩
  · simp [hq, Option.filter]

/-- For every packet: the blocked replies contain only the block answer exactly if the packet
    has no answers and no authorities. -/
theorem onlyBlockAnswer_iff (p : DnsPacket) :
    OnlyBlockAnswer p ↔ p.answers = [] ∧ p.authorities = [] := by
  have hnx := repliesWith_iff p true (· = [])
  constructor
  · intro h
    obtain ⟨hanswers, hauthorities⟩ := hnx.1 h.nxdomain
    exact ⟨(List.append_eq_nil_iff.1 hanswers).1, hauthorities⟩
  · intro h
    obtain ⟨hanswers, hauthorities⟩ := h
    refine ⟨hnx.2 ⟨?_, hauthorities⟩, ?_⟩
    · rw [hanswers]
      rfl
    · intro question hq
      exact (repliesWith_iff p false (NullAddress question)).2
        ⟨(nullAddress_iff hq).2 hanswers, hauthorities⟩

/-- A query for the address of b.com that comes with an answer of its own, 1.2.3.4. -/
def answeringQuery : List UInt8 :=
  [0, 1, 1, 0, 0, 1, 0, 1, 0, 0, 0, 0] ++ [1, 98, 3, 99, 111, 109, 0, 0, 1, 0, 1] ++
    [0, 0, 1, 0, 1, 0, 0, 0, 60, 0, 4, 1, 2, 3, 4]

/-- The answer goes back to the client in the blocked reply. -/
theorem not_onlyBlockAnswer_answeringQuery :
    ∃ p, DnsPacket.parse answeringQuery = .ok p ∧ p.questions ≠ [] ∧ ¬ OnlyBlockAnswer p := by
  refine ⟨⟨⟨1, false, .Query, false, false, true, false, .NoError, 1, 1, 0, 0⟩,
    [⟨"b.com".toList, .A, .IN⟩], [⟨[], .A, .IN, 60, .A ⟨[1, 2, 3, 4], rfl⟩⟩], [], []⟩,
    by decide +kernel, List.cons_ne_nil _ _, ?_⟩
  intro h
  have hnx := h.nxdomain.answers
  revert hnx
  decide

end VantaDns.Protocol
