/-
  DNS messages (`protocol/mod.rs`): `DnsPacket::parse`, `DnsPacket::to_bytes` and
  `DnsPacket::build_blocked_response`.
-/
import VantaDns.Protocol.Rr

namespace VantaDns.Protocol

open Lib Lib.Decoder

structure DnsPacket where
  header : DnsHeader
  questions : List DnsQuestion
  answers : List ResourceRecord
  authorities : List ResourceRecord
  additionals : List ResourceRecord
  deriving DecidableEq

/-- The reads of `DnsPacket::parse`, from the cursor of a fresh buffer. -/
def DnsPacket.decode : Decoder DnsError DnsPacket := do
  let header ← DnsHeader.parse
  let questions ← many DnsQuestion.parse header.qdcount.toNat
  let answers ← many ResourceRecord.parse header.ancount.toNat
  let authorities ← many ResourceRecord.parse header.nscount.toNat
  let additionals ← many ResourceRecord.parse header.arcount.toNat
  return ⟨header, questions, answers, authorities, additionals⟩

/-- `DnsPacket::parse`. -/
def DnsPacket.parse (rawBytes : List UInt8) : Outcome DnsError DnsPacket :=
  match DnsPacket.decode rawBytes 0 with
  | .ok (packet, _) => .ok packet
  | .err e => .err e
  | .panic => .panic

/-- The header with the section lengths `as u16` for its counts. -/
def DnsPacket.countedHeader (p : DnsPacket) : DnsHeader :=
  { p.header with
    qdcount := UInt16.ofNat p.questions.length
    ancount := UInt16.ofNat p.answers.length
    nscount := UInt16.ofNat p.authorities.length
    arcount := UInt16.ofNat p.additionals.length }

def DnsPacket.toBytes (p : DnsPacket) : List UInt8 :=
  p.countedHeader.writeTo ++ p.questions.flatMap DnsQuestion.writeTo ++
    p.answers.flatMap ResourceRecord.writeTo ++ p.authorities.flatMap ResourceRecord.writeTo ++
    p.additionals.flatMap ResourceRecord.writeTo

/-- The record of a blocked `A` query: 0.0.0.0 for ten seconds. -/
def blockedRecord (question : DnsQuestion) : ResourceRecord where
  name := question.name
  rtype := .A
  rclass := .IN
  ttl := 10
  rdata := .A ⟨[0, 0, 0, 0], rfl⟩

/-- `build_blocked_response`: a copy of the query marked as a response. -/
def DnsPacket.buildBlockedResponse (p : DnsPacket) (useNxdomain : Bool) : DnsPacket :=
  let header := { p.header with isResponse := true }
  if useNxdomain then
    { p with header := { header with rcode := .NXDomain } }
  else
    let header := { header with rcode := .NoError }
    match p.questions.head? with
    | some question =>
        if question.qtype = .A then
          { p with header := header, answers := p.answers ++ [blockedRecord question] }
        else { p with header := header }
    | none => { p with header := header }

end VantaDns.Protocol
