/-
  How long the encoding of a packet is.

  `encodedLen` adds up the parts of a packet; `length_toBytes` says that it is the number of
  bytes `to_bytes` makes of it. The lengths of records and labels that are written as `u16`
  and `u8` have no influence on it.
-/
import VantaDns.Protocol.RoundTrip

namespace VantaDns.Protocol

open Lib Lib.Utf8 Lib.Text

/-- The bytes of a name in full: two more than its text without trailing dots. -/
def nameLen (n : Str) : Nat :=
  if trimEndMatches '.' n = [] then 1 else byteLen (trimEndMatches '.' n) + 2

def ResourceData.encodedLen : ResourceData → Nat
  | .A _ => 4
  | .AAAA _ => 16
  | .CNAME cname => nameLen cname
  | .MX _ exchange => nameLen exchange + 2
  | .TXT txts => stringsLen txts
  | .Raw raw => raw.length

def DnsQuestion.encodedLen (q : DnsQuestion) : Nat := nameLen q.name + 4

def ResourceRecord.encodedLen (r : ResourceRecord) : Nat :=
  nameLen r.name + 10 + r.rdata.encodedLen

def DnsPacket.encodedLen (p : DnsPacket) : Nat :=
  12 + (p.questions.map DnsQuestion.encodedLen).sum +
    (p.records.map ResourceRecord.encodedLen).sum

theorem length_writeDomainName (n : Str) : (writeDomainName n).length = nameLen n := by
  unfold nameLen
  split
  · next h =>
    rw [writeDomainName_dots h]
    rfl
  · next h =>
    rw [writeDomainName_eq h, length_spell_joinDots (List.splitOn_ne_nil _ _), joinDots_splitOn]

theorem ResourceData.length_writeTo (d : ResourceData) : d.writeTo.length = d.encodedLen := by
  cases d with
  | A ip => exact ip.toList_length
  | AAAA ip => exact ip.toList_length
  | CNAME cname => exact length_writeDomainName cname
  | MX preference exchange =>
    rw [ResourceData.writeTo, List.length_append, length_beU16, length_writeDomainName]
    exact Nat.add_comm _ _
  | TXT txts => exact length_writeTo_txt txts
  | Raw raw => rfl

theorem DnsQuestion.length_writeTo (q : DnsQuestion) : q.writeTo.length = q.encodedLen := by
  rw [DnsQuestion.writeTo, List.length_append, List.length_append, length_beU16, length_beU16,
    length_writeDomainName]
  rfl

theorem ResourceRecord.length_writeTo_eq (r : ResourceRecord) :
    r.writeTo.length = r.encodedLen := by
  rw [r.length_writeTo, length_writeDomainName, r.rdata.length_writeTo]
  rfl

/-- The encoding of a packet has the length that its parts add up to. -/
theorem DnsPacket.length_toBytes (p : DnsPacket) : p.toBytes.length = p.encodedLen := by
  have hq : (fun q : DnsQuestion => q.writeTo.length) = DnsQuestion.encodedLen :=
    funext DnsQuestion.length_writeTo
  have hr : (fun r : ResourceRecord => r.writeTo.length) = ResourceRecord.encodedLen :=
    funext ResourceRecord.length_writeTo_eq
  unfold DnsPacket.toBytes DnsPacket.encodedLen DnsPacket.records
  simp only [List.length_append, List.length_flatMap, DnsHeader.length_writeTo, hq, hr,
    List.map_append, List.sum_append]
  omega

end VantaDns.Protocol
