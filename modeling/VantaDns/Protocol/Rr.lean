/-
  Resource records (`protocol/rr.rs`): `ResourceRecord::parse` and
  `ResourceRecord::write_to`.

  RDLENGTH is compared with the bytes left before RDATA is read, but only the `A`, `AAAA`
  and raw branches stop there: the names of `CNAME` and `MX` and the strings of `TXT` are
  read up to their own ends.
-/
import VantaDns.Protocol.Question

namespace VantaDns.Protocol

open Lib Lib.Decoder Lib.Utf8 Lib.Text

/-- An IPv4 address by its octets. -/
abbrev Ipv4Addr : Type := List.Vector UInt8 4

/-- An IPv6 address by its octets. -/
abbrev Ipv6Addr : Type := List.Vector UInt8 16

inductive ResourceData where
  | A (ip : Ipv4Addr)
  | AAAA (ip : Ipv6Addr)
  | CNAME (cname : Str)
  | MX (preference : UInt16) (exchange : Str)
  | TXT (txts : List Str)
  | Raw (raw : List UInt8)
  deriving DecidableEq

structure ResourceRecord where
  name : Str
  rtype : QueryType
  rclass : QueryClass
  ttl : UInt32
  rdata : ResourceData
  deriving DecidableEq

/-- The loop of the `TXT` branch, with its counter `read` of RDATA bytes. -/
def readTxts (rdlength read : Nat) : Decoder DnsError (List Str) :=
  if read < rdlength then do
    let len ← getU8
    let txtBuf ← copyToSlice len.toNat
    let txts ← readTxts rdlength (read + (1 + len.toNat))
    return fromUtf8Lossy txtBuf :: txts
  else pure []
termination_by rdlength - read

/-- The `match rtype { .. }` of `ResourceRecord::parse`. -/
def readRdata (rtype : QueryType) (rdlength : Nat) : Decoder DnsError ResourceData :=
  match rtype with
  | .A =>
      if rdlength = 4 then do
        let octets ← copyToArray 4
        return .A octets
      else do
        let raw ← copyToSlice rdlength
        return .Raw raw
  | .AAAA =>
      if rdlength = 16 then do
        let octets ← copyToArray 16
        return .AAAA octets
      else do
        let raw ← copyToSlice rdlength
        return .Raw raw
  | .CNAME => do
      let cname ← readDomainName
      return .CNAME cname
  | .MX =>
      if rdlength ≥ 3 then do
        let preference ← getU16
        let exchange ← readDomainName
        return .MX preference exchange
      else do
        let raw ← copyToSlice rdlength
        return .Raw raw
  | .TXT => do
      let txts ← readTxts rdlength 0
      return .TXT txts
  | _ => do
      let raw ← copyToSlice rdlength
      return .Raw raw

def ResourceRecord.parse : Decoder DnsError ResourceRecord := do
  let name ← readDomainName
  let remaining₁ ← remaining
  if remaining₁ < 10 then
    fail (.BufferTooShort "ResourceRecord header requires 10 bytes")
  else do
    let rtype ← getU16
    let rclass ← getU16
    let ttl ← getU32
    let rdlength ← getU16
    let remaining₂ ← remaining
    if remaining₂ < rdlength.toNat then
      fail (.BufferTooShort "RDATA length exceeds remaining buffer")
    else do
      let rdata ← readRdata (QueryType.fromU16 rtype) rdlength.toNat
      return ⟨name, QueryType.fromU16 rtype, QueryClass.fromU16 rclass, ttl, rdata⟩

/-- The RDATA bytes that `write_to` puts after RDLENGTH. -/
def ResourceData.writeTo : ResourceData → List UInt8
  | .A ip => ip.toList
  | .AAAA ip => ip.toList
  | .CNAME cname => writeDomainName cname
  | .MX preference exchange => beU16 preference ++ writeDomainName exchange
  | .TXT txts => txts.flatMap fun txt => UInt8.ofNat (byteLen txt) :: encode txt
  | .Raw raw => raw

/-- The bytes `ResourceRecord::write_to` appends to the buffer; RDLENGTH is the length of the
    RDATA bytes `as u16`. -/
def ResourceRecord.writeTo (r : ResourceRecord) : List UInt8 :=
  writeDomainName r.name ++ beU16 r.rtype.toU16 ++ beU16 r.rclass.toU16 ++ beU32 r.ttl ++
    beU16 (UInt16.ofNat r.rdata.writeTo.length) ++ r.rdata.writeTo

end VantaDns.Protocol
