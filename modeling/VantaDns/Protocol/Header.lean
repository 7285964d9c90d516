/-
  The DNS message header (`protocol/header.rs`): opcodes, response codes, `DnsHeader::parse`
  and `DnsHeader::write_to`, and the error type of the protocol modules.

  The opcode and the response code keep only the values the program names; every other
  value is read as `Reserved` or `ServFail`. What is written for a header is read back as
  the same header (`headerAt_writeTo`).
-/
import VantaDns.Lib.Decoder

namespace VantaDns.Protocol

open Lib Lib.Decoder

/-- `DnsError`. -/
inductive DnsError where
  | BufferTooShort (msg : String)
  | InvalidDomainName (msg : String)
  | ParseError (msg : String)
  deriving DecidableEq, Repr

inductive Opcode where
  | Query | IQuery | Status | Reserved
  deriving DecidableEq, Repr

def Opcode.fromU8 (val : UInt8) : Opcode :=
  match val with
  | 0 => .Query
  | 1 => .IQuery
  | 2 => .Status
  | _ => .Reserved

/-- `opcode as u16`. -/
def Opcode.toU16 : Opcode → UInt16
  | .Query => 0
  | .IQuery => 1
  | .Status => 2
  | .Reserved => 3

inductive ResponseCode where
  | NoError | FormErr | ServFail | NXDomain | NotImp | Refused
  deriving DecidableEq, Repr

def ResponseCode.fromU8 (val : UInt8) : ResponseCode :=
  match val with
  | 0 => .NoError
  | 1 => .FormErr
  | 2 => .ServFail
  | 3 => .NXDomain
  | 4 => .NotImp
  | 5 => .Refused
  | _ => .ServFail

def ResponseCode.toU8 : ResponseCode → UInt8
  | .NoError => 0
  | .FormErr => 1
  | .ServFail => 2
  | .NXDomain => 3
  | .NotImp => 4
  | .Refused => 5

structure DnsHeader where
  id : UInt16
  isResponse : Bool
  opcode : Opcode
  authoritativeAnswer : Bool
  truncated : Bool
  recursionDesired : Bool
  recursionAvailable : Bool
  rcode : ResponseCode
  qdcount : UInt16
  ancount : UInt16
  nscount : UInt16
  arcount : UInt16
  deriving DecidableEq, Repr

/-- The header read from its six words. -/
def DnsHeader.ofWords (id flags qdcount ancount nscount arcount : UInt16) : DnsHeader where
  id := id
  isResponse := (flags &&& 0x8000) != 0
  opcode := Opcode.fromU8 ((flags >>> 11) &&& 0x0F).toUInt8
  authoritativeAnswer := (flags &&& 0x0400) != 0
  truncated := (flags &&& 0x0200) != 0
  recursionDesired := (flags &&& 0x0100) != 0
  recursionAvailable := (flags &&& 0x0080) != 0
  rcode := ResponseCode.fromU8 (flags &&& 0x000F).toUInt8
  qdcount := qdcount
  ancount := ancount
  nscount := nscount
  arcount := arcount

def DnsHeader.parse : Decoder DnsError DnsHeader := do
  let remaining ← remaining
  if remaining < 12 then
    fail (.BufferTooShort "DNS header requires 12 bytes")
  else do
    let id ← getU16
    let flags ← getU16
    let qdcount ← getU16
    let ancount ← getU16
    let nscount ← getU16
    let arcount ← getU16
    return DnsHeader.ofWords id flags qdcount ancount nscount arcount

/-- The flags word of `write_to`. -/
def DnsHeader.flags (h : DnsHeader) : UInt16 :=
  (if h.isResponse then (0x8000 : UInt16) else 0) ||| ((h.opcode.toU16 &&& 0x0F) <<< 11) |||
    (if h.authoritativeAnswer then 0x0400 else 0) ||| (if h.truncated then 0x0200 else 0) |||
    (if h.recursionDesired then 0x0100 else 0) ||| (if h.recursionAvailable then 0x0080 else 0) |||
    (h.rcode.toU8.toUInt16 &&& 0x000F)

/-- The bytes `write_to` appends to the buffer. -/
def DnsHeader.writeTo (h : DnsHeader) : List UInt8 :=
  beU16 h.id ++ beU16 h.flags ++ beU16 h.qdcount ++ beU16 h.ancount ++ beU16 h.nscount ++
    beU16 h.arcount

@[simp] theorem DnsHeader.length_writeTo (h : DnsHeader) : h.writeTo.length = 12 := rfl

/-- The flags word determines every flag, the opcode and the response code. -/
theorem DnsHeader.ofWords_flags (h : DnsHeader) :
    DnsHeader.ofWords h.id h.flags h.qdcount h.ancount h.nscount h.arcount = h := by
  have hall : ∀ (op : Opcode) (rc : ResponseCode) (qr aa tc rd ra : Bool),
      DnsHeader.ofWords 0 (DnsHeader.flags ⟨0, qr, op, aa, tc, rd, ra, rc, 0, 0, 0, 0⟩) 0 0 0 0 =
        ⟨0, qr, op, aa, tc, rd, ra, rc, 0, 0, 0, 0⟩ := by
    intro op rc
    cases op <;> cases rc <;> decide +kernel
  have := hall h.opcode h.rcode h.isResponse h.authoritativeAnswer h.truncated
    h.recursionDesired h.recursionAvailable
  simp only [DnsHeader.ofWords, DnsHeader.mk.injEq, true_and, and_true] at this
  obtain ⟨h1, h2, h3, h4, h5, h6, h7⟩ := this
  cases h
  simp only [DnsHeader.ofWords, DnsHeader.mk.injEq, true_and, and_true]
  exact ⟨h1, h2, h3, h4, h5, h6, h7⟩

variable {b : List UInt8} {s e : Nat}

/-- Six words stand at `s` and spell the header `h`. -/
def HeaderAt (b : List UInt8) (s : Nat) (h : DnsHeader) : Prop :=
  ∃ flags, BytesAt b s (beU16 h.id ++ beU16 flags ++ beU16 h.qdcount ++ beU16 h.ancount ++
      beU16 h.nscount ++ beU16 h.arcount) ∧
    h = DnsHeader.ofWords h.id flags h.qdcount h.ancount h.nscount h.arcount

theorem DnsHeader.parse_ok {h : DnsHeader} :
    DnsHeader.parse b s = .ok (h, e) ↔ HeaderAt b s h ∧ e = s + 12 := by
  unfold DnsHeader.parse HeaderAt
  simp only [remaining_bind]
  constructor
  · intro hp
    split at hp
    · cases hp
    · simp only [bind_ok, getU16_ok] at hp
      obtain ⟨id, _, ⟨h1, rfl⟩, fl, _, ⟨h2, rfl⟩, qd, _, ⟨h3, rfl⟩, an, _, ⟨h4, rfl⟩, ns, _,
        ⟨h5, rfl⟩, ar, _, ⟨h6, rfl⟩, hp⟩ := hp
      cases hp
      refine ⟨⟨fl, ?_, rfl⟩, rfl⟩
      simp only [bytesAt_append, List.length_append, length_beU16]
      exact ⟨⟨⟨⟨⟨h1, h2⟩, h3⟩, h4⟩, h5⟩, h6⟩
  · rintro ⟨⟨fl, hb, hh⟩, rfl⟩
    have hl := hb.length_le
    simp only [List.length_append, length_beU16] at hl
    rw [if_neg (by omega)]
    simp only [bytesAt_append, List.length_append, length_beU16] at hb
    obtain ⟨⟨⟨⟨⟨h1, h2⟩, h3⟩, h4⟩, h5⟩, h6⟩ := hb
    simp only [bind_ok, getU16_ok]
    refine ⟨h.id, _, ⟨h1, rfl⟩, fl, _, ⟨h2, rfl⟩, h.qdcount, _, ⟨h3, rfl⟩, h.ancount, _,
      ⟨h4, rfl⟩, h.nscount, _, ⟨h5, rfl⟩, h.arcount, _, ⟨h6, rfl⟩, ?_⟩
    rw [← hh]
    rfl

theorem DnsHeader.parse_ne_panic : DnsHeader.parse b s ≠ .panic := by
  unfold DnsHeader.parse
  simp only [remaining_bind]
  split
  · simp
  · simp only [ne_eq, bind_panic, getU16_panic, getU16_ok, not_or, not_exists, not_and]
    refine ⟨by omega, ?_⟩
    rintro id _ ⟨-, rfl⟩
    refine ⟨by omega, ?_⟩
    rintro fl _ ⟨-, rfl⟩
    refine ⟨by omega, ?_⟩
    rintro qd _ ⟨-, rfl⟩
    refine ⟨by omega, ?_⟩
    rintro an _ ⟨-, rfl⟩
    refine ⟨by omega, ?_⟩
    rintro ns _ ⟨-, rfl⟩
    refine ⟨by omega, ?_⟩
    rintro ar _ ⟨-, rfl⟩
    simp

theorem HeaderAt.unique {h h' : DnsHeader} (h1 : HeaderAt b s h) (h2 : HeaderAt b s h') :
    h = h' := by
  have e1 := (DnsHeader.parse_ok (e := s + 12)).2 ⟨h1, rfl⟩
  have e2 := (DnsHeader.parse_ok (e := s + 12)).2 ⟨h2, rfl⟩
  rw [e1] at e2
  cases e2
  rfl

theorem HeaderAt.length_le {h : DnsHeader} (hh : HeaderAt b s h) : 12 ≤ b.length - s := by
  obtain ⟨fl, hb, -⟩ := hh
  simpa using hb.length_le

/-- What is written for a header is read back as that header. -/
theorem headerAt_writeTo {h : DnsHeader} (hb : BytesAt b s h.writeTo) : HeaderAt b s h :=
  ⟨h.flags, hb, h.ofWords_flags.symm⟩

end VantaDns.Protocol
