/-
  Questions and domain names (`protocol/question.rs`): query types and classes,
  `read_domain_name` with label lengths and compression pointers, `write_domain_name`,
  `DnsQuestion::parse` and `DnsQuestion::write_to`.

  The loop of `read_domain_name` is kept with its three state variables: the cursor
  position, `jumps_count` and the name read so far. A pointer sets the position and
  nothing sets it back, so after the loop the position is the one behind the zero byte
  that ended the last jump's target.
-/
import VantaDns.Lib.Text
import VantaDns.Protocol.Header

namespace VantaDns.Protocol

open Lib Lib.Decoder Lib.Utf8 Lib.Text Lib.Unicode

inductive QueryType where
  | A | NS | CNAME | SOA | PTR | MX | TXT | AAAA | ANY
  | Unknown (other : UInt16)
  deriving DecidableEq, Repr

def QueryType.fromU16 (val : UInt16) : QueryType :=
  match val with
  | 1 => .A
  | 2 => .NS
  | 5 => .CNAME
  | 6 => .SOA
  | 12 => .PTR
  | 15 => .MX
  | 16 => .TXT
  | 28 => .AAAA
  | 255 => .ANY
  | other => .Unknown other

def QueryType.toU16 : QueryType → UInt16
  | .A => 1
  | .NS => 2
  | .CNAME => 5
  | .SOA => 6
  | .PTR => 12
  | .MX => 15
  | .TXT => 16
  | .AAAA => 28
  | .ANY => 255
  | .Unknown other => other

inductive QueryClass where
  | IN
  | Unknown (other : UInt16)
  deriving DecidableEq, Repr

def QueryClass.fromU16 (val : UInt16) : QueryClass :=
  match val with
  | 1 => .IN
  | other => .Unknown other

def QueryClass.toU16 : QueryClass → UInt16
  | .IN => 1
  | .Unknown other => other

/-- `Unknown(v)` only for a `v` that `from_u16` does not map to a named type. -/
def QueryType.Canonical (t : QueryType) : Prop := QueryType.fromU16 t.toU16 = t

def QueryClass.Canonical (c : QueryClass) : Prop := QueryClass.fromU16 c.toU16 = c

instance (t : QueryType) : Decidable t.Canonical := inferInstanceAs (Decidable (_ = _))

instance (c : QueryClass) : Decidable c.Canonical := inferInstanceAs (Decidable (_ = _))

@[simp] theorem QueryType.toU16_fromU16 (v : UInt16) : (QueryType.fromU16 v).toU16 = v := by
  unfold QueryType.fromU16
  split <;> rfl

@[simp] theorem QueryClass.toU16_fromU16 (v : UInt16) : (QueryClass.fromU16 v).toU16 = v := by
  unfold QueryClass.fromU16
  split <;> rfl

theorem QueryType.fromU16_eq {v : UInt16} {t : QueryType} :
    QueryType.fromU16 v = t ↔ v = t.toU16 ∧ t.Canonical := by
  constructor
  · rintro rfl
    exact ⟨(toU16_fromU16 v).symm, by unfold Canonical; rw [toU16_fromU16]⟩
  · rintro ⟨rfl, h⟩
    exact h

theorem QueryClass.fromU16_eq {v : UInt16} {c : QueryClass} :
    QueryClass.fromU16 v = c ↔ v = c.toU16 ∧ c.Canonical := by
  constructor
  · rintro rfl
    exact ⟨(toU16_fromU16 v).symm, by unfold Canonical; rw [toU16_fromU16]⟩
  · rintro ⟨rfl, h⟩
    exact h

/-! ## Domain names -/

/-- The offset of a compression pointer with bytes `len`, `b2`. -/
def pointerOffset (len b2 : UInt8) : Nat := ((len &&& 0x3F).toNat <<< 8) ||| b2.toNat

/-- `if !domain.is_empty() { domain.push('.') }; domain.push_str(&label.to_lowercase())`. -/
def pushLabel (domain label : Str) : Str :=
  (if domain.isEmpty then domain else domain ++ ['.']) ++ toLowercase label

/-- The loop of `read_domain_name`, from a state `(jumps_count, domain)` and a position. -/
def readDomainNameLoop (jumpsCount : Nat) (domain : Str) (b : List UInt8) (pos : Nat) :
    Outcome DnsError (Str × Nat) :=
  if jumpsCount > 50 then
    .err (.InvalidDomainName "Infinite DNS compression pointer loop detected")
  else if b.length - pos = 0 then
    .err (.BufferTooShort "Unexpected EOF while reading domain name")
  else
    match _h : (getU8 : Decoder DnsError UInt8) b pos with
    | .err e => .err e
    | .panic => .panic
    | .ok (len, pos₁) =>
      if len = 0 then .ok (domain, pos₁)
      -- pointer compression: top two bits set
      else if (len &&& 0xC0) = 0xC0 then
        if b.length - pos₁ = 0 then .err (.BufferTooShort "Incomplete compression pointer")
        else
          match (getU8 : Decoder DnsError UInt8) b pos₁ with
          | .err e => .err e
          | .panic => .panic
          | .ok (b2, _) => readDomainNameLoop (jumpsCount + 1) domain b (pointerOffset len b2)
      else if b.length - pos₁ < len.toNat then
        .err (.BufferTooShort "Label length exceeds buffer")
      else
        match _h' : (copyToSlice len.toNat : Decoder DnsError (List UInt8)) b pos₁ with
        | .err e => .err e
        | .panic => .panic
        | .ok (labelBytes, pos₂) =>
          match fromUtf8 labelBytes with
          | none => .err (.InvalidDomainName "Non-UTF8 domain label")
          | some label => readDomainNameLoop jumpsCount (pushLabel domain label) b pos₂
termination_by (51 - jumpsCount) * (b.length + 1) + (b.length - pos)
decreasing_by
  · have he : 51 - jumpsCount = (51 - (jumpsCount + 1)) + 1 := by omega
    rw [he, Nat.add_mul]
    omega
  · have h1 := (getU8_ok.1 _h).2
    have h2 := (copyToSlice_ok.1 _h').2.2
    omega

/-- `read_domain_name`. -/
def readDomainName : Decoder DnsError Str := readDomainNameLoop 0 []

/-- The bytes `write_domain_name` appends to the buffer. -/
def writeDomainName (domain : Str) : List UInt8 :=
  let normalized := trimEndMatches '.' domain
  if normalized.isEmpty then [0]
  else (normalized.splitOn '.').flatMap
    (fun label => UInt8.ofNat (byteLen label) :: encode label) ++ [0]

/-! ## Questions -/

structure DnsQuestion where
  name : Str
  qtype : QueryType
  qclass : QueryClass
  deriving DecidableEq, Repr

def DnsQuestion.parse : Decoder DnsError DnsQuestion := do
  let name ← readDomainName
  let remaining ← remaining
  if remaining < 4 then
    fail (.BufferTooShort "DNS Question requires 4 bytes for QTYPE & QCLASS")
  else do
    let qtype ← getU16
    let qclass ← getU16
    return ⟨name, QueryType.fromU16 qtype, QueryClass.fromU16 qclass⟩

/-- The bytes `DnsQuestion::write_to` appends to the buffer. -/
def DnsQuestion.writeTo (q : DnsQuestion) : List UInt8 :=
  writeDomainName q.name ++ beU16 q.qtype.toU16 ++ beU16 q.qclass.toU16

end VantaDns.Protocol
