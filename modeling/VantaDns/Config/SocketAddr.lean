/-
  Socket addresses as text: `SocketAddr::from_str` of Rust's standard library.

  Every reader takes the text that is left and returns what it read with what is left then, or
  `none`, after which its caller goes on with the text it had (`read_atomically`).
  `SocketAddr.fromStr_first`: an address begins with a digit or a bracket, so that no text in
  front of an address can be taken for part of it.
-/
import VantaDns.Lib.Text
import VantaDns.Resolver.Forwarder

namespace VantaDns.Config

open Lib Lib.Text Resolver

/-- `c.to_digit(radix)`, for a radix of at most 16. -/
def toDigit (radix : Nat) (c : Char) : Option Nat :=
  let digit :=
    if '0' ≤ c ∧ c ≤ '9' then some (c.toNat - '0'.toNat)
    else if 'a' ≤ c ∧ c ≤ 'f' then some (c.toNat - 'a'.toNat + 10)
    else if 'A' ≤ c ∧ c ≤ 'F' then some (c.toNat - 'A'.toNat + 10)
    else none
  digit.filter (· < radix)

/-- The digits at the front, and what follows them. -/
def readDigits (radix : Nat) : Str → List Nat × Str
  | [] => ([], [])
  | c :: s =>
    match toDigit radix c with
    | none => ([], c :: s)
    | some d => (d :: (readDigits radix s).1, (readDigits radix s).2)

/-- `read_number` for numbers up to `max`. -/
def readNumber (radix : Nat) (maxDigits : Option Nat) (allowZeroPrefix : Bool) (max : Nat)
    (s : Str) : Option (Nat × Str) :=
  let (digits, rest) := readDigits radix s
  let result := digits.foldl (fun result digit => result * radix + digit) 0
  if maxDigits.any (· < digits.length) then none
  else if digits.length = 0 then none
  else if !allowZeroPrefix && digits.head? == some 0 && decide (1 < digits.length) then none
  else if max < result then none
  else some (result, rest)

def readGivenChar (target : Char) : Str → Option Str
  | [] => none
  | c :: s => if c = target then some s else none

/-- `read_separator`: in front of every item but the first. -/
def readSeparator {α : Type} (sep : Char) (index : Nat) (inner : Str → Option (α × Str)) (s : Str) :
    Option (α × Str) :=
  if 0 < index then (readGivenChar sep s).bind inner else inner s

/-- One octet of a dotted address; an octal number is none. -/
def readOctet (i : Nat) (s : Str) : Option (Nat × Str) :=
  readSeparator '.' i (readNumber 10 (some 3) false 255) s

def readIpv4Addr (s : Str) : Option (List UInt8 × Str) := do
  let (a, s) ← readOctet 0 s
  let (b, s) ← readOctet 1 s
  let (c, s) ← readOctet 2 s
  let (d, s) ← readOctet 3 s
  return ([a, b, c, d].map UInt8.ofNat, s)

/-- `read_groups` with room for `room` more groups behind those read: the bytes of the groups,
    and whether they end in a dotted address, which takes two groups. -/
def readGroups : (room : Nat) → (groups : List UInt8) → Str → List UInt8 × Bool × Str
  | 0, groups, s => (groups, false, s)
  | room + 1, groups, s =>
    let i := groups.length / 2
    match if 0 < room then readSeparator ':' i readIpv4Addr s else none with
    | some (octets, rest) => (groups ++ octets, true, rest)
    | none =>
      match readSeparator ':' i (readNumber 16 (some 4) true 65535) s with
      | some (g, rest) => readGroups room (groups ++ [UInt8.ofNat (g / 256), UInt8.ofNat g]) rest
      | none => (groups, false, s)

/-- `read_ipv6_addr`: eight groups, or fewer around a `::` that stands for zeros. -/
def readIpv6Addr (s : Str) : Option (List UInt8 × Str) :=
  let (head, headIpv4, s) := readGroups 8 [] s
  if head.length = 16 then some (head, s)
  -- a dotted address is not allowed in front of `::`
  else if headIpv4 then none
  else do
    let s ← readGivenChar ':' s
    let s ← readGivenChar ':' s
    let (tail, _, s) := readGroups (8 - (head.length / 2 + 1)) [] s
    return (head ++ List.replicate (16 - head.length - tail.length) 0 ++ tail, s)

def readPort (s : Str) : Option (UInt16 × Str) := do
  let s ← readGivenChar ':' s
  let (port, s) ← readNumber 10 none true 65535 s
  return (UInt16.ofNat port, s)

def readScopeId (s : Str) : Option (UInt32 × Str) := do
  let s ← readGivenChar '%' s
  let (scopeId, s) ← readNumber 10 none true 4294967295 s
  return (UInt32.ofNat scopeId, s)

def readSocketAddrV4 (s : Str) : Option (SocketAddr × Str) := do
  let (ip, s) ← readIpv4Addr s
  let (port, s) ← readPort s
  return (.V4 (.ofFn fun i => ip.getD i 0) port, s)

def readSocketAddrV6 (s : Str) : Option (SocketAddr × Str) := do
  let s ← readGivenChar '[' s
  let (ip, s) ← readIpv6Addr s
  let (scopeId, s) := (readScopeId s).getD (0, s)
  let s ← readGivenChar ']' s
  let (port, s) ← readPort s
  return (.V6 (.ofFn fun i => ip.getD i 0) port scopeId, s)

/-- `s.parse::<SocketAddr>()`, which has to read the whole text. -/
def SocketAddr.fromStr (s : Str) : Option SocketAddr :=
  match (readSocketAddrV4 s).orElse fun _ => readSocketAddrV6 s with
  | some (addr, []) => some addr
  | _ => none

/-! ## The first character -/

theorem readNumber_first {radix max : Nat} {maxDigits : Option Nat} {allowZeroPrefix : Bool}
    {s : Str} {r : Nat × Str} (h : readNumber radix maxDigits allowZeroPrefix max s = some r) :
    ∃ c t, s = c :: t ∧ (toDigit radix c).isSome = true := by
  cases s with
  | nil =>
    unfold readNumber readDigits at h
    simp at h
  | cons c t =>
    refine ⟨c, t, rfl, ?_⟩
    cases hd : toDigit radix c with
    | some d => rfl
    | none =>
      unfold readNumber readDigits at h
      rw [hd] at h
      simp at h

theorem readIpv4Addr_first {s : Str} {r : List UInt8 × Str} (h : readIpv4Addr s = some r) :
    ∃ c t, s = c :: t ∧ (toDigit 10 c).isSome = true := by
  obtain ⟨⟨a, s'⟩, ha, -⟩ := Option.bind_eq_some_iff.1 h
  exact readNumber_first ha

theorem readGivenChar_eq_some {target : Char} {s t : Str} :
    readGivenChar target s = some t ↔ s = target :: t := by
  cases s with
  | nil => simp [readGivenChar]
  | cons c s => simp [readGivenChar]

/-- An address begins with a digit or a bracket. -/
theorem SocketAddr.fromStr_first {s : Str} {addr : SocketAddr}
    (h : SocketAddr.fromStr s = some addr) :
    ∃ c t, s = c :: t ∧ ((toDigit 10 c).isSome = true ∨ c = '[') := by
  unfold SocketAddr.fromStr at h
  cases h4 : readSocketAddrV4 s with
  | some r =>
    obtain ⟨r', hip, -⟩ := Option.bind_eq_some_iff.1 h4
    obtain ⟨c, t, rfl, hc⟩ := readIpv4Addr_first hip
    exact ⟨c, t, rfl, Or.inl hc⟩
  | none =>
    rw [h4] at h
    cases h6 : readSocketAddrV6 s with
    | some r =>
      obtain ⟨t, ht, -⟩ := Option.bind_eq_some_iff.1 h6
      exact ⟨'[', t, readGivenChar_eq_some.1 ht, Or.inr rfl⟩
    | none =>
      rw [h6] at h
      cases h

/-- No text that begins with another character is an address. -/
theorem SocketAddr.fromStr_eq_none {c : Char} {t : Str} (hd : toDigit 10 c = none) (hc : c ≠ '[') :
    SocketAddr.fromStr (c :: t) = none := by
  cases h : SocketAddr.fromStr (c :: t) with
  | none => rfl
  | some addr =>
    obtain ⟨c', t', heq, hfirst⟩ := SocketAddr.fromStr_first h
    obtain ⟨rfl, rfl⟩ := List.cons.inj heq
    rcases hfirst with hfirst | hfirst
    · rw [hd] at hfirst
      cases hfirst
    · exact absurd hfirst hc

example : SocketAddr.fromStr "[fe80::1%3]:53".toList =
    some (.V6 (.ofFn fun i => if i = 0 then 0xFE else if i = 1 then 0x80 else if i = 15 then 1 else 0)
      53 3) := by decide

end VantaDns.Config
