/-
  The upstream forwarder (`resolver/forwarder.rs`): `forward_udp`, `forward_tcp` and
  `forward_raw` with its list of upstreams, against upstreams that do what they like.

  How an exchange with an upstream goes is an argument: a function of the bytes it is sent.
  `forwardRaw_length`: whatever it is, a reply has at most 65535 bytes.
-/
import VantaDns.Lib.Framing
import VantaDns.Protocol.Header

namespace VantaDns.Resolver

open Lib Protocol

/-- A socket address. No address of the program has flow information. -/
inductive SocketAddr where
  | V4 (ip : List.Vector UInt8 4) (port : UInt16)
  | V6 (ip : List.Vector UInt8 16) (port : UInt16) (scopeId : UInt32)
  deriving DecidableEq

inductive UpstreamTransport where
  | Udp | Tcp
  deriving DecidableEq

structure UpstreamEntry where
  addr : SocketAddr
  transport : UpstreamTransport
  deriving DecidableEq

structure UpstreamForwarder where
  upstreams : List UpstreamEntry

/-- How an exchange over UDP goes: an error with its text, no answer in time, or a datagram. -/
inductive UdpExchange where
  | bindError (e : String)
  | connectError (e : String)
  | sendError (e : String)
  | timedOut
  | recvError (e : String)
  | received (datagram : List UInt8)

/-- How an exchange over TCP goes. `received` are the bytes that arrive and the error that
    reading past them gives. -/
inductive TcpExchange where
  | connectTimedOut
  | connectError (e : String)
  | sendLengthError (e : String)
  | sendError (e : String)
  | flushError (e : String)
  | timedOut
  | received (stream : List UInt8) (ending : String)

/-- What an upstream does with the bytes it is sent over UDP and over TCP. -/
structure Upstream where
  udp : List UInt8 → UdpExchange
  tcp : List UInt8 → TcpExchange

/-- `forward_udp`; the datagram is read into a buffer of 65535 bytes. -/
def forwardUdp (upstream : Upstream) (queryBytes : List UInt8) : Except DnsError (List UInt8) :=
  match upstream.udp queryBytes with
  | .bindError e => .error (.ParseError ("UDP bind error: " ++ e))
  | .connectError e => .error (.ParseError ("UDP connect error: " ++ e))
  | .sendError e => .error (.ParseError ("UDP send error: " ++ e))
  | .timedOut => .error (.ParseError "Upstream UDP query timed out")
  | .recvError e => .error (.ParseError ("UDP recv error: " ++ e))
  | .received datagram => .ok (datagram.take 65535)

/-- The reads of `forward_tcp`: two bytes of length, then a message of that length. -/
def readTcpReply (stream : List UInt8) (ending : String) : Except DnsError (List UInt8) :=
  match stream with
  | x :: y :: rest =>
      let respLen := x.toNat * 256 + y.toNat
      if respLen = 0 then
        .error (.ParseError ("Invalid upstream TCP response length: " ++ toString respLen))
      else if rest.length < respLen then .error (.ParseError ("TCP recv error: " ++ ending))
      else .ok (rest.take respLen)
  | _ => .error (.ParseError ("TCP recv length error: " ++ ending))

def forwardTcp (upstream : Upstream) (queryBytes : List UInt8) : Except DnsError (List UInt8) :=
  match upstream.tcp (frame queryBytes) with
  | .connectTimedOut => .error (.ParseError "Upstream TCP connect timed out")
  | .connectError e => .error (.ParseError ("TCP connect error: " ++ e))
  | .sendLengthError e => .error (.ParseError ("TCP send length error: " ++ e))
  | .sendError e => .error (.ParseError ("TCP send error: " ++ e))
  | .flushError e => .error (.ParseError ("TCP flush error: " ++ e))
  | .timedOut => .error (.ParseError "Upstream TCP query timed out")
  | .received stream ending => readTcpReply stream ending

/-- One `match entry.transport { .. }`. -/
def forwardEntry (entry : UpstreamEntry) (upstream : Upstream) (queryBytes : List UInt8) :
    Except DnsError (List UInt8) :=
  match entry.transport with
  | .Udp => forwardUdp upstream queryBytes
  | .Tcp => forwardTcp upstream queryBytes

/-- The loop of `forward_raw` from the `i`-th upstream on, with `last_err`; `net i` is what the
    `i`-th upstream does. -/
def forwardLoop (net : Nat → Upstream) (queryBytes : List UInt8) :
    Nat → List UpstreamEntry → DnsError → Except DnsError (List UInt8)
  | _, [], lastErr => .error lastErr
  | i, entry :: rest, _ =>
      match forwardEntry entry (net i) queryBytes with
      | .ok resp => .ok resp
      | .error e => forwardLoop net queryBytes (i + 1) rest e

def UpstreamForwarder.forwardRaw (f : UpstreamForwarder) (net : Nat → Upstream)
    (queryBytes : List UInt8) : Except DnsError (List UInt8) :=
  if f.upstreams.isEmpty then .error (.ParseError "No upstream resolver configured")
  else forwardLoop net queryBytes 0 f.upstreams (.ParseError "no upstream attempted")

/-! ## The length of replies -/

variable {net : Nat → Upstream} {queryBytes resp : List UInt8}

theorem forwardUdp_length {upstream : Upstream} (h : forwardUdp upstream queryBytes = .ok resp) :
    resp.length ≤ 65535 := by
  unfold forwardUdp at h
  split at h
  case h_6 =>
    cases h
    rw [List.length_take]
    omega
  all_goals cases h

theorem readTcpReply_length {stream : List UInt8} {ending : String}
    (h : readTcpReply stream ending = .ok resp) : resp.length ≤ 65535 := by
  unfold readTcpReply at h
  split at h
  · next x y rest =>
    have hx := x.toNat_lt
    have hy := y.toNat_lt
    dsimp only at h
    split at h
    · cases h
    · split at h
      · cases h
      · cases h
        rw [List.length_take]
        omega
  · cases h

theorem forwardTcp_length {upstream : Upstream} (h : forwardTcp upstream queryBytes = .ok resp) :
    resp.length ≤ 65535 := by
  unfold forwardTcp at h
  split at h
  case h_7 => exact readTcpReply_length h
  all_goals cases h

theorem forwardEntry_length {entry : UpstreamEntry} {upstream : Upstream}
    (h : forwardEntry entry upstream queryBytes = .ok resp) : resp.length ≤ 65535 := by
  unfold forwardEntry at h
  split at h
  · exact forwardUdp_length h
  · exact forwardTcp_length h

theorem forwardLoop_length {i : Nat} {entries : List UpstreamEntry} {lastErr : DnsError}
    (h : forwardLoop net queryBytes i entries lastErr = .ok resp) : resp.length ≤ 65535 := by
  induction entries generalizing i lastErr with
  | nil => cases h
  | cons entry rest ih =>
    unfold forwardLoop at h
    split at h
    · next r hr =>
      cases h
      exact forwardEntry_length hr
    · exact ih h

/-- A forwarded reply fits a two-byte length. -/
theorem forwardRaw_length {f : UpstreamForwarder} (h : f.forwardRaw net queryBytes = .ok resp) :
    resp.length ≤ 65535 := by
  unfold UpstreamForwarder.forwardRaw at h
  split at h
  · cases h
  · exact forwardLoop_length h

/-! ## Without an upstream -/

/-- The error of a forwarder that has no upstreams. -/
def unconfigured : DnsError := .ParseError "No upstream resolver configured"

theorem parseError_ne_unconfigured {text : String} (h : text.toList.head? ≠ some 'N') :
    (.error (.ParseError text) : Except DnsError (List UInt8)) ≠ .error unconfigured := by
  intro heq
  injection heq with heq
  injection heq with heq
  rw [heq] at h
  exact h rfl

theorem forwardUdp_ne_unconfigured (upstream : Upstream) (queryBytes : List UInt8) :
    forwardUdp upstream queryBytes ≠ .error unconfigured := by
  unfold forwardUdp
  split
  case h_6 => exact nofun
  all_goals exact parseError_ne_unconfigured (by simp)

theorem readTcpReply_ne_unconfigured (stream : List UInt8) (ending : String) :
    readTcpReply stream ending ≠ .error unconfigured := by
  unfold readTcpReply
  split
  · dsimp only
    split
    · exact parseError_ne_unconfigured (by simp)
    · split
      · exact parseError_ne_unconfigured (by simp)
      · intro heq
        cases heq
  · exact parseError_ne_unconfigured (by simp)

theorem forwardTcp_ne_unconfigured (upstream : Upstream) (queryBytes : List UInt8) :
    forwardTcp upstream queryBytes ≠ .error unconfigured := by
  unfold forwardTcp
  split
  case h_7 => exact readTcpReply_ne_unconfigured _ _
  all_goals exact parseError_ne_unconfigured (by simp)

/-- No exchange with an upstream ends in the error of having none. -/
theorem forwardEntry_ne_unconfigured (entry : UpstreamEntry) (upstream : Upstream)
    (queryBytes : List UInt8) : forwardEntry entry upstream queryBytes ≠ .error unconfigured := by
  unfold forwardEntry
  split
  · exact forwardUdp_ne_unconfigured upstream queryBytes
  · exact forwardTcp_ne_unconfigured upstream queryBytes

theorem forwardLoop_ne_unconfigured {i : Nat} {entries : List UpstreamEntry} {lastErr : DnsError}
    (h : lastErr ≠ unconfigured) :
    forwardLoop net queryBytes i entries lastErr ≠ .error unconfigured := by
  induction entries generalizing i lastErr with
  | nil =>
    intro heq
    injection heq with heq
    exact h heq
  | cons entry rest ih =>
    unfold forwardLoop
    split
    · exact nofun
    · next e he =>
      apply ih
      rintro rfl
      exact forwardEntry_ne_unconfigured _ _ _ he

theorem forwardRaw_unconfigured_iff {f : UpstreamForwarder} :
    f.forwardRaw net queryBytes = .error unconfigured ↔ f.upstreams = [] := by
  unfold UpstreamForwarder.forwardRaw
  constructor
  · intro h
    by_contra hne
    rw [if_neg (by simpa using hne)] at h
    exact forwardLoop_ne_unconfigured (by decide) h
  · intro h
    rw [if_pos (by simp [h])]
    rfl

end VantaDns.Resolver
