/-
  Failover from one upstream to the next (`UpstreamForwarder::forward_raw`).

  `Delivers` says what counts as a message from an upstream: a datagram, or a message of some
  length behind its two length bytes. Nothing in the message is looked at, so a message that
  is stale, forged or no reply at all counts. An empty datagram counts for `forward_udp` too,
  where `forward_tcp` turns an empty message down; the results leave it out.

  `forwardRaw_failover`: the reply is the first message in list order, no upstream behind the
  one it comes from is contacted, and without a message the error is the last upstream's.
  `forwardRaw_congr`: what the upstreams do that are not contacted makes no difference.
-/
import VantaDns.Resolver.Forwarder

namespace VantaDns.Resolver

open Lib Protocol

/-- The upstream sends a message back: a datagram with something in it, or a message with its
    length in front. -/
inductive Delivers (upstream : Upstream) (queryBytes : List UInt8) :
    UpstreamTransport → List UInt8 → Prop where
  | udp {d : List UInt8} (h : upstream.udp queryBytes = .received d) (hne : d ≠ []) :
      Delivers upstream queryBytes .Udp (d.take 65535)
  | tcp {x y : UInt8} {msg rest : List UInt8} {ending : String}
      (h : upstream.tcp (frame queryBytes) = .received (x :: y :: (msg ++ rest)) ending)
      (hlen : x.toNat * 256 + y.toNat = msg.length) (hne : msg ≠ []) :
      Delivers upstream queryBytes .Tcp msg

/-- The upstreams that the loop of `forward_raw` exchanges messages with, from the `i`-th on. -/
def contactedFrom (net : Nat → Upstream) (queryBytes : List UInt8) :
    Nat → List UpstreamEntry → List Nat
  | _, [] => []
  | i, entry :: rest =>
      i :: match forwardEntry entry (net i) queryBytes with
        | .ok _ => []
        | .error _ => contactedFrom net queryBytes (i + 1) rest

def UpstreamForwarder.contacted (f : UpstreamForwarder) (net : Nat → Upstream)
    (queryBytes : List UInt8) : List Nat := contactedFrom net queryBytes 0 f.upstreams

/-! ## One upstream -/

variable {net : Nat → Upstream} {queryBytes : List UInt8}

theorem forwardUdp_ok_iff {upstream : Upstream} {r : List UInt8}
    (hempty : upstream.udp queryBytes ≠ .received []) :
    forwardUdp upstream queryBytes = .ok r ↔ Delivers upstream queryBytes .Udp r := by
  constructor
  · intro h
    unfold forwardUdp at h
    split at h
    case h_6 datagram hd =>
      cases h
      refine .udp hd ?_
      rintro rfl
      exact hempty hd
    all_goals cases h
  · intro h
    cases h with
    | udp h hne =>
      unfold forwardUdp
      rw [h]

theorem readTcpReply_ok_iff {stream r : List UInt8} {ending : String} :
    readTcpReply stream ending = .ok r ↔ r ≠ [] ∧ ∃ (x y : UInt8) (rest : List UInt8),
      stream = x :: y :: (r ++ rest) ∧ x.toNat * 256 + y.toNat = r.length := by
  constructor
  · intro h
    unfold readTcpReply at h
    split at h
    · next x y rest =>
      dsimp only at h
      split at h
      · cases h
      · next hpos =>
        split at h
        · cases h
        · next hlen =>
          cases h
          have htake : (rest.take (x.toNat * 256 + y.toNat)).length = x.toNat * 256 + y.toNat := by
            rw [List.length_take]
            omega
          refine ⟨?_, x, y, rest.drop (x.toNat * 256 + y.toNat), ?_, htake.symm⟩
          · intro hnil
            rw [hnil] at htake
            exact hpos htake.symm
          · rw [List.take_append_drop]
    · cases h
  · intro h
    obtain ⟨hne, x, y, rest, rfl, hlen⟩ := h
    have hpos := List.length_pos_iff.2 hne
    unfold readTcpReply
    dsimp only
    rw [hlen, if_neg (by omega), if_neg (by rw [List.length_append]; omega), List.take_left]

theorem forwardTcp_ok_iff {upstream : Upstream} {r : List UInt8} :
    forwardTcp upstream queryBytes = .ok r ↔ Delivers upstream queryBytes .Tcp r := by
  constructor
  · intro h
    unfold forwardTcp at h
    split at h
    case h_7 stream ending hs =>
      obtain ⟨hne, x, y, rest, rfl, hlen⟩ := readTcpReply_ok_iff.1 h
      exact .tcp hs hlen hne
    all_goals cases h
  · intro h
    cases h with
    | tcp h hlen hne =>
      unfold forwardTcp
      rw [h]
      exact readTcpReply_ok_iff.2 ⟨hne, _, _, _, rfl, hlen⟩

theorem forwardEntry_ok_iff {entry : UpstreamEntry} {upstream : Upstream} {r : List UInt8}
    (hempty : entry.transport = .Udp → upstream.udp queryBytes ≠ .received []) :
    forwardEntry entry upstream queryBytes = .ok r ↔
      Delivers upstream queryBytes entry.transport r := by
  unfold forwardEntry
  cases ht : entry.transport with
  | Udp => exact forwardUdp_ok_iff (hempty ht)
  | Tcp => exact forwardTcp_ok_iff

/-! ## The loop -/

/-- How the loop over `entries` ends, the first of them being the `i`-th upstream. -/
inductive LoopEnds (net : Nat → Upstream) (queryBytes : List UInt8) (i : Nat)
    (entries : List UpstreamEntry) (lastErr : DnsError) : Prop where
  | reply {j : Nat} {entry : UpstreamEntry} {r : List UInt8} (hj : entries[j]? = some entry)
      (hbefore : ∀ k < j, ∀ entry', entries[k]? = some entry' →
        ∀ r', forwardEntry entry' (net (i + k)) queryBytes ≠ .ok r')
      (hr : forwardEntry entry (net (i + j)) queryBytes = .ok r)
      (hloop : forwardLoop net queryBytes i entries lastErr = .ok r)
      (hcontacted : contactedFrom net queryBytes i entries = List.range' i (j + 1))
  | failed {e : DnsError} (hall : ∀ k entry', entries[k]? = some entry' →
        ∀ r', forwardEntry entry' (net (i + k)) queryBytes ≠ .ok r')
      (hlast : entries = [] ∧ e = lastErr ∨ ∃ entry, entries.getLast? = some entry ∧
        forwardEntry entry (net (i + (entries.length - 1))) queryBytes = .error e)
      (hloop : forwardLoop net queryBytes i entries lastErr = .error e)
      (hcontacted : contactedFrom net queryBytes i entries = List.range' i entries.length)

/-- An upstream of the rest stands one further on in the list. -/
theorem getElem?_cons_cases {entry entry' : UpstreamEntry} {rest : List UpstreamEntry} {k : Nat}
    (hk : (entry :: rest)[k]? = some entry') :
    k = 0 ∧ entry' = entry ∨ ∃ k', k = k' + 1 ∧ rest[k']? = some entry' := by
  cases k with
  | zero => exact Or.inl ⟨rfl, (Option.some.inj hk).symm⟩
  | succ k' => exact Or.inr ⟨k', rfl, hk⟩

/-- After an upstream that fails the loop goes on with its error. -/
theorem LoopEnds.cons {i : Nat} {entry : UpstreamEntry} {rest : List UpstreamEntry}
    {lastErr e : DnsError} (h : forwardEntry entry (net i) queryBytes = .error e)
    (hrest : LoopEnds net queryBytes (i + 1) rest e) :
    LoopEnds net queryBytes i (entry :: rest) lastErr := by
  have hloop : forwardLoop net queryBytes i (entry :: rest) lastErr =
      forwardLoop net queryBytes (i + 1) rest e := by
    rw [forwardLoop, h]
  have hcontacted : contactedFrom net queryBytes i (entry :: rest) =
      i :: contactedFrom net queryBytes (i + 1) rest := by
    rw [contactedFrom, h]
  have hfirst : ∀ r', forwardEntry entry (net (i + 0)) queryBytes ≠ .ok r' := by
    intro r' hr'
    rw [Nat.add_zero, h] at hr'
    cases hr'
  cases hrest with
  | @reply j entry' r hj hbefore hr hl hc =>
    refine .reply (j := j + 1) (r := r) hj ?_ ?_ (hloop.trans hl) ?_
    · intro k hk entry'' hk''
      obtain ⟨rfl, rfl⟩ | ⟨k', rfl, hk'⟩ := getElem?_cons_cases hk''
      · exact hfirst
      · rw [Nat.add_comm k' 1, ← Nat.add_assoc]
        exact hbefore k' (by omega) entry'' hk'
    · rw [Nat.add_comm j 1, ← Nat.add_assoc]
      exact hr
    · rw [hcontacted, hc]
      rfl
  | @failed e' hall hlast hl hc =>
    refine .failed (e := e') ?_ (Or.inr ?_) (hloop.trans hl) ?_
    · intro k entry'' hk''
      obtain ⟨rfl, rfl⟩ | ⟨k', rfl, hk'⟩ := getElem?_cons_cases hk''
      · exact hfirst
      · rw [Nat.add_comm k' 1, ← Nat.add_assoc]
        exact hall k' entry'' hk'
    · obtain ⟨rfl, rfl⟩ | ⟨last, hl', he⟩ := hlast
      · exact ⟨entry, rfl, h⟩
      · have hne : rest ≠ [] := by
          rintro rfl
          cases hl'
        have hpos := List.length_pos_iff.2 hne
        have hidx : i + ((entry :: rest).length - 1) = i + 1 + (rest.length - 1) := by
          rw [List.length_cons]
          omega
        rw [hidx, List.getLast?_cons_of_ne_nil hne]
        exact ⟨last, hl', he⟩
    · rw [hcontacted, hc]
      rfl

theorem loopEnds (net : Nat → Upstream) (queryBytes : List UInt8) (i : Nat)
    (entries : List UpstreamEntry) (lastErr : DnsError) :
    LoopEnds net queryBytes i entries lastErr := by
  induction entries generalizing i lastErr with
  | nil => exact .failed (by simp) (Or.inl ⟨rfl, rfl⟩) rfl rfl
  | cons entry rest ih =>
    cases h : forwardEntry entry (net i) queryBytes with
    | ok r =>
      refine .reply (j := 0) (r := r) rfl (by simp) h ?_ ?_
      · rw [forwardLoop, h]
      · rw [contactedFrom, h]
        rfl
    | error e => exact .cons h (ih (i + 1) e)

/-! ## The list of upstreams -/

/-- No upstream of the list sends back an empty datagram. -/
def NoEmptyDatagram (f : UpstreamForwarder) (net : Nat → Upstream) (queryBytes : List UInt8) : Prop :=
  ∀ i entry, f.upstreams[i]? = some entry → entry.transport = .Udp →
    (net i).udp queryBytes ≠ .received []

/-- The `i`-th upstream delivers the message `r`. -/
def Delivered (f : UpstreamForwarder) (net : Nat → Upstream) (queryBytes : List UInt8) (i : Nat)
    (r : List UInt8) : Prop :=
  ∃ entry, f.upstreams[i]? = some entry ∧ Delivers (net i) queryBytes entry.transport r

/-- The `i`-th upstream delivers `r`, and none before it delivers anything. -/
def First (f : UpstreamForwarder) (net : Nat → Upstream) (queryBytes : List UInt8) (i : Nat)
    (r : List UInt8) : Prop :=
  Delivered f net queryBytes i r ∧ ∀ j < i, ∀ r', ¬ Delivered f net queryBytes j r'

/-- With no upstream the error says so; else it is that of the last one. -/
def LastError (f : UpstreamForwarder) (net : Nat → Upstream) (queryBytes : List UInt8)
    (e : DnsError) : Prop :=
  f.upstreams = [] ∧ e = .ParseError "No upstream resolver configured" ∨
    ∃ entry, f.upstreams.getLast? = some entry ∧
      forwardEntry entry (net (f.upstreams.length - 1)) queryBytes = .error e

theorem LastError.unique {f : UpstreamForwarder} {e e' : DnsError}
    (h : LastError f net queryBytes e) (h' : LastError f net queryBytes e') : e = e' := by
  obtain ⟨hnil, rfl⟩ | ⟨entry, hentry, he⟩ := h
  · obtain ⟨-, rfl⟩ | ⟨entry', hentry', -⟩ := h'
    · rfl
    · rw [hnil] at hentry'
      cases hentry'
  · obtain ⟨hnil, -⟩ | ⟨entry', hentry', he'⟩ := h'
    · rw [hnil] at hentry
      cases hentry
    · rw [hentry] at hentry'
      cases hentry'
      rw [he, Except.error.injEq] at he'
      exact he'

/-- An upstream delivers what the exchange with it returns. -/
theorem delivered_iff {f : UpstreamForwarder} (hempty : NoEmptyDatagram f net queryBytes)
    {i : Nat} {entry : UpstreamEntry} (hi : f.upstreams[i]? = some entry) {r : List UInt8} :
    Delivered f net queryBytes i r ↔ forwardEntry entry (net i) queryBytes = .ok r := by
  rw [forwardEntry_ok_iff (hempty i entry hi)]
  constructor
  · intro hx
    obtain ⟨entry', hi', h⟩ := hx
    rw [hi] at hi'
    cases hi'
    exact h
  · exact fun h => ⟨entry, hi, h⟩

/-- How `forward_raw` ends. -/
inductive Ends (f : UpstreamForwarder) (net : Nat → Upstream) (queryBytes : List UInt8) : Prop where
  | reply {i : Nat} {r : List UInt8} (hfirst : First f net queryBytes i r)
      (hraw : f.forwardRaw net queryBytes = .ok r)
      (hcontacted : f.contacted net queryBytes = List.range (i + 1))
  | failed {e : DnsError} (hnone : ∀ i r, ¬ Delivered f net queryBytes i r)
      (hlast : LastError f net queryBytes e) (hraw : f.forwardRaw net queryBytes = .error e)
      (hcontacted : f.contacted net queryBytes = List.range f.upstreams.length)

theorem ends {f : UpstreamForwarder} (hempty : NoEmptyDatagram f net queryBytes) :
    Ends f net queryBytes := by
  by_cases hnil : f.upstreams = []
  · refine .failed (e := .ParseError "No upstream resolver configured") ?_ (Or.inl ⟨hnil, rfl⟩) ?_ ?_
    · intro i r h
      obtain ⟨entry, hi, -⟩ := h
      rw [hnil] at hi
      simp at hi
    · unfold UpstreamForwarder.forwardRaw
      rw [hnil]
      rfl
    · unfold UpstreamForwarder.contacted
      rw [hnil]
      rfl
  have hraw : f.forwardRaw net queryBytes =
      forwardLoop net queryBytes 0 f.upstreams (.ParseError "no upstream attempted") := by
    unfold UpstreamForwarder.forwardRaw
    rw [if_neg (by simpa using hnil)]
  cases loopEnds net queryBytes 0 f.upstreams (.ParseError "no upstream attempted") with
  | @reply i entry r hi hbefore hr hloop hcontacted =>
    rw [Nat.zero_add] at hr
    refine .reply (i := i) (r := r) ⟨(delivered_iff hempty hi).2 hr, ?_⟩ (hraw.trans hloop) ?_
    · intro j hj r' hx
      obtain ⟨entry', hj', h⟩ := hx
      have hno := hbefore j hj entry' hj' r'
      rw [Nat.zero_add] at hno
      exact hno ((delivered_iff hempty hj').1 ⟨entry', hj', h⟩)
    · rw [List.range_eq_range']
      exact hcontacted
  | @failed e hall hlast hloop hcontacted =>
    refine .failed (e := e) ?_ ?_ (hraw.trans hloop) ?_
    · intro j r' hx
      obtain ⟨entry', hj', h⟩ := hx
      have hno := hall j entry' hj' r'
      rw [Nat.zero_add] at hno
      exact hno ((delivered_iff hempty hj').1 ⟨entry', hj', h⟩)
    · refine Or.inr ?_
      rw [Nat.zero_add] at hlast
      exact hlast.resolve_left fun h => hnil h.1
    · rw [List.range_eq_range']
      exact hcontacted

theorem Delivers.unique {upstream : Upstream} {transport : UpstreamTransport} {r r' : List UInt8}
    (h : Delivers upstream queryBytes transport r) (h' : Delivers upstream queryBytes transport r') :
    r = r' := by
  cases h with
  | udp h hne =>
    cases h' with
    | udp h' hne' =>
      rw [h, UdpExchange.received.injEq] at h'
      rw [h']
  | tcp h hlen hne =>
    cases h' with
    | tcp h' hlen' hne' =>
      rw [h, TcpExchange.received.injEq, List.cons.injEq, List.cons.injEq] at h'
      obtain ⟨⟨rfl, rfl, hmsg⟩, -⟩ := h'
      exact (List.append_inj hmsg (hlen.symm.trans hlen')).1

theorem First.unique {f : UpstreamForwarder} {i i' : Nat} {r r' : List UInt8}
    (h : First f net queryBytes i r) (h' : First f net queryBytes i' r') : i = i' ∧ r = r' := by
  obtain hlt | rfl | hgt := Nat.lt_trichotomy i i'
  · exact absurd h.1 (h'.2 i hlt r)
  · obtain ⟨entry, hi, hd⟩ := h.1
    obtain ⟨entry', hi', hd'⟩ := h'.1
    rw [hi] at hi'
    cases hi'
    exact ⟨rfl, hd.unique hd'⟩
  · exact absurd h'.1 (h.2 i' hgt r')

/-- The reply of `forward_raw` is the first message that an upstream delivers, in list order; no
    upstream behind that one is contacted. It fails if none delivers a message, with the error of
    the last one. -/
theorem forwardRaw_failover {f : UpstreamForwarder} (hempty : NoEmptyDatagram f net queryBytes) :
    (∀ r, f.forwardRaw net queryBytes = .ok r ↔ ∃ i, First f net queryBytes i r) ∧
    (∀ i r, First f net queryBytes i r → f.contacted net queryBytes = List.range (i + 1)) ∧
    ∀ e, f.forwardRaw net queryBytes = .error e ↔
      (∀ i r, ¬ Delivered f net queryBytes i r) ∧ LastError f net queryBytes e ∧
        f.contacted net queryBytes = List.range f.upstreams.length := by
  cases ends hempty with
  | @reply i r hfirst hraw hcontacted =>
    rw [hraw, hcontacted]
    refine ⟨?_, ?_, ?_⟩
    · intro r'
      constructor
      · intro h
        cases h
        exact ⟨i, hfirst⟩
      · intro h
        obtain ⟨i', hfirst'⟩ := h
        rw [(hfirst.unique hfirst').2]
    · intro i' r' hfirst'
      rw [(hfirst.unique hfirst').1]
    · intro e
      refine iff_of_false (by simp) ?_
      exact fun h => h.1 i r hfirst.1
  | @failed e hnone hlast hraw hcontacted =>
    rw [hraw, hcontacted]
    refine ⟨?_, ?_, ?_⟩
    · intro r
      refine iff_of_false (by simp) ?_
      intro h
      obtain ⟨i, hfirst⟩ := h
      exact hnone i r hfirst.1
    · intro i r hfirst
      exact absurd hfirst.1 (hnone i r)
    · intro e'
      constructor
      · intro h
        cases h
        exact ⟨hnone, hlast, rfl⟩
      · intro h
        obtain ⟨-, hlast', -⟩ := h
        rw [hlast.unique hlast']

/-- What the upstreams do that are not contacted makes no difference. -/
theorem forwardRaw_congr {f : UpstreamForwarder} {net' : Nat → Upstream}
    (h : ∀ i ∈ f.contacted net queryBytes, net i = net' i) :
    f.forwardRaw net queryBytes = f.forwardRaw net' queryBytes := by
  have hloop : ∀ (entries : List UpstreamEntry) (i : Nat) (lastErr : DnsError),
      (∀ j ∈ contactedFrom net queryBytes i entries, net j = net' j) →
        forwardLoop net queryBytes i entries lastErr =
          forwardLoop net' queryBytes i entries lastErr := by
    intro entries
    induction entries with
    | nil => exact fun _ _ _ => rfl
    | cons entry rest ih =>
      intro i lastErr hnet
      rw [contactedFrom] at hnet
      rw [forwardLoop, forwardLoop, ← hnet i List.mem_cons_self]
      cases hentry : forwardEntry entry (net i) queryBytes with
      | ok r => rfl
      | error e =>
        rw [hentry] at hnet
        exact ih (i + 1) e fun j hj => hnet j (List.mem_cons_of_mem i hj)
  unfold UpstreamForwarder.forwardRaw
  rw [hloop f.upstreams 0 _ h]

/-! ## A stale datagram -/

/-- Two upstreams over UDP. -/
def twoUpstreams : UpstreamForwarder where
  upstreams := [⟨.V4 (.ofFn fun _ => 1) 53, .Udp⟩, ⟨.V4 (.ofFn fun _ => 8) 53, .Udp⟩]

/-- A query with ID 1 for the root. -/
def rootQuery : List UInt8 := [0, 1, 1, 0, 0, 1, 0, 0, 0, 0, 0, 0, 0, 0, 1, 0, 1]

/-- A header with ID 2 and without the response bit. -/
def staleMessage : List UInt8 := [0, 2, 1, 0, 0, 0, 0, 0, 0, 0, 0, 0]

/-- A reply to `rootQuery`. -/
def rootReply : List UInt8 := [0, 1, 0x81, 0x80, 0, 1, 0, 0, 0, 0, 0, 0, 0, 0, 1, 0, 1]

/-- The first upstream sends something stale, the second one the reply. -/
def staleNet : Nat → Upstream
  | 0 => ⟨fun _ => .received staleMessage, fun _ => .connectTimedOut⟩
  | _ => ⟨fun _ => .received rootReply, fun _ => .connectTimedOut⟩

theorem noEmptyDatagram_staleNet : NoEmptyDatagram twoUpstreams staleNet rootQuery := by
  intro i _ _ _ h
  cases i with
  | zero => cases h
  | succ i => cases h

theorem forwardRaw_failover_staleNet : ∃ r, twoUpstreams.forwardRaw staleNet rootQuery = .ok r :=
  ⟨staleMessage, ((forwardRaw_failover noEmptyDatagram_staleNet).1 staleMessage).2
    ⟨0, ⟨_, rfl, .udp (d := staleMessage) rfl (by decide)⟩, fun j hj => absurd hj (by omega)⟩⟩

/-- A message with another ID and without the response bit is taken for the reply, and the
    upstream that has the reply is not asked. -/
theorem forwardRaw_stale :
    twoUpstreams.forwardRaw staleNet rootQuery = .ok staleMessage ∧
      twoUpstreams.contacted staleNet rootQuery = [0] ∧
      staleMessage.take 2 ≠ rootQuery.take 2 ∧ staleMessage.getD 2 0 &&& 0x80 = 0 ∧
      (staleNet 1).udp rootQuery = .received rootReply ∧ 12 ≤ rootReply.length ∧
      rootReply.take 2 = rootQuery.take 2 ∧ rootReply.getD 2 0 &&& 0x80 = 0x80 := by
  refine ⟨rfl, rfl, by decide, by decide, rfl, by decide, by decide, by decide⟩

end VantaDns.Resolver
