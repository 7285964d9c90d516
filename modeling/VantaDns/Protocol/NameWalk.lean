/-
  How long `read_domain_name` runs, and which walks it accepts.

  `loopTurn` is one turn of its loop (`readDomainNameLoop_turn`), `lengthBytes` the number of
  length bytes that all turns read, and `Hop` one step of the walk, without regard to the
  number of jumps or to UTF-8. `readDomainName_terminates`: from every position of every
  buffer the loop ends with a result or an error and reads at most 51 times as many length
  bytes as the buffer is long; its result is the name that is spelled there through at most
  50 pointers; and a walk that comes back to where it was is rejected.
-/
import VantaDns.Protocol.NameWire

namespace VantaDns.Protocol

open Lib Lib.Decoder Lib.Utf8 Lib.Text Lib.Unicode

/-! ## Turns of the loop -/

/-- What a turn comes to: the result, with the number of length bytes read, or the next turn. -/
inductive LoopTurn where
  | ends (lengthBytes : Nat) (result : Outcome DnsError (Str × Nat))
  | again (jumpsCount : Nat) (domain : Str) (pos : Nat)

/-- One turn of the loop of `read_domain_name`. -/
def loopTurn (jumpsCount : Nat) (domain : Str) (b : List UInt8) (pos : Nat) : LoopTurn :=
  if jumpsCount > 50 then
    .ends 0 (.err (.InvalidDomainName "Infinite DNS compression pointer loop detected"))
  else if b.length - pos = 0 then
    .ends 0 (.err (.BufferTooShort "Unexpected EOF while reading domain name"))
  else
    match (getU8 : Decoder DnsError UInt8) b pos with
    | .err e => .ends 0 (.err e)
    | .panic => .ends 0 .panic
    | .ok (len, pos₁) =>
      if len = 0 then .ends 1 (.ok (domain, pos₁))
      else if (len &&& 0xC0) = 0xC0 then
        if b.length - pos₁ = 0 then .ends 1 (.err (.BufferTooShort "Incomplete compression pointer"))
        else
          match (getU8 : Decoder DnsError UInt8) b pos₁ with
          | .err e => .ends 1 (.err e)
          | .panic => .ends 1 .panic
          | .ok (b2, _) => .again (jumpsCount + 1) domain (pointerOffset len b2)
      else if b.length - pos₁ < len.toNat then
        .ends 1 (.err (.BufferTooShort "Label length exceeds buffer"))
      else
        match (copyToSlice len.toNat : Decoder DnsError (List UInt8)) b pos₁ with
        | .err e => .ends 1 (.err e)
        | .panic => .ends 1 .panic
        | .ok (labelBytes, pos₂) =>
          match fromUtf8 labelBytes with
          | none => .ends 1 (.err (.InvalidDomainName "Non-UTF8 domain label"))
          | some label => .again jumpsCount (pushLabel domain label) pos₂

variable {b : List UInt8} {s z : Nat}

/-- The loop is its turns, one after another. -/
theorem readDomainNameLoop_turn (jumps : Nat) (domain : Str) :
    readDomainNameLoop jumps domain b s =
      match loopTurn jumps domain b s with
      | .ends _ result => result
      | .again jumps' domain' s' => readDomainNameLoop jumps' domain' b s' := by
  rw [readDomainNameLoop_eq]
  unfold loopTurn
  split
  · rfl
  · rw [remaining_bind]
    split
    · rfl
    · rcases hget : (getU8 : Decoder DnsError UInt8) b s with ⟨len, s₁⟩ | e | _
      · rw [bind_of_ok hget]
        dsimp only
        split
        · rfl
        · split
          · rw [remaining_bind]
            split
            · rfl
            · rcases hget2 : (getU8 : Decoder DnsError UInt8) b s₁ with ⟨b2, s₂⟩ | e | _
              · rw [bind_of_ok hget2]
                rfl
              · rw [bind_of_err hget2]
              · rw [bind_of_panic hget2]
          · rw [remaining_bind]
            split
            · rfl
            · rcases hcopy : (copyToSlice len.toNat : Decoder DnsError (List UInt8)) b s₁ with
                ⟨bytes, s₂⟩ | e | _
              · rw [bind_of_ok hcopy]
                dsimp only
                cases fromUtf8 bytes <;> rfl
              · rw [bind_of_err hcopy]
              · rw [bind_of_panic hcopy]
      · rw [bind_of_err hget]
      · rw [bind_of_panic hget]

/-- A turn reads no byte behind the buffer. One that goes on has read a length byte and uses
    up a jump or moves forward. -/
theorem loopTurn_cases (jumps : Nat) (domain : Str) (b : List UInt8) (s : Nat) :
    (∃ n result, loopTurn jumps domain b s = .ends n result ∧ n ≤ b.length - s ∧
      (50 < jumps → n = 0)) ∨
    ∃ jumps' domain' s', loopTurn jumps domain b s = .again jumps' domain' s' ∧ jumps ≤ 50 ∧
      s < b.length ∧ (jumps' = jumps + 1 ∨ jumps' = jumps ∧ s < s' ∧ s' ≤ b.length) := by
  unfold loopTurn
  split
  · next hj => exact Or.inl ⟨0, _, rfl, Nat.zero_le _, fun _ => rfl⟩
  · next hj =>
    split
    · exact Or.inl ⟨0, _, rfl, Nat.zero_le _, fun h => absurd h hj⟩
    · next hs =>
      split
      · exact Or.inl ⟨0, _, rfl, Nat.zero_le _, fun h => absurd h hj⟩
      · exact Or.inl ⟨0, _, rfl, Nat.zero_le _, fun h => absurd h hj⟩
      · next len s₁ hget =>
        obtain rfl := (getU8_ok.1 hget).2
        split
        · exact Or.inl ⟨1, _, rfl, by omega, fun h => absurd h hj⟩
        · split
          · split
            · exact Or.inl ⟨1, _, rfl, by omega, fun h => absurd h hj⟩
            · split
              · exact Or.inl ⟨1, _, rfl, by omega, fun h => absurd h hj⟩
              · exact Or.inl ⟨1, _, rfl, by omega, fun h => absurd h hj⟩
              · exact Or.inr ⟨_, _, _, rfl, by omega, by omega, Or.inl rfl⟩
          · split
            · exact Or.inl ⟨1, _, rfl, by omega, fun h => absurd h hj⟩
            · next hlen =>
              split
              · exact Or.inl ⟨1, _, rfl, by omega, fun h => absurd h hj⟩
              · exact Or.inl ⟨1, _, rfl, by omega, fun h => absurd h hj⟩
              · next bytes s₂ hcopy =>
                have hs₂ := (copyToSlice_ok.1 hcopy).2.2
                split
                · exact Or.inl ⟨1, _, rfl, by omega, fun h => absurd h hj⟩
                · exact Or.inr ⟨_, _, _, rfl, by omega, by omega, Or.inr ⟨rfl, by omega, by omega⟩⟩

/-- A measure that every turn lowers. -/
theorem loopTurn_again {jumps jumps' s' : Nat} {domain domain' : Str}
    (h : loopTurn jumps domain b s = .again jumps' domain' s') :
    (51 - jumps') * (b.length + 1) + (b.length - s') <
      (51 - jumps) * (b.length + 1) + (b.length - s) := by
  obtain ⟨n, result, heq, -⟩ | ⟨j, d, t, heq, hj, hs, hnext⟩ := loopTurn_cases jumps domain b s
  · cases heq.symm.trans h
  · cases heq.symm.trans h
    obtain rfl | ⟨rfl, hlt, hle⟩ := hnext
    · have he : 51 - jumps = (51 - (jumps + 1)) + 1 := by omega
      rw [he, Nat.add_mul]
      omega
    · omega

/-- The number of length bytes that the loop reads. -/
def lengthBytes (jumpsCount : Nat) (domain : Str) (b : List UInt8) (pos : Nat) : Nat :=
  match _h : loopTurn jumpsCount domain b pos with
  | .ends n _ => n
  | .again jumpsCount' domain' pos' => 1 + lengthBytes jumpsCount' domain' b pos'
termination_by (51 - jumpsCount) * (b.length + 1) + (b.length - pos)
decreasing_by exact loopTurn_again _h

/-- Between two jumps no position is read twice. -/
theorem lengthBytes_le (jumps : Nat) (domain : Str) (b : List UInt8) (s : Nat) :
    lengthBytes jumps domain b s ≤
      if jumps ≤ 50 then (50 - jumps) * b.length + (b.length - s) else 0 := by
  induction jumps, domain, s using lengthBytes.induct b with
  | case1 jumps domain s n result heq =>
    rw [lengthBytes, heq]
    dsimp only
    obtain ⟨n', r', heq', hn, h0⟩ | ⟨j, d, t, heq', -⟩ := loopTurn_cases jumps domain b s
    · cases heq.symm.trans heq'
      split
      · omega
      · exact Nat.le_of_eq (h0 (by omega))
    · cases heq.symm.trans heq'
  | case2 jumps domain s jumps' domain' s' heq ih =>
    rw [lengthBytes, heq]
    dsimp only
    obtain ⟨n', r', heq', -⟩ | ⟨j, d, t, heq', hj, hs, hnext⟩ := loopTurn_cases jumps domain b s
    · cases heq.symm.trans heq'
    · cases heq.symm.trans heq'
      rw [if_pos hj]
      obtain rfl | ⟨rfl, hlt, hle⟩ := hnext
      · -- a jump: what is left of this stretch pays for it
        split at ih
        · next hj' =>
          have he : 50 - jumps = (50 - (jumps + 1)) + 1 := by omega
          rw [he, Nat.add_mul]
          omega
        · omega
      · rw [if_pos hj] at ih
        omega

/-! ## Walks -/

/-- One step of the walk, over a label or along a pointer. -/
inductive Hop (b : List UInt8) : Nat → Nat → Prop where
  | label {s : Nat} {l : Label} : 0 < l.length → l.length < 192 → BytesAt b s (counted l) →
      Hop b s (s + 1 + l.length)
  | pointer {s off : Nat} : off < 16384 → BytesAt b s (pointerBytes off) → Hop b s off

/-- A step leads to the rest of the name. -/
theorem NameAt.hop {ls : List Label} {k e t : Nat} (h : NameAt b s ls k e z) (hop : Hop b s t) :
    ∃ ls' k' e', NameAt b t ls' k' e' z ∧ ls'.length + k' < ls.length + k := by
  cases hop with
  | label h0 hl hb =>
    cases h with
    | root hroot => exact (not_root_label hroot h0 hl hb).elim
    | label _ hl' hb' hn =>
      obtain rfl := label_unique hl hb hl' hb'
      exact ⟨_, _, _, hn, by rw [List.length_cons]; omega⟩
    | pointer hoff hp _ => exact (not_label_pointer hl hb hoff hp).elim
  | pointer hoff hp =>
    cases h with
    | root hroot => exact (not_root_pointer hroot hoff hp).elim
    | label _ hl hb _ => exact (not_label_pointer hl hb hoff hp).elim
    | pointer hoff' hp' hn =>
      obtain rfl := pointer_unique hoff hp hoff' hp'
      exact ⟨_, _, _, hn, by omega⟩

theorem NameAt.hops {ls : List Label} {k e t : Nat} (h : NameAt b s ls k e z)
    (hops : Relation.ReflTransGen (Hop b) s t) : ∃ ls' k' e', NameAt b t ls' k' e' z := by
  induction hops with
  | refl => exact ⟨ls, k, e, h⟩
  | tail _ hop ih =>
    obtain ⟨ls', k', e', hn⟩ := ih
    obtain ⟨ls'', k'', e'', hn', -⟩ := hn.hop hop
    exact ⟨ls'', k'', e'', hn'⟩

theorem NameAt.hops_lt {ls : List Label} {k e t : Nat} (h : NameAt b s ls k e z)
    (hops : Relation.TransGen (Hop b) s t) :
    ∃ ls' k' e', NameAt b t ls' k' e' z ∧ ls'.length + k' < ls.length + k := by
  induction hops with
  | single hop => exact h.hop hop
  | tail _ hop ih =>
    obtain ⟨ls', k', e', hn, hlt⟩ := ih
    obtain ⟨ls'', k'', e'', hn', hlt'⟩ := hn.hop hop
    exact ⟨ls'', k'', e'', hn', by omega⟩

/-- No name is spelled on a cycle. -/
theorem NameAt.not_cycle {ls : List Label} {k e : Nat} (h : NameAt b s ls k e z) :
    ¬ Relation.TransGen (Hop b) s s := by
  intro hops
  obtain ⟨ls', k', e', hn, hlt⟩ := h.hops_lt hops
  obtain ⟨rfl, rfl, -, -⟩ := h.unique hn
  omega

/-! ## The reader -/

theorem readDomainName_ok_or_err (b : List UInt8) (s : Nat) :
    (∃ n z, readDomainName b s = .ok (n, z)) ∨ ∃ e, readDomainName b s = .err e := by
  rcases h : readDomainName b s with ⟨n, z⟩ | e | _
  · exact Or.inl ⟨n, z, rfl⟩
  · exact Or.inr ⟨e, rfl⟩
  · exact absurd h readDomainName_ne_panic

theorem exists_texts {ls : List Label} (h : ∀ l ∈ ls, (fromUtf8 l).isSome) :
    ∃ ts : List Str, ts.map encode = ls := by
  have hrange : ls ∈ Set.range (List.map encode) := by
    rw [Set.range_list_map]
    intro l hl
    obtain ⟨t, ht⟩ := Option.isSome_iff_exists.1 (h l hl)
    exact ⟨t, (fromUtf8_eq_some.1 ht).symm⟩
  exact hrange

theorem lengthBytes_turn (jumps : Nat) (domain : Str) (b : List UInt8) (s : Nat) :
    lengthBytes jumps domain b s =
      match loopTurn jumps domain b s with
      | .ends n _ => n
      | .again jumps' domain' s' => 1 + lengthBytes jumps' domain' b s' := by
  rw [lengthBytes]
  split
  · next heq => rw [heq]
  · next heq => rw [heq]

/-- From every position of every buffer: the reader ends with a name or an error, after at
    most 51 * (|b| + 1) length bytes, counted turn by turn of its loop; it ends with a name
    exactly if the walk reaches a zero byte through at most 50 pointers and valid UTF-8 labels
    inside the buffer; and it rejects every walk that comes back to where it was. -/
theorem readDomainName_terminates (b : List UInt8) (s : Nat) :
    ((∃ n z, readDomainName b s = .ok (n, z)) ∨ ∃ e, readDomainName b s = .err e) ∧
    ((∀ jumps domain t, readDomainNameLoop jumps domain b t =
        match loopTurn jumps domain b t with
        | .ends _ result => result
        | .again jumps' domain' t' => readDomainNameLoop jumps' domain' b t') ∧
      (∀ jumps domain t, lengthBytes jumps domain b t =
        match loopTurn jumps domain b t with
        | .ends n _ => n
        | .again jumps' domain' t' => 1 + lengthBytes jumps' domain' b t') ∧
      lengthBytes 0 [] b s ≤ 51 * (b.length + 1)) ∧
    ((∃ n z, readDomainName b s = .ok (n, z)) ↔
      ∃ ls k e z, NameAt b s ls k e z ∧ k ≤ 50 ∧ ∀ l ∈ ls, (fromUtf8 l).isSome) ∧
    ∀ t, Relation.ReflTransGen (Hop b) s t → Relation.TransGen (Hop b) t t →
      ∃ e, readDomainName b s = .err e := by
  refine ⟨readDomainName_ok_or_err b s, ⟨fun jumps domain t => readDomainNameLoop_turn jumps domain,
    fun jumps domain t => lengthBytes_turn jumps domain b t, ?_⟩, ?_, ?_⟩
  · have hle := lengthBytes_le 0 [] b s
    rw [if_pos (by omega)] at hle
    omega
  · constructor
    · intro hx
      obtain ⟨n, z, h⟩ := hx
      obtain ⟨ts, k, e, hn, hk, -⟩ := readDomainName_ok.1 h
      refine ⟨_, k, e, z, hn, hk, ?_⟩
      intro l hl
      obtain ⟨t, -, rfl⟩ := List.mem_map.1 hl
      rw [fromUtf8_encode]
      rfl
    · intro h
      obtain ⟨ls, k, e, z, hn, hk, hutf8⟩ := h
      obtain ⟨ts, rfl⟩ := exists_texts hutf8
      exact ⟨nameText ts, z, readDomainName_ok.2 ⟨ts, k, e, hn, hk, rfl⟩⟩
  · intro t hreach hcycle
    obtain ⟨n, z, h⟩ | herr := readDomainName_ok_or_err b s
    · obtain ⟨ts, k, e, hn, -, -⟩ := readDomainName_ok.1 h
      obtain ⟨ls', k', e', hn'⟩ := hn.hops hreach
      exact absurd hcycle hn'.not_cycle
    · exact herr

end VantaDns.Protocol
