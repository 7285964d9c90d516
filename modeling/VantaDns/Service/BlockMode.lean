/-
  The block mode: what `ServerConfig::validate` accepts and what the handlers make of it.

  `validate` lower-cases the mode, the handlers compare it as it was written.
  `servesMode_iff`: a blocked query is answered in the mode of the configuration exactly if
  an nxdomain mode is written in lower case. A zero_ip mode is served however it is written,
  since the handlers take every other text for it.
-/
import VantaDns.Config.Startup
import VantaDns.Protocol.Blocked
import VantaDns.Protocol.Wire

namespace VantaDns.Service

open Lib Lib.Unicode Protocol Config VantaDns.Filter

/-- The response code of a message, in the low bits of its fourth byte. -/
def responseCode (message : List UInt8) : UInt8 := message.getD 3 0 &&& 0x0F

/-- The reply is there, and its code is that of the mode, whatever case the mode is written in. -/
def ServesMode (config : ServerConfig) (served : Served) : Prop :=
  ∃ reply, served.reply = some reply ∧
    (responseCode reply = ResponseCode.NXDomain.toU8 ↔
      toLowercase config.blockMode = "nxdomain".toList) ∧
    (responseCode reply = ResponseCode.NoError.toU8 ↔
      toLowercase config.blockMode = "zero_ip".toList)

theorem responseCode_flags (h : DnsHeader) :
    UInt8.ofNat (h.flags.toNat % 256) &&& 0x0F = h.rcode.toU8 := by
  have hbits := congrArg UInt16.toNat (rcodeBits_flags h)
  unfold rcodeBits at hbits
  apply UInt8.toNat_inj.1
  rw [UInt16.toNat_and, UInt8.toNat_toUInt16] at hbits
  rw [UInt8.toNat_and, UInt8.toNat_ofNat', ← hbits]
  show h.flags.toNat % 256 % 2 ^ 8 &&& 2 ^ 4 - 1 = h.flags.toNat &&& 2 ^ 4 - 1
  rw [Nat.and_two_pow_sub_one_eq_mod, Nat.and_two_pow_sub_one_eq_mod]
  omega

theorem responseCode_toBytes (p : DnsPacket) : responseCode p.toBytes = p.header.rcode.toU8 :=
  responseCode_flags p.countedHeader

/-- Serving queries changes neither the rules nor the block mode. -/
theorem foldl_fixed (state : DnsServiceState) (requests : List Request) :
    (requests.foldl DnsServiceState.step state).filter = state.filter ∧
      (requests.foldl DnsServiceState.step state).blockMode = state.blockMode := by
  induction requests generalizing state with
  | nil => exact ⟨rfl, rfl⟩
  | cons r requests ih => exact ih (state.step r)

theorem reply_blocked {query : List UInt8} {state : DnsServiceState} {packet : DnsPacket}
    {question : DnsQuestion} {rule : Str} (hp : DnsPacket.parse query = .ok packet)
    (hq : packet.questions.head? = some question)
    (hb : state.filter.evaluate question.name = .Blocked rule) (t : Transport) (env : Env) :
    (serve t query state env).reply = some (blockedReply state packet).toBytes := by
  rw [serve_eq, routeOf_blocked hp hq hb]
  cases t <;> rfl

/-- The code of a blocked reply depends on whether the mode is the text `nxdomain`. -/
theorem responseCode_blockedReply (state : DnsServiceState) (packet : DnsPacket) :
    responseCode (blockedReply state packet).toBytes =
      if state.blockMode = "nxdomain".toList then ResponseCode.NXDomain.toU8
      else ResponseCode.NoError.toU8 := by
  have hrcode : ∀ useNxdomain, (packet.buildBlockedResponse useNxdomain).header.rcode =
      if useNxdomain then .NXDomain else .NoError := by
    intro useNxdomain
    rw [buildBlockedResponse_eq]
  rw [responseCode_toBytes, blockedReply, hrcode]
  by_cases h : state.blockMode = "nxdomain".toList
  · rw [if_pos h, decide_eq_true h, if_pos rfl]
  · rw [if_neg h, decide_eq_false h, if_neg Bool.false_ne_true]

theorem toLowercase_nxdomain : toLowercase "nxdomain".toList = "nxdomain".toList := by decide

/-- The mode is served if its spelling is the one the handlers look for. -/
theorem servesMode_of_blocked {config : ServerConfig}
    (hvalid : toLowercase config.blockMode = "nxdomain".toList ∨
      toLowercase config.blockMode = "zero_ip".toList)
    {state : DnsServiceState} (hmode : state.blockMode = config.blockMode)
    {query : List UInt8} {packet : DnsPacket} {question : DnsQuestion} {rule : Str}
    (hp : DnsPacket.parse query = .ok packet) (hq : packet.questions.head? = some question)
    (hb : state.filter.evaluate question.name = .Blocked rule) (t : Transport) (env : Env) :
    ServesMode config (serve t query state env) ↔
      (toLowercase config.blockMode = "nxdomain".toList → config.blockMode = "nxdomain".toList) := by
  have hcode := responseCode_blockedReply state packet
  rw [hmode] at hcode
  have hne : "nxdomain".toList ≠ "zero_ip".toList := by decide
  unfold ServesMode
  rw [reply_blocked hp hq hb]
  constructor
  · intro h hlower
    obtain ⟨reply, hreply, hnx, -⟩ := h
    cases hreply
    by_contra hwritten
    have hnxcode := hnx.2 hlower
    rw [hcode, if_neg hwritten] at hnxcode
    exact absurd hnxcode (by decide)
  · intro h
    refine ⟨_, rfl, ?_⟩
    rw [hcode]
    by_cases hwritten : config.blockMode = "nxdomain".toList
    · have hlower : toLowercase config.blockMode = "nxdomain".toList := by
        rw [hwritten, toLowercase_nxdomain]
      rw [if_pos hwritten]
      exact ⟨iff_of_true rfl hlower, iff_of_false (by decide) (hlower ▸ hne)⟩
    · have hlower : toLowercase config.blockMode ≠ "nxdomain".toList := fun hl => hwritten (h hl)
      rw [if_neg hwritten]
      exact ⟨iff_of_false (by decide) hlower, iff_of_true rfl (hvalid.resolve_left hlower)⟩

/-- Under an accepted configuration, in every state the service reaches, a blocked query is
    answered over either transport in the mode of the configuration exactly if a mode that is
    nxdomain in lower case is written so. -/
theorem servesMode_iff {vars : EnvVars} {files : Files} {config : ServerConfig}
    (hconfig : config.validate vars = .ok ()) (requests : List Request) {state : DnsServiceState}
    (hstate : state = requests.foldl DnsServiceState.step (serviceState vars files config))
    {query : List UInt8} {packet : DnsPacket} {question : DnsQuestion} {rule : Str}
    (hp : DnsPacket.parse query = .ok packet) (hq : packet.questions.head? = some question)
    (hb : state.filter.evaluate question.name = .Blocked rule) (t : Transport) (env : Env) :
    ServesMode config (serve t query state env) ↔
      (toLowercase config.blockMode = "nxdomain".toList → config.blockMode = "nxdomain".toList) := by
  have hmode : state.blockMode = config.blockMode := by
    rw [hstate]
    exact (foldl_fixed _ requests).2
  exact servesMode_of_blocked (ServerConfig.validate_ok_iff.1 hconfig).mode hmode hp hq hb t env

/-! ## A mode in capitals -/

/-- The default configuration with one list, in a mode written as given. -/
def listConfig (blockMode : String) : ServerConfig :=
  { ServerConfig.default with
    blockMode := blockMode.toList
    blocklistPaths := ["list.txt".toList] }

/-- Every file is the list that blocks b.com. -/
def listFiles : Files := fun _ => .ok (Utf8.encode "||b.com^\n".toList)

/-- A query for the address of b.com. -/
def blockedQuery : List UInt8 :=
  [0, 1, 1, 0, 0, 1, 0, 0, 0, 0, 0, 0] ++ [1, 98, 3, 99, 111, 109, 0, 0, 1, 0, 1]

def blockedQuestion : DnsQuestion := ⟨"b.com".toList, .A, .IN⟩

theorem parse_blockedQuery : DnsPacket.parse blockedQuery = .ok
    ⟨⟨1, false, .Query, false, false, true, false, .NoError, 1, 0, 0, 0⟩, [blockedQuestion], [], [],
      []⟩ := by
  decide +kernel

theorem evaluate_listFiles (vars : EnvVars) (blockMode : String) :
    (loadFilter vars listFiles (listConfig blockMode)).evaluate "b.com".toList =
      .Blocked "b.com".toList := by
  have htexts : listTexts vars listFiles (listConfig blockMode).blocklistPaths =
      ["||b.com^\n".toList] := by
    unfold listTexts listConfig
    rw [List.filterMap_cons, readToString_ok_iff.2 rfl]
    rfl
  have hno : listTexts vars listFiles (listConfig blockMode).allowlistPaths = [] := rfl
  rw [loadFilter_eq, htexts, hno]
  decide +kernel

theorem toLowercase_capitals : toLowercase (listConfig "NXDOMAIN").blockMode = "nxdomain".toList := by
  decide

theorem validate_listConfig (vars : EnvVars) :
    (listConfig "NXDOMAIN").validate vars = .ok () ∧
      (listConfig "nxdomain").validate vars = .ok () :=
  ⟨ServerConfig.validate_ok_iff.2
      ⟨by decide, by decide, Or.inl toLowercase_capitals, nofun, nofun⟩,
    ServerConfig.validate_ok_iff.2
      ⟨by decide, by decide, Or.inl toLowercase_nxdomain, nofun, nofun⟩⟩

theorem servesMode_iff_listConfig :
    ServesMode (listConfig "nxdomain")
      (serve .tcp blockedQuery (serviceState (fun _ => none) listFiles (listConfig "nxdomain"))
        silentEnv) :=
  (servesMode_iff (validate_listConfig _).2 [] rfl parse_blockedQuery rfl
    (evaluate_listFiles _ "nxdomain") .tcp silentEnv).2 fun _ => rfl

/-- With the mode `NXDOMAIN`, which is accepted, a blocked name is answered with 0.0.0.0. -/
theorem not_servesMode_capitals :
    (listConfig "NXDOMAIN").validate (fun _ => none) = .ok () ∧
    responseCode (blockedReply (serviceState (fun _ => none) listFiles (listConfig "NXDOMAIN"))
      ⟨⟨1, false, .Query, false, false, true, false, .NoError, 1, 0, 0, 0⟩, [blockedQuestion], [], [],
        []⟩).toBytes = ResponseCode.NoError.toU8 ∧
    ¬ ServesMode (listConfig "NXDOMAIN")
      (serve .udp blockedQuery (serviceState (fun _ => none) listFiles (listConfig "NXDOMAIN"))
        silentEnv) := by
  refine ⟨(validate_listConfig _).1, ?_, ?_⟩
  · rw [responseCode_blockedReply, if_neg (by decide)]
  · have hlower := toLowercase_capitals
    have hblocked : (serviceState (fun _ => none) listFiles (listConfig "NXDOMAIN")).filter.evaluate
        blockedQuestion.name = .Blocked "b.com".toList := evaluate_listFiles _ "NXDOMAIN"
    have hserves := servesMode_of_blocked (Or.inl hlower) rfl parse_blockedQuery rfl hblocked .udp
      silentEnv
    intro h
    exact absurd (hserves.1 h hlower) (by decide)

end VantaDns.Service
