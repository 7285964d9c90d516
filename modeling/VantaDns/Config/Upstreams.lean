/-
  The upstreams of a configuration: `ServerConfig::resolve_upstreams` against its
  documentation, "`upstreams` entries first, falling back to the legacy `upstream_addr`".

  `SpecOf` says which entry a spec stands for, `Listed` which entries a list of specs does.
  `resolveUpstreams_eq`: the entries of the specs are returned in order, and the fallback
  looks at the specs, not at the entries. `effectiveUpstreams_iff`: so the fallback is
  missed exactly if there are specs, and none of them stands for an entry.
-/
import VantaDns.Config.ServerConfig

namespace VantaDns.Config

open Lib Lib.Text Resolver

/-- Without the white space around it, the spec is an address with an optional `tcp:` or `udp:`
    in front. -/
inductive SpecOf (spec : Str) : UpstreamEntry → Prop where
  | tcp {rest : Str} {addr : SocketAddr} (hspec : trim spec = "tcp:".toList ++ rest)
      (haddr : SocketAddr.fromStr rest = some addr) : SpecOf spec ⟨addr, .Tcp⟩
  | udp {rest : Str} {addr : SocketAddr} (hspec : trim spec = "udp:".toList ++ rest)
      (haddr : SocketAddr.fromStr rest = some addr) : SpecOf spec ⟨addr, .Udp⟩
  | bare {addr : SocketAddr} (haddr : SocketAddr.fromStr (trim spec) = some addr) :
      SpecOf spec ⟨addr, .Udp⟩

/-- The entries that the specs stand for: one for every spec that stands for one, in order. -/
inductive Listed : List Str → List UpstreamEntry → Prop where
  | nil : Listed [] []
  | entry {spec : Str} {specs : List Str} {entry : UpstreamEntry} {entries : List UpstreamEntry}
      (hspec : SpecOf spec entry) (hrest : Listed specs entries) :
      Listed (spec :: specs) (entry :: entries)
  | other {spec : Str} {specs : List Str} {entries : List UpstreamEntry}
      (hspec : ∀ entry, ¬ SpecOf spec entry) (hrest : Listed specs entries) :
      Listed (spec :: specs) entries

/-- What `resolve_upstreams` is for: the entries of the specs, or the legacy address over UDP if
    there are none, so that the forwarder never fails for lack of an upstream. -/
structure EffectiveUpstreams (config : ServerConfig) : Prop where
  resolved : ∃ entries, Listed config.upstreams entries ∧ config.resolveUpstreams =
    if entries = [] then [⟨config.upstreamAddr, .Udp⟩] else entries
  nonempty : config.resolveUpstreams ≠ []
  forwards : ∀ net queryBytes,
    (UpstreamForwarder.mk config.resolveUpstreams).forwardRaw net queryBytes ≠ .error unconfigured

/-- An address does not begin with the name of a transport. -/
theorem stripPrefix_address {s : Str} {addr : SocketAddr} (h : SocketAddr.fromStr s = some addr)
    {c : Char} (hd : toDigit 10 c = none) (hc : c ≠ '[') (pat : Str) :
    stripPrefix (c :: pat) s = none := by
  by_contra hsome
  obtain ⟨rest, hrest⟩ := Option.ne_none_iff_exists'.1 hsome
  rw [stripPrefix_eq_some.1 hrest, List.cons_append, SocketAddr.fromStr_eq_none hd hc] at h
  cases h

theorem resolveUpstream_eq_some {spec : Str} {entry : UpstreamEntry} :
    ServerConfig.resolveUpstream spec = some entry ↔ SpecOf spec entry := by
  unfold ServerConfig.resolveUpstream
  dsimp only
  constructor
  · intro h
    split at h
    · cases h
    · split at h
      · next rest hrest =>
        obtain ⟨addr, haddr, rfl⟩ := Option.map_eq_some_iff.1 h
        exact .tcp (stripPrefix_eq_some.1 hrest) haddr
      · split at h
        · next rest hrest =>
          obtain ⟨addr, haddr, rfl⟩ := Option.map_eq_some_iff.1 h
          exact .udp (stripPrefix_eq_some.1 hrest) haddr
        · obtain ⟨addr, haddr, rfl⟩ := Option.map_eq_some_iff.1 h
          exact .bare haddr
  · intro h
    cases h with
    | tcp hspec haddr =>
      rw [if_neg (by simp [hspec]), stripPrefix_eq_some.2 hspec]
      simp [haddr]
    | @udp rest addr hspec haddr =>
      have htcp : stripPrefix "tcp:".toList (trim spec) = none := by
        rw [hspec]
        rfl
      rw [if_neg (by simp [hspec]), htcp, stripPrefix_eq_some.2 hspec]
      simp [haddr]
    | @bare addr haddr =>
      have htcp : stripPrefix "tcp:".toList (trim spec) = none :=
        stripPrefix_address haddr (by decide) (by decide) _
      have hudp : stripPrefix "udp:".toList (trim spec) = none :=
        stripPrefix_address haddr (by decide) (by decide) _
      obtain ⟨c, t, hspec, -⟩ := SocketAddr.fromStr_first haddr
      rw [if_neg (by simp [hspec]), htcp, hudp]
      simp [haddr]

theorem resolveUpstream_eq_none {spec : Str} :
    ServerConfig.resolveUpstream spec = none ↔ ∀ entry, ¬ SpecOf spec entry := by
  rw [Option.eq_none_iff_forall_ne_some]
  exact forall_congr' fun entry => not_congr resolveUpstream_eq_some

/-- The entries of the specs are what the rounds of the loop push. -/
theorem listed_iff {specs : List Str} {entries : List UpstreamEntry} :
    Listed specs entries ↔ entries = specs.filterMap ServerConfig.resolveUpstream := by
  constructor
  · intro h
    induction h with
    | nil => rfl
    | entry hspec _ ih => rw [List.filterMap_cons, resolveUpstream_eq_some.2 hspec, ← ih]
    | other hspec _ ih => rw [List.filterMap_cons, resolveUpstream_eq_none.2 hspec, ← ih]
  · rintro rfl
    induction specs with
    | nil => exact .nil
    | cons spec specs ih =>
      rw [List.filterMap_cons]
      cases h : ServerConfig.resolveUpstream spec with
      | none => exact .other (resolveUpstream_eq_none.1 h) ih
      | some entry => exact .entry (resolveUpstream_eq_some.1 h) ih

/-- The fallback is taken if there are no specs; it does not depend on the entries. -/
theorem resolveUpstreams_eq {config : ServerConfig} {entries : List UpstreamEntry}
    (h : Listed config.upstreams entries) : config.resolveUpstreams =
      if config.upstreams = [] then [⟨config.upstreamAddr, .Udp⟩] else entries := by
  unfold ServerConfig.resolveUpstreams
  rw [← listed_iff.1 h]
  by_cases hnil : config.upstreams = []
  · have hentries : entries = [] := by
      rw [listed_iff.1 h, hnil]
      rfl
    simp [hnil, hentries]
  · simp [hnil]

theorem Listed.eq_nil_iff {specs : List Str} {entries : List UpstreamEntry}
    (h : Listed specs entries) : entries = [] ↔ ∀ spec ∈ specs, ∀ entry, ¬ SpecOf spec entry := by
  rw [listed_iff.1 h, List.filterMap_eq_nil_iff]
  exact forall₂_congr fun spec _ => resolveUpstream_eq_none

/-- The documentation is met exactly if there are no specs, or one of them is an address with an
    optional `tcp:` or `udp:` in front. -/
theorem effectiveUpstreams_iff (config : ServerConfig) :
    EffectiveUpstreams config ↔
      config.upstreams = [] ∨ ∃ spec ∈ config.upstreams, ∃ entry, SpecOf spec entry := by
  obtain ⟨entries, hlisted⟩ : ∃ entries, Listed config.upstreams entries :=
    ⟨_, listed_iff.2 rfl⟩
  have heq := resolveUpstreams_eq hlisted
  have hnone := hlisted.eq_nil_iff
  constructor
  · intro h
    by_contra hcon
    push Not at hcon
    apply h.nonempty
    rw [heq, if_neg hcon.1]
    exact hnone.2 fun spec hspec entry => hcon.2 spec hspec entry
  · intro h
    have hresolved : config.resolveUpstreams =
        if entries = [] then [⟨config.upstreamAddr, .Udp⟩] else entries := by
      rw [heq]
      rcases h with h | ⟨spec, hspec, entry, hentry⟩
      · rw [if_pos h, if_pos (hnone.2 (by simp [h]))]
      · have hne : entries ≠ [] := fun hnil => hnone.1 hnil spec hspec entry hentry
        rw [if_neg (List.ne_nil_of_mem hspec), if_neg hne]
    have hne : config.resolveUpstreams ≠ [] := by
      rw [hresolved]
      split
      · exact List.cons_ne_nil _ _
      · assumption
    refine ⟨⟨entries, hlisted, hresolved⟩, hne, ?_⟩
    intro net queryBytes hfail
    exact hne (forwardRaw_unconfigured_iff.1 hfail)

/-- The text of a configuration that names no upstreams. -/
def sampleText : Str :=
  "[server]\nbind_addr = \"127.0.0.1:5353\"\nblock_mode = \"nxdomain\"\n\n".toList ++
    "[cache]\ncapacity = 10000\nmin_ttl_secs = 60\nmax_ttl_secs = 86400\n".toList

def sampleFile : TomlConfigFile where
  server := { bindAddr := .V4 (.ofFn ![127, 0, 0, 1]) 5353, blockMode := "nxdomain".toList }
  cache := ⟨10000, 60, 86400⟩

/-- A TOML reader that knows this text. -/
def sampleToml : Toml where
  table content := if content = sampleText then some sampleFile else none
  flat _ := .error "missing field"

/-- The variable for the upstreams is set, and empty. -/
def emptyUpstreams : EnvVars := fun name => if name = "VANTA_DNS_UPSTREAMS" then some [] else none

/-- With `VANTA_DNS_UPSTREAMS` set and empty the configuration is accepted with one blank spec:
    there are no upstreams, and the legacy address is not used. -/
theorem not_effectiveUpstreams_emptyUpstreams : ∃ config,
    ServerConfig.loadFromFile sampleToml emptyUpstreams (fun _ => .ok (Utf8.encode sampleText))
      "config/vanta-dns.toml".toList = .ok config ∧
    config.upstreams = [[]] ∧ config.resolveUpstreams = [] ∧ ¬ EffectiveUpstreams config := by
  have hread : readToString (fun _ => .ok (Utf8.encode sampleText)) "config/vanta-dns.toml".toList =
      .ok sampleText := readToString_ok_iff.2 rfl
  refine ⟨{ ServerConfig.default with upstreams := [[]] }, ?_, rfl, rfl, fun h => h.nonempty rfl⟩
  have htable : sampleToml.table sampleText = some sampleFile := by
    simp only [sampleToml, ↓reduceIte]
  rw [ServerConfig.loadFromFile, hread]
  dsimp only
  rw [htable]
  exact ServerConfig.finish_ok_iff.2
    ⟨rfl, by decide, by decide, Or.inl (by decide), nofun, nofun⟩

end VantaDns.Config
