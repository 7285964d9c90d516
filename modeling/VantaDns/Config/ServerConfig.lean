/-
  The configuration (`config.rs`): what `load_from_file` makes of a file and the environment,
  `validate`, and the upstreams of `resolve_upstreams`.

  The TOML reader and the files are arguments. `validate_ok_iff` says which configurations
  are accepted; `loadFromFile_valid`: a loaded configuration is one of them.
-/
import VantaDns.Config.SocketAddr

namespace VantaDns.Config

open Lib Lib.Text Lib.Unicode Resolver

/-- `std::env::var`: the value of a variable that is set. -/
abbrev EnvVars := String → Option Str

/-- The bytes of the files that can be read, and the errors of reading the others. -/
abbrev Files := Str → Except String (List UInt8)

/-- `std::fs::read_to_string`. -/
def readToString (files : Files) (path : Str) : Except String Str :=
  match files path with
  | .error e => .error e
  | .ok bytes =>
    match Utf8.fromUtf8 bytes with
    | some content => .ok content
    | none => .error "stream did not contain valid UTF-8"

theorem readToString_ok_iff {files : Files} {path content : Str} :
    readToString files path = .ok content ↔ files path = .ok (Utf8.encode content) := by
  unfold readToString
  constructor
  · intro h
    split at h
    · cases h
    · next bytes hfile =>
      split at h
      · next text htext =>
        cases h
        rw [hfile, Utf8.fromUtf8_eq_some.1 htext]
      · cases h
  · intro h
    rw [h]
    dsimp only
    rw [Utf8.fromUtf8_encode]

inductive ConfigError where
  | IoError (e : String)
  | TomlError (e : String)
  | ValidationError (text : String)
  deriving DecidableEq

def defaultUpstreamAddr : SocketAddr := .V4 (.ofFn ![127, 0, 0, 1]) 5335

def defaultTlsPort : UInt16 := 853

structure ServerSection where
  bindAddr : SocketAddr
  upstreamAddr : SocketAddr := defaultUpstreamAddr
  upstreams : List Str := []
  tcpEnabled : Bool := false
  tlsEnabled : Bool := false
  tlsCertPath : Option Str := none
  tlsKeyPath : Option Str := none
  tlsPort : UInt16 := defaultTlsPort
  blockMode : Str
  loggingEnabled : Bool := false

structure CacheSection where
  capacity : Nat
  minTtlSecs : Nat
  maxTtlSecs : Nat

structure FilterSection where
  blocklistPaths : List Str := []
  allowlistPaths : List Str := []

structure TomlConfigFile where
  server : ServerSection
  cache : CacheSection
  filter : Option FilterSection := none

structure ServerConfig where
  bindAddr : SocketAddr
  upstreamAddr : SocketAddr
  upstreams : List Str
  tcpEnabled : Bool
  tlsEnabled : Bool
  tlsCertPath : Option Str
  tlsKeyPath : Option Str
  tlsPort : UInt16
  blockMode : Str
  cacheCapacity : Nat
  minTtlSecs : Nat
  maxTtlSecs : Nat
  blocklistPaths : List Str
  allowlistPaths : List Str
  loggingEnabled : Bool

/-- `toml::from_str`, for both layouts of the file. -/
structure Toml where
  table : Str → Option TomlConfigFile
  flat : Str → Except String ServerConfig

/-- The configuration of a file with sections. -/
def TomlConfigFile.config (file : TomlConfigFile) : ServerConfig :=
  let filter := file.filter.getD { }
  { bindAddr := file.server.bindAddr
    upstreamAddr := file.server.upstreamAddr
    upstreams := file.server.upstreams
    tcpEnabled := file.server.tcpEnabled
    tlsEnabled := file.server.tlsEnabled
    tlsCertPath := file.server.tlsCertPath
    tlsKeyPath := file.server.tlsKeyPath
    tlsPort := file.server.tlsPort
    blockMode := file.server.blockMode
    cacheCapacity := file.cache.capacity
    minTtlSecs := file.cache.minTtlSecs
    maxTtlSecs := file.cache.maxTtlSecs
    blocklistPaths := filter.blocklistPaths
    allowlistPaths := filter.allowlistPaths
    loggingEnabled := file.server.loggingEnabled }

namespace ServerConfig

def default : ServerConfig where
  bindAddr := .V4 (.ofFn ![127, 0, 0, 1]) 5353
  upstreamAddr := .V4 (.ofFn ![127, 0, 0, 1]) 5335
  upstreams := []
  tcpEnabled := false
  tlsEnabled := false
  tlsCertPath := none
  tlsKeyPath := none
  tlsPort := 853
  blockMode := "nxdomain".toList
  cacheCapacity := 10000
  minTtlSecs := 60
  maxTtlSecs := 86400
  blocklistPaths := []
  allowlistPaths := []
  loggingEnabled := false

def validate (env : EnvVars) (config : ServerConfig) : Except ConfigError Unit :=
  if config.cacheCapacity = 0 then
    .error (.ValidationError "cache_capacity must be greater than 0")
  else if config.maxTtlSecs < config.minTtlSecs then
    .error (.ValidationError "min_ttl_secs cannot be greater than max_ttl_secs")
  else
    let mode := toLowercase config.blockMode
    if mode ≠ "nxdomain".toList ∧ mode ≠ "zero_ip".toList then
      .error (.ValidationError ("Invalid block_mode: '" ++ String.ofList config.blockMode ++
        "'. Allowed: 'nxdomain' or 'zero_ip'"))
    else if config.tlsEnabled then
      if config.tlsCertPath.isNone && (env "TLS_CERT_PATH").isNone then
        .error (.ValidationError
          "tls_enabled=true but no TLS certificate provided. Set tls_cert_path or TLS_CERT env var")
      else if config.tlsKeyPath.isNone && (env "TLS_KEY_PATH").isNone then
        .error (.ValidationError
          "tls_enabled=true but no TLS private key provided. Set tls_key_path or TLS_KEY env var")
      else .ok ()
    else .ok ()

/-- `if let Ok(value) = std::env::var(..) { path = Some(value) }`. -/
def overridden (value path : Option Str) : Option Str :=
  match value with
  | some value => some value
  | none => path

def applyTlsEnvOverrides (env : EnvVars) (config : ServerConfig) : ServerConfig :=
  let cert := overridden (env "TLS_CERT") config.tlsCertPath
  let key := overridden (env "TLS_KEY") config.tlsKeyPath
  let cert := overridden (env "TLS_CERT_PATH") cert
  let key := overridden (env "TLS_KEY_PATH") key
  let upstreams :=
    match env "VANTA_DNS_UPSTREAMS" with
    | some list => (list.splitOn ',').map trim
    | none => config.upstreams
  let config := { config with tlsCertPath := cert, tlsKeyPath := key, upstreams := upstreams }
  if !config.tlsEnabled && cert.isSome && key.isSome then
    { config with tlsEnabled := true, tcpEnabled := true }
  else config

/-- What `load_from_file` does with the configuration it has read. -/
def finish (env : EnvVars) (config : ServerConfig) : Except ConfigError ServerConfig :=
  let config := config.applyTlsEnvOverrides env
  match config.validate env with
  | .error e => .error e
  | .ok () => .ok config

def loadFromFile (toml : Toml) (env : EnvVars) (files : Files) (path : Str) :
    Except ConfigError ServerConfig :=
  match readToString files path with
  | .error e => .error (.IoError e)
  | .ok content =>
    match toml.table content with
    | some file => file.config.finish env
    | none =>
      -- Fallback to flat format
      match toml.flat content with
      | .error e => .error (.TomlError e)
      | .ok config => config.finish env

/-- One round of the loop of `resolve_upstreams`: the entry that is pushed, if any. -/
def resolveUpstream (spec : Str) : Option UpstreamEntry :=
  let spec := trim spec
  if spec.isEmpty then none
  else
    match stripPrefix "tcp:".toList spec with
    | some rest => (SocketAddr.fromStr rest).map fun addr => ⟨addr, .Tcp⟩
    | none =>
      match stripPrefix "udp:".toList spec with
      | some rest => (SocketAddr.fromStr rest).map fun addr => ⟨addr, .Udp⟩
      -- Bare address defaults to UDP (legacy compatibility).
      | none => (SocketAddr.fromStr spec).map fun addr => ⟨addr, .Udp⟩

def resolveUpstreams (config : ServerConfig) : List UpstreamEntry :=
  let entries := config.upstreams.filterMap resolveUpstream
  if entries.isEmpty && config.upstreams.isEmpty then [⟨config.upstreamAddr, .Udp⟩] else entries

/-! ## Accepted configurations -/

/-- What `validate` asks of a configuration. -/
structure Valid (env : EnvVars) (config : ServerConfig) : Prop where
  capacity : 0 < config.cacheCapacity
  bounds : config.minTtlSecs ≤ config.maxTtlSecs
  mode : toLowercase config.blockMode = "nxdomain".toList ∨
    toLowercase config.blockMode = "zero_ip".toList
  cert : config.tlsEnabled = true →
    config.tlsCertPath.isSome = true ∨ (env "TLS_CERT_PATH").isSome = true
  key : config.tlsEnabled = true →
    config.tlsKeyPath.isSome = true ∨ (env "TLS_KEY_PATH").isSome = true

theorem absent_iff {path var : Option Str} :
    (path.isNone && var.isNone) = true ↔ ¬ (path.isSome = true ∨ var.isSome = true) := by
  cases path <;> cases var <;> simp

theorem validate_ok_iff {env : EnvVars} {config : ServerConfig} :
    config.validate env = .ok () ↔ config.Valid env := by
  unfold validate
  dsimp only
  constructor
  · intro h
    by_cases hcap : config.cacheCapacity = 0
    · rw [if_pos hcap] at h
      cases h
    by_cases hle : config.maxTtlSecs < config.minTtlSecs
    · rw [if_neg hcap, if_pos hle] at h
      cases h
    by_cases hmode : toLowercase config.blockMode ≠ "nxdomain".toList ∧
        toLowercase config.blockMode ≠ "zero_ip".toList
    · rw [if_neg hcap, if_neg hle, if_pos hmode] at h
      cases h
    rw [if_neg hcap, if_neg hle, if_neg hmode] at h
    refine ⟨by omega, by omega, by tauto, ?_, ?_⟩
    · intro ht
      by_contra habsent
      rw [if_pos ht, if_pos (absent_iff.2 habsent)] at h
      cases h
    · intro ht
      by_contra habsent
      rw [if_pos ht, if_pos (absent_iff.2 habsent)] at h
      split at h <;> cases h
  · intro h
    have hcap := h.capacity
    have hle := h.bounds
    have hmode := h.mode
    rw [if_neg (by omega), if_neg (by omega), if_neg (by tauto)]
    by_cases ht : config.tlsEnabled = true
    · rw [if_pos ht, if_neg (absent_iff.not.2 (not_not.2 (h.cert ht))),
        if_neg (absent_iff.not.2 (not_not.2 (h.key ht)))]
    · rw [if_neg ht]

/-- The overrides touch the TLS settings and the upstreams; TLS is switched on with both paths. -/
theorem applyTlsEnvOverrides_spec (env : EnvVars) (config : ServerConfig) :
    let config' := config.applyTlsEnvOverrides env
    config'.cacheCapacity = config.cacheCapacity ∧ config'.minTtlSecs = config.minTtlSecs ∧
      config'.maxTtlSecs = config.maxTtlSecs ∧ config'.blockMode = config.blockMode ∧
      config'.blocklistPaths = config.blocklistPaths ∧
      config'.allowlistPaths = config.allowlistPaths ∧
      (config.tlsEnabled = false → config'.tlsEnabled = true →
        config'.tlsCertPath.isSome = true ∧ config'.tlsKeyPath.isSome = true) := by
  unfold applyTlsEnvOverrides
  dsimp only
  split
  · next h =>
    simp only [Bool.and_eq_true] at h
    exact ⟨rfl, rfl, rfl, rfl, rfl, rfl, fun _ _ => ⟨h.1.2, h.2⟩⟩
  · refine ⟨rfl, rfl, rfl, rfl, rfl, rfl, ?_⟩
    intro hoff hon
    rw [hoff] at hon
    cases hon

theorem default_valid (env : EnvVars) : default.Valid env :=
  ⟨by decide, by decide, Or.inl (by decide), nofun, nofun⟩

theorem finish_ok_iff {env : EnvVars} {config config' : ServerConfig} :
    config.finish env = .ok config' ↔
      config' = config.applyTlsEnvOverrides env ∧ config'.Valid env := by
  unfold finish
  dsimp only
  constructor
  · intro h
    cases hv : (config.applyTlsEnvOverrides env).validate env with
    | error e =>
      rw [hv] at h
      cases h
    | ok u =>
      rw [hv] at h
      cases h
      exact ⟨rfl, validate_ok_iff.1 hv⟩
  · intro h
    obtain ⟨rfl, hv⟩ := h
    rw [validate_ok_iff.2 hv]

/-- A loaded configuration is one that `validate` accepts. -/
theorem loadFromFile_valid {toml : Toml} {env : EnvVars} {files : Files} {path : Str}
    {config : ServerConfig} (h : loadFromFile toml env files path = .ok config) :
    config.Valid env := by
  unfold loadFromFile at h
  split at h
  · cases h
  · split at h
    · exact (finish_ok_iff.1 h).2
    · split at h
      · cases h
      · exact (finish_ok_iff.1 h).2

end ServerConfig

end VantaDns.Config
