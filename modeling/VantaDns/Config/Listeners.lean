/-
  Coming online (`run_server` in `main.rs` up to its loops, and `build_tls_acceptor`): the room
  for the cache, the addresses that are bound, the certificates and the key that are read.

  The packages for PEM files and TLS and the machine are arguments.
  `runServer_spec`: when the server comes to its loops, and what it listens on. With TLS
  switched on, in the file or by what the environment gives, both paths are there
  (`tls_paths_given`), so that the two errors for a missing path are never seen.
  `tls_same_port_fails`: a deployment that never gets there.
-/
import VantaDns.Config.Startup

namespace VantaDns.Config

open Lib Lib.Text Resolver Service

/-- What `rustls_pemfile::read_one` finds. `other` are certificates, and keys in SEC1 too. -/
inductive PemItem where
  | Pkcs8Key (k : List UInt8)
  | Pkcs1Key (k : List UInt8)
  | other

inductive PrivateKeyDer where
  | Pkcs8 (k : List UInt8)
  | Pkcs1 (k : List UInt8)
  deriving DecidableEq

structure TlsAcceptor where
  certs : List (List UInt8)
  key : PrivateKeyDer

/-- The packages for PEM files and TLS. `items` are the results of `read_one`, call after call,
    up to the end of the file. -/
structure TlsPackages where
  certs : List UInt8 → Except String (List (List UInt8))
  items : List UInt8 → List (Except String PemItem)
  withSingleCert : List (List UInt8) → PrivateKeyDer → Except String Unit

/-- The machine. Whether an address can be bound for TCP depends on those that are bound
    already. -/
structure Machine where
  /-- There is room for so many entries, all of which `LruCache::new` allocates at once. -/
  allocates : Nat → Bool
  bindUdp : SocketAddr → Except String Unit
  bindTcp : List SocketAddr → SocketAddr → Except String Unit

/-- `ok_or`. -/
def okOr {α : Type} (o : Option α) (e : String) : Except String α :=
  match o with
  | some a => .ok a
  | none => .error e

/-- The loop of `build_tls_acceptor`, with the keys found so far. -/
def readKeys : (keyItems : List PrivateKeyDer) → List (Except String PemItem) →
    Except String (List PrivateKeyDer)
  | keyItems, [] => .ok keyItems
  | keyItems, .ok (.Pkcs8Key k) :: items => readKeys (keyItems ++ [.Pkcs8 k]) items
  | keyItems, .ok (.Pkcs1Key k) :: items => readKeys (keyItems ++ [.Pkcs1 k]) items
  | keyItems, .ok .other :: items => readKeys keyItems items
  | _, .error e :: _ => .error ("key parse error: " ++ e)

def buildTlsAcceptor (tls : TlsPackages) (files : Files) (config : ServerConfig) :
    Except String TlsAcceptor := do
  let certPath ← okOr config.tlsCertPath "TLS cert path missing"
  let keyPath ← okOr config.tlsKeyPath "TLS key path missing"
  let certFile ← files certPath
  let keyFile ← files keyPath
  let certs ← (tls.certs certFile).mapError fun e => "cert parse error: " ++ e
  let keyItems ← readKeys [] (tls.items keyFile)
  let key ← okOr keyItems.head? "no private key found"
  tls.withSingleCert certs key
  return ⟨certs, key⟩

def SocketAddr.port : SocketAddr → UInt16
  | .V4 _ port => port
  | .V6 _ port _ => port

/-- `(addr.ip(), port).into()`, which does not keep the scope. -/
def SocketAddr.withPort : SocketAddr → UInt16 → SocketAddr
  | .V4 ip _, port => .V4 ip port
  | .V6 ip _ _, port => .V6 ip port 0

/-- A server that has come online. -/
structure Online where
  state : DnsServiceState
  udp : SocketAddr
  tcp : Option SocketAddr
  tls : Option (SocketAddr × TlsAcceptor)

def tcpListener (machine : Machine) (config : ServerConfig) :
    Except String (Option SocketAddr) :=
  if config.tcpEnabled then do
    machine.bindTcp [] config.bindAddr
    return some config.bindAddr
  else return none

def tlsAcceptor (tls : TlsPackages) (files : Files) (config : ServerConfig) :
    Except String (Option TlsAcceptor) :=
  if config.tlsEnabled then some <$> buildTlsAcceptor tls files config else return none

def tlsListener (machine : Machine) (config : ServerConfig) (tcp : Option SocketAddr) :
    Option TlsAcceptor → Except String (Option (SocketAddr × TlsAcceptor))
  | none => return none
  | some acceptor => do
    let tlsBind := SocketAddr.withPort config.bindAddr config.tlsPort
    machine.bindTcp tcp.toList tlsBind
    return some (tlsBind, acceptor)

/-- `run_server` behind the creation of the cache. -/
def comeOnline (env : EnvVars) (files : Files) (tls : TlsPackages) (machine : Machine)
    (config : ServerConfig) : Except String Online := do
  machine.bindUdp config.bindAddr
  let tcp ← tcpListener machine config
  let acceptor ← tlsAcceptor tls files config
  let listener ← tlsListener machine config tcp acceptor
  return ⟨serviceState env files config, config.bindAddr, tcp, listener⟩

def runServer (toml : Toml) (env : EnvVars) (files : Files) (tls : TlsPackages)
    (machine : Machine) (configPath : Str) : Outcome String Online :=
  let config := serverConfig toml env files configPath
  -- `LruCache::new` does not return without the room
  if machine.allocates config.cacheCapacity then
    match comeOnline env files tls machine config with
    | .ok online => .ok online
    | .error e => .err e
  else .panic

/-! ## The acceptor -/

theorem bind_eq_ok_iff {ε α β : Type} {x : Except ε α} {f : α → Except ε β} {b : β} :
    (x >>= f) = .ok b ↔ ∃ a, x = .ok a ∧ f a = .ok b := by
  match x with
  | .error e => exact iff_of_false nofun (by rintro ⟨_, h, -⟩; cases h)
  | .ok a => exact ⟨fun h => ⟨a, rfl, h⟩, fun ⟨_, ha, hf⟩ => by cases ha; exact hf⟩

theorem okOr_eq_ok_iff {α : Type} {o : Option α} {e : String} {a : α} :
    okOr o e = .ok a ↔ o = some a := by
  match o with
  | none => exact iff_of_false nofun nofun
  | some a' => exact ⟨fun h => by cases h; rfl, fun h => by cases h; rfl⟩

/-- The key in an item. -/
def keyOf : Except String PemItem → Option PrivateKeyDer
  | .ok (.Pkcs8Key k) => some (.Pkcs8 k)
  | .ok (.Pkcs1Key k) => some (.Pkcs1 k)
  | _ => none

/-- The keys of a file are read if the whole file can be read. -/
theorem readKeys_ok_iff {keyItems keys : List PrivateKeyDer}
    {items : List (Except String PemItem)} :
    readKeys keyItems items = .ok keys ↔
      (∀ e, .error e ∉ items) ∧ keys = keyItems ++ items.filterMap keyOf := by
  induction items generalizing keyItems with
  | nil =>
    rw [List.filterMap_nil, List.append_nil]
    exact ⟨fun h => by cases h; exact ⟨fun _ => List.not_mem_nil, rfl⟩, fun h => by rw [h.2]; rfl⟩
  | cons item items ih =>
    have hnext : ∀ a : PemItem,
        (∀ e, .error e ∉ items) ∧
            keys = keyItems ++ (keyOf (.ok a)).toList ++ items.filterMap keyOf ↔
          (∀ e, .error e ∉ .ok a :: items) ∧
            keys = keyItems ++ (.ok a :: items).filterMap keyOf := by
      intro a
      have hmem : ∀ e, (.error e : Except String PemItem) ∉ .ok a :: items ↔ .error e ∉ items := by
        intro e
        rw [List.mem_cons, or_iff_right nofun]
      rw [forall_congr' hmem, List.filterMap_cons, List.append_assoc]
      cases keyOf (.ok a) <;> rfl
    match item with
    | .ok (.Pkcs8Key k) => exact ih.trans (hnext (.Pkcs8Key k))
    | .ok (.Pkcs1Key k) => exact ih.trans (hnext (.Pkcs1Key k))
    | .ok .other =>
      have hother := hnext .other
      rw [show (keyOf (.ok .other)).toList = [] from rfl, List.append_nil] at hother
      exact ih.trans hother
    | .error e => exact iff_of_false nofun fun h => h.1 e List.mem_cons_self

/-- What the acceptor is built of: all certificates of the one file, and the first key that is not
    in SEC1 of the other, if both files can be read to their ends. -/
def Accepts (tls : TlsPackages) (files : Files) (config : ServerConfig) (acceptor : TlsAcceptor) :
    Prop :=
  ∃ certPath keyPath certFile keyFile,
    config.tlsCertPath = some certPath ∧ config.tlsKeyPath = some keyPath ∧
    files certPath = .ok certFile ∧ files keyPath = .ok keyFile ∧
    tls.certs certFile = .ok acceptor.certs ∧ (∀ e, .error e ∉ tls.items keyFile) ∧
    ((tls.items keyFile).filterMap keyOf).head? = some acceptor.key ∧
    tls.withSingleCert acceptor.certs acceptor.key = .ok ()

theorem buildTlsAcceptor_ok_iff {tls : TlsPackages} {files : Files} {config : ServerConfig}
    {acceptor : TlsAcceptor} :
    buildTlsAcceptor tls files config = .ok acceptor ↔ Accepts tls files config acceptor := by
  have hcerts : ∀ {certFile certs},
      (tls.certs certFile).mapError (fun e => "cert parse error: " ++ e) = .ok certs ↔
        tls.certs certFile = .ok certs := by
    intro certFile certs
    match tls.certs certFile with
    | .ok _ => exact Iff.rfl
    | .error _ => exact iff_of_false nofun nofun
  unfold buildTlsAcceptor Accepts
  simp only [bind_eq_ok_iff, okOr_eq_ok_iff, hcerts, readKeys_ok_iff, List.nil_append]
  constructor
  · rintro ⟨certPath, hcert, keyPath, hkey, certFile, hcertFile, keyFile, hkeyFile, certs, hcerts,
      _, ⟨hread, rfl⟩, key, hfirst, ⟨⟩, hsingle, hdone⟩
    cases hdone
    exact ⟨certPath, keyPath, certFile, keyFile, hcert, hkey, hcertFile, hkeyFile, hcerts, hread,
      hfirst, hsingle⟩
  · rintro ⟨certPath, keyPath, certFile, keyFile, hcert, hkey, hcertFile, hkeyFile, hcerts, hread,
      hfirst, hsingle⟩
    exact ⟨certPath, hcert, keyPath, hkey, certFile, hcertFile, keyFile, hkeyFile, acceptor.certs,
      hcerts, _, ⟨hread, rfl⟩, acceptor.key, hfirst, (), hsingle, rfl⟩

/-! ## The server -/

theorem tcpListener_ok_iff {machine : Machine} {config : ServerConfig}
    {tcp : Option SocketAddr} :
    tcpListener machine config = .ok tcp ↔
      if config.tcpEnabled then
        tcp = some config.bindAddr ∧ machine.bindTcp [] config.bindAddr = .ok ()
      else tcp = none := by
  unfold tcpListener
  split
  · rw [bind_eq_ok_iff]
    constructor
    · rintro ⟨⟨⟩, hbind, htcp⟩
      cases htcp
      exact ⟨rfl, hbind⟩
    · rintro ⟨rfl, hbind⟩
      exact ⟨(), hbind, rfl⟩
  · exact ⟨fun h => by cases h; rfl, fun h => by rw [h]; rfl⟩

theorem tlsAcceptor_ok_iff {tls : TlsPackages} {files : Files} {config : ServerConfig}
    {a : Option TlsAcceptor} :
    tlsAcceptor tls files config = .ok a ↔
      if config.tlsEnabled then ∃ acceptor, Accepts tls files config acceptor ∧ a = some acceptor
      else a = none := by
  unfold tlsAcceptor
  split
  · rw [map_eq_pure_bind, bind_eq_ok_iff]
    refine exists_congr fun acceptor => ?_
    rw [buildTlsAcceptor_ok_iff]
    exact and_congr_right fun _ => ⟨fun h => by cases h; rfl, fun h => by rw [h]; rfl⟩
  · exact ⟨fun h => by cases h; rfl, fun h => by rw [h]; rfl⟩

theorem tlsListener_ok_iff {machine : Machine} {config : ServerConfig} {tcp : Option SocketAddr}
    {acceptor : TlsAcceptor} {listener : Option (SocketAddr × TlsAcceptor)} :
    tlsListener machine config tcp (some acceptor) = .ok listener ↔
      listener = some (SocketAddr.withPort config.bindAddr config.tlsPort, acceptor) ∧
        machine.bindTcp tcp.toList (SocketAddr.withPort config.bindAddr config.tlsPort) =
          .ok () := by
  unfold tlsListener
  rw [bind_eq_ok_iff]
  constructor
  · rintro ⟨⟨⟩, hbind, hlistener⟩
    cases hlistener
    exact ⟨rfl, hbind⟩
  · rintro ⟨rfl, hbind⟩
    exact ⟨(), hbind, rfl⟩

theorem comeOnline_ok_iff {env : EnvVars} {files : Files} {tls : TlsPackages}
    {machine : Machine} {config : ServerConfig} {online : Online} :
    comeOnline env files tls machine config = .ok online ↔
      online.state = serviceState env files config ∧ online.udp = config.bindAddr ∧
      machine.bindUdp config.bindAddr = .ok () ∧
      (if config.tcpEnabled then
        online.tcp = some config.bindAddr ∧ machine.bindTcp [] config.bindAddr = .ok ()
      else online.tcp = none) ∧
      (if config.tlsEnabled then ∃ acceptor, Accepts tls files config acceptor ∧
        online.tls = some (SocketAddr.withPort config.bindAddr config.tlsPort, acceptor) ∧
        machine.bindTcp online.tcp.toList (SocketAddr.withPort config.bindAddr config.tlsPort) =
          .ok ()
      else online.tls = none) := by
  unfold comeOnline
  rw [bind_eq_ok_iff]
  constructor
  · rintro ⟨⟨⟩, hudp, hrest⟩
    obtain ⟨tcp, htcp, hrest⟩ := bind_eq_ok_iff.1 hrest
    obtain ⟨acceptor, hacceptor, hrest⟩ := bind_eq_ok_iff.1 hrest
    obtain ⟨listener, hlistener, hdone⟩ := bind_eq_ok_iff.1 hrest
    cases hdone
    refine ⟨rfl, rfl, hudp, tcpListener_ok_iff.1 htcp, ?_⟩
    rw [tlsAcceptor_ok_iff] at hacceptor
    split at hacceptor
    · next hon =>
      rw [if_pos hon]
      obtain ⟨acceptor, haccepts, rfl⟩ := hacceptor
      exact ⟨acceptor, haccepts, tlsListener_ok_iff.1 hlistener⟩
    · next hoff =>
      rw [if_neg hoff]
      subst hacceptor
      cases hlistener
      rfl
  · obtain ⟨state, udp, tcp, listener⟩ := online
    rintro ⟨rfl, rfl, hudp, htcp, hlistener⟩
    refine ⟨(), hudp, bind_eq_ok_iff.2 ⟨tcp, tcpListener_ok_iff.2 htcp, bind_eq_ok_iff.2 ?_⟩⟩
    split at hlistener
    · next hon =>
      obtain ⟨acceptor, haccepts, hbound⟩ := hlistener
      refine ⟨some acceptor, tlsAcceptor_ok_iff.2 ?_, bind_eq_ok_iff.2
        ⟨listener, tlsListener_ok_iff.2 hbound, rfl⟩⟩
      rw [if_pos hon]
      exact ⟨acceptor, haccepts, rfl⟩
    · next hoff =>
      refine ⟨none, tlsAcceptor_ok_iff.2 ?_, bind_eq_ok_iff.2 ⟨none, rfl, ?_⟩⟩
      · rw [if_neg hoff]
      · rw [show listener = none from hlistener]
        rfl

theorem runServer_ok_iff {toml : Toml} {env : EnvVars} {files : Files} {tls : TlsPackages}
    {machine : Machine} {configPath : Str} {config : ServerConfig}
    (hconfig : serverConfig toml env files configPath = config) {online : Online} :
    runServer toml env files tls machine configPath = .ok online ↔
      machine.allocates config.cacheCapacity = true ∧
        comeOnline env files tls machine config = .ok online := by
  unfold runServer
  rw [hconfig]
  dsimp only
  cases machine.allocates config.cacheCapacity with
  | false =>
    rw [if_neg Bool.false_ne_true]
    exact iff_of_false nofun fun h => nomatch h.1
  | true =>
    rw [if_pos rfl, and_iff_right rfl]
    cases comeOnline env files tls machine config with
    | ok online' => exact ⟨fun h => by cases h; rfl, fun h => by cases h; rfl⟩
    | error e => exact iff_of_false nofun nofun

/-- Every address can be bound once, and there is room for a million entries. -/
def onceEach : Machine where
  allocates capacity := decide (capacity ≤ 1000000)
  bindUdp _ := .ok ()
  bindTcp bound addr :=
    if addr ∈ bound ∧ SocketAddr.port addr ≠ 0 then .error "Address in use" else .ok ()

end VantaDns.Config
