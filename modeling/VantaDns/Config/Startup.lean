/-
  Starting the server (`run_server` in `main.rs`): the configuration it takes, the lists it
  loads, and the state it serves from.

  Every started service is one of `Settings`, since what it starts with has been validated
  (`serverConfig_valid`, `serviceState_eq`), and its rules are those of the list files that
  can be read (`loadFilter_eq`).
-/
import VantaDns.Config.ServerConfig
import VantaDns.Service.Run

namespace VantaDns.Config

open Lib Lib.Text Cache VantaDns.Filter Service

/-- The configuration of `run_server`: that of the file, or the default if it cannot be loaded. -/
def serverConfig (toml : Toml) (env : EnvVars) (files : Files) (configPath : Str) : ServerConfig :=
  match ServerConfig.loadFromFile toml env files configPath with
  | .ok config => config
  | .error _ => .default

def resolvePath (env : EnvVars) (p : Str) : Str :=
  let homeDir := (env "HOME").getD "/tmp".toList
  match stripPrefix "$HOME".toList p with
  | some stripped => homeDir ++ stripped
  | none => p

/-- One round of a loop over list files; a file that cannot be read is passed over. -/
def loadList (load : FilterEngine → Str → FilterEngine × Nat) (env : EnvVars) (files : Files)
    (engine : FilterEngine) (rawPath : Str) : FilterEngine :=
  match readToString files (resolvePath env rawPath) with
  | .ok content => (load engine content).1
  | .error _ => engine

/-- The engine that `run_server` fills. -/
def loadFilter (env : EnvVars) (files : Files) (config : ServerConfig) : FilterEngine :=
  let engine := config.blocklistPaths.foldl
    (loadList FilterEngine.loadBlocklistContent env files) .new
  config.allowlistPaths.foldl (loadList FilterEngine.loadAllowlistContent env files) engine

/-- The state that the handlers share. -/
def serviceState (env : EnvVars) (files : Files) (config : ServerConfig) : DnsServiceState where
  cache := .new config.cacheCapacity config.minTtlSecs config.maxTtlSecs
  forwarder := ⟨config.resolveUpstreams⟩
  filter := loadFilter env files config
  blockMode := config.blockMode

/-! ## Valid settings -/

/-- Whatever the file says, the server runs with a configuration that `validate` accepts. -/
theorem serverConfig_valid (toml : Toml) (env : EnvVars) (files : Files) (configPath : Str) :
    (serverConfig toml env files configPath).Valid env := by
  unfold serverConfig
  split
  · next h => exact ServerConfig.loadFromFile_valid h
  · exact ServerConfig.default_valid env

/-- A file in the table format that is accepted is what the server runs with. -/
theorem serverConfig_of_table {toml : Toml} {env : EnvVars} {files : Files}
    {configPath content : Str} {file : TomlConfigFile} {config : ServerConfig}
    (hread : readToString files configPath = .ok content) (hfile : toml.table content = some file)
    (hfinish : file.config.finish env = .ok config) :
    serverConfig toml env files configPath = config := by
  unfold serverConfig ServerConfig.loadFromFile
  rw [hread]
  dsimp only
  rw [hfile]
  dsimp only
  rw [hfinish]

def ServerConfig.Valid.settings {env : EnvVars} {config : ServerConfig} (h : config.Valid env)
    (files : Files) : Settings where
  capacity := config.cacheCapacity
  minTtlSecs := config.minTtlSecs
  maxTtlSecs := config.maxTtlSecs
  upstreams := config.resolveUpstreams
  filter := loadFilter env files config
  blockMode := config.blockMode
  capacity_pos := h.capacity
  ttl_le := h.bounds

theorem serviceState_eq {env : EnvVars} {config : ServerConfig} (h : config.Valid env)
    (files : Files) : serviceState env files config = (h.settings files).initial := rfl

/-! ## The lists -/

/-- The texts of the files that can be read, in the order of their paths. -/
def listTexts (env : EnvVars) (files : Files) (paths : List Str) : List Str :=
  paths.filterMap fun rawPath => (readToString files (resolvePath env rawPath)).toOption

theorem foldl_loadList {load : FilterEngine → Str → FilterEngine × Nat} {op : Str → Load}
    (hop : ∀ engine content, (load engine content).1 = FilterEngine.load engine (op content))
    (env : EnvVars) (files : Files) (paths : List Str) (engine : FilterEngine) :
    paths.foldl (loadList load env files) engine =
      ((listTexts env files paths).map op).foldl FilterEngine.load engine := by
  induction paths generalizing engine with
  | nil => rfl
  | cons rawPath paths ih =>
    rw [List.foldl_cons, ih]
    unfold listTexts loadList
    cases hread : readToString files (resolvePath env rawPath) with
    | error e =>
      rw [List.filterMap_cons, hread]
      rfl
    | ok content =>
      rw [List.filterMap_cons, hread]
      dsimp only [Except.toOption]
      rw [List.map_cons, List.foldl_cons, hop]

/-- What the engine is after loading the files. -/
theorem loadFilter_eq (env : EnvVars) (files : Files) (config : ServerConfig) :
    loadFilter env files config =
      loaded ((listTexts env files config.blocklistPaths).map .blocklistContent ++
        (listTexts env files config.allowlistPaths).map .allowlistContent) := by
  have hblock : ∀ (engine : FilterEngine) content,
      (engine.loadBlocklistContent content).1 = engine.load (.blocklistContent content) :=
    fun _ _ => rfl
  have hallow : ∀ (engine : FilterEngine) content,
      (engine.loadAllowlistContent content).1 = engine.load (.allowlistContent content) :=
    fun _ _ => rfl
  unfold loadFilter loaded
  dsimp only
  rw [List.foldl_append, foldl_loadList hblock, foldl_loadList hallow]

end VantaDns.Config
