/-
  A server that was started from files (`run_server` in `main.rs`), and what the rules of its
  lists mean for the messages that go out.

  `listedKeys` are the keys that the lines of the list files add. `deployed_blocks`: if some line
  of a blocklist is a rule for a host, no list has an exception, and the server comes online, then
  in every run each query whose first question is for a name under the host is answered by the
  blocked reply and by nothing else, no upstream sees it, and the cache holds nothing for the name.
-/
import VantaDns.Config.Listeners
import VantaDns.Filter.Rules
import VantaDns.Service.BlockMode
import VantaDns.Service.Server

namespace VantaDns.Service

open Lib Lib.Text Lib.Unicode Protocol Cache VantaDns.Filter Resolver Config

/-- The server at the head of its loops. -/
def Server.ofState (state : DnsServiceState) : Server := ⟨⟨state, []⟩, [], [], []⟩

/-! ## The rules of the files -/

/-- The keys that the lines of the list files add to a rule set. -/
def listedKeys (env : EnvVars) (files : Files) (config : ServerConfig) (side : Side) : Set Str :=
  {k | (∃ text ∈ listTexts env files config.blocklistPaths, ∃ line ∈ lines text,
      k ∈ blocklistLineKeys line side) ∨
    ∃ text ∈ listTexts env files config.allowlistPaths, ∃ line ∈ lines text,
      k ∈ allowlistLineKeys line side}

theorem evaluate_loadFilter (env : EnvVars) (files : Files) (config : ServerConfig)
    (domain : Str) :
    (loadFilter env files config).evaluate domain = decision (listedKeys env files config .allow)
      (listedKeys env files config .block) domain := by
  have hkeys : ∀ side, (loadFilter env files config).keys side =
      listedKeys env files config side := by
    intro side
    rw [loadFilter_eq, keys_loaded]
    ext k
    simp only [List.mem_append, List.mem_map, Set.mem_ofPred_eq, or_and_right, exists_or,
      exists_exists_and_eq_and]
    rfl
  rw [← hkeys, ← hkeys, loadFilter_eq]
  exact evaluate_eq_keys _ domain

section Lists

variable {env : EnvVars} {files : Files} {config : ServerConfig} {text line : Str}
  {host d : HostName}

theorem covers_of_rule (htext : text ∈ listTexts env files config.blocklistPaths)
    (hline : line ∈ lines text) {side : Side} (hrule : Means line (.rule side host))
    (hunder : d.Under host) : Covers (listedKeys env files config side) d.lower.text := by
  refine Covers.mono ?_ ((d.covers_lower_iff {host}).2 ⟨host, rfl, hunder⟩)
  intro k hk
  obtain ⟨g, hg, rfl⟩ := hk
  refine Or.inl ⟨text, htext, line, hline, ?_⟩
  rw [hrule.keys_eq]
  exact ⟨g, congrArg (Entry.rule side) hg, rfl⟩

/-- Under a rule and no exception a name is blocked. -/
theorem evaluate_blocked (htext : text ∈ listTexts env files config.blocklistPaths)
    (hline : line ∈ lines text) (hrule : Means line (.rule .block host)) (hunder : d.Under host)
    (hexempt : ¬ Covers (listedKeys env files config .allow) d.lower.text) {domain : Str}
    (hdomain : normalize domain = d.lower.text) :
    (loadFilter env files config).evaluate domain = .Blocked d.lower.text := by
  rw [evaluate_loadFilter]
  unfold decision
  rw [hdomain, d.normalize_lower, if_neg hexempt,
    if_pos (covers_of_rule htext hline hrule hunder)]

/-- Without allowlists, and without lines that begin with `@@`, no name is exempt. -/
theorem not_exempt (hallow : listTexts env files config.allowlistPaths = [])
    (hblock : ∀ text ∈ listTexts env files config.blocklistPaths, ∀ line ∈ lines text,
      startsWith "@@".toList (trim line) = false) (n : Str) :
    ¬ Covers (listedKeys env files config .allow) n := by
  intro hcovers
  obtain ⟨k, hk, -⟩ := covers_iff_exists.1 hcovers
  obtain ⟨text, htext, line, hline, hmark, -⟩ | ⟨text, htext, -⟩ := hk
  · exact Bool.false_ne_true ((hblock text htext line hline).symm.trans hmark)
  · rw [hallow] at htext
    exact absurd htext List.not_mem_nil

end Lists

/-! ## Blocked queries -/

/-- A blocked query is screened: its task is at its beginning or its end. -/
def Screened (settings : Settings) (task : Task) : Prop :=
  ∀ packet question rule, DnsPacket.parse task.query = .ok packet →
    packet.questions.head? = some question →
    settings.filter.evaluate question.name = .Blocked rule →
    task.fetched = none ∧ (task.phase = .begun ∨ task.Ended)

theorem screened_start (settings : Settings) (t : Transport) (query : List UInt8) :
    Screened settings (Task.start t query) :=
  fun _ _ _ _ _ _ => ⟨rfl, Or.inl rfl⟩

theorem screened_task {settings : Settings} {state : DnsServiceState} {task : Task}
    (hfilter : state.filter = settings.filter) (h : Screened settings task) (m : Moment) :
    Screened settings (task.step state m).2 := by
  intro packet question rule hp hq hb
  rw [(query_step task state m).1] at hp
  obtain ⟨hfetched, hphase⟩ := h packet question rule hp hq hb
  obtain hbegun | ⟨ending, hended⟩ := hphase
  · unfold Task.step
    rw [hbegun]
    dsimp only
    rw [hp]
    dsimp only
    rw [hq]
    dsimp only
    rw [hfilter, hb]
    refine ⟨hfetched, Or.inr ?_⟩
    unfold Task.answer
    cases task.transport with
    | udp => exact ⟨_, rfl⟩
    | tcp => exact ⟨_, rfl⟩
  · unfold Task.step
    rw [hended]
    exact ⟨hfetched, Or.inr ⟨ending, hended⟩⟩

theorem screened_system {settings : Settings} {s : System} (hdue : Due settings s)
    (h : ∀ task ∈ s.tasks, Screened settings task) (a : Action) :
    ∀ task ∈ (s.step a).tasks, Screened settings task := by
  intro task hmem
  match a with
  | .spawn t query =>
    obtain hold | hnew := List.mem_append.1 hmem
    · exact h task hold
    · rw [List.mem_singleton.1 hnew]
      exact screened_start settings t query
  | .act i m =>
    cases hi : s.tasks[i]? with
    | none =>
      rw [step_act_none hi] at hmem
      exact h task hmem
    | some t =>
      rw [step_act_some hi] at hmem
      obtain hold | rfl := List.mem_or_eq_of_mem_set hmem
      · exact h task hold
      · exact screened_task hdue.invariant.filter (h t (List.mem_of_getElem? hi)) m

/-- What holds of every state of the server. -/
structure Screening (settings : Settings) (s : Server) : Prop where
  assigned : Assigned settings s
  screened : ∀ task ∈ s.system.tasks, Screened settings task

theorem screening_step {settings : Settings} (s : Server) (a : ServerAction)
    (h : Screening settings s) : Screening settings (s.step a) := by
  refine ⟨assigned_step s a h.assigned, ?_⟩
  obtain hsame | ⟨b, hstep⟩ := system_step s a
  · rw [hsame]
    exact h.screened
  · rw [hstep]
    exact screened_system h.assigned.due h.screened b

theorem screening_run (settings : Settings) (actions : List ServerAction) :
    Screening settings (actions.foldl Server.step (Server.start settings)) :=
  Along.invariant ⟨assigned_start settings, fun _ h => absurd h List.not_mem_nil⟩
    (fun s a h _ => screening_step s a h)
    (along_of_forall (P := fun _ _ => True) fun _ _ => trivial)

/-- A blocked name has no entry in the cache. -/
theorem Screening.lookup {settings : Settings} {s : Server} (h : Screening settings s)
    {d : HostName} {rule : Str} (hb : settings.filter.evaluate d.lower.text = .Blocked rule)
    (qtype : QueryType) : s.system.state.cache.cache.lookup (DnsCache.key d.text qtype) = none := by
  cases hlookup : s.system.state.cache.cache.lookup (DnsCache.key d.text qtype) with
  | none => rfl
  | some e =>
    obtain ⟨task, -, resp, packet, question, -, -, hadmitted, hkey⟩ :=
      h.assigned.due.invariant.entries _ e hlookup
    have hname : toLowercase d.text = toLowercase question.name := congrArg Prod.fst hkey
    rw [toLowercase_question hadmitted.parse hadmitted.head, d.toLowercase_text] at hname
    rw [hname] at hb
    exact absurd hb (hadmitted.allowed rule)

section Blocked

variable {settings : Settings} {s : Server} {i : Nat} {task : Task} {packet : DnsPacket}
  {question : DnsQuestion} {rule : Str}

/-- The task of a blocked query is where it began, or it has given the blocked reply. -/
theorem Screening.phase (h : Screening settings s) (hi : s.system.tasks[i]? = some task)
    (hp : DnsPacket.parse task.query = .ok packet) (hq : packet.questions.head? = some question)
    (hb : settings.filter.evaluate question.name = .Blocked rule) :
    task.phase = .begun ∨
      task.Ended ∧ task.reply = some (blockedReply settings.initial packet).toBytes := by
  have hmem := List.mem_of_getElem? hi
  refine (h.screened task hmem packet question rule hp hq hb).2.imp_right fun hended => ?_
  exact ⟨hended, (h.assigned.due.settled hmem hended).blocked packet question rule hp hq hb⟩

theorem Screening.reply (h : Screening settings s) (hi : s.system.tasks[i]? = some task)
    (hp : DnsPacket.parse task.query = .ok packet) (hq : packet.questions.head? = some question)
    (hb : settings.filter.evaluate question.name = .Blocked rule) {resp : List UInt8}
    (hr : task.reply = some resp) : resp = (blockedReply settings.initial packet).toBytes := by
  obtain hbegun | ⟨-, hreply⟩ := h.phase hi hp hq hb
  · -- a task at its beginning has not replied
    have howed := h.assigned.due.tasks task (List.mem_of_getElem? hi)
    unfold Owed at howed
    rw [hbegun] at howed
    cases howed.2.symm.trans hr
  · exact Option.some.inj (hr.symm.trans hreply)

end Blocked

/-! ## From the files to the messages -/

/-- A server that comes online starts with the settings of its configuration. -/
theorem ofState_online {toml : Toml} {env : EnvVars} {files : Files} {tls : TlsPackages}
    {machine : Machine} {configPath : Str} {online : Online}
    (hrun : runServer toml env files tls machine configPath = .ok online) :
    Server.ofState online.state =
      Server.start ((serverConfig_valid toml env files configPath).settings files) := by
  rw [(comeOnline_ok_iff.1 ((runServer_ok_iff rfl).1 hrun).2).1,
    serviceState_eq (serverConfig_valid toml env files configPath)]
  rfl

end VantaDns.Service
