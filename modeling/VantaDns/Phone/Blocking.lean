/-
  From a downloaded hosts list to the answers that an app on the phone gets.

  The list goes through the conversion of `update-blocklists.sh`, the server is started with the
  copy of `phone-vanta-dns.toml` that `vanta-vpn.sh` makes and loads it, and the app's packets
  go through `dns-udp-forwarder.py`. `phone_blocks`: to a packet whose first question is for a name
  under a host of the list, without an exception, no answer but the blocked reply comes back,
  unless somebody else sends to the port of its thread.
-/
import VantaDns.Phone.Bundled
import VantaDns.Phone.DnsUdpForwarder
import VantaDns.Phone.StevenBlack
import VantaDns.Phone.VantaVpn
import VantaDns.Service.Deployed

namespace VantaDns.Phone

open Lib Lib.Text Lib.Unicode Protocol Resolver Config Service VantaDns.Filter

/-- The forwarder in front of a server at the head of its loops. -/
def Forwarder.ofState (state : DnsServiceState) : Forwarder := ⟨.ofState state, [], [], []⟩

/-- What the copy of `phone-vanta-dns.toml` is read as, with the home directory in its paths. -/
def startedFile (home : Home) : TomlConfigFile :=
  { phoneFile with
    filter := phoneFile.filter.map fun lists =>
      { blocklistPaths := lists.blocklistPaths.map (Device.sed home 0)
        allowlistPaths := lists.allowlistPaths.map (Device.sed home 0) } }

def startedConfig (env : EnvVars) (home : Home) : ServerConfig :=
  (startedFile home).config.applyTlsEnvOverrides env

/-- `$LISTS/stevenblack-domains.txt`. -/
def hostsList (home : Home) : Str := listsDir home.dir ++ "/stevenblack-domains.txt".toList

/-! ## The list -/

theorem stripCr_host (host : HostName) {cr : Str} (hcr : cr = [] ∨ cr = ['\r']) :
    stripCr (host.text ++ cr) = host.text := by
  unfold stripCr
  obtain rfl | rfl := hcr
  · obtain ⟨t, c, htext, hc⟩ := host.solid.last
    rw [List.append_nil, if_neg]
    rw [htext, List.getLast?_concat, Option.some.injEq]
    rintro rfl
    exact absurd hc (by decide)
  · rw [List.getLast?_concat, if_pos rfl, List.dropLast_concat]

/-- A host of the list is a rule of the converted list. -/
theorem mem_lines_convert {file converted : TextFile} {line : Str}
    (h : convert file = some converted) (hline : line ∈ unixLines file.text) {host : HostName}
    (hhosts : HostsLine line host.text) : host.text ∈ lines converted.text := by
  obtain ⟨cr, hcr, hsecond⟩ := hhosts.secondWord_eq
  obtain ⟨hzero, hstart⟩ := hhosts.kept
  rw [convert_eq_some h, lines_chunkText_of_not_mem fun l hl =>
    not_mem_of_not_blank (convertedLines_not_blank hl)]
  refine List.mem_map.2 ⟨secondWord line,
    mem_convertedLines.2 ⟨hstart, line, hline, hzero, rfl⟩, ?_⟩
  rw [hsecond, stripCr_host host hcr]

/-- The copy is accepted in every environment. -/
theorem serverConfig_startedFile {toml : Toml} {files : Files} {configPath text : Str}
    (env : EnvVars) {home : Home} (hread : readToString files configPath = .ok text)
    (htoml : toml.table text = some (startedFile home)) :
    serverConfig toml env files configPath = startedConfig env home :=
  serverConfig_phoneFile hread htoml

/-- The path of the list, with an absolute home directory, is in the configuration. -/
theorem listTexts_hostsList (env : EnvVars) {home : Home} {converted : Str} {files : Files}
    (hhome : home.dir.head? = some '/')
    (hfile : files (hostsList home) = .ok (Utf8.encode converted)) :
    converted ∈ listTexts env files (startedConfig env home).blocklistPaths := by
  refine List.mem_filterMap.2 ⟨hostsList home, ?_, ?_⟩
  · have hpaths : (startedConfig env home).blocklistPaths =
        ((firstPaths ++ oisdPaths ++ lastPaths).map String.toList).map (Device.sed home 0) :=
      ((startedFile home).config.applyTlsEnvOverrides_spec env).2.2.2.2.1
    rw [hpaths]
    have hpath : Device.sed home 0
        "$HOME/VantaDNS/config/blocklists/stevenblack-domains.txt".toList = hostsList home := by
      unfold hostsList listsDir
      rw [List.append_assoc]
      rfl
    rw [← hpath]
    exact List.mem_map_of_mem (List.mem_map_of_mem (List.mem_append_right _ (by decide)))
  · have hpath : resolvePath env (hostsList home) = hostsList home := by
      obtain ⟨dir, hdir⟩ := List.head?_eq_some_iff.1 hhome
      unfold hostsList listsDir resolvePath
      rw [hdir]
      rfl
    rw [hpath, readToString_ok_iff.2 hfile]
    rfl

/-- With the converted list a name under one of its hosts is blocked. -/
theorem evaluate_converted {env : EnvVars} {home : Home} {files : Files}
    {list converted : TextFile} {line : Str} (hhome : home.dir.head? = some '/')
    (hconvert : convert list = some converted)
    (hfile : files (hostsList home) = .ok (Utf8.encode converted.text))
    (hline : line ∈ unixLines list.text) {host d : HostName} (hhosts : HostsLine line host.text)
    (hunder : d.Under host)
    (hexempt : ¬ Covers (listedKeys env files (startedConfig env home) .allow) d.lower.text) :
    (loadFilter env files (startedConfig env home)).evaluate d.text = .Blocked d.lower.text := by
  have hspells : Spells host host.text := .domain
  have hrule : Means host.text (.rule .block host) := by
    have hmeans := Means.rule blank_nil blank_nil hspells
    rw [List.nil_append, List.append_nil] at hmeans
    exact hmeans
  exact evaluate_blocked (listTexts_hostsList env hhome hfile)
    (mem_lines_convert hconvert hline hhosts) hrule hunder hexempt d.normalize_self

/-! ## The forwarder -/

theorem server_step (s : Forwarder) (e : Happening) :
    (s.step e).server = s.server ∨ ∃ a, (s.step e).server = s.server.step a := by
  match e with
  | .handle pkt addr port =>
    dsimp only [Forwarder.step]
    split <;> exact Or.inl rfl
  | .arrive k =>
    dsimp only [Forwarder.step]
    split
    · exact Or.inl rfl
    · next h _ =>
      split
      · exact Or.inr ⟨.datagram (localhost h.port) h.pkt, rfl⟩
      · exact Or.inl rfl
  | .drop k =>
    dsimp only [Forwarder.step]
    split <;> exact Or.inl rfl
  | .receive k i ok =>
    dsimp only [Forwarder.step]
    split
    · split <;> exact Or.inl rfl
    · exact Or.inl rfl
  | .foreign k resp ok =>
    dsimp only [Forwarder.step]
    split
    · exact Or.inl rfl
    · split <;> exact Or.inl rfl
  | .lose i => exact Or.inl rfl
  | .timeout k =>
    dsimp only [Forwarder.step]
    split <;> exact Or.inl rfl
  | .server a =>
    dsimp only [Forwarder.step]
    split
    · exact Or.inr ⟨a, rfl⟩
    · exact Or.inl rfl

/-- What the forwarder keeps, with a server that keeps blocked queries to itself. -/
structure Guarded (settings : Settings) (s : Forwarder) : Prop where
  relayed : Relayed settings s
  screening : Screening settings s.server

theorem guarded_step {settings : Settings} (s : Forwarder) (e : Happening)
    (h : Guarded settings s) (he : Fresh s e) : Guarded settings (s.step e) := by
  refine ⟨relayed_step h.relayed he, ?_⟩
  obtain hsame | ⟨a, hstep⟩ := server_step s e
  · rw [hsame]
    exact h.screening
  · rw [hstep]
    exact screening_step s.server a h.screening

/-! ## The answers -/

/-- The server of the phone has loaded the converted list: whatever the apps, the threads, the
    network and the upstreams do, as long as ports are quiet when they are given out, what goes
    out for a packet whose first question is for a name under a host of the list is the reply that
    says that there is no such name, unless somebody else sent it to the thread. -/
theorem phone_blocks {toml : Toml} {env : EnvVars} {files : Files} {tls : TlsPackages}
    {machine : Machine} {configPath file line : Str} {home : Home} {list converted : TextFile}
    {online : Online} (hread : readToString files configPath = .ok file)
    (htoml : toml.table file = some (startedFile home)) (hhome : home.dir.head? = some '/')
    (hrun : runServer toml env files tls machine configPath = .ok online)
    (hconvert : convert list = some converted)
    (hfile : files (hostsList home) = .ok (Utf8.encode converted.text))
    (hline : line ∈ unixLines list.text) {host d : HostName} (hhosts : HostsLine line host.text)
    (hunder : d.Under host)
    (hexempt : ¬ Covers (listedKeys env files (startedConfig env home) .allow) d.lower.text)
    {events : List Happening} (hquiet : Along Forwarder.step Fresh (.ofState online.state) events) :
    let s := events.foldl Forwarder.step (.ofState online.state)
    ∀ answer ∈ s.answers, ∀ handler packet question,
      s.handlers[answer.thread]? = some handler →
      DnsPacket.parse (handler.pkt.take 4096) = .ok packet →
      packet.questions.head? = some question → question.name = d.text →
      answer.resp = (packet.buildBlockedResponse true).toBytes ∨
        .foreign answer.thread answer.resp true ∈ events := by
  intro s answer hanswer handler packet question hhandler hp hq hname
  have hconfig : serverConfig toml env files configPath = startedConfig env home :=
    serverConfig_startedFile env hread htoml
  have hvalid := serverConfig_valid toml env files configPath
  have hstart : Forwarder.ofState online.state = Forwarder.start (hvalid.settings files) := by
    unfold Forwarder.ofState Forwarder.start
    rw [ofState_online hrun]
  have h : Guarded (hvalid.settings files) s := by
    rw [hstart] at hquiet
    show Guarded _ (events.foldl Forwarder.step (.ofState online.state))
    rw [hstart]
    exact Along.invariant ⟨relayed_start _, screening_run _ []⟩
      (fun s e hs he => guarded_step s e hs he) hquiet
  obtain ⟨⟨handler', hhandler', -, -, hreply⟩, -⟩ := h.relayed.answers answer hanswer
  obtain rfl := Option.some.inj (hhandler.symm.trans hhandler')
  have hforeign : ∀ answer ∈ s.answers, answer.task = none →
      .foreign answer.thread answer.resp true ∈ events :=
    Along.invariant (fun _ hmem => absurd hmem List.not_mem_nil) foreign_step
      (along_of_mem fun _ _ he => he)
  have hmode : (hvalid.settings files).initial.blockMode = "nxdomain".toList := by
    show (serverConfig toml env files configPath).blockMode = _
    rw [hconfig]
    exact ((startedFile home).config.applyTlsEnvOverrides_spec env).2.2.2.1
  have hblocked : (hvalid.settings files).filter.evaluate question.name =
      .Blocked d.lower.text := by
    show (loadFilter env files (serverConfig toml env files configPath)).evaluate _ = _
    rw [hconfig, hname]
    exact evaluate_converted hhome hconvert hfile hline hhosts hunder hexempt
  cases horigin : answer.task with
  | none => exact Or.inr (hforeign answer hanswer horigin)
  | some i =>
    obtain ⟨howner, task, htask, hr⟩ := hreply i horigin
    obtain ⟨task', htask', -, hquery⟩ := h.relayed.assigned.datagrams.asked i _ _ howner
    obtain rfl := Option.some.inj (htask.symm.trans htask')
    rw [← hquery] at hp
    rw [h.screening.reply htask hp hq hblocked hr]
    unfold blockedReply
    rw [hmode]
    exact Or.inl rfl

/-! ## One app -/

/-- `ads.io`. -/
def adsHost : HostName := .ofLabels [['a', 'd', 's'], ['i', 'o']] (by decide)

def rootHome : Home := ⟨['/'], by simp⟩

def adsList : TextFile := ⟨"0.0.0.0 ads.io # x\n".toList, by decide⟩

def adsConverted : TextFile := ⟨"ads.io\n".toList, by decide⟩

/-- The files on the phone: the copy of the configuration, and the converted list. -/
def phoneFiles : Files := fun path =>
  if path = [] then .ok []
  else if path = hostsList rootHome then .ok (Utf8.encode "ads.io\n".toList)
  else .error "No such file or directory"

def phoneToml : Toml := ⟨fun _ => some (startedFile rootHome), fun _ => .error ""⟩

def phoneSettings : ServerConfig := startedConfig (fun _ => none) rootHome

theorem listTexts_phoneFiles :
    listTexts (fun _ => none) phoneFiles phoneSettings.blocklistPaths = ["ads.io\n".toList] ∧
      listTexts (fun _ => none) phoneFiles phoneSettings.allowlistPaths = [] := by
  decide +kernel

/-- An app asks for the address of `ads.io` and gets the answer. -/
def adsPacket : DnsPacket :=
  ⟨⟨1, false, .Query, false, false, true, false, .NoError, 1, 0, 0, 0⟩,
    [⟨adsHost.text, .A, .IN⟩], [], [], []⟩

def appAsks : List Happening :=
  [.handle adsPacket.toBytes (localhost 9000) 40000, .arrive 0,
    .server (.resolve 0 silentMoment true), .receive 0 0 true]

/-- The state of the server, with its rules as they are loaded. -/
def phoneState : DnsServiceState where
  cache := .new phoneSettings.cacheCapacity phoneSettings.minTtlSecs phoneSettings.maxTtlSecs
  forwarder := ⟨phoneSettings.resolveUpstreams⟩
  filter := loaded [.blocklistContent "ads.io\n".toList]
  blockMode := phoneSettings.blockMode

theorem serviceState_phoneFiles :
    serviceState (fun _ => none) phoneFiles phoneSettings = phoneState := by
  have hfilter : loadFilter (fun _ => none) phoneFiles phoneSettings =
      loaded [.blocklistContent "ads.io\n".toList] := by
    rw [loadFilter_eq, listTexts_phoneFiles.1, listTexts_phoneFiles.2]
    rfl
  unfold serviceState phoneState
  rw [hfilter]

def phoneOnline : Online :=
  ⟨phoneState, phoneSettings.bindAddr, some phoneSettings.bindAddr, none⟩

theorem phone_blocks_appAsks :
    runServer phoneToml (fun _ => none) phoneFiles
      ⟨fun _ => .ok [], fun _ => [], fun _ _ => .ok ()⟩ onceEach [] = .ok phoneOnline ∧
    (appAsks.foldl Forwarder.step (.ofState phoneOnline.state)).answers =
      [⟨0, some 0, localhost 9000, (adsPacket.buildBlockedResponse true).toBytes⟩] := by
  obtain ⟨hblock, hallow⟩ := listTexts_phoneFiles
  have hread : readToString phoneFiles [] = .ok [] := readToString_ok_iff.2 rfl
  have hconfig : serverConfig phoneToml (fun _ => none) phoneFiles [] = phoneSettings :=
    serverConfig_startedFile _ hread rfl
  have hrun : runServer phoneToml (fun _ => none) phoneFiles
      ⟨fun _ => .ok [], fun _ => [], fun _ _ => .ok ()⟩ onceEach [] = .ok phoneOnline :=
    (runServer_ok_iff hconfig).2 ⟨by decide,
      comeOnline_ok_iff.2 ⟨serviceState_phoneFiles.symm, rfl, rfl, ⟨rfl, rfl⟩, rfl⟩⟩
  have hlines : lines "ads.io\n".toList = ["ads.io".toList] := by decide
  have hexempt : ¬ Covers (listedKeys (fun _ => none) phoneFiles phoneSettings .allow)
      adsHost.lower.text := by
    refine not_exempt hallow (fun text htext line hline => ?_) _
    rw [hblock, List.mem_singleton] at htext
    rw [htext, hlines, List.mem_singleton] at hline
    rw [hline]
    decide
  have hconvert : convert adsList = some adsConverted := by decide
  have hhosts : HostsLine "0.0.0.0 ads.io # x".toList adsHost.text :=
    ⟨adsHost.notSpace, by decide, [], " # x".toList, by decide, nofun,
      Or.inr (Or.inr ⟨' ', _, rfl, rfl⟩)⟩
  have hquiet : Along Forwarder.step Fresh (.ofState phoneOnline.state) appAsks :=
    ⟨⟨nofun, nofun⟩, trivial, trivial, trivial, trivial⟩
  have hblocks := phone_blocks hread rfl rfl hrun hconvert rfl (by decide) hhosts
    List.suffix_rfl hexempt hquiet
  refine ⟨hrun, ?_⟩
  -- the run comes to an answer, and the theorem says which
  have hshape : (appAsks.foldl Forwarder.step (.ofState phoneOnline.state)).answers.map
      (fun answer => (answer.thread, answer.task, answer.addr)) =
        [(0, some 0, localhost 9000)] := by
    decide +kernel
  obtain ⟨⟨k, i, addr, resp⟩, hanswers, heq⟩ := List.map_eq_singleton_iff.1 hshape
  cases heq
  have hpkt : (appAsks.foldl Forwarder.step (.ofState phoneOnline.state)).handlers[0]?.map
      Handler.pkt = some adsPacket.toBytes := by
    decide +kernel
  obtain ⟨handler, hhandler, hpkt⟩ := Option.map_eq_some_iff.1 hpkt
  have hparse : DnsPacket.parse (handler.pkt.take 4096) = .ok adsPacket := by
    rw [hpkt]
    decide +kernel
  obtain hreply | hforeign := hblocks ⟨0, some 0, localhost 9000, resp⟩
    (hanswers ▸ List.mem_singleton.2 rfl) handler adsPacket _ hhandler hparse rfl rfl
  · rw [hanswers, ← hreply]
    rfl
  · simp [appAsks] at hforeign

end VantaDns.Phone
