/-
  Starting and stopping on the phone (`vanta-vpn.sh`).

  The script keeps the process number of the server and that of the forwarder in a file each.
  A `Device` is what a command has before it: the files, the processes, and how far it has got,
  function by function, with the check of a start and the start itself apart. Between two
  functions anything may happen: processes end, others appear and are given free numbers, the
  installation changes.

  In `Termux` any number of commands are under way, since nothing in the script keeps one from
  beginning while another runs, as the boot script and the widgets may do. Two starts may then both
  find no server and run one each. The rest is about commands that begin when those before are
  through (`Alone`), for which it is enough to look at the one begun last (`last_step`).

  `single_instance`: no program runs twice, and a `stop` that is through has signalled both.
  `files_known`: as long as no new process is given a number that stands in a file, the script
  signals its own processes only, and sees correctly which of them run. None of this says when a
  signalled process ends.
-/
import VantaDns.Lib.Run
import VantaDns.Lib.Text

namespace VantaDns.Phone

open Lib Lib.Text

/-- What the script starts. -/
inductive Program where
  | server
  | forwarder
  deriving DecidableEq, Repr

instance : Fintype Program := ⟨{.server, .forwarder}, fun program => by cases program <;> decide⟩

/-- A process that the user of the phone may signal. `program` is what the script started it as,
    `none` for any other; `signalled` says that it has been sent SIGTERM. -/
structure Process where
  program : Option Program
  signalled : Bool
  deriving DecidableEq, Repr

/-- The functions that a command calls, and the lines it writes itself. A start is its check,
    which calls for the launch if the program does not run. -/
inductive Call where
  | start (program : Program)
  | launch (program : Program)
  | stop (program : Program)
  | status (program : Program)
  | log (msg : String)
  deriving DecidableEq, Repr

inductive Command where
  | start
  | stop
  | status
  deriving DecidableEq, Repr

/-- The branches of `case "${1:-status}"`. -/
def Command.calls : Command → List Call
  | .start => [.start .server, .start .forwarder, .log "", .log "VantaDNS is ON on your phone.",
      .log "Query test: nslookup google.com 127.0.0.1 -p 5353"]
  | .stop => [.stop .forwarder, .stop .server, .log "VantaDNS is OFF."]
  | .status => [.status .server, .status .forwarder]

/-- A home directory that means itself where `sed` puts it in the place of `$HOME`. -/
structure Home where
  dir : Str
  plain : ∀ c ∈ dir, c ∉ ['&', '|', '\\', '\n']
  deriving DecidableEq

/-- What all commands share. -/
structure Shared where
  home : Home
  binary : Bool
  configSrc : Option Str
  config : Option Str
  pidfile : Program → Option Nat
  processes : Nat → Option Process

/-- What a command has before it: what it has still to call, whether it ended in an error, and the
    lines it wrote. -/
structure Device extends Shared where
  command : Option Command
  todo : List Call
  failed : Bool
  shown : List Str

/-- `[ -f "$PIDFILE" ] && kill -0 "$(cat "$PIDFILE")"`: the number of a process there is. -/
def Shared.alive (s : Shared) (program : Program) : Option Nat :=
  (s.pidfile program).filter fun pid => (s.processes pid).isSome

/-- The program runs, and has not been told to end. -/
def Shared.Runs (s : Shared) (program : Program) : Prop :=
  ∃ pid, s.processes pid = some ⟨some program, false⟩

namespace Device

def log (s : Device) (msg : Str) : Device :=
  { s with shown := s.shown ++ ["\x1b[36m[vanta-vpn]\x1b[0m ".toList ++ msg] }

/-- The text of a process number. -/
def pidText (pid : Nat) : Str := (Nat.repr pid).toList

/-- `sed "s|\$HOME|$HOME|g"`; `skip` characters of a placeholder are still to be passed over. -/
def sed (home : Home) : (skip : Nat) → Str → Str
  | _, [] => []
  | skip + 1, _ :: s => sed home skip s
  | 0, c :: s =>
      if "$HOME".toList.isPrefixOf (c :: s) then home.dir ++ sed home 4 s else c :: sed home 0 s

/-- `nohup ... &` and `echo $!`. -/
def launch (s : Device) (program : Program) (pid : Nat) : Device :=
  { s with
    processes := Function.update s.processes pid (some ⟨some program, false⟩)
    pidfile := Function.update s.pidfile program (some pid) }

/-- The command ends in an error. -/
def abort (s : Device) : Device := { s with todo := [], failed := true }

/-- The check of `start_server`. -/
def startServer (s : Device) : Device :=
  match s.alive .server with
  | some running => s.log ("Server already running (PID ".toList ++ pidText running ++ ")".toList)
  | none => { s with todo := .launch .server :: s.todo }

/-- The rest of `start_server`. -/
def launchServer (s : Device) (pid : Nat) : Device :=
  match s.configSrc with
  | none =>
    let s := { s with config := some [] }
    s.abort
  | some text =>
    let s := { s with config := some (sed s.home 0 text) }
    if s.binary then
      (s.launch .server pid).log
        ("VantaDNS server started (PID ".toList ++ pidText pid ++ ") on 127.0.0.1:8533".toList)
    else
      let s :=
        { s with
          shown := s.shown ++ [("ERROR: vanta-dns-core binary missing. " ++
            "Run: bash ~/VantaDNS/phone/install.sh").toList] }
      s.abort

/-- The check of `start_forwarder`. -/
def startForwarder (s : Device) : Device :=
  match s.alive .forwarder with
  | some _ => s.log "UDP forwarder already running".toList
  | none => { s with todo := .launch .forwarder :: s.todo }

/-- The rest of `start_forwarder`. -/
def launchForwarder (s : Device) (pid : Nat) : Device :=
  (s.launch .forwarder pid).log "UDP forwarder started (127.0.0.1:5353 -> 127.0.0.1:8533)".toList

/-- `kill` and `rm -f`, where there is a file. -/
def stopProgram (s : Device) (program : Program) (msg : String) : Device :=
  match s.pidfile program with
  | none => s
  | some pid =>
      let s :=
        { s with
          processes := Function.update s.processes pid
            ((s.processes pid).map fun process : Process => { process with signalled := true })
          pidfile := Function.update s.pidfile program none }
      s.log msg.toList

def stopServer (s : Device) : Device := s.stopProgram .server "Server stopped"

def stopForwarder (s : Device) : Device := s.stopProgram .forwarder "UDP forwarder stopped"

/-- The lines of `status`. -/
def showStatus (s : Device) (program : Program) (name : String) : Device :=
  match s.alive program with
  | some pid => s.log (name.toList ++ ": RUNNING (PID ".toList ++ pidText pid ++ ")".toList)
  | none => s.log (name.toList ++ ": stopped".toList)

def call (s : Device) (pid : Nat) : Call → Device
  | .start .server => s.startServer
  | .start .forwarder => s.startForwarder
  | .launch .server => s.launchServer pid
  | .launch .forwarder => s.launchForwarder pid
  | .stop .server => s.stopServer
  | .stop .forwarder => s.stopForwarder
  | .status .server => s.showStatus .server "Server"
  | .status .forwarder => s.showStatus .forwarder "Forwarder"
  | .log msg => s.log msg.toList

/-- The command calls its next function, with the number that a new process is given, which is
    free. -/
def proceed (s : Device) (pid : Nat) : Device :=
  match s.todo with
  | [] => s
  | call :: rest =>
    if s.processes pid = none then Device.call { s with todo := rest } pid call else s

end Device

/-- What happens: a command is begun; the `j`-th one that was begun goes on; a process ends, or one
    of another program appears; the installation changes. -/
inductive Event where
  | run (command : Command)
  | proceed (j pid : Nat)
  | exits (pid : Nat)
  | appears (pid : Nat)
  | replaced (binary : Bool) (configSrc : Option Str)

/-- What happens without the script. -/
def Shared.step (s : Shared) : Event → Shared
  | .exits pid => { s with processes := Function.update s.processes pid none }
  | .appears pid =>
      if s.processes pid = none then
        { s with processes := Function.update s.processes pid (some ⟨none, false⟩) }
      else s
  | .replaced binary configSrc => { s with binary := binary, configSrc := configSrc }
  | .run _ | .proceed _ _ => s

/-- A command that was begun. -/
structure Invocation where
  command : Command
  todo : List Call
  failed : Bool
  shown : List Str

structure Termux extends Shared where
  /-- All commands that were begun, in order. -/
  commands : List Invocation

/-- A phone on which the script has not been run yet. -/
def Termux.fresh (home : Home) : Termux :=
  ⟨⟨home, false, none, none, fun _ => none, fun _ => none⟩, []⟩

def Termux.view (s : Termux) (c : Invocation) : Device :=
  ⟨s.toShared, some c.command, c.todo, c.failed, c.shown⟩

def Termux.step (s : Termux) : Event → Termux
  | .run command => { s with commands := s.commands ++ [⟨command, command.calls, false, []⟩] }
  | .proceed j pid =>
    match s.commands[j]? with
    | none => s
    | some c =>
        let d := (s.view c).proceed pid
        { toShared := d.toShared
          commands := s.commands.set j ⟨c.command, d.todo, d.failed, d.shown⟩ }
  | e => { s with toShared := s.toShared.step e }

/-! ## One command at a time -/

/-- A command begins when those before are through. -/
def Alone (s : Termux) : Event → Prop
  | .run _ => ∀ c ∈ s.commands, c.todo = []
  | _ => True

instance (s : Termux) (e : Event) : Decidable (Alone s e) := by
  cases e <;> unfold Alone <;> infer_instance

/-- What the command begun last has before it. -/
def Termux.last (s : Termux) : Device :=
  match s.commands.getLast? with
  | none => ⟨s.toShared, none, [], false, []⟩
  | some c => s.view c

/-- A phone with one command, which is replaced when it is through. -/
def Device.step (s : Device) : Event → Device
  | .run command =>
      if s.todo = [] then
        { s with command := some command, todo := command.calls, failed := false, shown := [] }
      else s
  | .proceed _ pid => s.proceed pid
  | e => { s with toShared := s.toShared.step e }

def Device.fresh (home : Home) : Device := (Termux.fresh home).last

theorem last_shared (s : Termux) : s.last.toShared = s.toShared := by
  unfold Termux.last
  split <;> rfl

theorem last_of_concat {s : Termux} {init : List Invocation} {c : Invocation}
    (h : s.commands = init ++ [c]) : s.last = s.view c := by
  unfold Termux.last
  rw [h, List.getLast?_concat]

theorem call_command (s : Device) (pid : Nat) (call : Call) :
    (s.call pid call).command = s.command := by
  match call with
  | .start .server =>
    show s.startServer.command = _
    unfold Device.startServer
    split <;> rfl
  | .start .forwarder =>
    show s.startForwarder.command = _
    unfold Device.startForwarder
    split <;> rfl
  | .launch .server =>
    show (s.launchServer pid).command = _
    unfold Device.launchServer
    split
    · rfl
    · dsimp only
      split <;> rfl
  | .launch .forwarder => rfl
  | .stop .server | .stop .forwarder =>
    show (s.stopProgram _ _).command = _
    unfold Device.stopProgram
    split <;> rfl
  | .status .server | .status .forwarder =>
    show (s.showStatus _ _).command = _
    unfold Device.showStatus
    split <;> rfl
  | .log msg => rfl

theorem proceed_command (s : Device) (pid : Nat) : (s.proceed pid).command = s.command := by
  unfold Device.proceed
  split
  · rfl
  · split
    · exact call_command _ _ _
    · rfl

/-- All commands but the last are through, and `P` holds of what the last one has before it. -/
structure Serial (P : Device → Prop) (s : Termux) : Prop where
  through : ∀ c ∈ s.commands.dropLast, c.todo = []
  last : P s.last

/-- With one command at a time a step is one of the last command, or nothing. -/
theorem last_step {s : Termux} {e : Event} (h : ∀ c ∈ s.commands.dropLast, c.todo = [])
    (he : Alone s e) : (∀ c ∈ (s.step e).commands.dropLast, c.todo = []) ∧
      ((s.step e).last = s.last ∨ (s.step e).last = s.last.step e) := by
  match e, he with
  | .run command, he =>
    have hidle : s.last.todo = [] := by
      unfold Termux.last
      split
      · rfl
      · next c hc => exact he c (List.mem_of_getLast? hc)
    constructor
    · dsimp only [Termux.step]
      rw [List.dropLast_concat]
      exact he
    · refine Or.inr ((last_of_concat rfl).trans ?_)
      dsimp only [Device.step]
      rw [if_pos hidle, last_shared]
      rfl
  | .proceed j pid, _ =>
    dsimp only [Termux.step]
    split
    · exact ⟨h, Or.inl rfl⟩
    · next c hc =>
      obtain hnil | ⟨init, final, hcommands⟩ := List.eq_nil_or_concat s.commands
      · rw [hnil] at hc
        cases hc
      · rw [List.concat_eq_append] at hcommands
        rw [hcommands, List.dropLast_concat] at h
        rw [hcommands, List.getElem?_append] at hc
        split at hc
        · next hj =>
          -- a command that is through does nothing
          have hthrough : (s.view c).proceed pid = s.view c := by
            unfold Device.proceed
            rw [show (s.view c).todo = [] from h c (List.mem_of_getElem? hc)]
          rw [hthrough]
          have hsame : s.commands.set j c = s.commands := by
            rw [hcommands, List.set_append_left _ _ hj]
            congr 1
            obtain ⟨hlt, hget⟩ := List.getElem?_eq_some_iff.1 hc
            rw [← hget, List.set_getElem_self]
          refine ⟨?_, Or.inl ?_⟩
          · show ∀ c' ∈ (s.commands.set j c).dropLast, _
            rw [hsame, hcommands, List.dropLast_concat]
            exact h
          · show Termux.last ⟨s.toShared, s.commands.set j c⟩ = s.last
            rw [hsame]
        · next hge =>
          rw [List.getElem?_singleton] at hc
          split at hc
          · next hzero =>
            obtain rfl := Option.some.inj hc
            have hj : j = init.length := by omega
            have hset : ∀ c', s.commands.set j c' = init ++ [c'] := by
              intro c'
              rw [hcommands, hj, List.set_append_right _ _ le_rfl, Nat.sub_self]
              rfl
            refine ⟨?_, Or.inr ?_⟩
            · rw [hset, List.dropLast_concat]
              exact h
            · rw [last_of_concat hcommands]
              refine (last_of_concat (hset _)).trans ?_
              show Device.mk _ (some final.command) _ _ _ = (s.view final).proceed pid
              rw [show some final.command = ((s.view final).proceed pid).command from
                (proceed_command (s.view final) pid).symm]
          · cases hc
  | .exits _, _ | .appears _, _ | .replaced _ _, _ =>
    refine ⟨h, Or.inr ?_⟩
    dsimp only [Termux.step, Termux.last, Device.step]
    split <;> rfl

/-- What the last command keeps, step by step, is kept. -/
theorem Serial.step {P : Device → Prop} {s : Termux} {e : Event} (h : Serial P s)
    (he : Alone s e) (hP : P s.last → P (s.last.step e)) : Serial P (s.step e) := by
  obtain ⟨hthrough, hsame | hstep⟩ := last_step h.through he
  · exact ⟨hthrough, by rw [hsame]; exact h.last⟩
  · exact ⟨hthrough, by rw [hstep]; exact hP h.last⟩

theorem serial_fresh {P : Device → Prop} {home : Home} (h : P (.fresh home)) :
    Serial P (.fresh home) :=
  ⟨fun _ hc => absurd hc List.not_mem_nil, h⟩

/-! ## One step -/

/-- What a step does to the files and to the processes. -/
inductive Effect (s : Device) (e : Event) (s' : Device) : Prop where
  | nothing (hfiles : s'.pidfile = s.pidfile) (hprocesses : s'.processes = s.processes)
  | launched (program : Program) (j pid : Nat) (he : e = .proceed j pid)
      (hcall : .launch program ∈ s.todo)
      (hfiles : s'.pidfile = Function.update s.pidfile program (some pid))
      (hprocesses : s'.processes = Function.update s.processes pid (some ⟨some program, false⟩))
  | stopped (program : Program) (pid : Nat) (hfile : s.pidfile program = some pid)
      (hfiles : s'.pidfile = Function.update s.pidfile program none)
      (hprocesses : s'.processes = Function.update s.processes pid
        ((s.processes pid).map fun process : Process => { process with signalled := true }))
  | ended (pid : Nat) (he : e = .exits pid) (hfiles : s'.pidfile = s.pidfile)
      (hprocesses : s'.processes = Function.update s.processes pid none)
  | appeared (pid : Nat) (he : e = .appears pid) (hfiles : s'.pidfile = s.pidfile)
      (hprocesses : s'.processes = Function.update s.processes pid (some ⟨none, false⟩))

theorem call_effect {s : Device} {call : Call} {rest : List Call} (htodo : s.todo = call :: rest)
    (j pid : Nat) : Effect s (.proceed j pid) (Device.call { s with todo := rest } pid call) := by
  have hcall : call ∈ s.todo := by
    rw [htodo]
    exact List.mem_cons_self
  match call with
  | .start .server =>
    show Effect s _ (Device.startServer { s with todo := rest })
    unfold Device.startServer
    split <;> exact .nothing rfl rfl
  | .start .forwarder =>
    show Effect s _ (Device.startForwarder { s with todo := rest })
    unfold Device.startForwarder
    split <;> exact .nothing rfl rfl
  | .launch .server =>
    show Effect s _ (Device.launchServer { s with todo := rest } pid)
    unfold Device.launchServer
    split
    · exact .nothing rfl rfl
    · dsimp only
      split
      · exact .launched .server j pid rfl hcall rfl rfl
      · exact .nothing rfl rfl
  | .launch .forwarder => exact .launched .forwarder j pid rfl hcall rfl rfl
  | .stop .server | .stop .forwarder =>
    show Effect s _ (Device.stopProgram _ _ _)
    unfold Device.stopProgram
    split
    · exact .nothing rfl rfl
    · next pid' hfile => exact .stopped _ pid' hfile rfl rfl
  | .status .server | .status .forwarder =>
    show Effect s _ (Device.showStatus _ _ _)
    unfold Device.showStatus
    split <;> exact .nothing rfl rfl
  | .log msg => exact .nothing rfl rfl

theorem step_effect (s : Device) (e : Event) : Effect s e (s.step e) := by
  match e with
  | .run command =>
    dsimp only [Device.step]
    split <;> exact .nothing rfl rfl
  | .proceed j pid =>
    dsimp only [Device.step, Device.proceed]
    split
    · exact .nothing rfl rfl
    · next call rest htodo =>
      split
      · exact call_effect htodo j pid
      · exact .nothing rfl rfl
  | .exits pid => exact .ended pid rfl rfl rfl
  | .appears pid =>
    dsimp only [Device.step, Shared.step]
    split
    · exact .appeared pid rfl rfl rfl
    · exact .nothing rfl rfl
  | .replaced _ _ => exact .nothing rfl rfl

theorem alive_eq_some {s : Shared} {program : Program} {pid : Nat} :
    s.alive program = some pid ↔
      s.pidfile program = some pid ∧ ∃ process, s.processes pid = some process := by
  unfold Shared.alive
  rw [Option.filter_eq_some_iff, Option.isSome_iff_exists]

theorem alive_eq_none {s : Shared} {program : Program} :
    s.alive program = none ↔ ∀ pid, s.pidfile program = some pid → s.processes pid = none := by
  unfold Shared.alive
  rw [Option.filter_eq_none_iff]
  refine forall₂_congr fun pid _ => ?_
  rw [Option.not_isSome_iff_eq_none]

/-- What a function leaves to be called. -/
theorem call_todo (s : Device) (pid : Nat) (call : Call) :
    (s.call pid call).todo = s.todo ∨ (s.call pid call).todo = [] ∨
      ∃ program, call = .start program ∧ s.alive program = none ∧
        s.call pid call = { s with todo := .launch program :: s.todo } := by
  match call with
  | .start .server =>
    show (Device.startServer s).todo = _ ∨ (Device.startServer s).todo = _ ∨
      ∃ program, _ ∧ _ ∧ Device.startServer s = _
    unfold Device.startServer
    split
    · exact Or.inl rfl
    · next hdead => exact Or.inr (Or.inr ⟨.server, rfl, hdead, rfl⟩)
  | .start .forwarder =>
    show (Device.startForwarder s).todo = _ ∨ (Device.startForwarder s).todo = _ ∨
      ∃ program, _ ∧ _ ∧ Device.startForwarder s = _
    unfold Device.startForwarder
    split
    · exact Or.inl rfl
    · next hdead => exact Or.inr (Or.inr ⟨.forwarder, rfl, hdead, rfl⟩)
  | .launch .server =>
    show (Device.launchServer s pid).todo = _ ∨ (Device.launchServer s pid).todo = _ ∨ _
    unfold Device.launchServer
    split
    · exact Or.inr (Or.inl rfl)
    · dsimp only
      split
      · exact Or.inl rfl
      · exact Or.inr (Or.inl rfl)
  | .launch .forwarder => exact Or.inl rfl
  | .stop .server | .stop .forwarder =>
    refine Or.inl ?_
    show (Device.stopProgram s _ _).todo = _
    unfold Device.stopProgram
    split <;> rfl
  | .status .server | .status .forwarder =>
    refine Or.inl ?_
    show (Device.showStatus s _ _).todo = _
    unfold Device.showStatus
    split <;> rfl
  | .log msg => exact Or.inl rfl

/-! ## One of each -/

/-- A process that has not been told to end stands in the file of its program. -/
def Filed (s : Shared) : Prop :=
  ∀ program pid, s.processes pid = some ⟨some program, false⟩ → s.pidfile program = some pid

/-- A launch is the next thing to do, for a program that does not run. -/
structure Launching (s : Device) : Prop where
  next : ∀ program, Call.launch program ∉ s.todo.tail
  dead : ∀ program, Call.launch program ∈ s.todo → ¬ s.Runs program

theorem Filed.step {s : Device} (h : Filed s.toShared) (hl : Launching s) (e : Event) :
    Filed (s.step e).toShared := by
  intro program q hq
  match step_effect s e with
  | .nothing hfiles hprocesses =>
    rw [hprocesses] at hq
    rw [hfiles]
    exact h program q hq
  | .launched program' j pid _ hcall hfiles hprocesses =>
    rw [hprocesses, Function.update_apply] at hq
    rw [hfiles, Function.update_apply]
    split at hq
    · next heq =>
      obtain rfl : program' = program := by
        injection hq with hq
        injection hq with hq
        exact Option.some.inj hq
      rw [if_pos rfl, heq]
    · -- one that ran already is not of the program that is launched
      rw [if_neg, h program q hq]
      rintro rfl
      exact hl.dead program hcall ⟨q, hq⟩
  | .stopped program' pid hfile hfiles hprocesses =>
    rw [hprocesses, Function.update_apply] at hq
    rw [hfiles, Function.update_apply]
    split at hq
    · obtain ⟨process, -, heq⟩ := Option.map_eq_some_iff.1 hq
      injection heq with _ heq
      cases heq
    · next hne =>
      have hfiled := h program q hq
      rw [if_neg, hfiled]
      rintro rfl
      rw [hfile] at hfiled
      exact hne (Option.some.inj hfiled).symm
  | .ended pid _ hfiles hprocesses | .appeared pid _ hfiles hprocesses =>
    rw [hprocesses, Function.update_apply] at hq
    rw [hfiles]
    split at hq
    · cases hq
    · exact h program q hq

theorem launch_not_mem_calls (command : Command) (program : Program) :
    Call.launch program ∉ command.calls := by
  cases command <;> cases program <;> decide

theorem launching_of_not_mem {s : Device} (h : ∀ program, Call.launch program ∉ s.todo) :
    Launching s :=
  ⟨fun program hmem => h program (List.mem_of_mem_tail hmem),
    fun program hmem => absurd hmem (h program)⟩

/-- What nobody starts does not run later. -/
theorem Launching.kept {s s' : Device} (h : Launching s) (htodo : s'.todo = s.todo)
    (hruns : ∀ program pid, s'.processes pid = some ⟨some program, false⟩ → s.Runs program) :
    Launching s' := by
  constructor
  · rw [htodo]
    exact h.next
  · intro program hmem ⟨pid, hpid⟩
    rw [htodo] at hmem
    exact h.dead program hmem (hruns program pid hpid)

theorem Launching.step {s : Device} (h : Launching s) (hfiled : Filed s.toShared) (e : Event) :
    Launching (s.step e) := by
  match e with
  | .run command =>
    dsimp only [Device.step]
    split
    · exact launching_of_not_mem (launch_not_mem_calls command)
    · exact h
  | .proceed j pid =>
    dsimp only [Device.step, Device.proceed]
    split
    · exact h
    · next call rest htodo =>
      split
      · have hrest : ∀ program, Call.launch program ∉ rest := by
          intro program hmem
          exact h.next program (by rw [htodo]; exact hmem)
        obtain hsame | hnil | ⟨program, rfl, hdead, heq⟩ :=
          call_todo { s with todo := rest } pid call
        · exact launching_of_not_mem (by rw [hsame]; exact hrest)
        · refine launching_of_not_mem fun program => ?_
          rw [hnil]
          exact List.not_mem_nil
        · rw [heq]
          refine ⟨hrest, fun program' hmem ⟨q, hq⟩ => ?_⟩
          -- the launch that was called for is of the program that was found not to run
          obtain hnew | hold := List.mem_cons.1 hmem
          · cases hnew
            have hnone := alive_eq_none.1 hdead q (hfiled _ q hq)
            cases hq.symm.trans hnone
          · exact hrest program' hold
      · exact h
  | .exits pid =>
    refine h.kept rfl fun program q hq => ?_
    have hq' : Function.update s.processes pid none q = some ⟨some program, false⟩ := hq
    rw [Function.update_apply] at hq'
    split at hq'
    · cases hq'
    · exact ⟨q, hq'⟩
  | .appears pid =>
    refine h.kept rfl fun program q hq => ?_
    dsimp only [Device.step, Shared.step] at hq
    split at hq
    · dsimp only at hq
      rw [Function.update_apply] at hq
      split at hq
      · cases hq
      · exact ⟨q, hq⟩
    · exact ⟨q, hq⟩
  | .replaced _ _ => exact h.kept rfl fun program q hq => ⟨q, hq⟩

/-- How far a `stop` has got. -/
def Stopping (s : Device) : Prop :=
  s.command = some .stop → s.todo ⊆ Command.stop.calls ∧
    ∀ program, Call.stop program ∉ s.todo → s.pidfile program = none

theorem call_stop (s : Device) (pid : Nat) (program : Program) :
    (s.call pid (.stop program)).pidfile = Function.update s.pidfile program none ∧
      (s.call pid (.stop program)).todo = s.todo := by
  have hstop : ∀ program msg,
      (s.stopProgram program msg).pidfile = Function.update s.pidfile program none ∧
        (s.stopProgram program msg).todo = s.todo := by
    intro program msg
    unfold Device.stopProgram
    split
    · next hnone => exact ⟨by rw [← hnone, Function.update_eq_self], rfl⟩
    · exact ⟨rfl, rfl⟩
  match program with
  | .server => exact hstop .server _
  | .forwarder => exact hstop .forwarder _

theorem mem_stop_calls (program : Program) : Call.stop program ∈ Command.stop.calls := by
  cases program <;> decide

theorem call_of_mem_stop {call : Call} (h : call ∈ Command.stop.calls) :
    (∃ program, call = .stop program) ∨ ∃ msg, call = .log msg := by
  rcases List.mem_cons.1 h with rfl | h
  · exact Or.inl ⟨_, rfl⟩
  · rcases List.mem_cons.1 h with rfl | h
    · exact Or.inl ⟨_, rfl⟩
    · exact Or.inr ⟨_, List.mem_singleton.1 h⟩

theorem Stopping.step {s : Device} (h : Stopping s) (e : Event) : Stopping (s.step e) := by
  match e with
  | .run command =>
    dsimp only [Device.step]
    split
    · rintro ⟨⟩
      exact ⟨List.Subset.refl _, fun program hnot => absurd (mem_stop_calls program) hnot⟩
    · exact h
  | .proceed j pid =>
    dsimp only [Device.step, Device.proceed]
    split
    · exact h
    · next call rest htodo =>
      split
      · intro hcommand
        rw [call_command] at hcommand
        obtain ⟨hsub, hdone⟩ := h hcommand
        rw [htodo, List.cons_subset] at hsub
        rcases call_of_mem_stop hsub.1 with ⟨stopped, rfl⟩ | ⟨msg, rfl⟩
        · obtain ⟨hfiles, hrest⟩ := call_stop { s with todo := rest } pid stopped
          rw [hfiles, hrest]
          refine ⟨hsub.2, fun program hnot => ?_⟩
          rw [Function.update_apply]
          split
          · rfl
          · next hne =>
            refine hdone program ?_
            rw [htodo, List.mem_cons, not_or]
            exact ⟨fun heq => hne (Call.stop.inj heq), hnot⟩
        · refine ⟨hsub.2, fun program hnot => hdone program ?_⟩
          rw [htodo, List.mem_cons, not_or]
          exact ⟨Call.noConfusion, hnot⟩
      · exact h
  | .exits _ | .replaced _ _ => exact h
  | .appears pid =>
    dsimp only [Device.step, Shared.step]
    split <;> exact h

/-- What holds in every run. -/
structure Orderly (s : Device) : Prop where
  filed : Filed s.toShared
  launching : Launching s
  stopping : Stopping s

theorem Orderly.step {s : Device} (h : Orderly s) (e : Event) : Orderly (s.step e) :=
  ⟨h.filed.step h.launching e, h.launching.step h.filed e, h.stopping.step e⟩

theorem orderly_fresh (home : Home) : Orderly (.fresh home) :=
  ⟨(fun _ _ h => nomatch h), launching_of_not_mem fun _ => List.not_mem_nil, (fun h => nomatch h)⟩

/-- A `stop` that is through. -/
theorem stopped_spec {s : Device} (h : Orderly s) (hcommand : s.command = some .stop)
    (htodo : s.todo = []) (program : Program) :
    s.pidfile program = none ∧ ¬ s.Runs program := by
  have hnone := (h.stopping hcommand).2 program (by rw [htodo]; exact List.not_mem_nil)
  refine ⟨hnone, ?_⟩
  rintro ⟨pid, hpid⟩
  exact absurd (h.filed program pid hpid) (by rw [hnone]; exact nofun)

/-- With one command at a time no program runs twice: what runs stands in its file. When a `stop` is
    through, nothing runs that has not been told to end, and there are no files. -/
theorem single_instance {home : Home} {events : List Event}
    (h : Along Termux.step Alone (.fresh home) events) :
    let s := events.foldl Termux.step (.fresh home)
    (∀ program pid, s.processes pid = some ⟨some program, false⟩ → s.pidfile program = some pid) ∧
      (s.last.command = some .stop → s.last.todo = [] →
        ∀ program, s.pidfile program = none ∧ ¬ s.Runs program) := by
  intro s
  have hserial : Serial Orderly s :=
    Along.invariant (serial_fresh (orderly_fresh home))
      (fun _ e h he => h.step he fun hlast => hlast.step e) h
  have hfiled := hserial.last.filed
  have hstopped := stopped_spec hserial.last
  rw [last_shared] at hfiled hstopped
  exact ⟨hfiled, hstopped⟩

/-- The home directory of Termux. -/
def termuxHome : Home := ⟨"/data/data/com.termux/files/home".toList, by simp⟩

/-- A `start`, with a process of another program that appears in the middle of it. -/
def startedOnce : List Event :=
  [.replaced true (some []), .run .start, .proceed 0 10, .proceed 0 10, .appears 11, .proceed 0 12,
    .proceed 0 12, .proceed 0 13, .proceed 0 13, .proceed 0 13]

/-- And a `stop`. -/
def stoppedAgain : List Event :=
  startedOnce ++ [.run .stop, .proceed 1 20, .exits 12, .proceed 1 20, .proceed 1 20]

theorem single_instance_stoppedAgain :
    let s := stoppedAgain.foldl Termux.step (.fresh termuxHome)
    (∀ program pid, s.processes pid = some ⟨some program, false⟩ → s.pidfile program = some pid) ∧
      ∀ program, s.pidfile program = none ∧ ¬ s.Runs program :=
  (single_instance (by decide +kernel)).imp_right fun h => h (by decide +kernel) (by decide +kernel)

/-- Two starts that overlap run the server twice. -/
example :
    let s := [.replaced true (some []), .run .start, .run .start, .proceed 0 10, .proceed 1 10,
      .proceed 0 10, .proceed 1 11].foldl Termux.step (.fresh termuxHome)
    s.processes 10 = some ⟨some .server, false⟩ ∧ s.processes 11 = some ⟨some .server, false⟩ := by
  decide +kernel

/-! ## Numbers that stand in no file -/

/-- A new process is not given a number that stands in a file. -/
def Unreused (s : Shared) : Event → Prop
  | .proceed _ pid | .appears pid => ∀ program, s.pidfile program ≠ some pid
  | _ => True

instance (s : Shared) (e : Event) : Decidable (Unreused s e) := by
  cases e <;> unfold Unreused <;> infer_instance

/-- What stands in a file is, if it is a process, the one that was started; others have not been
    signalled. -/
structure Known (s : Shared) : Prop where
  file : ∀ program pid process, s.pidfile program = some pid → s.processes pid = some process →
    process = ⟨some program, false⟩
  other : ∀ pid process, s.processes pid = some process → process.program = none →
    process.signalled = false

theorem Known.step {s : Device} (h : Known s.toShared) {e : Event}
    (he : Unreused s.toShared e) : Known (s.step e).toShared := by
  match step_effect s e with
  | .nothing hfiles hprocesses =>
    constructor
    · rw [hfiles, hprocesses]
      exact h.file
    · rw [hprocesses]
      exact h.other
  | .launched program j pid heq _ hfiles hprocesses =>
    subst heq
    rw [Unreused] at he
    constructor
    · intro program' q process hfile hprocess
      rw [hfiles, Function.update_apply] at hfile
      rw [hprocesses, Function.update_apply] at hprocess
      split at hfile
      · next hsame =>
        rw [if_pos (Option.some.inj hfile).symm] at hprocess
        rw [hsame]
        exact (Option.some.inj hprocess).symm
      · have hne : q ≠ pid := fun hq => he program' (by rw [← hq]; exact hfile)
        rw [if_neg hne] at hprocess
        exact h.file program' q process hfile hprocess
    · intro q process hprocess hother
      rw [hprocesses, Function.update_apply] at hprocess
      split at hprocess
      · rw [← Option.some.inj hprocess]
      · exact h.other q process hprocess hother
  | .stopped program pid hfile hfiles hprocesses =>
    constructor
    · intro program' q process hfile' hprocess
      rw [hfiles, Function.update_apply] at hfile'
      rw [hprocesses, Function.update_apply] at hprocess
      split at hfile'
      · cases hfile'
      · next hne =>
        split at hprocess
        · next hq =>
          -- one number does not stand in two files
          obtain ⟨process', hprocess', -⟩ := Option.map_eq_some_iff.1 hprocess
          have hsame := (h.file program' pid process' (hq ▸ hfile') hprocess').symm.trans
            (h.file program pid process' hfile hprocess')
          injection hsame with hsame
          exact absurd (Option.some.inj hsame) hne
        · exact h.file program' q process hfile' hprocess
    · intro q process hprocess hother
      rw [hprocesses, Function.update_apply] at hprocess
      split at hprocess
      · obtain ⟨process', hprocess', heq⟩ := Option.map_eq_some_iff.1 hprocess
        rw [h.file program pid process' hfile hprocess'] at heq
        rw [← heq] at hother
        cases hother
      · exact h.other q process hprocess hother
  | .ended pid _ hfiles hprocesses =>
    constructor
    · intro program q process hfile hprocess
      rw [hprocesses, Function.update_apply] at hprocess
      split at hprocess
      · cases hprocess
      · exact h.file program q process (hfiles ▸ hfile) hprocess
    · intro q process hprocess hother
      rw [hprocesses, Function.update_apply] at hprocess
      split at hprocess
      · cases hprocess
      · exact h.other q process hprocess hother
  | .appeared pid heq hfiles hprocesses =>
    subst heq
    rw [Unreused] at he
    constructor
    · intro program q process hfile hprocess
      rw [hfiles] at hfile
      have hne : q ≠ pid := fun hq => he program (by rw [← hq]; exact hfile)
      rw [hprocesses, Function.update_of_ne hne] at hprocess
      exact h.file program q process hfile hprocess
    · intro q process hprocess hother
      rw [hprocesses, Function.update_apply] at hprocess
      split at hprocess
      · rw [← Option.some.inj hprocess]
      · exact h.other q process hprocess hother

/-- What holds in every run in which no number of a file is given to a new process. -/
structure Kept (s : Device) : Prop where
  filed : Filed s.toShared
  launching : Launching s
  known : Known s.toShared

theorem Kept.step {s : Device} (h : Kept s) {e : Event} (he : Unreused s.toShared e) :
    Kept (s.step e) :=
  ⟨h.filed.step h.launching e, h.launching.step h.filed e, h.known.step he⟩

theorem kept_run {home : Home} {events : List Event}
    (h : Along Termux.step (fun s e => Alone s e ∧ Unreused s.toShared e) (.fresh home) events) :
    Serial Kept (events.foldl Termux.step (.fresh home)) := by
  have hstart : Kept (.fresh home) :=
    ⟨(orderly_fresh home).filed, (orderly_fresh home).launching,
      ⟨(fun _ _ _ h => nomatch h), (fun _ _ h => nomatch h)⟩⟩
  refine Along.invariant (serial_fresh hstart) (fun s e hs he => hs.step he.1 fun hlast => ?_) h
  exact hlast.step (by rw [last_shared]; exact he.2)

/-- The check that the script makes is whether the program runs. -/
theorem alive_iff_runs {s : Device} (h : Kept s) (program : Program) :
    s.alive program ≠ none ↔ s.Runs program := by
  rw [Option.ne_none_iff_exists']
  constructor
  · rintro ⟨pid, hpid⟩
    obtain ⟨hfile, process, hprocess⟩ := alive_eq_some.1 hpid
    exact ⟨pid, by rw [hprocess, h.known.file program pid process hfile hprocess]⟩
  · rintro ⟨pid, hpid⟩
    exact ⟨pid, alive_eq_some.2 ⟨h.filed program pid hpid, _, hpid⟩⟩

/-- With one command at a time, and while no new process is given a number that stands in a
    file, the script sees correctly what runs and has not been told to end, and has signalled no
    process that it did not start. -/
theorem files_known {home : Home} {events : List Event}
    (h : Along Termux.step (fun s e => Alone s e ∧ Unreused s.toShared e) (.fresh home) events) :
    let s := events.foldl Termux.step (.fresh home)
    (∀ program, s.alive program ≠ none ↔ s.Runs program) ∧
      ∀ pid process, s.processes pid = some process → process.program = none →
        process.signalled = false := by
  intro s
  have hkept : Kept s.last := (kept_run h).last
  have halive := alive_iff_runs hkept
  have hother := hkept.known.other
  rw [last_shared] at halive hother
  exact ⟨halive, hother⟩

theorem files_known_startedOnce :
    let s := startedOnce.foldl Termux.step (.fresh termuxHome)
    (∀ program, s.alive program ≠ none ↔ s.Runs program) ∧
      ∀ pid process, s.processes pid = some process → process.program = none →
        process.signalled = false :=
  files_known (by decide +kernel)

end VantaDns.Phone
