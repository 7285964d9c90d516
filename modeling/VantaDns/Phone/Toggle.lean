/-
  The launcher on the phone (`toggle_vantadns`): it asks for the status, and stops what runs or
  starts what does not.

  `toggle_spec`: what a toggle leads to on a phone on which commands have begun one at a time and no
  number of a file has been given to a new process, if nothing else happens to the programs
  while it is under way.
-/
import VantaDns.Phone.VantaVpn

namespace VantaDns.Phone

open Lib Lib.Text

/-- `grep -q "RUNNING"`. -/
def showsRunning (shown : List Str) : Bool :=
  shown.any fun line => decide ("RUNNING".toList <:+: line)

/-- What `toggle_vantadns` runs next, from what `status` wrote. -/
def toggled (shown : List Str) : Command := if showsRunning shown then .stop else .start

/-- A server can be started. -/
def Shared.Installed (s : Shared) : Prop := s.binary = true ∧ s.configSrc ≠ none

instance (s : Shared) : Decidable s.Installed := inferInstanceAs (Decidable (_ ∧ _))

/-- Nothing else happens than that the command goes on, that processes without a file appear, and
    that processes end which are not running programs. -/
def Undisturbed (s : Shared) : Event → Prop
  | .proceed _ pid | .appears pid => ∀ program, s.pidfile program ≠ some pid
  | .exits pid => ∀ program, s.processes pid ≠ some ⟨some program, false⟩
  | .run _ | .replaced _ _ => False

instance (s : Shared) : (e : Event) → Decidable (Undisturbed s e)
  | .proceed _ pid | .appears pid =>
      inferInstanceAs (Decidable (∀ program, s.pidfile program ≠ some pid))
  | .exits pid =>
      inferInstanceAs (Decidable (∀ program, s.processes pid ≠ some ⟨some program, false⟩))
  | .run _ | .replaced _ _ => instDecidableFalse

theorem Undisturbed.unreused {s : Shared} {e : Event} (h : Undisturbed s e) : Unreused s e := by
  match e, h with
  | .proceed _ _, h | .appears _, h => exact h
  | .exits _, _ => trivial

theorem Undisturbed.alone {s : Termux} {e : Event} (h : Undisturbed s.toShared e) : Alone s e := by
  match e, h with
  | .proceed _ _, _ | .appears _, _ | .exits _, _ => trivial

/-! ## One command -/

/-- What concerns neither the command nor the programs. -/
structure Same (s s' : Device) : Prop where
  runs : ∀ program, s'.Runs program ↔ s.Runs program
  installed : s'.Installed ↔ s.Installed
  command : s'.command = s.command
  todo : s'.todo = s.todo
  shown : s'.shown = s.shown

theorem Same.refl (s : Device) : Same s s := ⟨fun _ => Iff.rfl, Iff.rfl, rfl, rfl, rfl⟩

/-- Another process in the place of one that is not a running program. -/
theorem runs_update {s s' : Shared} {pid : Nat} {new : Option Process}
    (hprocesses : s'.processes = Function.update s.processes pid new)
    (hold : ∀ program, s.processes pid ≠ some ⟨some program, false⟩) (program : Program) :
    s'.Runs program ↔ new = some ⟨some program, false⟩ ∨ s.Runs program := by
  constructor
  · rintro ⟨q, hq⟩
    rw [hprocesses, Function.update_apply] at hq
    split at hq
    · exact Or.inl hq
    · exact Or.inr ⟨q, hq⟩
  · rintro (hnew | ⟨q, hq⟩)
    · exact ⟨pid, by rw [hprocesses, Function.update_self, hnew]⟩
    · have hne : q ≠ pid := fun heq => hold program (by rw [← heq]; exact hq)
      exact ⟨q, by rw [hprocesses, Function.update_of_ne hne, hq]⟩

theorem free_not_running {s : Shared} {pid : Nat} (hfree : s.processes pid = none)
    (program : Program) : s.processes pid ≠ some ⟨some program, false⟩ := by
  rw [hfree]
  exact nofun

theorem Undisturbed.cases {s : Device} {e : Event} (h : Undisturbed s.toShared e) :
    Same s (s.step e) ∨ ∃ pid call rest, s.todo = call :: rest ∧ s.processes pid = none ∧
      s.step e = Device.call { s with todo := rest } pid call := by
  match e, h with
  | .proceed _ pid, _ =>
    dsimp only [Device.step, Device.proceed]
    split
    · exact Or.inl (.refl s)
    · next call rest htodo =>
      split
      · next hfree => exact Or.inr ⟨pid, call, rest, htodo, hfree, rfl⟩
      · exact Or.inl (.refl s)
  | .exits pid, h =>
    refine Or.inl ⟨fun program => ?_, Iff.rfl, rfl, rfl, rfl⟩
    rw [runs_update rfl h program, or_iff_right nofun]
  | .appears pid, _ =>
    dsimp only [Device.step, Shared.step]
    split
    · next hfree =>
      refine Or.inl ⟨fun program => ?_, Iff.rfl, rfl, rfl, rfl⟩
      rw [runs_update rfl (free_not_running hfree) program, or_iff_right (by rintro ⟨⟩)]
    · exact Or.inl (.refl s)

theorem Undisturbed.command {s : Device} {e : Event} (h : Undisturbed s.toShared e) :
    (s.step e).command = s.command := by
  rcases h.cases with hsame | ⟨pid, call, rest, -, -, hstep⟩
  · exact hsame.command
  · rw [hstep, call_command]

theorem runs_launch {s : Device} {pid : Nat} (hfree : s.processes pid = none)
    (program program' : Program) :
    (s.launch program pid).Runs program' ↔ program' = program ∨ s.Runs program' := by
  rw [runs_update rfl (free_not_running hfree) program']
  refine or_congr_left ⟨fun heq => ?_, fun heq => by rw [heq]⟩
  injection heq with heq
  injection heq with heq
  exact (Option.some.inj heq).symm

/-- The check of a start, where the program does not run. -/
theorem call_start {s : Device} {program : Program} (hdead : s.alive program = none) (pid : Nat) :
    s.call pid (.start program) = { s with todo := .launch program :: s.todo } := by
  match program with
  | .server =>
    show s.startServer = _
    unfold Device.startServer
    rw [hdead]
  | .forwarder =>
    show s.startForwarder = _
    unfold Device.startForwarder
    rw [hdead]

/-- Launching a program that can be started. -/
theorem call_launch {s : Device} {pid : Nat} (hfree : s.processes pid = none)
    (hinstalled : s.Installed) (program : Program) :
    (∀ program', (s.call pid (.launch program)).Runs program' ↔
      program' = program ∨ s.Runs program') ∧
      ((s.call pid (.launch program)).Installed ↔ s.Installed) ∧
      (s.call pid (.launch program)).todo = s.todo := by
  match program with
  | .server =>
    show (∀ _, (s.launchServer pid).Runs _ ↔ _) ∧ ((s.launchServer pid).Installed ↔ _) ∧
      (s.launchServer pid).todo = _
    unfold Device.launchServer
    split
    · next hnone => exact absurd hnone hinstalled.2
    · next text htext =>
      dsimp only
      rw [if_pos hinstalled.1]
      exact ⟨runs_launch hfree .server, Iff.rfl, rfl⟩
  | .forwarder => exact ⟨runs_launch hfree .forwarder, Iff.rfl, rfl⟩

/-- Launching a server that cannot be started ends the command. -/
theorem call_launch_missing {s : Device} (pid : Nat) (hinstalled : ¬ s.Installed) :
    (∀ program, (s.call pid (.launch .server)).Runs program ↔ s.Runs program) ∧
      ((s.call pid (.launch .server)).Installed ↔ s.Installed) ∧
      (s.call pid (.launch .server)).todo = [] := by
  show (∀ _, (s.launchServer pid).Runs _ ↔ _) ∧ ((s.launchServer pid).Installed ↔ _) ∧
    (s.launchServer pid).todo = _
  unfold Device.launchServer
  split
  · exact ⟨fun _ => Iff.rfl, Iff.rfl, rfl⟩
  · next text htext =>
    dsimp only
    rw [if_neg fun hbinary => hinstalled ⟨hbinary, by rw [htext]; exact nofun⟩]
    exact ⟨fun _ => Iff.rfl, Iff.rfl, rfl⟩

theorem showsRunning_concat (shown : List Str) (line : Str) :
    showsRunning (shown ++ [line]) = true ↔
      showsRunning shown = true ∨ "RUNNING".toList <:+: line := by
  unfold showsRunning
  rw [List.any_append, List.any_cons, List.any_nil, Bool.or_false, Bool.or_eq_true,
    decide_eq_true_eq]

/-- What a `status` line adds. -/
theorem call_status (s : Device) (pid : Nat) (program : Program) :
    Same { s with shown := (s.call pid (.status program)).shown } (s.call pid (.status program)) ∧
      (showsRunning (s.call pid (.status program)).shown = true ↔
        showsRunning s.shown = true ∨ s.alive program ≠ none) := by
  have hshow : ∀ program name,
      ¬ "RUNNING".toList <:+:
        "\x1b[36m[vanta-vpn]\x1b[0m ".toList ++ (String.toList name ++ ": stopped".toList) →
      Same { s with shown := (s.showStatus program name).shown } (s.showStatus program name) ∧
        (showsRunning (s.showStatus program name).shown = true ↔
          showsRunning s.shown = true ∨ s.alive program ≠ none) := by
    intro program name hstopped
    unfold Device.showStatus
    split
    · next running halive =>
      refine ⟨⟨fun _ => Iff.rfl, Iff.rfl, rfl, rfl, rfl⟩, ?_⟩
      dsimp only [Device.log]
      rw [showsRunning_concat, halive]
      refine or_congr_right (iff_of_true ?_ nofun)
      refine ⟨"\x1b[36m[vanta-vpn]\x1b[0m ".toList ++ name.toList ++ ": ".toList,
        " (PID ".toList ++ Device.pidText running ++ ")".toList, ?_⟩
      rw [show ": RUNNING (PID ".toList =
        ": ".toList ++ "RUNNING".toList ++ " (PID ".toList by decide]
      simp only [List.append_assoc]
    · next hdead =>
      refine ⟨⟨fun _ => Iff.rfl, Iff.rfl, rfl, rfl, rfl⟩, ?_⟩
      dsimp only [Device.log]
      rw [showsRunning_concat, hdead]
      exact or_congr_right (iff_of_false hstopped fun h => h rfl)
  match program with
  | .server => exact hshow .server "Server" (by decide)
  | .forwarder => exact hshow .forwarder "Forwarder" (by decide)

/-- A `status` that is being run on a phone that was `s₀` before. -/
structure Stating (s₀ : Shared) (s : Device) : Prop where
  kept : Kept s
  runs : ∀ program, s.Runs program ↔ s₀.Runs program
  installed : s.Installed ↔ s₀.Installed
  nodup : s.todo.Nodup
  calls : ∀ call ∈ s.todo, ∃ program, call = .status program
  shown : showsRunning s.shown = true ↔
    ∃ program, Call.status program ∉ s.todo ∧ s₀.Runs program

theorem Stating.step {s₀ : Shared} {s : Device} (h : Stating s₀ s) {e : Event}
    (he : Undisturbed s.toShared e) :
    Stating s₀ (s.step e) := by
  have hkept := h.kept.step he.unreused
  rcases he.cases with hsame | ⟨pid, call, rest, htodo, -, hstep⟩
  · refine ⟨hkept, ?_, hsame.installed.trans h.installed, ?_, ?_, ?_⟩
    · exact fun program => (hsame.runs program).trans (h.runs program)
    · rw [hsame.todo]
      exact h.nodup
    · rw [hsame.todo]
      exact h.calls
    · rw [hsame.todo, hsame.shown]
      exact h.shown
  · obtain ⟨program, rfl⟩ := h.calls call (by rw [htodo]; exact List.mem_cons_self)
    obtain ⟨hsame, hshown⟩ := call_status { s with todo := rest } pid program
    rw [hstep] at hkept ⊢
    have hnodup := h.nodup
    rw [htodo, List.nodup_cons] at hnodup
    have halive : s.alive program ≠ none ↔ s₀.Runs program :=
      (alive_iff_runs h.kept program).trans (h.runs program)
    refine ⟨hkept, ?_, hsame.installed.trans h.installed, ?_, ?_, ?_⟩
    · exact fun program' => (hsame.runs program').trans (h.runs program')
    · rw [hsame.todo]
      exact hnodup.2
    · rw [hsame.todo]
      exact fun call hcall => h.calls call (by rw [htodo]; exact List.mem_cons_of_mem _ hcall)
    · rw [hsame.todo, hshown]
      show showsRunning s.shown = true ∨ s.alive program ≠ none ↔ _
      rw [h.shown, halive, htodo]
      constructor
      · rintro (⟨program', hnot, hruns⟩ | hruns)
        · exact ⟨program', fun hmem => hnot (List.mem_cons_of_mem _ hmem), hruns⟩
        · exact ⟨program, hnodup.1, hruns⟩
      · rintro ⟨program', hnot, hruns⟩
        by_cases heq : program' = program
        · exact Or.inr (heq ▸ hruns)
        · refine Or.inl ⟨program', ?_, hruns⟩
          rw [List.mem_cons, not_or]
          exact ⟨fun hcall => heq (Call.status.inj hcall), hnot⟩

/-- A `start` that is being run on a phone on which nothing ran, and a server can be started. -/
structure Starting (s : Device) : Prop where
  kept : Kept s
  installed : s.Installed
  nodup : s.todo.Nodup
  calls : ∀ call ∈ s.todo, (∃ program, call = .start program) ∨
    (∃ program, call = .launch program) ∨ ∃ msg, call = .log msg
  apart : ∀ program, Call.launch program ∈ s.todo → Call.start program ∉ s.todo
  runs : ∀ program, s.Runs program ↔
    Call.start program ∉ s.todo ∧ Call.launch program ∉ s.todo

theorem Starting.step {s : Device} (h : Starting s) {e : Event} (he : Undisturbed s.toShared e) :
    Starting (s.step e) := by
  have hkept := h.kept.step he.unreused
  rcases he.cases with hsame | ⟨pid, call, rest, htodo, hfree, hstep⟩
  · refine ⟨hkept, hsame.installed.2 h.installed, ?_, ?_, ?_, ?_⟩
    · rw [hsame.todo]
      exact h.nodup
    · rw [hsame.todo]
      exact h.calls
    · rw [hsame.todo]
      exact h.apart
    · intro program
      rw [hsame.todo, hsame.runs, h.runs]
  · rw [hstep] at hkept ⊢
    have hnodup := h.nodup
    have hcalls := h.calls
    have hruns := h.runs
    have hapart := h.apart
    have hnext := h.kept.launching.next
    rw [htodo] at hcalls hruns hapart hnext
    rw [htodo, List.nodup_cons] at hnodup
    have hrest : ∀ call ∈ rest, (∃ program, call = .start program) ∨
        (∃ program, call = .launch program) ∨ ∃ msg, call = .log msg :=
      fun call hcall => hcalls call (List.mem_cons_of_mem _ hcall)
    have hlaunch : ∀ program, Call.launch program ∉ rest := hnext
    rcases hcalls call List.mem_cons_self with ⟨program, rfl⟩ | ⟨program, rfl⟩ | ⟨msg, rfl⟩
    · -- the program does not run, since it is still to be started
      have hdead : s.alive program = none := by
        by_contra halive
        exact ((hruns program).1 ((alive_iff_runs h.kept program).1 halive)).1 List.mem_cons_self
      rw [call_start (s := { s with todo := rest }) hdead] at hkept ⊢
      refine ⟨hkept, h.installed, ?_, ?_, ?_, ?_⟩
      · exact List.nodup_cons.2 ⟨hlaunch program, hnodup.2⟩
      · intro call hcall
        obtain rfl | hcall := List.mem_cons.1 hcall
        · exact Or.inr (Or.inl ⟨program, rfl⟩)
        · exact hrest call hcall
      · intro program' hmem
        obtain hnew | hold := List.mem_cons.1 hmem
        · cases hnew
          rw [List.mem_cons, not_or]
          exact ⟨nofun, hnodup.1⟩
        · exact absurd hold (hlaunch program')
      · intro program'
        show s.Runs program' ↔ Call.start program' ∉ Call.launch program :: rest ∧
          Call.launch program' ∉ Call.launch program :: rest
        rw [hruns]
        simp only [List.mem_cons, not_or, Call.start.injEq, Call.launch.injEq, reduceCtorEq,
          not_false_eq_true, true_and]
        exact ⟨fun hnot => ⟨hnot.1.2, hnot.1.1, hnot.2⟩, fun hnot => ⟨⟨hnot.2.1, hnot.1⟩, hnot.2.2⟩⟩
    · obtain ⟨hafter, hinstalled, hleft⟩ :=
        call_launch (s := { s with todo := rest }) hfree h.installed program
      have hstarted : Call.start program ∉ rest := fun hmem =>
        hapart program List.mem_cons_self (List.mem_cons_of_mem _ hmem)
      refine ⟨hkept, hinstalled.2 h.installed, ?_, ?_, ?_, ?_⟩
      · rw [hleft]
        exact hnodup.2
      · rw [hleft]
        exact hrest
      · rw [hleft]
        exact fun program' hmem => absurd hmem (hlaunch program')
      · intro program'
        rw [hafter, hleft]
        show program' = program ∨ s.Runs program' ↔
          Call.start program' ∉ rest ∧ Call.launch program' ∉ rest
        rw [hruns, and_iff_left (hlaunch program')]
        simp only [List.mem_cons, not_or, Call.launch.injEq, reduceCtorEq, not_false_eq_true,
          true_and]
        constructor
        · rintro (rfl | hnot)
          · exact hstarted
          · exact hnot.1
        · intro hnot
          by_cases heq : program' = program
          · exact Or.inl heq
          · exact Or.inr ⟨hnot, heq, hlaunch program'⟩
    · refine ⟨hkept, h.installed, hnodup.2, hrest,
        fun program hmem => absurd hmem (hlaunch program), fun program => ?_⟩
      show s.Runs program ↔ Call.start program ∉ rest ∧ Call.launch program ∉ rest
      rw [hruns]
      simp only [List.mem_cons, not_or, reduceCtorEq, not_false_eq_true, true_and]

/-- A `start` on a phone on which nothing runs, and no server can be started. -/
structure Missing (s : Device) : Prop where
  installed : ¬ s.Installed
  runs : ∀ program, ¬ s.Runs program
  kept : Kept s
  todo : (∃ rest, s.todo = .start .server :: rest) ∨ (∃ rest, s.todo = .launch .server :: rest) ∨
    s.todo = []

theorem Missing.step {s : Device} (h : Missing s) {e : Event} (he : Undisturbed s.toShared e) :
    Missing (s.step e) := by
  have hkept := h.kept.step he.unreused
  rcases he.cases with hsame | ⟨pid, call, rest, htodo, hfree, hstep⟩
  · refine ⟨hsame.installed.not.2 h.installed, ?_, hkept, ?_⟩
    · exact fun program => (hsame.runs program).not.2 (h.runs program)
    · rw [hsame.todo]
      exact h.todo
  · rw [hstep] at hkept ⊢
    obtain ⟨rest', hstart⟩ | ⟨rest', hlaunch⟩ | hnone := h.todo
    · obtain ⟨rfl, -⟩ := List.cons.inj (htodo.symm.trans hstart)
      have hdead : s.alive .server = none :=
        not_not.1 ((alive_iff_runs h.kept .server).not.2 (h.runs .server))
      rw [call_start (s := { s with todo := rest }) hdead] at hkept ⊢
      exact ⟨h.installed, h.runs, hkept, Or.inr (Or.inl ⟨rest, rfl⟩)⟩
    · obtain ⟨rfl, -⟩ := List.cons.inj (htodo.symm.trans hlaunch)
      obtain ⟨hruns, hinstalled, hdone⟩ :=
        call_launch_missing (s := { s with todo := rest }) pid h.installed
      exact ⟨hinstalled.not.2 h.installed, fun program => (hruns program).not.2 (h.runs program),
        hkept, Or.inr (Or.inr hdone)⟩
    · exact absurd (htodo.symm.trans hnone) (List.cons_ne_nil _ _)

/-! ## One command after another -/

theorem last_run (s : Termux) (command : Command) : (s.step (.run command)).last =
    ⟨s.toShared, some command, command.calls, false, []⟩ := by
  dsimp only [Termux.step]
  rw [last_of_concat rfl]
  rfl

theorem Serial.idle {P : Device → Prop} {s : Termux} (h : Serial P s) (hdone : s.last.todo = []) :
    ∀ c ∈ s.commands, c.todo = [] := by
  intro c hc
  obtain hnil | ⟨init, final, hcommands⟩ := List.eq_nil_or_concat s.commands
  · rw [hnil] at hc
    cases hc
  · rw [List.concat_eq_append] at hcommands
    have hthrough := h.through
    rw [last_of_concat hcommands] at hdone
    rw [hcommands] at hc hthrough
    rw [List.dropLast_concat] at hthrough
    obtain hold | hlast := List.mem_append.1 hc
    · exact hthrough c hold
    · rw [List.mem_singleton.1 hlast]
      exact hdone

/-- A command that is not disturbed keeps what its steps keep. -/
theorem serial_run {P : Device → Prop} {s : Termux} (hidle : ∀ c ∈ s.commands, c.todo = [])
    {command : Command} (hstart : P ⟨s.toShared, some command, command.calls, false, []⟩)
    (hstep : ∀ (d : Device) e, P d → Undisturbed d.toShared e → P (d.step e)) {events : List Event}
    (h : Along Termux.step (fun s e => Undisturbed s.toShared e) (s.step (.run command)) events) :
    Serial P (events.foldl Termux.step (s.step (.run command))) := by
  have hserial : Serial P (s.step (.run command)) := by
    refine ⟨?_, by rw [last_run]; exact hstart⟩
    dsimp only [Termux.step]
    rw [List.dropLast_concat]
    exact hidle
  refine Along.invariant hserial (fun s e hs he => hs.step he.alone fun hlast => ?_) h
  exact hstep s.last e hlast (by rw [last_shared]; exact he)

theorem nodup_calls (command : Command) : command.calls.Nodup := by
  cases command <;> decide

theorem mem_status_calls (program : Program) : Call.status program ∈ Command.status.calls := by
  cases program <;> decide

theorem mem_start_calls (program : Program) : Call.start program ∈ Command.start.calls := by
  cases program <;> decide

/-- The state in which a command begins. -/
theorem Kept.begun {s : Termux} (hs : Kept s.last) (command : Command) :
    Kept ⟨s.toShared, some command, command.calls, false, []⟩ := by
  have hfiled := hs.filed
  have hknown := hs.known
  rw [last_shared] at hfiled hknown
  exact ⟨hfiled, launching_of_not_mem (launch_not_mem_calls command), hknown⟩

section Commands

variable {s : Termux} {events : List Event}

/-- What a `status` says on a phone that is not disturbed. -/
theorem status_spec (hs : Kept s.last) (hidle : ∀ c ∈ s.commands, c.todo = [])
    (h : Along Termux.step (fun s e => Undisturbed s.toShared e) (s.step (.run .status)) events)
    (hdone : (events.foldl Termux.step (s.step (.run .status))).last.todo = []) :
    Serial (Stating s.toShared) (events.foldl Termux.step (s.step (.run .status))) ∧
      (toggled (events.foldl Termux.step (s.step (.run .status))).last.shown = .stop ↔
        ∃ program, s.Runs program) := by
  have hstating :
      Stating s.toShared ⟨s.toShared, some .status, Command.status.calls, false, []⟩ := by
    refine ⟨hs.begun .status, fun _ => Iff.rfl, Iff.rfl, nodup_calls .status, ?_, ?_⟩
    · intro call hcall
      rcases List.mem_cons.1 hcall with rfl | hcall
      · exact ⟨_, rfl⟩
      · exact ⟨_, List.mem_singleton.1 hcall⟩
    · refine iff_of_false (fun h => nomatch h) ?_
      rintro ⟨program, hnot, -⟩
      exact hnot (mem_status_calls program)
  have hafter := serial_run hidle hstating (fun _ _ hs he => hs.step he) h
  refine ⟨hafter, ?_⟩
  have hshown := hafter.last.shown
  rw [hdone] at hshown
  unfold toggled
  rw [show (∃ program, s.Runs program) ↔ _ from
    (exists_congr fun program => (and_iff_right List.not_mem_nil).symm).trans hshown.symm]
  split
  · next hrunning => exact iff_of_true rfl hrunning
  · next hrunning => exact iff_of_false nofun hrunning

/-- What a `stop` leads to on a phone that is not disturbed. -/
theorem stop_spec (hs : Kept s.last) (hidle : ∀ c ∈ s.commands, c.todo = [])
    (h : Along Termux.step (fun s e => Undisturbed s.toShared e) (s.step (.run .stop)) events)
    (hdone : (events.foldl Termux.step (s.step (.run .stop))).last.todo = []) (program : Program) :
    ¬ (events.foldl Termux.step (s.step (.run .stop))).Runs program := by
  have hbegun := hs.begun .stop
  have hstart : Orderly ⟨s.toShared, some .stop, Command.stop.calls, false, []⟩ :=
    ⟨hbegun.filed, hbegun.launching, fun _ => ⟨List.Subset.refl _, fun program hnot =>
      absurd (mem_stop_calls program) hnot⟩⟩
  have hafter := serial_run (P := fun d => Orderly d ∧ d.command = some .stop) hidle ⟨hstart, rfl⟩
    (fun d e hd he => ⟨hd.1.step e, (Undisturbed.command he).trans hd.2⟩) h
  have hstopped := (stopped_spec hafter.last.1 hafter.last.2 hdone program).2
  rw [last_shared] at hstopped
  exact hstopped

/-- What a `start` leads to on a phone that is not disturbed and on which nothing runs. -/
theorem start_spec (hs : Kept s.last) (hidle : ∀ c ∈ s.commands, c.todo = [])
    (hnone : ∀ program, ¬ s.Runs program)
    (h : Along Termux.step (fun s e => Undisturbed s.toShared e) (s.step (.run .start)) events)
    (hdone : (events.foldl Termux.step (s.step (.run .start))).last.todo = []) (program : Program) :
    (events.foldl Termux.step (s.step (.run .start))).Runs program ↔ s.Installed := by
  have hkept := hs.begun .start
  by_cases hinstalled : s.Installed
  · refine iff_of_true ?_ hinstalled
    have hstart : Starting ⟨s.toShared, some .start, Command.start.calls, false, []⟩ := by
      refine ⟨hkept, hinstalled, nodup_calls .start, ?_, ?_, ?_⟩
      · intro call hcall
        simp only [Command.calls, List.mem_cons, List.not_mem_nil, or_false] at hcall
        rcases hcall with rfl | rfl | rfl | rfl | rfl
        · exact Or.inl ⟨_, rfl⟩
        · exact Or.inl ⟨_, rfl⟩
        all_goals exact Or.inr (Or.inr ⟨_, rfl⟩)
      · exact fun program hmem => absurd hmem (launch_not_mem_calls .start program)
      · exact fun program => iff_of_false (hnone program) fun hnot => hnot.1 (mem_start_calls program)
    have hruns := (serial_run hidle hstart (fun _ _ hs he => hs.step he) h).last.runs program
    rw [hdone, last_shared] at hruns
    exact hruns.2 ⟨List.not_mem_nil, List.not_mem_nil⟩
  · refine iff_of_false ?_ hinstalled
    have hstart : Missing ⟨s.toShared, some .start, Command.start.calls, false, []⟩ :=
      ⟨hinstalled, hnone, hkept, Or.inl ⟨_, rfl⟩⟩
    have hruns := (serial_run hidle hstart (fun _ _ hs he => hs.step he) h).last.runs program
    rw [last_shared] at hruns
    exact hruns

end Commands

/-- What a toggle leads to: both programs run, not told to end, if nothing ran before and a
    server can be started, and otherwise whatever ran has been told to end. -/
theorem toggle_spec {home : Home} {before first second : List Event} {s t u : Termux}
    (hbefore : Along Termux.step (fun s e => Alone s e ∧ Unreused s.toShared e)
      (.fresh home) before)
    (hs : s = before.foldl Termux.step (.fresh home)) (hidle : ∀ c ∈ s.commands, c.todo = [])
    (hfirst : Along Termux.step (fun s e => Undisturbed s.toShared e) (s.step (.run .status)) first)
    (ht : t = first.foldl Termux.step (s.step (.run .status))) (htdone : t.last.todo = [])
    (hsecond : Along Termux.step (fun s e => Undisturbed s.toShared e)
      (t.step (.run (toggled t.last.shown))) second)
    (hu : u = second.foldl Termux.step (t.step (.run (toggled t.last.shown))))
    (hudone : u.last.todo = []) (program : Program) :
    u.Runs program ↔ (∀ program, ¬ s.Runs program) ∧ s.Installed := by
  have hkept : Kept s.last := by
    rw [hs]
    exact (kept_run hbefore).last
  subst ht hu
  obtain ⟨hstating, htoggled⟩ := status_spec hkept hidle hfirst htdone
  have hidle' := hstating.idle htdone
  by_cases hrunning : ∃ program, s.Runs program
  · obtain ⟨running, hruns⟩ := hrunning
    rw [htoggled.2 ⟨running, hruns⟩] at hsecond hudone ⊢
    exact iff_of_false (stop_spec hstating.last.kept hidle' hsecond hudone program)
      fun h => h.1 running hruns
  · have hnone : ∀ program, ¬ s.Runs program := not_exists.1 hrunning
    have hstart : toggled (first.foldl Termux.step (s.step (.run .status))).last.shown = .start := by
      unfold toggled at htoggled ⊢
      refine if_neg fun hshown => hrunning (htoggled.1 (if_pos hshown))
    have hsame := hstating.last.runs
    have hinstalled := hstating.last.installed
    rw [last_shared] at hsame hinstalled
    rw [hstart] at hsecond hudone ⊢
    rw [start_spec hstating.last.kept hidle' (fun program => (hsame program).not.2 (hnone program))
      hsecond hudone, hinstalled, and_iff_right hnone]

def asking : List Event := [.proceed 1 20, .appears 21, .proceed 1 20]

/-- The rest of a `stop`; the forwarder ends before the server is signalled. -/
def stopping : List Event := [.proceed 2 20, .exits 12, .proceed 2 20, .proceed 2 20]

theorem toggle_spec_startedOnce :
    let s := startedOnce.foldl Termux.step (.fresh termuxHome)
    let t := asking.foldl Termux.step (s.step (.run .status))
    (stopping.foldl Termux.step (t.step (.run (toggled t.last.shown)))).Runs .server ↔
      (∀ program, ¬ s.Runs program) ∧ s.Installed :=
  toggle_spec (by decide +kernel) rfl (by decide +kernel) (by decide +kernel) rfl
    (by decide +kernel) (by decide +kernel) rfl (by decide +kernel) .server

end VantaDns.Phone
