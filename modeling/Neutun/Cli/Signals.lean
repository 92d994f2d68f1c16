/-
  Neutun/Cli/Signals.lean
  =======================
  Whom the daemon commands kill.

  An entry keeps a pid, not a process.  When the daemon has ended, the system may
  give its pid to any other program, and to the commands that process looks like
  the daemon; `daemon stop` does not even look for an entry.  `Host` is a
  computer on which other programs start and end as well.

  The invariant that keeps them out of the way is that no entry has the pid of
  one (`Apart`).  It breaks where a program starts under the pid of an entry, and
  then a `daemon stop-all` kills it (`signals_daemons_only`).
-/
import Neutun.Cli.Daemons

namespace Neutun.Cli

open Foundation

/-! ### Signals -/

/-- What the system answers to the command. -/
def DaemonEvent.system : DaemonEvent → Option System
  | .run _ sys | .ls sys | .stop _ sys | .stopAll sys | .respawn _ sys => some sys
  | .exit _ => none

/-- What the command passes to `kill_process`, a pid or what `kill` takes it for. -/
def Daemons.targets (s : Daemons) : DaemonEvent → List Pid
  | .stop pid sys => if sys.isPidAlive pid then [pid] else []
  | .stopAll sys => (s.liveDaemons sys).map DaemonEntry.pid
  | _ => []

/-- A process that is sent a signal, and that the signal ends. -/
def Daemons.ends (s : Daemons) (e : DaemonEvent) (pid : Pid) : Bool :=
  decide (pid ∈ s.targets e) && e.system.any fun sys => sys.killed pid

/-! ### A computer with other programs -/

/-- Operands that are nobody's pid: to `kill` 0 stands for the group of the command's
    own process, and a number above `i32::MAX` may, read as a negative one, stand for
    another group or for all processes. -/
def manyProcesses (pid : Pid) : Bool := decide (pid = 0 ∨ 0x7fffffff < pid)

/-- `others` are the pids of the processes that `start_daemon` has not spawned, and
    the operands that stand for several processes, which others have some of. -/
structure Host where
  daemons : Daemons
  others : Pid → Bool

/-- An invocation is one step: since `kill -0` may answer anything, what happens
    while it goes on may as well have happened before. -/
inductive HostEvent where
  | daemon (e : DaemonEvent)
  /-- another program starts -/
  | start (pid : Pid)
  /-- and ends -/
  | exit (pid : Pid)

namespace Host

/-- A process gets a pid that no other has. -/
def step (s : Host) : HostEvent → Option Host
  | .daemon e =>
    if (e.system.bind System.spawned).any s.others then none
    else (s.daemons.step e).map fun daemons =>
      ⟨daemons, fun pid => s.others pid && (manyProcesses pid || !s.daemons.ends e pid)⟩
  | .start pid =>
    if s.others pid || (s.daemons.processes pid).isSome then none
    else some { s with others := Function.update s.others pid true }
  | .exit pid =>
    if s.others pid && !manyProcesses pid then
      some { s with others := Function.update s.others pid false }
    else none

end Host

/-- It starts with some programs, and no daemon. -/
def host (dir : SettingsDir) : Machine Host HostEvent where
  start s := s.daemons = Daemons.new dir ∧ ∀ pid, manyProcesses pid = true → s.others pid = true
  step := Host.step

namespace Host

variable {s t : Host}

/-- Every process that the command sends a signal to is a daemon. -/
def Spares (s : Host) : HostEvent → Prop
  | .daemon e => ∀ pid ∈ s.daemons.targets e, s.others pid = false
  | _ => True

/-- What is typed in is not the pid of another program and does not stand for several
    processes, and the pid of an entry is not given to another program. -/
def Aimed (s : Host) : HostEvent → Prop
  | .daemon (.stop pid sys) => sys.isPidAlive pid = true → s.others pid = false
  | .start pid => s.daemons.entries.lookup pid = none
  | _ => True

/-- No entry has the pid of another program. -/
structure Apart (s : Host) : Prop where
  filed : s.daemons.Filed
  entry : ∀ pid, s.daemons.entries.lookup pid ≠ none → s.others pid = false

theorem step_daemon {e : DaemonEvent} (h : s.step (.daemon e) = some t) :
    (∀ pid, e.system.bind System.spawned = some pid → s.others pid = false) ∧
      s.daemons.step e = some t.daemons ∧ ∀ pid, s.others pid = false → t.others pid = false := by
  simp only [step] at h
  split at h
  · cases h
  next hfree =>
    obtain ⟨daemons, hstep, rfl⟩ := Option.map_eq_some_iff.mp h
    refine ⟨?_, hstep, ?_⟩
    · intro pid hpid
      rw [hpid, Option.any_some] at hfree
      simpa using hfree
    · intro pid hpid
      simp [hpid]

theorem step_start {pid : Pid} (h : s.step (.start pid) = some t) :
    t = { s with others := Function.update s.others pid true } := by
  simp only [step] at h
  split at h
  · cases h
  · exact (Option.some.inj h).symm

theorem step_exit {pid : Pid} (h : s.step (.exit pid) = some t) :
    t = { s with others := Function.update s.others pid false } := by
  simp only [step] at h
  split at h
  · exact (Option.some.inj h).symm
  · cases h

theorem lookup_startDaemon {d d' : Daemons} {sys : System} {port : UInt16}
    {subdomain : Option Text} {command : Command} (hfiled : d.Filed)
    (h : d.startDaemon sys port subdomain command = some d') {pid : Pid}
    (hentry : d'.entries.lookup pid ≠ none) :
    d.entries.lookup pid ≠ none ∨ sys.spawned = some pid := by
  have hclean : (d.cleanup sys).entries.lookup pid ≠ none → d.entries.lookup pid ≠ none := by
    rw [Daemons.lookup_cleanup hfiled]
    split
    · exact id
    · exact fun hnone => absurd rfl hnone
  unfold Daemons.startDaemon at h
  split at h
  · obtain rfl := Option.some.inj h
    exact Or.inl (hclean hentry)
  · obtain rfl := Option.some.inj h
    exact Or.inl (hclean hentry)
  next child hcollision hspawned =>
    split at h
    · cases h
    · obtain rfl := Option.some.inj h
      rw [Table.lookup_insert_ite] at hentry
      split at hentry
      next hchild => exact Or.inr (hchild ▸ hspawned)
      · exact Or.inl (hclean hentry)

/-- A new entry is that of the child. -/
theorem lookup_step {d d' : Daemons} {e : DaemonEvent} (hfiled : d.Filed)
    (h : d.step e = some d') {pid : Pid} (hentry : d'.entries.lookup pid ≠ none) :
    d.entries.lookup pid ≠ none ∨ e.system.bind System.spawned = some pid := by
  cases e with
  | run command sys =>
    obtain ⟨port, subdomain, -, hstart⟩ := Daemons.step_run h
    exact lookup_startDaemon hfiled hstart hentry
  | ls sys =>
    obtain rfl := Option.some.inj h
    left
    rw [Daemons.lookup_cleanup hfiled] at hentry
    split at hentry
    · exact hentry
    · exact absurd rfl hentry
  | stop target sys =>
    obtain rfl := Option.some.inj h
    left
    rw [Daemons.lookup_stopDaemon] at hentry
    split at hentry
    · exact absurd rfl hentry
    · exact hentry
  | stopAll sys =>
    obtain rfl := Option.some.inj h
    exact absurd (Daemons.stopAllDaemons_spec hfiled sys pid).2.1 hentry
  | respawn self sys =>
    obtain ⟨command, port, subdomain, -, -, hstart⟩ := Daemons.step_respawn h
    have hothers : (d.terminate self).Filed := hfiled
    exact lookup_startDaemon hothers hstart hentry
  | exit ended =>
    obtain ⟨command, -, rfl⟩ := Option.map_eq_some_iff.mp h
    exact Or.inl hentry

theorem apart_step {e : HostEvent} (hs : s.Apart) (haimed : s.Aimed e)
    (h : s.step e = some t) : t.Apart := by
  cases e with
  | daemon e =>
    obtain ⟨hspawned, hstep, hothers⟩ := step_daemon h
    refine ⟨Daemons.filed_step hs.filed hstep, ?_⟩
    intro pid hentry
    apply hothers
    rcases lookup_step hs.filed hstep hentry with hold | hnew
    · exact hs.entry pid hold
    · exact hspawned pid hnew
  | start started =>
    obtain rfl := step_start h
    refine ⟨hs.filed, ?_⟩
    intro pid hentry
    have hne : pid ≠ started := by
      rintro rfl
      exact hentry haimed
    simp only [Function.update_apply, if_neg hne]
    exact hs.entry pid hentry
  | exit ended =>
    obtain rfl := step_exit h
    refine ⟨hs.filed, ?_⟩
    intro pid hentry
    simp only [Function.update_apply]
    split
    · rfl
    · exact hs.entry pid hentry

/-- With the entries apart the commands spare the other programs. -/
theorem spares_of_apart {e : HostEvent} (hs : s.Apart) (haimed : s.Aimed e) : s.Spares e := by
  cases e with
  | daemon e =>
    cases e with
    | stop target sys =>
      intro pid hpid
      simp only [Daemons.targets] at hpid
      split at hpid
      next halive =>
        rw [List.mem_singleton.mp hpid]
        exact haimed halive
      · cases hpid
    | stopAll sys =>
      intro pid hpid
      obtain ⟨daemon, hdaemon, rfl⟩ := List.mem_map.mp hpid
      apply hs.entry
      rw [((Daemons.mem_liveDaemons hs.filed).mp hdaemon).1]
      exact nofun
    | _ => exact nofun
  | start pid => trivial
  | exit pid => trivial

/-- Whatever `kill -0` answers, a `daemon stop-all` would spare the other programs. -/
def Clear (s : Host) : Prop := ∀ sys, s.Spares (.daemon (.stopAll sys))

theorem Apart.clear (hs : s.Apart) : s.Clear := fun _ => spares_of_apart hs trivial

/-- An entry whose pid another program has is enough. -/
theorem not_clear {pid : Pid} (hfiled : s.daemons.Filed)
    (hentry : s.daemons.entries.lookup pid ≠ none) (hother : s.others pid = true) : ¬ s.Clear := by
  intro hclear
  obtain ⟨daemon, hdaemon⟩ := Option.ne_none_iff_exists'.mp hentry
  have hpid := hfiled pid daemon hdaemon
  have hlive : daemon ∈ s.daemons.liveDaemons ⟨fun _ => true, fun _ => true, none, []⟩ :=
    (Daemons.mem_liveDaemons hfiled).mpr ⟨hpid ▸ hdaemon, rfl⟩
  have hspared := hclear _ pid (List.mem_map.mpr ⟨daemon, hlive, hpid⟩)
  rw [hother] at hspared
  cases hspared

/-- A step that was not aimed hits another program, or leaves one for the next
    `daemon stop-all`. -/
theorem aimed_of_clear {e : HostEvent} (hs : s.Apart) (hspares : s.Spares e)
    (h : s.step e = some t) (ht : t.Clear) : s.Aimed e := by
  cases e with
  | daemon e =>
    cases e with
    | stop target sys =>
      intro halive
      apply hspares
      simp only [Daemons.targets, halive, if_true, List.mem_singleton]
    | _ => trivial
  | start started =>
    have hstarted := step_start h
    by_contra hentry
    have hother : t.others started = true := by
      rw [hstarted]
      exact Function.update_self started true s.others
    have hkept : t.daemons = s.daemons := by rw [hstarted]
    refine not_clear ?_ ?_ hother ht
    · rw [hkept]
      exact hs.filed
    · rw [hkept]
      exact hentry
  | exit ended => trivial

end Host

open Host

/-- A run in which only daemons are signalled, and in which a `daemon stop-all`
    would at no time do otherwise, is exactly one in which nothing is typed in that
    another program has as its pid or that stands for several processes, and no
    program starts under the pid of an entry. -/
theorem signals_daemons_only (dir : SettingsDir) (es : List HostEvent) (s t : Host)
    (hstart : (host dir).start s) (hrun : (host dir).run s es = some t) :
    (host dir).Meets Aimed s es ↔
      (host dir).Meets Spares s es ∧ (host dir).Always Clear s es := by
  have hs : s.Apart := by
    refine ⟨?_, ?_⟩
    · rw [hstart.1]
      exact nofun
    · rw [hstart.1]
      exact fun pid hentry => absurd rfl hentry
  have hclear {es : List HostEvent} {s t : Host} (hs : s.Apart)
      (hspares : (host dir).Meets Spares s es) (hrun : (host dir).run s es = some t) :
      (host dir).Always Clear s es ↔ (host dir).Meets Aimed s es :=
    Machine.always_iff_meets (D := Spares) (fun s hs => hs.clear)
      (fun s e t hs _ h haimed => apart_step hs haimed h)
      (fun s e t hs hspares h ht => aimed_of_clear hs hspares h ht) hs hspares hrun
  constructor
  · intro haimed
    have hspares := haimed.of_invariant (I := Apart)
      (fun s e t hs haimed h => apart_step hs haimed h)
      (fun s e hs haimed => spares_of_apart hs haimed) hs
    exact ⟨hspares, (hclear hs hspares hrun).mpr haimed⟩
  · rintro ⟨hspares, hsafe⟩
    exact (hclear hs hspares hrun).mp hsafe

namespace Signalling

open Tracking

/-- The process groups, and a program with the pid 5. -/
def shell : Host := ⟨Daemons.new settings, fun pid => manyProcesses pid || decide (pid = 5)⟩

theorem shell_starts : (host settings).start shell :=
  ⟨rfl, fun _ h => Bool.or_eq_true_iff.mpr (Or.inl h)⟩

/-- Two daemons are stopped; then their pids are used again. -/
def orderly : List HostEvent :=
  [.daemon (.run (app 3000) (sys true 7)), .daemon (.run (app 4000) (sys true 8)),
   .daemon (.stop 7 (sys true 9)), .daemon (.stopAll (sys true 9)), .start 7, .start 8]

/-- A daemon ends, and another program gets its pid. -/
def reused : List HostEvent :=
  [.daemon (.run (app 3000) (sys true 7)), .daemon (.exit 7), .start 7,
   .daemon (.stopAll (sys true 9))]

end Signalling

open Signalling Tracking in
theorem signals_daemons_only_orderly : ∃ t, (host settings).run shell orderly = some t ∧
    (host settings).Meets Spares shell orderly := by
  refine ⟨_, rfl, ?_⟩
  refine ((signals_daemons_only settings orderly shell _ shell_starts rfl).mp ?_).1
  exact .cons trivial rfl (.cons trivial rfl (.cons (fun _ => rfl) rfl
    (.cons trivial rfl (.cons rfl rfl (.cons rfl rfl trivial)))))

open Signalling Tracking in
/-- `daemon stop 5` ends a program that has never been a daemon, and `daemon stop-all`
    one that has the pid of a daemon that has ended. -/
theorem signals_other_program :
    (∃ t, (host settings).run shell [.daemon (.stop 5 (sys true 9))] = some t ∧
      shell.others 5 = true ∧ t.others 5 = false ∧
      ¬ (host settings).Meets Spares shell [.daemon (.stop 5 (sys true 9))]) ∧
    ∃ t, (host settings).run shell reused = some t ∧ t.others 7 = false ∧
      ¬ (host settings).Meets Spares shell reused := by
  refine ⟨⟨_, rfl, rfl, rfl, ?_⟩, _, rfl, rfl, ?_⟩
  · intro hmeets
    have hspared := hmeets.1 5 List.mem_cons_self
    cases hspared
  · intro hmeets
    have hspared := ((hmeets.2 _ rfl).2 _ rfl).2 _ rfl
    have hhit := hspared.1 7 List.mem_cons_self
    cases hhit

end Neutun.Cli
