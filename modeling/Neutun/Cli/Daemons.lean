/-
  Neutun/Cli/Daemons.lean
  =======================
  Daemons and what is written down about them (`daemon.rs`, and the daemon half of
  `saved_config.rs`).

  A daemon is the same program, started again without its `--daemon` flag; the
  process that starts it writes an entry under its pid.  Entries are taken out
  for a process that `kill -0` does not find, and after every attempt to stop
  one.  Each invocation is one step, with the answers it gets from the system.
-/
import Neutun.Cli.Config
import Neutun.Foundation.Machine

namespace Neutun.Cli

open Foundation

abbrev Pid := UInt32

/-- `daemons/<pid>.json` -/
structure DaemonEntry where
  pid : Pid
  port : UInt16
  subdomain : Option Text
  startedAt : Text
deriving DecidableEq

/-! ### Command lines -/

/-- A command line that may start a tunnel: flags alone, or `saves restore` with
    its own `--daemon`.  `clustered` tells that `-D` stands together with other
    short flags, as in `-wD`. -/
inductive Command where
  | tunnel (opts : Opts) (clustered : Bool)
  | restore (name : FileName) (opts : Opts) (daemon : Bool)
deriving DecidableEq

/-- The arguments without `--daemon` and `-D`. -/
def Command.withoutDaemonFlag : Command → Command
  | tunnel opts clustered => tunnel { opts with daemon := opts.daemon && clustered } clustered
  | restore name opts _ => restore name opts false

/-- What `main` makes of a command line. -/
inductive Action where
  | startDaemon (port : UInt16) (subdomain : Option Text)
  | forward (port : UInt16) (subdomain : Option Text)
  /-- interactive mode, or a saved session that is not there -/
  | other
deriving DecidableEq

def Command.action (dir : SettingsDir) : Command → Action
  | tunnel opts _ =>
    match opts.port with
    | some port =>
      if opts.daemon then .startDaemon port opts.subDomain
      else .forward (Config.resolvePort dir.loadConfigOrDefault opts none)
        (Config.resolveSubDomain opts none)
    | none => .other
  | restore name opts daemon =>
    match dir.loadSession name with
    | some session =>
      if daemon then .startDaemon session.port session.subdomain
      else .forward (Config.resolvePort dir.loadConfigOrDefault opts (some session))
        (Config.resolveSubDomain opts (some session))
    | none => .other

namespace Command

/-- The flags of a `saves restore` do not change the port or the subdomain of the
    session. -/
def Agrees (dir : SettingsDir) : Command → Prop
  | restore name opts _ => ∀ session, dir.loadSession name = some session →
      (∀ port, opts.port = some port → port = session.port) ∧
        ∀ subdomain, opts.subDomain = some subdomain → session.subdomain = some subdomain
  | tunnel _ _ => True

/-- A daemon forwards what `start_daemon` has been told, unless the flags change the
    session. -/
theorem action_withoutDaemonFlag {dir : SettingsDir} {command : Command}
    {port port' : UInt16} {subdomain subdomain' : Option Text}
    (haction : command.action dir = .startDaemon port subdomain)
    (hagrees : command.Agrees dir)
    (hchild : command.withoutDaemonFlag.action dir = .forward port' subdomain') :
    port' = port ∧ subdomain' = subdomain := by
  cases command with
  | tunnel opts clustered =>
    simp only [action] at haction
    simp only [withoutDaemonFlag, action] at hchild
    cases hport : opts.port with
    | none => simp [hport] at haction
    | some p =>
      simp only [hport] at haction hchild
      split at haction
      · split at hchild
        · cases hchild
        · injection haction with hp hsub
          injection hchild with hp' hsub'
          refine ⟨?_, ?_⟩
          · rw [← hp', ← hp]
            rfl
          · rw [← hsub', ← hsub, Config.resolveSubDomain, Option.bind_none, Option.or_none]
      · cases haction
  | restore name opts daemon =>
    simp only [action] at haction
    simp only [withoutDaemonFlag, action] at hchild
    cases hsession : dir.loadSession name with
    | none => simp [hsession] at haction
    | some session =>
      obtain ⟨hsame, hsame'⟩ := hagrees session hsession
      simp only [hsession, Bool.false_eq_true, if_false] at haction hchild
      split at haction
      · injection haction with hp hsub
        injection hchild with hp' hsub'
        rw [← hp', ← hsub', ← hp, ← hsub, Config.resolvePort, Config.resolveSubDomain]
        constructor
        · cases hport : opts.port with
          | none => rfl
          | some p => exact hsame p hport
        · cases hsub : opts.subDomain with
          | none => rfl
          | some sub => exact (hsame' sub hsub).symm
      · cases haction

theorem withoutDaemonFlag_withoutDaemonFlag (command : Command) :
    command.withoutDaemonFlag.withoutDaemonFlag = command.withoutDaemonFlag := by
  cases command with
  | tunnel opts clustered => simp [withoutDaemonFlag]
  | restore name opts daemon => rfl

end Command

/-! ### The state -/

/-- The entries, and the processes that `start_daemon` has spawned and that still
    live, each with its command line. -/
structure Daemons where
  dir : SettingsDir
  entries : Table Pid DaemonEntry
  processes : Pid → Option Command

/-- What an invocation gets from the system: whether `kill -0` finds a process,
    whether `kill` ends it, the pid of a child, the time. -/
structure System where
  isPidAlive : Pid → Bool
  killed : Pid → Bool
  spawned : Option Pid
  now : Text

inductive DaemonEvent where
  | run (command : Command) (sys : System)
  | ls (sys : System)
  | stop (pid : Pid) (sys : System)
  | stopAll (sys : System)
  /-- a daemon whose command line still says so starts a daemon, and ends -/
  | respawn (pid : Pid) (sys : System)
  /-- a daemon ends -/
  | exit (pid : Pid)

namespace Daemons

def new (dir : SettingsDir) : Daemons := ⟨dir, ∅, fun _ => none⟩

/-- The process lives, and `start_daemon` has spawned it. -/
def Live (s : Daemons) (pid : Pid) : Prop := s.processes pid ≠ none

def terminate (s : Daemons) (pid : Pid) : Daemons :=
  { s with processes := Function.update s.processes pid none }

def removeDaemonEntry (s : Daemons) (pid : Pid) : Daemons :=
  { s with entries := s.entries.erase pid }

variable (s : Daemons) (sys : System)

/-- `cleanup_and_list_daemons`: these entries stay, … -/
def liveDaemons : List DaemonEntry :=
  (Table.values s.entries).filter fun daemon => sys.isPidAlive daemon.pid

/-- … and the others are taken out. -/
def cleanup : Daemons :=
  { s with entries := Table.eraseAll s.entries (((Table.values s.entries).filter
      fun daemon => !sys.isPidAlive daemon.pid).map DaemonEntry.pid) }

/-- `kill_process`; the result of the command is ignored. -/
def killProcess (pid : Pid) : Daemons := if sys.killed pid then s.terminate pid else s

def checkDaemonCollision (port : UInt16) (subdomain : Option Text) : Option DaemonEntry :=
  (s.liveDaemons sys).find? fun daemon =>
    decide (daemon.port = port) && decide (daemon.subdomain = subdomain)

/-- `start_daemon`, for a command line with its `--daemon` flag; a process gets a
    pid that no other has. -/
def startDaemon (port : UInt16) (subdomain : Option Text) (command : Command) : Option Daemons :=
  match s.checkDaemonCollision sys port subdomain, sys.spawned with
  | some _, _ | none, none => some (s.cleanup sys)
  | none, some pid =>
    match s.processes pid with
    | some _ => none
    | none => some { s.cleanup sys with
        entries := (s.cleanup sys).entries.insert pid ⟨pid, port, subdomain, sys.now⟩
        processes := Function.update s.processes pid (some command.withoutDaemonFlag) }

def stopDaemon (pid : Pid) : Daemons :=
  if sys.isPidAlive pid then (s.killProcess sys pid).removeDaemonEntry pid
  else s.removeDaemonEntry pid

/-- The loop of `stop_all_daemons`. -/
def stopEach (sys : System) : List DaemonEntry → Daemons → Daemons
  | [], s => s
  | daemon :: rest, s =>
    stopEach sys rest ((s.killProcess sys daemon.pid).removeDaemonEntry daemon.pid)

def stopAllDaemons : Daemons := stopEach sys (s.liveDaemons sys) (s.cleanup sys)

def step (s : Daemons) : DaemonEvent → Option Daemons
  | .run command sys =>
    match command.action s.dir with
    | .startDaemon port subdomain => s.startDaemon sys port subdomain command
    | _ => none
  | .ls sys => some (s.cleanup sys)
  | .stop pid sys => some (s.stopDaemon sys pid)
  | .stopAll sys => some (s.stopAllDaemons sys)
  | .respawn pid sys =>
    match s.processes pid with
    | none => none
    | some command =>
      match command.action s.dir with
      | .startDaemon port subdomain =>
        (s.startDaemon sys port subdomain command).map fun t => t.terminate pid
      | _ => none
  | .exit pid => (s.processes pid).map fun _ => s.terminate pid

end Daemons

/-- The invocations of one user, one at a time, from an empty directory. -/
def daemons (dir : SettingsDir) : Machine Daemons DaemonEvent where
  start s := s = Daemons.new dir
  step := Daemons.step

namespace Daemons

variable {s t : Daemons} {sys : System}

/-! ### What the commands do -/

/-- Each entry is in the file of its pid. -/
def Filed (s : Daemons) : Prop :=
  ∀ pid daemon, s.entries.lookup pid = some daemon → daemon.pid = pid

theorem live_of_some {pid : Pid} {command : Command} (h : s.processes pid = some command) :
    s.Live pid := by
  unfold Live
  rw [h]
  exact nofun

theorem processes_terminate (s : Daemons) (pid other : Pid) :
    (s.terminate pid).processes other = if other = pid then none else s.processes other :=
  Function.update_apply s.processes pid none other

theorem killProcess_kept (s : Daemons) (sys : System) (pid : Pid) :
    (s.killProcess sys pid).dir = s.dir ∧ (s.killProcess sys pid).entries = s.entries := by
  unfold killProcess
  split
  · exact ⟨rfl, rfl⟩
  · exact ⟨rfl, rfl⟩

theorem processes_killProcess (s : Daemons) (sys : System) (pid other : Pid) :
    (s.killProcess sys pid).processes other =
      if other = pid ∧ sys.killed pid = true then none else s.processes other := by
  unfold killProcess
  cases sys.killed pid with
  | true => simp [processes_terminate]
  | false => simp

theorem lookup_removeDaemonEntry (s : Daemons) (pid other : Pid) :
    (s.removeDaemonEntry pid).entries.lookup other =
      if other = pid then none else s.entries.lookup other :=
  Table.lookup_erase_ite s.entries pid other

theorem mem_liveDaemons (hfiled : s.Filed) {daemon : DaemonEntry} :
    daemon ∈ s.liveDaemons sys ↔
      s.entries.lookup daemon.pid = some daemon ∧ sys.isPidAlive daemon.pid = true := by
  unfold liveDaemons
  rw [List.mem_filter, Table.mem_values]
  refine and_congr_left fun _ => ?_
  constructor
  · rintro ⟨pid, hpid⟩
    rw [hfiled pid daemon hpid]
    exact hpid
  · intro h
    exact ⟨daemon.pid, h⟩

/-- An entry stays if `kill -0` finds its process. -/
theorem lookup_cleanup (hfiled : s.Filed) (sys : System) (pid : Pid) :
    (s.cleanup sys).entries.lookup pid =
      if sys.isPidAlive pid then s.entries.lookup pid else none := by
  unfold cleanup
  rw [Table.lookup_eraseAll_ite]
  have hmem : pid ∈ (((Table.values s.entries).filter
      fun daemon => !sys.isPidAlive daemon.pid).map DaemonEntry.pid) ↔
        (s.entries.lookup pid).isSome = true ∧ sys.isPidAlive pid = false := by
    simp only [List.mem_map, List.mem_filter, Table.mem_values, Bool.not_eq_true',
      Option.isSome_iff_exists]
    constructor
    · rintro ⟨daemon, ⟨⟨key, hkey⟩, hdead⟩, rfl⟩
      rw [hfiled key daemon hkey] at hdead ⊢
      exact ⟨⟨daemon, hkey⟩, hdead⟩
    · rintro ⟨⟨daemon, hdaemon⟩, hdead⟩
      have hpid := hfiled pid daemon hdaemon
      exact ⟨daemon, ⟨⟨pid, hdaemon⟩, by rw [hpid]; exact hdead⟩, hpid⟩
  cases halive : sys.isPidAlive pid with
  | true =>
    rw [if_neg, if_pos rfl]
    intro h
    have hdead := (hmem.mp h).2
    rw [halive] at hdead
    cases hdead
  | false =>
    cases hlookup : s.entries.lookup pid with
    | none => simp
    | some daemon => rw [if_pos (hmem.mpr ⟨by rw [hlookup]; rfl, halive⟩)]; simp

theorem filed_cleanup (hfiled : s.Filed) (sys : System) : (s.cleanup sys).Filed := by
  intro pid daemon h
  rw [lookup_cleanup hfiled] at h
  split at h
  · exact hfiled pid daemon h
  · cases h

theorem filed_removeDaemonEntry (hfiled : s.Filed) (pid : Pid) :
    (s.removeDaemonEntry pid).Filed := by
  intro other daemon h
  rw [lookup_removeDaemonEntry] at h
  split at h
  · cases h
  · exact hfiled other daemon h

/-- A daemon is refused, cannot be spawned, or is spawned and written down. -/
theorem startDaemon_cases {port : UInt16} {subdomain : Option Text} {command : Command}
    (h : s.startDaemon sys port subdomain command = some t) :
    t = s.cleanup sys ∨
      ∃ pid, s.processes pid = none ∧
        (∀ daemon ∈ s.liveDaemons sys, ¬ (daemon.port = port ∧ daemon.subdomain = subdomain)) ∧
        t = { s.cleanup sys with
          entries := (s.cleanup sys).entries.insert pid ⟨pid, port, subdomain, sys.now⟩
          processes := Function.update s.processes pid (some command.withoutDaemonFlag) } := by
  unfold startDaemon at h
  split at h
  · exact Or.inl (Option.some.inj h).symm
  · exact Or.inl (Option.some.inj h).symm
  next pid hcollision hspawned =>
    split at h
    · cases h
    next hfresh =>
      refine Or.inr ⟨pid, hfresh, ?_, (Option.some.inj h).symm⟩
      intro daemon hdaemon
      have hdiffers := List.find?_eq_none.mp hcollision daemon hdaemon
      simpa using hdiffers

/-- The last act of a daemon might as well be its first. -/
theorem startDaemon_terminate {port : UInt16} {subdomain : Option Text} {command : Command}
    (h : s.startDaemon sys port subdomain command = some t) {self : Pid} (hself : s.Live self) :
    (s.terminate self).startDaemon sys port subdomain command = some (t.terminate self) := by
  have hcheck : (s.terminate self).checkDaemonCollision sys port subdomain =
      s.checkDaemonCollision sys port subdomain := rfl
  unfold startDaemon at h ⊢
  rw [hcheck]
  split at h
  · rw [← Option.some.inj h]
    rfl
  · rw [← Option.some.inj h]
    rfl
  next pid hcollision hspawned =>
    split at h
    · cases h
    next hfresh =>
      have hne : pid ≠ self := by
        rintro rfl
        exact hself hfresh
      have hfresh' : (s.terminate self).processes pid = none := by
        rw [processes_terminate, if_neg hne, hfresh]
      simp only [hfresh', ← Option.some.inj h]
      have hcomm := Function.update_comm hne (some command.withoutDaemonFlag) none s.processes
      exact congrArg some (congrArg (Daemons.mk _ _) hcomm.symm)

theorem step_run {command : Command} (h : s.step (.run command sys) = some t) :
    ∃ port subdomain, command.action s.dir = .startDaemon port subdomain ∧
      s.startDaemon sys port subdomain command = some t := by
  simp only [step] at h
  split at h
  next port subdomain haction => exact ⟨port, subdomain, haction, h⟩
  · cases h

theorem step_respawn {self : Pid} (h : s.step (.respawn self sys) = some t) :
    ∃ command port subdomain, s.processes self = some command ∧
      command.action s.dir = .startDaemon port subdomain ∧
      (s.terminate self).startDaemon sys port subdomain command = some t := by
  simp only [step] at h
  split at h
  · cases h
  next command hself =>
    split at h
    next port subdomain haction =>
      obtain ⟨u, hu, rfl⟩ := Option.map_eq_some_iff.mp h
      have hstart := startDaemon_terminate hu (live_of_some hself)
      exact ⟨command, port, subdomain, hself, haction, hstart⟩
    · cases h

theorem lookup_stopDaemon (s : Daemons) (sys : System) (pid other : Pid) :
    (s.stopDaemon sys pid).entries.lookup other =
      if other = pid then none else s.entries.lookup other := by
  unfold stopDaemon
  split
  · rw [lookup_removeDaemonEntry, (s.killProcess_kept sys pid).2]
  · exact lookup_removeDaemonEntry s pid other

theorem processes_stopDaemon (s : Daemons) (sys : System) (pid other : Pid) :
    (s.stopDaemon sys pid).processes other =
      if other = pid ∧ sys.isPidAlive pid = true ∧ sys.killed pid = true then none
      else s.processes other := by
  unfold stopDaemon
  split
  next halive =>
    apply (s.processes_killProcess sys pid other).trans
    simp [halive]
  next hdead => simp [hdead, removeDaemonEntry]

/-- No entry is left, and the daemons with one that `kill -0` finds are ended, as
    far as `kill` ends them. -/
theorem stopEach_spec (sys : System) (daemons : List DaemonEntry) (s : Daemons) (pid : Pid) :
    (stopEach sys daemons s).dir = s.dir ∧
      (stopEach sys daemons s).entries.lookup pid =
        (if pid ∈ daemons.map DaemonEntry.pid then none else s.entries.lookup pid) ∧
      (stopEach sys daemons s).processes pid =
        if pid ∈ daemons.map DaemonEntry.pid ∧ sys.killed pid = true then none
        else s.processes pid := by
  induction daemons generalizing s with
  | nil => simp [stopEach]
  | cons daemon rest ih =>
    obtain ⟨hdir, hentries, hprocesses⟩ :=
      ih ((s.killProcess sys daemon.pid).removeDaemonEntry daemon.pid)
    obtain ⟨hkeptDir, hkeptEntries⟩ := s.killProcess_kept sys daemon.pid
    refine ⟨hdir.trans hkeptDir, hentries.trans ?_, hprocesses.trans ?_⟩
    · rw [lookup_removeDaemonEntry, hkeptEntries]
      by_cases hpid : pid = daemon.pid
      · simp [hpid]
      · simp [hpid]
    · have hkilled := s.processes_killProcess sys daemon.pid pid
      change (if _ then none else (s.killProcess sys daemon.pid).processes pid) = _
      by_cases hpid : pid = daemon.pid
      · subst hpid
        cases hends : sys.killed daemon.pid <;> simp [hkilled, hends]
      · simp [hkilled, hpid]

theorem stopAllDaemons_spec (hfiled : s.Filed) (sys : System) (pid : Pid) :
    (s.stopAllDaemons sys).dir = s.dir ∧ (s.stopAllDaemons sys).entries.lookup pid = none ∧
      (s.stopAllDaemons sys).processes pid =
        if s.entries.lookup pid ≠ none ∧ sys.isPidAlive pid = true ∧ sys.killed pid = true
        then none else s.processes pid := by
  have hlive : pid ∈ (s.liveDaemons sys).map DaemonEntry.pid ↔
      s.entries.lookup pid ≠ none ∧ sys.isPidAlive pid = true := by
    rw [List.mem_map]
    constructor
    · rintro ⟨daemon, hdaemon, rfl⟩
      obtain ⟨hlookup, halive⟩ := (mem_liveDaemons hfiled).mp hdaemon
      exact ⟨by rw [hlookup]; exact nofun, halive⟩
    · rintro ⟨hlookup, halive⟩
      obtain ⟨daemon, hdaemon⟩ := Option.ne_none_iff_exists'.mp hlookup
      have hpid := hfiled pid daemon hdaemon
      exact ⟨daemon, (mem_liveDaemons hfiled).mpr (by rw [hpid]; exact ⟨hdaemon, halive⟩), hpid⟩
  obtain ⟨hdir, hentries, hprocesses⟩ :=
    stopEach_spec sys (s.liveDaemons sys) (s.cleanup sys) pid
  refine ⟨hdir, hentries.trans ?_, hprocesses.trans ?_⟩
  · rw [lookup_cleanup hfiled]
    by_cases hmem : pid ∈ (s.liveDaemons sys).map DaemonEntry.pid
    · rw [if_pos hmem]
    · rw [if_neg hmem]
      split
      next halive => exact not_not.mp fun hlookup => hmem (hlive.mpr ⟨hlookup, halive⟩)
      · rfl
  · simp only [hlive, and_assoc]
    rfl

theorem filed_startDaemon (hfiled : s.Filed) {port : UInt16} {subdomain : Option Text}
    {command : Command} (h : s.startDaemon sys port subdomain command = some t) : t.Filed := by
  rcases startDaemon_cases h with rfl | ⟨pid, -, -, rfl⟩
  · exact filed_cleanup hfiled sys
  · intro other daemon hdaemon
    rw [Table.lookup_insert_ite] at hdaemon
    split at hdaemon
    next heq => rw [← Option.some.inj hdaemon, heq]
    · exact filed_cleanup hfiled sys other daemon hdaemon

theorem filed_step {e : DaemonEvent} (hfiled : s.Filed) (h : s.step e = some t) : t.Filed := by
  cases e with
  | run command sys =>
    obtain ⟨port, subdomain, -, hstart⟩ := step_run h
    exact filed_startDaemon hfiled hstart
  | ls sys =>
    obtain rfl := Option.some.inj h
    exact filed_cleanup hfiled sys
  | stop pid sys =>
    obtain rfl := Option.some.inj h
    unfold stopDaemon
    split
    · refine filed_removeDaemonEntry ?_ pid
      unfold Filed
      rw [(s.killProcess_kept sys pid).2]
      exact hfiled
    · exact filed_removeDaemonEntry hfiled pid
  | stopAll sys =>
    obtain rfl := Option.some.inj h
    intro pid daemon hdaemon
    rw [(stopAllDaemons_spec hfiled sys pid).2.1] at hdaemon
    cases hdaemon
  | respawn self sys =>
    obtain ⟨command, port, subdomain, -, -, hstart⟩ := step_respawn h
    have hothers : (s.terminate self).Filed := hfiled
    exact filed_startDaemon hothers hstart
  | exit pid =>
    obtain ⟨command, -, rfl⟩ := Option.map_eq_some_iff.mp h
    exact hfiled

/-! ### Tracking -/

/-- Every daemon has an entry. -/
def Tracked (s : Daemons) : Prop := ∀ pid, s.Live pid → s.entries.lookup pid ≠ none

/-- No daemon is given up that goes on: `kill -0` finds it, and a `kill` ends it. -/
def Lands (s : Daemons) : DaemonEvent → Prop
  | .run _ sys | .ls sys => ∀ pid, s.Live pid → sys.isPidAlive pid = true
  | .stop pid sys => s.Live pid → sys.isPidAlive pid = true ∧ sys.killed pid = true
  | .stopAll sys => ∀ pid, s.Live pid → sys.isPidAlive pid = true ∧ sys.killed pid = true
  | .respawn self sys => ∀ pid, (s.terminate self).Live pid → sys.isPidAlive pid = true
  | .exit _ => True

theorem tracked_cleanup_iff (hfiled : s.Filed) (hs : s.Tracked) (sys : System) :
    (s.cleanup sys).Tracked ↔ ∀ pid, s.Live pid → sys.isPidAlive pid = true := by
  refine forall_congr' fun pid => imp_congr_right fun hlive => ?_
  rw [lookup_cleanup hfiled]
  cases sys.isPidAlive pid with
  | true => simpa using hs pid hlive
  | false => simp

theorem tracked_startDaemon_iff (hfiled : s.Filed) (hs : s.Tracked) {port : UInt16}
    {subdomain : Option Text} {command : Command}
    (h : s.startDaemon sys port subdomain command = some t) :
    t.Tracked ↔ ∀ pid, s.Live pid → sys.isPidAlive pid = true := by
  rcases startDaemon_cases h with rfl | ⟨pid, hfresh, -, rfl⟩
  · exact tracked_cleanup_iff hfiled hs sys
  · rw [← tracked_cleanup_iff hfiled hs sys]
    refine forall_congr' fun other => ?_
    unfold Live
    simp only [Table.lookup_insert_ite, Function.update_apply]
    by_cases hpid : other = pid
    · subst hpid
      have hdead : (s.cleanup sys).processes other = none := hfresh
      simp [hdead]
    · simp only [if_neg hpid]
      rfl

theorem tracked_terminate (hs : s.Tracked) (pid : Pid) : (s.terminate pid).Tracked := by
  intro other hother
  unfold Live at hother
  rw [processes_terminate] at hother
  split at hother
  · exact absurd rfl hother
  · exact hs other hother

theorem tracked_stopDaemon_iff (hs : s.Tracked) (pid : Pid) :
    (s.stopDaemon sys pid).Tracked ↔
      (s.Live pid → sys.isPidAlive pid = true ∧ sys.killed pid = true) := by
  constructor
  · intro htracked hlive
    by_contra hnot
    refine htracked pid ?_ (by rw [lookup_stopDaemon, if_pos rfl])
    unfold Live
    rw [processes_stopDaemon, if_neg fun h => hnot h.2]
    exact hlive
  · intro hlands other hother
    unfold Live at hother
    rw [processes_stopDaemon] at hother
    by_cases hpid : other = pid
    · subst hpid
      split at hother
      · exact absurd rfl hother
      next hnot => exact absurd ⟨rfl, hlands hother⟩ hnot
    · rw [lookup_stopDaemon, if_neg hpid]
      rw [if_neg fun h => hpid h.1] at hother
      exact hs other hother

/-- A step keeps track of every daemon exactly if it gives up none. -/
theorem tracked_step_iff {e : DaemonEvent} (hfiled : s.Filed) (hs : s.Tracked)
    (h : s.step e = some t) : t.Tracked ↔ s.Lands e := by
  cases e with
  | run command sys =>
    obtain ⟨port, subdomain, -, hstart⟩ := step_run h
    exact tracked_startDaemon_iff hfiled hs hstart
  | ls sys =>
    obtain rfl := Option.some.inj h
    exact tracked_cleanup_iff hfiled hs sys
  | stop pid sys =>
    obtain rfl := Option.some.inj h
    exact tracked_stopDaemon_iff hs pid
  | stopAll sys =>
    obtain rfl := Option.some.inj h
    refine forall_congr' fun pid => ?_
    obtain ⟨-, hentries, hprocesses⟩ := stopAllDaemons_spec hfiled sys pid
    unfold Live
    rw [hentries, hprocesses]
    split
    next hended => simp [hended.2]
    next hnot =>
      refine imp_congr_right fun hlive => ?_
      simp only [ne_eq, not_true_eq_false, false_iff]
      exact fun hlands => hnot ⟨hs pid hlive, hlands⟩
  | respawn self sys =>
    obtain ⟨command, port, subdomain, -, -, hstart⟩ := step_respawn h
    have hothers : (s.terminate self).Filed := hfiled
    exact tracked_startDaemon_iff hothers (tracked_terminate hs self) hstart
  | exit pid =>
    obtain ⟨command, -, rfl⟩ := Option.map_eq_some_iff.mp h
    exact iff_of_true (tracked_terminate hs pid) trivial

/-! ### Collisions -/

/-- No two daemons forward one port under one subdomain. -/
def Unique (s : Daemons) : Prop :=
  ∀ pid pid' command command' port subdomain, s.processes pid = some command →
    s.processes pid' = some command' → command.action s.dir = .forward port subdomain →
    command'.action s.dir = .forward port subdomain → pid = pid'

/-- A daemon is not started from a session and flags that change it. -/
def Agrees (s : Daemons) : DaemonEvent → Prop
  | .run command _ => command.Agrees s.dir
  | _ => True

/-- The entries say what the daemons do. -/
structure Recorded (s : Daemons) : Prop where
  stripped : ∀ pid command, s.processes pid = some command →
    command.withoutDaemonFlag = command
  entry : ∀ pid command port subdomain, s.processes pid = some command →
    command.action s.dir = .forward port subdomain →
    ∃ daemon, s.entries.lookup pid = some daemon ∧ daemon.port = port ∧
      daemon.subdomain = subdomain
  unique : s.Unique

/-- Processes have ended, and the entries of the others are as before. -/
theorem Recorded.shrink (hs : s.Recorded) (hdir : t.dir = s.dir)
    (hless : ∀ pid command, t.processes pid = some command →
      s.processes pid = some command ∧ t.entries.lookup pid = s.entries.lookup pid) :
    t.Recorded where
  stripped pid command h := hs.stripped pid command (hless pid command h).1
  entry pid command port subdomain h haction := by
    obtain ⟨hold, hentry⟩ := hless pid command h
    rw [hentry]
    exact hs.entry pid command port subdomain hold (hdir ▸ haction)
  unique pid pid' command command' port subdomain h h' haction haction' :=
    hs.unique pid pid' command command' port subdomain (hless pid command h).1
      (hless pid' command' h').1 (hdir ▸ haction) (hdir ▸ haction')

theorem recorded_new (dir : SettingsDir) : (new dir).Recorded where
  stripped _ _ h := nomatch h
  entry _ _ _ _ h := nomatch h
  unique _ _ _ _ _ _ h := nomatch h

theorem recorded_cleanup (hfiled : s.Filed) (hs : s.Recorded)
    (halive : ∀ pid, s.Live pid → sys.isPidAlive pid = true) : (s.cleanup sys).Recorded := by
  refine hs.shrink rfl ?_
  intro pid command h
  have hold : s.processes pid = some command := h
  refine ⟨hold, ?_⟩
  rw [lookup_cleanup hfiled, if_pos (halive pid (live_of_some hold))]

theorem recorded_startDaemon (hfiled : s.Filed) (hs : s.Recorded)
    (halive : ∀ pid, s.Live pid → sys.isPidAlive pid = true) {port : UInt16}
    {subdomain : Option Text} {command : Command}
    (hchild : ∀ port' subdomain', command.withoutDaemonFlag.action s.dir =
      .forward port' subdomain' → port' = port ∧ subdomain' = subdomain)
    (h : s.startDaemon sys port subdomain command = some t) : t.Recorded := by
  have hclean := recorded_cleanup hfiled hs halive
  rcases startDaemon_cases h with rfl | ⟨pid, hfresh, hfree, rfl⟩
  · exact hclean
  · -- a daemon that forwards the same would have been found
    have hcollides : ∀ other command', s.processes other = some command' →
        command'.action s.dir ≠ .forward port subdomain := by
      intro other command' hother haction
      obtain ⟨daemon, hentry, hport, hsub⟩ :=
        hs.entry other command' port subdomain hother haction
      have hpid := hfiled other daemon hentry
      refine hfree daemon ((mem_liveDaemons hfiled).mpr ⟨hpid ▸ hentry, ?_⟩) ⟨hport, hsub⟩
      rw [hpid]
      exact halive other (live_of_some hother)
    refine ⟨?_, ?_, ?_⟩
    · intro other command' hother
      simp only [Function.update_apply] at hother
      split at hother
      · rw [← Option.some.inj hother]
        exact command.withoutDaemonFlag_withoutDaemonFlag
      · exact hs.stripped other command' hother
    · intro other command' port' subdomain' hother haction
      simp only [Function.update_apply] at hother
      simp only [Table.lookup_insert_ite]
      split at hother
      next hpid =>
        rw [← Option.some.inj hother] at haction
        obtain ⟨rfl, rfl⟩ := hchild port' subdomain' haction
        exact ⟨_, if_pos hpid, rfl, rfl⟩
      next hpid =>
        rw [if_neg hpid]
        exact hclean.entry other command' port' subdomain' hother haction
    · intro other other' command' command'' port' subdomain' hother hother' haction haction'
      simp only [Function.update_apply] at hother hother'
      split at hother <;> split at hother'
      next hpid hpid' => rw [hpid, hpid']
      next hpid hpid' =>
        rw [← Option.some.inj hother] at haction
        obtain ⟨rfl, rfl⟩ := hchild port' subdomain' haction
        exact absurd haction' (hcollides other' command'' hother')
      next hpid hpid' =>
        rw [← Option.some.inj hother'] at haction'
        obtain ⟨rfl, rfl⟩ := hchild port' subdomain' haction'
        exact absurd haction (hcollides other command' hother)
      · exact hs.unique other other' command' command'' port' subdomain' hother hother' haction
          haction'

theorem recorded_terminate (hs : s.Recorded) (pid : Pid) : (s.terminate pid).Recorded := by
  refine hs.shrink rfl ?_
  intro other command h
  rw [processes_terminate] at h
  split at h
  · cases h
  · exact ⟨h, rfl⟩

/-- What is recorded stays right as long as no daemon is given up and no session is
    changed by flags. -/
theorem recorded_step {e : DaemonEvent} (hfiled : s.Filed) (htracked : s.Tracked)
    (hs : s.Recorded) (hlands : s.Lands e) (hagrees : s.Agrees e) (h : s.step e = some t) :
    t.Recorded := by
  cases e with
  | run command sys =>
    obtain ⟨port, subdomain, haction, hstart⟩ := step_run h
    refine recorded_startDaemon hfiled hs hlands ?_ hstart
    intro port' subdomain' hchild
    exact Command.action_withoutDaemonFlag haction hagrees hchild
  | ls sys =>
    obtain rfl := Option.some.inj h
    exact recorded_cleanup hfiled hs hlands
  | stop pid sys =>
    obtain rfl := Option.some.inj h
    have hended := (tracked_stopDaemon_iff htracked pid).mpr hlands
    refine hs.shrink ?_ ?_
    · unfold stopDaemon
      split
      · exact (s.killProcess_kept sys pid).1
      · rfl
    · intro other command hother
      have hentry := hended other (live_of_some hother)
      rw [lookup_stopDaemon] at hentry ⊢
      rw [processes_stopDaemon] at hother
      split at hother
      · cases hother
      · refine ⟨hother, if_neg ?_⟩
        intro hpid
        exact hentry (if_pos hpid)
  | stopAll sys =>
    obtain rfl := Option.some.inj h
    apply hs.shrink (stopAllDaemons_spec hfiled sys 0).1
    intro pid command hpid
    obtain ⟨-, -, hprocesses⟩ := stopAllDaemons_spec hfiled sys pid
    rw [hprocesses] at hpid
    split at hpid
    · cases hpid
    next hnot =>
      have hlive := live_of_some hpid
      exact absurd ⟨htracked pid hlive, hlands pid hlive⟩ hnot
  | respawn self sys =>
    obtain ⟨command, port, subdomain, hself, haction, hstart⟩ := step_respawn h
    have hothers : (s.terminate self).Filed := hfiled
    refine recorded_startDaemon hothers (recorded_terminate hs self) hlands ?_ hstart
    -- it goes on with the command line it has
    intro port' subdomain' hchild
    rw [hs.stripped self command hself] at hchild
    cases haction.symm.trans hchild
  | exit pid =>
    obtain ⟨command, -, rfl⟩ := Option.map_eq_some_iff.mp h
    exact recorded_terminate hs pid

end Daemons

open Daemons

/-- Every daemon has its entry throughout exactly the runs in which none is given up
    that goes on; and if besides no session is changed by flags, no two daemons ever
    forward the same port under the same subdomain. -/
theorem daemons_tracked_iff (dir : SettingsDir) (es : List DaemonEvent) (t : Daemons)
    (hrun : (daemons dir).run (Daemons.new dir) es = some t) :
    ((daemons dir).Always Tracked (Daemons.new dir) es ↔
        (daemons dir).Meets Lands (Daemons.new dir) es) ∧
      ((daemons dir).Meets (fun s e => s.Lands e ∧ s.Agrees e) (Daemons.new dir) es →
        (daemons dir).Always (fun s => s.Tracked ∧ s.Unique) (Daemons.new dir) es) := by
  have hfiled : (Daemons.new dir).Filed := nofun
  have htracked : (Daemons.new dir).Tracked := fun _ h => absurd rfl h
  constructor
  · exact Machine.always_iff_meets (I := fun s => s.Filed ∧ s.Tracked)
      (D := fun _ _ => True) (fun s hs => hs.2)
      (fun s e t hs _ h hlands => ⟨filed_step hs.1 h, (tracked_step_iff hs.1 hs.2 h).mpr hlands⟩)
      (fun s e t hs _ h ht => (tracked_step_iff hs.1 hs.2 h).mp ht)
      ⟨hfiled, htracked⟩ (Machine.meets_true _ _) hrun
  · intro hmeets
    have halways := Machine.always_of_invariant (M := daemons dir)
      (I := fun s : Daemons => s.Filed ∧ s.Tracked ∧ s.Recorded)
      (fun s e t hs hg h => ⟨filed_step hs.1 h, (tracked_step_iff hs.1 hs.2.1 h).mpr hg.1,
        recorded_step hs.1 hs.2.1 hs.2.2 hg.1 hg.2 h⟩)
      ⟨hfiled, htracked, recorded_new dir⟩ hmeets
    exact halways.mono fun s hs => ⟨hs.2.1, hs.2.2.unique⟩

namespace Tracking

/-- `neutun -p <port> -s app -D` -/
def app (port : UInt16) : Command :=
  .tunnel { Opts.none with port := some port, subDomain := some "app".toList, daemon := true } false

/-- A system that finds every process, and spawns the next child with the pid. -/
def sys (killed : Bool) (pid : Pid) : System := ⟨fun _ => true, fun _ => killed, some pid, []⟩

def web : FileName := ⟨"web".toList, by simp⟩

/-- "web" is saved with the port 3000 and the subdomain "app". -/
def session : SessionConfig where
  name := web
  port := 3000
  subdomain := some "app".toList
  domain := DEFAULT_HOST
  key := none
  useTls := false
  wildcard := false
  localHost := "localhost".toList
  ctrlHost := none
  ctrlPort := DEFAULT_CONTROL_PORT
  tls := true
  dashboardPort := none

def settings : SettingsDir := ⟨none, none, AList.singleton web session⟩

/-- The saved session is started, stopped and started again. -/
def restarted : List DaemonEvent :=
  [.run (.restore web Opts.none true) (sys true 7), .ls (sys true 8), .stop 7 (sys true 8),
   .run (app 3000) (sys true 8)]

/-- The `kill` of the first daemon is ignored. -/
def ignored : List DaemonEvent :=
  [.run (app 3000) (sys true 7), .stop 7 (sys false 8), .run (app 3000) (sys true 8)]

/-- The saved session is started on another port. -/
def overridden : List DaemonEvent :=
  [.run (.restore web { Opts.none with port := some 4000 } true) (sys true 7),
   .run (app 4000) (sys true 8)]

end Tracking

open Tracking in
theorem daemons_tracked_iff_restarted : ∃ t,
    (daemons settings).run (Daemons.new settings) restarted = some t ∧ t.Tracked ∧ t.Unique := by
  refine ⟨_, rfl, ?_⟩
  refine ((daemons_tracked_iff settings restarted _ rfl).2 ?_).last rfl
  refine .cons ⟨fun _ _ => rfl, ?_⟩ rfl (.cons ⟨fun _ _ => rfl, trivial⟩ rfl
    (.cons ⟨fun _ => ⟨rfl, rfl⟩, trivial⟩ rfl
      (.cons ⟨fun _ _ => rfl, trivial⟩ rfl trivial)))
  intro found _
  exact ⟨nofun, nofun⟩

open Tracking in
/-- After an ignored `kill` a daemon has no entry and its port and subdomain are
    taken again; so they are where a session is started on the port of another
    daemon. -/
theorem daemons_collide :
    (∃ t, (daemons settings).run (Daemons.new settings) ignored = some t ∧
      t.Live 7 ∧ t.entries.lookup 7 = none ∧ ¬ t.Unique) ∧
    ∃ t, (daemons settings).run (Daemons.new settings) overridden = some t ∧ ¬ t.Unique := by
  refine ⟨⟨_, rfl, nofun, rfl, ?_⟩, _, rfl, ?_⟩
  · intro hunique
    have hsame := hunique 7 8 _ _ 3000 (some "app".toList) rfl rfl rfl rfl
    exact absurd hsame (by decide)
  · intro hunique
    have hsame := hunique 7 8 _ _ 4000 (some "app".toList) rfl rfl rfl rfl
    exact absurd hsame (by decide)

end Neutun.Cli
