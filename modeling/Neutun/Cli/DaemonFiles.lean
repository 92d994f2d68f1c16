/-
  Neutun/Cli/DaemonFiles.lean
  ===========================
  The entries of the daemons as files (the daemon half of `saved_config.rs`, and
  `daemon.rs` over it).

  `Daemons` keeps the entries in a table.  What the program has is a directory
  `~/.neutun/daemons` with one file for an entry, which it reads as a whole for
  each command, in the order in which the names come.  `daemonFiles` is the same
  machine over the files, and the two do alike (`daemon_files_refine`): an
  invocation can happen with the files exactly if it can with the table, and
  leaves the files of the table.
-/
import Neutun.Cli.Daemons
import Neutun.Cli.Saves

namespace Neutun.Cli

open Foundation

/-! ### The files -/

def daemonsDir (home : Place) : Place := "daemons".toList :: settingsDir home

/-- A pid as `to_string` writes it. -/
def pidText (pid : Pid) : Text := Nat.toDigits 10 pid.toNat

theorem pidText_injective : Function.Injective pidText := by
  intro a b h
  have hvalue : ∀ pid : Pid, Nat.ofDigitChars 10 (pidText pid) 0 = pid.toNat :=
    fun _ => Nat.ofDigitChars_ten_toDigits
  apply UInt32.toNat_inj.mp
  rw [← hvalue a, ← hvalue b, h]

/-- `daemons/<pid>.json` -/
def daemonTable (json : Codec DaemonEntry Char) (home : Place) : FileTable Pid DaemonEntry where
  directory := daemonsDir home
  fileName pid := jsonFile (pidText pid)
  keyOf := DaemonEntry.pid
  accepts := isJson
  codec := json
  injective := jsonFile_injective.comp pidText_injective
  accepts_fileName _ := isJson_iff.mpr ⟨_, Nat.toDigits_ne_nil, rfl⟩

/-- What the machine of the files keeps in place of the table. -/
structure DaemonFiles where
  dir : SettingsDir
  fs : FileSystem
  processes : Pid → Option Command

namespace DaemonFiles

-- serde for the entries, and the home directory
variable (json : Codec DaemonEntry Char) (home : Place)

/-- `false` is a panic. -/
def saveDaemonEntry (fs : FileSystem) (entry : DaemonEntry) : FileSystem × Bool :=
  (daemonTable json home).put fs entry

def removeDaemonEntry (fs : FileSystem) (pid : Pid) : FileSystem :=
  (daemonTable json home).erase fs pid

/-- The names are what `read_dir` gives. -/
def listDaemonEntries (fs : FileSystem) (names : List Text) : List DaemonEntry :=
  if fs.node (daemonsDir home) = none then [] else (daemonTable json home).list fs names

/-- The loop of `cleanup_and_list_daemons`. -/
def cleanupEach (sys : System) : List DaemonEntry → FileSystem → FileSystem × List DaemonEntry
  | [], fs => (fs, [])
  | entry :: rest, fs =>
    if sys.isPidAlive entry.pid then
      let (fs, live) := cleanupEach sys rest fs
      (fs, entry :: live)
    else cleanupEach sys rest (removeDaemonEntry json home fs entry.pid)

def cleanupAndListDaemons (sys : System) (names : List Text) (fs : FileSystem) :
    FileSystem × List DaemonEntry :=
  cleanupEach json home sys (listDaemonEntries json home fs names) fs

def checkDaemonCollision (sys : System) (names : List Text) (port : UInt16)
    (subdomain : Option Text) (fs : FileSystem) : FileSystem × Option DaemonEntry :=
  let (fs, live) := cleanupAndListDaemons json home sys names fs
  (fs, live.find? fun daemon =>
    decide (daemon.port = port) && decide (daemon.subdomain = subdomain))

/-! ### The commands -/

def terminate (s : DaemonFiles) (pid : Pid) : DaemonFiles :=
  { s with processes := Function.update s.processes pid none }

def killProcess (s : DaemonFiles) (sys : System) (pid : Pid) : DaemonFiles :=
  if sys.killed pid then s.terminate pid else s

def forget (s : DaemonFiles) (pid : Pid) : DaemonFiles :=
  { s with fs := removeDaemonEntry json home s.fs pid }

/-- `start_daemon` -/
def startDaemon (s : DaemonFiles) (sys : System) (names : List Text) (port : UInt16)
    (subdomain : Option Text) (command : Command) : Option DaemonFiles :=
  let (fs, existing) := checkDaemonCollision json home sys names port subdomain s.fs
  match existing, sys.spawned with
  | some _, _ | none, none => some { s with fs := fs }
  | none, some pid =>
    match s.processes pid with
    | some _ => none
    | none => some { s with
        fs := (saveDaemonEntry json home fs ⟨pid, port, subdomain, sys.now⟩).1
        processes := Function.update s.processes pid (some command.withoutDaemonFlag) }

def stopDaemon (s : DaemonFiles) (sys : System) (pid : Pid) : DaemonFiles :=
  if sys.isPidAlive pid then (s.killProcess sys pid).forget json home pid
  else s.forget json home pid

/-- The loop of `stop_all_daemons`. -/
def stopEach (sys : System) : List DaemonEntry → DaemonFiles → DaemonFiles
  | [], s => s
  | daemon :: rest, s =>
    stopEach sys rest ((s.killProcess sys daemon.pid).forget json home daemon.pid)

def stopAllDaemons (s : DaemonFiles) (sys : System) (names : List Text) : DaemonFiles :=
  let (fs, live) := cleanupAndListDaemons json home sys names s.fs
  stopEach json home sys live { s with fs := fs }

/-- An invocation, and the names that it gets from `read_dir`. -/
def step (s : DaemonFiles) : DaemonEvent × List Text → Option DaemonFiles
  | (.run command sys, names) =>
    match command.action s.dir with
    | .startDaemon port subdomain => s.startDaemon json home sys names port subdomain command
    | _ => none
  | (.ls sys, names) =>
    some { s with fs := (cleanupAndListDaemons json home sys names s.fs).1 }
  | (.stop pid sys, _) => some (s.stopDaemon json home sys pid)
  | (.stopAll sys, names) => some (s.stopAllDaemons json home sys names)
  | (.respawn pid sys, names) =>
    match s.processes pid with
    | none => none
    | some command =>
      match command.action s.dir with
      | .startDaemon port subdomain =>
        (s.startDaemon json home sys names port subdomain command).map fun t => t.terminate pid
      | _ => none
  | (.exit pid, _) => (s.processes pid).map fun _ => s.terminate pid

/-- `read_dir` gives the names of all that is in the directory, where it is asked. -/
def Listed (s : DaemonFiles) : DaemonEvent × List Text → Prop
  | (.stop _ _, _) | (.exit _, _) => True
  | (.run _ _, names) | (.ls _, names) | (.stopAll _, names) | (.respawn _ _, names) =>
    s.fs.Lists (daemonsDir home) names

end DaemonFiles

/-- The invocations of one user, one at a time. -/
def daemonFiles (json : Codec DaemonEntry Char) (home : Place) :
    Machine DaemonFiles (DaemonEvent × List Text) where
  start s := (daemonTable json home).Ready s.fs ∧
    (daemonTable json home).Holds s.fs (fun _ => none) ∧ s.processes = fun _ => none
  step := DaemonFiles.step json home

namespace DaemonFiles

/-- The files are those of the table. -/
structure Shows (json : Codec DaemonEntry Char) (home : Place) (s : DaemonFiles) (u : Daemons) :
    Prop where
  dir : s.dir = u.dir
  processes : s.processes = u.processes
  ready : (daemonTable json home).Ready s.fs
  entries : (daemonTable json home).Holds s.fs fun pid => u.entries.lookup pid

variable {json : Codec DaemonEntry Char} {home : Place} {s t : DaemonFiles} {u : Daemons}
  {sys : System} {names : List Text}

theorem Shows.filed (h : Shows json home s u) : u.Filed := fun _ _ hv => h.entries.keyOf_eq hv

/-! ### One command -/

/-- Without the directory there are no files in it. -/
theorem listDaemonEntries_eq (fs : FileSystem) (names : List Text) :
    listDaemonEntries json home fs names = (daemonTable json home).list fs names := by
  unfold listDaemonEntries
  split
  next hnone =>
    symm
    apply FileSystem.valuesIn_eq_nil
    change fs.node (daemonsDir home) ≠ _
    rw [hnone]
    exact nofun
  · rfl

/-- The loop takes the files of the processes out that are not found. -/
theorem cleanupEach_spec (sys : System) (entries : List DaemonEntry) {fs : FileSystem}
    {m : Pid → Option DaemonEntry} (hready : (daemonTable json home).Ready fs)
    (hholds : (daemonTable json home).Holds fs m) :
    (daemonTable json home).Ready (cleanupEach json home sys entries fs).1 ∧
      (daemonTable json home).Frame fs (cleanupEach json home sys entries fs).1 ∧
      (daemonTable json home).Holds (cleanupEach json home sys entries fs).1 (fun pid =>
        if pid ∈ (entries.filter fun entry => !sys.isPidAlive entry.pid).map DaemonEntry.pid
        then none else m pid) ∧
      (cleanupEach json home sys entries fs).2 =
        entries.filter fun entry => sys.isPidAlive entry.pid := by
  induction entries generalizing fs m with
  | nil => exact ⟨hready, .refl fs, by simpa [cleanupEach] using hholds, rfl⟩
  | cons entry rest ih =>
    unfold cleanupEach
    cases halive : sys.isPidAlive entry.pid with
    | true =>
      obtain ⟨hready', hframe, hholds', hlive⟩ := ih hready hholds
      rw [if_pos rfl, List.filter_cons_of_neg (by simp [halive]),
        List.filter_cons_of_pos (by simp [halive])]
      exact ⟨hready', hframe, hholds', by rw [← hlive]⟩
    | false =>
      rw [if_neg Bool.false_ne_true, List.filter_cons_of_pos (by simp [halive]),
        List.filter_cons_of_neg (by simp [halive])]
      obtain ⟨hready', hframe, hholds', hlive⟩ :=
        ih (hready.erase entry.pid) (hholds.erase hready entry.pid)
      refine ⟨hready', (FileTable.frame_erase hready entry.pid).trans hframe, ?_, hlive⟩
      apply hholds'.congr
      intro pid
      simp only [List.map_cons, List.mem_cons, Function.update_apply]
      by_cases hpid : pid = entry.pid
      · simp only [hpid, true_or, if_true, ite_self]
      · simp only [hpid, false_or, if_false]

/-- What a listing with its cleanup leaves and finds. -/
theorem cleanup_shows (h : Shows json home s u) (sys : System)
    (hnames : s.fs.Lists (daemonsDir home) names) :
    Shows json home { s with fs := (cleanupAndListDaemons json home sys names s.fs).1 }
        (u.cleanup sys) ∧
      (cleanupAndListDaemons json home sys names s.fs).2.Perm (u.liveDaemons sys) := by
  have hlist : listDaemonEntries json home s.fs names = (daemonTable json home).list s.fs names :=
    listDaemonEntries_eq s.fs names
  obtain ⟨hready, hframe, hholds, hlive⟩ :=
    cleanupEach_spec sys (listDaemonEntries json home s.fs names) h.ready h.entries
  have hperm : (listDaemonEntries json home s.fs names).Perm (Table.values u.entries) := by
    rw [hlist]
    refine FileTable.list_perm h.entries hnames (Table.nodup_values h.filed) fun entry => ?_
    exact Table.mem_values_iff h.filed
  refine ⟨⟨h.dir, h.processes, hready, ?_⟩, ?_⟩
  · apply hholds.congr
    intro pid
    rw [Daemons.cleanup, Table.lookup_eraseAll_ite]
    simp only [((hperm.filter _).map _).mem_iff]
  · unfold cleanupAndListDaemons Daemons.liveDaemons
    rw [hlive]
    exact hperm.filter _

/-- Tables with the same entries are shown by the same files. -/
theorem Shows.congr {v : Daemons} (h : Shows json home s u) (hdir : v.dir = u.dir)
    (hprocesses : v.processes = u.processes)
    (hentries : ∀ pid, v.entries.lookup pid = u.entries.lookup pid) : Shows json home s v :=
  ⟨h.dir.trans hdir.symm, h.processes.trans hprocesses.symm, h.ready, h.entries.congr hentries⟩

theorem Shows.terminate (h : Shows json home s u) (pid : Pid) :
    Shows json home (s.terminate pid) (u.terminate pid) where
  dir := h.dir
  processes := by
    unfold DaemonFiles.terminate Daemons.terminate
    rw [h.processes]
  ready := h.ready
  entries := h.entries

theorem Shows.killProcess (h : Shows json home s u) (sys : System) (pid : Pid) :
    Shows json home (s.killProcess sys pid) (u.killProcess sys pid) := by
  unfold DaemonFiles.killProcess Daemons.killProcess
  split
  · exact h.terminate pid
  · exact h

theorem Shows.forget (h : Shows json home s u) (pid : Pid) :
    Shows json home (s.forget json home pid) (u.removeDaemonEntry pid) where
  dir := h.dir
  processes := h.processes
  ready := h.ready.erase pid
  entries := by
    refine (h.entries.erase h.ready pid).congr fun other => ?_
    rw [Daemons.lookup_removeDaemonEntry, Function.update_apply]

theorem Shows.stopDaemon (h : Shows json home s u) (sys : System) (pid : Pid) :
    Shows json home (s.stopDaemon json home sys pid) (u.stopDaemon sys pid) := by
  unfold DaemonFiles.stopDaemon Daemons.stopDaemon
  split
  · exact (h.killProcess sys pid).forget pid
  · exact h.forget pid

theorem Shows.stopEach (sys : System) (daemons : List DaemonEntry) (h : Shows json home s u) :
    Shows json home (stopEach json home sys daemons s) (Daemons.stopEach sys daemons u) := by
  induction daemons generalizing s u with
  | nil => exact h
  | cons daemon rest ih => exact ih ((h.killProcess sys daemon.pid).forget daemon.pid)

/-- The order of the files does not matter. -/
theorem Shows.stopAllDaemons (h : Shows json home s u) (sys : System)
    (hnames : s.fs.Lists (daemonsDir home) names) :
    Shows json home (s.stopAllDaemons json home sys names) (u.stopAllDaemons sys) := by
  obtain ⟨hclean, hlive⟩ := cleanup_shows h sys hnames
  have hpids := fun pid => (hlive.map DaemonEntry.pid).mem_iff (a := pid)
  refine (hclean.stopEach sys (cleanupAndListDaemons json home sys names s.fs).2).congr ?_ ?_ ?_
  · rw [Daemons.stopAllDaemons, (Daemons.stopEach_spec sys _ _ 0).1,
      (Daemons.stopEach_spec sys _ _ 0).1]
  · funext pid
    rw [Daemons.stopAllDaemons, (Daemons.stopEach_spec sys _ _ pid).2.2,
      (Daemons.stopEach_spec sys _ _ pid).2.2]
    simp only [hpids pid]
  · intro pid
    rw [Daemons.stopAllDaemons, (Daemons.stopEach_spec sys _ _ pid).2.1,
      (Daemons.stopEach_spec sys _ _ pid).2.1]
    simp only [hpids pid]

theorem Shows.startDaemon (h : Shows json home s u) (sys : System)
    (hnames : s.fs.Lists (daemonsDir home) names) (port : UInt16) (subdomain : Option Text)
    (command : Command) :
    Option.Rel (Shows json home) (s.startDaemon json home sys names port subdomain command)
      (u.startDaemon sys port subdomain command) := by
  obtain ⟨hclean, hlive⟩ := cleanup_shows h sys hnames
  have hfound : (checkDaemonCollision json home sys names port subdomain s.fs).2 = none ↔
      u.checkDaemonCollision sys port subdomain = none := by
    unfold checkDaemonCollision Daemons.checkDaemonCollision
    rw [List.find?_eq_none, List.find?_eq_none]
    exact forall_congr' fun daemon => imp_congr_left hlive.mem_iff
  have hfs : (checkDaemonCollision json home sys names port subdomain s.fs).1 =
      (cleanupAndListDaemons json home sys names s.fs).1 := rfl
  unfold DaemonFiles.startDaemon Daemons.startDaemon
  generalize checkDaemonCollision json home sys names port subdomain s.fs = checked at hfound hfs
  obtain ⟨fs, existing⟩ := checked
  obtain rfl : fs = _ := hfs
  cases hexisting : u.checkDaemonCollision sys port subdomain with
  | some daemon =>
    rw [hexisting] at hfound
    obtain ⟨found, rfl⟩ := Option.ne_none_iff_exists'.mp fun hnone => nomatch hfound.mp hnone
    exact .some hclean
  | none =>
    obtain rfl : existing = none := hfound.mpr hexisting
    cases hspawned : sys.spawned with
    | none => exact .some hclean
    | some pid =>
      simp only [h.processes]
      cases hfresh : u.processes pid with
      | some other => exact .none
      | none =>
        refine .some ⟨h.dir, rfl, hclean.ready.put _, ?_⟩
        refine (hclean.entries.put hclean.ready _).congr fun other => ?_
        rw [Table.lookup_insert_ite, Function.update_apply]
        rfl

/-! ### One invocation -/

theorem Shows.step (h : Shows json home s u) (e : DaemonEvent × List Text)
    (hlisted : s.Listed home e) :
    Option.Rel (Shows json home) (s.step json home e) (u.step e.1) := by
  obtain ⟨e, names⟩ := e
  cases e with
  | run command sys =>
    simp only [DaemonFiles.step, Daemons.step, h.dir]
    cases command.action u.dir with
    | startDaemon port subdomain => exact h.startDaemon sys hlisted port subdomain command
    | forward port subdomain => exact .none
    | other => exact .none
  | ls sys => exact .some (cleanup_shows h sys hlisted).1
  | stop pid sys => exact .some (h.stopDaemon sys pid)
  | stopAll sys => exact .some (h.stopAllDaemons sys hlisted)
  | respawn pid sys =>
    simp only [DaemonFiles.step, Daemons.step, h.dir, h.processes]
    cases u.processes pid with
    | none => exact .none
    | some command =>
      cases haction : command.action u.dir with
      | startDaemon port subdomain =>
        have hstart := h.startDaemon sys hlisted port subdomain command
        simp only [haction]
        generalize s.startDaemon json home sys names port subdomain command = t at hstart ⊢
        generalize u.startDaemon sys port subdomain command = v at hstart ⊢
        cases hstart with
        | none => exact .none
        | some hshows => exact .some (hshows.terminate pid)
      | forward port subdomain =>
        simp only [haction]
        exact .none
      | other =>
        simp only [haction]
        exact .none
  | exit pid =>
    simp only [DaemonFiles.step, Daemons.step, h.processes]
    cases u.processes pid with
    | none => exact .none
    | some command => exact .some (h.terminate pid)

/-! ### What else is there -/

theorem cleanup_frame (hready : (daemonTable json home).Ready s.fs)
    (hholds : (daemonTable json home).Holds s.fs fun pid => u.entries.lookup pid) (sys : System)
    (names : List Text) : (daemonTable json home).Frame s.fs
      (cleanupAndListDaemons json home sys names s.fs).1 :=
  (cleanupEach_spec sys (listDaemonEntries json home s.fs names) hready hholds).2.1

theorem frame_forget (hready : (daemonTable json home).Ready s.fs) (pid : Pid) :
    (daemonTable json home).Frame s.fs (s.forget json home pid).fs :=
  FileTable.frame_erase hready pid

theorem killProcess_fs (s : DaemonFiles) (sys : System) (pid : Pid) :
    (s.killProcess sys pid).fs = s.fs := by
  unfold killProcess
  split
  · rfl
  · rfl

theorem frame_stopEach (sys : System) (daemons : List DaemonEntry)
    (hready : (daemonTable json home).Ready s.fs) :
    (daemonTable json home).Frame s.fs (stopEach json home sys daemons s).fs := by
  induction daemons generalizing s with
  | nil => exact .refl s.fs
  | cons daemon rest ih =>
    have hkept := s.killProcess_fs sys daemon.pid
    have hready' : (daemonTable json home).Ready (s.killProcess sys daemon.pid).fs := hkept ▸ hready
    have hfirst := frame_forget hready' daemon.pid
    rw [hkept] at hfirst
    exact hfirst.trans (ih (hready'.erase daemon.pid))

theorem startDaemon_fs {port : UInt16} {subdomain : Option Text} {command : Command}
    (h : s.startDaemon json home sys names port subdomain command = some t) :
    t.fs = (cleanupAndListDaemons json home sys names s.fs).1 ∨
      ∃ entry, t.fs = (saveDaemonEntry json home
        (cleanupAndListDaemons json home sys names s.fs).1 entry).1 := by
  simp only [startDaemon] at h
  split at h
  · exact Or.inl (congrArg DaemonFiles.fs (Option.some.inj h)).symm
  · exact Or.inl (congrArg DaemonFiles.fs (Option.some.inj h)).symm
  · split at h
    · cases h
    · exact Or.inr ⟨_, (congrArg DaemonFiles.fs (Option.some.inj h)).symm⟩

theorem frame_startDaemon (hshows : Shows json home s u)
    (hnames : s.fs.Lists (daemonsDir home) names) {port : UInt16} {subdomain : Option Text}
    {command : Command} (h : s.startDaemon json home sys names port subdomain command = some t) :
    (daemonTable json home).Frame s.fs t.fs := by
  have hclean := cleanup_frame hshows.ready hshows.entries sys names
  rcases startDaemon_fs h with hfs | ⟨entry, hfs⟩
  · rw [hfs]
    exact hclean
  · rw [hfs]
    exact hclean.trans (FileTable.frame_put (cleanup_shows hshows sys hnames).1.ready entry)

theorem frame_step (hshows : Shows json home s u) {e : DaemonEvent × List Text}
    (hlisted : s.Listed home e) (h : s.step json home e = some t) :
    (daemonTable json home).Frame s.fs t.fs := by
  obtain ⟨e, names⟩ := e
  cases e with
  | run command sys =>
    simp only [step] at h
    split at h
    · exact frame_startDaemon hshows hlisted h
    · cases h
  | ls sys =>
    obtain rfl := Option.some.inj h
    exact cleanup_frame hshows.ready hshows.entries sys names
  | stop pid sys =>
    obtain rfl := Option.some.inj h
    unfold stopDaemon
    split
    · have hkept := s.killProcess_fs sys pid
      have hfirst := frame_forget ((hshows.killProcess sys pid).ready) pid
      rw [hkept] at hfirst
      exact hfirst
    · exact frame_forget hshows.ready pid
  | stopAll sys =>
    obtain rfl := Option.some.inj h
    have hclean := cleanup_frame hshows.ready hshows.entries sys names
    exact hclean.trans (frame_stopEach sys _ (cleanup_shows hshows sys hlisted).1.ready)
  | respawn pid sys =>
    simp only [step] at h
    split at h
    · cases h
    · split at h
      · obtain ⟨v, hv, rfl⟩ := Option.map_eq_some_iff.mp h
        have hframe := frame_startDaemon hshows hlisted hv
        exact hframe
      · cases h
  | exit pid =>
    obtain ⟨command, -, rfl⟩ := Option.map_eq_some_iff.mp h
    exact .refl s.fs

end DaemonFiles

open DaemonFiles

/-- The invocations do with the files what they do with the table: the same sequences
    are possible, after each the files are those of the table, a listing gives its
    live daemons and the next entry can be written; and no file is touched that is
    not of an entry. -/
theorem daemon_files_refine (json : Codec DaemonEntry Char) (home : Place) (s : DaemonFiles)
    (u : Daemons) (es : List (DaemonEvent × List Text)) (hshows : Shows json home s u)
    (hlisted : (daemonFiles json home).Meets (Listed home) s es) :
    Option.Rel (fun t v => Shows json home t v ∧ (daemonTable json home).Frame s.fs t.fs ∧
        (∀ entry, (saveDaemonEntry json home t.fs entry).2 = true) ∧
        ∀ sys names, t.fs.Lists (daemonsDir home) names →
          (cleanupAndListDaemons json home sys names t.fs).2.Perm (v.liveDaemons sys))
      ((daemonFiles json home).run s es) ((daemons u.dir).run u (es.map Prod.fst)) := by
  have hrel : Option.Rel
      (fun t v => Shows json home t v ∧ (daemonTable json home).Frame s.fs t.fs)
      ((daemonFiles json home).run s es) ((daemons u.dir).run u (es.map Prod.fst)) := by
    refine Machine.run_simulates ?_ ⟨hshows, .refl s.fs⟩ hlisted
    intro t v e ⟨ht, hframe⟩ hlisted
    have hstep := ht.step e hlisted
    have hmore : ∀ t', t.step json home e = some t' → (daemonTable json home).Frame t.fs t'.fs :=
      fun t' => frame_step ht hlisted
    change Option.Rel _ (t.step json home e) (v.step e.1)
    generalize t.step json home e = t' at hstep hmore ⊢
    generalize v.step e.1 = v' at hstep ⊢
    cases hstep with
    | none => exact .none
    | some ht' => exact .some ⟨ht', hframe.trans (hmore _ rfl)⟩
  generalize (daemonFiles json home).run s es = t at hrel ⊢
  generalize (daemons u.dir).run u (es.map Prod.fst) = v at hrel ⊢
  cases hrel with
  | none => exact .none
  | some h =>
    refine .some ⟨h.1, h.2, ?_, fun sys names hnames => (cleanup_shows h.1 sys hnames).2⟩
    intro entry
    obtain ⟨fs', hput, -⟩ := FileTable.put_spec h.1.ready entry
    rw [saveDaemonEntry, hput]

namespace Tracking

/-- The daemon "app" on the port 3000. -/
def entry : DaemonEntry := ⟨7, 3000, some "app".toList, []⟩

/-- The entry as it is written. -/
def entryLines : List String :=
  ["\x7b", "  \"pid\": 7,", "  \"port\": 3000,", "  \"subdomain\": \"app\",",
    "  \"started_at\": \"\"", "\x7d"]

instance : Encodable DaemonEntry :=
  Encodable.ofLeftInverse (fun e => (e.pid.toNat, e.port, e.subdomain, e.startedAt))
    (fun (pid, port, subdomain, startedAt) => ⟨UInt32.ofNat pid, port, subdomain, startedAt⟩)
    fun e => by simp

def serde : Codec DaemonEntry Char :=
  .known entry ((entryLines.map String.toList).intersperse ['\n']).flatten '1'
    ⟨'\x7b', by decide, by decide⟩

def homeDir : Place := ["u".toList]

/-- Nothing is there. -/
def nothing : DaemonFiles := ⟨settings, .empty, fun _ => none⟩

theorem nothing_shows : Shows serde homeDir nothing (Daemons.new settings) where
  dir := rfl
  processes := rfl
  ready := ⟨by decide, fun _ h => nomatch h⟩
  entries := ⟨fun _ => rfl, fun _ _ _ h => nomatch h⟩

theorem nothing_lists : nothing.fs.Lists (daemonsDir homeDir) [] where
  nodup := .nil
  mem _ := iff_of_false nofun fun h => h rfl

/-- The daemon is started, and listed. -/
def listed : List (DaemonEvent × List Text) :=
  [(.run (app 3000) (sys true 7), []), (.ls (sys true 8), ["7.json".toList])]

end Tracking

open Tracking in
/-- The entry of a daemon is in its file, and is found there. -/
theorem daemon_files_refine_listed :
    ∃ t v, (daemonFiles serde homeDir).run nothing listed = some t ∧
      (daemons settings).run (Daemons.new settings) (listed.map Prod.fst) = some v ∧
      v.entries.lookup 7 = some entry ∧ Shows serde homeDir t v ∧
      (daemonTable serde homeDir).lookup t.fs 7 = some entry := by
  have hlists : ∀ t, nothing.step serde homeDir (.run (app 3000) (sys true 7), []) = some t →
      t.fs.Lists (daemonsDir homeDir) ["7.json".toList] := by
    intro t ht
    obtain rfl := Option.some.inj ht
    exact FileTable.lists_put nothing_shows.ready nothing_lists List.not_mem_nil
  have hrel := daemon_files_refine serde homeDir nothing (Daemons.new settings) listed
    nothing_shows ⟨nothing_lists, fun t ht => ⟨hlists t ht, fun _ _ => trivial⟩⟩
  obtain ⟨t, ht⟩ : ∃ t, (daemonFiles serde homeDir).run nothing listed = some t := ⟨_, rfl⟩
  obtain ⟨v, hv, hentry⟩ : ∃ v, (daemons settings).run (Daemons.new settings)
      (listed.map Prod.fst) = some v ∧ v.entries.lookup 7 = some entry := ⟨_, rfl, rfl⟩
  have hsettings : (Daemons.new settings).dir = settings := rfl
  rw [hsettings, ht, hv] at hrel
  cases hrel with
  | some h => exact ⟨t, v, ht, hv, hentry, h.1, (h.1.entries.value 7).trans hentry⟩

end Neutun.Cli
