/-
  Neutun/Cli/Migration.lean
  =========================
  The settings of older versions (`migrate_legacy_config` in `saved_config.rs`,
  `handle_config_action`).

  `key.token`, `domain.txt` and `port.txt` are read where there is no
  `config.json`, but only by interactive mode.  All other commands go by the
  defaults then, and `neutun config` writes these defaults down, after which
  nothing reads the old files any more.
-/
import Neutun.Cli.Sessions
import Neutun.Foundation.Machine
import Mathlib.Data.List.DropRight

namespace Neutun.Cli

open Foundation

/-! ### Trimming -/

/-- `char::is_whitespace`, the Unicode property `White_Space` -/
def isWhitespace (c : Char) : Bool :=
  let n := c.toNat
  decide ((9 ≤ n ∧ n ≤ 13) ∨ n = 0x20 ∨ n = 0x85 ∨ n = 0xa0 ∨ n = 0x1680 ∨
    (0x2000 ≤ n ∧ n ≤ 0x200a) ∨ n = 0x2028 ∨ n = 0x2029 ∨ n = 0x202f ∨ n = 0x205f ∨ n = 0x3000)

/-- `str::trim` -/
def trim (s : Text) : Text := (s.dropWhile isWhitespace).rdropWhile isWhitespace

example : trim "\t neutun.dev \n".toList = "neutun.dev".toList := by decide

/-! ### The old files -/

/-- Each of them may be there or not, and if it is there it may still be unreadable. -/
structure LegacyFiles where
  key : Option (Option Text)
  domain : Option (Option Text)
  port : Option (Option Text)

namespace NeutunConfig

variable (file : Option (Option Text)) (config : NeutunConfig)

def readDomain : NeutunConfig :=
  match file.join with
  | some domain => if trim domain = [] then config else { config with host := trim domain }
  | none => config

def readPort : NeutunConfig :=
  match file.join with
  | some portStr =>
    match parseU16 (trim portStr) with
    | some port => { config with port := port }
    | none => config
  | none => config

def readKey : NeutunConfig :=
  match file.join with
  | some key => if trim key = [] then config else { config with key := some (trim key) }
  | none => config

end NeutunConfig

/-- What `migrate_legacy_config` writes and returns. -/
def migrateLegacyConfig (files : LegacyFiles) : Option NeutunConfig :=
  if !(files.key.isSome || files.domain.isSome || files.port.isSome) then none
  else some (((NeutunConfig.default.readDomain files.domain).readPort files.port).readKey files.key)

namespace LegacyFiles

variable (files : LegacyFiles)

def hostValue : Option Text :=
  files.domain.join.bind fun domain => if trim domain = [] then none else some (trim domain)

def portValue : Option UInt16 := files.port.join.bind fun portStr => parseU16 (trim portStr)

def keyValue : Option Text :=
  files.key.join.bind fun key => if trim key = [] then none else some (trim key)

/-- Settings with the values of the files over them. -/
def overlay (config : NeutunConfig) : NeutunConfig :=
  { config with
    host := files.hostValue.getD config.host
    port := files.portValue.getD config.port
    key := files.keyValue.or config.key }

end LegacyFiles

namespace LegacyFiles

variable (files : LegacyFiles) (config : NeutunConfig)

theorem readDomain_eq : config.readDomain files.domain =
    { config with host := files.hostValue.getD config.host } := by
  unfold NeutunConfig.readDomain hostValue
  cases files.domain.join with
  | none => rfl
  | some domain => by_cases hempty : trim domain = [] <;> simp [hempty]

theorem readPort_eq : config.readPort files.port =
    { config with port := files.portValue.getD config.port } := by
  unfold NeutunConfig.readPort portValue
  cases files.port.join with
  | none => rfl
  | some portStr => cases hparse : parseU16 (trim portStr) <;> simp [hparse]

theorem readKey_eq : config.readKey files.key =
    { config with key := files.keyValue.or config.key } := by
  unfold NeutunConfig.readKey keyValue
  cases files.key.join with
  | none => rfl
  | some key => by_cases hempty : trim key = [] <;> simp [hempty]

end LegacyFiles

/-- The migrated settings are the values of the files over the defaults. -/
theorem migrateLegacyConfig_eq_some {files : LegacyFiles} {config : NeutunConfig}
    (h : migrateLegacyConfig files = some config) :
    config = files.overlay NeutunConfig.default := by
  unfold migrateLegacyConfig at h
  split at h
  · cases h
  · rw [files.readDomain_eq, files.readPort_eq, files.readKey_eq] at h
    exact (Option.some.inj h).symm

/-- Where there are no files there are no values. -/
theorem migrateLegacyConfig_eq_none {files : LegacyFiles} (h : migrateLegacyConfig files = none)
    (config : NeutunConfig) : files.overlay config = config := by
  unfold migrateLegacyConfig at h
  split at h
  next habsent =>
    obtain ⟨key, domain, port⟩ := files
    simp only [Bool.not_eq_true', Bool.or_eq_false_iff, Option.isSome_eq_false_iff,
      Option.isNone_iff_eq_none] at habsent
    obtain ⟨⟨rfl, rfl⟩, rfl⟩ := habsent
    rfl
  · cases h

/-! ### Setting -/

/-- The actions of `neutun config` that set a value. -/
inductive ConfigAction where
  | host (domain : Text)
  | ctrlHost (host : Text)
  | ctrlPort (port : UInt16)
  | tls (status : Text)
  | port (port : UInt16)
  | key (key : Text)

/-- The settings with that value. -/
def ConfigAction.set (p : Platform) (config : NeutunConfig) : ConfigAction → NeutunConfig
  | .host value => { config with host := value }
  | .ctrlHost value => { config with ctrlHost := some value }
  | .ctrlPort value => { config with ctrlPort := value }
  | .tls status => { config with tls := decide (p.toLowercase status = "on".toList) }
  | .port value => { config with port := value }
  | .key value => { config with key := some value }

namespace SettingsDir

def saveConfig (dir : SettingsDir) (config : NeutunConfig) : SettingsDir :=
  { dir with config := some config }

def handleConfigAction (p : Platform) (dir : SettingsDir) (action : ConfigAction) : SettingsDir :=
  dir.saveConfig (action.set p dir.loadConfigOrDefault)

end SettingsDir

namespace LegacyFiles

variable (files : LegacyFiles)

def DefaultHost : Prop := ∀ host, files.hostValue = some host → host = NeutunConfig.default.host

def DefaultPort : Prop := ∀ port, files.portValue = some port → port = NeutunConfig.default.port

def DefaultKey : Prop := files.keyValue = none

/-- The files say nothing else than the defaults. -/
def Defaults : Prop := files.DefaultHost ∧ files.DefaultPort ∧ files.DefaultKey

/-- The same apart from the value that the action sets. -/
def DefaultsBut : ConfigAction → Prop
  | .host _ => files.DefaultPort ∧ files.DefaultKey
  | .port _ => files.DefaultHost ∧ files.DefaultKey
  | .key _ => files.DefaultHost ∧ files.DefaultPort
  | _ => files.Defaults

theorem getD_eq_iff {α : Type} {value : Option α} {default : α} :
    value.getD default = default ↔ ∀ a, value = some a → a = default := by
  cases value <;> simp

theorem overlay_default_iff :
    files.overlay NeutunConfig.default = NeutunConfig.default ↔ files.Defaults := by
  simp only [overlay, Defaults, DefaultHost, DefaultPort, DefaultKey, ← getD_eq_iff]
  rw [NeutunConfig.default, NeutunConfig.mk.injEq]
  simp

theorem set_overlay_iff (p : Platform) (action : ConfigAction) :
    action.set p (files.overlay NeutunConfig.default) = action.set p NeutunConfig.default ↔
      files.DefaultsBut action := by
  cases action <;>
    simp [ConfigAction.set, overlay, DefaultsBut, Defaults, DefaultHost, DefaultPort, DefaultKey,
      ← getD_eq_iff, NeutunConfig.default]

end LegacyFiles

/-! ### The commands -/

/-- What a tunnel gets from outside. -/
structure Environment where
  resolve : Resolver
  clientId : ClientId
  /-- the server lets it in -/
  connects : Bool

/-- `~/.neutun` of a user of older versions -/
structure Home where
  dir : SettingsDir
  legacy : LegacyFiles

/-- The commands that go by `config.json`. -/
inductive Invocation where
  | config (action : ConfigAction)
  /-- `neutun -p <port>` -/
  | direct (opts : Opts) (env : Environment)
  /-- `neutun saves restore`, for a session that is saved -/
  | restore (opts : Opts) (session : SessionConfig) (env : Environment)
  /-- `neutun server domains` and `neutun server taken` -/
  | server
  /-- `run_interactive` up to the first question -/
  | interactive

namespace Home

/-- There is no `config.json` yet. -/
def unmigrated (files : LegacyFiles) (last : Option SessionConfig)
    (saves : Table FileName SessionConfig) : Home :=
  ⟨⟨none, last, saves⟩, files⟩

variable (p : Platform) (home : Home)

/-- `run_interactive` until it loads the settings. -/
def migrate : Home :=
  if home.dir.config.isSome then home
  else
    match migrateLegacyConfig home.legacy with
    | some config => { home with dir := home.dir.saveConfig config }
    | none => home

def tunnel (opts : Opts) (session : Option SessionConfig) (env : Environment) : Home :=
  match Config.fromOptsAndSession env.resolve env.clientId home.dir opts session with
  | .ok c => if env.connects then { home with dir := home.dir.connected c } else home
  | .error _ => home

def step : Invocation → Home
  | .config action => { home with dir := home.dir.handleConfigAction p action }
  | .direct opts env => home.tunnel opts none env
  | .restore opts session env => home.tunnel opts (some session) env
  | .server => home
  | .interactive => home.migrate

/-- The settings that a command goes by, or that it writes. -/
def inEffect : Invocation → NeutunConfig
  | .config action => action.set p home.dir.loadConfigOrDefault
  | .interactive => home.migrate.dir.loadConfigOrDefault
  | _ => home.dir.loadConfigOrDefault

end Home

def client (p : Platform) : Machine Home Invocation where
  start home := home.dir.config = none
  step home e := some (home.step p e)

/-- Settings with the value over them that the command sets. -/
def Invocation.over (p : Platform) (config : NeutunConfig) : Invocation → NeutunConfig
  | .config action => action.set p config
  | _ => config

/-- The defaults, under the values of the old files, under those that the commands
    have set. -/
def LegacyFiles.intended (p : Platform) (files : LegacyFiles) (es : List Invocation) :
    NeutunConfig :=
  es.foldl (Invocation.over p) (files.overlay NeutunConfig.default)

/-- The files are read by the first command, or it sets all they could tell, or
    they tell nothing. -/
def LegacyFiles.Survive (files : LegacyFiles) : List Invocation → Prop
  | [] => True
  | .interactive :: _ => True
  | .config action :: _ => files.DefaultsBut action
  | _ :: _ => files.Defaults

namespace Home

variable {p : Platform} {home : Home} {config : NeutunConfig}

/-- The settings are written down, or nobody has set any. -/
def Agrees (home : Home) (config : NeutunConfig) : Prop :=
  home.dir.config = some config ∨
    home.dir.config = none ∧ config = NeutunConfig.default ∧
      home.legacy.overlay NeutunConfig.default = NeutunConfig.default

theorem Agrees.load (h : home.Agrees config) : home.dir.loadConfigOrDefault = config := by
  unfold SettingsDir.loadConfigOrDefault
  rcases h with h | ⟨h, rfl, -⟩
  · rw [h, Option.getD_some]
  · rw [h, Option.getD_none]

theorem tunnel_kept (home : Home) (opts : Opts) (session : Option SessionConfig)
    (env : Environment) : (home.tunnel opts session env).dir.config = home.dir.config ∧
      (home.tunnel opts session env).legacy = home.legacy := by
  unfold tunnel
  split
  · split
    · exact ⟨rfl, rfl⟩
    · exact ⟨rfl, rfl⟩
  · exact ⟨rfl, rfl⟩

theorem agrees_tunnel (h : home.Agrees config) (opts : Opts) (session : Option SessionConfig)
    (env : Environment) : (home.tunnel opts session env).Agrees config := by
  obtain ⟨hconfig, hlegacy⟩ := home.tunnel_kept opts session env
  unfold Agrees
  rw [hconfig, hlegacy]
  exact h

theorem agrees_migrate (h : home.Agrees config) : home.migrate.Agrees config := by
  unfold migrate
  rcases h with h | ⟨h, rfl, hlegacy⟩
  · rw [h, Option.isSome_some, if_pos rfl]
    exact Or.inl h
  · rw [h, Option.isSome_none, if_neg Bool.false_ne_true]
    split
    next migrated hmigrated =>
      left
      rw [migrateLegacyConfig_eq_some hmigrated, hlegacy]
      rfl
    · exact Or.inr ⟨h, rfl, hlegacy⟩

/-- After a migration the values of the files are over the defaults. -/
theorem agrees_unmigrated (h : home.dir.config = none) :
    home.migrate.Agrees (home.legacy.overlay NeutunConfig.default) := by
  unfold migrate
  rw [h, Option.isSome_none, if_neg Bool.false_ne_true]
  split
  next migrated hmigrated =>
    left
    rw [migrateLegacyConfig_eq_some hmigrated]
    rfl
  next hnone =>
    have hdefault := migrateLegacyConfig_eq_none hnone NeutunConfig.default
    exact Or.inr ⟨h, hdefault, hdefault⟩

theorem agrees_step (h : home.Agrees config) (e : Invocation) :
    (home.step p e).Agrees (e.over p config) := by
  cases e with
  | config action =>
    left
    rw [← h.load]
    rfl
  | direct opts env => exact agrees_tunnel h opts none env
  | restore opts session env => exact agrees_tunnel h opts (some session) env
  | server => exact h
  | interactive => exact agrees_migrate h

theorem inEffect_of_agrees (h : home.Agrees config) (e : Invocation) :
    home.inEffect p e = e.over p config := by
  cases e with
  | config action => exact congrArg (fun loaded => action.set p loaded) h.load
  | interactive => exact (agrees_migrate h).load
  | direct opts env => exact h.load
  | restore opts session env => exact h.load
  | server => exact h.load

/-- What is in effect for the first command. -/
theorem inEffect_first (files : LegacyFiles) (last : Option SessionConfig)
    (saves : Table FileName SessionConfig) (e : Invocation) :
    (unmigrated files last saves).inEffect p e = files.intended p [e] ↔ files.Survive [e] := by
  cases e with
  | config action => exact eq_comm.trans (files.set_overlay_iff p action)
  | interactive =>
    have hagrees : (unmigrated files last saves).migrate.Agrees
        (files.overlay NeutunConfig.default) := agrees_unmigrated rfl
    exact iff_of_true hagrees.load trivial
  | _ => exact eq_comm.trans files.overlay_default_iff

/-- Once the first command has gone by the right settings all do. -/
theorem agrees_first {files : LegacyFiles} {e : Invocation} (h : files.Survive [e])
    (last : Option SessionConfig) (saves : Table FileName SessionConfig) :
    ((unmigrated files last saves).step p e).Agrees (files.intended p [e]) := by
  have hright := (inEffect_first (p := p) files last saves e).mpr h
  have hread : files.Defaults → (unmigrated files last saves).Agrees
      (files.overlay NeutunConfig.default) := by
    intro hdefaults
    have hdefault := files.overlay_default_iff.mpr hdefaults
    exact Or.inr ⟨rfl, hdefault, hdefault⟩
  cases e with
  | config action => exact Or.inl (congrArg some hright)
  | interactive => exact agrees_unmigrated rfl
  | _ => exact agrees_step (hread h) _

end Home

/-- Every command goes by the settings it should go by, exactly if the first of
    them reads the old files, sets the only value they tell, or finds that they tell
    nothing but the defaults. -/
theorem legacy_survives_iff (p : Platform) (files : LegacyFiles) (last : Option SessionConfig)
    (saves : Table FileName SessionConfig) (es : List Invocation) :
    (∀ fs e gs home, es = fs ++ e :: gs →
        (client p).run (Home.unmigrated files last saves) fs = some home →
        home.inEffect p e = files.intended p (fs ++ [e])) ↔ files.Survive es := by
  cases es with
  | nil =>
    refine iff_of_true ?_ trivial
    intro fs e gs home hes
    simp at hes
  | cons first rest =>
    have hsurvive : files.Survive (first :: rest) ↔ files.Survive [first] := by
      cases first <;> rfl
    rw [hsurvive]
    constructor
    · intro h
      exact (Home.inEffect_first files last saves first).mp (h [] first rest _ rfl rfl)
    · intro h fs e gs home hes hrun
      cases fs with
      | nil =>
        obtain rfl : Home.unmigrated files last saves = home := Option.some.inj hrun
        obtain ⟨rfl, -⟩ := List.cons.inj hes
        exact (Home.inEffect_first files last saves first).mpr h
      | cons head fs =>
        obtain ⟨rfl, -⟩ := List.cons.inj hes
        obtain ⟨next, hnext, hrest⟩ := (Machine.run_cons_eq_some _).mp hrun
        obtain rfl := Option.some.inj hnext
        have hagrees : home.Agrees (fs.foldl (Invocation.over p) (files.intended p [first])) := by
          refine Machine.run_foldl (M := client p) ?_ (Home.agrees_first h last saves)
            (Machine.meets_true _ _) hrest
          intro home config e next hagrees _ hstep
          obtain rfl := Option.some.inj hstep
          exact Home.agrees_step hagrees e
        rw [Home.inEffect_of_agrees hagrees e]
        simp only [LegacyFiles.intended, List.cons_append, List.foldl_cons, List.foldl_append,
          List.foldl_nil]

namespace Upgrade

def files : LegacyFiles where
  key := none
  domain := some (some "tunnel.example\n".toList)
  port := none

/-- `neutun config port 3000` -/
def setPort : Invocation := .config (.port 3000)

end Upgrade

open Upgrade in
/-- A query goes to the default server, and after `neutun config port 3000` interactive
    mode goes there as well. -/
theorem legacy_settings_lost :
    (Home.unmigrated files none ∅).inEffect Platform.ascii .server ≠
        files.intended Platform.ascii [.server] ∧
      ∃ home, (client Platform.ascii).run (Home.unmigrated files none ∅) [setPort] = some home ∧
        (home.inEffect Platform.ascii .interactive).host = "neutun.dev".toList ∧
        (files.intended Platform.ascii [setPort, .interactive]).host =
          "tunnel.example".toList := by
  refine ⟨?_, _, rfl, rfl, by decide⟩
  intro heq
  have hhost := congrArg NeutunConfig.host heq
  exact absurd hhost (by decide)

end Neutun.Cli
