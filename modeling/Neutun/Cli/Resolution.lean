/-
  Neutun/Cli/Resolution.lean
  ==========================
  Which setting counts (`Config::from_opts_and_session` beside
  `build_config_from_interactive`).

  A direct start leaves the domain to the server, where an interactive one asks
  for the host of the settings; they agree in everything else
  (`direct_quick_start_iff`).  In a restored session the flags count before the
  session, and the session before the settings, but for a `--host localhost` and
  for the control host of the settings (`restore_resolution_iff`).
-/
import Neutun.Cli.Arguments

namespace Neutun.Cli

open Foundation

/-! ### Direct and interactive start -/

/-- Two configurations of different clients, one of which may be verbose. -/
def Config.Agrees (c c' : Config) : Prop :=
  { c with clientId := c'.clientId, verbose := c'.verbose } = c'

instance (c c' : Config) : Decidable (c.Agrees c') := inferInstanceAs (Decidable (_ = _))

theorem runQuickStart_eq {config : NeutunConfig} {answer : Text} {port : UInt16}
    (h : parseU16 answer = some port) :
    runQuickStart config answer = ⟨port, none, none, config.key, false, false⟩ := by
  have hanswer : answer ≠ [] := by
    rintro rfl
    cases h
  simp only [runQuickStart, getInput, if_neg hanswer, h, Option.getD_some]

/-- `neutun -p <port>` -/
def directStart (resolve : Resolver) (clientId : ClientId) (dir : SettingsDir) (port : UInt16) :
    Except Unit Config :=
  Config.fromOpts resolve clientId dir { Opts.none with port := some port }

/-- A quick start with what is entered for the port. -/
def quickStart (resolve : Resolver) (clientId : ClientId) (dir : SettingsDir) (answer : Text) :
    Except Unit Config :=
  let saved := dir.loadConfigOrDefault
  buildConfigFromInteractive resolve clientId (runQuickStart saved answer) saved

/-- Apart from the domain the two ways to start a tunnel on a port agree, and they
    both ask for an address of "localhost". -/
theorem direct_quickStart (resolve : Resolver) (clientId clientId' : ClientId) (dir : SettingsDir)
    {port : UInt16} {answer : Text} (h : parseU16 answer = some port) :
    (resolve "localhost".toList port = none ∧
      directStart resolve clientId dir port = .error () ∧
      quickStart resolve clientId' dir answer = .error ()) ∨
    ∃ c c', resolve "localhost".toList port = some c.localAddr ∧
      directStart resolve clientId dir port = .ok c ∧
      quickStart resolve clientId' dir answer = .ok c' ∧
      c.domain = none ∧ c'.domain = some dir.loadConfigOrDefault.host ∧
      { c with domain := c'.domain }.Agrees c' := by
  have hlocal : Config.resolveLocalHost { Opts.none with port := some port } none =
      "localhost".toList := rfl
  have hport : Config.resolvePort dir.loadConfigOrDefault { Opts.none with port := some port }
      none = port := rfl
  simp only [directStart, quickStart, Config.fromOpts, Config.fromOptsAndSession, hlocal, hport,
    runQuickStart_eq h, buildConfigFromInteractive]
  cases resolve "localhost".toList port with
  | none => exact Or.inl ⟨rfl, rfl, rfl⟩
  | some localAddr => exact Or.inr ⟨_, _, rfl, rfl, rfl, rfl, rfl, rfl⟩

/-- `neutun -p <port>` and a quick start with the port are configured alike only
    where neither can be: one leaves the domain to the server, the other does not. -/
theorem direct_quick_start_iff (resolve : Resolver) (clientId clientId' : ClientId)
    (dir : SettingsDir) (port : UInt16) (answer : Text) (h : parseU16 answer = some port) :
    (∀ c c', directStart resolve clientId dir port = .ok c →
        quickStart resolve clientId' dir answer = .ok c' → c.Agrees c') ↔
      resolve "localhost".toList port = none := by
  rcases direct_quickStart resolve clientId clientId' dir h with
    ⟨hnone, hdirect, hquick⟩ | ⟨c, c', haddr, hdirect, hquick, hdomain, hdomain', hrest⟩
  · rw [hdirect, hnone]
    refine iff_of_true ?_ rfl
    intro c c' hok
    cases hok
  · rw [haddr]
    simp only [reduceCtorEq, iff_false]
    intro hagrees
    have hsame := congrArg Config.domain (hagrees c c' hdirect hquick)
    change c.domain = c'.domain at hsame
    rw [hdomain, hdomain'] at hsame
    cases hsame

/-- Where "localhost" has no address neither starts. -/
theorem direct_quick_start_iff_unresolved : parseU16 "4000".toList = some 4000 ∧
    ∀ c c', directStart (fun _ _ => none) ⟨['1']⟩ ⟨none, none, ∅⟩ 4000 = .ok c →
      quickStart (fun _ _ => none) ⟨['2']⟩ ⟨none, none, ∅⟩ "4000".toList = .ok c' →
        c.Agrees c' := by
  refine ⟨by decide, ?_⟩
  exact (direct_quick_start_iff (fun _ _ => none) ⟨['1']⟩ ⟨['2']⟩ ⟨none, none, ∅⟩ 4000
    "4000".toList (by decide)).mpr rfl

/-- The settings are for "b.co", the direct start asks for no domain. -/
theorem direct_start_other_domain :
    ∃ (resolve : Resolver) (dir : SettingsDir) (a : Arguments) (c c' : Config),
      Arguments.parse ["-p".toList, "4000".toList] = some a ∧
      Config.fromOpts resolve ⟨['1']⟩ dir a.opts = .ok c ∧
      quickStart resolve ⟨['2']⟩ dir "4000".toList = .ok c' ∧
      c.domain = none ∧ c'.domain = some "b.co".toList ∧ ¬c.Agrees c' := by
  refine ⟨fun _ port => some ⟨.V4 0x7f000001#32, port⟩,
    ⟨some { NeutunConfig.default with host := "b.co".toList }, none, ∅⟩, _, _, _, rfl, rfl, rfl,
    rfl, rfl, ?_⟩
  decide

/-! ### Restored sessions -/

/-- The configuration goes by the flags that are given, then by the session, then by
    the settings. -/
structure Config.InOrder (a : Arguments) (s : SessionConfig) (saved : NeutunConfig) (c : Config) :
    Prop where
  localHost : c.localHost = a.localHost.getD s.localHost
  localPort : c.localPort = a.port.getD s.port
  subDomain : c.subDomain = a.subDomain.or s.subdomain
  domain : c.domain = some (a.domain.getD s.domain)
  secretKey : c.secretKey = ((a.key.or s.key).or saved.key).map SecretKey.mk
  dashboardPort : c.dashboardPort = (a.dashboardPort.or s.dashboardPort).getD 0
  controlUrl : c.controlUrl =
    Cli.controlUrl (!s.tls) (s.ctrlHost.getD saved.effectiveCtrlHost) s.ctrlPort
  controlApiUrl : c.controlApiUrl =
    Cli.controlApiUrl (!s.tls) (s.ctrlHost.getD saved.effectiveCtrlHost) s.ctrlPort

theorem controlUrl_inj {tlsOff : Bool} {host host' : Text} {port : UInt16} :
    controlUrl tlsOff host port = controlUrl tlsOff host' port ↔ host = host' := by
  rw [controlUrl, controlUrl, List.append_left_inj, authorityUrl_inj]
  exact and_iff_left rfl

theorem controlApiUrl_inj {tlsOff : Bool} {host host' : Text} {port : UInt16} :
    controlApiUrl tlsOff host port = controlApiUrl tlsOff host' port ↔ host = host' := by
  rw [controlApiUrl, controlApiUrl, authorityUrl_inj]
  exact and_iff_left rfl

/-- A flag that is given as "localhost" is taken for one that is not. -/
theorem resolveLocalHost_iff (a : Arguments) (s : SessionConfig) :
    Config.resolveLocalHost a.opts (some s) = a.localHost.getD s.localHost ↔
      (a.localHost = some "localhost".toList → s.localHost = "localhost".toList) := by
  have hresolve : Config.resolveLocalHost a.opts (some s) =
      if a.localHost.getD "localhost".toList ≠ "localhost".toList then
        a.localHost.getD "localhost".toList
      else s.localHost := rfl
  rw [hresolve]
  generalize "localhost".toList = default
  cases a.localHost with
  | none => simp
  | some host =>
    by_cases hhost : host = default
    · simp [hhost, eq_comm]
    · simp [hhost]

/-- The control host of the settings is left out. -/
theorem effectiveCtrlHost_iff (saved : NeutunConfig) (s : SessionConfig) :
    Config.effectiveCtrlHost saved (some s) = s.ctrlHost.getD saved.effectiveCtrlHost ↔
      (s.ctrlHost = none → ∀ host, saved.ctrlHost = some host →
        host = derivedCtrlHost saved.host) := by
  have hctrl : Config.effectiveCtrlHost saved (some s) =
      s.ctrlHost.getD (derivedCtrlHost saved.host) := rfl
  rw [hctrl, NeutunConfig.effectiveCtrlHost]
  cases s.ctrlHost with
  | some host => simp
  | none =>
    cases saved.ctrlHost with
    | none => simp
    | some host => simp [eq_comm]

/-- A restored session goes by the order of its three sources if and only if
    `--host localhost` changes nothing and the session has a control host where
    the settings have one of their own. -/
theorem restore_resolution_iff (resolve : Resolver) (clientId : ClientId) (dir : SettingsDir)
    (a : Arguments) (s : SessionConfig) (c : Config)
    (hok : Config.fromOptsAndSession resolve clientId dir a.opts (some s) = .ok c) :
    c.InOrder a s dir.loadConfigOrDefault ↔
      (a.localHost = some "localhost".toList → s.localHost = "localhost".toList) ∧
        (s.ctrlHost = none → ∀ host, dir.loadConfigOrDefault.ctrlHost = some host →
          host = derivedCtrlHost dir.loadConfigOrDefault.host) := by
  simp only [Config.fromOptsAndSession] at hok
  split at hok
  · cases hok
  next localAddr _ =>
  obtain rfl := Except.ok.inj hok
  rw [← resolveLocalHost_iff, ← effectiveCtrlHost_iff]
  constructor
  · intro h
    exact ⟨h.localHost, controlUrl_inj.mp h.controlUrl⟩
  · rintro ⟨hlocal, hctrl⟩
    refine ⟨hlocal, rfl, rfl, ?_, rfl, ?_, controlUrl_inj.mpr hctrl, controlApiUrl_inj.mpr hctrl⟩
    · change a.domain.or (some s.domain) = some (a.domain.getD s.domain)
      cases a.domain <;> rfl
    · change a.dashboardPort.getD (s.dashboardPort.getD 0) =
        (a.dashboardPort.or s.dashboardPort).getD 0
      cases a.dashboardPort <;> rfl

namespace Restored

/-- A session for the host "h", without a control host of its own. -/
def session : SessionConfig where
  name := ⟨"home".toList, by simp⟩
  port := 3000
  subdomain := none
  domain := "b.co".toList
  key := none
  useTls := false
  wildcard := false
  localHost := "h".toList
  ctrlHost := none
  ctrlPort := 5000
  tls := true
  dashboardPort := none

/-- Every name is on this machine. -/
def resolve : Resolver := fun _ port => some ⟨.V4 0x7f000001#32, port⟩

/-- `config.json` with a control host. -/
def dir (ctrlHost : Option Text) : SettingsDir :=
  ⟨some { NeutunConfig.default with ctrlHost := ctrlHost }, none, ∅⟩

def arguments (words : List String) : Option Arguments :=
  Arguments.parse (words.map String.toList ++ ["saves".toList, "restore".toList, "a".toList])

end Restored

open Restored in
/-- Another host and another port count before the session. -/
theorem restore_resolution_iff_flags :
    ∃ a c, arguments ["--host", "x", "-p", "4000"] = some a ∧
      Config.fromOptsAndSession resolve ⟨['1']⟩ (dir none) a.opts (some session) = .ok c ∧
      c.InOrder a session (dir none).loadConfigOrDefault ∧
      c.localHost = "x".toList ∧ c.localPort = 4000 := by
  refine ⟨_, _, rfl, rfl, ?_, rfl, rfl⟩
  refine (restore_resolution_iff resolve ⟨['1']⟩ (dir none) _ session _ rfl).mpr ⟨?_, ?_⟩
  · intro h
    exact absurd h (by decide)
  · intro _ host h
    cases h

open Restored in
/-- `--host localhost` is overruled by the session, and the control host of the
    settings by the host. -/
theorem restored_out_of_order :
    ∃ a c, arguments ["--host", "localhost"] = some a ∧
      Config.fromOptsAndSession resolve ⟨['1']⟩ (dir (some "c.co".toList)) a.opts
        (some session) = .ok c ∧
      a.localHost = some "localhost".toList ∧ c.localHost = "h".toList ∧
      session.ctrlHost = none ∧
      (dir (some "c.co".toList)).loadConfigOrDefault.effectiveCtrlHost = "c.co".toList ∧
      c.controlUrl = controlUrl false "wormhole.neutun.dev".toList 5000 ∧
      ¬c.InOrder a session (dir (some "c.co".toList)).loadConfigOrDefault := by
  refine ⟨_, _, rfl, rfl, rfl, rfl, rfl, rfl, rfl, ?_⟩
  intro h
  exact absurd h.localHost (by decide)

end Neutun.Cli
