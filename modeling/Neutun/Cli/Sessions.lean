/-
  Neutun/Cli/Sessions.lean
  ========================
  From a tunnel to a saved session and back.

  `run_wormhole` writes a session of every tunnel it has connected.  All of the
  configuration goes into it but the control server: the host is left out, to be
  derived again, and the port is written as 0 and taken for the port by the
  reader.
-/
import Neutun.Cli.Config

namespace Neutun.Cli

open Foundation

/-! ### Writing -/

/-- What `run_wormhole` writes. -/
def Config.session (c : Config) : SessionConfig where
  name := ⟨"last".toList, by simp⟩
  port := c.localPort
  subdomain := c.subDomain
  domain := c.domain.getD c.host
  key := c.secretKey.map SecretKey.text
  useTls := c.useTls
  wildcard := c.wildcard
  localHost := c.localHost
  ctrlHost := none
  ctrlPort := 0
  tls := !c.controlTlsOff
  dashboardPort := if c.dashboardPort = 0 then none else some c.dashboardPort

/-- `run_wormhole` is connected. -/
def SettingsDir.connected (dir : SettingsDir) (c : Config) : SettingsDir :=
  dir.saveLastSession c.session

/-! ### Reading -/

/-- The same tunnel, whatever the control server; a domain that was left to the
    server is now the configured host. -/
structure SameTunnel (c restored : Config) : Prop where
  controlTlsOff : restored.controlTlsOff = c.controlTlsOff
  localHost : restored.localHost = c.localHost
  localPort : restored.localPort = c.localPort
  subDomain : restored.subDomain = c.subDomain
  secretKey : restored.secretKey = c.secretKey
  useTls : restored.useTls = c.useTls
  wildcard : restored.wildcard = c.wildcard
  dashboardPort : restored.dashboardPort = c.dashboardPort
  domain : restored.domain = some (c.domain.getD c.host)

/-- The same tunnel on the same control server. -/
structure Restores (c restored : Config) : Prop extends SameTunnel c restored where
  controlUrl : restored.controlUrl = c.controlUrl
  controlApiUrl : restored.controlApiUrl = c.controlApiUrl

/-- What every start takes from `config.json`. -/
structure Configured (dir : SettingsDir) (start : Start) (c : Config) : Prop where
  key : c.secretKey = none → dir.loadConfigOrDefault.key = none
  controlUrl : c.controlUrl =
    controlUrl c.controlTlsOff (start.control dir).1 (start.control dir).2
  controlApiUrl : c.controlApiUrl =
    controlApiUrl c.controlTlsOff (start.control dir).1 (start.control dir).2

variable {p : Platform} {resolve : Resolver} {clientId : ClientId} {dir : SettingsDir}
  {start : Start} {c : Config}

theorem configured_fromOptsAndSession {opts : Opts} {session : Option SessionConfig}
    (hcontrol : start.control dir =
      (Config.effectiveCtrlHost dir.loadConfigOrDefault session,
        (Config.resolveControl dir.loadConfigOrDefault session).2.1))
    (h : Config.fromOptsAndSession resolve clientId dir opts session = .ok c) :
    Configured dir start c := by
  simp only [Config.fromOptsAndSession] at h
  split at h
  · cases h
  · obtain rfl := Except.ok.inj h
    refine ⟨?_, by rw [hcontrol]; rfl, by rw [hcontrol]; rfl⟩
    intro hnone
    rw [Config.resolved, Option.map_eq_none_iff, Option.or_eq_none_iff] at hnone
    exact hnone.2

theorem configured_interactive {params : InteractiveParams} {saved : NeutunConfig}
    (hsaved : dir.config = some saved) (hkey : params.key = none → saved.key = none)
    (hcontrol : start.control dir = (saved.effectiveCtrlHost, saved.ctrlPort))
    (h : buildConfigFromInteractive resolve clientId params saved = .ok c) :
    Configured dir start c := by
  have hload : dir.loadConfigOrDefault = saved := by
    rw [SettingsDir.loadConfigOrDefault, hsaved]
    rfl
  simp only [buildConfigFromInteractive] at h
  split at h
  · cases h
  · obtain rfl := Except.ok.inj h
    refine ⟨?_, by rw [hcontrol], by rw [hcontrol]⟩
    intro hnone
    rw [hload]
    exact hkey (Option.map_eq_none_iff.mp hnone)

/-- The key is the saved one unless another one is typed. -/
theorem key_runCustomize {saved : NeutunConfig} {answers : Answers}
    (h : (runCustomize p saved answers).key = none) : saved.key = none := by
  simp only [runCustomize] at h
  split at h
  · exact h
  · cases h

theorem configured (h : start.config p resolve clientId dir = .ok c) :
    Configured dir start c := by
  cases start with
  | direct opts => exact configured_fromOptsAndSession rfl h
  | quickStart port =>
    simp only [Start.config] at h
    split at h
    · cases h
    next saved hsaved =>
      refine configured_interactive hsaved (fun hkey => hkey) ?_ h
      simp [Start.control, SettingsDir.loadConfigOrDefault, hsaved]
  | customize answers =>
    simp only [Start.config] at h
    split at h
    · cases h
    next saved hsaved =>
      refine configured_interactive hsaved key_runCustomize ?_ h
      simp [Start.control, SettingsDir.loadConfigOrDefault, hsaved]
  | restore opts session => exact configured_fromOptsAndSession rfl h

/-- A session without overrides is read back as it was written, but for the control
    server. -/
theorem restore_session {resolve : Resolver} (hconfigured : Configured dir start c)
    (hresolve : (resolve c.localHost c.localPort).isSome) (clientId : ClientId) (name : FileName) :
    ∃ restored, Config.fromOptsAndSession resolve clientId dir Opts.none
        (some { c.session with name := name }) = .ok restored ∧
      SameTunnel c restored ∧
      restored.controlUrl = controlUrl c.controlTlsOff
        (derivedCtrlHost dir.loadConfigOrDefault.host) 0 ∧
      restored.controlApiUrl = controlApiUrl c.controlTlsOff
        (derivedCtrlHost dir.loadConfigOrDefault.host) 0 := by
  obtain ⟨localAddr, haddr⟩ := Option.isSome_iff_exists.mp hresolve
  refine ⟨Config.resolved dir.loadConfigOrDefault Opts.none
    (some { c.session with name := name }) clientId localAddr, ?_, ?_, ?_, ?_⟩
  · have hsome : resolve (Config.resolveLocalHost Opts.none (some { c.session with name := name }))
        (Config.resolvePort dir.loadConfigOrDefault Opts.none
          (some { c.session with name := name })) = some localAddr := haddr
    simp only [Config.fromOptsAndSession, hsome]
  · refine ⟨Bool.not_not _, rfl, rfl, Option.none_or, ?_, Bool.false_or _, Bool.false_or _, ?_, rfl⟩
    · -- a tunnel without a key has no saved one to fall back on
      have hkey := hconfigured.key
      change (((none : Option Text).or (c.secretKey.map SecretKey.text)).or
        dir.loadConfigOrDefault.key).map SecretKey.mk = c.secretKey
      cases hsecret : c.secretKey with
      | none => rw [hkey hsecret]; rfl
      | some key => rfl
    · change (if c.dashboardPort = 0 then none else some c.dashboardPort).getD 0 = c.dashboardPort
      split
      next hzero => exact hzero.symm
      · rfl
  · exact congrArg (fun tlsOff => controlUrl tlsOff _ 0) (Bool.not_not _)
  · exact congrArg (fun tlsOff => controlApiUrl tlsOff _ 0) (Bool.not_not _)

/-- A tunnel that is saved and restored is the same, and its control server is the
    same exactly if it is the derived host on port 0. -/
theorem restored_tunnel_iff (p : Platform) (dir : SettingsDir) (start : Start)
    (resolve : Resolver) (clientId : ClientId) (c : Config)
    (hstart : start.config p resolve clientId dir = .ok c) (name : FileName)
    (resolve' : Resolver) (clientId' : ClientId)
    (hresolve : (resolve' c.localHost c.localPort).isSome) :
    let saved := ((dir.connected c).savesAdd name).1
    ∃ session restored, saved.loadSession name = some session ∧
      Config.fromOptsAndSession resolve' clientId' saved Opts.none (some session) =
        .ok restored ∧
      SameTunnel c restored ∧
      (Restores c restored ↔
        start.control dir = (derivedCtrlHost dir.loadConfigOrDefault.host, 0)) := by
  intro saved
  have hconfigured := configured hstart
  obtain ⟨hload, hconfig⟩ : saved.loadSession name = some { c.session with name := name } ∧
      saved.config = (dir.connected c).config :=
    (dir.connected c).loadSession_savesAdd rfl name
  have hsaved : saved.loadConfigOrDefault = dir.loadConfigOrDefault := by
    unfold SettingsDir.loadConfigOrDefault
    exact congrArg (fun config => config.getD NeutunConfig.default) hconfig
  obtain ⟨restored, hrestored, hsame, hurl, hapi⟩ :=
    restore_session hconfigured hresolve clientId' name
  refine ⟨{ c.session with name := name }, restored, hload, ?_, hsame, ?_⟩
  · unfold Config.fromOptsAndSession at hrestored ⊢
    rw [hsaved]
    exact hrestored
  · constructor
    · intro hrestores
      have hcontrol := hrestores.controlUrl
      rw [hurl, hconfigured.controlUrl] at hcontrol
      obtain ⟨hhost, hport⟩ := authorityUrl_inj.mp (List.append_cancel_right hcontrol)
      exact Prod.ext hhost.symm hport.symm
    · intro hcontrol
      refine ⟨hsame, ?_, ?_⟩
      · rw [hurl, hconfigured.controlUrl, hcontrol]
      · rw [hapi, hconfigured.controlApiUrl, hcontrol]

namespace Restored

/-- Every name is the local machine. -/
def loopback : Resolver := fun _ port => some ⟨.V4 0x7f000001, port⟩

/-- `neutun -p 3000 -s app` -/
def opts : Opts := { Opts.none with port := some 3000, subDomain := some "app".toList }

def api : FileName := ⟨"api".toList, by simp⟩

def settings (ctrlPort : UInt16) : SettingsDir :=
  ⟨some { NeutunConfig.default with ctrlPort := ctrlPort }, none, ∅⟩

end Restored

open Restored in
/-- The control port is 0. -/
theorem restored_tunnel_iff_zero : ∃ c session restored,
    (Start.direct opts).config Platform.ascii loopback ⟨[]⟩ (settings 0) = .ok c ∧
      (((settings 0).connected c).savesAdd api).1.loadSession api = some session ∧
      Config.fromOptsAndSession loopback ⟨[]⟩ (((settings 0).connected c).savesAdd api).1 Opts.none
        (some session) = .ok restored ∧ Restores c restored := by
  obtain ⟨session, restored, hload, hrestored, -, hiff⟩ := restored_tunnel_iff Platform.ascii
    (settings 0) (.direct opts) loopback ⟨[]⟩ _ rfl api loopback ⟨[]⟩ rfl
  exact ⟨_, session, restored, rfl, hload, hrestored, hiff.mpr rfl⟩

open Restored in
/-- The control port is the default one. -/
theorem restored_without_port : ∃ c session restored,
    (Start.direct opts).config Platform.ascii loopback ⟨[]⟩ (settings 5000) = .ok c ∧
      (((settings 5000).connected c).savesAdd api).1.loadSession api = some session ∧
      Config.fromOptsAndSession loopback ⟨[]⟩ (((settings 5000).connected c).savesAdd api).1
        Opts.none (some session) = .ok restored ∧
      c.controlUrl = "wss://wormhole.neutun.dev:5000/wormhole".toList ∧
      restored.controlUrl = "wss://wormhole.neutun.dev:0/wormhole".toList :=
  ⟨_, _, _, rfl, rfl, rfl, by decide, by decide⟩

end Neutun.Cli
