/-
  Neutun/Cli/Config.lean
  ======================
  How the client comes by its configuration (`config.rs`, `interactive.rs`).

  A tunnel is started with flags, from a saved session, or by answers to
  questions.  Flags come before the session, the session before `config.json`,
  and that before the defaults; the control server is not among the flags.
-/
import Neutun.Cli.Settings
import Neutun.Server.Auth

namespace Neutun.Cli

open Foundation

/-! ### Flags -/

/-- The flags of `Opts`; the subcommand is not one of them. -/
structure Opts where
  key : Option Text
  subDomain : Option Text
  domain : Option Text
  localHost : Text
  useTls : Bool
  port : Option UInt16
  dashboardPort : Option UInt16
  wildcard : Bool
  daemon : Bool
  verbose : Bool
deriving DecidableEq

/-- No flag is given. -/
def Opts.none : Opts where
  key := .none
  subDomain := .none
  domain := .none
  localHost := "localhost".toList
  useTls := false
  port := .none
  dashboardPort := .none
  wildcard := false
  daemon := false
  verbose := false

/-! ### The configuration -/

/-- `std::net::SocketAddr` -/
structure SocketAddr where
  ip : IpAddr
  port : UInt16
deriving DecidableEq

/-- The first address that `to_socket_addrs` finds. -/
abbrev Resolver := Text → UInt16 → Option SocketAddr

structure Config where
  clientId : ClientId
  controlUrl : Text
  controlApiUrl : Text
  useTls : Bool
  host : Text
  localHost : Text
  localPort : UInt16
  localAddr : SocketAddr
  subDomain : Option Text
  domain : Option Text
  secretKey : Option SecretKey
  controlTlsOff : Bool
  firstRun : Bool
  dashboardPort : UInt16
  verbose : Bool
  wildcard : Bool
deriving DecidableEq

/-- `format!("{}://{}:{}", scheme, host, port)` -/
def authorityUrl (scheme host : Text) (port : UInt16) : Text :=
  scheme ++ "://".toList ++ host ++ ':' :: decimal port

def controlUrl (tlsOff : Bool) (host : Text) (port : UInt16) : Text :=
  authorityUrl (if tlsOff then "ws".toList else "wss".toList) host port ++ "/wormhole".toList

def controlApiUrl (tlsOff : Bool) (host : Text) (port : UInt16) : Text :=
  authorityUrl (if tlsOff then "http".toList else "https".toList) host port

/-- The host may contain colons; the port does not. -/
theorem authorityUrl_inj {scheme host host' : Text} {port port' : UInt16} :
    authorityUrl scheme host port = authorityUrl scheme host' port' ↔
      host = host' ∧ port = port' := by
  constructor
  · intro h
    simp only [authorityUrl, List.append_assoc, List.append_cancel_left_eq] at h
    have hport : ∀ q : UInt16, ':' ∉ (decimal q).reverse := by
      intro q hq
      exact colon_not_mem_decimal q (List.mem_reverse.mp hq)
    -- read from the end, both are cut at the first colon
    have hrev := congrArg List.reverse h
    simp only [List.reverse_append, List.reverse_cons, List.append_assoc, List.cons_append,
      List.nil_append] at hrev
    have hcut : ∀ (q : UInt16) (rest : Text), ((decimal q).reverse ++ ':' :: rest).takeWhile
        (fun c => !(c == ':')) = (decimal q).reverse := by
      intro q rest
      rw [List.takeWhile_append_of_pos]
      · simp
      · intro c hc
        have hne : c ≠ ':' := fun heq => hport q (heq ▸ hc)
        simpa using hne
    have hdigits : (decimal port).reverse = (decimal port').reverse := by
      rw [← hcut port host.reverse, ← hcut port' host'.reverse, hrev]
    have hsame : port = port' := decimal_injective (List.reverse_injective hdigits)
    subst hsame
    rw [List.append_cancel_left_eq, List.cons.injEq, List.reverse_inj] at hrev
    exact ⟨hrev.2, rfl⟩
  · rintro ⟨rfl, rfl⟩
    rfl

namespace Config

variable (saved : NeutunConfig) (opts : Opts) (session : Option SessionConfig)

def resolvePort : UInt16 := opts.port.getD ((session.map SessionConfig.port).getD saved.port)

def resolveLocalHost : Text :=
  if opts.localHost ≠ "localhost".toList then opts.localHost
  else
    match session with
    | some s => s.localHost
    | none => opts.localHost

/-- What the session or `config.json` says of the control server: the host, the
    port and TLS. -/
def resolveControl : Option Text × UInt16 × Bool :=
  match session with
  | some s => (s.ctrlHost, s.ctrlPort, s.tls)
  | none => (saved.ctrlHost, saved.ctrlPort, saved.tls)

def effectiveCtrlHost : Text :=
  (resolveControl saved session).1.getD (derivedCtrlHost saved.host)

def resolveSubDomain : Option Text := opts.subDomain.or (session.bind SessionConfig.subdomain)

/-- The fields, once the local address is resolved. -/
def resolved (clientId : ClientId) (localAddr : SocketAddr) : Config :=
  let ctrlPort := (resolveControl saved session).2.1
  let tlsOff := !(resolveControl saved session).2.2
  { clientId := clientId
    controlUrl := Cli.controlUrl tlsOff (effectiveCtrlHost saved session) ctrlPort
    controlApiUrl := Cli.controlApiUrl tlsOff (effectiveCtrlHost saved session) ctrlPort
    useTls := opts.useTls || (session.map SessionConfig.useTls).getD false
    host := saved.host
    localHost := resolveLocalHost opts session
    localPort := resolvePort saved opts session
    localAddr := localAddr
    subDomain := resolveSubDomain opts session
    domain := opts.domain.or (session.map SessionConfig.domain)
    secretKey := ((opts.key.or (session.bind SessionConfig.key)).or saved.key).map SecretKey.mk
    controlTlsOff := tlsOff
    firstRun := true
    dashboardPort := opts.dashboardPort.getD ((session.bind SessionConfig.dashboardPort).getD 0)
    verbose := opts.verbose
    wildcard := opts.wildcard || (session.map SessionConfig.wildcard).getD false }

/-- `clientId` is what `ClientId::generate` returns; an address that cannot be
    resolved is the only error. -/
def fromOptsAndSession (resolve : Resolver) (clientId : ClientId) (dir : SettingsDir)
    (opts : Opts) (session : Option SessionConfig) : Except Unit Config :=
  let saved := dir.loadConfigOrDefault
  match resolve (resolveLocalHost opts session) (resolvePort saved opts session) with
  | none => .error ()
  | some localAddr => .ok (resolved saved opts session clientId localAddr)

def fromOpts (resolve : Resolver) (clientId : ClientId) (dir : SettingsDir) (opts : Opts) :
    Except Unit Config :=
  fromOptsAndSession resolve clientId dir opts none

end Config

/-! ### Interactive mode -/

/-- `get_input`; the answer comes without the white space around it. -/
def getInput (default answer : Text) : Text := if answer = [] then default else answer

structure InteractiveParams where
  port : UInt16
  subdomain : Option Text
  domain : Option Text
  key : Option Text
  useTls : Bool
  wildcard : Bool

def runQuickStart (config : NeutunConfig) (port : Text) : InteractiveParams where
  port := (parseU16 (getInput (decimal config.port) port)).getD config.port
  subdomain := none
  domain := none
  key := config.key
  useTls := false
  wildcard := false

/-- What is answered in `run_customize`; there is a question for the subdomain only
    if a custom one is chosen. -/
structure Answers where
  port : Text
  subdomain : Option Text
  domain : Text
  key : Text
  useTls : Text
  wildcard : Text

/-- `matches!(input.to_lowercase().as_str(), "yes" | "y")` -/
def isYes (p : Platform) (input : Text) : Bool :=
  p.toLowercase input == "yes".toList || p.toLowercase input == "y".toList

def runCustomize (p : Platform) (config : NeutunConfig) (answers : Answers) : InteractiveParams :=
  let domainInput := getInput config.host answers.domain
  let keyInput := getInput config.maskedKey answers.key
  { port := (parseU16 (getInput (decimal config.port) answers.port)).getD config.port
    subdomain := answers.subdomain.bind fun s => if s = [] then none else some s
    domain := if domainInput = config.host then none else some domainInput
    key := if keyInput = config.maskedKey ∨ keyInput = [] then config.key else some keyInput
    useTls := isYes p (getInput "no".toList answers.useTls)
    wildcard := isYes p (getInput "no".toList answers.wildcard) }

/-- Without an address for "localhost" the program panics. -/
def buildConfigFromInteractive (resolve : Resolver) (clientId : ClientId)
    (params : InteractiveParams) (saved : NeutunConfig) : Except Unit Config :=
  match resolve "localhost".toList params.port with
  | none => .error ()
  | some localAddr =>
    let tlsOff := !saved.tls
    .ok {
      clientId := clientId
      controlUrl := controlUrl tlsOff saved.effectiveCtrlHost saved.ctrlPort
      controlApiUrl := controlApiUrl tlsOff saved.effectiveCtrlHost saved.ctrlPort
      useTls := params.useTls
      host := saved.host
      localHost := "localhost".toList
      localPort := params.port
      localAddr := localAddr
      subDomain := params.subdomain
      domain := params.domain.or (some saved.host)
      secretKey := params.key.map SecretKey.mk
      controlTlsOff := tlsOff
      firstRun := true
      dashboardPort := 0
      verbose := false
      wildcard := params.wildcard }

/-! ### Starting a tunnel -/

/-- The ways into `run_tunnel`. -/
inductive Start where
  | direct (opts : Opts)
  | quickStart (port : Text)
  | customize (answers : Answers)
  | restore (opts : Opts) (session : SessionConfig)

namespace Start

/-- The control host and port that a start has to go by. -/
def control (dir : SettingsDir) : Start → Text × UInt16
  | restore _ session =>
    (session.ctrlHost.getD (derivedCtrlHost dir.loadConfigOrDefault.host), session.ctrlPort)
  | _ => (dir.loadConfigOrDefault.effectiveCtrlHost, dir.loadConfigOrDefault.ctrlPort)

/-- The configuration that a start leads to; interactive mode needs a
    `config.json`. -/
def config (p : Platform) (resolve : Resolver) (clientId : ClientId) (dir : SettingsDir) :
    Start → Except Unit Config
  | direct opts => Config.fromOpts resolve clientId dir opts
  | quickStart port =>
    match dir.config with
    | none => .error ()
    | some saved => buildConfigFromInteractive resolve clientId (runQuickStart saved port) saved
  | customize answers =>
    match dir.config with
    | none => .error ()
    | some saved =>
      buildConfigFromInteractive resolve clientId (runCustomize p saved answers) saved
  | restore opts session => Config.fromOptsAndSession resolve clientId dir opts (some session)

end Start

end Neutun.Cli
