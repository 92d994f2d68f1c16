/-
  Neutun/Server/Environment.lean
  ==============================
  `Config::from_env`: the server's configuration from the variables it is started
  with, and what the two lists of what is blocked mean to a server that runs.

  The lists are cut at the commas and nothing else is done to the pieces.  A piece of
  `BLOCKED_SUB_DOMAINS` is compared with names in lower case that have passed the
  check of their characters, and a piece of `BLOCKED_IPS` that is no address is
  dropped without a word.
-/
import Neutun.Server.ClientIp

namespace Neutun

open Foundation

/-! ### Reading the variables -/

/-- `std::env::var`, where it is `Ok`. -/
abbrev Variables := String → Option Text

/-- `s.split(",")`, or nothing for a variable that is not set. -/
def Variables.pieces (env : Variables) (var : String) : List Text :=
  ((env var).map (List.splitOn ',')).getD []

/-- `SigKey::from_hex` -/
def SigKey.fromHex (p : Platform) (hex : Text) : Option SigKey :=
  (p.hexDecode hex).bind fun bytes => if h : bytes.length = 32 then some ⟨bytes, h⟩ else none

/-- `get_port`, where `none` is its panic. -/
def getPort (env : Variables) (var : String) (default : UInt16) : Option UInt16 :=
  match env var with
  | some port => Cli.parseU16 port
  | none => some default

/-- The configuration with its ports. -/
structure ServerConfig extends Config where
  remotePort : UInt16
  controlPort : UInt16
  internalNetworkPort : UInt16

/-- The key in the variables, or `generated`, what `SigKey::generate` returns; `none` is
    a panic. -/
def getMasterSigKey (p : Platform) (env : Variables) (generated : SigKey) : Option SigKey :=
  match env "MASTER_SIG_KEY" with
  | some key => SigKey.fromHex p key
  | none => some generated

/-- `none` where one of the variables makes the program panic. -/
def Config.fromEnv (p : Platform) (env : Variables) (generated : SigKey) :
    Option ServerConfig := do
  let masterSigKey ← getMasterSigKey p env generated
  let controlPort ← getPort env "CTRL_PORT" 5000
  let remotePort ← getPort env "PORT" 8080
  let internalNetworkPort ← getPort env "NET_PORT" 6000
  some {
    allowedHosts := env.pieces "ALLOWED_HOSTS"
    blockedSubDomains := env.pieces "BLOCKED_SUB_DOMAINS"
    masterSigKey := masterSigKey
    blockedIps := (env.pieces "BLOCKED_IPS").filterMap IpAddr.fromStr
    masterKey := (env "MASTER_API_KEY").or (env "NEUTUN_MASTER_KEY")
    remotePort := remotePort
    controlPort := controlPort
    internalNetworkPort := internalNetworkPort }

/-! ### What a list of names blocks -/

/-- Some request comes to the list of blocked names with this name. -/
structure Platform.Requestable (p : Platform) (name : Text) : Prop where
  lower : ∃ requested, p.toLowercase requested = name
  valid : ∀ c ∈ name, p.isAlphanumeric c = true ∨ c = '-'

/-- The configurations block the same requests, and are otherwise the same. -/
structure Config.SameBlocked (p : Platform) (cfg cfg' : Config) : Prop where
  names : ∀ name, p.Requestable name →
    (name ∈ cfg.blockedSubDomains ↔ name ∈ cfg'.blockedSubDomains)
  ips : ∀ ip, ip ∈ cfg.blockedIps ↔ ip ∈ cfg'.blockedIps
  allowedHosts : cfg.allowedHosts = cfg'.allowedHosts
  masterSigKey : cfg.masterSigKey = cfg'.masterSigKey
  masterKey : cfg.masterKey = cfg'.masterKey

namespace Config.SameBlocked

variable {p : Platform} {cfg cfg' : Config}

theorem sanitize_eq (h : SameBlocked p cfg cfg') (reg : Connections) (requested domain : Text)
    (clientId : ClientId) (wildcard : Bool) :
    sanitizeSubDomainAndPreValidate p cfg reg requested domain clientId wildcard =
      sanitizeSubDomainAndPreValidate p cfg' reg requested domain clientId wildcard := by
  simp only [sanitizeSubDomainAndPreValidate]
  by_cases hvalid : 0 < ((p.toLowercase requested).filter
      fun c => !(p.isAlphanumeric c || c == '-')).length
  · rw [if_pos hvalid, if_pos hvalid]
  · -- only a name that has passed the check of its characters is looked up
    have hrequestable : p.Requestable (p.toLowercase requested) := by
      refine ⟨⟨requested, rfl⟩, ?_⟩
      intro c hc
      by_contra hbad
      refine hvalid (List.length_pos_of_mem (List.mem_filter.mpr ⟨hc, ?_⟩))
      simpa using hbad
    simp only [if_neg hvalid, h.names _ hrequestable]

theorem admitSubDomain_eq (h : SameBlocked p cfg cfg') (reg : Connections) (key : SecretKey)
    (clientId : ClientId) (subDomain domain : Text) (wildcard : Bool) :
    admitSubDomain p cfg reg key clientId subDomain domain wildcard =
      admitSubDomain p cfg' reg key clientId subDomain domain wildcard := by
  unfold admitSubDomain authSubDomain
  rw [h.sanitize_eq, h.masterKey]

theorem authClient_eq (h : SameBlocked p cfg cfg') (reg : Connections) (now : Time)
    (generated : ClientId) (random : Text) (clientHello : Option ClientHello) :
    authClient p cfg reg now generated random clientHello =
      authClient p cfg' reg now generated random clientHello := by
  unfold authClient helloDomain handleReconnectToken
  simp only [h.admitSubDomain_eq, h.allowedHosts, h.masterSigKey]

/-- A server does the same with either. -/
theorem step_eq (h : SameBlocked p cfg cfg') : Server.step p cfg = Server.step p cfg' := by
  funext s e
  cases e with
  | hello n clientIp clientHello now generated random =>
    simp only [Server.step, Server.hello, Server.authClientHandshake, h.ips, h.authClient_eq]
  | ping n now =>
    simp only [Server.step, Server.ping, Server.reconnectToken, h.masterSigKey]
  | accept streamId host =>
    simp only [Server.step, Server.accept, acceptConnection, h.allowedHosts]
  | _ => rfl

end Config.SameBlocked

/-! ### Servers that tell the lists apart -/

namespace Server

variable {p : Platform} {cfg cfg' : Config} {s : Server}

theorem not_blocked_of_handshake {ip : IpAddr} {hello : ClientHello} {now : Time}
    {generated : ClientId} {random requested : Text} {hs : ClientHandshake}
    (h : s.authClientHandshake p cfg ip (some (some hello)) now generated random = some hs)
    (hname : hello.subDomain = some requested) :
    ip ∉ cfg.blockedIps ∧ p.toLowercase requested ∉ cfg.blockedSubDomains := by
  obtain ⟨hip, hello', heq, hauth⟩ := authClientHandshake_eq_some.mp h
  refine ⟨hip, ?_⟩
  obtain ⟨_, key, hhello, -, -, -, ⟨name, hnamed, hadmit⟩ | ⟨token, hnone, -⟩⟩ := authClient_ok hauth
  · obtain rfl := Option.some.inj (Option.some.inj heq)
    obtain rfl := Option.some.inj hhello
    rcases hnamed with hnamed | ⟨hnone, -⟩
    · obtain rfl := Option.some.inj (hname.symm.trans hnamed)
      obtain ⟨hlower, -, hblocked, -⟩ := sanitize_ok (admitSubDomain_ok hadmit).1
      rw [← hlower]
      exact hblocked
    · cases hname.symm.trans hnone
  · obtain rfl := Option.some.inj (Option.some.inj heq)
    obtain rfl := Option.some.inj hhello
    cases hname.symm.trans hnone

/-- A hello for a name, with the key that is asked for. -/
def request (cfg : Config) (name : Text) : ClientHello :=
  ⟨⟨[]⟩, some name, none, .Auth ⟨cfg.masterKey.getD []⟩, none, false⟩

/-- A server that has just been started lets everybody in that is not blocked. -/
theorem new_admits {ip : IpAddr} {requested : Text} (hhosts : cfg.allowedHosts ≠ [])
    (hip : ip ∉ cfg.blockedIps)
    (hvalid : ∀ c ∈ p.toLowercase requested, p.isAlphanumeric c = true ∨ c = '-')
    (hblocked : p.toLowercase requested ∉ cfg.blockedSubDomains) :
    ∃ hs, Server.new.authClientHandshake p cfg ip (some (some (request cfg requested))) 0 ⟨[]⟩
      [] = some hs := by
  obtain ⟨domain, rest, hdomains⟩ := List.exists_cons_of_ne_nil hhosts
  have hdomain : helloDomain cfg none = .ok domain := by rw [helloDomain, hdomains]
  have hkey : (cfg.masterKey.any fun masterKey =>
      decide (cfg.masterKey.getD [] ≠ masterKey)) = false := by
    cases cfg.masterKey <;> simp
  have hadmit : admitSubDomain p cfg Server.new.connections ⟨cfg.masterKey.getD []⟩ ⟨[]⟩ requested
      domain false = .ok ⟨⟨[]⟩, p.toLowercase requested, domain, false, false⟩ := by
    unfold admitSubDomain authSubDomain
    rw [sanitize_of_valid hvalid hblocked, hkey]
    rfl
  refine ⟨⟨⟨[]⟩, p.toLowercase requested, domain, false, false⟩,
    authClientHandshake_eq_some.mpr ⟨hip, _, rfl, ?_⟩⟩
  unfold authClient
  simp only [request, hdomain, hadmit]

/-- The first hello shows whether it was let through. -/
theorem handshake_of_runs {ip : IpAddr} {hello : ClientHello}
    (hsame : ∀ es, (server p cfg).run Server.new es = (server p cfg').run Server.new es) :
    Server.new.authClientHandshake p cfg ip (some (some hello)) 0 ⟨[]⟩ [] =
      Server.new.authClientHandshake p cfg' ip (some (some hello)) 0 ⟨[]⟩ [] := by
  have hrun := hsame [.hello 0 ip (some (some hello)) 0 ⟨[]⟩ []]
  rw [Machine.run_singleton, Machine.run_singleton] at hrun
  have hphase := congrArg (fun t => (t.conns 0).phase) (Option.some.inj hrun)
  simp only [conns_setConn, if_true] at hphase
  cases hfirst : Server.new.authClientHandshake p cfg ip (some (some hello)) 0 ⟨[]⟩ [] with
  | none =>
    cases hsecond : Server.new.authClientHandshake p cfg' ip (some (some hello)) 0 ⟨[]⟩ [] with
    | none => rfl
    | some hs =>
      rw [hfirst, hsecond] at hphase
      cases hphase
  | some hs =>
    cases hsecond : Server.new.authClientHandshake p cfg' ip (some (some hello)) 0 ⟨[]⟩ [] with
    | none =>
      rw [hfirst, hsecond] at hphase
      cases hphase
    | some hs' =>
      rw [hfirst, hsecond] at hphase
      exact congrArg some (Phase.checked.inj hphase)

/-- There is always a name that no list blocks. -/
theorem exists_requestable (p : Platform) (names : List Text) :
    ∃ name, p.toLowercase name = name ∧ p.Requestable name ∧ name ∉ names := by
  obtain ⟨n, hn⟩ := Infinite.exists_notMem_finset (names.map List.length).toFinset
  have hlower : p.toLowercase (List.replicate n '0') = List.replicate n '0' := by
    rw [p.toLowercase_ascii, List.map_replicate]
    · rfl
    · intro c hc
      rw [List.eq_of_mem_replicate hc]
      decide
  refine ⟨List.replicate n '0', hlower, ⟨⟨_, hlower⟩, ?_⟩, ?_⟩
  · intro c hc
    left
    rw [List.eq_of_mem_replicate hc, p.isAlphanumeric_ascii '0' (by decide)]
    rfl
  · intro hmem
    apply hn
    rw [List.mem_toFinset]
    exact List.mem_map.mpr ⟨_, hmem, List.length_replicate⟩

/-- What one of the servers blocks is blocked by the other. -/
theorem blocked_of_runs (hsame : ∀ es, (server p cfg).run Server.new es =
      (server p cfg').run Server.new es) (hhosts : cfg'.allowedHosts ≠ []) {ip : IpAddr}
    {name : Text} (hname : p.Requestable name)
    (hblocked : ip ∈ cfg.blockedIps ∨ name ∈ cfg.blockedSubDomains) :
    ip ∈ cfg'.blockedIps ∨ name ∈ cfg'.blockedSubDomains := by
  by_contra hfree
  rw [not_or] at hfree
  obtain ⟨⟨requested, rfl⟩, hvalid⟩ := hname
  obtain ⟨hs, hadmitted⟩ := new_admits hhosts hfree.1 hvalid hfree.2
  rw [← handshake_of_runs hsame] at hadmitted
  obtain ⟨hip, hunblocked⟩ := not_blocked_of_handshake hadmitted rfl
  exact hblocked.elim hip hunblocked

/-- Servers that differ in what they block only are alike exactly if they block the
    same. -/
theorem runs_eq_iff (hhosts : cfg.allowedHosts ≠ []) (hip : ∃ ip, ip ∉ cfg.blockedIps)
    (hallowed : cfg.allowedHosts = cfg'.allowedHosts)
    (hkey : cfg.masterSigKey = cfg'.masterSigKey) (hmaster : cfg.masterKey = cfg'.masterKey) :
    (∀ es, (server p cfg).run Server.new es = (server p cfg').run Server.new es) ↔
      Config.SameBlocked p cfg cfg' := by
  have hhosts' : cfg'.allowedHosts ≠ [] := hallowed ▸ hhosts
  constructor
  · intro hsame
    have hback := fun es => (hsame es).symm
    -- a name that neither list has tells the addresses apart, and then an address the names
    have hips : ∀ ip, ip ∈ cfg.blockedIps ↔ ip ∈ cfg'.blockedIps := by
      intro ip
      obtain ⟨name, -, hname, hfree⟩ :=
        exists_requestable p (cfg.blockedSubDomains ++ cfg'.blockedSubDomains)
      rw [List.mem_append, not_or] at hfree
      constructor
      · intro h
        exact (blocked_of_runs hsame hhosts' hname (Or.inl h)).resolve_right hfree.2
      · intro h
        exact (blocked_of_runs hback hhosts hname (Or.inl h)).resolve_right hfree.1
    refine ⟨?_, hips, hallowed, hkey, hmaster⟩
    intro name hname
    obtain ⟨ip, hip⟩ := hip
    constructor
    · intro h
      have hip' : ip ∉ cfg'.blockedIps := fun h' => hip ((hips ip).mpr h')
      exact (blocked_of_runs hsame hhosts' hname (Or.inr h)).resolve_left hip'
    · intro h
      exact (blocked_of_runs hback hhosts hname (Or.inr h)).resolve_left hip
  · intro hblocked es
    have hserver : server p cfg = server p cfg' := by
      unfold server
      rw [hblocked.step_eq]
    rw [hserver]

end Server

namespace Config

variable {p : Platform} {env : Variables} {generated : SigKey} {cfg : ServerConfig}

/-- What `from_env` takes from where. -/
theorem fromEnv_eq_some (h : fromEnv p env generated = some cfg) :
    getMasterSigKey p env generated = some cfg.masterSigKey ∧
    cfg.allowedHosts = env.pieces "ALLOWED_HOSTS" ∧
    cfg.blockedSubDomains = env.pieces "BLOCKED_SUB_DOMAINS" ∧
    cfg.blockedIps = (env.pieces "BLOCKED_IPS").filterMap IpAddr.fromStr ∧
    cfg.masterKey = (env "MASTER_API_KEY").or (env "NEUTUN_MASTER_KEY") := by
  simp only [fromEnv, Option.bind_eq_bind, Option.bind_eq_some_iff] at h
  obtain ⟨key, hkey, controlPort, -, remotePort, -, internalNetworkPort, -, hcfg⟩ := h
  obtain rfl := Option.some.inj hcfg
  exact ⟨hkey, rfl, rfl, rfl, rfl⟩

theorem mem_blockedIps (h : fromEnv p env generated = some cfg) {ip : IpAddr} :
    ip ∈ cfg.blockedIps ↔ ∃ piece ∈ env.pieces "BLOCKED_IPS", IpAddr.fromStr piece = some ip := by
  rw [(fromEnv_eq_some h).2.2.2.1, List.mem_filterMap]

end Config

open Server in
/-- Two servers that are started with the same variables but for what they block are
    alike in every run exactly if the same pieces of `BLOCKED_SUB_DOMAINS` are names
    that can be requested, and the addresses that pieces of `BLOCKED_IPS` stand for are
    the same: no other piece has any effect. -/
theorem blocked_variables_iff (p : Platform) (env env' : Variables) (generated : SigKey)
    (cfg cfg' : ServerConfig) (hcfg : Config.fromEnv p env generated = some cfg)
    (hcfg' : Config.fromEnv p env' generated = some cfg')
    (hrest : ∀ var, var ≠ "BLOCKED_SUB_DOMAINS" → var ≠ "BLOCKED_IPS" → env' var = env var)
    (hhosts : cfg.allowedHosts ≠ []) (hip : ∃ ip, ip ∉ cfg.blockedIps) :
    (∀ es, (server p cfg.toConfig).run Server.new es =
        (server p cfg'.toConfig).run Server.new es) ↔
      (∀ name, p.Requestable name → (name ∈ env.pieces "BLOCKED_SUB_DOMAINS" ↔
        name ∈ env'.pieces "BLOCKED_SUB_DOMAINS")) ∧
      ∀ ip, (∃ piece ∈ env.pieces "BLOCKED_IPS", IpAddr.fromStr piece = some ip) ↔
        ∃ piece ∈ env'.pieces "BLOCKED_IPS", IpAddr.fromStr piece = some ip := by
  obtain ⟨hkey, hallowed, hnames, -, hmaster⟩ := Config.fromEnv_eq_some hcfg
  obtain ⟨hkey', hallowed', hnames', -, hmaster'⟩ := Config.fromEnv_eq_some hcfg'
  have hsameHosts : cfg.allowedHosts = cfg'.allowedHosts := by
    rw [hallowed, hallowed', Variables.pieces, Variables.pieces,
      hrest "ALLOWED_HOSTS" (by decide) (by decide)]
  have hsameKey : cfg.masterSigKey = cfg'.masterSigKey := by
    rw [getMasterSigKey, hrest "MASTER_SIG_KEY" (by decide) (by decide), ← getMasterSigKey,
      hkey] at hkey'
    exact Option.some.inj hkey'
  have hsameMaster : cfg.masterKey = cfg'.masterKey := by
    rw [hmaster, hmaster', hrest "MASTER_API_KEY" (by decide) (by decide),
      hrest "NEUTUN_MASTER_KEY" (by decide) (by decide)]
  simp only [← Config.mem_blockedIps hcfg, ← Config.mem_blockedIps hcfg', ← hnames, ← hnames']
  rw [runs_eq_iff hhosts hip hsameHosts hsameKey hsameMaster]
  constructor
  · intro hblocked
    exact ⟨hblocked.names, hblocked.ips⟩
  · rintro ⟨hsameNames, hips⟩
    exact ⟨hsameNames, hips, hsameHosts, hsameKey, hsameMaster⟩

namespace Blank

/-- A blank after the comma. -/
def listed : Variables
  | "ALLOWED_HOSTS" => some "b.co".toList
  | "BLOCKED_SUB_DOMAINS" => some "www, mail".toList
  | _ => none

def unlisted : Variables
  | "ALLOWED_HOSTS" => some "b.co".toList
  | "BLOCKED_SUB_DOMAINS" => some "www".toList
  | _ => none

end Blank

open AnnouncedHost Server Blank in
/-- The name after the blank is not blocked: without it the server is the same. -/
theorem blocked_variables_iff_blank : ∃ cfg cfg' : ServerConfig,
    Config.fromEnv Platform.ascii listed config.masterSigKey = some cfg ∧
    Config.fromEnv Platform.ascii unlisted config.masterSigKey = some cfg' ∧
    cfg.blockedSubDomains = ["www".toList, " mail".toList] ∧
    cfg'.blockedSubDomains = ["www".toList] ∧
    ∀ es, (server Platform.ascii cfg.toConfig).run Server.new es =
      (server Platform.ascii cfg'.toConfig).run Server.new es := by
  obtain ⟨cfg, cfg', hcfg, hcfg', hnames, hnames', hhosts, hips, hpieces, hpieces'⟩ :
      ∃ cfg cfg' : ServerConfig,
        Config.fromEnv Platform.ascii listed config.masterSigKey = some cfg ∧
        Config.fromEnv Platform.ascii unlisted config.masterSigKey = some cfg' ∧
        cfg.blockedSubDomains = ["www".toList, " mail".toList] ∧
        cfg'.blockedSubDomains = ["www".toList] ∧ cfg.allowedHosts = ["b.co".toList] ∧
        cfg.blockedIps = [] ∧
        listed.pieces "BLOCKED_SUB_DOMAINS" = ["www".toList, " mail".toList] ∧
        unlisted.pieces "BLOCKED_SUB_DOMAINS" = ["www".toList] :=
    ⟨_, _, rfl, rfl, by decide, by decide, by decide, rfl, by decide, by decide⟩
  refine ⟨cfg, cfg', hcfg, hcfg', hnames, hnames', ?_⟩
  refine (blocked_variables_iff Platform.ascii listed unlisted _ cfg cfg' hcfg hcfg' ?_ ?_
    ⟨.V4 0, by rw [hips]; exact List.not_mem_nil⟩).mpr ⟨?_, fun ip => Iff.rfl⟩
  · intro var hnames hips
    unfold listed unlisted
    split <;> simp_all
  · rw [hhosts]
    exact List.cons_ne_nil _ _
  · rintro name ⟨-, hvalid⟩
    rw [hpieces, hpieces']
    refine ⟨fun hmem => ?_, fun hmem => List.mem_cons.mpr (Or.inl (List.mem_singleton.mp hmem))⟩
    rcases List.mem_cons.mp hmem with rfl | hmail
    · exact List.mem_singleton_self _
    · -- the blank is no character of a name
      obtain rfl := List.mem_singleton.mp hmail
      exact absurd (hvalid ' ' (by decide)) (by decide)

end Neutun
