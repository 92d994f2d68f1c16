/-
  Neutun/Server/Admission.lean
  ============================
  Who gets a tunnel, and for what.

    * With a master key configured, every registered client stated the key or
      presented a token of this server's, and every other hello is refused
      without a trace in the registry (`no_unauthenticated_tunnel`).
    * A blocked subdomain is refused on the path of requested names only.
      Wildcard clients and clients with a token draw its connections all the
      same (`blocked_never_served`).
-/
import Neutun.Server.Refinement

namespace Neutun

open Foundation

variable {p : Platform} {cfg : Config}

/-! ### Where a handshake comes from -/

/-- What a hello must bring when the server has the master key `k`: the key, or a
    token of the server's.  The token then says who the client is. -/
inductive Authenticated (p : Platform) (cfg : Config) (k : Text) (now : Time)
    (hello : ClientHello) (id : ClientId) (subDomain : Text) : Prop
  | key (hkey : hello.clientType = .Auth ⟨k⟩)
      (hname : hello.subDomain = none → hello.reconnectToken = none)
  | token (key : SecretKey) (token : ReconnectToken) (payload : ReconnectTokenPayload)
      (hkey : hello.clientType = .Auth key) (hname : hello.subDomain = none)
      (htoken : hello.reconnectToken = some token)
      (hverify : ReconnectTokenPayload.verify p token cfg.masterSigKey now = .ok payload)
      (hid : id = payload.clientId) (hsub : subDomain = payload.subDomain)

theorem admitSubDomain_key {reg : Connections} {key : SecretKey} {clientId : ClientId}
    {subDomain domain k : Text} {wildcard : Bool} {hs : ClientHandshake}
    (hcfg : cfg.masterKey = some k)
    (h : admitSubDomain p cfg reg key clientId subDomain domain wildcard = .ok hs) :
    key = ⟨k⟩ := by
  by_contra hne
  have htext : key.text ≠ k := fun heq => hne (by cases key; exact congrArg SecretKey.mk heq)
  unfold admitSubDomain at h
  split at h
  · cases h
  · simp [authSubDomain, hcfg, htext] at h

/-- Nothing passes `auth_client` without the key or a token. -/
theorem authClient_authenticated {reg : Connections} {now : Time} {generated : ClientId}
    {random k : Text} {hello : ClientHello} {hs : ClientHandshake}
    (hcfg : cfg.masterKey = some k)
    (h : authClient p cfg reg now generated random (some hello) = .ok hs) :
    (∀ d, hello.domain = some d → d ∈ cfg.allowedHosts) ∧
      Authenticated p cfg k now hello hs.id hs.subDomain := by
  obtain ⟨hello', key, heq, hkey, hdomain, -, hpath⟩ := authClient_ok h
  obtain rfl : hello = hello' := Option.some.inj heq
  refine ⟨helloDomain_requested hdomain, ?_⟩
  rcases hpath with ⟨name, hname, hadmit⟩ | ⟨token, hsub, htoken, hrec⟩
  · obtain rfl := admitSubDomain_key hcfg hadmit
    refine .key hkey ?_
    intro hnone
    rcases hname with hsome | ⟨-, htoken, -⟩
    · rw [hnone] at hsome
      cases hsome
    · exact htoken
  · obtain ⟨payload, hverify, hshape, -⟩ := handleReconnectToken_ok hrec
    exact .token key token payload hkey hsub htoken hverify (by rw [hshape]) (by rw [hshape])

namespace Server

variable {s t : Server}

/-- The step that lets a hello through with this handshake. -/
def Admits (p : Platform) (cfg : Config) (s : Server) (n : Nat) (hs : ClientHandshake)
    (e : ServerEvent) : Prop :=
  ∃ clientIp hello now generated random,
    e = .hello n clientIp (some (some hello)) now generated random ∧
      s.authClientHandshake p cfg clientIp (some (some hello)) now generated random = some hs

/-- The handshakes of a state are those of the state before and the one that
    the step has let through. -/
theorem admits_step (hwf : s.WellFormed) {e : ServerEvent} (h : s.step p cfg e = some t) {n : Nat}
    {hs : ClientHandshake} (hn : (t.conns n).stage.handshake = some hs) :
    (s.conns n).stage.handshake = some hs ∨ s.Admits p cfg n hs e := by
  have hkept := lifecycle_kept (P := fun l => (l.stage n).handshake = some hs →
    (s.conns n).stage.handshake = some hs ∨ s.Admits p cfg n hs e) hwf h Or.inl
  refine hkept ?_ hn
  intro le l hle hlife hl
  rcases Lifecycle.handshake_step hlife hl with hold | rfl
  · exact Or.inl hold
  · obtain ⟨clientIp, clientHello, now, generated, random, rfl, hok⟩ := lifecycleEvent_cases hle
    obtain ⟨-, hello, rfl, -⟩ := authClientHandshake_eq_some.mp hok
    exact Or.inr ⟨clientIp, hello, now, generated, random, rfl, hok⟩

/-- Behind each registered client of a run is a hello of the run. -/
theorem admitted_of_registered {es : List ServerEvent}
    (hrun : (server p cfg).run Server.new es = some t) {c : ConnectedClient}
    (hc : t.connections.Registered c) :
    ∃ fs e gs u hs, es = fs ++ e :: gs ∧ (server p cfg).run Server.new fs = some u ∧
      u.Admits p cfg c.tx hs e ∧ c = hs.client c.tx := by
  obtain ⟨hs, hphase, hclient⟩ := (wellFormed_run hrun).served hc
  obtain ⟨fs, e, gs, u, hes, hu, -, hadmits⟩ := Machine.run_origin (I := WellFormed)
    (P := fun v => (v.conns c.tx).stage.handshake = some hs)
    (fun _ _ _ hI hv => wellFormed_step hI hv) (fun _ _ _ hI hv => admits_step hI hv)
    wellFormed_new (fun hnew => nomatch hnew) hrun
    (Stage.handshake_of_added (Conn.added_stage.mpr hphase))
  exact ⟨fs, e, gs, u, hs, hes, hu, hadmits, hclient⟩

/-- A connection that was refused is never registered. -/
theorem not_registered_of_rejected (hwf : s.WellFormed) {n : Nat}
    (hn : (s.conns n).phase = .rejected) {es : List ServerEvent}
    (hrun : (server p cfg).run s es = some t) {c : ConnectedClient}
    (hc : t.connections.Registered c) : c.tx ≠ n := by
  have hstage : (s.conns n).stage = .rejected := by rw [Conn.stage, hn]
  obtain ⟨hwf', hrejected⟩ := Machine.run_invariant
    (I := fun u => u.WellFormed ∧ (u.conns n).stage = .rejected) (G := fun _ _ => True)
    (fun _ _ _ hI _ hu => ⟨wellFormed_step hI.1 hu,
      lifecycle_kept (P := fun l => l.stage n = .rejected) hI.1 hu hI.2
        fun _ _ _ hlife => Lifecycle.rejected_step hlife hI.2⟩)
    ⟨hwf, hstage⟩ (Machine.meets_true _ _) hrun
  rintro rfl
  obtain ⟨hs, hphase, -⟩ := hwf'.served hc
  simp [Conn.stage, hphase] at hrejected
  split at hrejected <;> cases hrejected

end Server

/-! ### No unauthenticated tunnel -/

open Server

/-- With a master key, whoever is registered stated it or presented a token; any
    other hello is refused, and its connection never reaches the registry. -/
theorem no_unauthenticated_tunnel (p : Platform) (cfg : Config) (k : Text)
    (hcfg : cfg.masterKey = some k) (es : List ServerEvent) (t : Server)
    (hrun : (server p cfg).run Server.new es = some t) :
    (∀ c, t.connections.Registered c →
        ∃ fs gs u clientIp hello now generated random,
          es = fs ++ .hello c.tx clientIp (some (some hello)) now generated random :: gs ∧
            (server p cfg).run Server.new fs = some u ∧
            authClient p cfg u.connections now generated random (some hello) =
              .ok ⟨c.id, c.host, c.domain, c.isAnonymous, c.wildcard⟩ ∧
            Authenticated p cfg k now hello c.id c.host) ∧
      ∀ n clientIp clientHello now generated random u,
        t.step p cfg (.hello n clientIp clientHello now generated random) = some u →
        (∀ hello, clientHello = some (some hello) → ∀ id subDomain,
          (∀ d, hello.domain = some d → d ∈ cfg.allowedHosts) →
            ¬ Authenticated p cfg k now hello id subDomain) →
        (∀ hello, clientHello = some hello →
            ∃ refusal, authClient p cfg t.connections now generated random hello =
              .error refusal) ∧
          u.connections = t.connections ∧
          ∀ fs v, (server p cfg).run u fs = some v → ∀ c, v.connections.Registered c →
            c.tx ≠ n := by
  constructor
  · intro c hc
    obtain ⟨fs, e, gs, u, hs, hes, hu, ⟨clientIp, hello, now, generated, random, rfl, hok⟩,
      hclient⟩ := admitted_of_registered hrun hc
    obtain ⟨-, _, ⟨⟩, hauth⟩ := authClientHandshake_eq_some.mp hok
    have hid : c.id = hs.id := by rw [hclient]; rfl
    have hhost : c.host = hs.subDomain := by rw [hclient]; rfl
    refine ⟨fs, gs, u, clientIp, hello, now, generated, random, hes, hu, ?_, ?_⟩
    · rw [hauth, hclient]
      rfl
    · rw [hid, hhost]
      exact (authClient_authenticated hcfg hauth).2
  · intro n clientIp clientHello now generated random u hstep hother
    obtain ⟨-, hu⟩ := hello_cases hstep
    have hrefused : ∀ hello, clientHello = some hello →
        ∃ refusal, authClient p cfg t.connections now generated random hello =
          .error refusal := by
      rintro (_ | hello) hhello
      · exact ⟨.AuthFailed, rfl⟩
      · cases hauth : authClient p cfg t.connections now generated random (some hello) with
        | error refusal => exact ⟨refusal, rfl⟩
        | ok hs =>
          obtain ⟨hdomain, hauthentic⟩ := authClient_authenticated hcfg hauth
          exact absurd hauthentic (hother hello hhello _ _ hdomain)
    have hnone :
        t.authClientHandshake p cfg clientIp clientHello now generated random = none := by
      rw [Option.eq_none_iff_forall_ne_some]
      intro hs hsome
      obtain ⟨-, hello, hhello, hauth⟩ := authClientHandshake_eq_some.mp hsome
      obtain ⟨refusal, herror⟩ := hrefused (some hello) hhello
      rw [hauth] at herror
      cases herror
    rw [hnone] at hu
    have hwf : u.WellFormed := wellFormed_step (wellFormed_run hrun) hstep
    have hphase : (u.conns n).phase = .rejected := by
      rw [hu, conns_setConn, if_pos rfl]
      rfl
    refine ⟨hrefused, by rw [hu]; rfl, ?_⟩
    intro fs v hv c hc
    exact not_registered_of_rejected hwf hphase hv hc

namespace AnnouncedHost

/-- The client "a" of "b.co" connects and is registered. -/
def registration : List ServerEvent :=
  [.hello 0 (.V4 0) (some (some (hello "a".toList))) 0 ⟨['1']⟩ [], .greet 0 true, .register 0]

def anonymousHello : ClientHello := { hello "b".toList with clientType := .Anonymous }

end AnnouncedHost

open AnnouncedHost in
/-- A client that states the key is registered, one that states none is refused. -/
theorem no_unauthenticated_tunnel_key :
    ∃ t, (server Platform.ascii config).run Server.new registration = some t ∧
      (∃ now hello id, Authenticated Platform.ascii config "k".toList now hello id "a".toList) ∧
      ∃ refusal, authClient Platform.ascii config t.connections 0 ⟨['2']⟩ []
        (some anonymousHello) = .error refusal := by
  obtain ⟨t, u, hrun, hreg, hstep⟩ : ∃ t u,
      (server Platform.ascii config).run Server.new registration = some t ∧
        t.connections.findByHost "a.b.co".toList = some ((handshake ['a']).client 0) ∧
        t.step Platform.ascii config
          (.hello 1 (.V4 0) (some (some anonymousHello)) 0 ⟨['2']⟩ []) = some u :=
    ⟨_, _, rfl, by rfl, rfl⟩
  obtain ⟨hregistered, hrefused⟩ :=
    no_unauthenticated_tunnel Platform.ascii config "k".toList rfl registration t hrun
  refine ⟨t, hrun, ?_, ?_⟩
  · obtain ⟨-, -, -, -, hello, now, -, -, -, -, -, hauthentic⟩ := hregistered _ (Or.inr ⟨_, hreg⟩)
    exact ⟨now, hello, _, hauthentic⟩
  · refine (hrefused 1 _ _ _ _ _ u hstep ?_).1 _ rfl
    rintro hello ⟨⟩ id subDomain - (⟨⟨⟩, -⟩ | ⟨_, _, _, ⟨⟩, _⟩)

/-! ### Blocked subdomains -/

/-- A `Host` header of the form `s.d`, with or without a port. -/
def HostHeader (subDomain domain header : Text) : Prop :=
  header = joinHost subDomain domain ∨ ∃ port, header = joinHost subDomain domain ++ ':' :: port

/-- A header that names a blocked subdomain of an allowed host. -/
def BlockedHeader (cfg : Config) (header : Text) : Prop :=
  ∃ subDomain ∈ cfg.blockedSubDomains, ∃ domain ∈ cfg.allowedHosts,
    HostHeader subDomain domain header

/-- `accept_connection` would look for this client to serve the header. -/
def ConnectedClient.Draws (cfg : Config) (c : ConnectedClient) (header : Text) : Prop :=
  hostNoPort header ∉ cfg.allowedHosts ∧ ∃ subDomain domain,
    splitHost cfg.allowedHosts (hostNoPort header) = some (subDomain, domain) ∧
      subDomain ≠ "wormhole".toList ∧
      (c.fullHost = hostNoPort header ∨ c.wildcard = true ∧ c.domain = domain)

theorem draws_of_forward {reg : Connections} (hfiled : reg.Filed) {header : Text}
    {c : ConnectedClient} (h : acceptConnection cfg reg header = .Forward c) :
    reg.Registered c ∧ c.Draws cfg header := by
  obtain ⟨hallowed, subDomain, domain, hsplit, hcontrol, hclient⟩ := acceptConnection_eq_forward h
  rcases hclient with hhost | ⟨-, hwild⟩
  · exact ⟨Or.inr ⟨_, hhost⟩, hallowed, subDomain, domain, hsplit, hcontrol,
      Or.inl (hfiled.secondary _ c hhost)⟩
  · obtain ⟨hreg, hwildcard⟩ := Connections.findWildcard_eq_some hwild
    exact ⟨Or.inl hreg, hallowed, subDomain, domain, hsplit, hcontrol, Or.inr hwildcard⟩

/-- A registered client that draws the header has it served, by itself or by a
    client that comes before it. -/
theorem forward_of_draws {reg : Connections} {header : Text} {c : ConnectedClient}
    (hget : reg.get c.id = some c) (hhost : reg.findByHost c.fullHost = some c)
    (h : c.Draws cfg header) : ∃ c', acceptConnection cfg reg header = .Forward c' := by
  obtain ⟨hallowed, subDomain, domain, hsplit, hcontrol, hdraws⟩ := h
  obtain ⟨-, hjoin⟩ := splitHost_eq_some hsplit
  simp only [acceptConnection, validateHostPrefix_eq, if_neg hallowed, hsplit, if_neg hcontrol]
  rw [← hjoin]
  cases hfind : reg.findByHost (hostNoPort header) with
  | some c' => exact ⟨c', rfl⟩
  | none =>
    cases hwild : reg.findWildcard domain with
    | some c' => exact ⟨c', rfl⟩
    | none =>
      exfalso
      rcases hdraws with heq | ⟨hw, hd⟩
      · rw [← heq, hhost] at hfind
        cases hfind
      · exact Connections.findWildcard_eq_none.mp hwild c.id c hget hw hd

namespace Server

/-- No connection to a blocked subdomain is forwarded to a client. -/
def KeepsBlocked (cfg : Config) (s : Server) : Prop :=
  ∀ header, BlockedHeader cfg header →
    ∀ c, acceptConnection cfg s.connections header ≠ .Forward c

/-- A hello that is let through does not ask for connections to a blocked
    subdomain, neither by its name nor as a wildcard. -/
def Unblocked (p : Platform) (cfg : Config) (s : Server) : ServerEvent → Prop
  | .hello n clientIp clientHello now generated random => ∀ hs,
      s.authClientHandshake p cfg clientIp clientHello now generated random = some hs →
      ∀ header, BlockedHeader cfg header → ¬ (hs.client n).Draws cfg header
  | _ => True

/-- Neither the registered clients nor those about to be ask for a blocked
    subdomain. -/
def NoneDraws (cfg : Config) (s : Server) : Prop :=
  ∀ n hs, (s.conns n).stage.handshake = some hs →
    ∀ header, BlockedHeader cfg header → ¬ (hs.client n).Draws cfg header

variable {s t : Server}

theorem noneDraws_step (hwf : s.WellFormed) (hs : s.NoneDraws cfg) {e : ServerEvent}
    (hunblocked : s.Unblocked p cfg e) (h : s.step p cfg e = some t) : t.NoneDraws cfg := by
  intro n hs' hn header hblocked
  rcases admits_step hwf h hn with hold | ⟨clientIp, hello, now, generated, random, rfl, hok⟩
  · exact hs n hs' hold header hblocked
  · exact hunblocked hs' hok header hblocked

theorem keepsBlocked_of_noneDraws (hwf : s.WellFormed) (hs : s.NoneDraws cfg) :
    s.KeepsBlocked cfg := by
  intro header hblocked c hfwd
  obtain ⟨hreg, hdraws⟩ := draws_of_forward hwf.sound.filed hfwd
  obtain ⟨h, hadded, hclient⟩ := hwf.sound.owner c hreg
  exact hs c.tx h (Stage.handshake_of_added hadded) header hblocked (hclient ▸ hdraws)

/-- A hello that is let through for a blocked subdomain is served it as soon as
    it is greeted and registered. -/
theorem not_keepsBlocked_of_draws {e : ServerEvent} (h : s.step p cfg e = some t)
    (hdraws : ¬ s.Unblocked p cfg e) :
    ∃ es u, (server p cfg).run t es = some u ∧ ¬ u.KeepsBlocked cfg := by
  cases e with
  | hello n clientIp clientHello now generated random =>
    simp only [Unblocked, not_forall, not_not] at hdraws
    obtain ⟨hs, hok, header, hblocked, hdraws⟩ := hdraws
    obtain ⟨-, ht⟩ := hello_cases h
    rw [hok] at ht
    have htn : (t.conns n).phase = .checked hs := by
      rw [ht, conns_setConn, if_pos rfl]
      rfl
    obtain ⟨u, hu, hun, -⟩ := greet_checked p cfg htn
    obtain ⟨v, hv, -, -, hvreg⟩ := register_announced p cfg hun
    refine ⟨[.greet n true, .register n], v, ?_, ?_⟩
    · exact (Machine.run_cons_eq_some _).mpr ⟨u, hu, (Machine.run_singleton _ _ _).trans hv⟩
    · intro hkeeps
      have hget : v.connections.get (hs.client n).id = some (hs.client n) := by
        rw [hvreg, Connections.get_add, if_pos rfl]
      have hhost : v.connections.findByHost (hs.client n).fullHost = some (hs.client n) := by
        rw [hvreg, Connections.findByHost_add, if_pos rfl]
      obtain ⟨c, hc⟩ := forward_of_draws hget hhost hdraws
      exact hkeeps header hblocked c hc
  | _ => exact absurd trivial hdraws

end Server

/-- The first label of a name. -/
theorem label_append_dot {label : Text} (h : '.' ∉ label) (rest : Text) :
    (label ++ '.' :: rest).takeWhile (fun c => !(c == '.')) = label := by
  have hall : ∀ c ∈ label, (!(c == '.')) = true := by
    intro c hc
    have hne : c ≠ '.' := fun heq => h (heq ▸ hc)
    simpa using hne
  rw [List.takeWhile_append_of_pos hall]
  simp

/-- A host under a blocked label begins with that label. -/
theorem label_of_hostHeader {subDomain domain header label rest : Text}
    (hheader : HostHeader subDomain domain header) (hsub : '.' ∉ subDomain) (hlabel : '.' ∉ label)
    (h : hostNoPort header = label ++ '.' :: rest) : label = subDomain := by
  obtain ⟨tail, rfl⟩ : ∃ tail, header = subDomain ++ '.' :: tail := by
    rcases hheader with rfl | ⟨port, rfl⟩
    · exact ⟨domain, rfl⟩
    · exact ⟨domain ++ ':' :: port, by simp [joinHost]⟩
  unfold hostNoPort at h
  rw [List.takeWhile_append] at h
  split at h
  · rw [List.takeWhile_cons_of_pos (by decide)] at h
    have hlabels := congrArg (List.takeWhile fun c => !(c == '.')) h
    rw [label_append_dot hsub, label_append_dot hlabel] at hlabels
    exact hlabels.symm
  · -- the name is cut short inside its first label, so it has no dot
    have hdot : '.' ∈ subDomain.takeWhile fun c => !(c == ':') := by rw [h]; simp
    exact absurd ((List.takeWhile_prefix _).subset hdot) hsub

/-- A requested name without the wildcard flag does not ask for connections to a
    blocked subdomain, if those are single labels. -/
theorem admitSubDomain_not_draws {reg : Connections} {key : SecretKey} {clientId : ClientId}
    {requested domain : Text} {hs : ClientHandshake}
    (h : admitSubDomain p cfg reg key clientId requested domain false = .ok hs)
    (hlabels : ∀ b ∈ cfg.blockedSubDomains, '.' ∉ b) {header : Text}
    (hblocked : BlockedHeader cfg header) (n : Nat) : ¬ (hs.client n).Draws cfg header := by
  obtain ⟨hsan, hshape⟩ := admitSubDomain_ok h
  obtain ⟨-, hchars, hfree, -⟩ := sanitize_ok hsan
  have hname : '.' ∉ hs.subDomain := dot_not_mem hchars
  obtain ⟨subDomain, hsub, d, -, hheader⟩ := hblocked
  rintro ⟨-, -, -, -, -, hhost | ⟨hwild, -⟩⟩
  · apply hfree
    rw [label_of_hostHeader hheader (hlabels _ hsub) hname hhost.symm]
    exact hsub
  · rw [hshape] at hwild
    cases hwild

/-- Blocked subdomains stay off the tunnels in every run whose hellos are let
    through neither for one of them nor as a wildcard over one; each hello that
    is leads to a connection that is forwarded.  Requested names are of the first
    kind only if a blocked subdomain has several labels. -/
theorem blocked_never_served (p : Platform) (cfg : Config) :
    (∀ es t, (server p cfg).run Server.new es = some t →
        (server p cfg).Meets (Server.Unblocked p cfg) Server.new es →
        (server p cfg).Always (KeepsBlocked cfg) Server.new es) ∧
      (∀ (s t : Server) (e : ServerEvent), s.step p cfg e = some t → ¬ s.Unblocked p cfg e →
        ∃ es u, (server p cfg).run t es = some u ∧ ¬ u.KeepsBlocked cfg) ∧
      ∀ (reg : Connections) (now : Time) (generated : ClientId) (random : Text)
        (hello : ClientHello) (hs : ClientHandshake) (n : Nat) (header : Text),
        authClient p cfg reg now generated random (some hello) = .ok hs →
        BlockedHeader cfg header → (hs.client n).Draws cfg header →
        hello.wildcard = true ∨ (∃ b ∈ cfg.blockedSubDomains, '.' ∈ b) ∨
          hello.subDomain = none ∧ ∃ token, hello.reconnectToken = some token := by
  refine ⟨?_, fun s t e => not_keepsBlocked_of_draws, ?_⟩
  · intro es t _ hunblocked
    have halways := Machine.always_of_invariant
      (I := fun s : Server => s.WellFormed ∧ s.NoneDraws cfg)
      (fun s e u hI hg hu => ⟨wellFormed_step hI.1 hu, noneDraws_step hI.1 hI.2 hg hu⟩)
      ⟨wellFormed_new, fun _ _ hnew => nomatch hnew⟩ hunblocked
    exact halways.mono fun s hs => keepsBlocked_of_noneDraws hs.1 hs.2
  · intro reg now generated random hello hs n header hauth hblocked hdraws
    by_contra hnot
    simp only [not_or, not_exists, not_and, Bool.not_eq_true] at hnot
    obtain ⟨hwild, hlabels, hpath⟩ := hnot
    obtain ⟨hello', key, ⟨⟩, -, -, -, ⟨name, -, hadmit⟩ | ⟨token, hsub, htoken, -⟩⟩ :=
      authClient_ok hauth
    · rw [hwild] at hadmit
      exact admitSubDomain_not_draws hadmit hlabels hblocked n hdraws
    · exact hpath hsub token htoken

namespace Blocked

open AnnouncedHost

/-- The name "www" is blocked. -/
def config : Config := { AnnouncedHost.config with blockedSubDomains := ["www".toList] }

def hello (wildcard : Bool) : ClientHello :=
  { AnnouncedHost.hello "a".toList with wildcard := wildcard }

/-- The client "a" of "b.co" connects, as a wildcard or not. -/
def registration (wildcard : Bool) : List ServerEvent :=
  [.hello 0 (.V4 0) (some (some (hello wildcard))) 0 ⟨['1']⟩ [], .greet 0 true, .register 0]

end Blocked

/-- The client "a" does not get the connections to "www". -/
theorem blocked_never_served_plain :
    ∃ t, (server Platform.ascii Blocked.config).run Server.new (Blocked.registration false) =
        some t ∧ t.KeepsBlocked Blocked.config := by
  refine ⟨_, rfl, ?_⟩
  have hmeets : (server Platform.ascii Blocked.config).Meets
      (Server.Unblocked Platform.ascii Blocked.config) Server.new (Blocked.registration false) := by
    refine .cons ?_ rfl (.cons trivial rfl (.cons trivial rfl trivial))
    intro hs hok header hblocked hdraws
    obtain ⟨-, _, ⟨⟩, hauth⟩ := Server.authClientHandshake_eq_some.mp hok
    rcases (blocked_never_served _ _).2.2 _ _ _ _ _ hs 0 header hauth hblocked hdraws with
      hwild | ⟨b, hb, hdot⟩ | ⟨hsub, -⟩
    · cases hwild
    · obtain rfl := List.mem_singleton.mp hb
      exact absurd hdot (by decide)
    · cases hsub
  exact ((blocked_never_served _ _).1 _ _ rfl hmeets).last rfl

/-- The wildcard client "a" gets the connections to "www". -/
theorem blocked_served :
    ∃ t c, (server Platform.ascii Blocked.config).run Server.new (Blocked.registration true) =
        some t ∧ BlockedHeader Blocked.config "www.b.co".toList ∧
      acceptConnection Blocked.config t.connections "www.b.co".toList = .Forward c ∧
      c.wildcard = true :=
  ⟨_, _, rfl, ⟨_, List.mem_cons_self, _, List.mem_cons_self, Or.inl rfl⟩, rfl, rfl⟩

end Neutun
