/-
  Neutun/Server/Taken.lean
  ========================
  What `/api/taken` says is taken, and who gets the remote connections.

  The list shows a wildcard client by its domain and any other by its full host.  It
  is made from `clients`, while `accept_connection` asks `hosts` first and does not
  read the list.  Under the conditions of exclusive names the two agree.
-/
import Neutun.Server.Admission
import Neutun.Server.Ownership
import Neutun.Server.Wildcards

namespace Neutun

open Foundation

/-! ### The list -/

/-- How `/api/taken` shows a client. -/
def ConnectedClient.shown (c : ConnectedClient) : Text :=
  if c.wildcard then "*.".toList ++ c.domain else joinHost c.host c.domain

namespace Connections

def getAllClients (reg : Connections) : List ConnectedClient := Table.values reg.clients

/-- `list_taken` -/
def listTaken (reg : Connections) : List Text := reg.getAllClients.map ConnectedClient.shown

end Connections

/-! ### Names that were checked -/

/-- The name of the handshake is a single label, of an allowed domain. -/
structure ClientHandshake.Labelled (cfg : Config) (h : ClientHandshake) : Prop where
  noDot : '.' ∉ h.subDomain
  noStar : '*' ∉ h.subDomain
  allowed : h.domain ∈ cfg.allowedHosts

/-- The first labels of a host are the same, and so is what follows. -/
theorem joinHost_inj {a b d e : Text} (ha : '.' ∉ a) (hb : '.' ∉ b)
    (h : joinHost a d = joinHost b e) : a = b ∧ d = e := by
  have hlabel : a = b := by
    calc a = (joinHost a d).takeWhile (fun c => !(c == '.')) := (label_append_dot ha d).symm
      _ = (joinHost b e).takeWhile (fun c => !(c == '.')) := by rw [h]
      _ = b := label_append_dot hb e
  subst hlabel
  exact ⟨rfl, (List.cons.inj (List.append_cancel_left h)).2⟩

namespace Server

variable {p : Platform} {cfg : Config} {s t : Server}

theorem labelled_of_ok {clientIp : IpAddr} {clientHello : Option (Option ClientHello)}
    {now : Time} {generated : ClientId} {random : Text} {h : ClientHandshake}
    (hok : s.authClientHandshake p cfg clientIp clientHello now generated random = some h)
    (htoken : ∀ hello, clientHello = some (some hello) → hello.reconnectToken = none) :
    h.Labelled cfg := by
  obtain ⟨-, hello, rfl, hauth⟩ := authClientHandshake_eq_some.mp hok
  obtain ⟨_, key, hhello, -, hdomain, -, ⟨name, -, hadmit⟩ | ⟨token, -, htok, -⟩⟩ :=
    authClient_ok hauth
  · obtain ⟨-, hchars, -⟩ := sanitize_ok (admitSubDomain_ok hadmit).1
    refine ⟨dot_not_mem hchars, ?_, helloDomain_ok hdomain⟩
    intro hstar
    rcases hchars '*' hstar with halnum | heq
    · rw [p.isAlphanumeric_ascii '*' (by decide)] at halnum
      exact absurd halnum (by decide)
    · exact absurd heq (by decide)
  · rw [← Option.some.inj hhello, htoken hello rfl] at htok
    cases htok

/-- All that was let through was checked. -/
def Labelled (cfg : Config) (s : Server) : Prop :=
  ∀ n h, (s.lifecycle.stage n).handshake = some h → h.Labelled cfg

theorem labelled_step (hwf : s.WellFormed) (hs : s.Labelled cfg) {e : ServerEvent}
    (hfresh : s.FreshHello e) (h : s.step p cfg e = some t) : t.Labelled cfg := by
  refine lifecycle_kept (P := fun l => ∀ n h, (l.stage n).handshake = some h → h.Labelled cfg)
    hwf h hs ?_
  intro le l hle hlife n hn hstage
  rcases Lifecycle.handshake_step hlife hstage with hold | rfl
  · exact hs n hn hold
  · obtain ⟨clientIp, clientHello, now, generated, random, rfl, hresult⟩ := lifecycleEvent_cases hle
    refine labelled_of_ok hresult ?_
    rintro hello rfl
    exact hfresh.1

/-- What the conditions of exclusive names keep. -/
structure Orderly (cfg : Config) (s : Server) : Prop where
  wellFormed : s.WellFormed
  claims : s.lifecycle.Claims
  labelled : s.Labelled cfg

theorem orderly_names_run {es : List ServerEvent}
    (hfresh : (server p cfg).Meets (fun s e => s.FreshHello e ∧ s.PongInTime e) Server.new es)
    (hunraced : (server p cfg).Meets (Unraced p cfg) Server.new es)
    (hrun : (server p cfg).run Server.new es = some t) : t.Orderly cfg := by
  refine Machine.run_invariant (I := Orderly cfg) ?_ ?_ (hfresh.and hunraced) hrun
  · intro s e u hI hg hu
    exact ⟨wellFormed_step hI.wellFormed hu,
      claims_step hI.wellFormed hI.claims hg.1.1 hg.1.2 hg.2 hu,
      labelled_step hI.wellFormed hI.labelled hg.1.1 hu⟩
  · exact ⟨wellFormed_new, Lifecycle.claims_new, nofun⟩

/-! ### Who is on the list -/

section

variable {c c' : ConnectedClient}

theorem Orderly.owner (h : s.Orderly cfg) (hc : s.connections.Registered c) :
    ∃ hs, s.lifecycle.stage c.tx = .registered hs ∧ c = hs.client c.tx ∧ hs.Labelled cfg := by
  obtain ⟨hs, hstage, hclient⟩ := h.claims.live.owner c hc
  exact ⟨hs, hstage, hclient, h.labelled c.tx hs (by rw [hstage]; rfl)⟩

/-- Both tables have every client. -/
theorem Orderly.present (h : s.Orderly cfg) (hc : s.connections.Registered c) :
    s.connections.get c.id = some c ∧ s.connections.findByHost c.fullHost = some c := by
  obtain ⟨hs, hstage, hclient, -⟩ := h.owner hc
  have hid : c.id = hs.id := congrArg ConnectedClient.id hclient
  have hhost : c.fullHost = hs.fullHost := congrArg ConnectedClient.fullHost hclient
  have hpresent := h.claims.present c.tx hs hstage
  rw [← hclient, ← hid, ← hhost] at hpresent
  exact hpresent

theorem Orderly.mem_getAllClients (h : s.Orderly cfg) :
    c ∈ s.connections.getAllClients ↔ s.connections.Registered c := by
  rw [Connections.getAllClients, Table.mem_values]
  exact ⟨Or.inl, fun hc => ⟨c.id, (h.present hc).1⟩⟩

/-- Clients under one name are one client. -/
theorem Orderly.eq_of_name (h : s.Orderly cfg) (hc : s.connections.Registered c)
    (hc' : s.connections.Registered c') (hname : c.fullHost = c'.fullHost ∨
      c.wildcard = true ∧ c'.wildcard = true ∧ c.domain = c'.domain) : c = c' := by
  obtain ⟨hs, hstage, hclient, -⟩ := h.owner hc
  obtain ⟨hs', hstage', hclient', -⟩ := h.owner hc'
  have htx : c.tx = c'.tx := by
    by_contra hne
    refine h.claims.apart c.tx c'.tx hs hs' hne (by rw [hstage]; rfl) (by rw [hstage']; rfl) ?_
    rw [hclient, hclient'] at hname
    exact hname
  rw [← htx, hstage] at hstage'
  obtain rfl := Stage.registered.inj hstage'
  rw [hclient, hclient', htx]

/-- A wildcard is no full host. -/
theorem Orderly.star_ne (h : s.Orderly cfg) (hc : s.connections.Registered c) (domain : Text) :
    c.fullHost ≠ "*.".toList ++ domain := by
  obtain ⟨hs, -, hclient, hlabelled⟩ := h.owner hc
  have hhost : c.host = hs.subDomain := congrArg ConnectedClient.host hclient
  intro heq
  have hlabel := (joinHost_inj (a := c.host) (b := ['*']) (hhost ▸ hlabelled.noDot) (by decide)
    heq).1
  rw [hhost] at hlabel
  exact hlabelled.noStar (by simp [hlabel])

theorem Orderly.shown_inj (h : s.Orderly cfg) (hc : s.connections.Registered c)
    (hc' : s.connections.Registered c') (heq : c.shown = c'.shown) : c = c' := by
  unfold ConnectedClient.shown at heq
  split at heq
  next hwild =>
    split at heq
    next hwild' =>
      exact h.eq_of_name hc hc' (Or.inr ⟨hwild, hwild', List.append_cancel_left heq⟩)
    · exact absurd heq.symm (h.star_ne hc' c.domain)
  · split at heq
    · exact absurd heq (h.star_ne hc c'.domain)
    · exact h.eq_of_name hc hc' (Or.inl heq)

theorem Orderly.nodup_listTaken (h : s.Orderly cfg) : s.connections.listTaken.Nodup := by
  refine List.Nodup.map_on ?_ (Table.nodup_values h.claims.live.filed.primary)
  intro c hc c' hc' heq
  exact h.shown_inj (h.mem_getAllClients.mp hc) (h.mem_getAllClients.mp hc') heq

theorem Orderly.mem_listTaken (h : s.Orderly cfg) {name : Text} :
    name ∈ s.connections.listTaken ↔ ∃ c, s.connections.Registered c ∧ c.shown = name := by
  rw [Connections.listTaken, List.mem_map]
  exact exists_congr fun c => and_congr_left fun _ => h.mem_getAllClients

end

/-! ### Who is served -/

section

variable {reg : Connections} {header subDomain domain : Text}

/-- Either table is enough to be forwarded. -/
theorem exists_forward_iff (happex : hostNoPort header ∉ cfg.allowedHosts)
    (hsplit : splitHost cfg.allowedHosts (hostNoPort header) = some (subDomain, domain))
    (hcontrol : subDomain ≠ "wormhole".toList) :
    (∃ c, acceptConnection cfg reg header = .Forward c) ↔
      (∃ c, reg.findByHost (hostNoPort header) = some c) ∨
        ∃ c, reg.findWildcard domain = some c := by
  constructor
  · rintro ⟨c, hforward⟩
    obtain ⟨-, sub, d, hsplit', -, hclient⟩ := acceptConnection_eq_forward hforward
    obtain ⟨-, rfl⟩ := Prod.mk.inj (Option.some.inj (hsplit.symm.trans hsplit'))
    rcases hclient with hhost | ⟨-, hwild⟩
    · exact Or.inl ⟨c, hhost⟩
    · exact Or.inr ⟨c, hwild⟩
  · intro hfound
    rw [acceptConnection_eq_routeOfHost]
    simp only [routeOfHost, if_neg happex, hsplit, if_neg hcontrol]
    cases hhost : reg.findByHost (hostNoPort header) with
    | some c => exact ⟨c, rfl⟩
    | none =>
      rcases hfound with ⟨c, hc⟩ | ⟨c, hc⟩
      · cases hhost.symm.trans hc
      · rw [hc]
        exact ⟨c, rfl⟩

/-- A host of one label and an allowed domain is split there, unless it has more
    labels and the domains are nested. -/
theorem domain_of_label {label d host : Text} (hcolon : ':' ∉ host)
    (hsplit : splitHost cfg.allowedHosts host = some (subDomain, domain))
    (hone : '.' ∉ subDomain ∨ cfg.Flat) (hlabel : '.' ∉ label) (hd : d ∈ cfg.allowedHosts)
    (hhost : joinHost label d = host) : d = domain := by
  obtain ⟨hallowed, hjoin⟩ := splitHost_eq_some hsplit
  rcases hone with hsub | hflat
  · exact (joinHost_inj hlabel hsub (hhost.trans hjoin)).2
  · refine hflat.unique hcolon hd hallowed ?_ ?_
    · rw [← hhost]
      exact below_joinHost label d
    · rw [hjoin]
      exact below_joinHost subDomain domain

theorem Orderly.findWildcard_of_registered {c : ConnectedClient} (h : s.Orderly cfg)
    (hc : s.connections.Registered c) (hwild : c.wildcard = true) (hdomain : c.domain = domain) :
    ∃ found, s.connections.findWildcard domain = some found := by
  obtain ⟨found, hfound, -⟩ := findWildcard_isSome ⟨⟨c.id, (h.present hc).1⟩, hwild, hdomain⟩
  exact ⟨found, hfound⟩

theorem Orderly.wildcard_listed_iff (h : s.Orderly cfg) :
    "*.".toList ++ domain ∈ s.connections.listTaken ↔
      ∃ c, s.connections.findWildcard domain = some c := by
  rw [h.mem_listTaken]
  constructor
  · rintro ⟨c, hc, hshown⟩
    unfold ConnectedClient.shown at hshown
    split at hshown
    next hwild => exact h.findWildcard_of_registered hc hwild (List.append_cancel_left hshown)
    · exact absurd hshown (h.star_ne hc domain)
  · rintro ⟨c, hc⟩
    obtain ⟨hreg, hwild, hdomain⟩ := Connections.findWildcard_eq_some hc
    exact ⟨c, Or.inl hreg, by rw [ConnectedClient.shown, if_pos hwild, hdomain]⟩

/-- Everybody who gets a connection is on the list. -/
theorem Orderly.listed_of_forward {c : ConnectedClient} (h : s.Orderly cfg)
    (hforward : acceptConnection cfg s.connections header = .Forward c) :
    c.shown ∈ s.connections.listTaken ∧ (c.shown = hostNoPort header ∨
      c.shown = "*.".toList ++ c.domain ∧ Below c.domain (hostNoPort header)) := by
  refine ⟨h.mem_listTaken.mpr ⟨c, registered_of_forward hforward, rfl⟩, ?_⟩
  obtain ⟨-, sub, d, hsplit, -, hclient⟩ := acceptConnection_eq_forward hforward
  unfold ConnectedClient.shown
  rcases hclient with hhost | ⟨-, hwild⟩
  · have hfull : c.fullHost = hostNoPort header := h.claims.live.filed.secondary _ _ hhost
    split
    · exact Or.inr ⟨rfl, hfull ▸ below_joinHost c.host c.domain⟩
    · exact Or.inl hfull
  · obtain ⟨-, hwildcard, hdomain⟩ := Connections.findWildcard_eq_some hwild
    rw [if_pos hwildcard, hdomain, (splitHost_eq_some hsplit).2]
    exact Or.inr ⟨rfl, below_joinHost sub d⟩

/-- The host itself is on the list, or a wildcard of the domain it is split at. -/
theorem Orderly.listed_of_host {c : ConnectedClient} (h : s.Orderly cfg)
    (hsplit : splitHost cfg.allowedHosts (hostNoPort header) = some (subDomain, domain))
    (hone : '.' ∉ subDomain ∨ cfg.Flat)
    (hc : s.connections.findByHost (hostNoPort header) = some c) :
    hostNoPort header ∈ s.connections.listTaken ∨
      ∃ c, s.connections.findWildcard domain = some c := by
  have hreg : s.connections.Registered c := Or.inr ⟨_, hc⟩
  have hfull : c.fullHost = hostNoPort header := h.claims.live.filed.secondary _ _ hc
  by_cases hwild : c.wildcard = true
  · obtain ⟨hs, -, hclient, hlabelled⟩ := h.owner hreg
    have hdomain : c.domain = domain := by
      rw [hclient] at hfull ⊢
      exact domain_of_label (colon_not_mem_hostNoPort header) hsplit hone hlabelled.noDot
        hlabelled.allowed hfull
    exact Or.inr (h.findWildcard_of_registered hreg hwild hdomain)
  · refine Or.inl (h.mem_listTaken.mpr ⟨c, hreg, ?_⟩)
    rw [ConnectedClient.shown, if_neg hwild]
    exact hfull

theorem Orderly.found_of_listed (h : s.Orderly cfg)
    (hsplit : splitHost cfg.allowedHosts (hostNoPort header) = some (subDomain, domain))
    (hone : '.' ∉ subDomain ∨ cfg.Flat)
    (hlisted : hostNoPort header ∈ s.connections.listTaken) :
    (∃ c, s.connections.findByHost (hostNoPort header) = some c) ∨
      ∃ c, s.connections.findWildcard domain = some c := by
  obtain ⟨c, hreg, hshown⟩ := h.mem_listTaken.mp hlisted
  unfold ConnectedClient.shown at hshown
  split at hshown
  next hwild =>
    -- the connection names the wildcard itself
    obtain ⟨hs, -, hclient, hlabelled⟩ := h.owner hreg
    have hallowed : c.domain ∈ cfg.allowedHosts := by
      rw [hclient]
      exact hlabelled.allowed
    have hspelled : joinHost ['*'] c.domain = hostNoPort header := hshown
    have hdomain : c.domain = domain :=
      domain_of_label (colon_not_mem_hostNoPort header) hsplit hone (by decide) hallowed hspelled
    exact Or.inr (h.findWildcard_of_registered hreg hwild hdomain)
  · exact Or.inl ⟨c, hshown ▸ (h.present hreg).2⟩

end

end Server

open Server in
/-- In every run in which names are exclusive, `/api/taken` lists no name twice and
    everybody who gets a connection, by the host or by a domain the host is below;
    and a connection below an allowed domain is forwarded exactly if the list has its
    host or the wildcard of the domain it is split at.  Two names the server answers
    itself: an allowed host as it stands, and the sub-domain `wormhole` of one; and a
    host of several labels is left out where the allowed domains are nested. -/
theorem taken_lists_served (p : Platform) (cfg : Config) (es : List ServerEvent) (s : Server)
    (hrun : (server p cfg).run Server.new es = some s)
    (hfresh : (server p cfg).Meets (fun s e => s.FreshHello e ∧ s.PongInTime e) Server.new es)
    (hunraced : (server p cfg).Meets (Unraced p cfg) Server.new es) :
    s.connections.listTaken.Nodup ∧
      (∀ header c, acceptConnection cfg s.connections header = .Forward c →
        c.shown ∈ s.connections.listTaken ∧ (c.shown = hostNoPort header ∨
          c.shown = "*.".toList ++ c.domain ∧ Below c.domain (hostNoPort header))) ∧
      ∀ header subDomain domain, hostNoPort header ∉ cfg.allowedHosts →
        splitHost cfg.allowedHosts (hostNoPort header) = some (subDomain, domain) →
        subDomain ≠ "wormhole".toList → '.' ∉ subDomain ∨ cfg.Flat →
        ((∃ c, acceptConnection cfg s.connections header = .Forward c) ↔
          hostNoPort header ∈ s.connections.listTaken ∨
            "*.".toList ++ domain ∈ s.connections.listTaken) := by
  have hs : s.Orderly cfg := orderly_names_run hfresh hunraced hrun
  refine ⟨hs.nodup_listTaken, fun header c => hs.listed_of_forward, ?_⟩
  intro header subDomain domain happex hsplit hcontrol hone
  rw [exists_forward_iff happex hsplit hcontrol, hs.wildcard_listed_iff]
  constructor
  · rintro (⟨c, hc⟩ | hwild)
    · exact hs.listed_of_host hsplit hone hc
    · exact Or.inr hwild
  · rintro (hlisted | hwild)
    · exact hs.found_of_listed hsplit hone hlisted
    · exact Or.inr hwild

open AnnouncedHost NameRace in
/-- The first of two clients is on the list by then, and is served. -/
theorem taken_lists_served_in_turn :
    ∃ t, (server Platform.ascii config).run Server.new inTurn = some t ∧
      ∃ c, acceptConnection config t.connections "a.b.co:8080".toList = .Forward c := by
  refine ⟨_, rfl, ((taken_lists_served Platform.ascii config inTurn _ rfl ?_ ?_).2.2
    "a.b.co:8080".toList ['a'] "b.co".toList (by decide) (by decide) (by decide)
    (Or.inl (by decide))).mpr (Or.inl (by decide))⟩
  · refine .cons ⟨⟨rfl, fun m h hm => nomatch hm⟩, trivial⟩ rfl ?_
    refine .cons ⟨trivial, trivial⟩ rfl (.cons ⟨trivial, trivial⟩ rfl ?_)
    refine .cons ⟨⟨rfl, ?_⟩, trivial⟩ rfl trivial
    rintro (_ | m) h hm
    · obtain rfl := Option.some.inj hm
      decide
    · cases hm
  · refine .cons (fun h _ m h' hm => nomatch hm) rfl ?_
    exact .cons trivial rfl (.cons trivial rfl (.cons (fun h hok => by cases hok) rfl trivial))

end Neutun
