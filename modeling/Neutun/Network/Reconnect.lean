/-
  Neutun/Network/Reconnect.lean
  =============================
  A client that keeps coming back under one name.

  `run_tunnel` starts a `run_wormhole` after each one that a dropped connection
  has ended, and each of them says the same hello on a connection of its own.
  The server checks it against the registry as it is then.  An earlier
  connection whose end the server has not noticed is still in there, and holds
  the name: for new connections, "if it's taken, it's taken".
-/
import Neutun.Client.State
import Neutun.Server.Admission
import Neutun.Server.Rules

namespace Neutun

open Foundation

variable {p : Platform} {cfg : Config}

/-! ### The hello -/

/-- The fields of the client's `Config` that its hello states. -/
structure Claimant where
  subDomain : Text
  domain : Option Text
  secretKey : SecretKey
  wildcard : Bool

namespace Claimant

/-- What `connect_to_wormhole` builds with a secret key. -/
def hello (c : Claimant) (id : ClientId) : ClientHello :=
  .generate id (some c.subDomain) c.domain (.Auth c.secretKey) c.wildcard

/-- The client may have its name: the domain and the key are accepted, the
    subdomain is valid and not blocked. -/
structure Accepted (p : Platform) (cfg : Config) (c : Claimant) (domain : Text) : Prop where
  domain : helloDomain cfg c.domain = .ok domain
  valid : ∀ char ∈ p.toLowercase c.subDomain, p.isAlphanumeric char = true ∨ char = '-'
  unblocked : p.toLowercase c.subDomain ∉ cfg.blockedSubDomains
  key : ∀ masterKey, cfg.masterKey = some masterKey → c.secretKey.text = masterKey

/-- What it is let through with. -/
def handshake (p : Platform) (c : Claimant) (domain : Text) (generated : ClientId) :
    ClientHandshake :=
  ⟨generated, p.toLowercase c.subDomain, domain, false, c.wildcard⟩

/-- The host is registered, or the wildcard that is asked for. -/
def taken (p : Platform) (reg : Connections) (c : Claimant) (domain : Text)
    (generated : ClientId) : Bool :=
  (reg.findByHost (joinHost (p.toLowercase c.subDomain) domain)).isSome ||
    c.wildcard && wildcardInUse reg domain generated

variable {c : Claimant} {domain : Text}

/-- The name checks ask only who is registered. -/
theorem sanitize_eq (hc : c.Accepted p cfg domain) (reg : Connections) (generated : ClientId) :
    sanitizeSubDomainAndPreValidate p cfg reg c.subDomain domain generated c.wildcard =
      if c.taken p reg domain generated then .error .SubDomainInUse
      else .ok (p.toLowercase c.subDomain) :=
  sanitize_of_valid hc.valid hc.unblocked reg domain generated c.wildcard

/-- Whether such a hello is accepted is only a matter of who is registered. -/
theorem authClient_hello (hc : c.Accepted p cfg domain) {reg : Connections} (hfiled : reg.Filed)
    (id : ClientId) (now : Time) (generated : ClientId) (random : Text) :
    authClient p cfg reg now generated random (some (c.hello id)) =
      if c.taken p reg domain generated then .error .SubDomainInUse
      else .ok (c.handshake p domain generated) := by
  simp only [authClient, hello, ClientHello.generate, hc.domain, admitSubDomain, sanitize_eq hc]
  cases c.taken p reg domain generated with
  | true => rfl
  | false =>
    simp only [Bool.false_eq_true, if_false, authSubDomain_available hfiled hc.valid hc.key]
    rfl

end Claimant

/-! ### The reply -/

/-- What `connect_to_wormhole` makes of the server's hello. -/
def ServerHello.outcome : ServerHello → Except Neutun.Error Unit
  | Success _ _ _ => .ok ()
  | AuthFailed => .error .AuthenticationFailed
  | InvalidSubDomain => .error .InvalidSubDomain
  | SubDomainInUse => .error .SubDomainInUse
  | Error _ => .error .ServerError

/-- The `hostname` of `ServerHello::Success`. -/
def ClientHandshake.hostname (h : ClientHandshake) : Text :=
  if h.wildcard then joinHost ['*'] h.domain else h.fullHost

/-- The `ServerHello` that a step sends. -/
def Server.reply (p : Platform) (cfg : Config) (s : Server) :
    ServerEvent → Option (Nat × ServerHello)
  | .hello n clientIp (some clientHello) now generated random =>
    if clientIp ∈ cfg.blockedIps then none
    else
      match authClient p cfg s.connections now generated random clientHello with
      | .error refusal => some (n, refusal)
      | .ok _ => none
  | .greet n true =>
    match (s.conns n).phase with
    | .checked h => some (n, .Success h.subDomain h.hostname h.id)
    | _ => none
  | _ => none

/-! ### The system -/

/-- The client has dialed the connections `dialed` and waits for the reply on
    `waiting`; `replies` are what the server has sent. -/
structure Reconnect where
  server : Server
  client : Client
  dialed : List Nat
  waiting : Option Nat
  replies : Nat → Option ServerHello

inductive ReconnectEvent where
  /-- the websocket is open and the hello is on its way -/
  | dial (n : Nat)
  | server (e : ServerEvent)
  | client (e : ClientEvent)

namespace Reconnect

def new : Reconnect := ⟨Server.new, Client.new, [], none, fun _ => none⟩

variable (p : Platform) (cfg : Config) (useTls : Bool) (mine : Nat → Bool) (c : Claimant)

/-- On a connection of this client the server hears its hello, once it is on its
    way, or finds the connection gone. -/
def heard (s : Reconnect) : ServerEvent → Bool
  | .hello n _ clientHello _ _ _ =>
    !mine n || s.dialed.contains n &&
      match clientHello with
      | none => true
      | some none => false
      | some (some hello) => decide (hello = c.hello hello.id)
  | _ => true

/-- `run_wormhole` fails without a reply, or does what the reply says. -/
def answered (s : Reconnect) : ClientEvent → Bool
  | .startWormhole (.error .WebSocketError) | .startWormhole (.error .NoResponseFromServer)
  | .startWormhole (.error .ServerReplyInvalid) => true
  | .startWormhole result =>
    (s.waiting.bind s.replies).any fun reply => decide (reply.outcome = result)
  | _ => true

/-- The replies with the one that is sent. -/
def replied (s : Reconnect) : Option (Nat × ServerHello) → Nat → Option ServerHello
  | some (n, reply) => Function.update s.replies n (some reply)
  | none => s.replies

/-- The attempt to connect is over. -/
def waits (s : Reconnect) : ClientEvent → Option Nat
  | .startWormhole _ => none
  | _ => s.waiting

def step (s : Reconnect) : ReconnectEvent → Option Reconnect
  | .dial n =>
    match s.client.control, s.waiting with
    | .starting, none =>
      if mine n && !s.dialed.contains n then
        some { s with dialed := n :: s.dialed, waiting := some n }
      else none
    | _, _ => none
  | .server e =>
    if s.heard mine c e then
      (s.server.step p cfg e).map fun server => { s with
        server := server
        replies := s.replied (s.server.reply p cfg e) }
    else none
  | .client e =>
    if s.answered e then
      (s.client.step useTls e).map fun client => { s with
        client := client
        waiting := s.waits e }
    else none

end Reconnect

/-- One client and the server, from their start; the connections `mine` are the
    client's. -/
def reconnect (p : Platform) (cfg : Config) (useTls : Bool) (mine : Nat → Bool) (c : Claimant) :
    Machine Reconnect ReconnectEvent where
  start s := s = Reconnect.new
  step := Reconnect.step p cfg useTls mine c

/-! ### Locked out -/

/-- `run_wormhole` has been told that the name is in use, and `run_tunnel` ends. -/
def Client.LockedOut (c : Client) : Prop :=
  c.control = .returned (.error .SubDomainInUse) ∨ c.control = .exited .SubDomainInUse

/-- Only the server's reply locks a client out. -/
theorem Client.lockedOut_step {c c' : Client} {useTls : Bool} {e : ClientEvent}
    (h : c.step useTls e = some c') (hout : c'.LockedOut) :
    c.LockedOut ∨ e = .startWormhole (.error .SubDomainInUse) := by
  have hsame : c'.control = c.control → c.LockedOut := by
    intro heq
    unfold LockedOut at hout ⊢
    rwa [heq] at hout
  cases e with
  | startWormhole result =>
    right
    obtain ⟨-, ⟨-, rfl⟩ | ⟨e, rfl, -, -, rfl⟩⟩ := startWormhole_cases h
    · rcases hout with hout | hout <;> cases hout
    · rcases hout with hout | hout
      · injection hout with he
        rw [he]
      · cases hout
  | decide =>
    left
    obtain ⟨outcome, hreturned, ⟨-, rfl⟩ | ⟨e, houtcome, -, rfl⟩⟩ := decide_cases h
    · rcases hout with hout | hout <;> cases hout
    · rcases hout with hout | hout
      · cases hout
      · injection hout with he
        exact Or.inl (by rw [hreturned, houtcome, he])
  | interrupt =>
    obtain ⟨-, -, rfl⟩ := interrupt_cases h
    rcases hout with hout | hout <;> cases hout
  | receive result =>
    left
    obtain ⟨-, ⟨bytes, -, rfl⟩ | ⟨message, -, -, rfl⟩ | ⟨-, rfl⟩⟩ := receive_cases h
    · rcases hout with hout | hout <;> cases hout
    · unfold processControlFlowMessage at hout hsame
      cases hpacket : ControlPacket.deserialize message.data with
      | error e =>
        rw [hpacket] at hout
        rcases hout with hout | hout <;> cases hout
      | ok packet =>
        rw [hpacket] at hout hsame
        cases packet with
        | Init streamId => exact hsame rfl
        | Ping token => exact hsame (control_notifyTunnel _ _ _)
        | Refused streamId => rcases hout with hout | hout <;> cases hout
        | End streamId => exact hsame rfl
        | Data streamId data =>
          simp only at hout
          split at hout <;> rcases hout with hout | hout <;> cases hout
    · rcases hout with hout | hout <;> cases hout
  | connect result =>
    obtain ⟨streamId, data, -, ⟨-, rfl⟩ | ⟨-, rfl⟩ | ⟨-, rfl⟩⟩ := connect_cases h <;>
      rcases hout with hout | hout <;> cases hout
  | insert =>
    obtain ⟨streamId, data, n, stream, -, -, rfl⟩ := insert_cases h
    rcases hout with hout | hout <;> cases hout
  | forward =>
    obtain ⟨streamId, data, -, ⟨n, stream, -, -, ⟨-, rfl⟩ | ⟨-, rfl⟩⟩ |
      ⟨-, ⟨-, rfl⟩ | ⟨-, rfl⟩⟩⟩ := forward_cases h <;>
      rcases hout with hout | hout <;> cases hout
  | flush w sent =>
    obtain ⟨packet, rest, -, -, ⟨-, rfl⟩ | ⟨-, rfl⟩⟩ := flush_cases h
    · exact Or.inl (hsame rfl)
    · exact Or.inl (hsame rfl)
  | readLocal n result =>
    obtain ⟨stream, -, -, ⟨-, rfl⟩ | ⟨-, rfl⟩ | ⟨data, reader, -, -, rfl⟩⟩ := readLocal_cases h
    · exact Or.inl (hsame rfl)
    · exact Or.inl (hsame rfl)
    · exact Or.inl (hsame (control_notifyTunnel _ _ _))
  | writeLocal n result =>
    obtain ⟨stream, stream', -, -, rfl⟩ := writeLocal_cases h
    exact Or.inl (hsame rfl)
  | endTask k =>
    obtain ⟨tasks, rfl | ⟨n, stream, -, rfl⟩ | ⟨streamId, rfl⟩⟩ := endTask_cases h
    all_goals exact Or.inl (hsame rfl)

namespace Reconnect

variable {useTls : Bool} {mine : Nat → Bool} {c : Claimant} {domain : Text} {s t : Reconnect}

theorem step_server {e : ServerEvent} (h : s.step p cfg useTls mine c (.server e) = some t) :
    s.heard mine c e = true ∧ s.server.step p cfg e = some t.server ∧ t.client = s.client ∧
      t.waiting = s.waiting ∧
      ∀ n reply, t.replies n = some reply →
        s.replies n = some reply ∨ s.server.reply p cfg e = some (n, reply) := by
  simp only [step] at h
  split at h
  next hheard =>
    obtain ⟨server, hserver, rfl⟩ := Option.map_eq_some_iff.mp h
    refine ⟨hheard, hserver, rfl, rfl, ?_⟩
    intro n reply hreply
    change s.replied (s.server.reply p cfg e) n = some reply at hreply
    cases hsent : s.server.reply p cfg e with
    | none =>
      rw [hsent] at hreply
      exact Or.inl hreply
    | some sent =>
      rw [hsent, replied, Function.update_apply] at hreply
      split at hreply
      next heq =>
        obtain rfl := Option.some.inj hreply
        exact Or.inr (by rw [heq])
      · exact Or.inl hreply
  · cases h

theorem step_client {e : ClientEvent} (h : s.step p cfg useTls mine c (.client e) = some t) :
    s.answered e = true ∧ s.client.step useTls e = some t.client ∧ t.server = s.server ∧
      t.replies = s.replies ∧ t.waiting = s.waits e := by
  simp only [step] at h
  split at h
  next hanswered =>
    obtain ⟨client, hclient, rfl⟩ := Option.map_eq_some_iff.mp h
    exact ⟨hanswered, hclient, rfl, rfl, rfl⟩
  · cases h

theorem step_dial {n : Nat} (h : s.step p cfg useTls mine c (.dial n) = some t) :
    mine n = true ∧ t = { s with dialed := n :: s.dialed, waiting := some n } := by
  simp only [step] at h
  split at h
  · split at h
    next hn =>
      rw [Bool.and_eq_true] at hn
      exact ⟨hn.1, (Option.some.inj h).symm⟩
    · cases h
  · cases h

/-- Nobody else's hello is let through for the name of the client, be it the host
    or the wildcard. -/
def Uncontested (p : Platform) (cfg : Config) (mine : Nat → Bool) (c : Claimant) (domain : Text)
    (s : Reconnect) : ReconnectEvent → Prop
  | .server (.hello n clientIp clientHello now generated random) => mine n = false → ∀ h,
      s.server.authClientHandshake p cfg clientIp clientHello now generated random = some h →
      ¬ Lifecycle.Clash h (c.handshake p domain h.id)
  | _ => True

/-- When the server checks a hello of the client, none of its earlier connections
    is registered any more. -/
def Released (mine : Nat → Bool) (s : Reconnect) : ReconnectEvent → Prop
  | .server (.hello n _ _ _ _ _) => mine n = true →
      ∀ r, s.server.connections.Registered r → mine r.tx = false
  | _ => True

/-- Whoever has been let through for the name of the client is the client. -/
structure Sole (p : Platform) (mine : Nat → Bool) (c : Claimant) (domain : Text)
    (s : Reconnect) : Prop where
  server : s.server.WellFormed
  others : ∀ n h, mine n = false → (s.server.conns n).stage.handshake = some h →
    ¬ Lifecycle.Clash h (c.handshake p domain h.id)
  waiting : ∀ n, s.waiting = some n → mine n = true

theorem sole_new : Sole p mine c domain Reconnect.new where
  server := Server.wellFormed_new
  others _ _ _ h := nomatch h
  waiting _ h := nomatch h

theorem sole_step (hs : s.Sole p mine c domain) {e : ReconnectEvent}
    (hothers : Uncontested p cfg mine c domain s e)
    (h : s.step p cfg useTls mine c e = some t) : t.Sole p mine c domain := by
  cases e with
  | dial n =>
    obtain ⟨hn, rfl⟩ := step_dial h
    exact ⟨hs.server, hs.others, fun m hm => Option.some.inj hm ▸ hn⟩
  | server e =>
    obtain ⟨-, hserver, -, hwaiting, -⟩ := step_server h
    refine ⟨Server.wellFormed_step hs.server hserver, ?_, by rw [hwaiting]; exact hs.waiting⟩
    intro n hs' hn hhandshake
    rcases Server.admits_step hs.server hserver hhandshake with hold |
      ⟨clientIp, hello, now, generated, random, rfl, hok⟩
    · exact hs.others n hs' hn hold
    · exact hothers hn hs' hok
  | client e =>
    obtain ⟨-, -, hserver, -, hwaiting⟩ := step_client h
    refine ⟨by rw [hserver]; exact hs.server, by rw [hserver]; exact hs.others, ?_⟩
    intro n hn
    rw [hwaiting] at hn
    unfold waits at hn
    split at hn
    · cases hn
    · exact hs.waiting n hn

/-- A registered connection that clashes with the client is its own. -/
theorem Sole.mine_of_registered (hs : s.Sole p mine c domain) {r : ConnectedClient}
    (hr : s.server.connections.Registered r)
    (hclash : r.fullHost = joinHost (p.toLowercase c.subDomain) domain ∨
      r.wildcard = true ∧ c.wildcard = true ∧ r.domain = domain) : mine r.tx = true := by
  obtain ⟨h, hadded, hclient⟩ := hs.server.sound.owner r hr
  rw [← Bool.not_eq_false]
  intro hother
  apply hs.others r.tx h hother (Stage.handshake_of_added hadded)
  rw [hclient] at hclash
  exact hclash

theorem Sole.mine_of_findByHost (hs : s.Sole p mine c domain) {r : ConnectedClient}
    (hr : s.server.connections.findByHost (joinHost (p.toLowercase c.subDomain) domain) =
      some r) : mine r.tx = true := by
  apply hs.mine_of_registered (Or.inr ⟨_, hr⟩)
  exact Or.inl (hs.server.sound.filed.secondary _ r hr)

/-- If the name is taken, it is an earlier connection of the client that has it. -/
theorem Sole.owner (hs : s.Sole p mine c domain) {generated : ClientId}
    (htaken : c.taken p s.server.connections domain generated = true) :
    ∃ r, s.server.connections.Registered r ∧ mine r.tx = true := by
  unfold Claimant.taken at htaken
  rw [Bool.or_eq_true, Bool.and_eq_true] at htaken
  rcases htaken with hhost | ⟨hwild, hused⟩
  · obtain ⟨r, hr⟩ := Option.isSome_iff_exists.mp hhost
    exact ⟨r, Or.inr ⟨_, hr⟩, hs.mine_of_findByHost hr⟩
  · obtain ⟨r, hr, -⟩ := Option.any_eq_true _ _ |>.mp hused
    obtain ⟨hget, hw, hd⟩ := Connections.findWildcard_eq_some hr
    have hreg : s.server.connections.Registered r := Or.inl hget
    exact ⟨r, hreg, hs.mine_of_registered hreg (Or.inr ⟨hw, hwild, hd⟩)⟩

/-- The client has not been told that its name is in use. -/
structure Admitted (mine : Nat → Bool) (s : Reconnect) : Prop where
  replies : ∀ n, mine n = true → s.replies n ≠ some .SubDomainInUse
  client : ¬ s.client.LockedOut

theorem admitted_new : Admitted mine Reconnect.new where
  replies _ _ := nofun
  client := by
    rintro (h | h) <;> cases h

/-- A reply to the client's hello. -/
theorem reply_hello (hc : c.Accepted p cfg domain) (hs : s.Sole p mine c domain)
    {e : ServerEvent} (hheard : s.heard mine c e = true) {n : Nat} (hn : mine n = true)
    (hreply : s.server.reply p cfg e = some (n, .SubDomainInUse)) :
    ∃ clientIp clientHello now generated random,
      e = .hello n clientIp clientHello now generated random ∧
        c.taken p s.server.connections domain generated = true := by
  cases e with
  | hello m clientIp clientHello now generated random =>
    rcases clientHello with _ | clientHello
    · cases hreply
    simp only [Server.reply] at hreply
    split at hreply
    · cases hreply
    split at hreply
    next refusal hrefusal =>
      obtain ⟨rfl, rfl⟩ := Prod.mk.inj (Option.some.inj hreply)
      refine ⟨clientIp, some clientHello, now, generated, random, rfl, ?_⟩
      rcases clientHello with _ | hello
      · simp [heard, hn] at hheard
      · simp only [heard, hn, Bool.not_true, Bool.false_or, Bool.and_eq_true,
          decide_eq_true_eq] at hheard
        have hfiled : s.server.connections.Filed := hs.server.sound.filed
        rw [hheard.2, Claimant.authClient_hello hc hfiled] at hrefusal
        by_contra hfree
        rw [if_neg hfree] at hrefusal
        cases hrefusal
    · cases hreply
  | greet m sent =>
    cases sent with
    | true =>
      simp only [Server.reply] at hreply
      split at hreply
      · cases hreply
      · cases hreply
    | false => cases hreply
  | _ => cases hreply

theorem admitted_step (hc : c.Accepted p cfg domain) (hs : s.Sole p mine c domain)
    (ha : s.Admitted mine) {e : ReconnectEvent} (hreleased : Released mine s e)
    (h : s.step p cfg useTls mine c e = some t) : t.Admitted mine := by
  cases e with
  | dial n =>
    obtain ⟨-, rfl⟩ := step_dial h
    exact ⟨ha.replies, ha.client⟩
  | server e =>
    obtain ⟨hheard, -, hclient, -, hreplies⟩ := step_server h
    refine ⟨?_, by rw [hclient]; exact ha.client⟩
    intro n hn hreply
    rcases hreplies n _ hreply with hold | hsent
    · exact ha.replies n hn hold
    · obtain ⟨clientIp, clientHello, now, generated, random, rfl, htaken⟩ :=
        reply_hello hc hs hheard hn hsent
      obtain ⟨r, hr, hown⟩ := hs.owner htaken
      rw [hreleased hn r hr] at hown
      cases hown
  | client e =>
    obtain ⟨hanswered, hclient, -, hreplies, -⟩ := step_client h
    refine ⟨by rw [hreplies]; exact ha.replies, ?_⟩
    intro hout
    rcases Client.lockedOut_step hclient hout with hold | rfl
    · exact ha.client hold
    · simp only [answered, Option.any_eq_true, Option.bind_eq_some_iff,
        decide_eq_true_eq] at hanswered
      obtain ⟨reply, ⟨n, hwaiting, hreply⟩, houtcome⟩ := hanswered
      apply ha.replies n (hs.waiting n hwaiting)
      rw [hreply]
      cases reply <;> simp [ServerHello.outcome] at houtcome ⊢

end Reconnect

open Reconnect

/-- A sole claimant of its name is locked out by nobody but itself: if the server has
    let go of its earlier connections whenever it checks a hello of the client's,
    `run_tunnel` does not end with `SubDomainInUse`, and the hello is accepted; one
    that is checked while an earlier connection has the host is refused. -/
theorem sole_claimant_readmitted (p : Platform) (cfg : Config) (useTls : Bool)
    (mine : Nat → Bool) (c : Claimant) (domain : Text) (hc : c.Accepted p cfg domain)
    (es : List ReconnectEvent) (t : Reconnect)
    (hrun : (reconnect p cfg useTls mine c).run Reconnect.new es = some t)
    (hsole : (reconnect p cfg useTls mine c).Meets (Uncontested p cfg mine c domain)
      Reconnect.new es) :
    ((reconnect p cfg useTls mine c).Meets (Released mine) Reconnect.new es →
        t.client.control ≠ .exited .SubDomainInUse) ∧
      ∀ id now generated random,
        ((∀ r, t.server.connections.Registered r → mine r.tx = false) →
            authClient p cfg t.server.connections now generated random (some (c.hello id)) =
              .ok (c.handshake p domain generated)) ∧
          ∀ r, t.server.connections.findByHost (c.handshake p domain generated).fullHost =
              some r → mine r.tx = true ∧
            authClient p cfg t.server.connections now generated random (some (c.hello id)) =
              .error .SubDomainInUse := by
  have hsound : t.Sole p mine c domain :=
    Machine.run_invariant (G := Uncontested p cfg mine c domain)
      (fun _ _ _ hs hothers h => sole_step hs hothers h) sole_new hsole hrun
  have hfiled : t.server.connections.Filed := hsound.server.sound.filed
  constructor
  · intro hreleased hout
    have hadmitted := Machine.run_invariant
      (I := fun s : Reconnect => s.Sole p mine c domain ∧ s.Admitted mine)
      (G := fun s e => Uncontested p cfg mine c domain s e ∧ Released mine s e)
      (fun _ _ _ hs hg h => ⟨sole_step hs.1 hg.1 h, admitted_step hc hs.1 hs.2 hg.2 h⟩)
      ⟨sole_new, admitted_new⟩ (hsole.and hreleased) hrun
    exact hadmitted.2.client (Or.inr hout)
  · intro id now generated random
    rw [Claimant.authClient_hello hc hfiled]
    constructor
    · intro hreleased
      rw [if_neg]
      intro htaken
      obtain ⟨r, hr, hown⟩ := hsound.owner htaken
      rw [hreleased r hr] at hown
      cases hown
    · intro r hr
      have htaken : c.taken p t.server.connections domain generated = true := by
        have hsome : t.server.connections.findByHost
            (joinHost (p.toLowercase c.subDomain) domain) = some r := hr
        simp [Claimant.taken, hsome]
      exact ⟨hsound.mine_of_findByHost hr, if_pos htaken⟩

namespace Comeback

open AnnouncedHost

/-- The client "a" of "b.co". -/
def claimant (wildcard : Bool) : Claimant := ⟨['a'], some "b.co".toList, ⟨"k".toList⟩, wildcard⟩

/-- The client says its hello on a connection, and the server checks it. -/
def attempt (n : Nat) (wildcard : Bool) : List ReconnectEvent :=
  [.dial n, .server (.hello n (.V4 0) (some (some ((claimant wildcard).hello ⟨[]⟩))) 0
    ⟨[Nat.digitChar n]⟩ [])]

/-- The server accepts it. -/
def welcome (n : Nat) : List ReconnectEvent :=
  [.server (.greet n true), .server (.register n), .client (.startWormhole (.ok ()))]

/-- The client finds its connection gone. -/
def drop : List ReconnectEvent := [.client (.receive .done), .client .decide]

/-- The client finds its name in use. -/
def refused : List ReconnectEvent :=
  [.client (.startWormhole (.error .SubDomainInUse)), .client .decide]

theorem accepted (wildcard : Bool) :
    (claimant wildcard).Accepted Platform.ascii config "b.co".toList where
  domain := rfl
  valid := by
    intro char hchar
    obtain rfl : char = 'a' := List.mem_singleton.mp hchar
    exact Or.inl rfl
  unblocked := nofun
  key := by
    rintro masterKey ⟨⟩
    rfl

end Comeback

open Comeback AnnouncedHost in
/-- The server has noticed the drop when the client comes back. -/
theorem sole_claimant_readmitted_released : ∃ t,
    (reconnect Platform.ascii config false (fun _ => true) (claimant true)).run Reconnect.new
      (attempt 0 true ++ welcome 0 ++ drop ++ [.server (.message 0 .done)] ++ attempt 1 true ++
        welcome 1) = some t ∧
    t.client.control ≠ .exited .SubDomainInUse := by
  refine ⟨_, rfl, (sole_claimant_readmitted Platform.ascii config false (fun _ => true)
    (claimant true) "b.co".toList (accepted true) (attempt 0 true ++ welcome 0 ++ drop ++
      [.server (.message 0 .done)] ++ attempt 1 true ++ welcome 1) _ rfl
    (Machine.meets_of_forall ?_ _ _)).1 ?_⟩
  · intro s e
    cases e with
    | server e => cases e <;> first | trivial | exact fun h => nomatch h
    | _ => trivial
  · refine .cons trivial rfl (.cons ?_ rfl (.cons trivial rfl (.cons trivial rfl
      (.cons trivial rfl (.cons trivial rfl (.cons trivial rfl (.cons trivial rfl
        (.cons trivial rfl (.cons ?_ rfl (.cons trivial rfl (.cons trivial rfl
          (.cons trivial rfl trivial))))))))))))
    · intro _ r hr
      exact absurd hr Connections.not_registered_new
    · rintro _ r (⟨id, hr⟩ | ⟨host, hr⟩)
      · cases hr
      · cases hr

open Comeback AnnouncedHost in
/-- The server has not noticed the drop when the client comes back; and another
    client, of another host, has the wildcard that the client asks for. -/
theorem sole_claimant_locked_out :
    (∃ t, (reconnect Platform.ascii config false (fun _ => true) (claimant false)).run
        Reconnect.new (attempt 0 false ++ welcome 0 ++ drop ++ attempt 1 false ++ refused) =
          some t ∧ t.client.control = .exited .SubDomainInUse) ∧
      ∃ t, (reconnect Platform.ascii config false (fun n => n == 1) (claimant true)).run
        Reconnect.new ([.server (.hello 0 (.V4 0)
            (some (some { hello ['b'] with wildcard := true })) 0 ⟨['0']⟩ []),
          .server (.greet 0 true), .server (.register 0)] ++ attempt 1 true ++ refused) =
            some t ∧ t.client.control = .exited .SubDomainInUse :=
  ⟨⟨_, rfl, rfl⟩, _, rfl, rfl⟩

end Neutun
