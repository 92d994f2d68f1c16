/-
  Neutun/Network/State.lean
  =========================
  The server and one client, joined by their websockets.

  The tunnel `w` of the client is the connection `link w` of the server.  What
  `tunnel_client` and the writer of `run_wormhole` send is on its way on `down`
  and `up`, in order, until `run_wormhole` and `process_client_messages` read it;
  that a websocket fails is left to the two ends (`err`, `done` and writes that
  are not `sent`), each of which finds out for itself.

  Messages of anybody else come in by `peer`: those of other clients, and what
  else may turn up on a connection.
-/
import Neutun.Foundation.Conduit
import Neutun.Client.Tunnels
import Neutun.Server.Feed

namespace Neutun

open Foundation

structure Network where
  server : Server
  client : Client
  up : Wires Message
  down : Wires Message

inductive NetworkEvent where
  | server (e : ServerEvent)
  | client (e : ClientEvent)
  | peer (n : Nat) (message : Message)

namespace Network

def new : Network := ⟨Server.new, Client.new, fun _ => [], fun _ => []⟩

variable (p : Platform) (cfg : Config) (useTls : Bool) (link : Nat → Nat)

/-- What a step of the server reads from a connection. -/
def serverTakes : ServerEvent → Option (Nat × Message)
  | .message n (.ok message) => some (n, message)
  | _ => none

/-- What a step of the server sends on a connection. -/
def serverPuts (s : Server) (e : ServerEvent) : Option (Nat × Message) :=
  (s.writes e).map fun (n, packet) => (n, .Binary packet.serialize)

/-- What a step of the client reads from the connection of the present tunnel. -/
def clientTakes (c : Client) : ClientEvent → Option (Nat × Message)
  | .receive (.ok message) => some (link c.wormhole, message)
  | _ => none

/-- What a step of the client sends on the connection of a tunnel. -/
def clientPuts (c : Client) (e : ClientEvent) : Option (Nat × Message) :=
  (c.writes e).map fun (w, packet) => (link w, .Binary packet.serialize)

/-- A wormhole is connected once the server has sent it `ServerHello::Success`. -/
def accepted (s : Network) : ClientEvent → Bool
  | .startWormhole (.ok _) =>
    match (s.server.conns (link (s.client.wormhole + 1))).phase with
    | .announced _ | .serving _ => true
    | _ => false
  | _ => true

def step (s : Network) : NetworkEvent → Option Network
  | .server e =>
    match s.server.step p cfg e, s.up.take (serverTakes e) with
    | some server, some up =>
      some ⟨server, s.client, up, s.down.put (serverPuts s.server e)⟩
    | _, _ => none
  | .client e =>
    if s.accepted link e then
      match s.client.step useTls e, s.down.take (clientTakes link s.client e) with
      | some client, some down =>
        some ⟨s.server, client, s.up.put (clientPuts link s.client e), down⟩
      | _, _ => none
    else none
  | .peer n message => some { s with up := s.up.put (some (n, message)) }

end Network

/-- Server and client, from their start. -/
def network (p : Platform) (cfg : Config) (useTls : Bool) (link : Nat → Nat) :
    Machine Network NetworkEvent where
  start s := s = Network.new
  step := Network.step p cfg useTls link

namespace Network

variable {p : Platform} {cfg : Config} {useTls : Bool} {link : Nat → Nat} {s t : Network}

theorem step_server {e : ServerEvent} (h : s.step p cfg useTls link (.server e) = some t) :
    s.server.step p cfg e = some t.server ∧ s.up.take (serverTakes e) = some t.up ∧
      t.down = s.down.put (serverPuts s.server e) ∧ t.client = s.client := by
  unfold step at h
  split at h
  next e' heq =>
    obtain rfl : e = e' := by injection heq
    split at h
    next server up hserver hup =>
      obtain rfl := Option.some.inj h
      exact ⟨hserver, hup, rfl, rfl⟩
    · cases h
  next heq => cases heq
  next heq => cases heq

theorem step_client {e : ClientEvent} (h : s.step p cfg useTls link (.client e) = some t) :
    s.client.step useTls e = some t.client ∧
      s.down.take (clientTakes link s.client e) = some t.down ∧
      t.up = s.up.put (clientPuts link s.client e) ∧ t.server = s.server := by
  simp only [step] at h
  split at h
  · split at h
    next client down hclient hdown =>
      obtain rfl := Option.some.inj h
      exact ⟨hclient, hdown, rfl, rfl⟩
    · cases h
  · cases h

/-! ### The two ends are well-formed -/

structure WellFormed (s : Network) : Prop where
  server : s.server.WellFormed
  client : s.client.WellFormed
  bounded : s.client.Bounded

theorem wellFormed_new : WellFormed Network.new :=
  ⟨Server.wellFormed_new, Client.wellFormed_new, Client.bounded_new⟩

theorem wellFormed_step (hwf : s.WellFormed) {e : NetworkEvent}
    (h : s.step p cfg useTls link e = some t) : t.WellFormed := by
  cases e with
  | server e =>
    obtain ⟨hserver, -, -, hclient⟩ := step_server h
    refine ⟨Server.wellFormed_step hwf.server hserver, ?_, ?_⟩
    · rw [hclient]
      exact hwf.client
    · rw [hclient]
      exact hwf.bounded
  | client e =>
    obtain ⟨hclient, -, -, hserver⟩ := step_client h
    refine ⟨?_, Client.wellFormed_step hwf.client hclient, Client.bounded_step hwf.bounded hclient⟩
    rw [hserver]
    exact hwf.server
  | peer n message =>
    obtain rfl := Option.some.inj h
    exact ⟨hwf.server, hwf.client, hwf.bounded⟩

end Network

end Neutun
