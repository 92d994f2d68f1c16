/-
  Neutun/Server/State.lean
  ========================
  The control server at run time: every task of `control_server.rs` and
  `remote.rs` that reads or writes shared state, as one step relation.

  A task is cut at its awaits, and the piece between two of them is one function
  from state to state below, under the name of the function it belongs to; `Event`
  names the pieces together with what their environment answers (the outcome of a
  write, what was read, the clock, random draws).  On several threads two pieces
  can run at a time: that `Connections::add` and `Connections::remove` are single
  steps here is an abstraction, and what is left of it when their accesses
  interleave is in `Neutun/Server/Interleaving.lean`.

    * `handle_new_connection` : `hello`, `greet`, `register`, then `ping`s;
    * `tunnel_client`         : one `flush` for each packet;
    * `process_client_messages` : one `message` for each websocket message;
    * `accept_connection`     : `accept`;
    * `process_tcp_stream`    : `init`, then `poll` and `read` in turn;
    * `neutun_stream`         : one `write` for each queued message.
-/
import Mathlib.Logic.Function.Basic
import Neutun.Foundation.Channel
import Neutun.Server.Routing

namespace Neutun

open Foundation

/-! ### Response constants -/

def HTTP_TUNNEL_REFUSED_RESPONSE : Bytes :=
  utf8 "HTTP/1.1 500\r\nContent-Length: 32\r\n\r\nTunnel says: connection refused.".toList

def HTTP_NOT_FOUND_RESPONSE : Bytes :=
  utf8 "HTTP/1.1 404\r\nContent-Length: 23\r\n\r\nError: Tunnel Not Found".toList

/-! ### Messages from a client -/

/-- The bytes of a message that `process_client_messages` reads on; after every
    other message it says goodbye. -/
def NextMessage.protocol : NextMessage → Option Bytes
  | ok (.Text bytes) | ok (.Binary bytes) => if bytes = [] then none else some bytes
  | _ => none

/-- The packet it carries, if any. -/
def NextMessage.packet (result : NextMessage) : Option ControlPacket :=
  result.protocol.bind fun bytes => (ControlPacket.deserialize bytes).toOption

theorem NextMessage.packet_eq_some {result : NextMessage} {packet : ControlPacket} :
    result.packet = some packet ↔
      ∃ bytes, result.protocol = some bytes ∧ ControlPacket.deserialize bytes = .ok packet := by
  unfold NextMessage.packet
  rw [Option.bind_eq_some_iff]
  refine exists_congr fun bytes => and_congr_right ?_
  intro _
  cases ControlPacket.deserialize bytes <;> simp [Except.toOption]

/-! ### Control connections -/

inductive Phase where
  | connecting
  /-- the checks of `auth_client` have passed -/
  | checked (handshake : ClientHandshake)
  /-- `ServerHello::Success` is sent -/
  | announced (handshake : ClientHandshake)
  /-- registered, and its three tasks spawned -/
  | serving (handshake : ClientHandshake)
  | rejected
deriving DecidableEq

/-- One websocket connection: the channel `tx` to its `tunnel_client`, and which
    of its tasks still run. -/
structure Conn where
  phase : Phase
  tx : Channel ControlPacket
  tunnelClient : Bool
  processClientMessages : Bool
  pingPong : Bool
deriving DecidableEq

def Conn.new : Conn := ⟨.connecting, Channel.fresh, false, false, false⟩

/-! ### Remote streams -/

inductive StreamMessage where
  | Data (data : Bytes)
  | TunnelRefused
  | NoClientTunnel
deriving DecidableEq

/-- Its `tx` is the queue of the stream of this id. -/
structure ActiveStream where
  id : StreamId
  client : ConnectedClient
deriving DecidableEq

/-- Where `process_tcp_stream` is. -/
inductive TcpReader where
  | starting
  | polling
  | reading
  | returned
deriving DecidableEq

/-- The remote peer's socket, seen from the server. -/
structure RemoteSocket where
  received : Bytes
  written : Bytes
  shutdown : Bool
deriving DecidableEq

/-- The two tasks of a remote stream and what they own. -/
structure Stream where
  activeStream : ActiveStream
  processTcpStream : TcpReader
  queue : Channel StreamMessage
  neutunStream : Bool
  socket : RemoteSocket
deriving DecidableEq

/-- `ActiveStream::new`, with the tasks that `accept_connection` spawns. -/
def Stream.new (activeStream : ActiveStream) : Stream :=
  ⟨activeStream, .starting, Channel.fresh, true, ⟨[], [], false⟩⟩

/-- The way out of `neutun_stream`: a last response and the shutdown. -/
def Stream.done (stream : Stream) (response : Bytes) : Stream :=
  { stream with
    queue := stream.queue.disconnect
    neutunStream := false
    socket := { stream.socket with
      written := stream.socket.written ++ response
      shutdown := true } }

/-- The loop body of `neutun_stream`, with the result of its write; the flag says
    that it removes the stream from `ACTIVE_STREAMS`. -/
def Stream.turn (stream : Stream) (result : WriteResult) : Option (Stream × Bool) :=
  match stream.neutunStream, stream.queue.queue with
  | true, .Data data :: rest =>
    let socket := { stream.socket with written := stream.socket.written ++ result.written data }
    match result with
    | .ok =>
      some ({ stream with queue := { stream.queue with queue := rest }, socket := socket }, false)
    | .err _ =>
      some ({ stream with
        queue := stream.queue.disconnect
        neutunStream := false
        socket := socket }, false)
  | true, .TunnelRefused :: _ =>
    some (stream.done (result.written HTTP_TUNNEL_REFUSED_RESPONSE), true)
  | true, .NoClientTunnel :: _ =>
    some (stream.done (result.written HTTP_NOT_FOUND_RESPONSE), true)
  | true, [] => if stream.queue.closed then some (stream.done [], true) else none
  | false, _ => none

/-- A turn writes data, fails to, or is the last one. -/
theorem Stream.turn_cases {stream stream' : Stream} {result : WriteResult} {isDone : Bool}
    (h : stream.turn result = some (stream', isDone)) :
    stream.neutunStream = true ∧
      ((∃ data rest, stream.queue.queue = .Data data :: rest ∧ isDone = false ∧
          (result = .ok ∧ stream' = { stream with
              queue := { stream.queue with queue := rest }
              socket := { stream.socket with
                written := stream.socket.written ++ result.written data } } ∨
            (∃ n, result = .err n) ∧ stream' = { stream with
              queue := stream.queue.disconnect
              neutunStream := false
              socket := { stream.socket with
                written := stream.socket.written ++ result.written data } })) ∨
        (∃ rest, stream.queue.queue = .TunnelRefused :: rest ∧ isDone = true ∧
          stream' = stream.done (result.written HTTP_TUNNEL_REFUSED_RESPONSE)) ∨
        (∃ rest, stream.queue.queue = .NoClientTunnel :: rest ∧ isDone = true ∧
          stream' = stream.done (result.written HTTP_NOT_FOUND_RESPONSE)) ∨
        (stream.queue.queue = [] ∧ stream.queue.closed = true ∧ isDone = true ∧
          stream' = stream.done [])) := by
  unfold Stream.turn at h
  split at h
  next data rest hrunning hqueue =>
    refine ⟨hrunning, Or.inl ⟨data, rest, hqueue, ?_⟩⟩
    cases result with
    | ok =>
      obtain ⟨rfl, rfl⟩ := Prod.mk.inj (Option.some.inj h)
      exact ⟨rfl, Or.inl ⟨rfl, rfl⟩⟩
    | err n =>
      obtain ⟨rfl, rfl⟩ := Prod.mk.inj (Option.some.inj h)
      exact ⟨rfl, Or.inr ⟨⟨n, rfl⟩, rfl⟩⟩
  next rest hrunning hqueue =>
    obtain ⟨rfl, rfl⟩ := Prod.mk.inj (Option.some.inj h)
    exact ⟨hrunning, Or.inr (Or.inl ⟨rest, hqueue, rfl, rfl⟩)⟩
  next rest hrunning hqueue =>
    obtain ⟨rfl, rfl⟩ := Prod.mk.inj (Option.some.inj h)
    exact ⟨hrunning, Or.inr (Or.inr (Or.inl ⟨rest, hqueue, rfl, rfl⟩))⟩
  next hrunning hqueue =>
    split at h
    next hclosed =>
      obtain ⟨rfl, rfl⟩ := Prod.mk.inj (Option.some.inj h)
      exact ⟨hrunning, Or.inr (Or.inr (Or.inr ⟨hqueue, hclosed, rfl, rfl⟩))⟩
    · cases h
  · cases h

/-- The loop owns neither the `ActiveStream` nor the reading half of the socket,
    and its turns are not those of the reader. -/
theorem Stream.kept_turn {stream stream' : Stream} {result : WriteResult} {isDone : Bool}
    (h : stream.turn result = some (stream', isDone)) :
    stream'.activeStream = stream.activeStream ∧
      stream'.socket.received = stream.socket.received ∧
      stream'.processTcpStream = stream.processTcpStream := by
  obtain ⟨-, ⟨data, rest, -, -, ⟨-, rfl⟩ | ⟨-, rfl⟩⟩ | ⟨rest, -, -, rfl⟩ | ⟨rest, -, -, rfl⟩ |
    ⟨-, -, -, rfl⟩⟩ := turn_cases h
  all_goals exact ⟨rfl, rfl, rfl⟩

/-! ### The server -/

structure Server where
  connections : Connections
  conns : Nat → Conn
  activeStreams : DashMap StreamId ActiveStream
  streams : StreamId → Option Stream

namespace Server

def new : Server := ⟨Connections.new, fun _ => Conn.new, ∅, fun _ => none⟩

/-- The `ActiveStream` that the tasks of a stream hold. -/
def activeStreamOf (s : Server) (id : StreamId) : Option ActiveStream :=
  (s.streams id).map Stream.activeStream

def setConn (s : Server) (n : Nat) (conn : Conn) : Server :=
  { s with conns := Function.update s.conns n conn }

def setStream (s : Server) (id : StreamId) (stream : Stream) : Server :=
  { s with streams := Function.update s.streams id (some stream) }

/-- `Connections::remove` -/
def remove (s : Server) (client : ConnectedClient) : Server :=
  { s.setConn client.tx { s.conns client.tx with tx := (s.conns client.tx).tx.close } with
    connections := s.connections.remove client }

/-- `client.tx.send(packet)` -/
def sendToClient (s : Server) (client : ConnectedClient) (packet : ControlPacket) :
    Option Server :=
  ((s.conns client.tx).tx.send packet).map fun tx =>
    s.setConn client.tx { s.conns client.tx with tx := tx }

/-- `stream.tx.send(message)` for the entry of `ACTIVE_STREAMS`, if there is one;
    a failure is only logged. -/
def sendToStream (s : Server) (id : StreamId) (message : StreamMessage) : Server :=
  match s.activeStreams.lookup id with
  | none => s
  | some activeStream =>
    match s.streams activeStream.id with
    | none => s
    | some stream =>
      s.setStream activeStream.id { stream with queue := stream.queue.sendOrDrop message }

section Frames

variable (s : Server) (n : Nat) (conn : Conn) (id : StreamId) (stream : Stream)
  (client : ConnectedClient)

theorem conns_setConn (m : Nat) :
    (s.setConn n conn).conns m = if m = n then conn else s.conns m :=
  Function.update_apply s.conns n conn m

@[simp] theorem activeStreams_setStream :
    (s.setStream id stream).activeStreams = s.activeStreams := rfl

theorem streams_setStream (sid : StreamId) :
    (s.setStream id stream).streams sid = if sid = id then some stream else s.streams sid :=
  Function.update_apply s.streams id (some stream) sid

theorem conns_remove (m : Nat) : (s.remove client).conns m =
    if m = client.tx then { s.conns m with tx := (s.conns m).tx.close } else s.conns m := by
  apply (s.conns_setConn client.tx _ m).trans
  split
  next heq => rw [heq]
  · rfl

theorem phase_remove (m : Nat) : ((s.remove client).conns m).phase = (s.conns m).phase := by
  rw [conns_remove]
  split <;> rfl

theorem closed_remove : ((s.remove client).conns client.tx).tx.closed = true := by
  rw [conns_remove, if_pos rfl]
  rfl

/-- A send succeeds on an open channel only, and then does nothing else. -/
theorem sendToClient_eq_some {s t : Server} {client : ConnectedClient} {packet : ControlPacket} :
    s.sendToClient client packet = some t ↔ (s.conns client.tx).tx.closed = false ∧
      t = s.setConn client.tx { s.conns client.tx with
        tx := ⟨(s.conns client.tx).tx.queue ++ [packet], false⟩ } := by
  unfold sendToClient
  rw [Option.map_eq_some_iff]
  constructor
  · rintro ⟨tx, htx, rfl⟩
    obtain ⟨hopen, rfl⟩ := Channel.send_eq_some.mp htx
    exact ⟨hopen, rfl⟩
  · rintro ⟨hopen, rfl⟩
    exact ⟨_, Channel.send_eq_some.mpr ⟨hopen, rfl⟩, rfl⟩

theorem sendToClient_eq_none {s : Server} {client : ConnectedClient} {packet : ControlPacket} :
    s.sendToClient client packet = none ↔ (s.conns client.tx).tx.closed = true := by
  unfold sendToClient
  rw [Option.map_eq_none_iff, Channel.send_eq_none]

variable (message : StreamMessage)

@[simp] theorem connections_sendToStream :
    (s.sendToStream id message).connections = s.connections := by
  unfold sendToStream
  split
  · rfl
  · split <;> rfl

@[simp] theorem conns_sendToStream : (s.sendToStream id message).conns = s.conns := by
  unfold sendToStream
  split
  · rfl
  · split <;> rfl

@[simp] theorem activeStreams_sendToStream :
    (s.sendToStream id message).activeStreams = s.activeStreams := by
  unfold sendToStream
  split
  · rfl
  · split <;> rfl

/-- The queues after a dispatch: the one that the table has under the id has
    been sent the message. -/
theorem streams_sendToStream (sid : StreamId) : (s.sendToStream id message).streams sid =
    if (s.activeStreams.lookup id).any (fun a => decide (a.id = sid)) then
      (s.streams sid).map fun stream =>
        { stream with queue := stream.queue.sendOrDrop message }
    else s.streams sid := by
  unfold sendToStream
  split
  next hnone => simp [hnone]
  next activeStream hsome =>
    rw [hsome]
    by_cases hid : activeStream.id = sid
    · subst hid
      simp only [Option.any_some, decide_true, if_true]
      split
      next hstream => rw [hstream]; rfl
      next stream hstream => rw [streams_setStream, if_pos rfl, hstream]; rfl
    · simp only [Option.any_some, hid, decide_false, Bool.false_eq_true, if_false]
      split
      · rfl
      · rw [streams_setStream, if_neg (Ne.symm hid)]

/-- What happens to a stream leaves its `ActiveStream` alone. -/
theorem activeStreamOf_setStream {s t : Server} {id : StreamId} {old stream : Stream}
    (hstreams : t.streams = s.streams) (hold : s.streams id = some old)
    (h : stream.activeStream = old.activeStream) :
    (t.setStream id stream).activeStreamOf = s.activeStreamOf := by
  funext sid
  unfold activeStreamOf
  rw [streams_setStream, hstreams]
  split
  next heq => rw [heq, hold, Option.map_some, Option.map_some, h]
  · rfl

theorem activeStreamOf_sendToStream :
    (s.sendToStream id message).activeStreamOf = s.activeStreamOf := by
  funext sid
  unfold activeStreamOf
  rw [streams_sendToStream]
  split
  · rw [Option.map_map]
    rfl
  · rfl

theorem streams_sendToClient {s t : Server} {client : ConnectedClient} {packet : ControlPacket}
    (h : s.sendToClient client packet = some t) :
    t.streams = s.streams ∧ t.activeStreams = s.activeStreams := by
  obtain ⟨-, rfl⟩ := sendToClient_eq_some.mp h
  exact ⟨rfl, rfl⟩

/-- A send to a client leaves the streams alone, and so does the step if what it
    falls back on does. -/
theorem streams_sendOr (packet : ControlPacket) (fallback : Server)
    (h : fallback.streams = s.streams ∧ fallback.activeStreams = s.activeStreams) :
    ((s.sendToClient client packet).getD fallback).streams = s.streams ∧
      ((s.sendToClient client packet).getD fallback).activeStreams = s.activeStreams := by
  cases hsend : s.sendToClient client packet with
  | none => exact h
  | some t => exact streams_sendToClient hsend

end Frames

variable (p : Platform) (cfg : Config)

/-! ### `handle_new_connection` -/

/-- Everything before `ServerHello::Success`: a blocked address gets no
    handshake, and neither does a connection without a first message (`none`) or
    with one that does not parse (`some none`). -/
def authClientHandshake (s : Server) (clientIp : IpAddr)
    (clientHello : Option (Option ClientHello)) (now : Time) (generated : ClientId)
    (random : Text) : Option ClientHandshake :=
  if clientIp ∈ cfg.blockedIps then none
  else
    match clientHello with
    | none => none
    | some hello => (authClient p cfg s.connections now generated random hello).toOption

def hello (s : Server) (n : Nat) (clientIp : IpAddr) (clientHello : Option (Option ClientHello))
    (now : Time) (generated : ClientId) (random : Text) : Option Server :=
  match (s.conns n).phase with
  | .connecting =>
    let handshake := s.authClientHandshake p cfg clientIp clientHello now generated random
    some (s.setConn n { s.conns n with phase := handshake.elim .rejected .checked })
  | _ => none

/-- The rest of `try_client_handshake`: sending `ServerHello::Success`. -/
def greet (s : Server) (n : Nat) (sent : Bool) : Option Server :=
  match (s.conns n).phase with
  | .checked handshake =>
    let phase := if sent then .announced handshake else .rejected
    some (s.setConn n { s.conns n with phase := phase })
  | _ => none

/-- `Connections::add` and the spawns. -/
def register (s : Server) (n : Nat) : Option Server :=
  match (s.conns n).phase with
  | .announced handshake =>
    some { s.setConn n ⟨.serving handshake, Channel.fresh, true, true, true⟩ with
      connections := s.connections.add (handshake.client n) }
  | _ => none

/-- The token that a ping carries. -/
def reconnectToken (handshake : ClientHandshake) (now : Time) : Option ReconnectToken :=
  if handshake.isAnonymous then
    let payload : ReconnectTokenPayload := ⟨handshake.subDomain, handshake.id, now + 2 * 60⟩
    (payload.intoToken p cfg.masterSigKey).toOption
  else none

/-- One turn of the ping loop. -/
def ping (s : Server) (n : Nat) (now : Time) : Option Server :=
  match (s.conns n).phase, (s.conns n).pingPong with
  | .serving handshake, true =>
    let client := handshake.client n
    let failed := s.remove client
    some ((s.sendToClient client (.Ping (reconnectToken p cfg handshake now))).getD
      (failed.setConn n { failed.conns n with pingPong := false }))
  | _, _ => none

/-! ### `tunnel_client` -/

/-- Take a packet off the queue and send it; when the task returns, the queue is
    dropped with it. -/
def flush (s : Server) (n : Nat) (sent : Bool) : Option Server :=
  match (s.conns n).phase, (s.conns n).tunnelClient with
  | .serving handshake, true =>
    let tx := (s.conns n).tx
    match tx.queue with
    | _ :: rest =>
      if sent then some (s.setConn n { s.conns n with tx := { tx with queue := rest } })
      else
        let t := s.remove (handshake.client n)
        some (t.setConn n { t.conns n with tx := tx.disconnect, tunnelClient := false })
    | [] =>
      if tx.closed then
        some (s.setConn n { s.conns n with tx := tx.disconnect, tunnelClient := false })
      else none
  | _, _ => none

/-! ### `process_client_messages` -/

/-- What one packet of `client` does. -/
def handlePacket (s : Server) (client : ConnectedClient) : ControlPacket → Server
  | .Data streamId data => s.sendToStream streamId (.Data data)
  | .Refused streamId => s.sendToStream streamId .TunnelRefused
  -- invalid protocol control::init message
  | .Init _ | .End _ => s
  | .Ping _ => { s with connections := s.connections.add client }

/-- One turn of the loop. -/
def processMessage (s : Server) (client : ConnectedClient) (result : NextMessage) : Server :=
  match result.protocol with
  | none =>
    let t := s.remove client
    t.setConn client.tx { t.conns client.tx with processClientMessages := false }
  | some bytes =>
    match ControlPacket.deserialize bytes with
    | .error _ => s
    | .ok packet => s.handlePacket client packet

def message (s : Server) (n : Nat) (result : NextMessage) : Option Server :=
  match (s.conns n).phase, (s.conns n).processClientMessages with
  | .serving handshake, true => some (s.processMessage (handshake.client n) result)
  | _, _ => none

theorem message_eq_some {s t : Server} {n : Nat} {result : NextMessage} :
    s.message n result = some t ↔ ∃ handshake, (s.conns n).phase = .serving handshake ∧
      (s.conns n).processClientMessages = true ∧
      t = s.processMessage (handshake.client n) result := by
  unfold message
  cases hphase : (s.conns n).phase with
  | serving handshake => cases (s.conns n).processClientMessages <;> simp [eq_comm]
  | _ => simp

/-! ### `accept_connection` -/

/-- A remote connection for `host`; `streamId` is what `StreamId::generate`
    returns, never an id that is in use. -/
def accept (s : Server) (streamId : StreamId) (host : Text) : Option Server :=
  match s.streams streamId with
  | some _ => none
  | none =>
    match acceptConnection cfg s.connections host with
    | .Forward client =>
      let activeStream : ActiveStream := ⟨streamId, client⟩
      some { s.setStream streamId (Stream.new activeStream) with
        activeStreams := s.activeStreams.insert streamId activeStream }
    | _ => some s

/-! ### `process_tcp_stream` -/

/-- `send_client_stream_init` -/
def init (s : Server) (streamId : StreamId) : Option Server :=
  match s.streams streamId with
  | some stream =>
    match stream.processTcpStream with
    | .starting =>
      let t := (s.sendToClient stream.activeStream.client (.Init streamId)).getD
        (s.remove stream.activeStream.client)
      some (t.setStream streamId { stream with processTcpStream := .polling })
    | _ => none
  | none => none

/-- The test at the top of the loop. -/
def poll (s : Server) (streamId : StreamId) : Option Server :=
  match s.streams streamId with
  | some stream =>
    match stream.processTcpStream with
    | .polling =>
      if (s.connections.get stream.activeStream.client.id).isNone then
        some (s.setStream streamId { stream with
          queue := (stream.queue.sendOrDrop .NoClientTunnel).close
          processTcpStream := .returned })
      else some (s.setStream streamId { stream with processTcpStream := .reading })
    | _ => none
  | none => none

/-- The rest of the loop body, from the read on; the buffer holds 1024 bytes. -/
def read (s : Server) (streamId : StreamId) (result : ReadResult) : Option Server :=
  match s.streams streamId with
  | some stream =>
    let client := stream.activeStream.client
    match stream.processTcpStream with
    | .reading =>
      match result with
      | .err => some (s.setStream streamId { stream with processTcpStream := .returned })
      | .ok [] =>
        let t := (s.sendToClient client (.End streamId)).getD s
        some (t.setStream streamId { stream with processTcpStream := .returned })
      | .ok data =>
        if 1024 < data.length then none
        else
          let t := (s.sendToClient client (.Data streamId data)).getD (s.remove client)
          let socket := { stream.socket with received := stream.socket.received ++ data }
          some (t.setStream streamId { stream with socket := socket, processTcpStream := .polling })
    | _ => none
  | none => none

/-! ### `neutun_stream` -/

/-- One turn of the loop of `neutun_stream`; a stream that is done leaves the
    table. -/
def write (s : Server) (id : StreamId) (result : WriteResult) : Option Server :=
  match s.streams id with
  | some stream =>
    match stream.turn result with
    | some (stream', isDone) =>
      let t := s.setStream id stream'
      some (if isDone then { t with activeStreams := s.activeStreams.erase id } else t)
    | none => none
  | none => none

/-! ### What each step does -/

section Cases

variable {p cfg} {s t : Server} {n : Nat} {id : StreamId}

/-- Only a client that `auth_client` lets through gets a handshake. -/
theorem authClientHandshake_eq_some {clientIp : IpAddr} {clientHello : Option (Option ClientHello)}
    {now : Time} {generated : ClientId} {random : Text} {hs : ClientHandshake} :
    s.authClientHandshake p cfg clientIp clientHello now generated random = some hs ↔
      clientIp ∉ cfg.blockedIps ∧ ∃ hello, clientHello = some (some hello) ∧
        authClient p cfg s.connections now generated random (some hello) = .ok hs := by
  unfold authClientHandshake
  by_cases hip : clientIp ∈ cfg.blockedIps
  · simp [hip]
  rcases clientHello with _ | _ | hello
  · simp [hip]
  · simp [hip, authClient, Except.toOption]
  · cases hauth : authClient p cfg s.connections now generated random (some hello) <;>
      simp [hip, hauth, Except.toOption]

theorem hello_cases {clientIp : IpAddr} {clientHello : Option (Option ClientHello)} {now : Time}
    {generated : ClientId} {random : Text}
    (h : s.hello p cfg n clientIp clientHello now generated random = some t) :
    (s.conns n).phase = .connecting ∧
      t = s.setConn n { s.conns n with
        phase := (s.authClientHandshake p cfg clientIp clientHello now generated random).elim
          .rejected .checked } := by
  unfold hello at h
  split at h
  next hphase => exact ⟨hphase, (Option.some.inj h).symm⟩
  · cases h

theorem greet_cases {sent : Bool} (h : s.greet n sent = some t) :
    ∃ handshake, (s.conns n).phase = .checked handshake ∧
      t = s.setConn n { s.conns n with
        phase := if sent then .announced handshake else .rejected } := by
  unfold greet at h
  split at h
  next handshake hphase => exact ⟨handshake, hphase, (Option.some.inj h).symm⟩
  · cases h

theorem register_cases (h : s.register n = some t) :
    ∃ handshake, (s.conns n).phase = .announced handshake ∧
      t = { s.setConn n ⟨.serving handshake, Channel.fresh, true, true, true⟩ with
        connections := s.connections.add (handshake.client n) } := by
  unfold register at h
  split at h
  next handshake hphase => exact ⟨handshake, hphase, (Option.some.inj h).symm⟩
  · cases h

theorem ping_cases {now : Time} (h : s.ping p cfg n now = some t) :
    ∃ handshake, (s.conns n).phase = .serving handshake ∧ (s.conns n).pingPong = true ∧
      t = (s.sendToClient (handshake.client n)
        (.Ping (reconnectToken p cfg handshake now))).getD
          ((s.remove (handshake.client n)).setConn n
            { (s.remove (handshake.client n)).conns n with pingPong := false }) := by
  unfold ping at h
  split at h
  next handshake hphase hping => exact ⟨handshake, hphase, hping, (Option.some.inj h).symm⟩
  · cases h

/-- A packet is sent or not, or the closed channel has run empty. -/
theorem flush_cases {sent : Bool} (h : s.flush n sent = some t) :
    ∃ handshake, (s.conns n).phase = .serving handshake ∧ (s.conns n).tunnelClient = true ∧
      ((∃ packet rest, (s.conns n).tx.queue = packet :: rest ∧
          (sent = true ∧ t = s.setConn n { s.conns n with
              tx := { (s.conns n).tx with queue := rest } } ∨
            sent = false ∧ t = (s.remove (handshake.client n)).setConn n
              { (s.remove (handshake.client n)).conns n with
                tx := (s.conns n).tx.disconnect
                tunnelClient := false })) ∨
        (s.conns n).tx.queue = [] ∧ (s.conns n).tx.closed = true ∧
          t = s.setConn n { s.conns n with
            tx := (s.conns n).tx.disconnect
            tunnelClient := false }) := by
  unfold flush at h
  split at h
  next handshake hphase htunnel =>
    refine ⟨handshake, hphase, htunnel, ?_⟩
    simp only at h
    split at h
    next packet rest hqueue =>
      refine Or.inl ⟨packet, rest, hqueue, ?_⟩
      cases sent with
      | true => exact Or.inl ⟨rfl, (Option.some.inj h).symm⟩
      | false => exact Or.inr ⟨rfl, (Option.some.inj h).symm⟩
    next hqueue =>
      split at h
      next hclosed => exact Or.inr ⟨hqueue, hclosed, (Option.some.inj h).symm⟩
      · cases h
  · cases h

theorem accept_cases {host : Text} (h : s.accept cfg id host = some t) :
    s.streams id = none ∧
      ((∃ client, acceptConnection cfg s.connections host = .Forward client ∧
          t = { s.setStream id (Stream.new ⟨id, client⟩) with
            activeStreams := s.activeStreams.insert id ⟨id, client⟩ }) ∨
        (∀ client, acceptConnection cfg s.connections host ≠ .Forward client) ∧ t = s) := by
  unfold accept at h
  split at h
  · cases h
  next hfresh =>
    refine ⟨hfresh, ?_⟩
    split at h
    next client hroute => exact Or.inl ⟨client, hroute, (Option.some.inj h).symm⟩
    next hroute => exact Or.inr ⟨fun client => hroute client, (Option.some.inj h).symm⟩

theorem init_cases (h : s.init id = some t) :
    ∃ stream, s.streams id = some stream ∧ stream.processTcpStream = .starting ∧
      t = ((s.sendToClient stream.activeStream.client (.Init id)).getD
        (s.remove stream.activeStream.client)).setStream id
          { stream with processTcpStream := .polling } := by
  unfold init at h
  split at h
  next stream hstream =>
    split at h
    next hstarting => exact ⟨stream, hstream, hstarting, (Option.some.inj h).symm⟩
    · cases h
  · cases h

theorem poll_cases (h : s.poll id = some t) :
    ∃ stream, s.streams id = some stream ∧ stream.processTcpStream = .polling ∧
      (s.connections.get stream.activeStream.client.id = none ∧
          t = s.setStream id { stream with
            queue := (stream.queue.sendOrDrop .NoClientTunnel).close
            processTcpStream := .returned } ∨
        s.connections.get stream.activeStream.client.id ≠ none ∧
          t = s.setStream id { stream with processTcpStream := .reading }) := by
  unfold poll at h
  split at h
  next stream hstream =>
    split at h
    next hpolling =>
      refine ⟨stream, hstream, hpolling, ?_⟩
      split at h
      next hnone => exact Or.inl ⟨Option.isNone_iff_eq_none.mp hnone, (Option.some.inj h).symm⟩
      next hsome =>
        refine Or.inr ⟨?_, (Option.some.inj h).symm⟩
        intro hnone
        exact hsome (Option.isNone_iff_eq_none.mpr hnone)
    · cases h
  · cases h

theorem read_cases {result : ReadResult} (h : s.read id result = some t) :
    ∃ stream, s.streams id = some stream ∧ stream.processTcpStream = .reading ∧
      (result = .err ∧ t = s.setStream id { stream with processTcpStream := .returned } ∨
        result = .ok [] ∧ t = ((s.sendToClient stream.activeStream.client (.End id)).getD
            s).setStream id { stream with processTcpStream := .returned } ∨
        ∃ data, result = .ok data ∧ data ≠ [] ∧ data.length ≤ 1024 ∧
          t = ((s.sendToClient stream.activeStream.client (.Data id data)).getD
            (s.remove stream.activeStream.client)).setStream id { stream with
              socket := { stream.socket with received := stream.socket.received ++ data }
              processTcpStream := .polling }) := by
  unfold read at h
  split at h
  next stream hstream =>
    simp only at h
    split at h
    next hreading =>
      refine ⟨stream, hstream, hreading, ?_⟩
      split at h
      · exact Or.inl ⟨rfl, (Option.some.inj h).symm⟩
      · exact Or.inr (Or.inl ⟨rfl, (Option.some.inj h).symm⟩)
      next data hdata =>
        split at h
        · cases h
        next hlen =>
          exact Or.inr (Or.inr ⟨data, rfl, hdata, Nat.le_of_not_lt hlen, (Option.some.inj h).symm⟩)
    · cases h
  · cases h

theorem write_cases {result : WriteResult} (h : s.write id result = some t) :
    ∃ stream stream' isDone, s.streams id = some stream ∧
      stream.turn result = some (stream', isDone) ∧
      t = if isDone then { s.setStream id stream' with activeStreams := s.activeStreams.erase id }
        else s.setStream id stream' := by
  unfold write at h
  split at h
  next stream hstream =>
    split at h
    next stream' isDone hturn =>
      exact ⟨stream, stream', isDone, hstream, hturn, (Option.some.inj h).symm⟩
    · cases h
  · cases h

end Cases

end Server

/-! ### Steps -/

inductive ServerEvent where
  | hello (n : Nat) (clientIp : IpAddr) (clientHello : Option (Option ClientHello)) (now : Time)
      (generated : ClientId) (random : Text)
  | greet (n : Nat) (sent : Bool)
  | register (n : Nat)
  | ping (n : Nat) (now : Time)
  | flush (n : Nat) (sent : Bool)
  | message (n : Nat) (result : NextMessage)
  | accept (streamId : StreamId) (host : Text)
  | init (streamId : StreamId)
  | poll (streamId : StreamId)
  | read (streamId : StreamId) (result : ReadResult)
  | write (streamId : StreamId) (result : WriteResult)
  /-- the order in which the clients' table is iterated changes -/
  | iterate (order : List (Sigma fun _ : ClientId => ConnectedClient))

def Server.step (p : Platform) (cfg : Config) (s : Server) : ServerEvent → Option Server
  | .hello n clientIp clientHello now generated random =>
    s.hello p cfg n clientIp clientHello now generated random
  | .greet n sent => s.greet n sent
  | .register n => s.register n
  | .ping n now => s.ping p cfg n now
  | .flush n sent => s.flush n sent
  | .message n result => s.message n result
  | .accept streamId host => s.accept cfg streamId host
  | .init streamId => s.init streamId
  | .poll streamId => s.poll streamId
  | .read streamId result => s.read streamId result
  | .write streamId result => s.write streamId result
  | .iterate order => some { s with connections := s.connections.iterate order }

/-- The way of an admitted connection, told that it has its name. -/
theorem Server.greet_checked (p : Platform) (cfg : Config) {s : Server} {n : Nat}
    {h : ClientHandshake} (hn : (s.conns n).phase = .checked h) :
    ∃ u, s.step p cfg (.greet n true) = some u ∧ (u.conns n).phase = .announced h ∧
      (∀ m, m ≠ n → u.conns m = s.conns m) ∧ u.connections = s.connections := by
  refine ⟨s.setConn n { s.conns n with phase := .announced h }, ?_, ?_, ?_, rfl⟩
  · simp only [step, greet, hn, if_true]
  · rw [conns_setConn, if_pos rfl]
  · intro m hm
    rw [conns_setConn, if_neg hm]

/-- The same, from there on. -/
theorem Server.register_announced (p : Platform) (cfg : Config) {s : Server} {n : Nat}
    {h : ClientHandshake} (hn : (s.conns n).phase = .announced h) :
    ∃ u, s.step p cfg (.register n) = some u ∧
      u.conns n = ⟨.serving h, Channel.fresh, true, true, true⟩ ∧
      (∀ m, m ≠ n → u.conns m = s.conns m) ∧ u.connections = s.connections.add (h.client n) := by
  refine ⟨{ s.setConn n ⟨.serving h, Channel.fresh, true, true, true⟩ with
    connections := s.connections.add (h.client n) }, ?_, ?_, ?_, rfl⟩
  · simp only [step, register, hn]
  · exact (conns_setConn _ _ _ n).trans (if_pos rfl)
  · intro m hm
    exact (conns_setConn _ _ _ m).trans (if_neg hm)

/-- The tasks of a connection but for the reading one, and the table of clients. -/
def Server.ofConnection : ServerEvent → Bool
  | .hello .. | .greet _ _ | .register _ | .ping _ _ | .flush _ _ | .iterate _ => true
  | _ => false

/-- They do not touch the streams. -/
theorem Server.step_ofConnection {p : Platform} {cfg : Config} {s t : Server} {e : ServerEvent}
    (he : ofConnection e = true) (h : s.step p cfg e = some t) :
    t.streams = s.streams ∧ t.activeStreams = s.activeStreams := by
  cases e with
  | hello n clientIp clientHello now generated random =>
    obtain ⟨-, rfl⟩ := hello_cases h
    exact ⟨rfl, rfl⟩
  | greet n sent =>
    obtain ⟨handshake, -, rfl⟩ := greet_cases h
    exact ⟨rfl, rfl⟩
  | register n =>
    obtain ⟨handshake, -, rfl⟩ := register_cases h
    exact ⟨rfl, rfl⟩
  | ping n now =>
    obtain ⟨handshake, -, -, rfl⟩ := ping_cases h
    exact s.streams_sendOr _ _ _ ⟨rfl, rfl⟩
  | flush n sent =>
    obtain ⟨handshake, -, -, hflush⟩ := flush_cases h
    rcases hflush with ⟨packet, rest, -, ⟨-, rfl⟩ | ⟨-, rfl⟩⟩ | ⟨-, -, rfl⟩
    · exact ⟨rfl, rfl⟩
    · exact ⟨rfl, rfl⟩
    · exact ⟨rfl, rfl⟩
  | iterate order =>
    obtain rfl := Option.some.inj h
    exact ⟨rfl, rfl⟩
  | _ => cases he

/-- The server, from its start. -/
def server (p : Platform) (cfg : Config) : Machine Server ServerEvent where
  start s := s = Server.new
  step := Server.step p cfg

end Neutun
