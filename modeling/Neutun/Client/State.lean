/-
  Neutun/Client/State.lean
  ========================
  The client at run time: the tasks of `main.rs` and `local.rs` around
  `run_tunnel`, as one step relation.

  As on the server, a task is cut where it waits or where it touches what another
  task can touch, and each piece is a function from state to state under the name
  of the function it belongs to.

    * `run_tunnel` : `startWormhole`, `decide` and `interrupt`;
    * `run_wormhole` : `receive` takes the next websocket message through
      `process_control_flow_message`, which for `Data` goes on with `connect`,
      `insert` and `forward`; its writer task takes one `flush` for each packet;
    * `process_local_tcp` : `readLocal`;
    * `forward_to_local_tcp` : `writeLocal`;
    * the task spawned for an `End` : `endTask`.

  `ACTIVE_STREAMS` and `RECONNECT_TOKEN` outlive a wormhole, and so do the tasks
  of a local connection, which keep sending to the tunnel they were made with.
-/
import Mathlib.Logic.Function.Basic
import Neutun.Foundation.Channel
import Neutun.Foundation.Machine
import Neutun.Foundation.SecondaryIndex
import Neutun.Wire

namespace Neutun

open Foundation

/-- `error.rs`, without what the messages carry for display. -/
inductive Error where
  | WebSocketError
  | AuthenticationFailed
  | MalformedMessageFromServer
  | InvalidSubDomain
  | SubDomainInUse
  | ServerError
  | ServerReplyInvalid
  | NoResponseFromServer
  | Timeout
deriving DecidableEq, Repr

/-- The bytes of a websocket message, `message.into_data()`. -/
def Message.data : Message → Bytes
  | Text bytes | Binary bytes | Ping bytes | Pong bytes | Close bytes => bytes

namespace Client

inductive StreamMessage where
  | Data (data : Bytes)
  | Close
deriving DecidableEq

/-! ### Local connections -/

/-- Where `process_local_tcp` is. -/
inductive LocalReader where
  | reading
  | returned
  | panicked
deriving DecidableEq

/-- Where `forward_to_local_tcp` is. -/
inductive Forwarder where
  | spawning
  | running
  | returned
  | panicked
deriving DecidableEq

/-- A connection to the local service, seen from the client. -/
structure LocalSocket where
  received : Bytes
  written : Bytes
  shutdown : Bool
deriving DecidableEq

/-- What one successful `setup_new_stream` makes: a connection for a stream, its
    two tasks, and the queue of the second one.  `wormhole` tells the tunnel that
    the reader sends to. -/
structure LocalStream where
  streamId : StreamId
  wormhole : Nat
  processLocalTcp : LocalReader
  queue : Channel StreamMessage
  forwardToLocalTcp : Forwarder
  socket : LocalSocket
deriving DecidableEq

def LocalStream.new (streamId : StreamId) (wormhole : Nat) : LocalStream :=
  ⟨streamId, wormhole, .reading, Channel.fresh, .spawning, ⟨[], [], false⟩⟩

/-- The result of `TcpStream::connect` and, with TLS, of what follows it. -/
inductive ConnectResult where
  | ok
  | err
  | invalidName
deriving DecidableEq

/-! ### The other tasks -/

/-- Where the reading loop of `run_wormhole` is, and `run_tunnel` around it. -/
inductive Control where
  | starting
  | reading
  | connecting (streamId : StreamId) (data : Bytes)
  | inserting (streamId : StreamId) (data : Bytes) (stream : Nat)
  | forwarding (streamId : StreamId) (data : Bytes)
  | returned (result : Except Error Unit)
  | exited (error : Error)

/-- The task spawned for an `End` packet; `sleeping` holds a sender. -/
inductive EndTask where
  | spawned (streamId : StreamId)
  | sleeping (streamId : StreamId) (stream : Nat)
  | removing (streamId : StreamId)
  | returned
deriving DecidableEq

/-- The tunnel channel of a wormhole and its writer task. -/
structure Tunnel where
  channel : Channel ControlPacket
  writer : Bool
deriving DecidableEq

end Client

open Client in
/-- `streams` counts the local connections made so far, `wormhole` the tunnels. -/
structure Client where
  activeStreams : Table StreamId Nat
  reconnectToken : Option ReconnectToken
  locals : Nat → Option LocalStream
  streams : Nat
  endTasks : List EndTask
  tunnels : Nat → Tunnel
  wormhole : Nat
  restart : List (Option Error)
  control : Control

namespace Client

def new : Client where
  activeStreams := ∅
  reconnectToken := none
  locals _ := none
  streams := 0
  endTasks := []
  tunnels _ := ⟨Channel.fresh, false⟩
  wormhole := 0
  restart := []
  control := .starting

def setLocal (c : Client) (n : Nat) (stream : LocalStream) : Client :=
  { c with locals := Function.update c.locals n (some stream) }

def setTunnel (c : Client) (w : Nat) (tunnel : Tunnel) : Client :=
  { c with tunnels := Function.update c.tunnels w tunnel }

/-- `tunnel_tx.send(packet)` for the tunnel `w`. -/
def sendToTunnel (c : Client) (w : Nat) (packet : ControlPacket) : Option Client :=
  ((c.tunnels w).channel.send packet).map fun channel =>
    c.setTunnel w { c.tunnels w with channel := channel }

/-- The same with the outcome ignored. -/
def notifyTunnel (c : Client) (w : Nat) (packet : ControlPacket) : Client :=
  (c.sendToTunnel w packet).getD c

section Frames

variable (c : Client) (n : Nat) (stream : LocalStream) (w : Nat) (tunnel : Tunnel)
  (packet : ControlPacket)

@[simp] theorem control_setLocal : (c.setLocal n stream).control = c.control := rfl
theorem locals_setLocal (m : Nat) :
    (c.setLocal n stream).locals m = if m = n then some stream else c.locals m :=
  Function.update_apply c.locals n (some stream) m

theorem tunnels_setTunnel (v : Nat) :
    (c.setTunnel w tunnel).tunnels v = if v = w then tunnel else c.tunnels v :=
  Function.update_apply c.tunnels w tunnel v

theorem sendToTunnel_eq_some {c c' : Client} {w : Nat} {packet : ControlPacket} :
    c.sendToTunnel w packet = some c' ↔ (c.tunnels w).channel.closed = false ∧
      c' = c.setTunnel w { c.tunnels w with
        channel := ⟨(c.tunnels w).channel.queue ++ [packet], false⟩ } := by
  unfold sendToTunnel
  rw [Option.map_eq_some_iff]
  constructor
  · rintro ⟨channel, hchannel, rfl⟩
    obtain ⟨hopen, rfl⟩ := Channel.send_eq_some.mp hchannel
    exact ⟨hopen, rfl⟩
  · rintro ⟨hopen, rfl⟩
    exact ⟨_, Channel.send_eq_some.mpr ⟨hopen, rfl⟩, rfl⟩

theorem sendToTunnel_eq_none {c : Client} {w : Nat} {packet : ControlPacket} :
    c.sendToTunnel w packet = none ↔ (c.tunnels w).channel.closed = true := by
  unfold sendToTunnel
  rw [Option.map_eq_none_iff, Channel.send_eq_none]

theorem notifyTunnel_eq :
    c.notifyTunnel w packet = c.setTunnel w { c.tunnels w with
      channel := (c.tunnels w).channel.sendOrDrop packet } := by
  unfold notifyTunnel sendToTunnel Channel.sendOrDrop
  cases (c.tunnels w).channel.send packet with
  | none =>
    have hsame : c.tunnels = Function.update c.tunnels w (c.tunnels w) :=
      (Function.update_eq_self w c.tunnels).symm
    exact congrArg (fun tunnels => { c with tunnels := tunnels }) hsame
  | some channel => rfl

@[simp] theorem activeStreams_notifyTunnel :
    (c.notifyTunnel w packet).activeStreams = c.activeStreams := by rw [notifyTunnel_eq]; rfl
@[simp] theorem locals_notifyTunnel : (c.notifyTunnel w packet).locals = c.locals := by
  rw [notifyTunnel_eq]; rfl
@[simp] theorem streams_notifyTunnel : (c.notifyTunnel w packet).streams = c.streams := by
  rw [notifyTunnel_eq]; rfl
@[simp] theorem control_notifyTunnel : (c.notifyTunnel w packet).control = c.control := by
  rw [notifyTunnel_eq]; rfl
@[simp] theorem wormhole_notifyTunnel : (c.notifyTunnel w packet).wormhole = c.wormhole := by
  rw [notifyTunnel_eq]; rfl

end Frames

/-! ### `run_tunnel` -/

/-- The outcomes of `run_wormhole` after which `run_tunnel` goes on. -/
def retries : Except Error Unit → Bool
  | .ok _ => true
  | .error .WebSocketError | .error .NoResponseFromServer | .error .Timeout => true
  | .error _ => false

/-- A new `run_wormhole` up to its loops: the outcome of `connect_to_wormhole`. -/
def startWormhole (c : Client) (result : Except Error Unit) : Option Client :=
  match c.control with
  | .starting =>
    match result with
    | .ok _ =>
      let w := c.wormhole + 1
      some { c.setTunnel w ⟨Channel.fresh, true⟩ with
        wormhole := w
        restart := []
        control := .reading }
    | .error .MalformedMessageFromServer | .error .Timeout => none
    | .error e => some { c with control := .returned (.error e) }
  | _ => none

/-- `run_wormhole` has returned. -/
def decide (c : Client) : Option Client :=
  match c.control with
  | .returned (.ok _) => some { c with restart := [], control := .starting }
  | .returned (.error e) =>
    if retries (.error e) then some { c with restart := [], control := .starting }
    else some { c with control := .exited e }
  | _ => none

/-- A message on the restart channel ends `run_wormhole` where it waits. -/
def interrupt (c : Client) : Option Client :=
  match c.restart, c.control with
  | _ :: _, .reading | _ :: _, .connecting _ _ =>
    some { c with restart := [], control := .starting }
  | _, _ => none

/-! ### `process_control_flow_message` -/

def processControlFlowMessage (c : Client) (payload : Bytes) : Client :=
  match ControlPacket.deserialize payload with
  | .error _ => { c with control := .returned (.error .MalformedMessageFromServer) }
  | .ok packet =>
    match packet with
    | .Init _ => c
    | .Ping reconnectToken =>
      let c := { c with reconnectToken := reconnectToken <|> c.reconnectToken }
      c.notifyTunnel c.wormhole (.Ping none)
    -- unexpected control packet
    | .Refused _ => { c with control := .returned (.error .MalformedMessageFromServer) }
    | .End streamId => { c with endTasks := c.endTasks ++ [.spawned streamId] }
    | .Data streamId data =>
      if (c.activeStreams.lookup streamId).isSome then
        { c with control := .forwarding streamId data }
      else { c with control := .connecting streamId data }

/-- One turn of the reading loop of `run_wormhole`. -/
def receive (c : Client) (result : NextMessage) : Option Client :=
  match c.control with
  | .reading =>
    match result with
    | .ok (.Close _) =>
      some { c with restart := c.restart ++ [none], control := .returned (.ok ()) }
    | .ok message => some (c.processControlFlowMessage message.data)
    | .err | .done => some { c with control := .returned (.error .Timeout) }
  | _ => none

/-- `setup_new_stream` up to the spawn of the reader; only a TLS connection has a
    name to check. -/
def connect (useTls : Bool) (c : Client) (result : ConnectResult) : Option Client :=
  match c.control with
  | .connecting streamId data =>
    match result with
    | .ok =>
      some { c.setLocal c.streams (LocalStream.new streamId c.wormhole) with
        streams := c.streams + 1
        control := .inserting streamId data c.streams }
    | .err =>
      some { c.notifyTunnel c.wormhole (.Refused streamId) with
        control := .forwarding streamId data }
    | .invalidName =>
      if useTls then some { c with control := .forwarding streamId data } else none
  | _ => none

/-- The rest of `setup_new_stream`. -/
def insert (c : Client) : Option Client :=
  match c.control with
  | .inserting streamId data n =>
    match c.locals n with
    | some stream =>
      some { c.setLocal n { stream with forwardToLocalTcp := .running } with
        activeStreams := c.activeStreams.insert streamId n
        control := .forwarding streamId data }
    | none => none
  | _ => none

/-- The rest of the `Data` branch: find the right stream and forward to it. -/
def forward (c : Client) : Option Client :=
  match c.control with
  | .forwarding streamId data =>
    match c.activeStreams.lookup streamId with
    | some n =>
      match c.locals n with
      | some stream =>
        match stream.queue.send (.Data data) with
        | some queue =>
          some { c.setLocal n { stream with queue := queue } with control := .reading }
        | none => some { c with control := .returned (.error .MalformedMessageFromServer) }
      | none => none
    | none =>
      match c.sendToTunnel c.wormhole (.Refused streamId) with
      | some c => some { c with control := .reading }
      | none => some { c with control := .returned (.error .MalformedMessageFromServer) }
  | _ => none

/-! ### The writer of `run_wormhole` -/

/-- One packet from the tunnel channel; a failed writer returns and drops the
    channel's receiver. -/
def flush (c : Client) (w : Nat) (sent : Bool) : Option Client :=
  match (c.tunnels w).writer, (c.tunnels w).channel.queue with
  | true, _ :: rest =>
    if sent then
      some (c.setTunnel w ⟨{ (c.tunnels w).channel with queue := rest }, true⟩)
    else
      let restart := if w = c.wormhole then c.restart ++ [some .WebSocketError] else c.restart
      some { c.setTunnel w ⟨(c.tunnels w).channel.disconnect, false⟩ with restart := restart }
  | _, _ => none

/-! ### `process_local_tcp` -/

/-- One read of at most 4096 bytes. -/
def readLocal (c : Client) (n : Nat) (result : ReadResult) : Option Client :=
  match c.locals n with
  | some stream =>
    match stream.processLocalTcp with
    | .reading =>
      match result with
      | .err => some (c.setLocal n { stream with processLocalTcp := .panicked })
      | .ok [] =>
        some { c.setLocal n { stream with processLocalTcp := .returned } with
          activeStreams := c.activeStreams.erase stream.streamId }
      | .ok data =>
        if 4096 < data.length then none
        else
          let socket := { stream.socket with received := stream.socket.received ++ data }
          match c.sendToTunnel stream.wormhole (.Data stream.streamId data) with
          | some c => some (c.setLocal n { stream with socket := socket })
          -- failed to tunnel packet from local tcp to tunnel
          | none =>
            some (c.setLocal n { stream with socket := socket, processLocalTcp := .panicked })
    | _ => none
  | none => none

/-! ### `forward_to_local_tcp` -/

/-- Somebody holds a sender of the local stream `n`. -/
def hasSender (c : Client) (n : Nat) : Bool :=
  (Table.values c.activeStreams).contains n ||
    c.endTasks.any (fun task => match task with
      | .sleeping _ m => m == n
      | _ => false)

/-- The loop body, with the result of its write. -/
def LocalStream.turn (stream : LocalStream) (result : WriteResult) (open_ : Bool) :
    Option LocalStream :=
  let closed : LocalStream := { stream with
    queue := stream.queue.disconnect
    forwardToLocalTcp := .returned
    socket := { stream.socket with shutdown := true } }
  match stream.forwardToLocalTcp, stream.queue.queue with
  | .running, .Data data :: rest =>
    let socket := { stream.socket with written := stream.socket.written ++ result.written data }
    match result with
    | .ok => some { stream with queue := { stream.queue with queue := rest }, socket := socket }
    -- failed to write packet data to local tcp socket
    | .err _ =>
      some { stream with
        queue := stream.queue.disconnect
        forwardToLocalTcp := .panicked
        socket := socket }
  | .running, .Close :: _ => some closed
  | .running, [] => if open_ then none else some closed
  | _, _ => none

def writeLocal (c : Client) (n : Nat) (result : WriteResult) : Option Client :=
  match c.locals n with
  | some stream => (stream.turn result (c.hasSender n)).map (c.setLocal n)
  | none => none

/-! ### The task of an `End` packet -/

def endTask (c : Client) (k : Nat) : Option Client :=
  match c.endTasks[k]? with
  | some (.spawned streamId) =>
    let task := (c.activeStreams.lookup streamId).elim .returned (.sleeping streamId)
    some { c with endTasks := c.endTasks.set k task }
  | some (.sleeping streamId n) =>
    match c.locals n with
    | some stream =>
      some { c.setLocal n { stream with queue := stream.queue.sendOrDrop .Close } with
        endTasks := c.endTasks.set k (.removing streamId) }
    | none => none
  | some (.removing streamId) =>
    some { c with
      activeStreams := c.activeStreams.erase streamId
      endTasks := c.endTasks.set k .returned }
  | some .returned | none => none

/-! ### What each step does -/

section Cases

variable {c c' : Client}

theorem startWormhole_cases {result : Except Error Unit} (h : c.startWormhole result = some c') :
    c.control = .starting ∧
      (result = .ok () ∧ c' = { c.setTunnel (c.wormhole + 1) ⟨Channel.fresh, true⟩ with
          wormhole := c.wormhole + 1
          restart := []
          control := .reading } ∨
        ∃ e, result = .error e ∧ e ≠ .MalformedMessageFromServer ∧ e ≠ .Timeout ∧
          c' = { c with control := .returned (.error e) }) := by
  unfold startWormhole at h
  split at h
  next hcontrol =>
    refine ⟨hcontrol, ?_⟩
    split at h
    · exact Or.inl ⟨rfl, (Option.some.inj h).symm⟩
    · cases h
    · cases h
    next e hmalformed htimeout =>
      exact Or.inr ⟨e, rfl, hmalformed, htimeout, (Option.some.inj h).symm⟩
  · cases h

theorem decide_cases (h : c.decide = some c') :
    ∃ outcome, c.control = .returned outcome ∧
      (retries outcome = true ∧ c' = { c with restart := [], control := .starting } ∨
        ∃ e, outcome = .error e ∧ retries outcome = false ∧
          c' = { c with control := .exited e }) := by
  unfold Client.decide at h
  split at h
  next hreturned => exact ⟨_, hreturned, Or.inl ⟨rfl, (Option.some.inj h).symm⟩⟩
  next e hreturned =>
    refine ⟨_, hreturned, ?_⟩
    split at h
    next hretries => exact Or.inl ⟨hretries, (Option.some.inj h).symm⟩
    next hretries =>
      exact Or.inr ⟨e, rfl, eq_false_of_ne_true hretries, (Option.some.inj h).symm⟩
  · cases h

theorem interrupt_cases (h : c.interrupt = some c') :
    c.restart ≠ [] ∧
      (c.control = .reading ∨ ∃ streamId data, c.control = .connecting streamId data) ∧
      c' = { c with restart := [], control := .starting } := by
  unfold interrupt at h
  split at h
  next hrestart hcontrol =>
    rw [hrestart]
    exact ⟨List.cons_ne_nil _ _, Or.inl hcontrol, (Option.some.inj h).symm⟩
  next hrestart hcontrol =>
    rw [hrestart]
    exact ⟨List.cons_ne_nil _ _, Or.inr ⟨_, _, hcontrol⟩, (Option.some.inj h).symm⟩
  · cases h

theorem receive_cases {result : NextMessage} (h : c.receive result = some c') :
    c.control = .reading ∧
      ((∃ bytes, result = .ok (.Close bytes) ∧ c' = { c with
          restart := c.restart ++ [none]
          control := .returned (.ok ()) }) ∨
        (∃ message, result = .ok message ∧ (∀ bytes, message ≠ .Close bytes) ∧
          c' = c.processControlFlowMessage message.data) ∨
        (result = .err ∨ result = .done) ∧
          c' = { c with control := .returned (.error .Timeout) }) := by
  unfold receive at h
  split at h
  next hreading =>
    refine ⟨hreading, ?_⟩
    split at h
    next bytes => exact Or.inl ⟨bytes, rfl, (Option.some.inj h).symm⟩
    next message hclose =>
      exact Or.inr (Or.inl ⟨message, rfl, hclose, (Option.some.inj h).symm⟩)
    · exact Or.inr (Or.inr ⟨Or.inl rfl, (Option.some.inj h).symm⟩)
    · exact Or.inr (Or.inr ⟨Or.inr rfl, (Option.some.inj h).symm⟩)
  · cases h

theorem connect_cases {useTls : Bool} {result : ConnectResult}
    (h : c.connect useTls result = some c') :
    ∃ streamId data, c.control = .connecting streamId data ∧
      (result = .ok ∧ c' = { c.setLocal c.streams (LocalStream.new streamId c.wormhole) with
          streams := c.streams + 1
          control := .inserting streamId data c.streams } ∨
        result = .err ∧ c' = { c.notifyTunnel c.wormhole (.Refused streamId) with
          control := .forwarding streamId data } ∨
        result = .invalidName ∧ c' = { c with control := .forwarding streamId data }) := by
  unfold connect at h
  split at h
  next streamId data hcontrol =>
    refine ⟨streamId, data, hcontrol, ?_⟩
    split at h
    · exact Or.inl ⟨rfl, (Option.some.inj h).symm⟩
    · exact Or.inr (Or.inl ⟨rfl, (Option.some.inj h).symm⟩)
    · split at h
      · exact Or.inr (Or.inr ⟨rfl, (Option.some.inj h).symm⟩)
      · cases h
  · cases h

theorem insert_cases (h : c.insert = some c') :
    ∃ streamId data n stream, c.control = .inserting streamId data n ∧
      c.locals n = some stream ∧
      c' = { c.setLocal n { stream with forwardToLocalTcp := .running } with
        activeStreams := c.activeStreams.insert streamId n
        control := .forwarding streamId data } := by
  unfold insert at h
  split at h
  next streamId data n hcontrol =>
    split at h
    next stream hstream =>
      exact ⟨streamId, data, n, stream, hcontrol, hstream, (Option.some.inj h).symm⟩
    · cases h
  · cases h

/-- The chunk in hand goes to the queue of the entry, to a closed queue, or to
    nobody; and in the last case the refusal goes out or does not. -/
theorem forward_cases (h : c.forward = some c') :
    ∃ streamId data, c.control = .forwarding streamId data ∧
      ((∃ n stream, c.activeStreams.lookup streamId = some n ∧ c.locals n = some stream ∧
          (stream.queue.closed = false ∧
              c' = { c.setLocal n { stream with
                  queue := ⟨stream.queue.queue ++ [.Data data], false⟩ } with
                control := .reading } ∨
            stream.queue.closed = true ∧
              c' = { c with control := .returned (.error .MalformedMessageFromServer) })) ∨
        c.activeStreams.lookup streamId = none ∧
          ((c.tunnels c.wormhole).channel.closed = false ∧
              c' = { c.notifyTunnel c.wormhole (.Refused streamId) with control := .reading } ∨
            (c.tunnels c.wormhole).channel.closed = true ∧
              c' = { c with control := .returned (.error .MalformedMessageFromServer) })) := by
  unfold forward at h
  split at h
  next streamId data hcontrol =>
    refine ⟨streamId, data, hcontrol, ?_⟩
    split at h
    next n hn =>
      split at h
      next stream hstream =>
        refine Or.inl ⟨n, stream, hn, hstream, ?_⟩
        split at h
        next queue hqueue =>
          obtain ⟨hopen, rfl⟩ := Channel.send_eq_some.mp hqueue
          exact Or.inl ⟨hopen, (Option.some.inj h).symm⟩
        next hqueue =>
          exact Or.inr ⟨Channel.send_eq_none.mp hqueue, (Option.some.inj h).symm⟩
      · cases h
    next hnone =>
      refine Or.inr ⟨hnone, ?_⟩
      split at h
      next u hu =>
        refine Or.inl ⟨(sendToTunnel_eq_some.mp hu).1, ?_⟩
        rw [notifyTunnel, hu]
        exact (Option.some.inj h).symm
      next hu => exact Or.inr ⟨sendToTunnel_eq_none.mp hu, (Option.some.inj h).symm⟩
  · cases h

theorem flush_cases {w : Nat} {sent : Bool} (h : c.flush w sent = some c') :
    ∃ packet rest, (c.tunnels w).writer = true ∧
      (c.tunnels w).channel.queue = packet :: rest ∧
      (sent = true ∧
          c' = c.setTunnel w ⟨{ (c.tunnels w).channel with queue := rest }, true⟩ ∨
        sent = false ∧ c' = { c.setTunnel w ⟨(c.tunnels w).channel.disconnect, false⟩ with
          restart := if w = c.wormhole then c.restart ++ [some .WebSocketError]
            else c.restart }) := by
  unfold flush at h
  split at h
  next packet rest hwriter hqueue =>
    refine ⟨packet, rest, hwriter, hqueue, ?_⟩
    cases sent with
    | true => exact Or.inl ⟨rfl, (Option.some.inj h).symm⟩
    | false => exact Or.inr ⟨rfl, (Option.some.inj h).symm⟩
  · cases h

/-- A read changes what the reader has received and where it is, and at the end of
    the stream the table; what it read is sent to its tunnel. -/
theorem readLocal_cases {n : Nat} {result : ReadResult} (h : c.readLocal n result = some c') :
    ∃ stream, c.locals n = some stream ∧ stream.processLocalTcp = .reading ∧
      (result = .err ∧ c' = c.setLocal n { stream with processLocalTcp := .panicked } ∨
        result = .ok [] ∧ c' = { c.setLocal n { stream with processLocalTcp := .returned } with
          activeStreams := c.activeStreams.erase stream.streamId } ∨
        ∃ data reader, result = .ok data ∧ data ≠ [] ∧
          c' = (c.notifyTunnel stream.wormhole (.Data stream.streamId data)).setLocal n
            { stream with
              socket := { stream.socket with received := stream.socket.received ++ data }
              processLocalTcp := reader }) := by
  unfold readLocal at h
  split at h
  next stream hstream =>
    split at h
    next hreading =>
      refine ⟨stream, hstream, hreading, ?_⟩
      split at h
      · exact Or.inl ⟨rfl, (Option.some.inj h).symm⟩
      · exact Or.inr (Or.inl ⟨rfl, (Option.some.inj h).symm⟩)
      next data hdata =>
        refine Or.inr (Or.inr ?_)
        split at h
        · cases h
        simp only at h
        split at h
        next u hu =>
          refine ⟨data, .reading, rfl, hdata, ?_⟩
          rw [notifyTunnel, hu, ← hreading]
          exact (Option.some.inj h).symm
        next hu =>
          refine ⟨data, .panicked, rfl, hdata, ?_⟩
          rw [notifyTunnel, hu]
          exact (Option.some.inj h).symm
    · cases h
  · cases h

theorem writeLocal_cases {n : Nat} {result : WriteResult} (h : c.writeLocal n result = some c') :
    ∃ stream stream', c.locals n = some stream ∧
      stream.turn result (c.hasSender n) = some stream' ∧ c' = c.setLocal n stream' := by
  unfold writeLocal at h
  split at h
  next stream hstream =>
    obtain ⟨stream', hturn, rfl⟩ := Option.map_eq_some_iff.mp h
    exact ⟨stream, stream', hstream, hturn, rfl⟩
  · cases h

/-- The task of an `End` sends its `Close` or takes the entry out of the table. -/
theorem endTask_cases {k : Nat} (h : c.endTask k = some c') :
    ∃ tasks, c' = { c with endTasks := tasks } ∨
      (∃ n stream, c.locals n = some stream ∧
        c' = { c.setLocal n { stream with queue := stream.queue.sendOrDrop .Close } with
          endTasks := tasks }) ∨
      ∃ streamId, c' = { c with
        activeStreams := c.activeStreams.erase streamId
        endTasks := tasks } := by
  unfold endTask at h
  split at h
  · exact ⟨_, Or.inl (Option.some.inj h).symm⟩
  next streamId n htask =>
    split at h
    next stream hstream => exact ⟨_, Or.inr (Or.inl ⟨n, stream, hstream, (Option.some.inj h).symm⟩)⟩
    · cases h
  next streamId htask => exact ⟨_, Or.inr (Or.inr ⟨streamId, (Option.some.inj h).symm⟩)⟩
  · cases h
  · cases h

end Cases

end Client

/-! ### Steps -/

inductive ClientEvent where
  | startWormhole (result : Except Error Unit)
  | decide
  | interrupt
  | receive (result : NextMessage)
  | connect (result : Client.ConnectResult)
  | insert
  | forward
  | flush (w : Nat) (sent : Bool)
  | readLocal (n : Nat) (result : ReadResult)
  | writeLocal (n : Nat) (result : WriteResult)
  | endTask (k : Nat)

def Client.step (useTls : Bool) (c : Client) : ClientEvent → Option Client
  | .startWormhole result => c.startWormhole result
  | .decide => c.decide
  | .interrupt => c.interrupt
  | .receive result => c.receive result
  | .connect result => c.connect useTls result
  | .insert => c.insert
  | .forward => c.forward
  | .flush w sent => c.flush w sent
  | .readLocal n result => c.readLocal n result
  | .writeLocal n result => c.writeLocal n result
  | .endTask k => c.endTask k

/-- The client, from the start of `run_tunnel`. -/
def client (useTls : Bool) : Machine Client ClientEvent where
  start c := c = Client.new
  step := Client.step useTls

end Neutun
