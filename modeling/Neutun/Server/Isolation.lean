/-
  Neutun/Server/Isolation.lean
  ============================
  What one client can do to the streams of another.

  `View` is the part of the server that decides what the remote sockets of one
  client's streams receive: its registry entry, its connections, its streams and
  their entries in the table of streams.  A step that does not concern the client
  leaves its view alone, and a step that does changes equal views alike; so the
  view is a function of the steps that concern the client, whatever else goes on.

  `process_client_messages` looks a packet's stream up by its id alone.  A packet
  that names a stream of another client therefore concerns that client; every
  other packet does not.
-/
import Neutun.Server.Refinement

namespace Neutun

open Foundation

/-! ### The view of a client -/

/-- The stream that the server takes a packet to. -/
def ControlPacket.dispatchedTo : ControlPacket → Option StreamId
  | Data id _ | Refused id => some id
  | Init _ | End _ | Ping _ => none

/-- The handshake of a connection that has been checked. -/
def Phase.handshake : Phase → Option ClientHandshake
  | checked h | announced h | serving h => some h
  | connecting | rejected => none

/-- The connection, once it belongs to the client.  Its channel and its tasks
    come into being when it is registered. -/
def Conn.seenBy (i : ClientId) (conn : Conn) : Option Conn :=
  match conn.phase with
  | .serving h => if h.id = i then some conn else none
  | .checked h | .announced h =>
    if h.id = i then some { Conn.new with phase := conn.phase } else none
  | .connecting | .rejected => none

def ActiveStream.seenBy (i : ClientId) (activeStream : ActiveStream) : Option ActiveStream :=
  if activeStream.client.id = i then some activeStream else none

def Stream.seenBy (i : ClientId) (stream : Stream) : Option Stream :=
  if stream.activeStream.client.id = i then some stream else none

@[ext]
structure View where
  entry : Option ConnectedClient
  conns : Nat → Option Conn
  table : StreamId → Option ActiveStream
  streams : StreamId → Option Stream

namespace Server

def view (i : ClientId) (s : Server) : View where
  entry := s.connections.get i
  conns n := (s.conns n).seenBy i
  table id := (s.activeStreams.lookup id).bind (ActiveStream.seenBy i)
  streams id := (s.streams id).bind (Stream.seenBy i)

variable (p : Platform) (cfg : Config) (i : ClientId) {s s₁ s₂ t t₁ t₂ : Server}

/-- The connection holds a handshake of the client. -/
def connOf (s : Server) (n : Nat) : Bool :=
  (s.conns n).phase.handshake.any fun h => decide (h.id = i)

/-- The stream was handed to the client. -/
def streamOf (s : Server) (id : StreamId) : Bool :=
  (s.activeStreamOf id).any fun a => decide (a.client.id = i)

/-- The message is a packet for a stream of the client. -/
def names (s : Server) (result : NextMessage) : Bool :=
  (result.packet.bind ControlPacket.dispatchedTo).any fun id => s.streamOf i id

/-- The client that `accept_connection` hands a remote connection to. -/
def forwardedTo (s : Server) : ServerEvent → Option ConnectedClient
  | .accept _ host =>
    match acceptConnection cfg s.connections host with
    | .Forward client => some client
    | _ => none
  | _ => none

/-- The event is a step of the client's connections or streams, or a packet for
    one of its streams. -/
def concerns (s : Server) : ServerEvent → Bool
  | .hello _ clientIp clientHello now generated random =>
    (s.authClientHandshake p cfg clientIp clientHello now generated random).any
      fun h => decide (h.id = i)
  | .greet n _ | .register n | .ping n _ | .flush n _ => s.connOf i n
  | .message n result => s.connOf i n || s.names i result
  | .accept id host => (s.forwardedTo cfg (.accept id host)).any fun c => decide (c.id = i)
  | .init id | .poll id | .read id _ | .write id _ => s.streamOf i id
  | .iterate _ => false

/-! ### Operations on views -/

variable {i}

theorem seenBy_eq_none {conn : Conn} : conn.seenBy i = none ↔
    (conn.phase.handshake.any fun h => decide (h.id = i)) = false := by
  unfold Conn.seenBy
  cases conn.phase <;> simp [Phase.handshake]

theorem seenBy_eq_some {conn c : Conn} (h : conn.seenBy i = some c) :
    c.phase = conn.phase ∧ ∀ hs, conn.phase = .serving hs → c = conn := by
  unfold Conn.seenBy at h
  split at h
  next hs hphase =>
    split at h
    · obtain rfl := Option.some.inj h
      exact ⟨rfl, fun _ _ => rfl⟩
    · cases h
  next hs hphase =>
    split at h
    · obtain rfl := Option.some.inj h
      exact ⟨rfl, fun _ hserving => by simp [hphase] at hserving⟩
    · cases h
  next hs hphase =>
    split at h
    · obtain rfl := Option.some.inj h
      exact ⟨rfl, fun _ hserving => by simp [hphase] at hserving⟩
    · cases h
  · cases h
  · cases h

theorem view_setConn (s : Server) (n : Nat) (conn : Conn) : (s.setConn n conn).view i =
    { s.view i with conns := Function.update (s.view i).conns n (conn.seenBy i) } := by
  refine congrArg (fun c => View.mk _ c _ _) (funext ?_)
  intro m
  rw [conns_setConn, Function.update_apply]
  exact apply_ite (Conn.seenBy i) _ _ _

theorem view_setStream (s : Server) (id : StreamId) (stream : Stream) :
    (s.setStream id stream).view i =
      { s.view i with
        streams := Function.update (s.view i).streams id (stream.seenBy i) } := by
  refine congrArg (fun c => View.mk _ _ _ c) (funext ?_)
  intro sid
  rw [streams_setStream, Function.update_apply]
  exact apply_ite (fun o => Option.bind o (Stream.seenBy i)) _ _ _

/-- Changes to connections that are not the client's. -/
theorem view_setConn_eq {n : Nat} {conn : Conn}
    (h : conn.seenBy i = (s.conns n).seenBy i) : (s.setConn n conn).view i = s.view i := by
  rw [view_setConn, h]
  exact congrArg (fun c => View.mk _ c _ _) (Function.update_eq_self n (s.view i).conns)

/-- Changes to streams that are not the client's. -/
theorem view_setStream_eq {id : StreamId} {stream : Stream}
    (h : stream.seenBy i = (s.streams id).bind (Stream.seenBy i)) :
    (s.setStream id stream).view i = s.view i := by
  rw [view_setStream, h]
  exact congrArg (fun c => View.mk _ _ _ c) (Function.update_eq_self id (s.view i).streams)

theorem view_add (s : Server) (client : ConnectedClient) :
    Server.view i { s with connections := s.connections.add client } =
      { s.view i with entry := if i = client.id then some client else (s.view i).entry } := by
  unfold view
  rw [Connections.get_add]

theorem view_remove (s : Server) (client : ConnectedClient) : (s.remove client).view i =
    { s.view i with
      entry := if i = client.id then none else (s.view i).entry
      conns := Function.update (s.view i).conns client.tx
        (Conn.seenBy i { s.conns client.tx with tx := (s.conns client.tx).tx.close }) } := by
  have hconns := congrArg View.conns (s.view_setConn (i := i) client.tx
    { s.conns client.tx with tx := (s.conns client.tx).tx.close })
  exact View.ext (Connections.get_remove s.connections client i) hconns rfl rfl

/-- A packet for a stream, seen by the client: it reaches a stream of the
    client's through an entry of the client's only. -/
theorem view_sendToStream (hwf : s.WellFormed) (id : StreamId) (message : StreamMessage) :
    (s.sendToStream id message).view i =
      { s.view i with
        streams := fun sid =>
          if ((s.view i).table id).any (fun a => decide (a.id = sid)) then
            ((s.view i).streams sid).map fun stream =>
              { stream with queue := stream.queue.sendOrDrop message }
          else (s.view i).streams sid } := by
  refine View.ext (by simp [view]) (by simp [view]) (by simp [view]) (funext ?_)
  intro sid
  simp only [view, streams_sendToStream]
  rcases Option.eq_none_or_eq_some (s.activeStreams.lookup id) with hentry | ⟨a, hentry⟩
  · simp [hentry]
  · have hactive := hwf.active id a hentry
    have hid := (hwf.stream id a hactive).1
    by_cases hown : a.client.id = i
    · have hseen : ActiveStream.seenBy i a = some a := if_pos hown
      simp only [hentry, Option.any_some, Option.bind_some, hseen]
      split
      · cases s.streams sid with
        | none => rfl
        | some stream =>
          simp only [Option.map_some, Option.bind_some, Stream.seenBy]
          split <;> rfl
      · rfl
    · have hseen : ActiveStream.seenBy i a = none := if_neg hown
      simp only [hentry, Option.any_some, Option.bind_some, hseen, Option.any_none,
        Bool.false_eq_true, if_false]
      split
      next hsid =>
        obtain rfl : a.id = sid := by simpa using hsid
        rw [hid]
        obtain ⟨stream, hstream, hsame⟩ := Option.map_eq_some_iff.mp hactive
        have hforeign : stream.activeStream.client.id ≠ i := by rw [hsame]; exact hown
        simp [hstream, Stream.seenBy, hforeign]
      · rfl

/-! ### Steps that do not concern the client -/

theorem view_setConn_foreign {n : Nat} (hn : s.connOf i n = false) {conn : Conn}
    (hconn : conn.seenBy i = none) : (s.setConn n conn).view i = s.view i :=
  view_setConn_eq (hconn.trans (seenBy_eq_none.mpr hn).symm)

/-- The connection of a served client belongs to it. -/
theorem connOf_served {c : ConnectedClient} (hc : s.Served c) :
    s.connOf i c.tx = decide (c.id = i) := by
  obtain ⟨h, hphase, hclient⟩ := hc
  have hid : c.id = h.id := by rw [hclient]; rfl
  simp [connOf, hphase, Phase.handshake, hid]

theorem seenBy_of_phase {conn conn' : Conn} (hphase : conn'.phase = conn.phase)
    (h : conn.seenBy i = none) : conn'.seenBy i = none := by
  rw [seenBy_eq_none, hphase]
  exact seenBy_eq_none.mp h

theorem view_remove_foreign {client : ConnectedClient} (hid : i ≠ client.id)
    (hconn : s.connOf i client.tx = false) : (s.remove client).view i = s.view i := by
  have hclosed : Conn.seenBy i { s.conns client.tx with tx := (s.conns client.tx).tx.close } =
      (s.conns client.tx).seenBy i := by
    have hnone := seenBy_eq_none.mpr hconn
    exact (seenBy_of_phase (by rfl) hnone).trans hnone.symm
  rw [view_remove, if_neg hid, hclosed]
  exact congrArg (fun c => View.mk _ c _ _) (Function.update_eq_self client.tx (s.view i).conns)

/-- The same, with a task of the connection that returns after the removal. -/
theorem view_remove_setConn_foreign {client : ConnectedClient} (hid : i ≠ client.id)
    (hconn : s.connOf i client.tx = false) {conn : Conn}
    (hphase : conn.phase = ((s.remove client).conns client.tx).phase) :
    ((s.remove client).setConn client.tx conn).view i = s.view i := by
  rw [← view_remove_foreign hid hconn]
  have hnone : ((s.remove client).conns client.tx).seenBy i = none :=
    seenBy_of_phase (s.phase_remove client client.tx) (seenBy_eq_none.mpr hconn)
  exact view_setConn_eq ((seenBy_of_phase hphase hnone).trans hnone.symm)

theorem view_sendToClient_foreign {client : ConnectedClient} {packet : ControlPacket}
    (hconn : s.connOf i client.tx = false) (h : s.sendToClient client packet = some t) :
    t.view i = s.view i := by
  obtain ⟨-, rfl⟩ := sendToClient_eq_some.mp h
  exact view_setConn_foreign hconn (seenBy_eq_none.mpr hconn)

theorem view_sendOr_foreign {client : ConnectedClient} (packet : ControlPacket)
    (hconn : s.connOf i client.tx = false) {fallback : Server}
    (h : fallback.view i = s.view i) :
    ((s.sendToClient client packet).getD fallback).view i = s.view i := by
  cases hsend : s.sendToClient client packet with
  | none => exact h
  | some t => exact view_sendToClient_foreign hconn hsend

/-- A served connection that is not the client's serves another one. -/
theorem ne_of_connOf {n : Nat} {h : ClientHandshake} (hn : (s.conns n).phase.handshake = some h)
    (hconn : s.connOf i n = false) : i ≠ (h.client n).id := by
  rintro rfl
  simp [connOf, hn, ClientHandshake.client] at hconn

/-- A stream that is not the client's has a client whose connection is not. -/
theorem foreign_of_streamOf (hwf : s.WellFormed) {id : StreamId} {stream : Stream}
    (hstream : s.streams id = some stream) (hid : s.streamOf i id = false) :
    stream.activeStream.client.id ≠ i ∧ s.connOf i stream.activeStream.client.tx = false := by
  have hactive : s.activeStreamOf id = some stream.activeStream := by
    rw [activeStreamOf, hstream]
    rfl
  have hne : stream.activeStream.client.id ≠ i := by
    simpa [streamOf, hactive] using hid
  rw [connOf_served (hwf.stream id _ hactive).2]
  exact ⟨hne, by simpa using hne⟩

/-- Whatever happens to a stream of another client, after whatever happened to
    the connections, leaves the view alone. -/
theorem view_setStream_foreign {id : StreamId} {old stream : Stream}
    (hold : s.streams id = some old) (hne : old.activeStream.client.id ≠ i)
    (hsame : stream.activeStream = old.activeStream) (hstreams : t.streams = s.streams)
    (hview : t.view i = s.view i) : (t.setStream id stream).view i = s.view i := by
  rw [← hview]
  apply view_setStream_eq
  rw [hstreams, hold, Option.bind_some, Stream.seenBy, Stream.seenBy, hsame]
  simp [hne]

theorem view_erase_foreign (hwf : s.WellFormed) {id : StreamId} {stream : Stream}
    (hstream : s.streams id = some stream) (hne : stream.activeStream.client.id ≠ i)
    (h : t.view i = s.view i) (hactive : t.activeStreams = s.activeStreams) :
    Server.view i { t with activeStreams := t.activeStreams.erase id } = s.view i := by
  rw [← h]
  refine congrArg (fun c => View.mk _ _ c _) (funext ?_)
  intro sid
  rw [Table.lookup_erase_ite]
  split
  next hsid =>
    subst hsid
    rw [hactive]
    cases hentry : s.activeStreams.lookup sid with
    | none => rfl
    | some a =>
      have ha : stream.activeStream = a := by
        have := hwf.active sid a hentry
        rw [activeStreamOf, hstream] at this
        exact Option.some.inj this
      rw [Option.bind_some, ActiveStream.seenBy, if_neg (ha ▸ hne)]
      rfl
  · rfl

/-- A packet for a stream of another client. -/
theorem view_sendToStream_foreign (hwf : s.WellFormed) {id : StreamId}
    (hid : s.streamOf i id = false) (message : StreamMessage) :
    (s.sendToStream id message).view i = s.view i := by
  rw [view_sendToStream hwf]
  refine View.ext rfl rfl rfl (funext fun sid => if_neg ?_)
  rcases Option.eq_none_or_eq_some (s.activeStreams.lookup id) with hentry | ⟨a, hentry⟩
  · simp [view, hentry]
  · have hown : a.client.id ≠ i := by simpa [streamOf, hwf.active id a hentry] using hid
    simp [view, hentry, ActiveStream.seenBy, hown]

/-- A message that is no packet for one of the client's streams. -/
theorem view_message_foreign (hwf : s.WellFormed) {n : Nat} {result : NextMessage}
    (hn : s.connOf i n = false) (hnames : s.names i result = false)
    (h : s.message n result = some t) : t.view i = s.view i := by
  obtain ⟨handshake, hphase, -, rfl⟩ := message_eq_some.mp h
  have hne : i ≠ (handshake.client n).id := ne_of_connOf (by rw [hphase]; rfl) hn
  unfold processMessage
  split
  · exact view_remove_setConn_foreign hne hn rfl
  next bytes hproto =>
  split
  · rfl
  next packet hpacket =>
  have hforeign : ∀ id, packet.dispatchedTo = some id → s.streamOf i id = false := by
    intro id hid
    have hresult := NextMessage.packet_eq_some.mpr ⟨bytes, hproto, hpacket⟩
    simpa [names, hresult, hid] using hnames
  cases packet with
  | Data id data => exact view_sendToStream_foreign hwf (hforeign id rfl) _
  | Refused id => exact view_sendToStream_foreign hwf (hforeign id rfl) _
  | Init id => rfl
  | End id => rfl
  | Ping token => exact (view_add s (handshake.client n)).trans (by rw [if_neg hne])

/-- A step that does not concern the client leaves its view as it is. -/
theorem view_step_foreign (hwf : s.WellFormed) {e : ServerEvent}
    (hconcerns : s.concerns p cfg i e = false) (h : s.step p cfg e = some t) :
    t.view i = s.view i := by
  cases e with
  | hello n clientIp clientHello now generated random =>
    obtain ⟨hn, rfl⟩ := hello_cases h
    refine view_setConn_foreign (by simp [connOf, hn, Phase.handshake]) (seenBy_eq_none.mpr ?_)
    simp only [concerns] at hconcerns
    cases hok : s.authClientHandshake p cfg clientIp clientHello now generated random with
    | none => rfl
    | some hs =>
      rw [hok] at hconcerns
      exact hconcerns
  | greet n sent =>
    obtain ⟨hs, hn, rfl⟩ := greet_cases h
    have hne : (s.connOf i n) = false := hconcerns
    refine view_setConn_foreign hne (seenBy_eq_none.mpr ?_)
    simp only [connOf, hn, Phase.handshake] at hne
    cases sent <;> first | rfl | exact hne
  | register n =>
    obtain ⟨hs, hn, rfl⟩ := register_cases h
    have hconn : s.connOf i n = false := hconcerns
    have hne : i ≠ (hs.client n).id := ne_of_connOf (by rw [hn]; rfl) hconn
    have hset : (s.setConn n ⟨.serving hs, Channel.fresh, true, true, true⟩).view i = s.view i :=
      view_setConn_foreign hconn
        (seenBy_eq_none.mpr (by simpa [connOf, hn, Phase.handshake] using hconn))
    rw [← hset]
    exact View.ext ((Connections.get_add _ _ _).trans (if_neg hne)) rfl rfl rfl
  | ping n now =>
    obtain ⟨hs, hn, -, rfl⟩ := ping_cases h
    have hconn : s.connOf i n = false := hconcerns
    have hne : i ≠ (hs.client n).id := ne_of_connOf (by rw [hn]; rfl) hconn
    exact view_sendOr_foreign _ hconn (view_remove_setConn_foreign hne hconn rfl)
  | flush n sent =>
    obtain ⟨hs, hn, -, hflush⟩ := flush_cases h
    have hconn : s.connOf i n = false := hconcerns
    have hne : i ≠ (hs.client n).id := ne_of_connOf (by rw [hn]; rfl) hconn
    have hkeep : ∀ conn : Conn, conn.phase = (s.conns n).phase → conn.seenBy i = none :=
      fun conn hphase => seenBy_of_phase hphase (seenBy_eq_none.mpr hconn)
    rcases hflush with ⟨packet, rest, -, ⟨-, rfl⟩ | ⟨-, rfl⟩⟩ | ⟨-, -, rfl⟩
    · exact view_setConn_foreign hconn (hkeep _ rfl)
    · exact view_remove_setConn_foreign hne hconn rfl
    · exact view_setConn_foreign hconn (hkeep _ rfl)
  | message n result =>
    simp only [concerns, Bool.or_eq_false_iff] at hconcerns
    exact view_message_foreign hwf hconcerns.1 hconcerns.2 h
  | accept id host =>
    obtain ⟨hfresh, ⟨client, hroute, rfl⟩ | ⟨-, rfl⟩⟩ := accept_cases h
    · have hne : client.id ≠ i := by simpa [concerns, forwardedTo, hroute] using hconcerns
      refine View.ext rfl rfl (funext ?_) (funext ?_)
      · intro sid
        simp only [view, Table.lookup_insert_ite]
        split
        next hsid =>
          subst hsid
          have hnone : s.activeStreams.lookup sid = none := by
            by_contra hsome
            obtain ⟨a, ha⟩ := Option.ne_none_iff_exists'.mp hsome
            have hactive := hwf.active sid a ha
            rw [activeStreamOf, hfresh] at hactive
            cases hactive
          rw [hnone, Option.bind_some, ActiveStream.seenBy, if_neg hne]
          rfl
        · rfl
      · intro sid
        change ((s.setStream id (Stream.new ⟨id, client⟩)).streams sid).bind (Stream.seenBy i) = _
        rw [streams_setStream]
        split
        next hsid =>
          subst hsid
          simp only [view, hfresh, Option.bind_some, Stream.seenBy, Stream.new, if_neg hne]
          rfl
        · rfl
    · rfl
  | init id =>
    obtain ⟨stream, hstream, -, rfl⟩ := init_cases h
    obtain ⟨hne, hconn⟩ := foreign_of_streamOf hwf hstream hconcerns
    exact view_setStream_foreign hstream hne rfl (s.streams_sendOr _ _ (s.remove _) ⟨rfl, rfl⟩).1
      (view_sendOr_foreign _ hconn (view_remove_foreign hne.symm hconn))
  | poll id =>
    obtain ⟨stream, hstream, -, hpoll⟩ := poll_cases h
    obtain ⟨hne, -⟩ := foreign_of_streamOf hwf hstream hconcerns
    rcases hpoll with ⟨-, rfl⟩ | ⟨-, rfl⟩
    · exact view_setStream_foreign hstream hne rfl rfl rfl
    · exact view_setStream_foreign hstream hne rfl rfl rfl
  | read id result =>
    obtain ⟨stream, hstream, -, hread⟩ := read_cases h
    obtain ⟨hne, hconn⟩ := foreign_of_streamOf hwf hstream hconcerns
    rcases hread with ⟨-, rfl⟩ | ⟨-, rfl⟩ | ⟨data, -, -, -, rfl⟩
    · exact view_setStream_foreign hstream hne rfl rfl rfl
    · exact view_setStream_foreign hstream hne rfl (s.streams_sendOr _ _ s ⟨rfl, rfl⟩).1
        (view_sendOr_foreign _ hconn rfl)
    · exact view_setStream_foreign hstream hne rfl (s.streams_sendOr _ _ (s.remove _) ⟨rfl, rfl⟩).1
        (view_sendOr_foreign _ hconn (view_remove_foreign hne.symm hconn))
  | write id result =>
    obtain ⟨stream, stream', isDone, hstream, hturn, rfl⟩ := write_cases h
    obtain ⟨hne, -⟩ := foreign_of_streamOf hwf hstream hconcerns
    have hset : (s.setStream id stream').view i = s.view i :=
      view_setStream_foreign hstream hne (Stream.kept_turn hturn).1 rfl rfl
    cases isDone with
    | false => exact hset
    | true => exact view_erase_foreign hwf hstream hne hset rfl
  | iterate order =>
    obtain rfl := Option.some.inj h
    exact View.ext (Connections.get_iterate _ _ _) rfl rfl rfl

/-! ### Steps that concern the client -/

/-- A connection of the client is at the same point in states that look the same
    to it. -/
theorem phase_of_view (hview : s₁.view i = s₂.view i) {n : Nat} (hn : s₁.connOf i n = true) :
    (s₂.conns n).phase = (s₁.conns n).phase := by
  have hseen : (s₁.conns n).seenBy i = (s₂.conns n).seenBy i :=
    congrFun (congrArg View.conns hview) n
  cases hc : (s₁.conns n).seenBy i with
  | none =>
    rw [seenBy_eq_none] at hc
    rw [connOf, hc] at hn
    cases hn
  | some c => rw [← (seenBy_eq_some hc).1, ← (seenBy_eq_some (hseen ▸ hc)).1]

/-- Once it is served it is the same connection. -/
theorem conn_of_view (hview : s₁.view i = s₂.view i) {n : Nat} (hn : s₁.connOf i n = true)
    {h : ClientHandshake} (hphase : (s₁.conns n).phase = .serving h) :
    s₂.conns n = s₁.conns n := by
  have hseen : (s₁.conns n).seenBy i = (s₂.conns n).seenBy i :=
    congrFun (congrArg View.conns hview) n
  have hphase₂ : (s₂.conns n).phase = .serving h := (phase_of_view hview hn).trans hphase
  cases hc : (s₁.conns n).seenBy i with
  | none =>
    rw [seenBy_eq_none] at hc
    rw [connOf, hc] at hn
    cases hn
  | some c =>
    rw [← (seenBy_eq_some hc).2 h hphase, ← (seenBy_eq_some (hseen ▸ hc)).2 h hphase₂]

theorem connOf_of_view (hview : s₁.view i = s₂.view i) (n : Nat) :
    s₂.connOf i n = s₁.connOf i n := by
  have hseen : (s₁.conns n).seenBy i = (s₂.conns n).seenBy i :=
    congrFun (congrArg View.conns hview) n
  cases h₁ : s₁.connOf i n with
  | true => rw [connOf, phase_of_view hview h₁]; exact h₁
  | false => exact seenBy_eq_none.mp (hseen.symm.trans (seenBy_eq_none.mpr h₁))

/-- A stream of the client is the same in states that look the same to it. -/
theorem stream_of_view (hview : s₁.view i = s₂.view i) {id : StreamId}
    (hid : s₁.streamOf i id = true) {stream₁ stream₂ : Stream}
    (h₁ : s₁.streams id = some stream₁) (h₂ : s₂.streams id = some stream₂) :
    stream₁ = stream₂ ∧ stream₁.activeStream.client.id = i := by
  have hseen : (s₁.streams id).bind (Stream.seenBy i) = (s₂.streams id).bind (Stream.seenBy i) :=
    congrFun (congrArg View.streams hview) id
  have hown : stream₁.activeStream.client.id = i := by
    simpa [streamOf, activeStreamOf, h₁] using hid
  rw [h₁, h₂, Option.bind_some, Option.bind_some, Stream.seenBy, if_pos hown,
    Stream.seenBy] at hseen
  split at hseen
  · exact ⟨Option.some.inj hseen, hown⟩
  · cases hseen

/-- The client of a stream of the client's is one of its own. -/
theorem conn_of_stream (hwf : s₁.WellFormed) (hview : s₁.view i = s₂.view i) {id : StreamId}
    {stream : Stream} (hstream : s₁.streams id = some stream)
    (hown : stream.activeStream.client.id = i) :
    s₂.conns stream.activeStream.client.tx = s₁.conns stream.activeStream.client.tx := by
  have hc : s₁.Served stream.activeStream.client :=
    (hwf.stream id stream.activeStream (by rw [activeStreamOf, hstream]; rfl)).2
  have hconnOf : s₁.connOf i stream.activeStream.client.tx = true := by
    rw [connOf_served hc]
    exact decide_eq_true hown
  obtain ⟨h, hphase, -⟩ := hc
  exact conn_of_view hview hconnOf hphase

theorem setConn_congr (hview : s₁.view i = s₂.view i) (n : Nat) (conn : Conn) :
    (s₁.setConn n conn).view i = (s₂.setConn n conn).view i := by
  rw [view_setConn, view_setConn, hview]

theorem setStream_congr (hview : s₁.view i = s₂.view i) (id : StreamId) (stream : Stream) :
    (s₁.setStream id stream).view i = (s₂.setStream id stream).view i := by
  rw [view_setStream, view_setStream, hview]

theorem remove_congr (hview : s₁.view i = s₂.view i) {client : ConnectedClient}
    (hconn : s₂.conns client.tx = s₁.conns client.tx) :
    (s₁.remove client).view i = (s₂.remove client).view i ∧
      (s₂.remove client).conns client.tx = (s₁.remove client).conns client.tx := by
  refine ⟨by rw [view_remove, view_remove, hview, hconn], ?_⟩
  rw [conns_remove, conns_remove, hconn]

theorem add_congr (hview : s₁.view i = s₂.view i) (client : ConnectedClient) :
    Server.view i { s₁ with connections := s₁.connections.add client } =
      Server.view i { s₂ with connections := s₂.connections.add client } := by
  rw [view_add, view_add, hview]

theorem sendToStream_congr (hwf₁ : s₁.WellFormed) (hwf₂ : s₂.WellFormed)
    (hview : s₁.view i = s₂.view i) (id : StreamId) (message : StreamMessage) :
    (s₁.sendToStream id message).view i = (s₂.sendToStream id message).view i := by
  rw [view_sendToStream hwf₁, view_sendToStream hwf₂, hview]

theorem sendOrElse_congr (hview : s₁.view i = s₂.view i) {client : ConnectedClient}
    (hconn : s₂.conns client.tx = s₁.conns client.tx) (packet : ControlPacket)
    {t₁ t₂ : Server} (helse : t₁.view i = t₂.view i) :
    ((s₁.sendToClient client packet).getD t₁).view i =
      ((s₂.sendToClient client packet).getD t₂).view i := by
  unfold sendToClient
  rw [hconn]
  cases (s₁.conns client.tx).tx.send packet with
  | none => exact helse
  | some tx => exact setConn_congr hview client.tx _

variable {p cfg} in
/-- The handshake that the checks let through does not depend on the registry. -/
theorem authClientHandshake_unique {clientIp : IpAddr}
    {clientHello : Option (Option ClientHello)} {now : Time} {generated : ClientId}
    {random : Text} {h₁ h₂ : ClientHandshake}
    (hok₁ : s₁.authClientHandshake p cfg clientIp clientHello now generated random = some h₁)
    (hok₂ : s₂.authClientHandshake p cfg clientIp clientHello now generated random = some h₂) :
    h₁ = h₂ := by
  unfold authClientHandshake at hok₁ hok₂
  split at hok₁
  · cases hok₁
  next hip =>
  rw [if_neg hip] at hok₂
  cases clientHello with
  | none => cases hok₁
  | some first =>
    simp only at hok₁ hok₂
    cases hauth₁ : authClient p cfg s₁.connections now generated random first with
    | error e => simp [hauth₁, Except.toOption] at hok₁
    | ok h₁' =>
      cases hauth₂ : authClient p cfg s₂.connections now generated random first with
      | error e => simp [hauth₂, Except.toOption] at hok₂
      | ok h₂' =>
        obtain rfl : h₁' = h₁ := by simpa [hauth₁, Except.toOption] using hok₁
        obtain rfl : h₂' = h₂ := by simpa [hauth₂, Except.toOption] using hok₂
        exact authClient_unique hauth₁ hauth₂

/-- A packet, from the client or from another one, in states that look the same. -/
theorem handlePacket_congr (hwf₁ : s₁.WellFormed) (hwf₂ : s₂.WellFormed)
    (hview : s₁.view i = s₂.view i) {client₁ client₂ : ConnectedClient}
    (hclient : client₁ = client₂ ∨ i ≠ client₁.id ∧ i ≠ client₂.id) (packet : ControlPacket) :
    (s₁.handlePacket client₁ packet).view i = (s₂.handlePacket client₂ packet).view i := by
  cases packet with
  | Data id data => exact sendToStream_congr hwf₁ hwf₂ hview id _
  | Refused id => exact sendToStream_congr hwf₁ hwf₂ hview id _
  | Init id => exact hview
  | End id => exact hview
  | Ping token =>
    rcases hclient with rfl | ⟨hne₁, hne₂⟩
    · exact add_congr hview client₁
    · refine (view_add s₁ client₁).trans (Eq.trans ?_ (view_add s₂ client₂).symm)
      rw [if_neg hne₁, if_neg hne₂, hview]

/-- One turn of the message loop, in states that look the same. -/
theorem message_congr (hwf₁ : s₁.WellFormed) (hwf₂ : s₂.WellFormed)
    (hview : s₁.view i = s₂.view i) {n : Nat} {result : NextMessage}
    (h₁ : s₁.message n result = some t₁) (h₂ : s₂.message n result = some t₂) :
    t₁.view i = t₂.view i := by
  obtain ⟨hs₁, hn₁, -, rfl⟩ := message_eq_some.mp h₁
  obtain ⟨hs₂, hn₂, -, rfl⟩ := message_eq_some.mp h₂
  cases hown : s₁.connOf i n with
  | true =>
    have hconn : s₂.conns n = s₁.conns n := conn_of_view hview hown hn₁
    obtain rfl : hs₁ = hs₂ := by
      rw [hconn, hn₁] at hn₂
      exact Phase.serving.inj hn₂
    unfold processMessage
    split
    · have hconn₁ : s₂.conns (hs₁.client n).tx = s₁.conns (hs₁.client n).tx := hconn
      obtain ⟨hremove, hconn'⟩ := remove_congr hview hconn₁
      simp only [hconn']
      exact setConn_congr hremove _ _
    · split
      · exact hview
      · exact handlePacket_congr hwf₁ hwf₂ hview (Or.inl rfl) _
  | false =>
    -- a message of another client: only its packet counts
    have hown₂ : s₂.connOf i n = false := (connOf_of_view hview n).trans hown
    have hne₁ : i ≠ (hs₁.client n).id := ne_of_connOf (by rw [hn₁]; rfl) hown
    have hne₂ : i ≠ (hs₂.client n).id := ne_of_connOf (by rw [hn₂]; rfl) hown₂
    unfold processMessage
    split
    · exact (view_remove_setConn_foreign hne₁ hown (by rfl)).trans
        (hview.trans (view_remove_setConn_foreign hne₂ hown₂ (by rfl)).symm)
    · split
      · exact hview
      · exact handlePacket_congr hwf₁ hwf₂ hview (Or.inr ⟨hne₁, hne₂⟩) _

theorem view_setTable (s : Server) (table : DashMap StreamId ActiveStream) :
    Server.view i { s with activeStreams := table } =
      { s.view i with table := fun id => (table.lookup id).bind (ActiveStream.seenBy i) } := rfl

theorem erase_congr (hview : s₁.view i = s₂.view i) (id : StreamId) :
    Server.view i { s₁ with activeStreams := s₁.activeStreams.erase id } =
      Server.view i { s₂ with activeStreams := s₂.activeStreams.erase id } := by
  rw [view_setTable, view_setTable, hview]
  refine congrArg (fun c => View.mk _ _ c _) (funext ?_)
  intro sid
  rw [Table.lookup_erase_ite, Table.lookup_erase_ite]
  split
  · rfl
  · exact congrFun (congrArg View.table hview) sid

theorem insert_congr (hview : s₁.view i = s₂.view i) (id : StreamId) (a : ActiveStream) :
    Server.view i { s₁ with activeStreams := s₁.activeStreams.insert id a } =
      Server.view i { s₂ with activeStreams := s₂.activeStreams.insert id a } := by
  rw [view_setTable, view_setTable, hview]
  refine congrArg (fun c => View.mk _ _ c _) (funext ?_)
  intro sid
  rw [Table.lookup_insert_ite, Table.lookup_insert_ite]
  split
  · rfl
  · exact congrFun (congrArg View.table hview) sid

variable {cfg} in
theorem route_of_forwardedTo {id : StreamId} {host : Text} {client : ConnectedClient}
    (h : s.forwardedTo cfg (.accept id host) = some client) :
    acceptConnection cfg s.connections host = .Forward client := by
  simp only [forwardedTo] at h
  split at h
  next c hc =>
    obtain rfl := Option.some.inj h
    exact hc
  · cases h

/-- A step that concerns the client, in states that look the same to it, leads to
    states that look the same to it. -/
theorem view_step_congr (hwf₁ : s₁.WellFormed) (hwf₂ : s₂.WellFormed)
    (hview : s₁.view i = s₂.view i) {e : ServerEvent} (hc₁ : s₁.concerns p cfg i e = true)
    (hc₂ : s₂.concerns p cfg i e = true) (hroute : s₁.forwardedTo cfg e = s₂.forwardedTo cfg e)
    (h₁ : s₁.step p cfg e = some t₁)
    (h₂ : s₂.step p cfg e = some t₂) : t₁.view i = t₂.view i := by
  cases e with
  | hello n clientIp clientHello now generated random =>
    simp only [concerns, Option.any_eq_true] at hc₁ hc₂
    obtain ⟨hs₁, hok₁, hid₁⟩ := hc₁
    obtain ⟨hs₂, hok₂, -⟩ := hc₂
    obtain rfl := authClientHandshake_unique hok₁ hok₂
    obtain ⟨-, rfl⟩ := hello_cases h₁
    obtain ⟨-, rfl⟩ := hello_cases h₂
    rw [view_setConn, view_setConn, hview, hok₁, hok₂]
    rfl
  | greet n sent =>
    have hphase := phase_of_view hview hc₁
    obtain ⟨hs, hn, rfl⟩ := greet_cases h₁
    obtain ⟨hs₂, hn₂, rfl⟩ := greet_cases h₂
    obtain rfl : hs = hs₂ := Phase.checked.inj (hn.symm.trans (hphase.symm.trans hn₂))
    rw [view_setConn, view_setConn, hview]
    cases sent <;> rfl
  | register n =>
    have hphase := phase_of_view hview hc₁
    obtain ⟨hs, hn, rfl⟩ := register_cases h₁
    obtain ⟨hs₂, hn₂, rfl⟩ := register_cases h₂
    obtain rfl : hs = hs₂ := Phase.announced.inj (hn.symm.trans (hphase.symm.trans hn₂))
    exact add_congr (setConn_congr hview n _) (hs.client n)
  | ping n now =>
    have hphase := phase_of_view hview hc₁
    obtain ⟨hs, hn, -, rfl⟩ := ping_cases h₁
    obtain ⟨hs₂, hn₂, -, rfl⟩ := ping_cases h₂
    obtain rfl : hs = hs₂ := Phase.serving.inj (hn.symm.trans (hphase.symm.trans hn₂))
    have hconn : s₂.conns (hs.client n).tx = s₁.conns (hs.client n).tx :=
      conn_of_view hview hc₁ hn
    obtain ⟨hremove, hclosed⟩ := remove_congr hview hconn
    have hclosed' : (s₂.remove (hs.client n)).conns n = (s₁.remove (hs.client n)).conns n :=
      hclosed
    rw [hclosed']
    exact sendOrElse_congr hview hconn _ (setConn_congr hremove n _)
  | flush n sent =>
    have hphase := phase_of_view hview hc₁
    obtain ⟨hs, hn, -, hflush₁⟩ := flush_cases h₁
    obtain ⟨hs₂, hn₂, -, hflush₂⟩ := flush_cases h₂
    obtain rfl : hs = hs₂ := Phase.serving.inj (hn.symm.trans (hphase.symm.trans hn₂))
    have hconn : s₂.conns n = s₁.conns n := conn_of_view hview hc₁ hn
    have hconn' : s₂.conns (hs.client n).tx = s₁.conns (hs.client n).tx := hconn
    obtain ⟨hremove, hclosed⟩ := remove_congr hview hconn'
    have hclosed' : (s₂.remove (hs.client n)).conns n = (s₁.remove (hs.client n)).conns n :=
      hclosed
    rw [hconn, hclosed'] at hflush₂
    -- the queue and the write decide which way it goes in both
    rcases hflush₁ with ⟨packet, rest, hqueue, ⟨rfl, rfl⟩ | ⟨rfl, rfl⟩⟩ | ⟨hqueue, -, rfl⟩
    · obtain rfl : t₂ = _ := by simpa [hqueue] using hflush₂
      exact setConn_congr hview n _
    · obtain rfl : t₂ = _ := by simpa [hqueue] using hflush₂
      exact setConn_congr hremove n _
    · obtain ⟨-, rfl⟩ : _ ∧ t₂ = _ := by simpa [hqueue] using hflush₂
      exact setConn_congr hview n _
  | message n result => exact message_congr hwf₁ hwf₂ hview h₁ h₂
  | accept id host =>
    simp only [concerns, ← hroute, Option.any_eq_true] at hc₁ hc₂
    obtain ⟨client, hclient₁, -⟩ := hc₁
    have hroute₁ := route_of_forwardedTo hclient₁
    have hroute₂ := route_of_forwardedTo (hroute ▸ hclient₁)
    obtain ⟨-, ⟨client₁, hsame₁, rfl⟩ | ⟨hnone, -⟩⟩ := accept_cases h₁
    · obtain ⟨-, ⟨client₂, hsame₂, rfl⟩ | ⟨hnone, -⟩⟩ := accept_cases h₂
      · obtain rfl := Route.Forward.inj (hroute₁.symm.trans hsame₁)
        obtain rfl := Route.Forward.inj (hroute₂.symm.trans hsame₂)
        exact insert_congr (setStream_congr hview id (Stream.new ⟨id, client⟩)) id ⟨id, client⟩
      · exact absurd hroute₂ (hnone client)
    · exact absurd hroute₁ (hnone client)
  | init id =>
    obtain ⟨stream, hstream, -, rfl⟩ := init_cases h₁
    obtain ⟨stream₂, hstream₂, -, rfl⟩ := init_cases h₂
    obtain ⟨rfl, hown⟩ := stream_of_view hview hc₁ hstream hstream₂
    have hconn := conn_of_stream hwf₁ hview hstream hown
    exact setStream_congr (sendOrElse_congr hview hconn _ (remove_congr hview hconn).1) id _
  | poll id =>
    obtain ⟨stream, hstream, -, hpoll₁⟩ := poll_cases h₁
    obtain ⟨stream₂, hstream₂, -, hpoll₂⟩ := poll_cases h₂
    obtain ⟨rfl, hown⟩ := stream_of_view hview hc₁ hstream hstream₂
    have hentry : s₁.connections.get i = s₂.connections.get i := congrArg View.entry hview
    rw [hown, hentry] at hpoll₁
    rw [hown] at hpoll₂
    rcases hpoll₁ with ⟨hgone, rfl⟩ | ⟨hthere, rfl⟩
    · rcases hpoll₂ with ⟨-, rfl⟩ | ⟨hthere, -⟩
      · exact setStream_congr hview id _
      · exact absurd hgone hthere
    · rcases hpoll₂ with ⟨hgone, -⟩ | ⟨-, rfl⟩
      · exact absurd hgone hthere
      · exact setStream_congr hview id _
  | read id result =>
    obtain ⟨stream, hstream, -, hread₁⟩ := read_cases h₁
    obtain ⟨stream₂, hstream₂, -, hread₂⟩ := read_cases h₂
    obtain ⟨rfl, hown⟩ := stream_of_view hview hc₁ hstream hstream₂
    have hconn := conn_of_stream hwf₁ hview hstream hown
    rcases hread₁ with ⟨rfl, rfl⟩ | ⟨rfl, rfl⟩ | ⟨data, rfl, hdata, -, rfl⟩
    · obtain rfl : t₂ = _ := by simpa using hread₂
      exact setStream_congr hview id _
    · obtain rfl : t₂ = _ := by simpa using hread₂
      exact setStream_congr (sendOrElse_congr hview hconn _ hview) id _
    · obtain ⟨-, rfl⟩ : _ ∧ t₂ = _ := by simpa [hdata] using hread₂
      exact setStream_congr (sendOrElse_congr hview hconn _ (remove_congr hview hconn).1) id _
  | write id result =>
    obtain ⟨stream, stream', isDone, hstream, hturn, rfl⟩ := write_cases h₁
    obtain ⟨stream₂, stream₂', isDone₂, hstream₂, hturn₂, rfl⟩ := write_cases h₂
    obtain ⟨rfl, -⟩ := stream_of_view hview hc₁ hstream hstream₂
    obtain ⟨rfl, rfl⟩ := Prod.mk.inj (Option.some.inj (hturn.symm.trans hturn₂))
    have hset := setStream_congr hview id stream'
    cases isDone with
    | false => exact hset
    | true => exact erase_congr hset id
  | iterate order => cases hc₁

/-! ### Isolation -/

/-- The message is one of the connection's. -/
def fromConn (a : Nat) : ServerEvent → Bool
  | .message n _ => decide (n = a)
  | _ => false

variable (i) in
/-- The steps that concern the client, but for the messages of connection `a`,
    with the client that a remote connection is handed to. -/
def seenApart (a : Nat) (s : Server) (e : ServerEvent) :
    Option (ServerEvent × Option ConnectedClient) :=
  if fromConn a e = false ∧ s.concerns p cfg i e = true then some (e, s.forwardedTo cfg e) else none

variable (i) in
/-- No message of connection `a` is a packet for a stream of the client. -/
def Spares (a : Nat) (s : Server) : ServerEvent → Prop
  | .message n result => n = a → s.names i result = false
  | _ => True

theorem view_unseen (hwf : s.WellFormed) {a : Nat} {h : ClientHandshake} (hi : i ≠ h.id)
    (ha : (s.conns a).phase = .serving h) {e : ServerEvent} (hspares : s.Spares i a e)
    (hstep : s.step p cfg e = some t) (hseen : s.seenApart p cfg i a e = none) :
    t.view i = s.view i := by
  refine view_step_foreign p cfg hwf ?_ hstep
  unfold seenApart at hseen
  split at hseen
  · cases hseen
  next hnot =>
  rw [not_and_or] at hnot
  rcases hnot with hfrom | hconcerns
  · cases e with
    | message n result =>
      obtain rfl : n = a := by simpa [fromConn] using hfrom
      have hconn : s.connOf i n = false := by
        simpa [connOf, ha, Phase.handshake] using fun heq : h.id = i => hi heq.symm
      rw [concerns, hconn, hspares rfl]
      rfl
    | _ => exact absurd rfl hfrom
  · simpa using hconcerns

/-- Only the stream that a packet names can change by it. -/
theorem message_streams (hwf : s.WellFormed) {n : Nat} {result : NextMessage}
    (h : s.message n result = some t) {id : StreamId} (hid : t.streams id ≠ s.streams id) :
    result.packet.bind ControlPacket.dispatchedTo = some id := by
  obtain ⟨handshake, -, -, rfl⟩ := message_eq_some.mp h
  unfold processMessage at hid
  split at hid
  · exact absurd rfl hid
  next bytes hproto =>
  split at hid
  · exact absurd rfl hid
  next packet hpacket =>
  rw [NextMessage.packet_eq_some.mpr ⟨bytes, hproto, hpacket⟩, Option.bind_some]
  have hsend : ∀ sid message, (s.sendToStream sid message).streams id ≠ s.streams id →
      sid = id := by
    intro sid message hne
    rw [streams_sendToStream] at hne
    split at hne
    next hany =>
      obtain ⟨a, ha, hkey⟩ := Option.any_eq_true _ _ |>.mp hany
      have := (hwf.stream sid a (hwf.active sid a ha)).1
      simpa [this] using hkey
    · exact absurd rfl hne
  cases packet with
  | Data sid data => exact congrArg some (hsend sid _ hid)
  | Refused sid => exact congrArg some (hsend sid _ hid)
  | Init sid => exact absurd rfl hid
  | End sid => exact absurd rfl hid
  | Ping token => exact absurd rfl hid

end Server

open Server

/-- A packet of one client reaches the stream it names and no other; and of two
    runs that agree in what concerns another client, its streams come out the
    same, whatever packets the first client sends in either, as long as none
    names a stream of the other's. -/
theorem stream_isolation (p : Platform) (cfg : Config) (s : Server)
    (hs : (server p cfg).Reachable s) (a : Nat) (h : ClientHandshake)
    (ha : (s.conns a).phase = .serving h) (i : ClientId) (hi : i ≠ h.id) :
    (∀ result t id, s.message a result = some t → t.streams id ≠ s.streams id →
        result.packet.bind ControlPacket.dispatchedTo = some id) ∧
      ∀ es₁ es₂ t₁ t₂, (server p cfg).run s es₁ = some t₁ → (server p cfg).run s es₂ = some t₂ →
        (server p cfg).Meets (Spares i a) s es₁ → (server p cfg).Meets (Spares i a) s es₂ →
        (server p cfg).trace (fun u e => (u.seenApart p cfg i a e).toList) s es₁ =
          (server p cfg).trace (fun u e => (u.seenApart p cfg i a e).toList) s es₂ →
        ∀ id, (t₁.view i).streams id = (t₂.view i).streams id := by
  have hwf : s.WellFormed := by
    obtain ⟨s₀, es, rfl, hrun⟩ := hs
    exact wellFormed_run hrun
  refine ⟨fun result t id hmessage hid => message_streams hwf hmessage hid, ?_⟩
  intro es₁ es₂ t₁ t₂ hrun₁ hrun₂ hspares₁ hspares₂ htrace id
  have hview : t₁.view i = t₂.view i := by
    refine Machine.run_unwinding (I := fun u => u.WellFormed ∧ u.Served (h.client a))
      (view i) (seenApart p cfg i a)
      (fun u e v hI _ hstep => ⟨wellFormed_step hI.1 hstep, served_step hI.1 hstep hI.2⟩)
      ?_
      ?_
      ⟨hwf, h, ha, rfl⟩ ⟨hwf, h, ha, rfl⟩ rfl hspares₁ hspares₂ hrun₁ hrun₂ rfl htrace.symm
    · intro u e v hI hG hstep hseen
      obtain ⟨hwf', h', hphase, hclient⟩ := hI
      have hid : h.id = h'.id := congrArg ConnectedClient.id hclient
      exact view_unseen p cfg hwf' (hid ▸ hi) hphase hG hstep hseen
    · intro u₁ u₂ e₁ e₂ v₁ v₂ o hI₁ hI₂ hsame h₁ h₂ ho₁ ho₂
      unfold seenApart at ho₁ ho₂
      split at ho₁
      next hc₁ =>
        split at ho₂
        next hc₂ =>
          obtain ⟨rfl, hroute⟩ := Prod.mk.inj (Option.some.inj (ho₁.trans ho₂.symm))
          exact view_step_congr p cfg hI₁.1 hI₂.1 hsame hc₁.2 hc₂.2 hroute h₁ h₂
        · cases ho₂
      · cases ho₁
  exact congrFun (congrArg View.streams hview) id

namespace TwoClients

open AnnouncedHost

def register (n : Nat) (id name : Char) : List ServerEvent :=
  [.hello n (.V4 0) (some (some (hello [name]))) 0 ⟨[id]⟩ [], .greet n true, .register n]

/-- Two clients, and a remote connection to the second. -/
def setup : List ServerEvent :=
  register 0 '1' 'a' ++ register 1 '2' 'b' ++ [.accept sampleStream "b.b.co".toList]

/-- A packet of the first client for the stream. -/
def intrusion : ServerEvent :=
  .message 0 (.ok (.Binary (ControlPacket.Data sampleStream [120]).serialize))

/-- A packet of the first client for a stream that does not exist. -/
def noise : ServerEvent :=
  .message 0 (.ok (.Binary (ControlPacket.Data emptyStream [120]).serialize))

/-- A packet of the second client for its stream. -/
def data : ServerEvent :=
  .message 1 (.ok (.Binary (ControlPacket.Data sampleStream [121]).serialize))

end TwoClients

open AnnouncedHost TwoClients in
/-- The data of the second client is written to its remote peer alike with and without
    packets of the first in between. -/
theorem stream_isolation_noise :
    ∃ s t t' stream, (server Platform.ascii config).run Server.new setup = some s ∧
      (server Platform.ascii config).run s [noise, data, noise, .write sampleStream .ok] = some t ∧
      (server Platform.ascii config).run s [data, .write sampleStream .ok] = some t' ∧
      (t'.view ⟨['2']⟩).streams sampleStream = some stream ∧ stream.socket.written = [121] ∧
      (t.view ⟨['2']⟩).streams sampleStream = some stream := by
  refine ⟨_, _, _, _, rfl, rfl, rfl, rfl, rfl, ?_⟩
  refine ((stream_isolation Platform.ascii config _ ⟨_, setup, rfl, rfl⟩ 0 _ rfl ⟨['2']⟩
    (by decide)).2 [noise, data, noise, .write sampleStream .ok] [data, .write sampleStream .ok]
    _ _ rfl rfl ?_ ?_ (by rfl) sampleStream).trans rfl
  · exact .cons (by intro _; rfl) rfl (.cons nofun rfl (.cons (by intro _; rfl) rfl
      (.cons trivial rfl trivial)))
  · exact .cons nofun rfl (.cons trivial rfl trivial)

open AnnouncedHost TwoClients in
/-- The bytes that the first client sends under the second one's stream id are
    written to the remote peer of the second. -/
theorem stream_not_isolated :
    ∃ s t stream stream', (server Platform.ascii config).run Server.new setup = some s ∧
      (server Platform.ascii config).run s [intrusion, .write sampleStream .ok] = some t ∧
      (s.view ⟨['2']⟩).streams sampleStream = some stream ∧
      (t.view ⟨['2']⟩).streams sampleStream = some stream' ∧
      stream.socket.written = [] ∧ stream'.socket.written = [120] := by
  exact ⟨_, _, _, _, rfl, rfl, rfl, rfl, rfl, rfl⟩

end Neutun
