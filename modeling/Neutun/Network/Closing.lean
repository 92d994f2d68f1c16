/-
  Neutun/Network/Closing.lean
  ===========================
  What closes the remote connection.

  A client has no packet that says "the local service is done": it never makes an
  `End`, and `process_client_messages` takes none from it.  At the end of a local
  connection `process_local_tcp` takes the stream out of `ACTIVE_STREAMS` and sends
  nothing.  Only a refusal makes `neutun_stream` shut the remote socket down.
-/
import Neutun.Network.Downlink

namespace Neutun

open Foundation

namespace Client

/-- `process_local_tcp` sends nothing at the end of the stream. -/
theorem tunnels_of_eof {c c' : Client} {n : Nat} (h : c.readLocal n (.ok []) = some c') :
    c'.tunnels = c.tunnels := by
  rcases readLocal_cases h with ⟨stream, -, -, ⟨hnone, -⟩ | ⟨-, rfl⟩ |
    ⟨data, reader, hdata, hne, -⟩⟩
  · cases hnone
  · rfl
  · exact absurd (ReadResult.ok.inj hdata).symm hne

end Client

open Network

/-- As long as its client is registered, the remote socket of a stream is shut down
    only for a refusal that the client has sent, and has been shut down for it once
    nothing is on the way; the end of a local connection sends nothing. -/
theorem closed_by_refusal (p : Platform) (cfg : Config) (useTls : Bool) (link : Nat → Nat)
    (hlink : Function.Injective link) (es : List NetworkEvent) (t : Network)
    (hrun : (network p cfg useTls link).run Network.new es = some t) (id : StreamId)
    (hsteady : (network p cfg useTls link).Meets (Steady id) Network.new es) (stream : Stream)
    (hstream : t.server.streams id = some stream) (w : Nat)
    (hclient : stream.activeStream.client.tx = link w) :
    let sent := (network p cfg useTls link).trace (sentFor id) Network.new es
    (stream.socket.shutdown = true → .TunnelRefused ∈ sent) ∧
      (Settled link id w t stream →
        (stream.socket.shutdown = true ↔ .TunnelRefused ∈ sent)) ∧
      ∀ n client, t.client.readLocal n (.ok []) = some client →
        client.tunnels = t.client.tunnels := by
  intro sent
  have howner : Owner id t (link w) :=
    ⟨stream.activeStream, by rw [Server.activeStreamOf, hstream]; rfl, hclient⟩
  obtain ⟨dispatched, hdelivered, hconveys⟩ :=
    (tracked_run hlink hrun hsteady w).downlink.conveys howner
  have hdelivers := hdelivered.delivers stream hstream
  have hrefused : stream.socket.shutdown = true → .TunnelRefused ∈ sent := by
    intro hshutdown
    exact hconveys.isPrefix.subset (hdelivers.refused_of_shutdown hshutdown)
  refine ⟨hrefused, fun hsettled => ⟨hrefused, ?_⟩, ?_⟩
  · intro hmem
    rw [hsettled.rising] at hconveys
    have hall : dispatched = sent := hconveys.delivered hsettled.connected
    exact hdelivers.shutdown_of_refused hsettled.queue (hall ▸ hmem)
  · intro n client heof
    exact Client.tunnels_of_eof heof

open OneTunnel AnnouncedHost in
/-- The local service cannot be reached. -/
theorem closed_by_refusal_unreachable : ∃ t stream,
    (network Platform.ascii config false id).run Network.new
      (connect ++ request 1 ++ [.client (.connect .err), .client (.flush 1 true),
        .server (.message 1 (.ok (.Binary (ControlPacket.Refused sampleStream).serialize))),
        .server (.write sampleStream .ok)]) = some t ∧
    t.server.streams sampleStream = some stream ∧ stream.socket.shutdown = true := by
  refine ⟨_, _, rfl, rfl, ?_⟩
  exact ((closed_by_refusal Platform.ascii config false id Function.injective_id
    (connect ++ request 1 ++ [.client (.connect .err), .client (.flush 1 true),
      .server (.message 1 (.ok (.Binary (ControlPacket.Refused sampleStream).serialize))),
      .server (.write sampleStream .ok)]) _ rfl sampleStream (by decide) _ rfl 1 rfl).2.1
    ⟨rfl, rfl, rfl⟩).mpr (by decide)

open OneTunnel AnnouncedHost in
/-- The local service answers and closes, everything has arrived, and the remote
    peer is not told. -/
theorem local_close_not_told : ∃ t stream local_,
    (network Platform.ascii config false id).run Network.new
      (connect ++ request 1 ++ setup ++ response 2 ++ [.client (.readLocal 0 (.ok []))]) = some t ∧
    t.server.streams sampleStream = some stream ∧ t.client.locals 0 = some local_ ∧
    local_.streamId = sampleStream ∧ local_.processLocalTcp = .returned ∧
    stream.socket.written = local_.socket.received ∧
    t.up 1 = [] ∧ t.down 1 = [] ∧ (t.server.conns 1).tx.queue = [] ∧
    (t.client.tunnels 1).channel.queue = [] ∧ stream.queue.queue = [] ∧ local_.queue.queue = [] ∧
    (t.server.connections.get stream.activeStream.client.id).isSome = true ∧
    (t.server.conns 1).processClientMessages = true ∧ stream.socket.shutdown = false :=
  ⟨_, _, _, rfl, rfl, rfl, rfl, rfl, rfl, rfl, rfl, rfl, rfl, rfl, rfl, rfl, rfl, rfl⟩

end Neutun
