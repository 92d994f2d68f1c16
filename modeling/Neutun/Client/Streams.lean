/-
  Neutun/Client/Streams.lean
  ==========================
  What holds of the local connections in every reachable state of the client.

  A local connection is entered in `ACTIVE_STREAMS` under its stream id once its
  forwarder is spawned, and never before.  Nothing takes the entry out when the
  forwarder ends: all that can be said then is that its queue is closed.
-/
import Neutun.Client.State

namespace Neutun

open Foundation

namespace Client

/-- `forward_to_local_tcp` has ended, and dropped its queue. -/
def Forwarder.ended : Forwarder → Bool
  | .spawning | .running => false
  | .returned | .panicked => true

/-- The chunk that the reading loop has in hand, and the stream it is for. -/
def Control.chunk : Control → Option (StreamId × Bytes)
  | .connecting streamId data | .inserting streamId data _ | .forwarding streamId data =>
    some (streamId, data)
  | _ => none

/-- The reading loop is about to hand a chunk to a local connection. -/
def Control.handing : Control → Bool
  | .inserting .. | .forwarding .. => true
  | _ => false

/-! ### One local connection -/

/-- The bytes a message asks the forwarder to write. -/
def StreamMessage.bytes : StreamMessage → Bytes
  | Data data => data
  | Close => []

/-- The bytes that wait in the queue. -/
def LocalStream.queued (stream : LocalStream) : Bytes :=
  stream.queue.queue.flatMap StreamMessage.bytes

/-- The queue is open as long as the forwarder is there to read it, and nothing
    is sent before the forwarder is spawned. -/
structure LocalStream.Sound (stream : LocalStream) : Prop where
  closed : stream.queue.closed = stream.forwardToLocalTcp.ended
  spawning : stream.forwardToLocalTcp = .spawning →
    stream.queued = [] ∧ stream.socket.written = []

theorem LocalStream.sound_new (streamId : StreamId) (wormhole : Nat) :
    (LocalStream.new streamId wormhole).Sound where
  closed := rfl
  spawning _ := ⟨rfl, rfl⟩

/-- A `Close` adds nothing to write. -/
theorem LocalStream.queued_close (stream : LocalStream) :
    LocalStream.queued { stream with queue := stream.queue.sendOrDrop .Close } = stream.queued := by
  unfold LocalStream.queued
  rw [Channel.sendOrDrop_queue]
  split
  · rfl
  · rw [List.flatMap_append]
    exact List.append_nil _

/-- A turn of the forwarder writes what is next in the queue, or ends it with some
    part of that written. -/
theorem LocalStream.turn_cases {stream stream' : LocalStream} {result : WriteResult}
    {open_ : Bool} (h : stream.turn result open_ = some stream') :
    stream.forwardToLocalTcp = .running ∧ stream'.streamId = stream.streamId ∧
      stream'.wormhole = stream.wormhole ∧
      (stream'.forwardToLocalTcp = .running ∧ stream'.queue.closed = stream.queue.closed ∧
          stream'.socket.written ++ stream'.queued = stream.socket.written ++ stream.queued ∨
        stream'.forwardToLocalTcp.ended = true ∧ stream'.queue = stream.queue.disconnect ∧
          stream'.socket.written <+: stream.socket.written ++ stream.queued) := by
  unfold LocalStream.turn at h
  split at h
  next data rest hrunning hqueue =>
    have hqueued : stream.queued = data ++ rest.flatMap StreamMessage.bytes := by
      rw [LocalStream.queued, hqueue]
      rfl
    simp only at h
    split at h
    · obtain rfl := Option.some.inj h
      refine ⟨hrunning, rfl, rfl, Or.inl ⟨hrunning, rfl, ?_⟩⟩
      rw [hqueued, ← List.append_assoc]
      rfl
    next part =>
      obtain rfl := Option.some.inj h
      refine ⟨hrunning, rfl, rfl, Or.inr ⟨rfl, rfl, ?_⟩⟩
      rw [hqueued]
      apply (List.prefix_append_right_inj stream.socket.written).mpr
      exact (List.take_prefix part data).trans (List.prefix_append _ _)
  next rest hrunning hqueue =>
    obtain rfl := Option.some.inj h
    exact ⟨hrunning, rfl, rfl, Or.inr ⟨rfl, rfl, List.prefix_append _ _⟩⟩
  next hrunning hqueue =>
    split at h
    · cases h
    · obtain rfl := Option.some.inj h
      exact ⟨hrunning, rfl, rfl, Or.inr ⟨rfl, rfl, List.prefix_append _ _⟩⟩
  · cases h

theorem LocalStream.Sound.turn {stream stream' : LocalStream} {result : WriteResult}
    {open_ : Bool} (hs : stream.Sound) (h : stream.turn result open_ = some stream') :
    stream'.Sound ∧ stream'.forwardToLocalTcp ≠ .spawning := by
  rcases turn_cases h with ⟨hrunning, -, -, ⟨hrunning', hclosed, -⟩ | ⟨hended, hqueue, -⟩⟩
  · have hne : stream'.forwardToLocalTcp ≠ .spawning := by simp [hrunning']
    refine ⟨⟨?_, fun hspawn => absurd hspawn hne⟩, hne⟩
    rw [hclosed, hs.closed, hrunning, hrunning']
  · have hne : stream'.forwardToLocalTcp ≠ .spawning := by
      intro hspawn
      rw [hspawn] at hended
      cases hended
    refine ⟨⟨?_, fun hspawn => absurd hspawn hne⟩, hne⟩
    rw [hqueue, hended]
    rfl

theorem LocalStream.Sound.sendClose {stream : LocalStream} (hs : stream.Sound) :
    LocalStream.Sound { stream with queue := stream.queue.sendOrDrop .Close } where
  closed := (Channel.sendOrDrop_closed _ _).trans hs.closed
  spawning hspawning := ⟨stream.queued_close.trans (hs.spawning hspawning).1,
    (hs.spawning hspawning).2⟩

/-! ### The table and the local connections -/

/-- Entries of `ACTIVE_STREAMS` are local connections of their stream, with a
    forwarder that has been spawned. -/
structure WellFormed (c : Client) : Prop where
  sound : ∀ n stream, c.locals n = some stream → stream.Sound
  entry : ∀ streamId n, c.activeStreams.lookup streamId = some n →
    ∃ stream, c.locals n = some stream ∧ stream.streamId = streamId ∧
      stream.forwardToLocalTcp ≠ .spawning
  made : ∀ n, c.streams ≤ n → c.locals n = none
  inserting : ∀ streamId data n, c.control = .inserting streamId data n →
    ∃ stream, c.locals n = some stream ∧ stream.streamId = streamId ∧
      stream.forwardToLocalTcp = .spawning

theorem wellFormed_new : WellFormed Client.new where
  sound _ _ h := nomatch h
  entry _ _ h := nomatch h
  made _ _ := rfl
  inserting _ _ _ h := nomatch h

variable {c c' : Client}

theorem WellFormed.frame (h : c.WellFormed) (hactive : c'.activeStreams = c.activeStreams)
    (hlocals : c'.locals = c.locals) (hstreams : c'.streams = c.streams)
    (hcontrol : ∀ streamId data n, c'.control = .inserting streamId data n →
      c.control = .inserting streamId data n) : c'.WellFormed where
  sound := by
    rw [hlocals]
    exact h.sound
  entry := by
    rw [hlocals, hactive]
    exact h.entry
  made := by
    rw [hlocals, hstreams]
    exact h.made
  inserting := by
    intro streamId data n hn
    rw [hlocals]
    exact h.inserting streamId data n (hcontrol _ _ _ hn)

theorem WellFormed.notifyTunnel (h : c.WellFormed) (w : Nat) (packet : ControlPacket) :
    (c.notifyTunnel w packet).WellFormed := by
  apply h.frame
  · exact activeStreams_notifyTunnel _ _ _
  · exact locals_notifyTunnel _ _ _
  · exact streams_notifyTunnel _ _ _
  · intro streamId data n hn
    rwa [control_notifyTunnel] at hn

theorem WellFormed.erase (h : c.WellFormed) (streamId : StreamId) :
    WellFormed { c with activeStreams := c.activeStreams.erase streamId } where
  sound := h.sound
  entry := by
    intro id n hn
    rw [Table.lookup_erase_ite] at hn
    split at hn
    · cases hn
    · exact h.entry id n hn
  made := h.made
  inserting := h.inserting

/-- A local connection changes, but neither its stream nor whether its forwarder
    is spawned. -/
theorem WellFormed.setLocal (h : c.WellFormed) {n : Nat} {old stream : LocalStream}
    (hold : c.locals n = some old) (hstreamId : stream.streamId = old.streamId)
    (hspawning : stream.forwardToLocalTcp = .spawning ↔ old.forwardToLocalTcp = .spawning)
    (hsound : stream.Sound) : (c.setLocal n stream).WellFormed := by
  -- what is said of a local connection by its stream and its spawning only
  have hkeep : ∀ m (P : StreamId → Prop → Prop),
      (∃ s, c.locals m = some s ∧ P s.streamId (s.forwardToLocalTcp = .spawning)) →
      ∃ s, (c.setLocal n stream).locals m = some s ∧
        P s.streamId (s.forwardToLocalTcp = .spawning) := by
    intro m P hm
    obtain ⟨s, hs, hP⟩ := hm
    rw [locals_setLocal]
    split
    next heq =>
      subst heq
      obtain rfl : old = s := Option.some.inj (hold.symm.trans hs)
      refine ⟨stream, rfl, ?_⟩
      rw [hstreamId, propext hspawning]
      exact hP
    · exact ⟨s, hs, hP⟩
  refine ⟨?_, ?_, ?_, ?_⟩
  · intro m s hs
    rw [locals_setLocal] at hs
    split at hs
    · obtain rfl := Option.some.inj hs
      exact hsound
    · exact h.sound m s hs
  · intro streamId m hm
    exact hkeep m (fun id spawning => id = streamId ∧ ¬ spawning) (h.entry streamId m hm)
  · intro m hm
    rw [locals_setLocal, if_neg]
    · exact h.made m hm
    · rintro rfl
      have hnone := h.made m hm
      rw [hold] at hnone
      cases hnone
  · intro streamId data m hm
    exact hkeep m (fun id spawning => id = streamId ∧ spawning) (h.inserting streamId data m hm)

/-! ### Steps that touch no local connection -/

/-- The packet that a message from the server carries. -/
def received : ClientEvent → Option ControlPacket
  | .receive (.ok (.Close _)) => none
  | .receive (.ok message) => (ControlPacket.deserialize message.data).toOption
  | _ => none

theorem received_ok {message : Message} (h : ∀ bytes, message = .Close bytes → False) :
    received (.receive (.ok message)) = (ControlPacket.deserialize message.data).toOption := by
  cases message with
  | Close bytes => exact (h bytes rfl).elim
  | _ => rfl

/-- `run_tunnel`, the reads from the websocket and the writes to it. -/
def ofTunnel : ClientEvent → Bool
  | .startWormhole _ | .decide | .interrupt | .receive _ | .flush _ _ => true
  | _ => false

/-- They leave the local connections alone, only a `Data` packet gives the reading
    loop a chunk, and a chunk is not dropped while it is being handed over. -/
theorem step_ofTunnel {useTls : Bool} {e : ClientEvent} (he : ofTunnel e = true)
    (h : c.step useTls e = some c') :
    c'.activeStreams = c.activeStreams ∧ c'.locals = c.locals ∧ c'.streams = c.streams ∧
      ((c'.control = c.control ∨ c'.control.chunk = none ∧ c.control.handing = false) ∧
          (∀ streamId data, received e ≠ some (.Data streamId data)) ∨
        ∃ streamId data, received e = some (.Data streamId data) ∧ c.control = .reading ∧
          c'.control = if (c.activeStreams.lookup streamId).isSome then .forwarding streamId data
            else .connecting streamId data) := by
  cases e with
  | startWormhole result =>
    obtain ⟨hcontrol, hstart⟩ := startWormhole_cases h
    have hhanding : c.control.handing = false := by rw [hcontrol]; rfl
    rcases hstart with ⟨-, rfl⟩ | ⟨e, -, -, -, rfl⟩
    · exact ⟨rfl, rfl, rfl, Or.inl ⟨Or.inr ⟨rfl, hhanding⟩, fun _ _ => nofun⟩⟩
    · exact ⟨rfl, rfl, rfl, Or.inl ⟨Or.inr ⟨rfl, hhanding⟩, fun _ _ => nofun⟩⟩
  | decide =>
    obtain ⟨outcome, hcontrol, hdecide⟩ := decide_cases h
    have hhanding : c.control.handing = false := by rw [hcontrol]; rfl
    rcases hdecide with ⟨-, rfl⟩ | ⟨e, -, -, rfl⟩
    · exact ⟨rfl, rfl, rfl, Or.inl ⟨Or.inr ⟨rfl, hhanding⟩, fun _ _ => nofun⟩⟩
    · exact ⟨rfl, rfl, rfl, Or.inl ⟨Or.inr ⟨rfl, hhanding⟩, fun _ _ => nofun⟩⟩
  | interrupt =>
    obtain ⟨-, hcontrol, rfl⟩ := interrupt_cases h
    have hhanding : c.control.handing = false := by
      rcases hcontrol with hcontrol | ⟨streamId, data, hcontrol⟩
      · rw [hcontrol]
        rfl
      · rw [hcontrol]
        rfl
    exact ⟨rfl, rfl, rfl, Or.inl ⟨Or.inr ⟨rfl, hhanding⟩, fun _ _ => nofun⟩⟩
  | receive result =>
    obtain ⟨hcontrol, hreceive⟩ := receive_cases h
    have hhanding : c.control.handing = false := by rw [hcontrol]; rfl
    rcases hreceive with ⟨bytes, rfl, rfl⟩ | ⟨message, rfl, hclose, rfl⟩ | ⟨hgone, rfl⟩
    · exact ⟨rfl, rfl, rfl, Or.inl ⟨Or.inr ⟨rfl, hhanding⟩, fun _ _ => nofun⟩⟩
    · rw [received_ok hclose]
      unfold processControlFlowMessage
      cases hpacket : ControlPacket.deserialize message.data with
      | error e => exact ⟨rfl, rfl, rfl, Or.inl ⟨Or.inr ⟨rfl, hhanding⟩, fun _ _ => nofun⟩⟩
      | ok packet =>
        cases packet with
        | Init streamId => exact ⟨rfl, rfl, rfl, Or.inl ⟨Or.inl rfl, fun _ _ => nofun⟩⟩
        | Ping token =>
          refine ⟨?_, ?_, ?_, Or.inl ⟨Or.inl ?_, fun _ _ => nofun⟩⟩
          · exact activeStreams_notifyTunnel _ _ _
          · exact locals_notifyTunnel _ _ _
          · exact streams_notifyTunnel _ _ _
          · exact control_notifyTunnel _ _ _
        | Refused streamId =>
          exact ⟨rfl, rfl, rfl, Or.inl ⟨Or.inr ⟨rfl, hhanding⟩, fun _ _ => nofun⟩⟩
        | End streamId => exact ⟨rfl, rfl, rfl, Or.inl ⟨Or.inl rfl, fun _ _ => nofun⟩⟩
        | Data streamId data =>
          simp only
          split
          next hsome =>
            refine ⟨rfl, rfl, rfl, Or.inr ⟨streamId, data, rfl, hcontrol, ?_⟩⟩
            rw [if_pos hsome]
          next hnone =>
            refine ⟨rfl, rfl, rfl, Or.inr ⟨streamId, data, rfl, hcontrol, ?_⟩⟩
            rw [if_neg hnone]
    · refine ⟨rfl, rfl, rfl, Or.inl ⟨Or.inr ⟨rfl, hhanding⟩, ?_⟩⟩
      intro streamId data
      rcases hgone with rfl | rfl <;> exact nofun
  | flush w sent =>
    obtain ⟨packet, rest, -, -, ⟨-, rfl⟩ | ⟨-, rfl⟩⟩ := flush_cases h
    · exact ⟨rfl, rfl, rfl, Or.inl ⟨Or.inl rfl, fun _ _ => nofun⟩⟩
    · exact ⟨rfl, rfl, rfl, Or.inl ⟨Or.inl rfl, fun _ _ => nofun⟩⟩
  | _ => cases he

/-! ### Well-formedness of every reachable state -/

theorem wellFormed_connect {useTls : Bool} {result : ConnectResult} (hwf : c.WellFormed)
    (h : c.connect useTls result = some c') : c'.WellFormed := by
  rcases connect_cases h with ⟨streamId, data, hcontrol, ⟨-, rfl⟩ | ⟨-, rfl⟩ | ⟨-, rfl⟩⟩
  · have hnew : ∀ n stream, c.locals n = some stream → n ≠ c.streams := by
      rintro n stream hstream rfl
      have hnone := hwf.made _ (Nat.le_refl _)
      rw [hstream] at hnone
      cases hnone
    refine ⟨?_, ?_, ?_, ?_⟩
    · intro n stream hstream
      simp only [locals_setLocal] at hstream
      split at hstream
      · obtain rfl := Option.some.inj hstream
        exact LocalStream.sound_new streamId c.wormhole
      · exact hwf.sound n stream hstream
    · intro id n hn
      obtain ⟨stream, hstream, hrest⟩ := hwf.entry id n hn
      refine ⟨stream, ?_, hrest⟩
      simp only [locals_setLocal]
      rw [if_neg (hnew n stream hstream), hstream]
    · intro n hn
      simp only [locals_setLocal]
      rw [if_neg (Nat.ne_of_gt hn)]
      exact hwf.made n (Nat.le_of_succ_le hn)
    · intro id chunk n hn
      obtain ⟨rfl, -, rfl⟩ : streamId = id ∧ data = chunk ∧ c.streams = n := by simpa using hn
      refine ⟨LocalStream.new streamId c.wormhole, ?_, rfl, rfl⟩
      exact (locals_setLocal _ _ _ _).trans (if_pos rfl)
  · exact (hwf.notifyTunnel _ _).frame rfl rfl rfl (fun _ _ _ hn => nomatch hn)
  · exact hwf.frame rfl rfl rfl (fun _ _ _ hn => nomatch hn)

theorem wellFormed_insert (hwf : c.WellFormed) (h : c.insert = some c') : c'.WellFormed := by
  obtain ⟨streamId, data, n, stream, hcontrol, hstream, rfl⟩ := insert_cases h
  obtain ⟨stream₀, hstream₀, hstreamId, hspawning⟩ := hwf.inserting streamId data n hcontrol
  obtain rfl : stream = stream₀ := Option.some.inj (hstream.symm.trans hstream₀)
  have hsound := hwf.sound n stream hstream
  refine ⟨?_, ?_, ?_, ?_⟩
  · intro m s hs
    simp only [locals_setLocal] at hs
    split at hs
    · obtain rfl := Option.some.inj hs
      refine ⟨?_, nofun⟩
      rw [hsound.closed, hspawning]
      rfl
    · exact hwf.sound m s hs
  · intro id m hm
    simp only [locals_setLocal]
    rw [Table.lookup_insert_ite] at hm
    split at hm
    next hid =>
      obtain rfl := Option.some.inj hm
      rw [if_pos rfl]
      exact ⟨_, rfl, hstreamId.trans hid.symm, nofun⟩
    · obtain ⟨s, hs, hsId, hspawned⟩ := hwf.entry id m hm
      split
      next heq =>
        -- an entry would have a forwarder already
        subst heq
        obtain rfl : stream = s := Option.some.inj (hstream.symm.trans hs)
        exact absurd hspawning hspawned
      · exact ⟨s, hs, hsId, hspawned⟩
  · intro m hm
    simp only [locals_setLocal]
    rw [if_neg]
    · exact hwf.made m hm
    · rintro rfl
      rw [hwf.made m hm] at hstream
      cases hstream
  · intro id chunk m hm
    cases hm

theorem wellFormed_forward (hwf : c.WellFormed) (h : c.forward = some c') : c'.WellFormed := by
  rcases forward_cases h with ⟨streamId, data, hcontrol, ⟨n, stream, hn, hstream, ⟨hopen, rfl⟩ |
    ⟨hclosed, rfl⟩⟩ | ⟨hnone, ⟨hopen, rfl⟩ | ⟨hclosed, rfl⟩⟩⟩
  · have hsound := hwf.sound n stream hstream
    obtain ⟨s, hs, -, hspawned⟩ := hwf.entry streamId n hn
    obtain rfl : stream = s := Option.some.inj (hstream.symm.trans hs)
    have hsent : LocalStream.Sound { stream with
        queue := ⟨stream.queue.queue ++ [.Data data], false⟩ } :=
      ⟨hopen.symm.trans hsound.closed, fun hspawning => absurd hspawning hspawned⟩
    have hset := hwf.setLocal hstream (by rfl) (by rfl) hsent
    exact hset.frame rfl rfl rfl (fun _ _ _ hm => nomatch hm)
  · exact hwf.frame rfl rfl rfl (fun _ _ _ hm => nomatch hm)
  · exact (hwf.notifyTunnel _ _).frame rfl rfl rfl (fun _ _ _ hn => nomatch hn)
  · exact hwf.frame rfl rfl rfl (fun _ _ _ hm => nomatch hm)

theorem wellFormed_readLocal {n : Nat} {result : ReadResult} (hwf : c.WellFormed)
    (h : c.readLocal n result = some c') : c'.WellFormed := by
  rcases readLocal_cases h with ⟨stream, hstream, -, ⟨-, rfl⟩ | ⟨-, rfl⟩ |
    ⟨data, reader, -, -, rfl⟩⟩
  · exact hwf.setLocal hstream rfl Iff.rfl ⟨(hwf.sound n stream hstream).closed,
      (hwf.sound n stream hstream).spawning⟩
  · refine WellFormed.erase (c := c.setLocal n { stream with processLocalTcp := .returned }) ?_
      stream.streamId
    exact hwf.setLocal hstream rfl Iff.rfl ⟨(hwf.sound n stream hstream).closed,
      (hwf.sound n stream hstream).spawning⟩
  · have hsent := hwf.notifyTunnel stream.wormhole (.Data stream.streamId data)
    have hstream' : (c.notifyTunnel stream.wormhole (.Data stream.streamId data)).locals n =
        some stream := by rw [locals_notifyTunnel, hstream]
    exact hsent.setLocal hstream' rfl Iff.rfl ⟨(hwf.sound n stream hstream).closed,
      (hwf.sound n stream hstream).spawning⟩

theorem wellFormed_writeLocal {n : Nat} {result : WriteResult} (hwf : c.WellFormed)
    (h : c.writeLocal n result = some c') : c'.WellFormed := by
  obtain ⟨stream, stream', hstream, hturn, rfl⟩ := writeLocal_cases h
  obtain ⟨hrunning, hstreamId, -⟩ := LocalStream.turn_cases hturn
  obtain ⟨hsound, hspawned⟩ := (hwf.sound n stream hstream).turn hturn
  refine hwf.setLocal hstream hstreamId ?_ hsound
  simp [hspawned, hrunning]

theorem wellFormed_endTask {k : Nat} (hwf : c.WellFormed) (h : c.endTask k = some c') :
    c'.WellFormed := by
  rcases endTask_cases h with ⟨tasks, rfl | ⟨n, stream, hstream, rfl⟩ | ⟨streamId, rfl⟩⟩
  · exact hwf.frame rfl rfl rfl (fun _ _ _ hm => hm)
  · have hsound := hwf.sound n stream hstream
    have hset := hwf.setLocal hstream (by rfl) (by rfl) hsound.sendClose
    exact hset.frame rfl rfl rfl (fun _ _ _ hm => hm)
  · exact (hwf.erase streamId).frame rfl rfl rfl (fun _ _ _ hm => hm)

/-- In every step. -/
theorem wellFormed_step {useTls : Bool} {e : ClientEvent} (hwf : c.WellFormed)
    (h : c.step useTls e = some c') : c'.WellFormed := by
  by_cases he : ofTunnel e = true
  · obtain ⟨hactive, hlocals, hstreams, hcontrol⟩ := step_ofTunnel he h
    apply hwf.frame hactive hlocals hstreams
    intro streamId data n hn
    rcases hcontrol with ⟨hsame | ⟨hnone, -⟩, -⟩ | ⟨id, chunk, -, -, hnext⟩
    · rwa [← hsame]
    · rw [hn] at hnone
      cases hnone
    · rw [hn] at hnext
      split at hnext <;> cases hnext
  · cases e with
    | connect result => exact wellFormed_connect hwf h
    | insert => exact wellFormed_insert hwf h
    | forward => exact wellFormed_forward hwf h
    | readLocal n result => exact wellFormed_readLocal hwf h
    | writeLocal n result => exact wellFormed_writeLocal hwf h
    | endTask k => exact wellFormed_endTask hwf h
    | _ => exact absurd rfl he

/-! ### Where local connections and chunks come from -/

/-- A local connection keeps its stream and its tunnel; a new one is for the stream
    of the chunk in hand and the present tunnel. -/
theorem step_local {useTls : Bool} {e : ClientEvent} (h : c.step useTls e = some c') {n : Nat}
    {stream' : LocalStream} (hstream' : c'.locals n = some stream') :
    (∃ stream, c.locals n = some stream ∧ stream'.streamId = stream.streamId ∧
        stream'.wormhole = stream.wormhole) ∨
      ∃ data, c.control.chunk = some (stream'.streamId, data) ∧ stream'.wormhole = c.wormhole := by
  by_cases he : ofTunnel e = true
  · left
    rw [(step_ofTunnel he h).2.1] at hstream'
    exact ⟨stream', hstream', rfl, rfl⟩
  -- one local connection changes, the others stay
  have hset : ∀ {d : Client} {m : Nat} {stream : LocalStream} (changed : LocalStream),
      d.locals = c.locals → c'.locals = (d.setLocal m changed).locals → c.locals m = some stream →
      changed.streamId = stream.streamId → changed.wormhole = stream.wormhole →
      ∃ stream, c.locals n = some stream ∧ stream'.streamId = stream.streamId ∧
        stream'.wormhole = stream.wormhole := by
    intro d m stream changed hd hc' hm hstreamId hwormhole
    rw [hc', locals_setLocal, hd] at hstream'
    split at hstream'
    next heq =>
      subst heq
      obtain rfl := Option.some.inj hstream'
      exact ⟨stream, hm, hstreamId, hwormhole⟩
    · exact ⟨stream', hstream', rfl, rfl⟩
  cases e with
  | connect result =>
    rcases connect_cases h with ⟨streamId, data, hcontrol, ⟨-, rfl⟩ | ⟨-, rfl⟩ | ⟨-, rfl⟩⟩
    · simp only [locals_setLocal] at hstream'
      split at hstream'
      · right
        obtain rfl := Option.some.inj hstream'
        exact ⟨data, by rw [hcontrol]; rfl, rfl⟩
      · left
        exact ⟨stream', hstream', rfl, rfl⟩
    · left
      simp only [locals_notifyTunnel] at hstream'
      exact ⟨stream', hstream', rfl, rfl⟩
    · left
      exact ⟨stream', hstream', rfl, rfl⟩
  | insert =>
    obtain ⟨streamId, data, m, stream, -, hm, rfl⟩ := insert_cases h
    exact Or.inl (hset _ rfl rfl hm rfl rfl)
  | forward =>
    left
    rcases forward_cases h with ⟨streamId, data, -, ⟨m, stream, -, hm, ⟨-, rfl⟩ | ⟨-, rfl⟩⟩ |
      ⟨-, ⟨-, rfl⟩ | ⟨-, rfl⟩⟩⟩
    · exact hset _ rfl rfl hm rfl rfl
    · exact ⟨stream', hstream', rfl, rfl⟩
    · simp only [locals_notifyTunnel] at hstream'
      exact ⟨stream', hstream', rfl, rfl⟩
    · exact ⟨stream', hstream', rfl, rfl⟩
  | readLocal m result =>
    left
    rcases readLocal_cases h with ⟨stream, hm, -, ⟨-, rfl⟩ | ⟨-, rfl⟩ | ⟨data, reader, -, -, rfl⟩⟩
    · exact hset _ rfl rfl hm rfl rfl
    · exact hset _ rfl rfl hm rfl rfl
    · exact hset _ (locals_notifyTunnel _ _ _) rfl hm rfl rfl
  | writeLocal m result =>
    left
    obtain ⟨stream, changed, hm, hturn, rfl⟩ := writeLocal_cases h
    obtain ⟨-, hstreamId, hwormhole, -⟩ := LocalStream.turn_cases hturn
    exact hset _ rfl rfl hm hstreamId hwormhole
  | endTask k =>
    left
    rcases endTask_cases h with ⟨tasks, rfl | ⟨m, stream, hm, rfl⟩ | ⟨streamId, rfl⟩⟩
    · exact ⟨stream', hstream', rfl, rfl⟩
    · exact hset _ rfl rfl hm rfl rfl
    · exact ⟨stream', hstream', rfl, rfl⟩
  | _ => exact absurd rfl he

/-- A chunk comes from a packet, and stays in hand until it is forwarded. -/
theorem step_chunk {useTls : Bool} {e : ClientEvent} (h : c.step useTls e = some c')
    {streamId : StreamId} {data : Bytes} (hchunk : c'.control.chunk = some (streamId, data)) :
    c.control.chunk = some (streamId, data) ∨ received e = some (.Data streamId data) := by
  by_cases he : ofTunnel e = true
  · rcases step_ofTunnel he h with ⟨-, -, -, ⟨hsame | ⟨hnone, -⟩, -⟩ |
      ⟨id, chunk, hreceived, -, hcontrol⟩⟩
    · left
      rw [← hsame, hchunk]
    · rw [hnone] at hchunk
      cases hchunk
    · right
      have hnext : c'.control.chunk = some (id, chunk) := by
        rw [hcontrol]
        split <;> rfl
      obtain ⟨rfl, rfl⟩ := Prod.mk.inj (Option.some.inj (hnext.symm.trans hchunk))
      exact hreceived
  left
  cases e with
  | connect result =>
    rcases connect_cases h with ⟨id, chunk, hcontrol, ⟨-, rfl⟩ | ⟨-, rfl⟩ | ⟨-, rfl⟩⟩
    all_goals
      rw [hcontrol]
      exact hchunk
  | insert =>
    obtain ⟨id, chunk, m, stream, hcontrol, -, rfl⟩ := insert_cases h
    rw [hcontrol]
    exact hchunk
  | forward =>
    rcases forward_cases h with ⟨id, chunk, -, ⟨m, stream, -, -, ⟨-, rfl⟩ | ⟨-, rfl⟩⟩ |
      ⟨-, ⟨-, rfl⟩ | ⟨-, rfl⟩⟩⟩
    all_goals cases hchunk
  | readLocal m result =>
    rcases readLocal_cases h with ⟨stream, -, -, ⟨-, rfl⟩ | ⟨-, rfl⟩ | ⟨chunk, reader, -, -, rfl⟩⟩
    · exact hchunk
    · exact hchunk
    · simp only [control_setLocal, control_notifyTunnel] at hchunk
      exact hchunk
  | writeLocal m result =>
    obtain ⟨stream, changed, -, -, rfl⟩ := writeLocal_cases h
    exact hchunk
  | endTask k =>
    rcases endTask_cases h with ⟨tasks, rfl | ⟨m, stream, -, rfl⟩ | ⟨id, rfl⟩⟩
    all_goals exact hchunk
  | _ => exact absurd rfl he

end Client

end Neutun
