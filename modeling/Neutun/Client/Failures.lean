/-
  Neutun/Client/Failures.lean
  ===========================
  When a failing local connection takes the tunnel down.

  `forward_to_local_tcp` panics when a write fails and returns after a `Close`;
  either way its queue is closed while the entry of `ACTIVE_STREAMS` may stay.
  The next `Data` packet for the stream then finds an entry it cannot send to.
  The error goes through `process_control_flow_message` and `run_wormhole`, where
  it becomes `MalformedMessageFromServer`, and `run_tunnel` does not retry after
  that one.
-/
import Neutun.Client.Streams

namespace Neutun

open Foundation

namespace Client

/-- A message that the server sends, and a tunnel channel that is still open where
    a refusal has to go out. -/
def FromServer (c : Client) : ClientEvent → Prop
  | .receive (.ok (.Close _)) => True
  | .receive (.ok message) =>
    ∃ packet, ControlPacket.deserialize message.data = .ok packet ∧
      ∀ streamId, packet ≠ .Refused streamId
  | .forward => ∀ streamId data, c.control = .forwarding streamId data →
    c.activeStreams.lookup streamId = none → (c.tunnels c.wormhole).channel.closed = false
  | _ => True

/-- The entry a chunk is forwarded to has a forwarder that still runs. -/
def ForwarderRuns (c : Client) : ClientEvent → Prop
  | .forward => ∀ streamId data n stream, c.control = .forwarding streamId data →
    c.activeStreams.lookup streamId = some n → c.locals n = some stream →
    stream.forwardToLocalTcp = .running
  | _ => True

/-- No packet has been answered with an error, and `run_tunnel` has not ended
    because of one. -/
structure Unharmed (c : Client) : Prop where
  returned : c.control ≠ .returned (.error .MalformedMessageFromServer)
  exited : c.control ≠ .exited .MalformedMessageFromServer

variable {c c' : Client}

theorem Unharmed.of_control (hc : c.Unharmed) (h : c'.control = c.control) : c'.Unharmed where
  returned := by
    rw [h]
    exact hc.returned
  exited := by
    rw [h]
    exact hc.exited

/-- While the reading loop goes on, nothing has gone wrong. -/
theorem unharmed_of_chunk (h : c.control.chunk ≠ none ∨ c.control = .reading ∨
    c.control = .starting) : c.Unharmed := by
  constructor
  · intro hcontrol
    rw [hcontrol] at h
    simp [Control.chunk] at h
  · intro hcontrol
    rw [hcontrol] at h
    simp [Control.chunk] at h

theorem unharmed_startWormhole {result : Except Error Unit}
    (h : c.startWormhole result = some c') : c'.Unharmed := by
  obtain ⟨-, ⟨-, rfl⟩ | ⟨e, -, hmalformed, -, rfl⟩⟩ := startWormhole_cases h
  · exact unharmed_of_chunk (Or.inr (Or.inl rfl))
  · constructor
    · intro hcontrol
      injection hcontrol with hcontrol
      injection hcontrol with hcontrol
      exact hmalformed hcontrol
    · intro hcontrol
      cases hcontrol

theorem unharmed_decide (hc : c.Unharmed) (h : c.decide = some c') : c'.Unharmed := by
  obtain ⟨outcome, hreturned, ⟨-, rfl⟩ | ⟨e, houtcome, -, rfl⟩⟩ := decide_cases h
  · exact unharmed_of_chunk (Or.inr (Or.inr rfl))
  · constructor
    · intro hcontrol
      cases hcontrol
    · intro hcontrol
      injection hcontrol with he
      exact hc.returned (by rw [hreturned, houtcome, he])

/-- Every well-formed packet from the server is taken without an error. -/
theorem unharmed_receive {result : NextMessage} (hserver : c.FromServer (.receive result))
    (h : c.receive result = some c') : c'.Unharmed := by
  obtain ⟨hreading, hreceive⟩ := receive_cases h
  rcases hreceive with ⟨bytes, rfl, rfl⟩ | ⟨message, rfl, hclose, rfl⟩ | ⟨-, rfl⟩
  · exact ⟨nofun, nofun⟩
  · have hpacket : ∃ packet, ControlPacket.deserialize message.data = .ok packet ∧
        ∀ streamId, packet ≠ .Refused streamId := by
      cases message with
      | Close bytes => exact absurd rfl (hclose bytes)
      | _ => exact hserver
    obtain ⟨packet, hpacket, hrefused⟩ := hpacket
    unfold processControlFlowMessage
    rw [hpacket]
    cases packet with
    | Init streamId => exact unharmed_of_chunk (Or.inr (Or.inl hreading))
    | Ping token =>
      apply unharmed_of_chunk
      refine Or.inr (Or.inl ?_)
      exact (control_notifyTunnel _ _ _).trans hreading
    | Refused streamId => exact absurd rfl (hrefused streamId)
    | End streamId => exact unharmed_of_chunk (Or.inr (Or.inl hreading))
    | Data streamId data =>
      apply unharmed_of_chunk
      left
      simp only
      split <;> exact nofun
  · exact ⟨nofun, nofun⟩

theorem unharmed_forward (hwf : c.WellFormed) (hserver : c.FromServer .forward)
    (hruns : c.ForwarderRuns .forward) (h : c.forward = some c') : c'.Unharmed := by
  rcases forward_cases h with ⟨streamId, data, hcontrol, ⟨n, stream, hn, hstream, ⟨-, rfl⟩ |
    ⟨hclosed, rfl⟩⟩ | ⟨hnone, ⟨-, rfl⟩ | ⟨hclosed, rfl⟩⟩⟩
  · exact unharmed_of_chunk (Or.inr (Or.inl rfl))
  · rw [(hwf.sound n stream hstream).closed, hruns streamId data n stream hcontrol hn hstream]
      at hclosed
    cases hclosed
  · exact unharmed_of_chunk (Or.inr (Or.inl rfl))
  · rw [hserver streamId data hcontrol hnone] at hclosed
    cases hclosed

/-- A step that meets the condition does no harm. -/
theorem unharmed_step {useTls : Bool} {e : ClientEvent} (hwf : c.WellFormed) (hc : c.Unharmed)
    (hserver : c.FromServer e) (hruns : c.ForwarderRuns e) (h : c.step useTls e = some c') :
    c'.Unharmed := by
  cases e with
  | startWormhole result => exact unharmed_startWormhole h
  | decide => exact unharmed_decide hc h
  | interrupt =>
    obtain ⟨-, -, rfl⟩ := interrupt_cases h
    exact unharmed_of_chunk (Or.inr (Or.inr rfl))
  | receive result => exact unharmed_receive hserver h
  | connect result =>
    rcases connect_cases h with ⟨streamId, data, -, ⟨-, rfl⟩ | ⟨-, rfl⟩ | ⟨-, rfl⟩⟩
    all_goals exact unharmed_of_chunk (Or.inl (Option.some_ne_none _))
  | insert =>
    obtain ⟨streamId, data, n, stream, -, -, rfl⟩ := insert_cases h
    exact unharmed_of_chunk (Or.inl (Option.some_ne_none _))
  | forward => exact unharmed_forward hwf hserver hruns h
  | flush w sent =>
    obtain ⟨packet, rest, -, -, ⟨-, rfl⟩ | ⟨-, rfl⟩⟩ := flush_cases h
    · exact hc.of_control rfl
    · exact hc.of_control rfl
  | readLocal n result =>
    rcases readLocal_cases h with ⟨stream, -, -, ⟨-, rfl⟩ | ⟨-, rfl⟩ | ⟨data, reader, -, -, rfl⟩⟩
    · exact hc.of_control rfl
    · exact hc.of_control rfl
    · exact hc.of_control (control_notifyTunnel _ _ _)
  | writeLocal n result =>
    obtain ⟨stream, stream', -, -, rfl⟩ := writeLocal_cases h
    exact hc.of_control rfl
  | endTask k =>
    rcases endTask_cases h with ⟨tasks, rfl | ⟨n, stream, -, rfl⟩ | ⟨streamId, rfl⟩⟩
    all_goals exact hc.of_control rfl

/-- A step that breaks the condition does the harm. -/
theorem forwarderRuns_of_unharmed {useTls : Bool} {e : ClientEvent} (hwf : c.WellFormed)
    (h : c.step useTls e = some c') (hc : c'.Unharmed) : c.ForwarderRuns e := by
  cases e with
  | forward =>
    intro streamId data n stream hcontrol hn hstream
    obtain ⟨s, hs, -, hspawned⟩ := hwf.entry streamId n hn
    obtain rfl : stream = s := Option.some.inj (hstream.symm.trans hs)
    rcases forward_cases h with ⟨id, chunk, hcontrol', ⟨m, s, hm, hs', ⟨hopen, -⟩ | ⟨-, rfl⟩⟩ |
      ⟨hnone, -⟩⟩
    · obtain ⟨rfl, -⟩ : streamId = id ∧ data = chunk := by simpa [hcontrol] using hcontrol'
      obtain rfl : n = m := Option.some.inj (hn.symm.trans hm)
      obtain rfl : stream = s := Option.some.inj (hstream.symm.trans hs')
      -- the queue is open, so the forwarder has not ended
      have hclosed := (hwf.sound n stream hstream).closed
      rw [hopen] at hclosed
      cases hforwarder : stream.forwardToLocalTcp with
      | running => rfl
      | spawning => exact absurd hforwarder hspawned
      | returned =>
        rw [hforwarder] at hclosed
        cases hclosed
      | panicked =>
        rw [hforwarder] at hclosed
        cases hclosed
    · exact absurd rfl hc.returned
    · obtain ⟨rfl, -⟩ : streamId = id ∧ data = chunk := by simpa [hcontrol] using hcontrol'
      rw [hn] at hnone
      cases hnone
  | _ => trivial

end Client

open Client

/-- In a run of the client on packets from the server, no packet is answered with
    an error and `run_tunnel` goes on exactly if every chunk that is forwarded to
    an entry of `ACTIVE_STREAMS` finds the forwarder of that entry running. -/
theorem stream_failure_confined (useTls : Bool) (es : List ClientEvent) (t : Client)
    (hrun : (client useTls).run Client.new es = some t)
    (hserver : (client useTls).Meets FromServer Client.new es) :
    (client useTls).Always Unharmed Client.new es ↔
      (client useTls).Meets ForwarderRuns Client.new es := by
  apply Machine.always_iff_meets (I := fun c => c.WellFormed ∧ c.Unharmed) (P := Unharmed)
    (D := FromServer) _ _ _ _ hserver hrun
  · intro c hI
    exact hI.2
  · intro c e c' hI hD hstep hguard
    exact ⟨wellFormed_step hI.1 hstep, unharmed_step hI.1 hI.2 hD hguard hstep⟩
  · intro c e c' hI hD hstep hc
    exact forwarderRuns_of_unharmed hI.1 hstep hc
  · exact ⟨wellFormed_new, unharmed_of_chunk (Or.inr (Or.inr rfl))⟩

namespace FailedWrite

def data (byte : UInt8) : ClientEvent :=
  .receive (.ok (.Binary (ControlPacket.Data sampleStream [byte]).serialize))

/-- A stream is set up and its first chunk forwarded. -/
def setup : List ClientEvent :=
  [.startWormhole (.ok ()), data 1, .connect .ok, .insert, .forward]

/-- The local service has reset the connection when the chunk is written; then
    another chunk comes. -/
def failure : List ClientEvent := [.writeLocal 0 (.err 0), data 2, .forward, .decide]

end FailedWrite

open FailedWrite in
/-- A chunk that is written. -/
theorem stream_failure_confined_written : ∃ t,
    (client false).run Client.new (setup ++ [.writeLocal 0 .ok]) = some t ∧
      (client false).Always Unharmed Client.new (setup ++ [.writeLocal 0 .ok]) := by
  refine ⟨_, rfl, ?_⟩
  refine (stream_failure_confined false (setup ++ [.writeLocal 0 .ok]) _ rfl ?_).mpr ?_
  · refine .cons trivial rfl (.cons ⟨_, rfl, nofun⟩ rfl (.cons trivial rfl ?_))
    exact .cons trivial rfl (.cons (fun _ _ _ _ => rfl) rfl (.cons trivial rfl trivial))
  · refine .cons trivial rfl (.cons trivial rfl (.cons trivial rfl (.cons trivial rfl ?_)))
    refine .cons ?_ rfl (.cons trivial rfl trivial)
    intro id chunk n stream hcontrol hn hstream
    injection hcontrol with hid
    subst hid
    obtain rfl : 0 = n := Option.some.inj hn
    obtain rfl := Option.some.inj hstream
    rfl

open FailedWrite in
/-- The failed write of one stream ends `run_tunnel`. -/
theorem stream_failure_spreads : ∃ t,
    (client false).run Client.new (setup ++ failure) = some t ∧
      (client false).Meets FromServer Client.new (setup ++ failure) ∧
      t.control = .exited .MalformedMessageFromServer := by
  refine ⟨_, rfl, ?_, rfl⟩
  refine .cons trivial rfl (.cons ⟨_, rfl, nofun⟩ rfl (.cons trivial rfl ?_))
  refine .cons trivial rfl (.cons (fun _ _ _ _ => rfl) rfl (.cons trivial rfl ?_))
  exact .cons ⟨_, rfl, nofun⟩ rfl (.cons (fun _ _ _ _ => rfl) rfl (.cons trivial rfl trivial))

end Neutun
