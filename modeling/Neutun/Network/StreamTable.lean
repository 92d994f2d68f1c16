/-
  Neutun/Network/StreamTable.lean
  ===============================
  Entries that stay in the server's `ACTIVE_STREAMS`.

  An `End` tells the client that `process_tcp_stream` has returned at the end of
  the remote peer's bytes.  That exit leaves the queue of the stream open, so
  `neutun_stream` goes on waiting and the entry stays; it goes only if the client
  has refused the stream, and not even then after a failed write
  (`stream_table_leaks`).
-/
import Neutun.Network.Downlink
import Neutun.Server.StreamTable

namespace Neutun

open Foundation Server

/-- The stream a packet is about. -/
def ControlPacket.about : ControlPacket → Option StreamId
  | Init id | Data id _ | Refused id | End id => some id
  | Ping _ => none

/-- The stream that the task of an `End` is still busy with. -/
def Client.EndTask.about : Client.EndTask → Option StreamId
  | spawned id | sleeping id _ | removing id => some id
  | returned => none

theorem Server.Ending.congr {id : StreamId} {s : Server} {log log' : List Mark}
    (h : Ending id s log) (hsame : ∀ m, m ≠ .told → (m ∈ log' ↔ m ∈ log)) : Ending id s log' := by
  have hfailed := hsame .failed nofun
  have hrefused := hsame .refused nofun
  have hgone := hsame .gone nofun
  have hend : EndSent log' ↔ EndSent log := or_congr hrefused hgone
  refine ⟨?_, fun stream hstream => ⟨?_, ?_, ?_⟩⟩
  · rw [hfailed, hrefused, hgone]
    exact h.absent
  · rw [hfailed, hgone, hend]
    exact (h.stream stream hstream).running
  · rw [hfailed, hend]
    exact (h.stream stream hstream).returned
  · rw [hgone]
    exact (h.stream stream hstream).reader

namespace Network

variable {p : Platform} {cfg : Config} {useTls : Bool} {link : Nat → Nat} {id : StreamId}
  {s t : Network}

/-- What a step means for the end of the stream. -/
def marks (id : StreamId) (s : Network) : NetworkEvent → List Mark
  | .server e => s.server.marks id e
  | .client e => if Client.received e = some (.End id) then [.told] else []
  | .peer _ _ => []

theorem mem_marks_client {e : ClientEvent} {m : Mark} :
    m ∈ marks id s (.client e) ↔ m = .told ∧ Client.received e = some (.End id) := by
  simp only [marks]
  split
  next hreceived => simp [hreceived]
  next hreceived => simp [hreceived]

/-- `process_tcp_stream` has returned, and not because the client was gone. -/
def Finished (id : StreamId) (s : Network) (log : List Mark) : Prop :=
  (∃ stream, s.server.streams id = some stream ∧ stream.processTcpStream = .returned) ∧
    .gone ∉ log

/-- An `End` is sent when the remote peer has, and is on its way from then on. -/
structure Ends (id : StreamId) (s : Network) (log : List Mark) : Prop where
  ending : Ending id s.server log
  tx : ∀ n, .End id ∈ (s.server.conns n).tx.queue → Finished id s log
  down : ∀ n message, message ∈ s.down n →
    Client.received (.receive (.ok message)) = some (.End id) → Finished id s log
  told : .told ∈ log → Finished id s log

theorem ends_new : Ends id Network.new [] where
  ending := ⟨fun _ => ⟨List.not_mem_nil, List.not_mem_nil, List.not_mem_nil⟩, nofun⟩
  tx _ h := nomatch h
  down _ _ h := nomatch h
  told h := nomatch h

theorem finished_step (hwf : s.server.WellFormed) {e : ServerEvent}
    (h : s.server.step p cfg e = some t.server) {log : List Mark} (hs : Finished id s log) :
    Finished id t (log ++ s.server.marks id e) := by
  obtain ⟨⟨stream, hstream, hreturned⟩, hgone⟩ := hs
  obtain ⟨stream', hstream', -⟩ := Server.step_stream hwf h hstream
  refine ⟨⟨stream', hstream', Server.returned_step hwf h hstream hstream' hreturned⟩, ?_⟩
  rw [List.mem_append, not_or, gone_mem_marks]
  refine ⟨hgone, ?_⟩
  intro hfinds
  cases e with
  | poll sid =>
    have hid : sid = id := by
      by_contra hne
      simp [findsGone, hne] at hfinds
    subst hid
    obtain ⟨old, hold, hpolling, -⟩ := poll_cases h
    obtain rfl := Option.some.inj (hold.symm.trans hstream)
    rw [hpolling] at hreturned
    cases hreturned
  | _ => cases hfinds

/-- The read that ends the stream. -/
theorem finished_of_end {log : List Mark} (hs : Ending id s.server log)
    (h : s.server.read id (.ok []) = some t.server) :
    Finished id t (log ++ s.server.marks id (.read id (.ok []))) := by
  obtain ⟨stream, hstream, hreading, hread⟩ := read_cases h
  rcases hread with ⟨hnone, -⟩ | ⟨-, ht⟩ | ⟨data, hdata, hne, -⟩
  · cases hnone
  · refine ⟨⟨_, by rw [ht]; exact (streams_setStream _ _ _ _).trans (if_pos rfl), rfl⟩, ?_⟩
    rw [List.mem_append, not_or, gone_mem_marks]
    refine ⟨?_, nofun⟩
    intro hgone
    have hreturned := (hs.stream stream hstream).reader hgone
    rw [hreading] at hreturned
    cases hreturned
  · exact absurd (ReadResult.ok.inj hdata).symm hne

theorem ends_server (hwf : s.server.WellFormed) {log : List Mark} (hs : Ends id s log)
    {e : ServerEvent} (h : s.step p cfg useTls link (.server e) = some t) :
    Ends id t (log ++ marks id s (.server e)) := by
  obtain ⟨hserver, -, hdown, -⟩ := step_server h
  have hkept : Finished id s log → Finished id t (log ++ s.server.marks id e) :=
    finished_step hwf hserver
  refine ⟨ending_step hwf hserver hs.ending, ?_, ?_, ?_⟩
  · intro n hmem
    rcases Server.step_tx hserver n with ⟨handshake, -, -, htx⟩ | hstep
    · rw [htx] at hmem
      cases hmem
    · rcases hstep.mem hmem with hold | hsent
      · exact hkept (hs.tx n hold)
      · have hattempt := (Server.emits_eq_some.mp (on_eq_some.mp hsent)).1
        rcases Server.attempts_cases hattempt with ⟨token, htoken⟩ |
          ⟨sid, stream, hstream, -, hinit | ⟨hend, rfl⟩ | ⟨chunk, hdata, -⟩⟩
        · cases htoken
        · cases hinit
        · obtain rfl := ControlPacket.End.inj hend
          exact finished_of_end hs.ending hserver
        · cases hdata
  · intro n message hmem hreceived
    rw [hdown] at hmem
    rcases Wires.mem_put hmem with hold | hput
    · exact hkept (hs.down n message hold hreceived)
    · obtain ⟨packet, hwrites, rfl⟩ := serverPuts_eq_some hput
      rw [Client.received_serialize] at hreceived
      obtain rfl := Option.some.inj hreceived
      exact hkept (hs.tx n (Server.mem_of_writes hwrites))
  · intro hmem
    rcases List.mem_append.mp hmem with hold | hnew
    · exact hkept (hs.told hold)
    · exact absurd hnew told_not_mem_marks

theorem ends_client {log : List Mark} (hs : Ends id s log) {e : ClientEvent}
    (h : s.step p cfg useTls link (.client e) = some t) :
    Ends id t (log ++ marks id s (.client e)) := by
  obtain ⟨-, hdown, -, hserver⟩ := step_client h
  have hsame : ∀ m, m ≠ .told → (m ∈ log ++ marks id s (.client e) ↔ m ∈ log) := by
    intro m hm
    rw [List.mem_append, or_iff_left]
    exact fun hmem => hm (mem_marks_client.mp hmem).1
  have hkept : Finished id s log → Finished id t (log ++ marks id s (.client e)) := by
    unfold Finished
    rw [hserver, hsame .gone nofun]
    exact fun h => h
  refine ⟨?_, ?_, ?_, ?_⟩
  · rw [hserver]
    exact hs.ending.congr hsame
  · rw [hserver]
    exact fun n hmem => hkept (hs.tx n hmem)
  · intro n message hmem hreceived
    exact hkept (hs.down n message (Wires.mem_of_mem_take hdown hmem) hreceived)
  · intro hmem
    apply hkept
    rcases List.mem_append.mp hmem with hold | hnew
    · exact hs.told hold
    · have hreceived := (mem_marks_client.mp hnew).2
      cases e with
      | receive result =>
        cases result with
        | ok message => exact hs.down _ message (Wires.mem_of_take hdown) hreceived
        | _ => cases hreceived
      | _ => cases hreceived

theorem ends_step (hwf : s.server.WellFormed) {log : List Mark} (hs : Ends id s log)
    {e : NetworkEvent} (h : s.step p cfg useTls link e = some t) :
    Ends id t (log ++ marks id s e) := by
  cases e with
  | server e => exact ends_server hwf hs h
  | client e => exact ends_client hs h
  | peer n message =>
    obtain rfl := Option.some.inj h
    change Ends id { s with up := s.up.put (some (n, message)) } (log ++ [])
    rw [List.append_nil]
    exact ⟨hs.ending, hs.tx, hs.down, hs.told⟩

theorem ends_run {es : List NetworkEvent}
    (hrun : (network p cfg useTls link).run Network.new es = some t) :
    Ends id t ((network p cfg useTls link).trace (marks id) Network.new es) := by
  have hstep : ∀ s e t log, (s.WellFormed ∧ Ends id s log) → True →
      (network p cfg useTls link).step s e = some t →
      t.WellFormed ∧ Ends id t (log ++ marks id s e) := by
    intro s e t log hs _ h
    exact ⟨wellFormed_step hs.1 h, ends_step hs.1.server hs.2 h⟩
  exact (Machine.run_trace (I := fun s log => s.WellFormed ∧ Ends id s log) hstep
    ⟨wellFormed_new, ends_new⟩ (Machine.meets_true _ _) hrun).2

/-- The stream is over on both sides: `process_tcp_stream` has returned, the client
    has dealt with its `End` and has no entry, and nothing about it is on the way. -/
structure Over (id : StreamId) (s : Network) (log : List Mark) : Prop where
  reader : ∀ stream, s.server.streams id = some stream → stream.processTcpStream = .returned
  told : .told ∈ log
  handled : ∀ task ∈ s.client.endTasks, task.about ≠ some id
  unlisted : s.client.activeStreams.lookup id = none
  queue : ∀ stream, s.server.streams id = some stream → stream.queue.queue = []
  locals : ∀ n stream, s.client.locals n = some stream → stream.streamId = id →
    stream.queue.queue = []
  chunk : ∀ data, s.client.control.chunk ≠ some (id, data)
  tx : ∀ n, ∀ packet ∈ (s.server.conns n).tx.queue, packet.about ≠ some id
  tunnels : ∀ w, ∀ packet ∈ (s.client.tunnels w).channel.queue, packet.about ≠ some id
  up : ∀ n, ∀ message ∈ s.up n, ∀ packet ∈ (NextMessage.ok message).packet,
    packet.about ≠ some id
  down : ∀ n, ∀ message ∈ s.down n, ∀ packet ∈ Client.received (.receive (.ok message)),
    packet.about ≠ some id

/-- Only a refusal has ended a stream that is over. -/
theorem Ends.over {log : List Mark} (hs : Ends id s log) (hover : Over id s log) :
    s.server.activeStreams.lookup id = none ↔ .refused ∈ log ∧ .failed ∉ log := by
  obtain ⟨⟨stream, hstream, -⟩, hgone⟩ := hs.told hover.told
  have hqueue := hover.queue stream hstream
  have hending := hs.ending.stream stream hstream
  rw [← Option.isNone_iff_eq_none, ← Option.not_isSome, Bool.not_eq_true']
  cases hrunning : stream.neutunStream with
  | true =>
    obtain ⟨hlisted, -, hend, -⟩ := hending.running hrunning
    have hnot : .refused ∉ log := by
      intro hrefused
      obtain ⟨m, hm, -⟩ := hend.mp (Or.inl hrefused)
      rw [hqueue] at hm
      cases hm
    rw [hlisted]
    exact ⟨nofun, fun h => absurd h.1 hnot⟩
  | false =>
    obtain ⟨hlisted, hend⟩ := hending.returned hrunning
    rw [← Bool.not_eq_true, hlisted, and_iff_right_of_imp]
    exact fun hnot => (hend hnot).resolve_right hgone

end Network

open Network

/-- The entry of a stream goes with `neutun_stream` unless a write of data to the
    remote socket has failed; and the entry of a stream that is over has gone only
    if the client has refused it before any such failure. -/
theorem stream_table_leaks (p : Platform) (cfg : Config) (useTls : Bool) (link : Nat → Nat)
    (es : List NetworkEvent) (t : Network)
    (hrun : (network p cfg useTls link).run Network.new es = some t) (id : StreamId) :
    let log := (network p cfg useTls link).trace (Network.marks id) Network.new es
    (∀ stream, t.server.streams id = some stream → stream.neutunStream = false →
        (t.server.activeStreams.lookup id = none ↔ .failed ∉ log)) ∧
      (Over id t log →
        (t.server.activeStreams.lookup id = none ↔ .refused ∈ log ∧ .failed ∉ log)) := by
  intro log
  have hends : Ends id t log := ends_run hrun
  refine ⟨?_, hends.over⟩
  intro stream hstream hreturned
  have hlisted := ((hends.ending.stream stream hstream).returned hreturned).1
  rw [← hlisted, Bool.not_eq_true, Option.isSome_eq_false_iff, Option.isNone_iff_eq_none]

namespace OneTunnel

open AnnouncedHost

/-- The local service cannot be reached: the reading loop refuses the stream twice. -/
def refusal : List NetworkEvent :=
  [.client (.connect .err), .client .forward, .client (.flush 1 true), .client (.flush 1 true),
   .server (.message 1 (.ok (.Binary (ControlPacket.Refused sampleStream).serialize))),
   .server (.write sampleStream .ok),
   .server (.message 1 (.ok (.Binary (ControlPacket.Refused sampleStream).serialize)))]

/-- The remote peer is done, and the client hears of it. -/
def closing : List NetworkEvent :=
  [.server (.poll sampleStream), .server (.read sampleStream (.ok [])), .server (.flush 1 true),
   .client (.receive (.ok (.Binary (ControlPacket.End sampleStream).serialize))),
   .client (.endTask 0)]

/-- The remote peer has gone when the response is written to it. -/
def lostResponse (byte : UInt8) : List NetworkEvent :=
  [.client (.readLocal 0 (.ok [byte])), .client (.flush 1 true),
   .server (.message 1 (.ok (.Binary (ControlPacket.Data sampleStream [byte]).serialize))),
   .server (.write sampleStream (.err 0))]

end OneTunnel

open OneTunnel AnnouncedHost in
/-- The entry of a refused stream goes. -/
theorem stream_table_leaks_refused : ∃ t,
    (network Platform.ascii config false id).run Network.new
      (connect ++ request 1 ++ refusal ++ closing) = some t ∧
    t.server.activeStreams.lookup sampleStream = none := by
  refine ⟨_, rfl, ?_⟩
  refine (((stream_table_leaks Platform.ascii config false id
    (connect ++ request 1 ++ refusal ++ closing) _ rfl sampleStream).2 ?_).mpr (by decide))
  constructor
  · rintro stream ⟨⟩
    rfl
  · decide
  · decide
  · rfl
  · rintro stream ⟨⟩
    rfl
  · intro n stream h
    cases h
  · intro data h
    cases h
  · rintro (_ | _ | n) packet h <;> cases h
  · rintro (_ | _ | n) packet h <;> cases h
  · rintro (_ | _ | n) message h <;> cases h
  · rintro (_ | _ | n) message h <;> cases h

open OneTunnel AnnouncedHost in
/-- The entry stays after a failed write, and after a request that was answered by
    nobody's refusal: both sides have closed, and nothing is on the way. -/
theorem stream_entry_stays :
    (∃ t stream, (network Platform.ascii config false id).run Network.new
        (connect ++ request 1 ++ setup ++ lostResponse 2) = some t ∧
      t.server.streams sampleStream = some stream ∧ stream.neutunStream = false ∧
      (t.server.activeStreams.lookup sampleStream).isSome = true) ∧
    ∃ t, (network Platform.ascii config false id).run Network.new
        (connect ++ request 1 ++ setup ++ [.client (.readLocal 0 (.ok []))] ++ closing) = some t ∧
      Over sampleStream t ((network Platform.ascii config false id).trace
        (Network.marks sampleStream) Network.new
        (connect ++ request 1 ++ setup ++ [.client (.readLocal 0 (.ok []))] ++ closing)) ∧
      (t.server.activeStreams.lookup sampleStream).isSome = true := by
  refine ⟨⟨_, _, rfl, rfl, rfl, rfl⟩, _, rfl, ?_, rfl⟩
  constructor
  · rintro stream ⟨⟩
    rfl
  · decide
  · decide
  · rfl
  · rintro stream ⟨⟩
    rfl
  · rintro (_ | n) stream h
    · cases h
      exact fun _ => rfl
    · cases h
  · intro data h
    cases h
  · rintro (_ | _ | n) packet h <;> cases h
  · rintro (_ | _ | n) packet h <;> cases h
  · rintro (_ | _ | n) message h <;> cases h
  · rintro (_ | _ | n) message h <;> cases h

end Neutun
