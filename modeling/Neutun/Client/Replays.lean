/-
  Neutun/Client/Replays.lean
  ==========================
  What a replay from the dashboard can do, and what it cannot.

  A replay shares `ACTIVE_STREAMS` with the streams of the tunnel, and nothing
  keeps it away from them but its stream id.  What it receives goes to a tunnel of
  its own, so none of it comes to the server under any id
  (`replay_contained`); that it sends the recorded request and nothing else
  takes an id that the server does not use (`replay_faithful`).
-/
import Neutun.Client.Introspect

namespace Neutun

open Foundation

open Introspect

/-! ### Replays do not reach the server -/

namespace Dashboard

open Client

variable {p : Httparse} {useTls : Bool} {d d' : Dashboard}

/-- The stream that a step's packet from the server has data for. -/
def opened : DashboardEvent → List StreamId
  | .tunnel e =>
    match received e with
    | some (.Data streamId _) => [streamId]
    | _ => []
  | _ => []

theorem mem_opened {e : ClientEvent} {streamId : StreamId} {data : Bytes}
    (h : received e = some (.Data streamId data)) : streamId ∈ opened (.tunnel e) := by
  simp only [opened, h, List.mem_singleton]

/-- Everything but the replays is for streams that the server has opened. -/
structure Contained (d : Dashboard) (log : List StreamId) : Prop where
  chunk : ∀ streamId data, d.client.control.chunk = some (streamId, data) → streamId ∈ log
  tunnelled : ∀ n stream, d.client.locals n = some stream → stream.wormhole ≠ 0 →
    stream.streamId ∈ log ∧ d.replays n = none

theorem contained_new (log : List StreamId) : Dashboard.new.Contained log :=
  ⟨nofun, nofun⟩

theorem contained_step {e : DashboardEvent} {log : List StreamId} (hf : d.Faithful p)
    (h : d.Contained log) (hstep : d.step p useTls e = some d') :
    d'.Contained (log ++ opened e) := by
  have hmono : ∀ {streamId}, streamId ∈ log → streamId ∈ log ++ opened e :=
    fun hmem => List.mem_append_left _ hmem
  cases e with
  | tunnel e =>
    obtain ⟨c', hc', rfl⟩ := tunnel_cases hstep
    refine ⟨?_, ?_⟩
    · intro streamId data hchunk
      rcases step_chunk hc' hchunk with hold | hreceived
      · exact hmono (h.chunk streamId data hold)
      · exact List.mem_append_right _ (mem_opened hreceived)
    · intro n stream' hstream' hw
      rcases step_local hc' hstream' with ⟨stream, hstream, hid, hsame⟩ | ⟨data, hchunk, -⟩
      · rw [hsame] at hw
        obtain ⟨hmem, hreplays⟩ := h.tunnelled n stream hstream hw
        rw [hid]
        exact ⟨hmono hmem, hreplays⟩
      · refine ⟨hmono (h.chunk _ data hchunk), ?_⟩
        -- a connection that is there from before has its stream from before
        cases hold : d.client.locals n with
        | none => exact hf.replayed n hold
        | some stream =>
          obtain ⟨changed, hchanged, hadvance⟩ := step_advance hf.wellFormed hc' hold
          obtain rfl := Option.some.inj (hchanged.symm.trans hstream')
          rw [hadvance.wormhole] at hw
          exact (h.tunnelled n stream hold hw).2
  | collect n now =>
    obtain ⟨stream, -, hclient, hreplays, -⟩ := collect_cases hstep
    refine ⟨?_, ?_⟩
    · rw [hclient]
      exact fun streamId data hchunk => hmono (h.chunk streamId data hchunk)
    · rw [hclient, hreplays]
      intro m s hs hw
      exact ⟨hmono (h.tunnelled m s hs hw).1, (h.tunnelled m s hs hw).2⟩
  | replayRequest rid streamId result =>
    rcases replayRequest_cases hstep with rfl | rfl | ⟨request, -, -, rfl⟩
    · refine ⟨fun id data hchunk => hmono (h.chunk id data hchunk), ?_⟩
      intro m s hs hw
      exact ⟨hmono (h.tunnelled m s hs hw).1, (h.tunnelled m s hs hw).2⟩
    · refine ⟨?_, ?_⟩
      · rw [control_notifyTunnel]
        exact fun id data hchunk => hmono (h.chunk id data hchunk)
      · rw [locals_notifyTunnel]
        intro m s hs hw
        exact ⟨hmono (h.tunnelled m s hs hw).1, (h.tunnelled m s hs hw).2⟩
    · refine ⟨fun id data hchunk => hmono (h.chunk id data hchunk), ?_⟩
      intro m s hs hw
      simp only [locals_setLocal] at hs
      split at hs
      · obtain rfl := Option.some.inj hs
        exact absurd rfl hw
      next hm =>
        obtain ⟨hmem, hreplays⟩ := h.tunnelled m s hs hw
        exact ⟨hmono hmem, (Function.update_apply _ _ _ _).trans ((if_neg hm).trans hreplays)⟩
  | replaySend n =>
    obtain ⟨data, stream, -, hstream, -, rfl⟩ := replaySend_cases hstep
    refine ⟨fun id chunk hchunk => hmono (h.chunk id chunk hchunk), ?_⟩
    intro m s hs hw
    simp only [locals_setLocal] at hs
    split at hs
    next hm =>
      subst hm
      obtain rfl := Option.some.inj hs
      exact ⟨hmono (h.tunnelled m stream hstream hw).1, (h.tunnelled m stream hstream hw).2⟩
    · exact ⟨hmono (h.tunnelled m s hs hw).1, (h.tunnelled m s hs hw).2⟩

theorem trace_opened {s : Dashboard} {es : List DashboardEvent} {streamId : StreamId}
    (hmem : streamId ∈ (dashboard p useTls).trace (fun _ e => opened e) s es) :
    ∃ e data, .tunnel e ∈ es ∧ received e = some (.Data streamId data) := by
  obtain ⟨e, he, -, hopened⟩ := Machine.exists_of_mem_trace hmem
  cases e with
  | tunnel e =>
    simp only [opened] at hopened
    split at hopened
    next id data hreceived =>
      obtain rfl := List.mem_singleton.mp hopened
      exact ⟨e, data, he, hreceived⟩
    · cases hopened
  | _ => cases hopened

end Dashboard

/-- What the client sends into a tunnel to the server is a pong, or is about a
    stream that the server has sent data for before; and data among it is what has
    just been read from a local connection that is no replay's.  Replays may be made
    at any time and under any id. -/
theorem replay_contained (p : Httparse) (useTls : Bool) (es : List DashboardEvent) (d : Dashboard)
    (hrun : (dashboard p useTls).run Dashboard.new es = some d) (e : ClientEvent) (w : Nat)
    (packet : ControlPacket) (hemits : d.client.emits e = some (w, packet)) (hw : w ≠ 0) :
    packet = .Ping none ∨ ∃ streamId,
      (∃ e' data, .tunnel e' ∈ es ∧ Client.received e' = some (.Data streamId data)) ∧
      (packet = .Refused streamId ∨ ∃ n stream data, packet = .Data streamId data ∧
        e = .readLocal n (.ok data) ∧ d.client.locals n = some stream ∧
        stream.streamId = streamId ∧ stream.wormhole = w ∧ d.replays n = none) := by
  have hcontained : d.Faithful p ∧ d.Contained
      ((dashboard p useTls).trace (fun _ e => Dashboard.opened e) Dashboard.new es) :=
    Machine.run_trace (I := fun d log => d.Faithful p ∧ d.Contained log)
      (fun _ _ _ _ hI _ ht =>
        ⟨Dashboard.faithful_step hI.1 ht, Dashboard.contained_step hI.1 hI.2 ht⟩)
      ⟨Dashboard.faithful_new, Dashboard.contained_new _⟩ (Machine.meets_true _ _) hrun
  rcases Client.attempts_cases (Client.emits_eq_some.mp hemits).1 with ⟨rfl, -⟩ |
    ⟨streamId, data, rfl, hchunk, -⟩ | ⟨n, stream, data, heq, hstream, rfl, rfl⟩
  · exact Or.inl rfl
  · refine Or.inr ⟨streamId, ?_, Or.inl rfl⟩
    exact Dashboard.trace_opened (hcontained.2.chunk streamId data hchunk)
  · obtain ⟨hmem, hreplays⟩ := hcontained.2.tunnelled n stream hstream hw
    exact Or.inr ⟨stream.streamId, Dashboard.trace_opened hmem,
      Or.inr ⟨n, stream, data, rfl, heq, hstream, rfl, rfl, hreplays⟩⟩

namespace Recorded

/-- What the client reads of the response goes to the first tunnel, and the connection
    it is read from is no replay's. -/
theorem replay_contained_exchange : ∃ d streamId,
    (dashboard parser false).run Dashboard.new (exchange.take 6) = some d ∧
    d.client.emits (.readLocal 0 (.ok response)) = some (1, .Data streamId response) ∧
    (∃ e data, .tunnel e ∈ exchange.take 6 ∧ Client.received e = some (.Data streamId data)) ∧
    d.replays 0 = none := by
  obtain ⟨d, hd, hemits⟩ : ∃ d,
      (dashboard parser false).run Dashboard.new (exchange.take 6) = some d ∧
      d.client.emits (.readLocal 0 (.ok response)) = some (1, .Data sampleStream response) :=
    ⟨_, rfl, rfl⟩
  refine ⟨d, sampleStream, hd, hemits, ?_⟩
  rcases replay_contained parser false _ d hd _ _ _ hemits (by decide) with heq |
    ⟨streamId, hopened, heq | ⟨n, stream, data, heq, hread, -, -, -, hreplays⟩⟩
  · cases heq
  · cases heq
  · obtain ⟨rfl, -⟩ := ControlPacket.Data.inj heq
    obtain ⟨rfl, -⟩ := ClientEvent.readLocal.inj hread
    exact ⟨hopened, hreplays⟩

end Recorded

/-! ### Replays are what was recorded -/

namespace Client

/-- The stream that the task of an `End` is about. -/
def EndTask.streamId? : EndTask → Option StreamId
  | spawned streamId | sleeping streamId _ | removing streamId => some streamId
  | returned => none

variable {c c' : Client}

/-- A task that holds a sender has it of a local connection of its stream. -/
def Holding (c : Client) : Prop :=
  ∀ streamId n, EndTask.sleeping streamId n ∈ c.endTasks →
    ∃ stream, c.locals n = some stream ∧ stream.streamId = streamId

/-- An `End` packet is given a task. -/
theorem endTasks_receive {result : NextMessage} (h : c.receive result = some c') :
    c'.endTasks = c.endTasks ∨ ∃ streamId, received (.receive result) = some (.End streamId) ∧
      c'.endTasks = c.endTasks ++ [.spawned streamId] := by
  obtain ⟨-, hreceive⟩ := receive_cases h
  rcases hreceive with ⟨bytes, rfl, rfl⟩ | ⟨message, rfl, hclose, rfl⟩ | ⟨-, rfl⟩
  · exact Or.inl rfl
  · rw [received_ok hclose]
    unfold processControlFlowMessage
    cases hpacket : ControlPacket.deserialize message.data with
    | error e => exact Or.inl rfl
    | ok packet =>
      cases packet with
      | Init id => exact Or.inl rfl
      | Refused id => exact Or.inl rfl
      | Ping token =>
        left
        simp only [notifyTunnel_eq]
        rfl
      | End id => exact Or.inr ⟨id, rfl, rfl⟩
      | Data id data =>
        left
        simp only
        split <;> rfl
  · exact Or.inl rfl

/-- The task goes on, with the sender it finds under its stream. -/
theorem endTasks_endTask {k : Nat} (h : c.endTask k = some c') :
    ∃ k old next streamId, c.endTasks[k]? = some old ∧ c'.endTasks = c.endTasks.set k next ∧
      old.streamId? = some streamId ∧
      (next = .returned ∨ next = .removing streamId ∨
        ∃ n, next = .sleeping streamId n ∧ c.activeStreams.lookup streamId = some n) := by
  unfold endTask at h
  split at h
  next id hk =>
    obtain rfl := Option.some.inj h
    refine ⟨k, _, _, id, hk, rfl, rfl, ?_⟩
    cases hlookup : c.activeStreams.lookup id with
    | none => exact Or.inl rfl
    | some n => exact Or.inr (Or.inr ⟨n, rfl, rfl⟩)
  next id m hk =>
    split at h
    · obtain rfl := Option.some.inj h
      exact ⟨k, _, _, id, hk, rfl, rfl, Or.inr (Or.inl rfl)⟩
    · cases h
  next id hk =>
    obtain rfl := Option.some.inj h
    exact ⟨k, _, _, id, hk, rfl, rfl, Or.inl rfl⟩
  · cases h
  · cases h

/-- What a step does to the tasks of `End` packets. -/
theorem step_endTasks {useTls : Bool} {e : ClientEvent} (h : c.step useTls e = some c') :
    c'.endTasks = c.endTasks ∨
      (∃ streamId, received e = some (.End streamId) ∧
        c'.endTasks = c.endTasks ++ [.spawned streamId]) ∨
      ∃ k old next streamId, c.endTasks[k]? = some old ∧ c'.endTasks = c.endTasks.set k next ∧
        old.streamId? = some streamId ∧
        (next = .returned ∨ next = .removing streamId ∨
          ∃ n, next = .sleeping streamId n ∧ c.activeStreams.lookup streamId = some n) := by
  cases e with
  | receive result =>
    rcases endTasks_receive h with heq | hspawned
    · exact Or.inl heq
    · exact Or.inr (Or.inl hspawned)
  | startWormhole result =>
    obtain ⟨-, ⟨-, rfl⟩ | ⟨e, -, -, -, rfl⟩⟩ := startWormhole_cases h
    · exact Or.inl rfl
    · exact Or.inl rfl
  | decide =>
    obtain ⟨outcome, -, ⟨-, rfl⟩ | ⟨e, -, -, rfl⟩⟩ := decide_cases h
    · exact Or.inl rfl
    · exact Or.inl rfl
  | interrupt =>
    obtain ⟨-, -, rfl⟩ := interrupt_cases h
    exact Or.inl rfl
  | flush w sent =>
    obtain ⟨packet, rest, -, -, ⟨-, rfl⟩ | ⟨-, rfl⟩⟩ := flush_cases h
    · exact Or.inl rfl
    · exact Or.inl rfl
  | connect result =>
    obtain ⟨id, data, -, ⟨-, rfl⟩ | ⟨-, rfl⟩ | ⟨-, rfl⟩⟩ := connect_cases h
    · exact Or.inl rfl
    · exact Or.inl (by rw [notifyTunnel_eq]; rfl)
    · exact Or.inl rfl
  | insert =>
    obtain ⟨id, data, m, old, -, -, rfl⟩ := insert_cases h
    exact Or.inl rfl
  | forward =>
    obtain ⟨id, data, -, ⟨m, old, -, -, ⟨-, rfl⟩ | ⟨-, rfl⟩⟩ | ⟨-, ⟨-, rfl⟩ | ⟨-, rfl⟩⟩⟩ :=
      forward_cases h
    · exact Or.inl rfl
    · exact Or.inl rfl
    · exact Or.inl (by rw [notifyTunnel_eq]; rfl)
    · exact Or.inl rfl
  | readLocal m result =>
    obtain ⟨old, -, -, ⟨-, rfl⟩ | ⟨-, rfl⟩ | ⟨data, reader, -, -, rfl⟩⟩ := readLocal_cases h
    · exact Or.inl rfl
    · exact Or.inl rfl
    · exact Or.inl (by rw [notifyTunnel_eq]; rfl)
  | writeLocal m result =>
    obtain ⟨old, changed, -, -, rfl⟩ := writeLocal_cases h
    exact Or.inl rfl
  | endTask k => exact Or.inr (Or.inr (endTasks_endTask h))

/-- A task of an `End` has been there, or its packet has just come. -/
theorem step_endTask_origin {useTls : Bool} {e : ClientEvent} (h : c.step useTls e = some c')
    {task : EndTask} {streamId : StreamId} (htask : task ∈ c'.endTasks)
    (hid : task.streamId? = some streamId) :
    (∃ old ∈ c.endTasks, old.streamId? = some streamId) ∨ received e = some (.End streamId) := by
  rcases step_endTasks h with heq | ⟨id, hreceived, heq⟩ | ⟨k, old, next, id, hk, heq, hold, hnext⟩
  · rw [heq] at htask
    exact Or.inl ⟨task, htask, hid⟩
  · rw [heq, List.mem_append, List.mem_singleton] at htask
    rcases htask with htask | rfl
    · exact Or.inl ⟨task, htask, hid⟩
    · obtain rfl := Option.some.inj hid
      exact Or.inr hreceived
  · left
    rw [heq] at htask
    rcases List.mem_or_eq_of_mem_set htask with hmem | rfl
    · exact ⟨task, hmem, hid⟩
    · refine ⟨old, List.mem_of_getElem? hk, ?_⟩
      rcases hnext with rfl | rfl | ⟨n, rfl, -⟩
      · cases hid
      · exact hold.trans hid
      · exact hold.trans hid

theorem holding_step {useTls : Bool} {e : ClientEvent} (hwf : c.WellFormed) (hh : c.Holding)
    (h : c.step useTls e = some c') : c'.Holding := by
  intro streamId n hn
  have hold : ∃ stream, c.locals n = some stream ∧ stream.streamId = streamId := by
    rcases step_endTasks h with heq | ⟨id, -, heq⟩ | ⟨k, old, next, id, hk, heq, -, hnext⟩
    · rw [heq] at hn
      exact hh streamId n hn
    · rw [heq, List.mem_append, List.mem_singleton] at hn
      rcases hn with hn | hn
      · exact hh streamId n hn
      · cases hn
    · rw [heq] at hn
      rcases List.mem_or_eq_of_mem_set hn with hn | hn
      · exact hh streamId n hn
      · rcases hnext with rfl | rfl | ⟨m, rfl, hlookup⟩
        · cases hn
        · cases hn
        · obtain ⟨rfl, rfl⟩ := EndTask.sleeping.inj hn
          obtain ⟨stream, hstream, hid, -⟩ := hwf.entry _ _ hlookup
          exact ⟨stream, hstream, hid⟩
  obtain ⟨stream, hstream, hid⟩ := hold
  obtain ⟨stream', hstream', hadvance⟩ := step_advance hwf h hstream
  exact ⟨stream', hstream', hadvance.streamId.trans hid⟩

/-- A local connection that no packet is about changes by its own two tasks only. -/
theorem step_undisturbed {useTls : Bool} {e : ClientEvent} {n : Nat} {stream : LocalStream}
    (hwf : c.WellFormed) (hh : c.Holding) (h : c.step useTls e = some c')
    (hn : c.locals n = some stream)
    (hinserting : ∀ streamId data, c.control ≠ .inserting streamId data n)
    (hchunk : ∀ data, c.control.chunk ≠ some (stream.streamId, data))
    (htasks : ∀ task ∈ c.endTasks, task.streamId? ≠ some stream.streamId) :
    ∃ stream', c'.locals n = some stream' ∧ stream'.streamId = stream.streamId ∧
      stream'.wormhole = stream.wormhole ∧
      (stream'.forwardToLocalTcp = stream.forwardToLocalTcp ∧ stream'.queue = stream.queue ∧
          stream'.socket.written = stream.socket.written ∨
        ∃ result open_, stream.turn result open_ = some stream') := by
  have hsame : c'.locals n = c.locals n → ∃ stream', c'.locals n = some stream' ∧
      stream'.streamId = stream.streamId ∧ stream'.wormhole = stream.wormhole ∧
      (stream'.forwardToLocalTcp = stream.forwardToLocalTcp ∧ stream'.queue = stream.queue ∧
          stream'.socket.written = stream.socket.written ∨
        ∃ result open_, stream.turn result open_ = some stream') := by
    intro heq
    exact ⟨stream, heq.trans hn, rfl, rfl, Or.inl ⟨rfl, rfl, rfl⟩⟩
  have hother : ∀ {d : Client} {m : Nat} {changed : LocalStream}, d.locals = c.locals →
      n ≠ m → (d.setLocal m changed).locals n = c.locals n := by
    intro d m changed hd hm
    rw [locals_setLocal, if_neg hm, hd]
  by_cases he : ofTunnel e = true
  · exact hsame (congrFun (step_ofTunnel he h).2.1 n)
  cases e with
  | connect result =>
    obtain ⟨id, data, -, ⟨-, rfl⟩ | ⟨-, rfl⟩ | ⟨-, rfl⟩⟩ := connect_cases h
    · apply hsame
      apply hother rfl
      rintro rfl
      cases (hwf.made c.streams (Nat.le_refl _)).symm.trans hn
    · exact hsame (congrFun (locals_notifyTunnel _ _ _) n)
    · exact hsame rfl
  | insert =>
    obtain ⟨id, data, m, old, hcontrol, -, rfl⟩ := insert_cases h
    apply hsame
    apply hother rfl
    rintro rfl
    exact hinserting id data hcontrol
  | forward =>
    obtain ⟨id, data, hcontrol, ⟨m, old, hlookup, hm, ⟨-, rfl⟩ | ⟨-, rfl⟩⟩ |
      ⟨-, ⟨-, rfl⟩ | ⟨-, rfl⟩⟩⟩ := forward_cases h
    · apply hsame
      apply hother rfl
      rintro rfl
      obtain ⟨s, hs, hid, -⟩ := hwf.entry id n hlookup
      obtain rfl := Option.some.inj (hn.symm.trans hs)
      apply hchunk data
      rw [hcontrol, hid]
      rfl
    · exact hsame rfl
    · exact hsame (congrFun (locals_notifyTunnel _ _ _) n)
    · exact hsame rfl
  | readLocal m result =>
    obtain ⟨old, hold, -, hread⟩ := readLocal_cases h
    by_cases hm : n = m
    · subst hm
      obtain rfl := Option.some.inj (hn.symm.trans hold)
      rcases hread with ⟨-, rfl⟩ | ⟨-, rfl⟩ | ⟨data, reader, -, -, rfl⟩
      all_goals
        exact ⟨_, (locals_setLocal _ _ _ _).trans (if_pos rfl), rfl, rfl, Or.inl ⟨rfl, rfl, rfl⟩⟩
    · apply hsame
      rcases hread with ⟨-, rfl⟩ | ⟨-, rfl⟩ | ⟨data, reader, -, -, rfl⟩
      · exact hother rfl hm
      · exact hother rfl hm
      · exact hother (locals_notifyTunnel _ _ _) hm
  | writeLocal m result =>
    obtain ⟨old, changed, hold, hturn, rfl⟩ := writeLocal_cases h
    by_cases hm : n = m
    · subst hm
      obtain rfl := Option.some.inj (hn.symm.trans hold)
      obtain ⟨-, hid, hwormhole, -⟩ := LocalStream.turn_cases hturn
      exact ⟨changed, (locals_setLocal _ _ _ _).trans (if_pos rfl), hid, hwormhole,
        Or.inr ⟨result, _, hturn⟩⟩
    · exact hsame (hother rfl hm)
  | endTask k =>
    change c.endTask k = some c' at h
    unfold endTask at h
    split at h
    · obtain rfl := Option.some.inj h
      exact hsame rfl
    next id m hk =>
      split at h
      next old hold =>
        obtain rfl := Option.some.inj h
        apply hsame
        apply hother rfl
        rintro rfl
        obtain ⟨s, hs, hid⟩ := hh id n (List.mem_of_getElem? hk)
        obtain rfl := Option.some.inj (hn.symm.trans hs)
        exact htasks _ (List.mem_of_getElem? hk) (congrArg some hid.symm)
      · cases h
    · obtain rfl := Option.some.inj h
      exact hsame rfl
    · cases h
    · cases h
  | _ => exact absurd rfl he

/-- What a forwarder does whose only message is one chunk. -/
def LocalStream.Sent (data : Bytes) (stream : LocalStream) : Prop :=
  match stream.forwardToLocalTcp with
  | .spawning => stream.queue = Channel.fresh ∧ stream.socket.written = []
  | .running => stream.queue.queue = [.Data data] ∧ stream.socket.written = [] ∨
      stream.queue.queue = [] ∧ stream.socket.written = data
  | .returned => stream.socket.written = data
  | .panicked => stream.socket.written <+: data

theorem LocalStream.Sent.congr {data : Bytes} {stream stream' : LocalStream}
    (h : stream.Sent data) (hforwarder : stream'.forwardToLocalTcp = stream.forwardToLocalTcp)
    (hqueue : stream'.queue = stream.queue)
    (hwritten : stream'.socket.written = stream.socket.written) : stream'.Sent data := by
  unfold Sent at h ⊢
  rw [hforwarder, hqueue, hwritten]
  exact h

theorem LocalStream.Sent.turn {data : Bytes} {stream stream' : LocalStream}
    {result : WriteResult} {open_ : Bool} (h : stream.Sent data)
    (hturn : stream.turn result open_ = some stream') : stream'.Sent data := by
  have hrunning := (LocalStream.turn_cases hturn).1
  unfold Sent at h
  rw [hrunning] at h
  unfold LocalStream.turn at hturn
  rcases h with ⟨hqueue, hwritten⟩ | ⟨hqueue, hwritten⟩
  · rw [hrunning, hqueue] at hturn
    simp only at hturn
    split at hturn
    · obtain rfl := Option.some.inj hturn
      refine Or.inr ⟨rfl, ?_⟩
      change stream.socket.written ++ data = data
      rw [hwritten]
      rfl
    next part =>
      obtain rfl := Option.some.inj hturn
      unfold Sent
      simp only [hwritten]
      exact List.take_prefix part data
  · rw [hrunning, hqueue] at hturn
    simp only at hturn
    split at hturn
    · cases hturn
    · obtain rfl := Option.some.inj hturn
      exact hwritten

theorem LocalStream.Sent.written {data : Bytes} {stream : LocalStream} (h : stream.Sent data) :
    stream.socket.written <+: data ∧
      (stream.forwardToLocalTcp = .returned → stream.socket.written = data) := by
  unfold Sent at h
  cases hforwarder : stream.forwardToLocalTcp with
  | spawning =>
    rw [hforwarder] at h
    rw [h.2]
    exact ⟨List.nil_prefix, nofun⟩
  | running =>
    rw [hforwarder] at h
    rcases h with ⟨-, hwritten⟩ | ⟨-, hwritten⟩
    · rw [hwritten]
      exact ⟨List.nil_prefix, nofun⟩
    · rw [hwritten]
      exact ⟨List.prefix_rfl, nofun⟩
  | returned =>
    rw [hforwarder] at h
    have hwritten : stream.socket.written = data := h
    rw [hwritten]
    exact ⟨List.prefix_rfl, fun _ => rfl⟩
  | panicked =>
    rw [hforwarder] at h
    exact ⟨h, nofun⟩

end Client

namespace Dashboard

open Client

variable {p : Httparse} {useTls : Bool} {d d' : Dashboard}

/-- `StreamId::generate` gives a replay an id of its own: nobody has used it, and the
    server does not guess it. -/
def FreshIds (d : Dashboard) : DashboardEvent → Prop
  | .replayRequest _ streamId _ =>
    (∀ n stream, d.client.locals n = some stream → stream.streamId ≠ streamId) ∧
      (∀ data, d.client.control.chunk ≠ some (streamId, data)) ∧
      ∀ task ∈ d.client.endTasks, task.streamId? ≠ some streamId
  | .tunnel e => ∀ n data stream, d.replays n = some data → d.client.locals n = some stream →
      (∀ bytes, received e ≠ some (.Data stream.streamId bytes)) ∧
        received e ≠ some (.End stream.streamId)
  | _ => True

/-- A replay of `data` over the local connection `n`. -/
structure Replay (d : Dashboard) (n : Nat) (data : Bytes) (stream : LocalStream) : Prop where
  wormhole : stream.wormhole = 0
  sent : stream.Sent data
  alone : ∀ m s, d.client.locals m = some s → s.streamId = stream.streamId → m = n
  chunk : ∀ bytes, d.client.control.chunk ≠ some (stream.streamId, bytes)
  tasks : ∀ task ∈ d.client.endTasks, task.streamId? ≠ some stream.streamId
  source : ∃ m r, d.requests.lookup m = some r ∧ r.entireRequest = data

structure Replays (d : Dashboard) : Prop where
  holding : d.client.Holding
  replay : ∀ n data, d.replays n = some data →
    ∃ stream, d.client.locals n = some stream ∧ d.Replay n data stream

theorem replays_new : Dashboard.new.Replays := ⟨nofun, nofun⟩

theorem Replays.tunnel {e : ClientEvent} (hf : d.Faithful p) (hr : d.Replays)
    (hfresh : d.FreshIds (.tunnel e)) (h : d.tunnel useTls e = some d') : d'.Replays := by
  obtain ⟨c', hc', rfl⟩ := tunnel_cases h
  refine ⟨holding_step hf.wellFormed hr.holding hc', ?_⟩
  intro n data hn
  obtain ⟨stream, hstream, hreplay⟩ := hr.replay n data hn
  have hinserting : ∀ streamId bytes, d.client.control ≠ .inserting streamId bytes n := by
    intro streamId bytes hcontrol
    cases (hf.apart streamId bytes n hcontrol).symm.trans hn
  obtain ⟨hdata, hend⟩ := hfresh n data stream hn hstream
  obtain ⟨stream', hstream', hid, hwormhole, hchange⟩ := step_undisturbed hf.wellFormed hr.holding
    hc' hstream hinserting hreplay.chunk hreplay.tasks
  refine ⟨stream', hstream', hwormhole.trans hreplay.wormhole, ?_, ?_, ?_, ?_, hreplay.source⟩
  · rcases hchange with ⟨hforwarder, hqueue, hwritten⟩ | ⟨result, open_, hturn⟩
    · exact hreplay.sent.congr hforwarder hqueue hwritten
    · exact hreplay.sent.turn hturn
  · intro m s hs hsame
    rw [hid] at hsame
    rcases step_local hc' hs with ⟨old, hold, hsid, -⟩ | ⟨bytes, hchunk, -⟩
    · exact hreplay.alone m old hold (hsid.symm.trans hsame)
    · rw [hsame] at hchunk
      exact absurd hchunk (hreplay.chunk bytes)
  · intro bytes hchunk
    rw [hid] at hchunk
    rcases step_chunk hc' hchunk with hold | hreceived
    · exact hreplay.chunk bytes hold
    · exact hdata bytes hreceived
  · intro task htask heq
    rw [hid] at heq
    rcases step_endTask_origin hc' htask heq with ⟨old, hold, hsame⟩ | hreceived
    · exact hreplay.tasks old hold hsame
    · exact hend hreceived

/-- A record stays what it is. -/
theorem Faithful.record_kept {now : NaiveDateTime} {n : Nat} (hf : d.Faithful p)
    (h : d.collect p n now = some d') {m : Nat} {r : Request}
    (hr : d.requests.lookup m = some r) : d'.requests.lookup m = some r := by
  obtain ⟨stream, started, completed, request, response, -, hcollector, -⟩ := hf.record hr
  have hm : m ≠ n := by
    rintro rfl
    unfold Dashboard.collect at h
    rw [hcollector] at h
    split at h
    · cases h
    · cases h
  obtain ⟨-, -, -, -, hother, -⟩ := collect_cases h
  rw [(hf.collect h).requests m, hother m hm, ← hf.requests m]
  exact hr

/-- A replay whose client and records are seen to be the same. -/
theorem Replay.congr {n : Nat} {data : Bytes} {stream : LocalStream}
    (h : d.Replay n data stream) (hlocals : d'.client.locals = d.client.locals)
    (hcontrol : d'.client.control = d.client.control)
    (htasks : d'.client.endTasks = d.client.endTasks)
    (hrequests : ∀ m r, d.requests.lookup m = some r → d'.requests.lookup m = some r) :
    d'.Replay n data stream := by
  refine ⟨h.wormhole, h.sent, by rw [hlocals]; exact h.alone, by rw [hcontrol]; exact h.chunk,
    by rw [htasks]; exact h.tasks, ?_⟩
  obtain ⟨m, r, hr, hdata⟩ := h.source
  exact ⟨m, r, hrequests m r hr, hdata⟩

theorem Replays.collect {now : NaiveDateTime} {n : Nat} (hf : d.Faithful p) (hr : d.Replays)
    (h : d.collect p n now = some d') : d'.Replays := by
  obtain ⟨-, -, hclient, hreplays, -⟩ := collect_cases h
  refine ⟨by rw [hclient]; exact hr.holding, ?_⟩
  intro m data hm
  rw [hreplays] at hm
  obtain ⟨stream, hstream, hreplay⟩ := hr.replay m data hm
  refine ⟨stream, by rw [hclient]; exact hstream, ?_⟩
  apply hreplay.congr
  · rw [hclient]
  · rw [hclient]
  · rw [hclient]
  · exact fun _ _ => hf.record_kept h

theorem Replays.replayRequest {rid : Nat} {streamId : StreamId} {result : ConnectResult}
    (hf : d.Faithful p) (hr : d.Replays) (hfresh : d.FreshIds (.replayRequest rid streamId result))
    (h : d.replayRequest useTls rid streamId result = some d') : d'.Replays := by
  rcases replayRequest_cases h with rfl | rfl | ⟨request, hrequest, -, rfl⟩
  · exact hr
  · refine ⟨?_, ?_⟩
    · unfold Holding
      rw [notifyTunnel_eq]
      exact hr.holding
    · intro n data hn
      obtain ⟨stream, hstream, hreplay⟩ := hr.replay n data hn
      refine ⟨stream, (congrFun (locals_notifyTunnel _ _ _) n).trans hstream, ?_⟩
      apply hreplay.congr
      · exact locals_notifyTunnel _ _ _
      · exact control_notifyTunnel _ _ _
      · rw [notifyTunnel_eq]
        rfl
      · exact fun _ _ => id
  · obtain ⟨hlocals, hchunk, htasks⟩ := hfresh
    have hnew := hf.wellFormed.made d.client.streams (Nat.le_refl _)
    have hkept : ∀ {m s}, d.client.locals m = some s →
        (d.client.setLocal d.client.streams (LocalStream.new streamId 0)).locals m = some s := by
      intro m s hs
      rw [locals_setLocal, if_neg]
      · exact hs
      · rintro rfl
        cases hnew.symm.trans hs
    refine ⟨?_, ?_⟩
    · intro id n hn
      obtain ⟨stream, hstream, hid⟩ := hr.holding id n hn
      exact ⟨stream, hkept hstream, hid⟩
    · intro n data hn
      have hn : (if n = d.client.streams then some request.entireRequest else d.replays n) =
          some data := (Function.update_apply _ _ _ _).symm.trans hn
      split at hn
      next heq =>
        obtain rfl := Option.some.inj hn
        refine ⟨LocalStream.new streamId 0, ?_, rfl, ⟨rfl, rfl⟩, ?_, hchunk, htasks,
          ⟨rid, request, hrequest, rfl⟩⟩
        · exact (locals_setLocal _ _ _ _).trans (if_pos heq)
        · intro m s hs hid
          simp only [locals_setLocal] at hs
          split at hs
          next hm => exact hm.trans heq.symm
          · exact absurd hid (hlocals m s hs)
      · obtain ⟨stream, hstream, hreplay⟩ := hr.replay n data hn
        refine ⟨stream, hkept hstream, hreplay.wormhole, hreplay.sent, ?_, hreplay.chunk,
          hreplay.tasks, hreplay.source⟩
        intro m s hs hid
        simp only [locals_setLocal] at hs
        split at hs
        · obtain rfl := Option.some.inj hs
          exact absurd hid.symm (hlocals n stream hstream)
        · exact hreplay.alone m s hs hid

theorem Replays.replaySend {n : Nat} (hr : d.Replays) (h : d.replaySend n = some d') :
    d'.Replays := by
  obtain ⟨data, stream, hdata, hstream, hspawning, rfl⟩ := replaySend_cases h
  let changed : LocalStream := { stream with
    forwardToLocalTcp := .running
    queue := stream.queue.sendOrDrop (.Data data) }
  -- a local connection is there with the same stream as before
  have hback : ∀ {m s}, (d.client.setLocal n changed).locals m = some s →
      ∃ old, d.client.locals m = some old ∧ s.streamId = old.streamId := by
    intro m s hs
    rw [locals_setLocal] at hs
    split at hs
    next hm =>
      obtain rfl := Option.some.inj hs
      exact ⟨stream, hm ▸ hstream, rfl⟩
    · exact ⟨s, hs, rfl⟩
  refine ⟨?_, ?_⟩
  · intro id m hm
    obtain ⟨s, hs, hid⟩ := hr.holding id m hm
    by_cases hmn : m = n
    · subst hmn
      obtain rfl := Option.some.inj (hstream.symm.trans hs)
      exact ⟨changed, (locals_setLocal _ _ _ _).trans (if_pos rfl), hid⟩
    · exact ⟨s, (locals_setLocal _ _ _ _).trans ((if_neg hmn).trans hs), hid⟩
  · intro m bytes hm
    obtain ⟨s, hs, hreplay⟩ := hr.replay m bytes hm
    by_cases hmn : m = n
    · subst hmn
      obtain rfl := Option.some.inj (hstream.symm.trans hs)
      obtain rfl := Option.some.inj (hdata.symm.trans hm)
      refine ⟨changed, (locals_setLocal _ _ _ _).trans (if_pos rfl), hreplay.wormhole, ?_, ?_,
        hreplay.chunk, hreplay.tasks, hreplay.source⟩
      · have hsent := hreplay.sent
        unfold LocalStream.Sent at hsent
        rw [hspawning] at hsent
        refine Or.inl ⟨?_, hsent.2⟩
        change (stream.queue.sendOrDrop (.Data data)).queue = _
        rw [hsent.1]
        rfl
      · intro k s' hs' hid
        obtain ⟨old, hold, hsame⟩ := hback hs'
        exact hreplay.alone k old hold (hsame.symm.trans hid)
    · refine ⟨s, (locals_setLocal _ _ _ _).trans ((if_neg hmn).trans hs), hreplay.wormhole,
        hreplay.sent, ?_, hreplay.chunk, hreplay.tasks, hreplay.source⟩
      intro k s' hs' hid
      obtain ⟨old, hold, hsame⟩ := hback hs'
      exact hreplay.alone k old hold (hsame.symm.trans hid)

theorem replays_step {e : DashboardEvent} (hf : d.Faithful p) (hr : d.Replays)
    (hfresh : d.FreshIds e) (h : d.step p useTls e = some d') : d'.Replays := by
  cases e with
  | tunnel e => exact hr.tunnel hf hfresh h
  | collect n now => exact hr.collect hf h
  | replayRequest rid streamId result => exact hr.replayRequest hf hfresh h
  | replaySend n => exact hr.replaySend h

/-- Without replays there is nothing that the server could get in the way of. -/
theorem freshIds_of_no_replays {es : List DashboardEvent} (hd : ∀ n, d.replays n = none)
    (hes : ∀ rid streamId result, .replayRequest rid streamId result ∉ es) :
    (dashboard p useTls).Meets FreshIds d es := by
  induction es generalizing d with
  | nil => trivial
  | cons e es ih =>
    have hrest : ∀ rid streamId result, .replayRequest rid streamId result ∉ es :=
      fun rid streamId result hmem => hes rid streamId result (List.mem_cons_of_mem e hmem)
    refine ⟨?_, fun d' h => ih ?_ hrest⟩
    · cases e with
      | tunnel e =>
        intro n data stream hn
        cases (hd n).symm.trans hn
      | replayRequest rid streamId result => exact absurd List.mem_cons_self (hes _ _ _)
      | collect n now => trivial
      | replaySend n => trivial
    · intro n
      cases e with
      | tunnel e =>
        obtain ⟨c', -, rfl⟩ := tunnel_cases h
        exact hd n
      | replayRequest rid streamId result => exact absurd List.mem_cons_self (hes _ _ _)
      | collect m now =>
        obtain ⟨-, -, -, hreplays, -⟩ := collect_cases h
        rw [hreplays]
        exact hd n
      | replaySend m =>
        obtain ⟨data, -, hdata, -⟩ := replaySend_cases h
        cases (hd m).symm.trans hdata

end Dashboard

/-- A replay writes to its own local connection what was recorded of a request, and
    nothing else.  Once its forwarder has returned it has written all of it, and a
    record that is there of the replay is of the same request. -/
theorem replay_faithful (p : Httparse) (useTls : Bool) (es : List DashboardEvent) (d : Dashboard)
    (hfresh : (dashboard p useTls).Meets Dashboard.FreshIds Dashboard.new es)
    (hrun : (dashboard p useTls).run Dashboard.new es = some d) (n : Nat) (data : Bytes)
    (hn : d.replays n = some data) :
    ∃ stream m original, d.client.locals n = some stream ∧
      d.requests.lookup m = some original ∧ original.entireRequest = data ∧
      stream.wormhole = 0 ∧ stream.socket.written <+: data ∧
      (stream.forwardToLocalTcp = .returned → stream.socket.written = data ∧
        ∀ r, d.requests.lookup n = some r → r.entireRequest = data ∧
          r.method = original.method ∧ r.path = original.path ∧ r.headers = original.headers ∧
          r.bodyData = original.bodyData) := by
  have hinv : d.Faithful p ∧ d.Replays :=
    Machine.run_invariant (I := fun d => d.Faithful p ∧ d.Replays)
      (fun _ _ _ hI hg ht =>
        ⟨Dashboard.faithful_step hI.1 ht, Dashboard.replays_step hI.1 hI.2 hg ht⟩)
      ⟨Dashboard.faithful_new, Dashboard.replays_new⟩ hfresh hrun
  obtain ⟨hf, hr⟩ := hinv
  obtain ⟨stream, hstream, hreplay⟩ := hr.replay n data hn
  obtain ⟨m, original, horiginal, hdata⟩ := hreplay.source
  obtain ⟨hwritten, hreturned⟩ := hreplay.sent.written
  refine ⟨stream, m, original, hstream, horiginal, hdata, hreplay.wormhole, hwritten, ?_⟩
  intro hforwarder
  refine ⟨hreturned hforwarder, ?_⟩
  intro r hrecord
  obtain ⟨s, started, completed, request, response, hs, hcollector, hof⟩ := hf.record hrecord
  obtain rfl := Option.some.inj (hstream.symm.trans hs)
  obtain ⟨-, -, hrequest, -⟩ := (hf.conversation n stream hstream).returned hcollector
  obtain ⟨_, _, _, request', _, -, -, hof'⟩ := hf.record horiginal
  obtain ⟨hentire, len, head, hparse, hmethod, hpath, hheaders, hbody⟩ := Request.of_request hof
  obtain ⟨hentire', len', head', hparse', hmethod', hpath', hheaders', hbody'⟩ :=
    Request.of_request hof'
  -- both have been parsed from the same bytes
  obtain rfl : request = data := (hrequest.2 hforwarder).trans (hreturned hforwarder)
  obtain rfl : request' = request := hentire'.symm.trans hdata
  obtain ⟨rfl, rfl⟩ := Prod.mk.inj (Option.some.inj (hparse.symm.trans hparse'))
  rw [hmethod, hmethod', hpath, hpath', hheaders, hheaders', hbody, hbody']
  exact ⟨hentire, rfl, rfl, rfl, rfl⟩

namespace Recorded

def replayStream : StreamId := ⟨[8, 7, 6, 5, 4, 3, 2, 1], rfl⟩

def recorded : List DashboardEvent := exchange ++ List.replicate 5 (.collect 0 7)

def replayed : List DashboardEvent :=
  [.replayRequest 0 replayStream .ok, .replaySend 1, .tunnel (.writeLocal 1 .ok),
    .tunnel (.readLocal 1 (.ok [])), .tunnel (.writeLocal 1 .ok)] ++
    List.replicate 4 (.collect 1 9)

theorem freshIds_replayed :
    (dashboard parser false).Meets Dashboard.FreshIds Dashboard.new (recorded ++ replayed) := by
  obtain ⟨d, hd, hstreams, hlocal, hcontrol, htasks⟩ : ∃ d,
      (dashboard parser false).run Dashboard.new recorded = some d ∧ d.client.streams = 1 ∧
      (d.client.locals 0).map Client.LocalStream.streamId = some sampleStream ∧
      d.client.control.chunk = none ∧ d.client.endTasks = [] := ⟨_, rfl, rfl, rfl, rfl, rfl⟩
  have hlocals : ∀ n stream, d.client.locals n = some stream → stream.streamId = sampleStream := by
    intro n stream hstream
    match n with
    | 0 =>
      rw [hstream] at hlocal
      exact Option.some.inj hlocal
    | n + 1 =>
      have hmade := (Dashboard.faithful_run hd).wellFormed.made (n + 1) (by omega)
      cases hstream.symm.trans hmade
  apply Machine.Meets.append
  · apply Dashboard.freshIds_of_no_replays (fun _ => rfl)
    simp [recorded, exchange]
  · intro u hu
    obtain rfl := Option.some.inj (hd.symm.trans hu)
    refine ⟨⟨?_, ?_, ?_⟩, fun _ _ => Machine.meets_of_mem ?_⟩
    · intro n stream hstream
      rw [hlocals n stream hstream]
      decide
    · rw [hcontrol]
      exact fun _ => nofun
    · rw [htasks]
      exact nofun
    · -- no packet comes after the replay
      intro e he s
      rcases List.mem_append.mp he with he | he
      · simp only [List.mem_cons, List.not_mem_nil, or_false] at he
        rcases he with rfl | rfl | rfl | rfl
        · trivial
        · exact fun _ _ _ _ _ => ⟨fun _ => nofun, nofun⟩
        · exact fun _ _ _ _ _ => ⟨fun _ => nofun, nofun⟩
        · exact fun _ _ _ _ _ => ⟨fun _ => nofun, nofun⟩
      · rw [List.eq_of_mem_replicate he]
        trivial

theorem replay_faithful_exchange : ∃ d stream,
    (dashboard parser false).run Dashboard.new (recorded ++ replayed) = some d ∧
    d.client.locals 1 = some stream ∧ stream.wormhole = 0 ∧
    stream.socket.written = request := by
  obtain ⟨d, stream, hd, hreplays, hstream, hreturned⟩ : ∃ d stream,
      (dashboard parser false).run Dashboard.new (recorded ++ replayed) = some d ∧
      d.replays 1 = some request ∧ d.client.locals 1 = some stream ∧
      stream.forwardToLocalTcp = .returned := ⟨_, _, rfl, rfl, rfl, rfl⟩
  obtain ⟨s, m, original, hs, -, -, hwormhole, -, hall⟩ :=
    replay_faithful parser false _ d freshIds_replayed hd 1 request hreplays
  obtain rfl := Option.some.inj (hstream.symm.trans hs)
  exact ⟨d, stream, hd, hstream, hwormhole, (hall hreturned).1⟩

end Recorded

end Neutun
