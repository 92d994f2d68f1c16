/-
  Neutun/Server/StreamTable.lean
  ==============================
  When a stream leaves `ACTIVE_STREAMS`.

  The entry of a stream holds a sender of its queue, so the queue does not close
  by itself when `process_tcp_stream` returns; and of the ways out of the loop of
  `neutun_stream`, the one after a failed write does not remove the entry.  An
  entry goes exactly when the loop takes a message that ends the stream
  (`Ending`): a refusal, or the one that `process_tcp_stream` sends when it finds
  the client gone.
-/
import Neutun.Server.Delivery

namespace Neutun

open Foundation

/-- What happens to a stream on its way to its end. -/
inductive Mark where
  /-- a write of data to the remote socket fails -/
  | failed
  /-- a refusal is dispatched to the stream -/
  | refused
  /-- `process_tcp_stream` finds the client gone -/
  | gone
  /-- the client is sent an `End` and receives it -/
  | told
deriving DecidableEq

/-- A turn of the loop fails to write data. -/
def Stream.failsWrite (stream : Stream) : WriteResult → Bool
  | .ok => false
  | .err _ => stream.queue.queue.head?.any StreamMessage.isData

namespace Server

variable {p : Platform} {cfg : Config} {s t : Server} {id : StreamId}

def failsWrite (id : StreamId) (s : Server) : ServerEvent → Bool
  | .write streamId result => decide (streamId = id) &&
      (s.streams id).any fun stream => stream.failsWrite result
  | _ => false

/-- A refusal is dispatched to the stream while the table has it. -/
def refuses (id : StreamId) (s : Server) (e : ServerEvent) : Bool :=
  (s.activeStreams.lookup id).isSome && (dispatched id e).contains .TunnelRefused

def findsGone (id : StreamId) (s : Server) : ServerEvent → Bool
  | .poll streamId => decide (streamId = id) && (s.streams id).any fun stream =>
      (s.connections.get stream.activeStream.client.id).isNone
  | _ => false

def marks (id : StreamId) (s : Server) (e : ServerEvent) : List Mark :=
  (if s.failsWrite id e then [.failed] else []) ++ (if s.refuses id e then [.refused] else []) ++
    if s.findsGone id e then [.gone] else []

theorem gone_mem_marks {e : ServerEvent} : .gone ∈ s.marks id e ↔ s.findsGone id e := by
  unfold marks
  cases s.failsWrite id e <;> cases s.refuses id e <;> cases s.findsGone id e <;> decide

/-- That the client has been told is not for the server to know. -/
theorem told_not_mem_marks {e : ServerEvent} : .told ∉ s.marks id e := by
  unfold marks
  cases s.failsWrite id e <;> cases s.refuses id e <;> cases s.findsGone id e <;> decide

/-- A message that ends the stream has been sent to it. -/
def EndSent (log : List Mark) : Prop := .refused ∈ log ∨ .gone ∈ log

/-- How a stream and its entry stand to what has happened. -/
structure StreamEnding (listed : Bool) (stream : Stream) (log : List Mark) : Prop where
  /-- the loop runs: the entry is there, and what ends the stream is still queued -/
  running : stream.neutunStream = true → listed = true ∧ .failed ∉ log ∧
    (EndSent log ↔ ∃ m ∈ stream.queue.queue, m.isData = false) ∧
    (stream.queue.closed = true → .gone ∈ log)
  /-- the loop has returned: the entry is there if it was a failed write -/
  returned : stream.neutunStream = false →
    (listed = true ↔ .failed ∈ log) ∧ (.failed ∉ log → EndSent log)
  /-- the reader looks for the client until it has returned -/
  reader : .gone ∈ log → stream.processTcpStream = .returned

structure Ending (id : StreamId) (s : Server) (log : List Mark) : Prop where
  absent : s.streams id = none → .failed ∉ log ∧ .refused ∉ log ∧ .gone ∉ log
  stream : ∀ stream, s.streams id = some stream →
    StreamEnding (s.activeStreams.lookup id).isSome stream log

theorem streamEnding_new (activeStream : ActiveStream) {log : List Mark}
    (hlog : .failed ∉ log ∧ .refused ∉ log ∧ .gone ∉ log) :
    StreamEnding true (Stream.new activeStream) log where
  running _ := ⟨rfl, hlog.1, by simp [EndSent, hlog.2, Stream.new, Channel.fresh], nofun⟩
  returned h := nomatch h
  reader h := absurd h hlog.2.2

/-- Nothing has happened, and what matters of the stream is as before. -/
theorem StreamEnding.of_eq {listed : Bool} {stream stream' : Stream} {log : List Mark}
    (h : StreamEnding listed stream log) (hqueue : stream'.queue = stream.queue)
    (hrunning : stream'.neutunStream = stream.neutunStream)
    (hreader : stream.processTcpStream = .returned → stream'.processTcpStream = .returned) :
    StreamEnding listed stream' log where
  running := by
    rw [hqueue, hrunning]
    exact h.running
  returned := by
    rw [hrunning]
    exact h.returned
  reader hgone := hreader (h.reader hgone)

theorem endSent_append {log log' : List Mark} :
    EndSent (log ++ log') ↔ EndSent log ∨ EndSent log' := by
  simp only [EndSent, List.mem_append]
  tauto

/-- A message is sent to the queue of a stream that the table has. -/
theorem StreamEnding.send {stream : Stream} {log : List Mark} (h : StreamEnding true stream log)
    (m : StreamMessage) {marks : List Mark} (hfailed : .failed ∉ marks) (hgone : .gone ∉ marks)
    (hmarks : EndSent marks ↔ m.isData = false) :
    StreamEnding true { stream with queue := stream.queue.sendOrDrop m } (log ++ marks) where
  running hrunning := by
    obtain ⟨-, hnot, hend, hclosed⟩ := h.running hrunning
    refine ⟨rfl, by simp [hnot, hfailed], ?_, ?_⟩
    · rw [endSent_append, hmarks, hend, Channel.sendOrDrop_queue]
      cases hq : stream.queue.closed with
      | false => simp [or_and_right, exists_or]
      | true =>
        -- the queue is closed with the message of `process_tcp_stream` on it
        have hold := hend.mp (Or.inr (hclosed hq))
        simp only [if_true, iff_def, or_imp]
        exact ⟨⟨id, fun _ => hold⟩, fun hm => Or.inl hm⟩
    · rw [Channel.sendOrDrop_closed]
      intro hq
      exact List.mem_append_left _ (hclosed hq)
  returned hreturned := by
    obtain ⟨hlisted, hend⟩ := h.returned hreturned
    rw [endSent_append, List.mem_append]
    exact ⟨⟨fun _ => Or.inl (hlisted.mp rfl), fun _ => rfl⟩,
      fun hnot => Or.inl (hend fun hmem => hnot (Or.inl hmem))⟩
  reader hmem := by
    rw [List.mem_append] at hmem
    exact h.reader (hmem.resolve_right hgone)

/-- `process_tcp_stream` finds the client gone. -/
theorem StreamEnding.poll_gone {listed : Bool} {stream : Stream} {log : List Mark}
    (h : StreamEnding listed stream log) (hpolling : stream.processTcpStream = .polling) :
    StreamEnding listed { stream with
      queue := (stream.queue.sendOrDrop .NoClientTunnel).close
      processTcpStream := .returned } (log ++ [.gone]) where
  running hrunning := by
    obtain ⟨hlisted, hnot, -, hclosed⟩ := h.running hrunning
    have hopen : stream.queue.closed = false := by
      rw [← Bool.not_eq_true]
      intro hq
      have hreturned := h.reader (hclosed hq)
      rw [hpolling] at hreturned
      cases hreturned
    refine ⟨hlisted, by simp [hnot], ?_, fun _ => by simp⟩
    have hqueue : (stream.queue.sendOrDrop StreamMessage.NoClientTunnel).close.queue =
        stream.queue.queue ++ [.NoClientTunnel] := by
      change (stream.queue.sendOrDrop StreamMessage.NoClientTunnel).queue = _
      rw [Channel.sendOrDrop_queue, hopen]
      rfl
    rw [hqueue, endSent_append]
    exact ⟨fun _ => ⟨.NoClientTunnel, by simp, rfl⟩, fun _ => Or.inr (Or.inr (by simp))⟩
  returned hreturned := by
    obtain ⟨hlisted, hend⟩ := h.returned hreturned
    exact ⟨by simp [hlisted], fun _ => endSent_append.mpr (Or.inr (Or.inr (by simp)))⟩
  reader _ := rfl

/-- One turn of `neutun_stream`. -/
theorem StreamEnding.turn {listed : Bool} {stream stream' : Stream} {log : List Mark}
    {result : WriteResult} {isDone : Bool} (h : StreamEnding listed stream log)
    (hturn : stream.turn result = some (stream', isDone)) :
    StreamEnding (!isDone && listed) stream'
      (log ++ if stream.failsWrite result then [.failed] else []) := by
  obtain ⟨hrunning, hcases⟩ := Stream.turn_cases hturn
  obtain ⟨hlisted, hnot, hend, hclosed⟩ := h.running hrunning
  -- the message that ends the stream is taken: the entry goes
  have hdone : ∀ m rest response, stream.queue.queue = m :: rest → m.isData = false →
      StreamEnding (!true && listed) (stream.done response)
        (log ++ if stream.failsWrite result then [.failed] else []) := by
    intro m rest response hqueue hm
    have hfails : stream.failsWrite result = false := by
      cases result <;> simp [Stream.failsWrite, hqueue, hm]
    rw [hfails]
    simp only [Bool.false_eq_true, if_false, List.append_nil]
    refine ⟨nofun, fun _ => ⟨by simp [hnot], fun _ => hend.mpr ⟨m, by simp [hqueue], hm⟩⟩, h.reader⟩
  rcases hcases with ⟨data, rest, hqueue, rfl, ⟨rfl, rfl⟩ | ⟨⟨n, rfl⟩, rfl⟩⟩ |
    ⟨rest, hqueue, rfl, rfl⟩ | ⟨rest, hqueue, rfl, rfl⟩ | ⟨hqueue, hdown, -⟩
  · simp only [Stream.failsWrite, Bool.false_eq_true, if_false, List.append_nil]
    refine ⟨fun _ => ⟨by simp [hlisted], hnot, ?_, hclosed⟩, ?_, h.reader⟩
    · rw [hend, hqueue]
      simp [StreamMessage.isData]
    · intro hreturned
      rw [hrunning] at hreturned
      cases hreturned
  · simp only [Stream.failsWrite, hqueue, List.head?_cons, Option.any_some, StreamMessage.isData,
      if_true]
    refine ⟨nofun, fun _ => ⟨by simp [hlisted], fun hmem => absurd (by simp) hmem⟩, ?_⟩
    intro hgone
    exact h.reader (by simpa using hgone)
  · exact hdone _ rest _ hqueue rfl
  · exact hdone _ rest _ hqueue rfl
  · -- a queue that is closed and empty has had the message on it
    obtain ⟨m, hm, -⟩ := hend.mp (Or.inr (hclosed hdown))
    rw [hqueue] at hm
    cases hm

/-- A reader that has returned takes no part any more. -/
theorem returned_step (hwf : s.WellFormed) {e : ServerEvent} (h : s.step p cfg e = some t)
    {stream stream' : Stream} (hstream : s.streams id = some stream)
    (hstream' : t.streams id = some stream') (hreturned : stream.processTcpStream = .returned) :
    stream'.processTcpStream = .returned := by
  obtain ⟨stream'', heq, -, hchange⟩ := step_change hwf h hstream
  obtain rfl : stream' = stream'' := Option.some.inj (hstream'.symm.trans heq)
  cases hchange with
  | idle hother hnone => exact hreturned
  | dispatch m hother hm => exact hreturned
  | turn result isDone he hturn hlisted => exact (Stream.kept_turn hturn).2.2.trans hreturned
  | init he hstarting => cases hreturned.symm.trans hstarting
  | gone he hpolling hnone => rfl
  | poll he hpolling => cases hreturned.symm.trans hpolling
  | failed he hreading => rfl
  | eof he hreading => rfl
  | chunk data he hdata hreading => cases hreturned.symm.trans hreading

/-- Only the steps on the stream itself and the messages for it leave a mark. -/
theorem marks_eq_nil {e : ServerEvent} (hdispatched : dispatched id e = [])
    (hpoll : e ≠ .poll id) (hwrite : ∀ result, e ≠ .write id result) : s.marks id e = [] := by
  have hfails : s.failsWrite id e = false := by
    cases e with
    | write sid result =>
      have hne : sid ≠ id := fun heq => hwrite result (heq ▸ rfl)
      simp [failsWrite, hne]
    | _ => rfl
  have hgone : s.findsGone id e = false := by
    cases e with
    | poll sid =>
      have hne : sid ≠ id := fun heq => hpoll (heq ▸ rfl)
      simp [findsGone, hne]
    | _ => rfl
  simp [marks, hfails, hgone, refuses, hdispatched]

theorem marks_absent (hwf : s.WellFormed) (hnone : s.streams id = none) (e : ServerEvent) :
    s.marks id e = [] := by
  have hunlisted : s.activeStreams.lookup id = none := by
    rw [Option.eq_none_iff_forall_ne_some]
    intro activeStream hactive
    have hsome := hwf.active id activeStream hactive
    rw [activeStreamOf, hnone] at hsome
    cases hsome
  have hfails : s.failsWrite id e = false := by
    unfold failsWrite
    split <;> simp [hnone]
  have hgone : s.findsGone id e = false := by
    unfold findsGone
    split <;> simp [hnone]
  simp [marks, hfails, hgone, refuses, hunlisted]

/-- The step that makes the stream, and those before it. -/
theorem ending_absent (hwf : s.WellFormed) {e : ServerEvent} (h : s.step p cfg e = some t)
    (hnone : s.streams id = none) {log : List Mark}
    (hlog : .failed ∉ log ∧ .refused ∉ log ∧ .gone ∉ log) :
    Ending id t (log ++ s.marks id e) := by
  rw [marks_absent hwf hnone, List.append_nil]
  refine ⟨fun _ => hlog, ?_⟩
  intro stream hstream
  obtain ⟨host, client, -, rfl, hlisted, -⟩ := stream_appears h hnone hstream
  rw [hlisted]
  exact streamEnding_new _ hlog

/-- A refusal is the only message of a client's that ends a stream. -/
theorem refused_iff {e : ServerEvent} {m : StreamMessage} (hm : dispatched id e = [m]) :
    (dispatched id e).contains .TunnelRefused = true ↔ m.isData = false := by
  have hclient := dispatched_fromClient id e
  rw [hm] at hclient ⊢
  cases m with
  | NoClientTunnel => exact absurd (List.mem_singleton.mpr rfl) hclient
  | _ => simp [StreamMessage.isData]

theorem ending_poll {log : List Mark} (h : s.poll id = some t) {stream : Stream}
    (hstream : s.streams id = some stream)
    (hs : StreamEnding (s.activeStreams.lookup id).isSome stream log) :
    ∃ stream', t.streams id = some stream' ∧
      StreamEnding (t.activeStreams.lookup id).isSome stream' (log ++ s.marks id (.poll id)) := by
  obtain ⟨old, hold, hpolling, hgone⟩ := poll_cases h
  obtain rfl := Option.some.inj (hold.symm.trans hstream)
  rcases hgone with ⟨hnone, rfl⟩ | ⟨hsome, rfl⟩
  · refine ⟨_, (streams_setStream _ _ _ _).trans (if_pos rfl), ?_⟩
    have hmarks : s.marks id (.poll id) = [.gone] := by
      simp [marks, failsWrite, refuses, dispatched, findsGone, hstream, hnone]
    rw [hmarks]
    exact hs.poll_gone hpolling
  · refine ⟨_, (streams_setStream _ _ _ _).trans (if_pos rfl), ?_⟩
    have hmarks : s.marks id (.poll id) = [] := by
      simp [marks, failsWrite, refuses, dispatched, findsGone, hstream, hsome]
    rw [hmarks, List.append_nil]
    refine hs.of_eq rfl rfl fun hreturned => ?_
    rw [hpolling] at hreturned
    cases hreturned

theorem ending_write {result : WriteResult} {log : List Mark} (h : s.write id result = some t)
    {stream : Stream} (hstream : s.streams id = some stream)
    (hs : StreamEnding (s.activeStreams.lookup id).isSome stream log) :
    ∃ stream', t.streams id = some stream' ∧ StreamEnding (t.activeStreams.lookup id).isSome
      stream' (log ++ s.marks id (.write id result)) := by
  obtain ⟨old, stream', isDone, hold, hturn, ht⟩ := write_cases h
  obtain rfl := Option.some.inj (hold.symm.trans hstream)
  have hmarks : s.marks id (.write id result) =
      if old.failsWrite result then [.failed] else [] := by
    simp [marks, failsWrite, refuses, dispatched, findsGone, hstream]
  have hset : t.streams id = some stream' := by
    rw [ht]
    cases isDone <;> exact (streams_setStream _ _ _ _).trans (if_pos rfl)
  have hlisted : (t.activeStreams.lookup id).isSome =
      (!isDone && (s.activeStreams.lookup id).isSome) := by
    rw [ht]
    cases isDone with
    | false => rfl
    | true => exact congrArg Option.isSome ((Table.lookup_erase_ite _ _ _).trans (if_pos rfl))
  rw [hmarks, hlisted]
  exact ⟨stream', hset, hs.turn hturn⟩

theorem ending_dispatch {e : ServerEvent} {m : StreamMessage} {log : List Mark} {stream : Stream}
    (hm : dispatched id e = [m])
    (hs : StreamEnding (s.activeStreams.lookup id).isSome stream log) :
    StreamEnding (s.activeStreams.lookup id).isSome { stream with
      queue := if (s.activeStreams.lookup id).isSome then stream.queue.sendOrDrop m
        else stream.queue } (log ++ s.marks id e) := by
  have hmarks : s.marks id e = if s.refuses id e then [.refused] else [] := by
    cases e with
    | message n result => simp [marks, failsWrite, findsGone]
    | _ => cases hm
  rw [hmarks]
  unfold refuses
  cases hlisted : (s.activeStreams.lookup id).isSome with
  | false =>
    rw [hlisted] at hs
    simp only [Bool.false_and, Bool.false_eq_true, if_false, List.append_nil]
    exact hs
  | true =>
    rw [hlisted] at hs
    simp only [Bool.true_and, if_true]
    refine hs.send m ?_ ?_ ?_
    · split <;> simp
    · split <;> simp
    · rw [← refused_iff hm]
      unfold EndSent
      split <;> simp_all

/-- Every step keeps the stream, its entry and what has happened in line. -/
theorem ending_step (hwf : s.WellFormed) {e : ServerEvent} (h : s.step p cfg e = some t)
    {log : List Mark} (hs : Ending id s log) : Ending id t (log ++ s.marks id e) := by
  cases hstream : s.streams id with
  | none => exact ending_absent hwf h hstream (hs.absent hstream)
  | some stream =>
    have hending := hs.stream stream hstream
    have hkept : ∃ stream', t.streams id = some stream' ∧ StreamEnding
        (t.activeStreams.lookup id).isSome stream' (log ++ s.marks id e) := by
      by_cases hpoll : e = .poll id
      · subst hpoll
        exact ending_poll h hstream hending
      by_cases hwrite : ∃ result, e = .write id result
      · obtain ⟨result, rfl⟩ := hwrite
        exact ending_write h hstream hending
      obtain ⟨stream', hstream', hstep⟩ := step_stream hwf h hstream
      refine ⟨stream', hstream', ?_⟩
      cases hstep with
      | quiet hnone hkept =>
        rw [marks_eq_nil hnone hpoll fun result heq => hwrite ⟨result, heq⟩, List.append_nil,
          hkept.listed]
        exact hending.of_eq hkept.queue hkept.neutunStream
          (returned_step hwf h hstream hstream')
      | dispatch m hm hlisted hqueue =>
        rw [hlisted, hqueue]
        exact ending_dispatch hm hending
      | disconnect hnow => exact absurd hnow hpoll
      | turn result isDone hnow => exact absurd ⟨result, hnow⟩ hwrite
    obtain ⟨stream', hstream', hending'⟩ := hkept
    refine ⟨fun hnone => absurd (hstream'.symm.trans hnone) nofun, ?_⟩
    intro u hu
    obtain rfl := Option.some.inj (hu.symm.trans hstream')
    exact hending'

end Server

end Neutun
