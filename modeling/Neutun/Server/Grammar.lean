/-
  Neutun/Server/Grammar.lean
  ==========================
  What the reader of a stream says to the client.

  `process_tcp_stream` announces the stream, passes on what it reads, and says
  good-bye at the end of the remote peer's data; it goes on reading after a send
  has failed.  A step of it is one of those of `ReaderStep`, and what it has
  tried to send so far is a function of where it is and of the chunks it has read
  (`Says`).  Since a closed channel stays closed, what got through is an initial
  part of that (`stream_grammar`).

  The way out after a failed read is the one that says nothing
  (`end_told_iff`).
-/
import Neutun.Server.Feed

namespace Neutun

open Foundation

/-! ### Logs of a sender -/

/-- Of the packets tried, those that the channel took. -/
def enqueued (log : List (ControlPacket × Bool)) : List ControlPacket :=
  (log.filter Prod.snd).map Prod.fst

/-- The data of a packet. -/
def ControlPacket.payload : ControlPacket → Bytes
  | Data _ data => data
  | _ => []

theorem enqueued_append (log log' : List (ControlPacket × Bool)) :
    enqueued (log ++ log') = enqueued log ++ enqueued log' := by
  simp [enqueued]

theorem mem_enqueued {log : List (ControlPacket × Bool)} {packet : ControlPacket} :
    packet ∈ enqueued log ↔ (packet, true) ∈ log := by
  simp [enqueued]

/-- Once a channel has refused a packet it takes no other. -/
def Yielding (log : List (ControlPacket × Bool)) : Prop :=
  log.Pairwise fun earlier later => later.2 = true → earlier.2 = true

theorem Yielding.enqueued_nil {log : List (ControlPacket × Bool)}
    (h : ∀ tried ∈ log, tried.2 = false) : enqueued log = [] := by
  unfold enqueued
  rw [List.filter_eq_nil_iff.mpr, List.map_nil]
  intro tried htried
  rw [h tried htried]
  exact Bool.false_ne_true

theorem Yielding.after_refused {before after : List (ControlPacket × Bool)}
    {packet : ControlPacket} (h : Yielding (before ++ (packet, false) :: after)) :
    enqueued after = [] := by
  obtain ⟨-, hlater, -⟩ := List.pairwise_append.mp h
  apply Yielding.enqueued_nil
  intro tried htried
  rw [← Bool.not_eq_true]
  intro htook
  exact Bool.false_ne_true ((List.pairwise_cons.mp hlater).1 tried htried htook)

/-- What got through is an initial part of what was tried. -/
theorem Yielding.isPrefix {log : List (ControlPacket × Bool)} (h : Yielding log) :
    enqueued log <+: log.map Prod.fst := by
  induction log with
  | nil => exact List.prefix_refl _
  | cons tried log ih =>
    obtain ⟨hfirst, hrest⟩ := List.pairwise_cons.mp h
    obtain ⟨packet, took⟩ := tried
    cases took with
    | true =>
      change packet :: enqueued log <+: packet :: log.map Prod.fst
      exact (List.prefix_cons_inj packet).mpr (ih hrest)
    | false =>
      have hnone : enqueued ((packet, false) :: log) = [] := by
        apply Yielding.enqueued_nil
        intro tried htried
        rcases List.mem_cons.mp htried with rfl | htried
        · rfl
        · rw [← Bool.not_eq_true]
          intro htook
          exact Bool.false_ne_true (hfirst tried htried htook)
      rw [hnone]
      exact List.nil_prefix

theorem enqueued_of_all {log : List (ControlPacket × Bool)} (h : ∀ tried ∈ log, tried.2 = true) :
    enqueued log = log.map Prod.fst := by
  rw [enqueued, List.filter_eq_self.mpr h]

namespace Server

variable (p : Platform) (cfg : Config)

/-! ### The steps of a reader -/

/-- The reader that takes the step. -/
def readerOf : ServerEvent → Option StreamId
  | .init id | .poll id | .read id _ => some id
  | _ => none

/-- The packet that the reader of a stream tries to send, and whether the channel
    takes it. -/
def tried (id : StreamId) (s : Server) (e : ServerEvent) : List (ControlPacket × Bool) :=
  if readerOf e = some id then
    (s.attempts p cfg e).toList.map fun sent => (sent.2, !(s.conns sent.1).tx.closed)
  else []

/-- What a step does to the reader of a stream. -/
inductive ReaderStep (s : Server) (id : StreamId) (e : ServerEvent) (stream stream' : Stream) :
    Prop where
  | other (hother : readerOf e ≠ some id)
      (hkept : stream'.processTcpStream = stream.processTcpStream)
  | init (he : e = .init id) (hstarting : stream.processTcpStream = .starting)
      (hpolling : stream'.processTcpStream = .polling)
  | poll (he : e = .poll id) (hpolling : stream.processTcpStream = .polling)
      (hreading : stream'.processTcpStream = .reading)
  | gone (he : e = .poll id) (hpolling : stream.processTcpStream = .polling)
      (hnone : s.connections.get stream.activeStream.client.id = none)
      (hreturned : stream'.processTcpStream = .returned)
  | failed (he : e = .read id .err) (hreading : stream.processTcpStream = .reading)
      (hreturned : stream'.processTcpStream = .returned)
  | eof (he : e = .read id (.ok [])) (hreading : stream.processTcpStream = .reading)
      (hreturned : stream'.processTcpStream = .returned)
  | chunk (data : Bytes) (he : e = .read id (.ok data)) (hdata : data ≠ [])
      (hreading : stream.processTcpStream = .reading)
      (hpolling : stream'.processTcpStream = .polling)

variable {p cfg} {s t : Server} {id : StreamId}

theorem readerOf_of_owner {e : ServerEvent} (h : ownerOf e ≠ some id) : readerOf e ≠ some id := by
  cases e with
  | init streamId => exact h
  | poll streamId => exact h
  | read streamId result => exact h
  | _ => exact nofun

theorem step_reader (hwf : s.WellFormed) {e : ServerEvent} (h : s.step p cfg e = some t)
    {stream : Stream} (hstream : s.streams id = some stream) :
    ∃ stream', t.streams id = some stream' ∧ stream'.activeStream = stream.activeStream ∧
      ReaderStep s id e stream stream' := by
  obtain ⟨stream', hstream', -, hchange⟩ := step_change hwf h hstream
  refine ⟨stream', hstream', ?_⟩
  cases hchange with
  | idle hother hnone => exact ⟨rfl, .other (readerOf_of_owner hother) rfl⟩
  | dispatch m hother hm =>
    refine ⟨rfl, .other (readerOf_of_owner ?_) rfl⟩
    rw [hother]
    exact nofun
  | init he hstarting => exact ⟨rfl, .init he hstarting rfl⟩
  | gone he hpolling hnone => exact ⟨rfl, .gone he hpolling hnone rfl⟩
  | poll he hpolling => exact ⟨rfl, .poll he hpolling rfl⟩
  | failed he hreading => exact ⟨rfl, .failed he hreading rfl⟩
  | eof he hreading => exact ⟨rfl, .eof he hreading rfl⟩
  | chunk data he hdata hreading => exact ⟨rfl, .chunk data he hdata hreading rfl⟩
  | turn result isDone he hturn hlisted =>
    obtain ⟨hactive, -, hreader⟩ := Stream.kept_turn hturn
    refine ⟨hactive, .other ?_ hreader⟩
    rw [he]
    exact nofun

/-- A channel that has been closed stays closed, once its connection is served. -/
theorem closed_step {e : ServerEvent} (h : s.step p cfg e = some t) {c : ConnectedClient}
    (hserved : s.Served c) (hclosed : (s.conns c.tx).tx.closed = true) :
    (t.conns c.tx).tx.closed = true := by
  rcases step_tx h c.tx with ⟨handshake, -, hannounced, -⟩ | hstep
  · obtain ⟨hs, hserving, -⟩ := hserved
    rw [hserving] at hannounced
    cases hannounced
  · exact hstep.closed hclosed

/-! ### What a reader tries to say -/

theorem tried_of_other {e : ServerEvent} (h : readerOf e ≠ some id) : s.tried p cfg id e = [] :=
  if_neg h

/-- A step of the reader that says something. -/
theorem tried_of_attempt {e : ServerEvent} {stream : Stream} {packet : ControlPacket}
    (hreader : readerOf e = some id)
    (hattempt : s.attempts p cfg e = some (stream.activeStream.client.tx, packet)) :
    s.tried p cfg id e =
      [(packet, !(s.conns stream.activeStream.client.tx).tx.closed)] := by
  rw [tried, if_pos hreader, hattempt]
  rfl

theorem tried_of_silent {e : ServerEvent} (h : s.attempts p cfg e = none) :
    s.tried p cfg id e = [] := by
  rw [tried, h]
  exact ite_self _

/-- A reader says something to the client of its stream, or nothing. -/
theorem attempts_of_reader {e : ServerEvent} (h : readerOf e = some id) :
    s.attempts p cfg e = none ∨ ∃ stream packet, s.streams id = some stream ∧
      s.attempts p cfg e = some (stream.activeStream.client.tx, packet) := by
  cases hstream : s.streams id with
  | none =>
    left
    unfold readerOf at h
    split at h
    · simp only [attempts, Option.some.inj h, hstream, Option.map_none]
    · rfl
    next sid result =>
      obtain rfl := Option.some.inj h
      rcases result with ⟨_ | ⟨byte, bytes⟩⟩ | _
      · simp only [attempts, hstream, Option.map_none]
      · simp only [attempts, hstream, Option.map_none]
      · rfl
    · cases h
  | some stream =>
    unfold readerOf at h
    split at h
    · right
      refine ⟨stream, .Init id, rfl, ?_⟩
      simp only [attempts, Option.some.inj h, hstream, Option.map_some]
    · exact Or.inl rfl
    next sid result =>
      obtain rfl := Option.some.inj h
      rcases result with ⟨_ | ⟨byte, bytes⟩⟩ | _
      · right
        refine ⟨stream, .End sid, rfl, ?_⟩
        simp only [attempts, hstream, Option.map_some]
      · right
        refine ⟨stream, .Data sid (byte :: bytes), rfl, ?_⟩
        simp only [attempts, hstream, Option.map_some]
      · exact Or.inl rfl
    · cases h

theorem tried_of_none {e : ServerEvent} (hnone : s.streams id = none) :
    s.tried p cfg id e = [] := by
  by_cases hreader : readerOf e = some id
  · rcases attempts_of_reader hreader with hattempt | ⟨stream, packet, hstream, -⟩
    · exact tried_of_silent hattempt
    · rw [hnone] at hstream
      cases hstream
  · exact tried_of_other hreader

theorem flag_of_tried {e : ServerEvent} {stream : Stream} (hstream : s.streams id = some stream) :
    ∀ x ∈ s.tried p cfg id e, x.2 = !(s.conns stream.activeStream.client.tx).tx.closed := by
  intro x hx
  by_cases hreader : readerOf e = some id
  · rcases attempts_of_reader hreader with hattempt | ⟨stream', packet, hstream', hattempt⟩
    · rw [tried_of_silent hattempt] at hx
      cases hx
    · obtain rfl : stream = stream' := Option.some.inj (hstream.symm.trans hstream')
      rw [tried_of_attempt hreader hattempt, List.mem_singleton] at hx
      rw [hx]
  · rw [tried_of_other hreader] at hx
    cases hx

/-! ### What a reader has said -/

/-- What it has tried to say, by where it is and what it has read. -/
def Spoken (id : StreamId) (chunks : List Bytes) (packets : List ControlPacket) :
    TcpReader → Prop
  | .starting => chunks = [] ∧ packets = []
  | .polling | .reading => packets = .Init id :: chunks.map (.Data id)
  | .returned => packets = .Init id :: chunks.map (.Data id) ∨
      packets = .Init id :: chunks.map (.Data id) ++ [.End id]

/-- The log of the reader of a stream, on a channel that is `closed` by now. -/
structure Says (id : StreamId) (stream : Stream) (closed : Bool)
    (log : List (ControlPacket × Bool)) : Prop where
  spoken : ∃ chunks : List Bytes, (∀ data ∈ chunks, data ≠ []) ∧
    Spoken id chunks (log.map Prod.fst) stream.processTcpStream
  yielding : Yielding log
  taken : closed = false → ∀ x ∈ log, x.2 = true

theorem says_new (activeStream : ActiveStream) (closed : Bool) :
    Says id (Stream.new activeStream) closed [] where
  spoken := ⟨[], nofun, rfl, rfl⟩
  yielding := List.Pairwise.nil
  taken _ := nofun

/-- More is tried on the same channel. -/
theorem Says.append {stream stream' : Stream} {closed closed' : Bool}
    {log out : List (ControlPacket × Bool)} (h : Says id stream closed log)
    (hclosed : closed = true → closed' = true) (hflag : ∀ x ∈ out, x.2 = !closed)
    (hspoken : ∃ chunks : List Bytes, (∀ data ∈ chunks, data ≠ []) ∧
      Spoken id chunks ((log ++ out).map Prod.fst) stream'.processTcpStream) :
    Says id stream' closed' (log ++ out) where
  spoken := hspoken
  yielding := by
    apply List.pairwise_append.mpr
    refine ⟨h.yielding, ?_, ?_⟩
    · apply List.pairwise_of_forall_mem_list
      intro x hx y hy htook
      rw [hflag x hx, ← hflag y hy]
      exact htook
    · intro x hx y hy htook
      rw [hflag y hy] at htook
      exact h.taken (by simpa using htook) x hx
  taken := by
    intro hopen x hx
    have hwas : closed = false := by
      rw [← Bool.not_eq_true]
      intro hc
      rw [hclosed hc] at hopen
      cases hopen
    rcases List.mem_append.mp hx with hx | hx
    · exact h.taken hwas x hx
    · rw [hflag x hx, hwas]
      rfl

/-- One step of the server, seen from one stream. -/
theorem Says.step {e : ServerEvent} {stream stream' : Stream} {closed' : Bool}
    {log : List (ControlPacket × Bool)} (hstream : s.streams id = some stream)
    (h : Says id stream (s.conns stream.activeStream.client.tx).tx.closed log)
    (hclosed : (s.conns stream.activeStream.client.tx).tx.closed = true → closed' = true)
    (hstep : ReaderStep s id e stream stream') :
    Says id stream' closed' (log ++ s.tried p cfg id e) := by
  refine h.append hclosed (flag_of_tried hstream) ?_
  obtain ⟨chunks, hchunks, hspoken⟩ := h.spoken
  rw [List.map_append]
  cases hstep with
  | other hother hkept =>
    refine ⟨chunks, hchunks, ?_⟩
    rw [tried_of_other hother, hkept, List.map_nil, List.append_nil]
    exact hspoken
  | init he hstarting hpolling =>
    subst he
    rw [hstarting] at hspoken
    obtain ⟨rfl, hnothing⟩ := hspoken
    have hattempt : s.attempts p cfg (.init id) =
        some (stream.activeStream.client.tx, .Init id) := by
      simp only [attempts, hstream, Option.map_some]
    refine ⟨[], ?_, ?_⟩
    · intro chunk hchunk
      cases hchunk
    · rw [tried_of_attempt rfl hattempt, hnothing, hpolling]
      rfl
  | poll he hpolling hreading =>
    subst he
    refine ⟨chunks, hchunks, ?_⟩
    rw [hpolling] at hspoken
    rw [tried_of_silent rfl, hreading, List.map_nil, List.append_nil]
    exact hspoken
  | gone he hpolling hnone hreturned =>
    subst he
    refine ⟨chunks, hchunks, ?_⟩
    rw [hpolling] at hspoken
    rw [tried_of_silent rfl, hreturned, List.map_nil, List.append_nil]
    exact Or.inl hspoken
  | failed he hreading hreturned =>
    subst he
    refine ⟨chunks, hchunks, ?_⟩
    rw [hreading] at hspoken
    rw [tried_of_silent rfl, hreturned, List.map_nil, List.append_nil]
    exact Or.inl hspoken
  | eof he hreading hreturned =>
    subst he
    have hattempt : s.attempts p cfg (.read id (.ok [])) =
        some (stream.activeStream.client.tx, .End id) := by
      simp only [attempts, hstream, Option.map_some]
    refine ⟨chunks, hchunks, ?_⟩
    rw [hreading] at hspoken
    rw [tried_of_attempt rfl hattempt, hreturned, show log.map Prod.fst = _ from hspoken]
    exact Or.inr rfl
  | chunk data he hdata hreading hpolling =>
    subst he
    have hattempt : s.attempts p cfg (.read id (.ok data)) =
        some (stream.activeStream.client.tx, .Data id data) := by
      cases data with
      | nil => exact absurd rfl hdata
      | cons byte bytes => simp only [attempts, hstream, Option.map_some]
    refine ⟨chunks ++ [data], ?_, ?_⟩
    · intro d hd
      rcases List.mem_append.mp hd with hd | hd
      · exact hchunks d hd
      · rw [List.mem_singleton.mp hd]
        exact hdata
    · rw [hreading] at hspoken
      rw [tried_of_attempt rfl hattempt, hpolling, show log.map Prod.fst = _ from hspoken]
      simp [Spoken]

/-- A reader that is at a read has not said good-bye. -/
theorem Says.end_not_said {stream : Stream} {closed : Bool} {log : List (ControlPacket × Bool)}
    (h : Says id stream closed log) (hreading : stream.processTcpStream = .reading) :
    .End id ∉ log.map Prod.fst := by
  obtain ⟨chunks, -, hspoken⟩ := h.spoken
  rw [hreading] at hspoken
  rw [show log.map Prod.fst = _ from hspoken]
  simp

/-- The log of the reader of a stream, once there is one. -/
structure Talks (id : StreamId) (s : Server) (log : List (ControlPacket × Bool)) : Prop where
  wellFormed : s.WellFormed
  absent : s.streams id = none → log = []
  stream : ∀ stream, s.streams id = some stream →
    Says id stream (s.conns stream.activeStream.client.tx).tx.closed log

theorem talks_step {e : ServerEvent} {log : List (ControlPacket × Bool)} (h : Talks id s log)
    (hstep : s.step p cfg e = some t) : Talks id t (log ++ s.tried p cfg id e) := by
  have hwf := h.wellFormed
  refine ⟨wellFormed_step hwf hstep, ?_, ?_⟩
  · intro hnone
    cases hstream : s.streams id with
    | none => rw [h.absent hstream, tried_of_none hstream, List.append_nil]
    | some stream =>
      obtain ⟨stream', hstream', -⟩ := step_reader hwf hstep hstream
      rw [hnone] at hstream'
      cases hstream'
  · intro stream' hstream'
    cases hstream : s.streams id with
    | some stream =>
      obtain ⟨stream'', heq, hactive, hreader⟩ := step_reader hwf hstep hstream
      obtain rfl : stream' = stream'' := Option.some.inj (hstream'.symm.trans heq)
      rw [hactive]
      have hserved : s.Served stream.activeStream.client :=
        (hwf.stream id stream.activeStream (congrArg (Option.map Stream.activeStream) hstream)).2
      exact (h.stream stream hstream).step hstream (closed_step hstep hserved) hreader
    | none =>
      rw [h.absent hstream, tried_of_none hstream, List.append_nil]
      obtain ⟨host, client, -, rfl, -⟩ := stream_appears hstep hstream hstream'
      exact says_new _ _

theorem talks_run {es : List ServerEvent} (hrun : (server p cfg).run Server.new es = some t) :
    Talks id t ((server p cfg).trace (tried p cfg id) Server.new es) := by
  apply Machine.run_trace (I := Talks id) ?_ ?_ (Machine.meets_true _ _) hrun
  · intro s e t log h _ hstep
    exact talks_step h hstep
  · exact ⟨wellFormed_new, fun _ => rfl, nofun⟩

/-- What is read is what is passed on, or tried to be. -/
theorem payload_tried {e : ServerEvent} (h : s.step p cfg e = some t) :
    (s.tried p cfg id e).flatMap (fun x => x.1.payload) = readFrom id e := by
  by_cases hreader : readerOf e = some id
  · cases e with
    | init sid =>
      obtain rfl : sid = id := Option.some.inj hreader
      obtain ⟨stream, hstream, -, -⟩ := init_cases h
      have hattempt : s.attempts p cfg (.init sid) =
          some (stream.activeStream.client.tx, .Init sid) := by
        simp only [attempts, hstream, Option.map_some]
      rw [tried_of_attempt rfl hattempt]
      rfl
    | poll sid =>
      rw [tried_of_silent rfl]
      rfl
    | read sid result =>
      obtain rfl : sid = id := Option.some.inj hreader
      obtain ⟨stream, hstream, -, -⟩ := read_cases h
      rcases result with ⟨_ | ⟨byte, bytes⟩⟩ | _
      · have hattempt : s.attempts p cfg (.read sid (.ok [])) =
            some (stream.activeStream.client.tx, .End sid) := by
          simp only [attempts, hstream, Option.map_some]
        rw [tried_of_attempt rfl hattempt]
        simp [readFrom, ControlPacket.payload]
      · have hattempt : s.attempts p cfg (.read sid (.ok (byte :: bytes))) =
            some (stream.activeStream.client.tx, .Data sid (byte :: bytes)) := by
          simp only [attempts, hstream, Option.map_some]
        rw [tried_of_attempt rfl hattempt]
        simp [readFrom, ControlPacket.payload]
      · rw [tried_of_silent rfl]
        rfl
    | _ => cases hreader
  · rw [tried_of_other hreader]
    cases e with
    | read sid result =>
      have hne : sid ≠ id := fun heq => hreader (congrArg some heq)
      cases result with
      | ok data => exact (if_neg hne).symm
      | err => rfl
    | _ => rfl

end Server

/-! ### The grammar -/

/-- The packets of one stream in the order of the protocol, perhaps cut short. -/
def Grammatical (id : StreamId) (packets : List ControlPacket) : Prop :=
  ∃ chunks : List Bytes, (∀ data ∈ chunks, data ≠ []) ∧
    packets <+: .Init id :: chunks.map (.Data id) ++ [.End id]

theorem Server.Spoken.grammatical {id : StreamId} {chunks : List Bytes}
    {packets : List ControlPacket} {reader : TcpReader}
    (h : Server.Spoken id chunks packets reader) :
    packets <+: .Init id :: chunks.map (.Data id) ++ [.End id] := by
  cases reader with
  | starting =>
    obtain ⟨-, rfl⟩ := h
    exact List.nil_prefix
  | polling =>
    rw [show packets = _ from h]
    exact List.prefix_append _ _
  | reading =>
    rw [show packets = _ from h]
    exact List.prefix_append _ _
  | returned =>
    rcases h with rfl | rfl
    · exact List.prefix_append _ _
    · exact List.prefix_refl _

/-- Also before there is a reader. -/
theorem Server.Talks.said {id : StreamId} {s : Server} {log : List (ControlPacket × Bool)}
    (h : Server.Talks id s log) : Grammatical id (log.map Prod.fst) ∧ Yielding log := by
  cases hstream : s.streams id with
  | none =>
    rw [h.absent hstream]
    exact ⟨⟨[], nofun, List.nil_prefix⟩, List.Pairwise.nil⟩
  | some stream =>
    obtain ⟨⟨chunks, hchunks, hspoken⟩, hyields, -⟩ := h.stream stream hstream
    exact ⟨⟨chunks, hchunks, hspoken.grammatical⟩, hyields⟩

/-- An `End` is what the reader says at the end of the remote peer's data. -/
theorem Server.eof_of_tried_end {p : Platform} {cfg : Config} {s : Server} {id : StreamId}
    {e : ServerEvent} {took : Bool} (h : (.End id, took) ∈ s.tried p cfg id e) :
    e = .read id (.ok []) := by
  unfold Server.tried at h
  split at h
  · obtain ⟨⟨n, packet⟩, hsent, heq⟩ := List.mem_map.mp h
    obtain rfl : packet = .End id := (Prod.mk.inj heq).1
    rcases Server.attempts_cases (Option.mem_toList.mp hsent) with ⟨token, hping⟩ |
      ⟨sid, stream, -, -, hinit | ⟨hend, he⟩ | ⟨data, hdata, -⟩⟩
    · cases hping
    · cases hinit
    · obtain rfl : id = sid := ControlPacket.End.inj hend
      exact he
    · cases hdata
  · cases h

/-- In every run, what the reader of a stream gets into the channel of the client
    is an initial part of `Init`, `Data` for each chunk, `End`; `End` only after
    the end of the remote peer's data.  The data are an initial part of what was
    read, and all of it as long as the channel is open.  After the first packet
    that the channel refuses it takes no other. -/
theorem stream_grammar (p : Platform) (cfg : Config) (es : List ServerEvent) (t : Server)
    (hrun : (server p cfg).run Server.new es = some t) (id : StreamId) :
    let log := (server p cfg).trace (Server.tried p cfg id) Server.new es
    let sent := enqueued log
    let received := es.flatMap (Server.readFrom id)
    Grammatical id sent ∧ (.End id ∈ sent → .read id (.ok []) ∈ es) ∧
      sent.flatMap ControlPacket.payload <+: received ∧
      (∀ stream, t.streams id = some stream →
        (t.conns stream.activeStream.client.tx).tx.closed = false →
        sent.flatMap ControlPacket.payload = received) ∧
      ∀ before packet after, log = before ++ (packet, false) :: after → enqueued after = [] := by
  intro log sent received
  have htalks : Server.Talks id t log := Server.talks_run hrun
  obtain ⟨⟨chunks, hchunks, hsaid⟩, hyields⟩ := htalks.said
  have hprefix : sent <+: log.map Prod.fst := hyields.isPrefix
  have hbytes : (log.map Prod.fst).flatMap ControlPacket.payload = received := by
    rw [List.flatMap_map]
    refine Machine.flatMap_trace (fun s e u hu => ?_) hrun
    exact Server.payload_tried (show s.step p cfg e = some u from hu)
  refine ⟨⟨chunks, hchunks, hprefix.trans hsaid⟩, ?_, ?_, ?_, ?_⟩
  · intro hend
    obtain ⟨e, he, s, htried⟩ := Machine.exists_of_mem_trace (mem_enqueued.mp hend)
    rw [← Server.eof_of_tried_end htried]
    exact he
  · rw [← hbytes]
    exact hprefix.flatMap _
  · intro stream hstream hopen
    have hall := (htalks.stream stream hstream).taken hopen
    rw [← hbytes, ← enqueued_of_all hall]
  · intro before packet after hlog
    rw [hlog] at hyields
    exact hyields.after_refused

namespace Grammar

open AnnouncedHost

/-- The client "a" of "b.co" is registered, and the remote peer has a stream to it. -/
def opened : List ServerEvent :=
  [.hello 0 (.V4 0) (some (some (hello "a".toList))) 0 ⟨['1']⟩ [], .greet 0 true, .register 0,
    .accept sampleStream "a.b.co".toList, .init sampleStream]

/-- The reader finds the client and reads. -/
def reads (result : ReadResult) : List ServerEvent :=
  [.poll sampleStream, .read sampleStream result]

end Grammar

open AnnouncedHost Grammar in
/-- The client's connection breaks between two chunks: the second one is read and
    goes nowhere. -/
theorem stream_grammar_broken :
    let es := opened ++ reads (.ok [1]) ++ .poll sampleStream :: .message 0 .done ::
      [.read sampleStream (.ok [2])]
    let log := (server Platform.ascii config).trace
      (Server.tried Platform.ascii config sampleStream) Server.new es
    log = [(.Init sampleStream, true), (.Data sampleStream [1], true),
        (.Data sampleStream [2], false)] ∧
      (enqueued log).flatMap ControlPacket.payload <+: [1, 2] := by
  intro es log
  have hgrammar := stream_grammar Platform.ascii config es _ rfl sampleStream
  exact ⟨rfl, hgrammar.2.2.1⟩

/-! ### The end of a stream -/

/-- When the reader of a stream returns while its client is registered and its
    channel open, the client has been sent an `End`, unless the reader returns
    after a failed read. -/
theorem end_told_iff (p : Platform) (cfg : Config) (es : List ServerEvent) (e : ServerEvent)
    (s t : Server) (id : StreamId) (stream stream' : Stream)
    (hrun : (server p cfg).run Server.new es = some s) (hstep : s.step p cfg e = some t)
    (hstream : s.streams id = some stream) (hstream' : t.streams id = some stream')
    (hruns : stream.processTcpStream ≠ .returned)
    (hreturns : stream'.processTcpStream = .returned)
    (hregistered : s.connections.get stream.activeStream.client.id ≠ none)
    (hopen : (s.conns stream.activeStream.client.tx).tx.closed = false) :
    .End id ∈ enqueued ((server p cfg).trace (Server.tried p cfg id) Server.new (es ++ [e])) ↔
      e ≠ .read id .err := by
  have htalks : Server.Talks id s ((server p cfg).trace (Server.tried p cfg id) Server.new es) :=
    Server.talks_run hrun
  obtain ⟨stream'', heq, -, hreader⟩ := Server.step_reader htalks.wellFormed hstep hstream
  obtain rfl : stream' = stream'' := Option.some.inj (hstream'.symm.trans heq)
  have hlast : (server p cfg).trace (Server.tried p cfg id) s [e] = s.tried p cfg id e := by
    rw [Machine.trace_cons hstep, Machine.trace, List.append_nil]
  rw [Machine.trace_append hrun, hlast, enqueued_append, List.mem_append]
  have hsays := htalks.stream stream hstream
  cases hreader with
  | other _ hkept =>
    rw [hkept] at hreturns
    exact absurd hreturns hruns
  | init _ _ hpolling =>
    rw [hpolling] at hreturns
    cases hreturns
  | poll _ _ hreading =>
    rw [hreading] at hreturns
    cases hreturns
  | chunk data _ _ _ hpolling =>
    rw [hpolling] at hreturns
    cases hreturns
  | gone _ _ hnone _ => exact absurd hnone hregistered
  | failed he hreading _ =>
    subst he
    have hbefore : .End id ∉
        enqueued ((server p cfg).trace (Server.tried p cfg id) Server.new es) := by
      intro hend
      exact hsays.end_not_said hreading (List.mem_map_of_mem (mem_enqueued.mp hend))
    rw [Server.tried_of_silent rfl]
    constructor
    · rintro (hend | hend)
      · exact absurd hend hbefore
      · cases hend
    · exact fun hne => absurd rfl hne
  | eof he _ _ =>
    subst he
    have hattempt : s.attempts p cfg (.read id (.ok [])) =
        some (stream.activeStream.client.tx, .End id) := by
      simp only [Server.attempts, hstream, Option.map_some]
    constructor
    · intro _ hfailed
      injection hfailed with _ hdata
      cases hdata
    · intro _
      right
      rw [mem_enqueued, Server.tried_of_attempt rfl hattempt, hopen]
      exact List.mem_singleton_self _

open AnnouncedHost Grammar in
/-- The remote peer closes its side after one chunk, and the client is told. -/
theorem end_told_iff_closed : ∃ s,
    (server Platform.ascii config).run Server.new
        (opened ++ reads (.ok [1]) ++ [.poll sampleStream]) = some s ∧
      .End sampleStream ∈ enqueued ((server Platform.ascii config).trace
        (Server.tried Platform.ascii config sampleStream) Server.new
        (opened ++ reads (.ok [1]) ++ [.poll sampleStream] ++
          [.read sampleStream (.ok [])])) := by
  refine ⟨_, rfl, (end_told_iff Platform.ascii config _ (.read sampleStream (.ok [])) _ _
    sampleStream _ _ rfl rfl rfl rfl ?_ rfl ?_ rfl).mpr nofun⟩
  · exact nofun
  · exact nofun

open AnnouncedHost Grammar in
/-- The remote peer resets the connection after one chunk: the client is still
    registered, its channel open, and it is never told. -/
theorem end_not_told : ∃ t stream,
    (server Platform.ascii config).run Server.new
        (opened ++ reads (.ok [1]) ++ reads .err) = some t ∧
      t.streams sampleStream = some stream ∧ stream.processTcpStream = .returned ∧
      t.connections.get stream.activeStream.client.id = some stream.activeStream.client ∧
      (t.conns stream.activeStream.client.tx).tx.closed = false ∧
      enqueued ((server Platform.ascii config).trace
          (Server.tried Platform.ascii config sampleStream) Server.new
          (opened ++ reads (.ok [1]) ++ reads .err)) =
        [.Init sampleStream, .Data sampleStream [1]] := by
  refine ⟨_, _, rfl, rfl, rfl, rfl, rfl, rfl⟩

end Neutun
