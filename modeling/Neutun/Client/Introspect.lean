/-
  Neutun/Client/Introspect.lean
  =============================
  The dashboard of the client (`introspect/mod.rs`) beside the tasks it listens to.

  `setup_new_stream` makes two more channels for each local connection.
  `forward_to_local_tcp` and `process_local_tcp` put a copy of what they have
  passed on into them, and `collect_stream` reads first the one and then the other
  to its end before it parses the request and stores a record of it.
  `replay_request` opens a local connection of its own, whose reader sends to a
  tunnel that nobody listens to; it is number 0 here, a wormhole's are 1 and up.

  `httparse` is a parameter.  The number of a local connection stands for the
  `Uuid` of its record.
-/
import Neutun.Client.Tunnels

namespace Neutun

open Foundation

/-! ### Records -/

namespace Introspect

abbrev NaiveDateTime := Int

/-- What `httparse::Request` holds after a complete parse. -/
structure RequestHead where
  path : Option Text
  method : Option Text
  headers : List (Text × Bytes)

/-- What `httparse::Response` holds, however far the parse came. -/
structure ResponseHead where
  code : Option Nat
  headers : List (Text × Bytes)

/-- The two parsers; a complete parse says how many bytes the head takes. -/
structure Httparse where
  parseRequest : Bytes → Option (Nat × RequestHead)
  parseResponse : Bytes → Option Nat × ResponseHead
  parseRequest_le : ∀ bytes len head, parseRequest bytes = some (len, head) → len ≤ bytes.length
  parseResponse_le : ∀ bytes len head, parseResponse bytes = (some len, head) → len ≤ bytes.length

structure Request where
  id : Nat
  status : Nat
  isReplay : Bool
  path : Option Text
  method : Option Text
  headers : List (Text × Text)
  bodyData : Bytes
  responseHeaders : List (Text × Text)
  responseData : Bytes
  started : NaiveDateTime
  completed : NaiveDateTime
  entireRequest : Bytes

/-- The headers that are not `EMPTY_HEADER`, as text. -/
def storedHeaders (headers : List (Text × Bytes)) : List (Text × Text) :=
  (headers.filter fun h => !(h.1.isEmpty && h.2.isEmpty)).map fun h =>
    (h.1, (fromUtf8 h.2).getD "???".toList)

/-- What `collect_stream` stores of what it has collected; nothing if the request is
    incomplete. -/
def Request.of (p : Httparse) (id : Nat) (started completed : NaiveDateTime)
    (collectedRequest collectedResponse : Bytes) : Option Request :=
  (p.parseRequest collectedRequest).map fun (partsLen, request) =>
    let (responseLen, response) := p.parseResponse collectedResponse
    { id := id
      path := request.path
      method := request.method
      headers := storedHeaders request.headers
      bodyData := collectedRequest.drop partsLen
      status := response.code.getD 0
      responseHeaders := storedHeaders response.headers
      responseData := collectedResponse.drop (responseLen.getD 0)
      started := started
      completed := completed
      isReplay := false
      entireRequest := collectedRequest }

/-- What a record says about the request, whatever the response was. -/
theorem Request.of_request {p : Httparse} {id : Nat} {started completed : NaiveDateTime}
    {collectedRequest collectedResponse : Bytes} {r : Request}
    (h : Request.of p id started completed collectedRequest collectedResponse = some r) :
    r.entireRequest = collectedRequest ∧ ∃ partsLen request,
      p.parseRequest collectedRequest = some (partsLen, request) ∧ r.method = request.method ∧
        r.path = request.path ∧ r.headers = storedHeaders request.headers ∧
        r.bodyData = collectedRequest.drop partsLen := by
  obtain ⟨⟨partsLen, request⟩, hparse, rfl⟩ := Option.map_eq_some_iff.mp h
  exact ⟨rfl, partsLen, request, hparse, rfl, rfl, rfl, rfl⟩

/-- Where a `collect_stream` is, with what it has collected. -/
inductive Collector where
  | spawned
  | request (started : NaiveDateTime) (collectedRequest : Bytes)
  | response (started : NaiveDateTime) (collectedRequest collectedResponse : Bytes)
  | returned (started completed : NaiveDateTime) (collectedRequest collectedResponse : Bytes)

namespace Collector

def collectedRequest : Collector → Bytes
  | spawned => []
  | request _ collected | response _ collected _ | returned _ _ collected _ => collected

def collectedResponse : Collector → Bytes
  | spawned | request _ _ => []
  | response _ _ collected | returned _ _ _ collected => collected

/-- It has seen the end of the request. -/
def pastRequest : Collector → Bool
  | spawned | request _ _ => false
  | response .. | returned .. => true

def done : Collector → Bool
  | spawned | request _ _ | response .. => false
  | returned .. => true

/-- The record it has stored. -/
def record (p : Httparse) (id : Nat) : Collector → Option Request
  | returned started completed collectedRequest collectedResponse =>
    Request.of p id started completed collectedRequest collectedResponse
  | _ => none

end Collector

end Introspect

/-! ### What the tasks put into the channels -/

namespace Client

/-- `introspect.send` in `forward_to_local_tcp`: a chunk that has been written. -/
def introspectRequest (c : Client) : ClientEvent → Option (Nat × Bytes)
  | .writeLocal n .ok =>
    match c.locals n with
    | some stream =>
      match stream.forwardToLocalTcp, stream.queue.queue with
      | .running, .Data data :: _ => some (n, data)
      | _, _ => none
    | none => none
  | _ => none

/-- `introspect.send` in `process_local_tcp`: a chunk that has been read and sent to
    the tunnel. -/
def introspectResponse (c : Client) : ClientEvent → Option (Nat × Bytes)
  | .readLocal n (.ok data) =>
    match c.locals n with
    | some stream =>
      match stream.processLocalTcp with
      | .reading =>
        if data.isEmpty || (c.tunnels stream.wormhole).channel.closed then none
        else some (n, data)
      | _ => none
    | none => none
  | _ => none

end Client

open Introspect

/-- The client with its dashboard.  `replays` has what `replay_request` is about to
    send, or has sent, to a local connection it has made. -/
structure Dashboard where
  client : Client
  request : Nat → List Bytes
  response : Nat → List Bytes
  collectStream : Nat → Collector
  requests : Table Nat Request
  replays : Nat → Option Bytes

namespace Dashboard

def new : Dashboard := ⟨Client.new, fun _ => [], fun _ => [], fun _ => .spawned, ∅, fun _ => none⟩

/-- One more chunk in one of the channels. -/
def note (channels : Nat → List Bytes) : Option (Nat × Bytes) → Nat → List Bytes
  | some (n, data) => Function.update channels n (channels n ++ [data])
  | none => channels

/-- A step of the client, and what its tasks put into the channels. -/
def tunnel (useTls : Bool) (d : Dashboard) (e : ClientEvent) : Option Dashboard :=
  (d.client.step useTls e).map fun client => { d with
    client := client
    request := note d.request (d.client.introspectRequest e)
    response := note d.response (d.client.introspectResponse e) }

/-! ### `collect_stream` -/

def setCollector (d : Dashboard) (n : Nat) (collector : Collector) : Dashboard :=
  { d with collectStream := Function.update d.collectStream n collector }

/-- One chunk, or the end of a channel: its sender is dropped with its task. -/
def collect (p : Httparse) (d : Dashboard) (n : Nat) (now : NaiveDateTime) : Option Dashboard :=
  match d.client.locals n with
  | none => none
  | some stream =>
    match d.collectStream n with
    | .spawned => some (d.setCollector n (.request now []))
    | .request started collected =>
      match d.request n with
      | next :: rest =>
        some { d.setCollector n (.request started (collected ++ next)) with
          request := Function.update d.request n rest }
      | [] =>
        if stream.forwardToLocalTcp.ended then
          some (d.setCollector n (.response started collected []))
        else none
    | .response started request collected =>
      match d.response n with
      | next :: rest =>
        some { d.setCollector n (.response started request (collected ++ next)) with
          response := Function.update d.response n rest }
      | [] =>
        if stream.processLocalTcp = .reading then none
        else
          let requests := (Request.of p n started now request collected).elim d.requests
            (d.requests.insert n)
          some { d.setCollector n (.returned started now request collected) with
            requests := requests }
    | .returned .. => none

/-! ### `replay_request` -/

/-- Up to the spawn of the reader; an unknown id is `not_found`, and so is a replay
    that cannot connect. -/
def replayRequest (useTls : Bool) (d : Dashboard) (rid : Nat) (streamId : StreamId)
    (result : Client.ConnectResult) : Option Dashboard :=
  match d.requests.lookup rid with
  | none => some d
  | some request =>
    match result with
    | .ok =>
      let n := d.client.streams
      some { d with
        client := { d.client.setLocal n (Client.LocalStream.new streamId 0) with
          streams := n + 1 }
        replays := Function.update d.replays n (some request.entireRequest) }
    | .err => some { d with client := d.client.notifyTunnel 0 (.Refused streamId) }
    | .invalidName => if useTls then some d else none

/-- The rest of `setup_new_stream`, and the send. -/
def replaySend (d : Dashboard) (n : Nat) : Option Dashboard :=
  match d.replays n, d.client.locals n with
  | some data, some stream =>
    match stream.forwardToLocalTcp with
    | .spawning =>
      let changed : Client.LocalStream := { stream with
        forwardToLocalTcp := .running
        queue := stream.queue.sendOrDrop (.Data data) }
      some { d with
        client := { d.client.setLocal n changed with
          activeStreams := d.client.activeStreams.insert stream.streamId n } }
    | _ => none
  | _, _ => none

/-! ### Pages -/

end Dashboard

inductive DashboardEvent where
  | tunnel (e : ClientEvent)
  | collect (n : Nat) (now : NaiveDateTime)
  | replayRequest (rid : Nat) (streamId : StreamId) (result : Client.ConnectResult)
  | replaySend (n : Nat)

def Dashboard.step (p : Httparse) (useTls : Bool) (d : Dashboard) :
    DashboardEvent → Option Dashboard
  | .tunnel e => d.tunnel useTls e
  | .collect n now => d.collect p n now
  | .replayRequest rid streamId result => d.replayRequest useTls rid streamId result
  | .replaySend n => d.replaySend n

def dashboard (p : Httparse) (useTls : Bool) : Machine Dashboard DashboardEvent where
  start d := d = Dashboard.new
  step := Dashboard.step p useTls

/-! ### What a step of the client adds to a conversation -/

namespace Client

/-- The chunk that is put into the channel of the local connection `n`. -/
def chunkAt (n : Nat) : Option (Nat × Bytes) → Bytes
  | some (m, data) => if m = n then data else []
  | none => []

/-- What becomes of a local connection when `request` and `response` are passed on:
    it has written and received that much more, and perhaps something that was not
    passed on if the task has panicked over it. -/
structure LocalStream.Advance (request response : Bytes) (old changed : LocalStream) : Prop where
  streamId : changed.streamId = old.streamId
  wormhole : changed.wormhole = old.wormhole
  written : old.socket.written ++ request <+: changed.socket.written
  writtenAll : changed.forwardToLocalTcp ≠ .panicked →
    changed.socket.written = old.socket.written ++ request
  received : old.socket.received ++ response <+: changed.socket.received
  receivedAll : changed.processLocalTcp ≠ .panicked →
    changed.socket.received = old.socket.received ++ response
  forwarder : old.forwardToLocalTcp.ended = true →
    changed.forwardToLocalTcp = old.forwardToLocalTcp ∧ request = [] ∧
      changed.socket.written = old.socket.written
  reader : old.processLocalTcp ≠ .reading →
    changed.processLocalTcp = old.processLocalTcp ∧ response = [] ∧
      changed.socket.received = old.socket.received

/-- The sockets have seen nothing new. -/
theorem LocalStream.Advance.quiet {old changed : LocalStream}
    (hid : changed.streamId = old.streamId) (hwormhole : changed.wormhole = old.wormhole)
    (hwritten : changed.socket.written = old.socket.written)
    (hreceived : changed.socket.received = old.socket.received)
    (hforwarder : old.forwardToLocalTcp.ended = true →
      changed.forwardToLocalTcp = old.forwardToLocalTcp)
    (hreader : old.processLocalTcp ≠ .reading →
      changed.processLocalTcp = old.processLocalTcp) : old.Advance [] [] changed where
  streamId := hid
  wormhole := hwormhole
  written := by rw [hwritten, List.append_nil]
  writtenAll _ := by rw [hwritten, List.append_nil]
  received := by rw [hreceived, List.append_nil]
  receivedAll _ := by rw [hreceived, List.append_nil]
  forwarder hended := ⟨hforwarder hended, rfl, hwritten⟩
  reader hover := ⟨hreader hover, rfl, hreceived⟩

theorem LocalStream.Advance.refl (stream : LocalStream) : stream.Advance [] [] stream :=
  .quiet rfl rfl rfl rfl (fun _ => rfl) (fun _ => rfl)

variable {c c' : Client} {n : Nat} {stream : LocalStream}

/-- A turn of the forwarder. -/
theorem LocalStream.advance_turn {changed : LocalStream} {result : WriteResult} {open_ : Bool}
    (hn : c.locals n = some stream) (h : stream.turn result open_ = some changed) :
    stream.Advance (chunkAt n (c.introspectRequest (.writeLocal n result))) [] changed := by
  have hrunning := (LocalStream.turn_cases h).1
  have hended : stream.forwardToLocalTcp.ended = true → False := by
    rw [hrunning]
    exact nofun
  unfold LocalStream.turn at h
  split at h
  next data rest hforward hqueue =>
    simp only at h
    split at h
    · obtain rfl := Option.some.inj h
      have hout : chunkAt n (c.introspectRequest (.writeLocal n .ok)) = data := by
        simp [introspectRequest, hn, hforward, hqueue, chunkAt]
      rw [hout]
      exact ⟨rfl, rfl, List.prefix_rfl, fun _ => rfl, by rw [List.append_nil],
        fun _ => (List.append_nil _).symm, fun he => (hended he).elim, fun _ => ⟨rfl, rfl, rfl⟩⟩
    next part =>
      obtain rfl := Option.some.inj h
      refine ⟨rfl, rfl, ?_, fun hnot => absurd rfl hnot, by rw [List.append_nil],
        fun _ => (List.append_nil _).symm, fun he => (hended he).elim, fun _ => ⟨rfl, rfl, rfl⟩⟩
      exact (List.append_nil _).symm ▸ List.prefix_append _ _
  next rest hforward hqueue =>
    obtain rfl := Option.some.inj h
    have hout : chunkAt n (c.introspectRequest (.writeLocal n result)) = [] := by
      cases result with
      | ok => simp [introspectRequest, hn, hforward, hqueue, chunkAt]
      | err part => rfl
    rw [hout]
    exact .quiet rfl rfl rfl rfl (fun he => (hended he).elim) fun _ => rfl
  next hforward hqueue =>
    split at h
    · cases h
    · obtain rfl := Option.some.inj h
      have hout : chunkAt n (c.introspectRequest (.writeLocal n result)) = [] := by
        cases result with
        | ok => simp [introspectRequest, hn, hqueue, chunkAt]
        | err part => rfl
      rw [hout]
      exact .quiet rfl rfl rfl rfl (fun he => (hended he).elim) fun _ => rfl
  · cases h

/-- A read, by what the reader was told. -/
theorem advance_readLocal {result : ReadResult} (hn : c.locals n = some stream)
    (h : c.readLocal n result = some c') : ∃ changed, c'.locals n = some changed ∧
      stream.Advance [] (chunkAt n (c.introspectResponse (.readLocal n result))) changed := by
  unfold readLocal at h
  rw [hn] at h
  simp only at h
  split at h
  next hreading =>
    have hover : stream.processLocalTcp ≠ .reading → False := fun hnot => hnot hreading
    split at h
    · obtain rfl := Option.some.inj h
      refine ⟨_, (locals_setLocal _ _ _ _).trans (if_pos rfl), ?_⟩
      exact .quiet rfl rfl rfl rfl (fun _ => rfl) fun hnot => (hover hnot).elim
    · obtain rfl := Option.some.inj h
      refine ⟨_, (locals_setLocal _ _ _ _).trans (if_pos rfl), ?_⟩
      have hout : chunkAt n (c.introspectResponse (.readLocal n (.ok []))) = [] := by
        simp [introspectResponse, hn, hreading, chunkAt]
      rw [hout]
      exact .quiet rfl rfl rfl rfl (fun _ => rfl) fun hnot => (hover hnot).elim
    next data hdata =>
      split at h
      · cases h
      have hne : data.isEmpty = false := by
        cases data with
        | nil => exact absurd rfl hdata
        | cons byte bytes => rfl
      split at h
      next u hu =>
        obtain rfl := Option.some.inj h
        refine ⟨_, (locals_setLocal _ _ _ _).trans (if_pos rfl), ?_⟩
        have hout : chunkAt n (c.introspectResponse (.readLocal n (.ok data))) = data := by
          simp [introspectResponse, hn, hreading, chunkAt, hne, (sendToTunnel_eq_some.mp hu).1]
        rw [hout]
        exact ⟨rfl, rfl, by rw [List.append_nil], fun _ => (List.append_nil _).symm,
          List.prefix_rfl, fun _ => rfl, fun _ => ⟨rfl, rfl, rfl⟩, fun hnot => (hover hnot).elim⟩
      next hu =>
        obtain rfl := Option.some.inj h
        refine ⟨_, (locals_setLocal _ _ _ _).trans (if_pos rfl), ?_⟩
        have hout : chunkAt n (c.introspectResponse (.readLocal n (.ok data))) = [] := by
          simp [introspectResponse, hn, hreading, chunkAt, sendToTunnel_eq_none.mp hu]
        rw [hout]
        refine ⟨rfl, rfl, by rw [List.append_nil], fun _ => (List.append_nil _).symm, ?_,
          fun hnot => absurd rfl hnot, fun _ => ⟨rfl, rfl, rfl⟩, fun hnot => (hover hnot).elim⟩
        rw [List.append_nil]
        exact List.prefix_append _ _
  · cases h

/-- A local connection whose sockets and tasks a step leaves alone. -/
theorem advance_setLocal {d : Client} {m : Nat} {old changed : LocalStream}
    (hd : d.locals = c.locals) (hm : c.locals m = some old)
    (hquiet : old.Advance [] [] changed) (hn : c.locals n = some stream) :
    ∃ stream', (d.setLocal m changed).locals n = some stream' ∧
      stream.Advance [] [] stream' := by
  rw [locals_setLocal, hd]
  by_cases hnm : n = m
  · subst hnm
    obtain rfl : old = stream := Option.some.inj (hm.symm.trans hn)
    exact ⟨changed, if_pos rfl, hquiet⟩
  · exact ⟨stream, (if_neg hnm).trans hn, .refl stream⟩

/-- The other local connections stay as they are. -/
theorem advance_other {d : Client} {m : Nat} {changed : LocalStream} (hd : d.locals = c.locals)
    (hnm : n ≠ m) (hn : c.locals n = some stream) :
    ∃ stream', (d.setLocal m changed).locals n = some stream' ∧
      stream.Advance [] [] stream' := by
  rw [locals_setLocal, hd]
  exact ⟨stream, (if_neg hnm).trans hn, .refl stream⟩

theorem chunkAt_request {e : ClientEvent} (h : ∀ result, e ≠ .writeLocal n result) :
    chunkAt n (c.introspectRequest e) = [] := by
  unfold introspectRequest
  split
  next m =>
    have hmn : m ≠ n := by
      rintro rfl
      exact h .ok rfl
    split
    · split
      · exact if_neg hmn
      · rfl
    · rfl
  · rfl

theorem chunkAt_response {e : ClientEvent} (h : ∀ result, e ≠ .readLocal n result) :
    chunkAt n (c.introspectResponse e) = [] := by
  unfold introspectResponse
  split
  next m data =>
    have hmn : m ≠ n := by
      rintro rfl
      exact h (.ok data) rfl
    split
    · split
      · split
        · rfl
        · exact if_neg hmn
      · rfl
    · rfl
  · rfl

theorem step_advance {useTls : Bool} {e : ClientEvent} (hwf : c.WellFormed)
    (h : c.step useTls e = some c') (hn : c.locals n = some stream) :
    ∃ stream', c'.locals n = some stream' ∧
      stream.Advance (chunkAt n (c.introspectRequest e)) (chunkAt n (c.introspectResponse e))
        stream' := by
  have hquiet : (∀ result, e ≠ .writeLocal n result) → (∀ result, e ≠ .readLocal n result) →
      (∃ stream', c'.locals n = some stream' ∧ stream.Advance [] [] stream') →
      ∃ stream', c'.locals n = some stream' ∧
        stream.Advance (chunkAt n (c.introspectRequest e)) (chunkAt n (c.introspectResponse e))
          stream' := by
    intro hwrite hread
    rw [chunkAt_request hwrite, chunkAt_response hread]
    exact id
  cases e with
  | readLocal m result =>
    by_cases hm : m = n
    · subst hm
      have hrequest : chunkAt m (c.introspectRequest (.readLocal m result)) = [] :=
        chunkAt_request fun _ => nofun
      rw [hrequest]
      exact advance_readLocal hn h
    · apply hquiet (fun _ => nofun) fun _ heq => hm (ClientEvent.readLocal.inj heq).1
      obtain ⟨old, hold, -, ⟨-, rfl⟩ | ⟨-, rfl⟩ | ⟨data, reader, -, -, rfl⟩⟩ := readLocal_cases h
      · exact advance_other rfl (Ne.symm hm) hn
      · exact advance_other rfl (Ne.symm hm) hn
      · exact advance_other (locals_notifyTunnel _ _ _) (Ne.symm hm) hn
  | writeLocal m result =>
    obtain ⟨old, changed, hold, hturn, rfl⟩ := writeLocal_cases h
    by_cases hm : m = n
    · subst hm
      obtain rfl : old = stream := Option.some.inj (hold.symm.trans hn)
      have hresponse : chunkAt m (c.introspectResponse (.writeLocal m result)) = [] :=
        chunkAt_response fun _ => nofun
      rw [hresponse]
      exact ⟨changed, (locals_setLocal _ _ _ _).trans (if_pos rfl),
        LocalStream.advance_turn hn hturn⟩
    · apply hquiet (fun _ heq => hm (ClientEvent.writeLocal.inj heq).1) fun _ => nofun
      exact advance_other rfl (Ne.symm hm) hn
  | connect result =>
    apply hquiet (fun _ => nofun) (fun _ => nofun)
    obtain ⟨streamId, data, -, ⟨-, rfl⟩ | ⟨-, rfl⟩ | ⟨-, rfl⟩⟩ := connect_cases h
    · apply advance_other rfl ?_ hn
      rintro rfl
      cases (hwf.made c.streams (Nat.le_refl _)).symm.trans hn
    · exact ⟨stream, (congrFun (locals_notifyTunnel _ _ _) n).trans hn, .refl stream⟩
    · exact ⟨stream, hn, .refl stream⟩
  | insert =>
    apply hquiet (fun _ => nofun) (fun _ => nofun)
    obtain ⟨streamId, data, m, old, hcontrol, hold, rfl⟩ := insert_cases h
    refine advance_setLocal rfl hold (.quiet rfl rfl rfl rfl ?_ fun _ => rfl) hn
    -- the forwarder is spawned here
    intro hended
    obtain ⟨old', hold', -, hspawning⟩ := hwf.inserting streamId data m hcontrol
    obtain rfl : old = old' := Option.some.inj (hold.symm.trans hold')
    rw [hspawning] at hended
    cases hended
  | forward =>
    apply hquiet (fun _ => nofun) (fun _ => nofun)
    obtain ⟨streamId, data, -, ⟨m, old, -, hold, ⟨-, rfl⟩ | ⟨-, rfl⟩⟩ |
      ⟨-, ⟨-, rfl⟩ | ⟨-, rfl⟩⟩⟩ := forward_cases h
    · exact advance_setLocal rfl hold (.quiet rfl rfl rfl rfl (fun _ => rfl) fun _ => rfl) hn
    · exact ⟨stream, hn, .refl stream⟩
    · exact ⟨stream, (congrFun (locals_notifyTunnel _ _ _) n).trans hn, .refl stream⟩
    · exact ⟨stream, hn, .refl stream⟩
  | endTask k =>
    apply hquiet (fun _ => nofun) (fun _ => nofun)
    obtain ⟨tasks, rfl | ⟨m, old, hold, rfl⟩ | ⟨streamId, rfl⟩⟩ := endTask_cases h
    · exact ⟨stream, hn, .refl stream⟩
    · exact advance_setLocal rfl hold (.quiet rfl rfl rfl rfl (fun _ => rfl) fun _ => rfl) hn
    · exact ⟨stream, hn, .refl stream⟩
  | _ =>
    apply hquiet (fun _ => nofun) (fun _ => nofun)
    exact ⟨stream, (congrFun (step_ofTunnel rfl h).2.1 n).trans hn, .refl stream⟩

/-- Only a running forwarder puts something into its channel. -/
theorem introspectRequest_eq_some {e : ClientEvent} {data : Bytes}
    (h : c.introspectRequest e = some (n, data)) :
    ∃ stream, c.locals n = some stream ∧ stream.forwardToLocalTcp = .running := by
  unfold introspectRequest at h
  split at h
  next m =>
    split at h
    next stream hm =>
      split at h
      next hrunning _ =>
        obtain ⟨rfl, -⟩ := Prod.mk.inj (Option.some.inj h)
        exact ⟨stream, hm, hrunning⟩
      · cases h
    · cases h
  · cases h

theorem introspectResponse_eq_some {e : ClientEvent} {data : Bytes}
    (h : c.introspectResponse e = some (n, data)) :
    ∃ stream, c.locals n = some stream ∧ stream.processLocalTcp = .reading := by
  unfold introspectResponse at h
  split at h
  next m bytes =>
    split at h
    next stream hm =>
      split at h
      next hreading =>
        split at h
        · cases h
        · obtain ⟨rfl, -⟩ := Prod.mk.inj (Option.some.inj h)
          exact ⟨stream, hm, hreading⟩
      · cases h
    · cases h
  · cases h

/-- A local connection that a step makes has seen nothing. -/
theorem step_made {useTls : Bool} {e : ClientEvent} (h : c.step useTls e = some c')
    (hn : c.locals n = none) (hn' : c'.locals n = some stream) :
    ∃ streamId data, c.control.chunk = some (streamId, data) ∧
      stream = LocalStream.new streamId c.wormhole := by
  have hset : ∀ {d : Client} {m : Nat} {old changed : LocalStream}, d.locals = c.locals →
      c.locals m = some old → (d.setLocal m changed).locals n = some stream → False := by
    intro d m old changed hd hm hstream
    rw [locals_setLocal, hd] at hstream
    split at hstream
    next heq =>
      subst heq
      cases hn.symm.trans hm
    · cases hn.symm.trans hstream
  have hsame : c'.locals = c.locals → False := by
    intro hlocals
    rw [hlocals] at hn'
    cases hn.symm.trans hn'
  cases e with
  | connect result =>
    obtain ⟨streamId, data, hcontrol, ⟨-, rfl⟩ | ⟨-, rfl⟩ | ⟨-, rfl⟩⟩ := connect_cases h
    · refine ⟨streamId, data, by rw [hcontrol]; rfl, ?_⟩
      simp only [locals_setLocal] at hn'
      split at hn'
      · exact (Option.some.inj hn').symm
      · cases hn.symm.trans hn'
    · exact (hsame (locals_notifyTunnel _ _ _)).elim
    · exact (hsame rfl).elim
  | insert =>
    obtain ⟨streamId, data, m, old, -, hold, rfl⟩ := insert_cases h
    exact (hset rfl hold hn').elim
  | forward =>
    obtain ⟨streamId, data, -, ⟨m, old, -, hold, ⟨-, rfl⟩ | ⟨-, rfl⟩⟩ |
      ⟨-, ⟨-, rfl⟩ | ⟨-, rfl⟩⟩⟩ := forward_cases h
    · exact (hset rfl hold hn').elim
    · exact (hsame rfl).elim
    · exact (hsame (locals_notifyTunnel _ _ _)).elim
    · exact (hsame rfl).elim
  | readLocal m result =>
    obtain ⟨old, hold, -, ⟨-, rfl⟩ | ⟨-, rfl⟩ | ⟨data, reader, -, -, rfl⟩⟩ := readLocal_cases h
    · exact (hset rfl hold hn').elim
    · exact (hset rfl hold hn').elim
    · exact (hset (locals_notifyTunnel _ _ _) hold hn').elim
  | writeLocal m result =>
    obtain ⟨old, changed, hold, -, rfl⟩ := writeLocal_cases h
    exact (hset rfl hold hn').elim
  | endTask k =>
    obtain ⟨tasks, rfl | ⟨m, old, hold, rfl⟩ | ⟨streamId, rfl⟩⟩ := endTask_cases h
    · exact (hsame rfl).elim
    · exact (hset rfl hold hn').elim
    · exact (hsame rfl).elim
  | _ => exact (hsame (step_ofTunnel rfl h).2.1).elim

/-- A local connection that waits for its entry was waiting for it before, or has
    just been made. -/
theorem step_inserting {useTls : Bool} {e : ClientEvent} (h : c.step useTls e = some c')
    {streamId : StreamId} {data : Bytes} (hn : c'.control = .inserting streamId data n) :
    c.control = .inserting streamId data n ∨ n = c.streams := by
  by_cases he : ofTunnel e = true
  · obtain ⟨-, -, -, ⟨hsame | ⟨hnone, -⟩, -⟩ | ⟨id, chunk, -, -, hcontrol⟩⟩ := step_ofTunnel he h
    · left
      rw [← hsame, hn]
    · rw [hn] at hnone
      cases hnone
    · rw [hn] at hcontrol
      split at hcontrol <;> cases hcontrol
  cases e with
  | connect result =>
    obtain ⟨id, chunk, -, ⟨-, rfl⟩ | ⟨-, rfl⟩ | ⟨-, rfl⟩⟩ := connect_cases h
    · right
      exact (Control.inserting.inj hn).2.2.symm
    · cases hn
    · cases hn
  | insert =>
    obtain ⟨id, chunk, m, old, -, -, rfl⟩ := insert_cases h
    cases hn
  | forward =>
    obtain ⟨id, chunk, -, ⟨m, old, -, -, ⟨-, rfl⟩ | ⟨-, rfl⟩⟩ | ⟨-, ⟨-, rfl⟩ | ⟨-, rfl⟩⟩⟩ :=
      forward_cases h
    all_goals cases hn
  | readLocal m result =>
    left
    obtain ⟨old, -, -, ⟨-, rfl⟩ | ⟨-, rfl⟩ | ⟨chunk, reader, -, -, rfl⟩⟩ := readLocal_cases h
    · exact hn
    · exact hn
    · rw [control_setLocal, control_notifyTunnel] at hn
      exact hn
  | writeLocal m result =>
    obtain ⟨old, changed, -, -, rfl⟩ := writeLocal_cases h
    exact Or.inl hn
  | endTask k =>
    left
    obtain ⟨tasks, rfl | ⟨m, old, -, rfl⟩ | ⟨id, rfl⟩⟩ := endTask_cases h
    all_goals exact hn
  | _ => exact absurd rfl he

/-- `setup_new_stream` for a replay makes one more local connection, ... -/
theorem WellFormed.replayed (h : c.WellFormed) (streamId : StreamId) (w : Nat) :
    WellFormed { c.setLocal c.streams (LocalStream.new streamId w) with
      streams := c.streams + 1 } := by
  have hkeep : ∀ m s, c.locals m = some s →
      (c.setLocal c.streams (LocalStream.new streamId w)).locals m = some s := by
    intro m s hs
    rw [locals_setLocal, if_neg]
    · exact hs
    · rintro rfl
      cases (h.made c.streams (Nat.le_refl _)).symm.trans hs
  refine ⟨?_, ?_, ?_, ?_⟩
  · intro m s hs
    simp only [locals_setLocal] at hs
    split at hs
    · obtain rfl := Option.some.inj hs
      exact LocalStream.sound_new streamId w
    · exact h.sound m s hs
  · intro id m hm
    obtain ⟨s, hs, hrest⟩ := h.entry id m hm
    exact ⟨s, hkeep m s hs, hrest⟩
  · intro m hm
    simp only [locals_setLocal]
    rw [if_neg (Nat.ne_of_gt hm)]
    exact h.made m (Nat.le_of_succ_le hm)
  · intro id data m hm
    obtain ⟨s, hs, hrest⟩ := h.inserting id data m hm
    exact ⟨s, hkeep m s hs, hrest⟩

/-- ... and enters it with its forwarder. -/
theorem WellFormed.entered (h : c.WellFormed) (hn : c.locals n = some stream)
    (hspawning : stream.forwardToLocalTcp = .spawning)
    (hother : ∀ streamId data, c.control ≠ .inserting streamId data n) (message : StreamMessage) :
    WellFormed { c.setLocal n { stream with
        forwardToLocalTcp := .running
        queue := stream.queue.sendOrDrop message } with
      activeStreams := c.activeStreams.insert stream.streamId n } := by
  have hsound := h.sound n stream hn
  refine ⟨?_, ?_, ?_, ?_⟩
  · intro m s hs
    simp only [locals_setLocal] at hs
    split at hs
    · obtain rfl := Option.some.inj hs
      refine ⟨?_, nofun⟩
      rw [Channel.sendOrDrop_closed, hsound.closed, hspawning]
      rfl
    · exact h.sound m s hs
  · intro id m hm
    simp only [locals_setLocal]
    rw [Table.lookup_insert_ite] at hm
    split at hm
    next hid =>
      obtain rfl := Option.some.inj hm
      rw [if_pos rfl]
      exact ⟨_, rfl, hid.symm, nofun⟩
    · obtain ⟨s, hs, hsId, hspawned⟩ := h.entry id m hm
      split
      next heq =>
        subst heq
        obtain rfl : stream = s := Option.some.inj (hn.symm.trans hs)
        exact absurd hspawning hspawned
      · exact ⟨s, hs, hsId, hspawned⟩
  · intro m hm
    simp only [locals_setLocal]
    rw [if_neg]
    · exact h.made m hm
    · rintro rfl
      cases (h.made m hm).symm.trans hn
  · intro id data m hm
    obtain ⟨s, hs, hrest⟩ := h.inserting id data m hm
    simp only [locals_setLocal]
    rw [if_neg]
    · exact ⟨s, hs, hrest⟩
    · rintro rfl
      exact hother id data hm

end Client

/-! ### The records are what went over the connections -/

namespace Dashboard

open Client

variable {p : Httparse} {useTls : Bool} {d d' : Dashboard} {n : Nat}

theorem flatten_note (channels : Nat → List Bytes) (out : Option (Nat × Bytes)) (n : Nat) :
    (note channels out n).flatten = (channels n).flatten ++ chunkAt n out := by
  cases out with
  | none => exact (List.append_nil _).symm
  | some chunk =>
    obtain ⟨m, data⟩ := chunk
    simp only [note, chunkAt, Function.update_apply]
    by_cases hm : n = m
    · subst hm
      simp
    · rw [if_neg hm, if_neg (Ne.symm hm), List.append_nil]

theorem note_eq {channels : Nat → List Bytes} {out : Option (Nat × Bytes)}
    (h : ∀ data, out ≠ some (n, data)) : note channels out n = channels n := by
  cases out with
  | none => rfl
  | some chunk =>
    obtain ⟨m, data⟩ := chunk
    refine (Function.update_apply channels m _ n).trans (if_neg ?_)
    rintro rfl
    exact h data rfl

/-- What is collected of a conversation and what waits to be is what the two tasks
    have passed on; the collector is past what has come to its end only. -/
structure Conversation (d : Dashboard) (n : Nat) (stream : LocalStream) : Prop where
  request : (d.collectStream n).collectedRequest ++ (d.request n).flatten <+: stream.socket.written
  requestAll : stream.forwardToLocalTcp ≠ .panicked →
    (d.collectStream n).collectedRequest ++ (d.request n).flatten = stream.socket.written
  response : (d.collectStream n).collectedResponse ++ (d.response n).flatten <+:
    stream.socket.received
  responseAll : stream.processLocalTcp ≠ .panicked →
    (d.collectStream n).collectedResponse ++ (d.response n).flatten = stream.socket.received
  pastRequest : (d.collectStream n).pastRequest = true →
    d.request n = [] ∧ stream.forwardToLocalTcp.ended = true
  done : (d.collectStream n).done = true → d.response n = [] ∧ stream.processLocalTcp ≠ .reading

theorem conversation_new {streamId : StreamId} {wormhole : Nat} (hrequest : d.request n = [])
    (hresponse : d.response n = []) (hspawned : d.collectStream n = .spawned) :
    d.Conversation n (LocalStream.new streamId wormhole) := by
  constructor
  · rw [hspawned, hrequest]
    exact List.prefix_rfl
  · intro _
    rw [hspawned, hrequest]
    rfl
  · rw [hspawned, hresponse]
    exact List.prefix_rfl
  · intro _
    rw [hspawned, hresponse]
    rfl
  · rw [hspawned]
    exact nofun
  · rw [hspawned]
    exact nofun

/-- A step of the client passes something on, or ends a task. -/
theorem Conversation.advance {old changed : LocalStream} {request response : Bytes}
    (h : d.Conversation n old) (hadvance : old.Advance request response changed)
    (hcollect : d'.collectStream n = d.collectStream n)
    (hrequest : (d'.request n).flatten = (d.request n).flatten ++ request)
    (hresponse : (d'.response n).flatten = (d.response n).flatten ++ response)
    (hsame : old.forwardToLocalTcp.ended = true → d'.request n = d.request n)
    (hsame' : old.processLocalTcp ≠ .reading → d'.response n = d.response n) :
    d'.Conversation n changed := by
  -- a task that has ended passes nothing on, and one that has not has passed on all
  refine ⟨?_, ?_, ?_, ?_, ?_, ?_⟩
  · rw [hcollect, hrequest, ← List.append_assoc]
    by_cases hold : old.forwardToLocalTcp = .panicked
    · obtain ⟨-, hnil, heq⟩ := hadvance.forwarder (by rw [hold]; rfl)
      rw [hnil, List.append_nil, heq]
      exact h.request
    · rw [h.requestAll hold]
      exact hadvance.written
  · intro hnot
    have hold : old.forwardToLocalTcp ≠ .panicked := by
      intro hold
      exact hnot ((hadvance.forwarder (by rw [hold]; rfl)).1.trans hold)
    rw [hcollect, hrequest, ← List.append_assoc, h.requestAll hold, hadvance.writtenAll hnot]
  · rw [hcollect, hresponse, ← List.append_assoc]
    by_cases hold : old.processLocalTcp = .panicked
    · obtain ⟨-, hnil, heq⟩ := hadvance.reader (by rw [hold]; exact nofun)
      rw [hnil, List.append_nil, heq]
      exact h.response
    · rw [h.responseAll hold]
      exact hadvance.received
  · intro hnot
    have hold : old.processLocalTcp ≠ .panicked := by
      intro hold
      exact hnot ((hadvance.reader (by rw [hold]; exact nofun)).1.trans hold)
    rw [hcollect, hresponse, ← List.append_assoc, h.responseAll hold, hadvance.receivedAll hnot]
  · rw [hcollect]
    intro hpast
    obtain ⟨hnil, hended⟩ := h.pastRequest hpast
    rw [hsame hended, (hadvance.forwarder hended).1]
    exact ⟨hnil, hended⟩
  · rw [hcollect]
    intro hdone
    obtain ⟨hnil, hover⟩ := h.done hdone
    rw [hsame' hover, (hadvance.reader hover).1]
    exact ⟨hnil, hover⟩

/-- A step of the collector moves bytes from what waits to what is collected. -/
theorem Conversation.collect {stream : LocalStream} (h : d.Conversation n stream)
    (hrequest : (d'.collectStream n).collectedRequest ++ (d'.request n).flatten =
      (d.collectStream n).collectedRequest ++ (d.request n).flatten)
    (hresponse : (d'.collectStream n).collectedResponse ++ (d'.response n).flatten =
      (d.collectStream n).collectedResponse ++ (d.response n).flatten)
    (hpast : (d'.collectStream n).pastRequest = true →
      d'.request n = [] ∧ stream.forwardToLocalTcp.ended = true)
    (hdone : (d'.collectStream n).done = true →
      d'.response n = [] ∧ stream.processLocalTcp ≠ .reading) : d'.Conversation n stream where
  request := by
    rw [hrequest]
    exact h.request
  requestAll := by
    rw [hrequest]
    exact h.requestAll
  response := by
    rw [hresponse]
    exact h.response
  responseAll := by
    rw [hresponse]
    exact h.responseAll
  pastRequest := hpast
  done := hdone

structure Faithful (p : Httparse) (d : Dashboard) : Prop where
  wellFormed : d.client.WellFormed
  replayed : ∀ n, d.client.locals n = none → d.replays n = none
  apart : ∀ streamId data n, d.client.control = .inserting streamId data n → d.replays n = none
  idle : ∀ n, d.client.locals n = none →
    d.request n = [] ∧ d.response n = [] ∧ d.collectStream n = .spawned
  conversation : ∀ n stream, d.client.locals n = some stream → d.Conversation n stream
  requests : ∀ n, d.requests.lookup n = (d.collectStream n).record p n

theorem faithful_new : Faithful p Dashboard.new where
  wellFormed := wellFormed_new
  replayed _ _ := rfl
  apart _ _ _ _ := rfl
  idle _ _ := ⟨rfl, rfl, rfl⟩
  conversation _ _ h := nomatch h
  requests _ := rfl

theorem tunnel_cases {e : ClientEvent} (h : d.tunnel useTls e = some d') :
    ∃ c', d.client.step useTls e = some c' ∧ d' = { d with
      client := c'
      request := note d.request (d.client.introspectRequest e)
      response := note d.response (d.client.introspectResponse e) } := by
  obtain ⟨c', hc', rfl⟩ := Option.map_eq_some_iff.mp h
  exact ⟨c', hc', rfl⟩

theorem Faithful.tunnel {e : ClientEvent} (hf : d.Faithful p)
    (h : d.tunnel useTls e = some d') : d'.Faithful p := by
  obtain ⟨c', hc', rfl⟩ := tunnel_cases h
  have hrequest : ∀ n, (∀ stream, d.client.locals n = some stream →
      stream.forwardToLocalTcp ≠ .running) →
      note d.request (d.client.introspectRequest e) n = d.request n := by
    intro n hn
    apply note_eq
    intro data hdata
    obtain ⟨stream, hstream, hrunning⟩ := introspectRequest_eq_some hdata
    exact hn stream hstream hrunning
  have hresponse : ∀ n, (∀ stream, d.client.locals n = some stream →
      stream.processLocalTcp ≠ .reading) →
      note d.response (d.client.introspectResponse e) n = d.response n := by
    intro n hn
    apply note_eq
    intro data hdata
    obtain ⟨stream, hstream, hreading⟩ := introspectResponse_eq_some hdata
    exact hn stream hstream hreading
  have hidle : ∀ n, d.client.locals n = none →
      note d.request (d.client.introspectRequest e) n = [] ∧
        note d.response (d.client.introspectResponse e) n = [] ∧ d.collectStream n = .spawned := by
    intro n hn
    obtain ⟨hreq, hresp, hspawned⟩ := hf.idle n hn
    have hnone : ∀ stream, d.client.locals n ≠ some stream := by
      intro stream
      rw [hn]
      exact nofun
    rw [hrequest n fun stream hstream => absurd hstream (hnone stream),
      hresponse n fun stream hstream => absurd hstream (hnone stream)]
    exact ⟨hreq, hresp, hspawned⟩
  refine ⟨wellFormed_step hf.wellFormed hc', ?_, ?_, ?_, ?_, hf.requests⟩
  · intro n hn
    apply hf.replayed
    cases hold : d.client.locals n with
    | none => rfl
    | some stream =>
      obtain ⟨stream', hstream', -⟩ := step_advance hf.wellFormed hc' hold
      cases hn.symm.trans hstream'
  · intro streamId data n hn
    rcases step_inserting hc' hn with hsame | rfl
    · exact hf.apart streamId data n hsame
    · exact hf.replayed _ (hf.wellFormed.made _ (Nat.le_refl _))
  · intro n hn
    cases hold : d.client.locals n with
    | none => exact hidle n hold
    | some stream =>
      obtain ⟨stream', hstream', -⟩ := step_advance hf.wellFormed hc' hold
      cases hn.symm.trans hstream'
  · intro n stream' hstream'
    cases hold : d.client.locals n with
    | none =>
      obtain ⟨streamId, data, -, rfl⟩ := step_made hc' hold hstream'
      obtain ⟨hreq, hresp, hspawned⟩ := hidle n hold
      exact conversation_new hreq hresp hspawned
    | some stream =>
      obtain ⟨changed, hchanged, hadvance⟩ := step_advance hf.wellFormed hc' hold
      obtain rfl := Option.some.inj (hchanged.symm.trans hstream')
      refine (hf.conversation n stream hold).advance hadvance ?_ (flatten_note _ _ n)
        (flatten_note _ _ n) ?_ ?_
      · rfl
      · intro hended
        apply hrequest
        intro s hs hrunning
        obtain rfl := Option.some.inj (hold.symm.trans hs)
        rw [hrunning] at hended
        cases hended
      · intro hover
        apply hresponse
        intro s hs
        obtain rfl := Option.some.inj (hold.symm.trans hs)
        exact hover

/-- A collector takes a step, and its channels lose what it has collected. -/
theorem Faithful.setCollector (hf : d.Faithful p) {stream : LocalStream}
    (hn : d.client.locals n = some stream) (hclient : d'.client = d.client)
    (hreplays : d'.replays = d.replays)
    (hrequest : ∀ m, m ≠ n → d'.request m = d.request m)
    (hresponse : ∀ m, m ≠ n → d'.response m = d.response m)
    (hcollect : ∀ m, m ≠ n → d'.collectStream m = d.collectStream m)
    (hconversation : d'.Conversation n stream)
    (hrequests : ∀ m, d'.requests.lookup m =
      if m = n then (d'.collectStream n).record p n else d.requests.lookup m) : d'.Faithful p := by
  refine ⟨by rw [hclient]; exact hf.wellFormed, by rw [hclient, hreplays]; exact hf.replayed,
    by rw [hclient, hreplays]; exact hf.apart, ?_, ?_, ?_⟩
  · intro m hm
    rw [hclient] at hm
    have hmn : m ≠ n := by
      rintro rfl
      cases hn.symm.trans hm
    rw [hrequest m hmn, hresponse m hmn, hcollect m hmn]
    exact hf.idle m hm
  · intro m s hs
    rw [hclient] at hs
    by_cases hmn : m = n
    · subst hmn
      obtain rfl := Option.some.inj (hn.symm.trans hs)
      exact hconversation
    · have hold := hf.conversation m s hs
      constructor
      · rw [hcollect m hmn, hrequest m hmn]
        exact hold.request
      · rw [hcollect m hmn, hrequest m hmn]
        exact hold.requestAll
      · rw [hcollect m hmn, hresponse m hmn]
        exact hold.response
      · rw [hcollect m hmn, hresponse m hmn]
        exact hold.responseAll
      · rw [hcollect m hmn, hrequest m hmn]
        exact hold.pastRequest
      · rw [hcollect m hmn, hresponse m hmn]
        exact hold.done
  · intro m
    rw [hrequests]
    by_cases hmn : m = n
    · rw [if_pos hmn, hmn]
    · rw [if_neg hmn, hcollect m hmn]
      exact hf.requests m

/-- What a step of a collector does. -/
theorem collect_cases {now : NaiveDateTime} (h : d.collect p n now = some d') :
    ∃ stream, d.client.locals n = some stream ∧ d'.client = d.client ∧ d'.replays = d.replays ∧
      (∀ m, m ≠ n → d'.collectStream m = d.collectStream m) ∧
      (d.collectStream n = .spawned ∧ d' = d.setCollector n (.request now []) ∨
        (∃ started collected next rest, d.collectStream n = .request started collected ∧
          d.request n = next :: rest ∧
          d' = { d.setCollector n (.request started (collected ++ next)) with
            request := Function.update d.request n rest }) ∨
        (∃ started collected, d.collectStream n = .request started collected ∧
          d.request n = [] ∧ stream.forwardToLocalTcp.ended = true ∧
          d' = d.setCollector n (.response started collected [])) ∨
        (∃ started request collected next rest,
          d.collectStream n = .response started request collected ∧
          d.response n = next :: rest ∧
          d' = { d.setCollector n (.response started request (collected ++ next)) with
            response := Function.update d.response n rest }) ∨
        ∃ started request collected, d.collectStream n = .response started request collected ∧
          d.response n = [] ∧ stream.processLocalTcp ≠ .reading ∧
          d' = { d.setCollector n (.returned started now request collected) with
            requests := (Request.of p n started now request collected).elim d.requests
              (d.requests.insert n) }) := by
  have hother : ∀ collector m, m ≠ n →
      (d.setCollector n collector).collectStream m = d.collectStream m := by
    intro collector m hm
    exact (Function.update_apply d.collectStream n collector m).trans (if_neg hm)
  unfold collect at h
  split at h
  · cases h
  next stream hstream =>
    refine ⟨stream, hstream, ?_⟩
    split at h
    next hspawned =>
      obtain rfl := Option.some.inj h
      exact ⟨rfl, rfl, hother _, Or.inl ⟨hspawned, rfl⟩⟩
    next started collected hcollector =>
      split at h
      next next rest hrequest =>
        obtain rfl := Option.some.inj h
        exact ⟨rfl, rfl, hother _, Or.inr (Or.inl ⟨_, _, _, _, hcollector, hrequest, rfl⟩)⟩
      next hrequest =>
        split at h
        next hended =>
          obtain rfl := Option.some.inj h
          exact ⟨rfl, rfl, hother _,
            Or.inr (Or.inr (Or.inl ⟨_, _, hcollector, hrequest, hended, rfl⟩))⟩
        · cases h
    next started request collected hcollector =>
      split at h
      next next rest hresponse =>
        obtain rfl := Option.some.inj h
        exact ⟨rfl, rfl, hother _,
          Or.inr (Or.inr (Or.inr (Or.inl ⟨_, _, _, _, _, hcollector, hresponse, rfl⟩)))⟩
      next hresponse =>
        split at h
        · cases h
        next hover =>
          obtain rfl := Option.some.inj h
          exact ⟨rfl, rfl, hother _,
            Or.inr (Or.inr (Or.inr (Or.inr ⟨_, _, _, hcollector, hresponse, hover, rfl⟩)))⟩
    · cases h

theorem collectStream_setCollector (d : Dashboard) (n : Nat) (collector : Collector) :
    (d.setCollector n collector).collectStream n = collector := Function.update_self ..

/-- What is collected is taken from what waits, and a channel is only left once its
    task has ended and nothing waits. -/
theorem Conversation.collected {now : NaiveDateTime} {stream : LocalStream}
    (hold : d.Conversation n stream) (hstream : d.client.locals n = some stream)
    (h : d.collect p n now = some d') : d'.Conversation n stream := by
  obtain ⟨stream', hstream', -, -, -, hcases⟩ := collect_cases h
  obtain rfl := Option.some.inj (hstream.symm.trans hstream')
  have hself := collectStream_setCollector d n
  rcases hcases with ⟨hcollector, rfl⟩ | ⟨started, collected, next, rest, hcollector, hqueue, rfl⟩ |
    ⟨started, collected, hcollector, hqueue, hended, rfl⟩ |
    ⟨started, request, collected, next, rest, hcollector, hqueue, rfl⟩ |
    ⟨started, request, collected, hcollector, hqueue, hover, rfl⟩
  · apply hold.collect
    · rw [hself, hcollector]
      rfl
    · rw [hself, hcollector]
      rfl
    · rw [hself]
      exact nofun
    · rw [hself]
      exact nofun
  · apply hold.collect
    · change ((d.setCollector n _).collectStream n).collectedRequest ++
        (Function.update d.request n rest n).flatten = _
      rw [hself, hcollector, Function.update_self, hqueue, List.flatten_cons, ← List.append_assoc]
      rfl
    · change ((d.setCollector n _).collectStream n).collectedResponse ++ _ = _
      rw [hself, hcollector]
      rfl
    · change ((d.setCollector n _).collectStream n).pastRequest = true → _
      rw [hself]
      exact nofun
    · change ((d.setCollector n _).collectStream n).done = true → _
      rw [hself]
      exact nofun
  · apply hold.collect
    · rw [hself, hcollector]
      rfl
    · rw [hself, hcollector]
      rfl
    · intro _
      exact ⟨hqueue, hended⟩
    · rw [hself]
      exact nofun
  · have hpast := hold.pastRequest (by rw [hcollector]; rfl)
    apply hold.collect
    · change ((d.setCollector n _).collectStream n).collectedRequest ++ _ = _
      rw [hself, hcollector]
      rfl
    · change ((d.setCollector n _).collectStream n).collectedResponse ++
        (Function.update d.response n rest n).flatten = _
      rw [hself, hcollector, Function.update_self, hqueue, List.flatten_cons, ← List.append_assoc]
      rfl
    · intro _
      exact hpast
    · change ((d.setCollector n _).collectStream n).done = true → _
      rw [hself]
      exact nofun
  · have hpast := hold.pastRequest (by rw [hcollector]; rfl)
    apply hold.collect
    · change ((d.setCollector n _).collectStream n).collectedRequest ++ _ = _
      rw [hself, hcollector]
      rfl
    · change ((d.setCollector n _).collectStream n).collectedResponse ++ _ = _
      rw [hself, hcollector]
      rfl
    · intro _
      exact hpast
    · intro _
      exact ⟨hqueue, hover⟩

/-- The last step of a collector stores its record, and no step before stores any. -/
theorem lookup_collect {now : NaiveDateTime}
    (hrecord : d.requests.lookup n = (d.collectStream n).record p n)
    (h : d.collect p n now = some d') (m : Nat) : d'.requests.lookup m =
      if m = n then (d'.collectStream n).record p n else d.requests.lookup m := by
  obtain ⟨_, -, -, -, -, hcases⟩ := collect_cases h
  have hself := collectStream_setCollector d n
  have hkept : ∀ collector : Collector, (d.collectStream n).record p n = none →
      collector.record p n = none → d.requests.lookup m =
        if m = n then collector.record p n else d.requests.lookup m := by
    intro collector hbefore hafter
    by_cases hm : m = n
    · rw [if_pos hm, hm, hrecord, hbefore, hafter]
    · rw [if_neg hm]
  rcases hcases with ⟨hcollector, rfl⟩ | ⟨started, collected, next, rest, hcollector, -, rfl⟩ |
    ⟨started, collected, hcollector, -, -, rfl⟩ |
    ⟨started, request, collected, next, rest, hcollector, -, rfl⟩ |
    ⟨started, request, collected, hcollector, -, -, rfl⟩
  · rw [hself]
    exact hkept _ (by rw [hcollector]; rfl) rfl
  · change _ = if m = n then ((d.setCollector n _).collectStream n).record p n else _
    rw [hself]
    exact hkept _ (by rw [hcollector]; rfl) rfl
  · rw [hself]
    exact hkept _ (by rw [hcollector]; rfl) rfl
  · change _ = if m = n then ((d.setCollector n _).collectStream n).record p n else _
    rw [hself]
    exact hkept _ (by rw [hcollector]; rfl) rfl
  · change ((Request.of p n started now request collected).elim d.requests
      (d.requests.insert n)).lookup m =
        if m = n then ((d.setCollector n _).collectStream n).record p n else _
    rw [hself]
    change _ = if m = n then Request.of p n started now request collected else _
    cases Request.of p n started now request collected with
    | none =>
      by_cases hm : m = n
      · rw [if_pos hm, hm]
        exact hrecord.trans (by rw [hcollector]; rfl)
      · rw [if_neg hm]
        rfl
    | some record => exact Table.lookup_insert_ite d.requests n m record

/-- The channels of the other collectors stay as they are. -/
theorem channels_collect {now : NaiveDateTime} (h : d.collect p n now = some d') {m : Nat}
    (hm : m ≠ n) : d'.request m = d.request m ∧ d'.response m = d.response m := by
  have hother : ∀ (channels : Nat → List Bytes) (rest : List Bytes),
      Function.update channels n rest m = channels m :=
    fun channels rest => (Function.update_apply channels n rest m).trans (if_neg hm)
  obtain ⟨_, -, -, -, -, hcases⟩ := collect_cases h
  rcases hcases with ⟨-, rfl⟩ | ⟨_, _, _, rest, -, -, rfl⟩ | ⟨_, _, -, -, -, rfl⟩ |
    ⟨_, _, _, _, rest, -, -, rfl⟩ | ⟨_, _, _, -, -, -, rfl⟩
  · exact ⟨rfl, rfl⟩
  · exact ⟨hother d.request rest, rfl⟩
  · exact ⟨rfl, rfl⟩
  · exact ⟨rfl, hother d.response rest⟩
  · exact ⟨rfl, rfl⟩

theorem Faithful.collect {now : NaiveDateTime} (hf : d.Faithful p)
    (h : d.collect p n now = some d') : d'.Faithful p := by
  obtain ⟨stream, hstream, hclient, hreplays, hother, -⟩ := collect_cases h
  exact hf.setCollector hstream hclient hreplays (fun m hm => (channels_collect h hm).1)
    (fun m hm => (channels_collect h hm).2) hother
    ((hf.conversation n stream hstream).collected hstream h) (lookup_collect (hf.requests n) h)

/-- What a replay does before its request is sent. -/
theorem replayRequest_cases {rid : Nat} {streamId : StreamId} {result : ConnectResult}
    (h : d.replayRequest useTls rid streamId result = some d') :
    d' = d ∨ d' = { d with client := d.client.notifyTunnel 0 (.Refused streamId) } ∨
      ∃ request, d.requests.lookup rid = some request ∧ result = .ok ∧ d' = { d with
        client := { d.client.setLocal d.client.streams (LocalStream.new streamId 0) with
          streams := d.client.streams + 1 }
        replays := Function.update d.replays d.client.streams (some request.entireRequest) } := by
  unfold replayRequest at h
  split at h
  · exact Or.inl (Option.some.inj h).symm
  next request hrequest =>
    split at h
    · exact Or.inr (Or.inr ⟨request, hrequest, rfl, (Option.some.inj h).symm⟩)
    · exact Or.inr (Or.inl (Option.some.inj h).symm)
    · split at h
      · exact Or.inl (Option.some.inj h).symm
      · cases h

theorem replaySend_cases (h : d.replaySend n = some d') :
    ∃ data stream, d.replays n = some data ∧ d.client.locals n = some stream ∧
      stream.forwardToLocalTcp = .spawning ∧ d' = { d with
        client := { d.client.setLocal n { stream with
            forwardToLocalTcp := .running
            queue := stream.queue.sendOrDrop (.Data data) } with
          activeStreams := d.client.activeStreams.insert stream.streamId n } } := by
  unfold replaySend at h
  split at h
  next data stream hdata hstream =>
    split at h
    next hspawning =>
      exact ⟨data, stream, hdata, hstream, hspawning, (Option.some.inj h).symm⟩
    · cases h
  · cases h

/-- The client changes, but nothing goes over the connections. -/
theorem Faithful.frame {c' : Client} {replays : Nat → Option Bytes} (hf : d.Faithful p)
    (hwf : c'.WellFormed) (hreplayed : ∀ n, c'.locals n = none → replays n = none)
    (hapart : ∀ streamId data n, c'.control = .inserting streamId data n → replays n = none)
    (hlocals : ∀ n, c'.locals n = none → d.client.locals n = none)
    (hold : ∀ n stream', c'.locals n = some stream' →
      (∃ stream, d.client.locals n = some stream ∧ stream.Advance [] [] stream') ∨
        d.client.locals n = none ∧ ∃ streamId wormhole,
          stream' = LocalStream.new streamId wormhole) :
    Faithful p { d with client := c', replays := replays } := by
  refine ⟨hwf, hreplayed, hapart, fun n hn => hf.idle n (hlocals n hn), ?_, hf.requests⟩
  intro n stream' hstream'
  rcases hold n stream' hstream' with ⟨stream, hstream, hadvance⟩ | ⟨hnone, streamId, w, rfl⟩
  · refine (hf.conversation n stream hstream).advance hadvance rfl ?_ ?_ (fun _ => rfl)
      fun _ => rfl
    · exact (List.append_nil _).symm
    · exact (List.append_nil _).symm
  · obtain ⟨hrequest, hresponse, hspawned⟩ := hf.idle n hnone
    exact conversation_new hrequest hresponse hspawned

theorem Faithful.replayRequest {rid : Nat} {streamId : StreamId} {result : ConnectResult}
    (hf : d.Faithful p) (h : d.replayRequest useTls rid streamId result = some d') :
    d'.Faithful p := by
  rcases replayRequest_cases h with rfl | rfl | ⟨request, -, -, rfl⟩
  · exact hf
  · have hlocals := locals_notifyTunnel d.client 0 (.Refused streamId)
    refine hf.frame (hf.wellFormed.notifyTunnel _ _) ?_ ?_ ?_ ?_
    · rw [hlocals]
      exact hf.replayed
    · rw [control_notifyTunnel]
      exact hf.apart
    · rw [hlocals]
      exact fun _ => id
    · intro n stream hstream
      rw [hlocals] at hstream
      exact Or.inl ⟨stream, hstream, .refl stream⟩
  · have hfresh := hf.wellFormed.made d.client.streams (Nat.le_refl _)
    refine hf.frame (hf.wellFormed.replayed streamId 0) ?_ ?_ ?_ ?_
    · intro n hn
      simp only [locals_setLocal] at hn
      split at hn
      · cases hn
      next hne =>
        exact (Function.update_apply _ _ _ _).trans ((if_neg hne).trans (hf.replayed n hn))
    · intro id data n hn
      have hne : n ≠ d.client.streams := by
        rintro rfl
        obtain ⟨stream, hstream, -⟩ := hf.wellFormed.inserting id data _ hn
        cases hfresh.symm.trans hstream
      exact (Function.update_apply _ _ _ _).trans ((if_neg hne).trans (hf.apart id data n hn))
    · intro n hn
      simp only [locals_setLocal] at hn
      split at hn
      · cases hn
      · exact hn
    · intro n stream hstream
      simp only [locals_setLocal] at hstream
      split at hstream
      next heq =>
        obtain rfl := Option.some.inj hstream
        exact Or.inr ⟨heq ▸ hfresh, streamId, 0, rfl⟩
      · exact Or.inl ⟨stream, hstream, .refl stream⟩

theorem Faithful.replaySend (hf : d.Faithful p) (h : d.replaySend n = some d') :
    d'.Faithful p := by
  obtain ⟨data, stream, hdata, hstream, hspawning, rfl⟩ := replaySend_cases h
  have hother : ∀ streamId chunk, d.client.control ≠ .inserting streamId chunk n := by
    intro streamId chunk hcontrol
    cases (hf.apart streamId chunk n hcontrol).symm.trans hdata
  have hnone : ∀ m, (d.client.setLocal n { stream with
      forwardToLocalTcp := .running
      queue := stream.queue.sendOrDrop (.Data data) }).locals m = none →
      d.client.locals m = none := by
    intro m hm
    rw [locals_setLocal] at hm
    split at hm
    · cases hm
    · exact hm
  refine hf.frame (hf.wellFormed.entered hstream hspawning hother _)
    (fun m hm => hf.replayed m (hnone m hm)) hf.apart hnone ?_
  intro m changed hchanged
  left
  simp only [locals_setLocal] at hchanged
  split at hchanged
  next heq =>
    subst heq
    obtain rfl := Option.some.inj hchanged
    refine ⟨stream, hstream, .quiet rfl rfl rfl rfl ?_ fun _ => rfl⟩
    rw [hspawning]
    exact nofun
  · exact ⟨changed, hchanged, .refl changed⟩

theorem faithful_step {e : DashboardEvent} (hf : d.Faithful p)
    (h : d.step p useTls e = some d') : d'.Faithful p := by
  cases e with
  | tunnel e => exact hf.tunnel h
  | collect n now => exact hf.collect h
  | replayRequest rid streamId result => exact hf.replayRequest h
  | replaySend n => exact hf.replaySend h

theorem faithful_run {es : List DashboardEvent}
    (h : (dashboard p useTls).run Dashboard.new es = some d) : d.Faithful p :=
  Machine.run_invariant (I := fun d => d.Faithful p) (G := fun _ _ => True)
    (fun _ _ _ hf _ ht => faithful_step hf ht) faithful_new (Machine.meets_true _ _) h

/-- What is known of a record. -/
theorem Faithful.record (hf : d.Faithful p) {r : Request} (h : d.requests.lookup n = some r) :
    ∃ stream started completed request response, d.client.locals n = some stream ∧
      d.collectStream n = .returned started completed request response ∧
      Request.of p n started completed request response = some r := by
  rw [hf.requests n] at h
  cases hcollector : d.collectStream n with
  | returned started completed request response =>
    rw [hcollector] at h
    cases hstream : d.client.locals n with
    | none =>
      rw [(hf.idle n hstream).2.2] at hcollector
      cases hcollector
    | some stream => exact ⟨stream, started, completed, request, response, rfl, rfl, h⟩
  | _ =>
    rw [hcollector] at h
    cases h

theorem Conversation.returned {stream : LocalStream} {started completed : NaiveDateTime}
    {request response : Bytes} (h : d.Conversation n stream)
    (hcollector : d.collectStream n = .returned started completed request response) :
    stream.forwardToLocalTcp.ended = true ∧ stream.processLocalTcp ≠ .reading ∧
      (request <+: stream.socket.written ∧
        (stream.forwardToLocalTcp = .returned → request = stream.socket.written)) ∧
      response <+: stream.socket.received ∧
        (stream.processLocalTcp = .returned → response = stream.socket.received) := by
  obtain ⟨hreq, hreqAll, hresp, hrespAll, hpast, hdone⟩ := h
  rw [hcollector] at hreq hreqAll hresp hrespAll hpast hdone
  obtain ⟨hqueue, hended⟩ := hpast rfl
  obtain ⟨hqueue', hover⟩ := hdone rfl
  rw [hqueue, List.flatten_nil, List.append_nil] at hreq hreqAll
  rw [hqueue', List.flatten_nil, List.append_nil] at hresp hrespAll
  refine ⟨hended, hover, ⟨hreq, fun hreturned => hreqAll ?_⟩, hresp,
    fun hreturned => hrespAll ?_⟩
  · rw [hreturned]
    exact nofun
  · rw [hreturned]
    exact nofun

end Dashboard

namespace Recorded

def request : Bytes := utf8 "GET / HTTP/1.1\r\n\r\n".toList
def response : Bytes := utf8 "HTTP/1.1 200 OK\r\n\r\n".toList

/-- The parser, on messages that begin with one of these two. -/
def parser : Httparse where
  parseRequest bytes :=
    if request <+: bytes then
      some (request.length, ⟨some "/".toList, some "GET".toList, []⟩)
    else none
  parseResponse bytes :=
    if response <+: bytes then (some response.length, ⟨some 200, []⟩) else (none, ⟨none, []⟩)
  parseRequest_le bytes len head h := by
    split at h
    next hrequest =>
      obtain ⟨rfl, -⟩ := Prod.mk.inj (Option.some.inj h)
      exact hrequest.length_le
    · cases h
  parseResponse_le bytes len head h := by
    split at h
    next hresponse =>
      obtain ⟨hlen, -⟩ := Prod.mk.inj h
      obtain rfl := Option.some.inj hlen
      exact hresponse.length_le
    · cases h

/-- One request over the tunnel and its response. -/
def exchange : List DashboardEvent :=
  [.tunnel (.startWormhole (.ok ())),
    .tunnel (.receive (.ok (.Binary (ControlPacket.Data sampleStream request).serialize))),
    .tunnel (.connect .ok), .tunnel .insert, .tunnel .forward, .tunnel (.writeLocal 0 .ok),
    .tunnel (.readLocal 0 (.ok response)), .tunnel (.readLocal 0 (.ok [])),
    .tunnel (.writeLocal 0 .ok)]

end Recorded
end Neutun
