/-
  Neutun/Client/Progress.lean
  ===========================
  What the client has taken in gets to the local connections.

  A chunk in hand has up to four steps before it is in the queue of its local
  connection, and one write from there to the socket.  As long as the reading loop
  goes on, no local connection is being ended and the local service accepts what it
  is sent, each of these steps is possible when it is due, and each brings the
  client closer to having nothing left to do.
-/
import Mathlib.Algebra.BigOperators.Group.Finset.Basic
import Neutun.Client.Uplink

namespace Neutun

open Foundation

namespace Client

/-! ### What is left to do -/

/-- The steps before the chunk in hand is in a queue, and the write that the
    forwarder of a new local connection is spawned for. -/
def Control.load : Control → Nat
  | .connecting .. => 5
  | .inserting .. => 4
  | .forwarding .. => 2
  | _ => 0

def LocalStream.load (stream : LocalStream) : Nat :=
  stream.queue.queue.length + if stream.forwardToLocalTcp = .running then 1 else 0

def load (c : Client) : Nat :=
  c.control.load + ∑ n ∈ Finset.range c.streams, (c.locals n).elim 0 LocalStream.load

/-- The reading loop of `run_wormhole` goes on. -/
def Control.looping : Control → Bool
  | .reading | .connecting .. | .inserting .. | .forwarding .. => true
  | _ => false

/-- The steps that take a chunk on towards the local connections, with the local
    service accepting it. -/
def Hands : ClientEvent → Prop
  | .connect result => result = .ok
  | .insert | .forward => True
  | .writeLocal _ result => result = .ok
  | _ => False

/-- The reading loop goes on, its tunnel is open, and nobody has ended or is about to
    end a local connection that chunks go to. -/
structure Attending (c : Client) : Prop where
  looping : c.control.looping = true
  tunnel : (c.tunnels c.wormhole).channel.closed = false
  alive : ∀ id n, Open id n c → ∀ stream, c.locals n = some stream →
    stream.forwardToLocalTcp.ended = false ∧ .Close ∉ stream.queue.queue

variable {c c' : Client}

/-- One local connection changes. -/
theorem load_setLocal {n : Nat} {old : LocalStream} (hwf : c.WellFormed)
    (hold : c.locals n = some old) (stream : LocalStream) :
    (∑ m ∈ Finset.range c.streams, ((c.setLocal n stream).locals m).elim 0 LocalStream.load) +
        old.load =
      (∑ m ∈ Finset.range c.streams, (c.locals m).elim 0 LocalStream.load) + stream.load := by
  have hn : n ∈ Finset.range c.streams := by
    rw [Finset.mem_range]
    by_contra hge
    have hnone := hwf.made n (Nat.le_of_not_lt hge)
    rw [hold] at hnone
    cases hnone
  have hrest : ∑ m ∈ (Finset.range c.streams).erase n,
      ((c.setLocal n stream).locals m).elim 0 LocalStream.load =
      ∑ m ∈ (Finset.range c.streams).erase n, (c.locals m).elim 0 LocalStream.load := by
    apply Finset.sum_congr rfl
    intro m hm
    rw [locals_setLocal, if_neg (Finset.ne_of_mem_erase hm)]
  rw [← Finset.add_sum_erase _ _ hn, ← Finset.add_sum_erase _ _ hn, hrest, locals_setLocal,
    if_pos rfl, hold, Option.elim_some, Option.elim_some]
  omega

/-- A new one is made. -/
theorem load_made (c : Client) (stream : LocalStream) :
    (∑ m ∈ Finset.range (c.streams + 1),
        ((c.setLocal c.streams stream).locals m).elim 0 LocalStream.load) =
      (∑ m ∈ Finset.range c.streams, (c.locals m).elim 0 LocalStream.load) + stream.load := by
  rw [Finset.sum_range_succ, locals_setLocal, if_pos rfl, Option.elim_some]
  congr 1
  apply Finset.sum_congr rfl
  intro m hm
  rw [locals_setLocal, if_neg (Nat.ne_of_lt (Finset.mem_range.mp hm))]

@[simp] theorem streams_setLocal (c : Client) (n : Nat) (stream : LocalStream) :
    (c.setLocal n stream).streams = c.streams := rfl

@[simp] theorem closed_notifyTunnel (c : Client) (v w : Nat) (packet : ControlPacket) :
    ((c.notifyTunnel v packet).tunnels w).channel.closed = (c.tunnels w).channel.closed := by
  rw [notifyTunnel_eq, tunnels_setTunnel]
  split
  next heq =>
    subst heq
    exact Channel.sendOrDrop_closed _ _
  · rfl

/-! ### A message comes in -/

/-- Only a chunk gives the client something to do. -/
theorem attend_receive {message : Message} {packet : ControlPacket} (ha : c.Attending)
    (hpacket : received (.receive (.ok message)) = some packet)
    (hrefused : ∀ id, packet ≠ .Refused id) (h : c.receive (.ok message) = some c') :
    c'.Attending ∧ c'.wormhole = c.wormhole ∧ c'.load ≤ c.load + 5 := by
  obtain ⟨hreading, hcases⟩ := receive_cases h
  rcases hcases with ⟨bytes, heq, -⟩ | ⟨message', heq, hclose, rfl⟩ | ⟨heq | heq, -⟩
  · obtain rfl : message = .Close bytes := by injection heq
    cases hpacket
  · obtain rfl : message = message' := by injection heq
    rw [received_ok hclose] at hpacket
    have hdeserialized : ControlPacket.deserialize message.data = .ok packet := by
      cases hresult : ControlPacket.deserialize message.data with
      | error e =>
        rw [hresult] at hpacket
        cases hpacket
      | ok result =>
        rw [hresult] at hpacket
        rw [Option.some.inj hpacket]
    -- a chunk in hand is none that an entry is being made for
    have halive : ∀ {u : Client}, u.locals = c.locals → u.activeStreams = c.activeStreams →
        (∀ id data n, u.control ≠ .inserting id data n) → ∀ id n, Open id n u →
        ∀ stream, u.locals n = some stream →
          stream.forwardToLocalTcp.ended = false ∧ .Close ∉ stream.queue.queue := by
      intro u hlocals hactive hcontrol id n hn stream hstream
      rw [hlocals] at hstream
      exact ha.alive id n (hn.of_active hactive fun data => hcontrol id data n) stream hstream
    unfold processControlFlowMessage
    rw [hdeserialized]
    cases packet with
    | Init streamId => exact ⟨ha, rfl, Nat.le_add_right _ _⟩
    | Ping token =>
      refine ⟨⟨?_, ?_, ?_⟩, ?_, ?_⟩
      · simp only [control_notifyTunnel]
        exact ha.looping
      · simp only [closed_notifyTunnel, wormhole_notifyTunnel]
        exact ha.tunnel
      · apply halive
        · simp only [locals_notifyTunnel]
        · simp only [activeStreams_notifyTunnel]
        · simp only [control_notifyTunnel, hreading]
          exact fun _ _ _ => nofun
      · simp only [wormhole_notifyTunnel]
      · simp only [load, control_notifyTunnel, streams_notifyTunnel, locals_notifyTunnel]
        exact Nat.le_add_right _ _
    | Refused streamId => exact absurd rfl (hrefused streamId)
    | End streamId =>
      exact ⟨⟨ha.looping, ha.tunnel, ha.alive⟩, rfl, Nat.le_add_right _ _⟩
    | Data streamId data =>
      simp only
      split
      · refine ⟨⟨rfl, ha.tunnel, halive rfl rfl fun _ _ _ => nofun⟩, rfl, ?_⟩
        simp only [load, hreading, Control.load]
        omega
      · refine ⟨⟨rfl, ha.tunnel, halive rfl rfl fun _ _ _ => nofun⟩, rfl, ?_⟩
        simp only [load, hreading, Control.load]
        omega
  · cases heq
  · cases heq

/-! ### What comes in is handed on -/

theorem attend_connect {useTls : Bool} (ha : c.Attending)
    (h : c.connect useTls .ok = some c') :
    c'.Attending ∧ c'.wormhole = c.wormhole ∧ c'.load < c.load := by
  rcases connect_cases h with ⟨streamId, data, hcontrol, ⟨-, rfl⟩ | ⟨hne, -⟩ | ⟨hne, -⟩⟩
  · refine ⟨⟨rfl, ha.tunnel, ?_⟩, rfl, ?_⟩
    · rintro id n hn stream hstream
      simp only [locals_setLocal] at hstream
      split at hstream
      next heq =>
        obtain rfl := Option.some.inj hstream
        exact ⟨rfl, List.not_mem_nil⟩
      next hne =>
        rcases hn with hn | ⟨data', hn⟩
        · exact ha.alive id n (Or.inl hn) stream hstream
        · exact absurd (Control.inserting.inj hn).2.2.symm hne
    · simp only [load, load_made, hcontrol, Control.load]
      change 4 + (_ + 0) < 5 + _
      omega
  · cases hne
  · cases hne

theorem attend_insert (hwf : c.WellFormed) (ha : c.Attending) (h : c.insert = some c') :
    c'.Attending ∧ c'.wormhole = c.wormhole ∧ c'.load < c.load := by
  obtain ⟨streamId, data, n, stream, hcontrol, hstream, rfl⟩ := insert_cases h
  have hopen : ∀ id m, (c.activeStreams.insert streamId n).lookup id = some m → Open id m c := by
    intro id m hm
    rw [Table.lookup_insert_ite] at hm
    split at hm
    next hid =>
      obtain rfl := Option.some.inj hm
      exact Or.inr ⟨data, hid ▸ hcontrol⟩
    · exact Or.inl hm
  refine ⟨⟨rfl, ha.tunnel, ?_⟩, rfl, ?_⟩
  · rintro id m (hm | ⟨data', hm⟩) stream' hstream'
    · simp only [locals_setLocal] at hstream'
      split at hstream'
      next heq =>
        subst heq
        obtain rfl := Option.some.inj hstream'
        exact ⟨rfl, (ha.alive id m (hopen id m hm) stream hstream).2⟩
      · exact ha.alive id m (hopen id m hm) stream' hstream'
    · cases hm
  · have hsum := load_setLocal hwf hstream { stream with forwardToLocalTcp := .running }
    have hrunning : LocalStream.load { stream with forwardToLocalTcp := .running } ≤
        stream.load + 1 := by
      simp only [LocalStream.load, if_true]
      omega
    simp only [load, hcontrol, Control.load, streams_setLocal]
    omega

theorem attend_forward (hwf : c.WellFormed) (ha : c.Attending) (h : c.forward = some c') :
    c'.Attending ∧ c'.wormhole = c.wormhole ∧ c'.load < c.load := by
  obtain ⟨streamId, data, hcontrol, hcases⟩ := forward_cases h
  rcases hcases with ⟨n, stream, hn, hstream, ⟨-, rfl⟩ | ⟨hclosed, -⟩⟩ |
    ⟨-, ⟨-, rfl⟩ | ⟨hclosed, -⟩⟩
  · refine ⟨⟨rfl, ha.tunnel, ?_⟩, rfl, ?_⟩
    · rintro id m (hm | ⟨data', hm⟩) stream' hstream'
      · simp only [locals_setLocal] at hstream'
        split at hstream'
        next heq =>
          subst heq
          obtain rfl := Option.some.inj hstream'
          obtain ⟨halive, hclose⟩ := ha.alive id m (Or.inl hm) stream hstream
          refine ⟨halive, ?_⟩
          rw [List.mem_append]
          rintro (hmem | hmem)
          · exact hclose hmem
          · exact absurd (List.mem_singleton.mp hmem) nofun
        · exact ha.alive id m (Or.inl hm) stream' hstream'
      · cases hm
    · have hsum := load_setLocal hwf hstream
        { stream with queue := ⟨stream.queue.queue ++ [.Data data], false⟩ }
      have hmore : LocalStream.load
          { stream with queue := ⟨stream.queue.queue ++ [.Data data], false⟩ } =
          stream.load + 1 := by
        simp only [LocalStream.load, List.length_append, List.length_singleton]
        omega
      simp only [load, hcontrol, Control.load, streams_setLocal]
      omega
  · -- the queue is open: nobody has ended the local connection
    obtain ⟨halive, -⟩ := ha.alive streamId n (Or.inl hn) stream hstream
    rw [(hwf.sound n stream hstream).closed, halive] at hclosed
    cases hclosed
  · refine ⟨⟨rfl, ?_, ?_⟩, ?_, ?_⟩
    · simp only [closed_notifyTunnel, wormhole_notifyTunnel]
      exact ha.tunnel
    · rintro id m (hm | ⟨data', hm⟩) stream' hstream'
      · simp only [activeStreams_notifyTunnel] at hm
        simp only [locals_notifyTunnel] at hstream'
        exact ha.alive id m (Or.inl hm) stream' hstream'
      · cases hm
    · simp only [wormhole_notifyTunnel]
    · simp only [load, hcontrol, Control.load, streams_notifyTunnel, locals_notifyTunnel]
      omega
  · rw [ha.tunnel] at hclosed
    cases hclosed

/-- A chunk is written; what else a turn can be is the end of a local connection that
    no chunks go to. -/
theorem attend_writeLocal {n : Nat} (hwf : c.WellFormed) (ha : c.Attending)
    (h : c.writeLocal n .ok = some c') :
    c'.Attending ∧ c'.wormhole = c.wormhole ∧ c'.load < c.load := by
  obtain ⟨stream, stream', hstream, hturn, rfl⟩ := writeLocal_cases h
  have hrunning := (LocalStream.turn_cases hturn).1
  have hopen : ∀ id, Open id n c → c.hasSender n = true := by
    rintro id (hn | ⟨data, hn⟩)
    · unfold hasSender
      rw [List.contains_iff_mem.mpr (Table.mem_values.mpr ⟨id, hn⟩)]
      rfl
    · obtain ⟨stream₀, hstream₀, -, hspawning⟩ := hwf.inserting id data n hn
      obtain rfl := Option.some.inj (hstream.symm.trans hstream₀)
      rw [hrunning] at hspawning
      cases hspawning
  have hchanged : stream'.load < stream.load ∧ ∀ id, Open id n c →
      stream'.forwardToLocalTcp.ended = false ∧ .Close ∉ stream'.queue.queue := by
    unfold LocalStream.turn at hturn
    rw [hrunning] at hturn
    cases hqueue : stream.queue.queue with
    | nil =>
      simp only [hqueue] at hturn
      split at hturn
      · cases hturn
      next hnobody =>
        obtain rfl := Option.some.inj hturn
        refine ⟨?_, ?_⟩
        · simp [LocalStream.load, hrunning]
        · intro id hn
          exact absurd (hopen id hn) hnobody
    | cons m rest =>
      cases m with
      | Data data =>
        simp only [hqueue] at hturn
        obtain rfl := Option.some.inj hturn
        refine ⟨?_, ?_⟩
        · simp [LocalStream.load, hqueue, hrunning]
        · intro id hn
          obtain ⟨-, hclose⟩ := ha.alive id n hn stream hstream
          rw [hqueue] at hclose
          exact ⟨rfl, fun hmem => hclose (List.mem_cons_of_mem _ hmem)⟩
      | Close =>
        simp only [hqueue] at hturn
        obtain rfl := Option.some.inj hturn
        refine ⟨?_, ?_⟩
        · simp [LocalStream.load, hqueue, hrunning]
        · intro id hn
          obtain ⟨-, hclose⟩ := ha.alive id n hn stream hstream
          rw [hqueue] at hclose
          exact absurd List.mem_cons_self hclose
  obtain ⟨hless, halive⟩ := hchanged
  refine ⟨⟨ha.looping, ha.tunnel, ?_⟩, rfl, ?_⟩
  · intro id m hm found hfound
    rw [locals_setLocal] at hfound
    split at hfound
    next heq =>
      subst heq
      obtain rfl := Option.some.inj hfound
      exact halive id hm
    · exact ha.alive id m hm found hfound
  · have hsum := load_setLocal hwf hstream stream'
    unfold load
    simp only [control_setLocal, streams_setLocal]
    omega

theorem attend_step {useTls : Bool} {e : ClientEvent} (hwf : c.WellFormed) (ha : c.Attending)
    (he : Hands e) (h : c.step useTls e = some c') :
    c'.Attending ∧ c'.wormhole = c.wormhole ∧ c'.load < c.load := by
  cases e with
  | connect result =>
    obtain rfl : result = .ok := he
    have hconnect : c.connect useTls .ok = some c' := h
    exact attend_connect ha hconnect
  | insert => exact attend_insert hwf ha h
  | forward => exact attend_forward hwf ha h
  | writeLocal n result =>
    obtain rfl : result = .ok := he
    exact attend_writeLocal hwf ha h
  | _ => exact he.elim

/-! ### Until nothing is left -/

/-- Where none of these steps is possible, the reading loop waits for the next
    message, and what went to a local connection has been written. -/
theorem attended {useTls : Bool} (hwf : c.WellFormed) (ha : c.Attending)
    (hstuck : ∀ e, Hands e → c.step useTls e = none) :
    c.control = .reading ∧ ∀ id n stream, c.activeStreams.lookup id = some n →
      c.locals n = some stream → stream.queue.queue = [] := by
  constructor
  · have hlooping := ha.looping
    cases hcontrol : c.control with
    | reading => rfl
    | connecting streamId data =>
      have hnone := hstuck (.connect .ok) rfl
      simp [Client.step, connect, hcontrol] at hnone
    | inserting streamId data n =>
      obtain ⟨stream, hstream, -, -⟩ := hwf.inserting streamId data n hcontrol
      have hnone := hstuck .insert trivial
      simp [Client.step, insert, hcontrol, hstream] at hnone
    | forwarding streamId data =>
      have hnone := hstuck .forward trivial
      simp only [Client.step, forward, hcontrol] at hnone
      cases hlookup : c.activeStreams.lookup streamId with
      | none =>
        simp only [hlookup] at hnone
        cases hsend : c.sendToTunnel c.wormhole (.Refused streamId) <;> simp [hsend] at hnone
      | some n =>
        obtain ⟨stream, hstream, -, -⟩ := hwf.entry streamId n hlookup
        simp only [hlookup, hstream] at hnone
        cases hsend : stream.queue.send (.Data data) <;> simp [hsend] at hnone
    | _ =>
      rw [hcontrol] at hlooping
      cases hlooping
  · intro id n stream hn hstream
    obtain ⟨halive, -⟩ := ha.alive id n (Or.inl hn) stream hstream
    obtain ⟨stream₀, hstream₀, -, hspawned⟩ := hwf.entry id n hn
    obtain rfl := Option.some.inj (hstream.symm.trans hstream₀)
    have hrunning : stream.forwardToLocalTcp = .running := by
      cases hforwarder : stream.forwardToLocalTcp with
      | running => rfl
      | spawning => exact absurd hforwarder hspawned
      | _ =>
        rw [hforwarder] at halive
        cases halive
    cases hqueue : stream.queue.queue with
    | nil => rfl
    | cons m rest =>
      have hnone := hstuck (.writeLocal n .ok) rfl
      cases m <;>
        simp [Client.step, writeLocal, hstream, LocalStream.turn, hrunning, hqueue] at hnone

variable {id : StreamId} {chunks : List (Bytes × Bool)} {pieces : List Bytes} {index : Nat → Nat}

/-- The local connection that the table has for the stream has then got the whole of
    the last piece. -/
theorem Uplink.getLast (hu : Uplink id c chunks pieces index) (hwf : c.WellFormed)
    (ha : c.Attending) (hreading : c.control = .reading) {n : Nat} {stream : LocalStream}
    (hn : c.activeStreams.lookup id = some n) (hstream : c.locals n = some stream)
    (hqueue : stream.queue.queue = []) : pieces.getLast? = some stream.socket.written := by
  obtain ⟨stream₀, hstream₀, hid, -⟩ := hwf.entry id n hn
  obtain rfl := Option.some.inj (hstream.symm.trans hstream₀)
  obtain ⟨piece, hpiece, hcarries⟩ := hu.carries n stream hstream hid
  have hconveys := hcarries.alive (ha.alive id n (Or.inl hn) stream hstream).1
  rw [LocalStream.queued, hqueue, heading_of_not_handing (by rw [hreading]; rfl)] at hconveys
  rw [hconveys.delivered (Or.inl hn), List.getLast?_eq_getElem?, ← hu.last n (Or.inl hn)]
  exact hpiece

end Client

end Neutun
