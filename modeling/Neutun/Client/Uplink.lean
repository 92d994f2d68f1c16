/-
  Neutun/Client/Uplink.lean
  =========================
  From `process_control_flow_message` to the local connections of one stream.

  A chunk for a stream that `ACTIVE_STREAMS` lacks makes the client connect to the
  local service; the chunks after it go to that local connection as long as the
  table has it.  So each such chunk begins a new piece of what comes in for the
  stream, a local connection belongs to one piece, and the way from there to its
  socket is a conduit (the chunk in hand, the queue, the socket) that is open while
  the table has the connection and does not open again.
-/
import Mathlib.Data.List.ModifyLast
import Neutun.Client.Streams
import Neutun.Foundation.Conduit

namespace Neutun

open Foundation

namespace Client

/-! ### What comes in for a stream -/

/-- The chunk that a step takes for the stream, and whether it finds the stream
    missing from `ACTIVE_STREAMS`. -/
def chunkFor (id : StreamId) (c : Client) (e : ClientEvent) : List (Bytes × Bool) :=
  match received e with
  | some (.Data streamId data) =>
    if streamId = id then [(data, (c.activeStreams.lookup id).isNone)] else []
  | _ => []

/-- The bytes of the chunks. -/
def bytesOf (chunks : List (Bytes × Bool)) : Bytes := chunks.flatMap Prod.fst

/-- How many of the chunks were setups. -/
def setups (chunks : List (Bytes × Bool)) : Nat := chunks.countP Prod.snd

/-- The bytes of the chunks, cut up in front of each setup. -/
def cut (chunks : List (Bytes × Bool)) : List Bytes :=
  chunks.foldl (fun pieces chunk =>
    if chunk.2 then pieces ++ [chunk.1] else pieces.modifyLast (· ++ chunk.1)) []

theorem cut_setup (chunks : List (Bytes × Bool)) (data : Bytes) :
    cut (chunks ++ [(data, true)]) = cut chunks ++ [data] := by
  rw [cut, List.foldl_append]
  rfl

theorem cut_next {chunks : List (Bytes × Bool)} {earlier : List Bytes} {piece : Bytes}
    (h : cut chunks = earlier ++ [piece]) (data : Bytes) :
    cut (chunks ++ [(data, false)]) = earlier ++ [piece ++ data] := by
  rw [cut, List.foldl_append]
  change (cut chunks).modifyLast (· ++ data) = _
  rw [h, List.modifyLast_concat]

/-- What of the chunk in hand is going to the local connection `n`. -/
def heading (id : StreamId) (n : Nat) (c : Client) : Bytes :=
  match c.control with
  | .inserting streamId data m => if streamId = id ∧ m = n then data else []
  | .forwarding streamId data =>
    if streamId = id ∧ c.activeStreams.lookup id = some n then data else []
  | _ => []

/-- Chunks for the stream get to the local connection `n`. -/
def Open (id : StreamId) (n : Nat) (c : Client) : Prop :=
  c.activeStreams.lookup id = some n ∨ ∃ data, c.control = .inserting id data n

variable {id : StreamId} {c c' : Client} {n : Nat}

theorem heading_of_not_handing (h : c.control.handing = false) : heading id n c = [] := by
  unfold heading
  split
  next heq =>
    rw [heq] at h
    cases h
  next heq =>
    rw [heq] at h
    cases h
  · rfl

theorem heading_congr (hcontrol : c'.control = c.control)
    (hactive : c'.activeStreams.lookup id = c.activeStreams.lookup id) :
    heading id n c' = heading id n c := by
  unfold heading
  rw [hcontrol, hactive]

/-- Where the table is as it was, only a chunk that a new entry is made for can have
    come to go to a local connection. -/
theorem Open.of_active (h : Open id n c') (hactive : c'.activeStreams = c.activeStreams)
    (hinserting : ∀ data, c'.control ≠ .inserting id data n) : Open id n c := by
  rcases h with h | ⟨data, h⟩
  · left
    rwa [← hactive]
  · exact absurd h (hinserting data)

theorem Open.of_not_handing (h : Open id n c') (hactive : c'.activeStreams = c.activeStreams)
    (hhanding : c'.control.handing = false) : Open id n c := by
  apply h.of_active hactive
  intro data hdata
  rw [hdata] at hhanding
  cases hhanding

/-! ### The conduit of a local connection -/

/-- What a local connection has made of the bytes of its piece: a forwarder that
    has ended writes nothing more. -/
structure Carries (id : StreamId) (c : Client) (piece : Bytes) (n : Nat) (stream : LocalStream) :
    Prop where
  ended : stream.forwardToLocalTcp.ended = true → stream.socket.written <+: piece
  alive : stream.forwardToLocalTcp.ended = false →
    Conveys piece stream.socket.written (stream.queued ++ heading id n c) (Open id n c)

/-- What a local connection has got is an initial part of its piece. -/
theorem Carries.isPrefix {piece : Bytes} {stream : LocalStream} (hc : Carries id c piece n stream) :
    stream.socket.written <+: piece := by
  cases hended : stream.forwardToLocalTcp.ended with
  | true => exact hc.ended hended
  | false => exact (hc.alive hended).isPrefix

/-- What is kept about the local connections of a stream: `index` tells which piece
    of the bytes a local connection belongs to. -/
structure Uplink (id : StreamId) (c : Client) (chunks : List (Bytes × Bool)) (pieces : List Bytes)
    (index : Nat → Nat) : Prop where
  cut_eq : cut chunks = pieces
  bytes : pieces.flatten = bytesOf chunks
  count : pieces.length = setups chunks
  last : ∀ n, Open id n c → index n + 1 = pieces.length
  connecting : ∀ data, c.control = .connecting id data → ∃ earlier, pieces = earlier ++ [data] ∧
    ∀ n stream, c.locals n = some stream → stream.streamId = id → index n < earlier.length
  increasing : ∀ n m stream stream', c.locals n = some stream → c.locals m = some stream' →
    stream.streamId = id → stream'.streamId = id → n < m → index n < index m
  carries : ∀ n stream, c.locals n = some stream → stream.streamId = id →
    ∃ piece, pieces[index n]? = some piece ∧ Carries id c piece n stream

theorem uplink_new (index : Nat → Nat) : Uplink id Client.new [] [] index := by
  refine ⟨rfl, rfl, rfl, ?_, ?_, ?_, ?_⟩
  · rintro n (h | ⟨data, h⟩)
    · cases h
    · cases h
  · intro data h
    cases h
  · intro n m stream stream' h
    cases h
  · intro n stream h
    cases h

variable {chunks : List (Bytes × Bool)} {pieces : List Bytes} {index : Nat → Nat}

/-- Local connections of one piece are the same. -/
theorem Uplink.eq_of_index (h : Uplink id c chunks pieces index) {m : Nat}
    {stream stream' : LocalStream} (hn : c.locals n = some stream) (hm : c.locals m = some stream')
    (hid : stream.streamId = id) (hid' : stream'.streamId = id) (heq : index n = index m) :
    n = m := by
  rcases Nat.lt_trichotomy n m with hlt | rfl | hlt
  · have := h.increasing n m stream stream' hn hm hid hid' hlt
    omega
  · rfl
  · have := h.increasing m n stream' stream hm hn hid' hid hlt
    omega

/-- A step that brings no chunk for the stream and makes no local connection for
    it. -/
theorem Uplink.frame (h : Uplink id c chunks pieces index)
    (hlocals : ∀ n stream', c'.locals n = some stream' → stream'.streamId = id →
      ∃ stream, c.locals n = some stream ∧ stream.streamId = id ∧
        ∀ piece, Carries id c piece n stream → Carries id c' piece n stream')
    (hopen : ∀ n, Open id n c' → Open id n c)
    (hconnecting : ∀ data, c'.control = .connecting id data → c.control = .connecting id data) :
    Uplink id c' chunks pieces index := by
  refine ⟨h.cut_eq, h.bytes, h.count, fun n hn => h.last n (hopen n hn), ?_, ?_, ?_⟩
  · intro data hcontrol
    obtain ⟨earlier, hpieces, hold⟩ := h.connecting data (hconnecting data hcontrol)
    refine ⟨earlier, hpieces, ?_⟩
    intro n stream' hstream' hid
    obtain ⟨stream, hstream, hid', -⟩ := hlocals n stream' hstream' hid
    exact hold n stream hstream hid'
  · intro n m stream stream' hn hm hid hid' hlt
    obtain ⟨old, hold, hoid, -⟩ := hlocals n stream hn hid
    obtain ⟨old', hold', hoid', -⟩ := hlocals m stream' hm hid'
    exact h.increasing n m old old' hold hold' hoid hoid' hlt
  · intro n stream' hstream' hid
    obtain ⟨stream, hstream, hid', hcarries⟩ := hlocals n stream' hstream' hid
    obtain ⟨piece, hpiece, hold⟩ := h.carries n stream hstream hid'
    exact ⟨piece, hpiece, hcarries piece hold⟩

/-- One local connection changes. -/
theorem locals_changed {n : Nat} {old changed : LocalStream} (hold : c.locals n = some old)
    (hlocals : c'.locals = (c.setLocal n changed).locals)
    (hstreamId : changed.streamId = old.streamId)
    (hchanged : old.streamId = id → ∀ piece, Carries id c piece n old →
      Carries id c' piece n changed)
    (hrest : ∀ m stream piece, m ≠ n → Carries id c piece m stream → Carries id c' piece m stream) :
    ∀ m stream', c'.locals m = some stream' → stream'.streamId = id →
      ∃ stream, c.locals m = some stream ∧ stream.streamId = id ∧
        ∀ piece, Carries id c piece m stream → Carries id c' piece m stream' := by
  intro m stream' hstream' hid
  rw [hlocals, locals_setLocal] at hstream'
  split at hstream'
  next heq =>
    subst heq
    obtain rfl := Option.some.inj hstream'
    exact ⟨old, hold, hstreamId.symm.trans hid, hchanged (hstreamId.symm.trans hid)⟩
  next hne => exact ⟨stream', hstream', hid, fun piece => hrest m stream' piece hne⟩

/-- Nothing happens to the local connection; the table may lose it. -/
theorem Carries.congr {piece : Bytes} {stream stream' : LocalStream}
    (hc : Carries id c piece n stream)
    (hforwarder : stream'.forwardToLocalTcp.ended = stream.forwardToLocalTcp.ended)
    (hwritten : stream'.socket.written = stream.socket.written)
    (hqueued : stream'.queued = stream.queued)
    (hheading : heading id n c' = heading id n c) (hopen : Open id n c' → Open id n c) :
    Carries id c' piece n stream' := by
  constructor
  · rw [hforwarder, hwritten]
    exact hc.ended
  · rw [hforwarder, hwritten, hqueued, hheading]
    intro halive
    exact (hc.alive halive).close hopen

/-- Nothing happens to any of them. -/
theorem Uplink.of_locals_eq (h : Uplink id c chunks pieces index)
    (hlocals : c'.locals = c.locals) (hheading : ∀ n, heading id n c' = heading id n c)
    (hopen : ∀ n, Open id n c' → Open id n c)
    (hconnecting : ∀ data, c'.control = .connecting id data → c.control = .connecting id data) :
    Uplink id c' chunks pieces index := by
  refine h.frame ?_ hopen hconnecting
  intro n stream hstream hid
  rw [hlocals] at hstream
  exact ⟨stream, hstream, hid, fun piece hc => hc.congr rfl rfl rfl (hheading n) (hopen n)⟩

theorem Carries.of_eq {piece : Bytes} {stream stream' : LocalStream}
    (hc : Carries id c piece n stream)
    (hforwarder : stream'.forwardToLocalTcp = stream.forwardToLocalTcp)
    (hwritten : stream'.socket.written = stream.socket.written)
    (hqueued : stream'.queued = stream.queued) : Carries id c piece n stream' :=
  hc.congr (congrArg Forwarder.ended hforwarder) hwritten hqueued rfl fun hn => hn

/-- The stream is taken out of the table: a chunk that was on its way there is lost,
    unless its local connection is yet to be entered. -/
theorem Carries.erase {piece : Bytes} {stream : LocalStream} (hc : Carries id c piece n stream)
    (hcontrol : c'.control = c.control) (hactive : c'.activeStreams.lookup id = none) :
    Carries id c' piece n stream := by
  refine ⟨hc.ended, ?_⟩
  intro halive
  have hconveys := hc.alive halive
  cases hc' : c.control with
  | forwarding streamId data =>
    have hnone : heading id n c' = [] := by
      rw [heading, hcontrol, hc', hactive]
      exact if_neg nofun
    have hclosed : ¬ Open id n c' := by
      rintro (h | ⟨data, h⟩)
      · rw [hactive] at h
        cases h
      · rw [hcontrol, hc'] at h
        cases h
    rw [hnone, List.append_nil]
    exact hconveys.lose hclosed
  | _ =>
    have hheading : heading id n c' = heading id n c := by
      unfold heading
      rw [hcontrol, hc']
    rw [hheading]
    apply hconveys.close
    rintro (h | h)
    · rw [hactive] at h
      cases h
    · right
      rwa [hcontrol] at h

/-! ### A chunk comes in -/

theorem chunkFor_eq_nil {e : ClientEvent} (h : ∀ data, received e ≠ some (.Data id data)) :
    chunkFor id c e = [] := by
  unfold chunkFor
  split
  next streamId data hreceived =>
    apply if_neg
    rintro rfl
    exact h data hreceived
  · rfl

theorem chunkFor_data {e : ClientEvent} {data : Bytes}
    (h : received e = some (.Data id data)) :
    chunkFor id c e = [(data, (c.activeStreams.lookup id).isNone)] := by
  unfold chunkFor
  rw [h]
  exact if_pos rfl

/-- The first chunk of a new piece. -/
theorem Uplink.setup (h : Uplink id c chunks pieces index) {data : Bytes}
    (hactive : c'.activeStreams = c.activeStreams) (hlocals : c'.locals = c.locals)
    (hreading : c.control = .reading) (hcontrol : c'.control = .connecting id data)
    (hnone : c.activeStreams.lookup id = none) :
    Uplink id c' (chunks ++ [(data, true)]) (pieces ++ [data]) index := by
  have hclosed : ∀ n, ¬ Open id n c' := by
    rintro n (hn | ⟨data', hn⟩)
    · rw [hactive, hnone] at hn
      cases hn
    · rw [hcontrol] at hn
      cases hn
  have hheading : ∀ n, heading id n c' = heading id n c := by
    intro n
    rw [heading_of_not_handing (by rw [hcontrol]; rfl),
      heading_of_not_handing (by rw [hreading]; rfl)]
  -- the local connections there are belong to earlier pieces
  have hearlier : ∀ n stream, c'.locals n = some stream → stream.streamId = id →
      index n < pieces.length := by
    intro n stream hstream hid
    rw [hlocals] at hstream
    obtain ⟨piece, hpiece, -⟩ := h.carries n stream hstream hid
    exact (List.getElem?_eq_some_iff.mp hpiece).1
  refine ⟨?_, ?_, ?_, fun n hn => absurd hn (hclosed n), ?_, ?_, ?_⟩
  · rw [cut_setup, h.cut_eq]
  · rw [List.flatten_append, h.bytes, bytesOf, bytesOf, List.flatMap_append]
    simp only [List.flatten_singleton, List.flatMap_singleton]
  · rw [List.length_append, h.count, setups, setups, List.countP_append]
    rfl
  · intro data' hdata
    rw [hcontrol] at hdata
    obtain rfl : data = data' := by injection hdata
    exact ⟨pieces, rfl, hearlier⟩
  · rw [hlocals]
    exact h.increasing
  · intro n stream hstream hid
    have hlt := hearlier n stream hstream hid
    rw [hlocals] at hstream
    obtain ⟨piece, hpiece, hcarries⟩ := h.carries n stream hstream hid
    refine ⟨piece, ?_, hcarries.congr rfl rfl rfl (hheading n) fun hn => absurd hn (hclosed n)⟩
    rw [List.getElem?_append_left hlt, hpiece]

/-- Another chunk for the local connection that the table has. -/
theorem Uplink.next (h : Uplink id c chunks pieces index) {data : Bytes} {m : Nat}
    (hactive : c'.activeStreams = c.activeStreams) (hlocals : c'.locals = c.locals)
    (hreading : c.control = .reading) (hcontrol : c'.control = .forwarding id data)
    (hm : c.activeStreams.lookup id = some m)
    (hentry : ∃ stream, c.locals m = some stream ∧ stream.streamId = id) :
    ∃ pieces', Uplink id c' (chunks ++ [(data, false)]) pieces' index := by
  have hopen : ∀ n, Open id n c' → n = m := by
    rintro n (hn | ⟨data', hn⟩)
    · rw [hactive, hm] at hn
      exact (Option.some.inj hn).symm
    · rw [hcontrol] at hn
      cases hn
  have hheading : ∀ n, heading id n c = [] := fun n =>
    heading_of_not_handing (by rw [hreading]; rfl)
  have hheading' : ∀ n, heading id n c' = if m = n then data else [] := by
    intro n
    simp only [heading, hcontrol, hactive, hm, Option.some.injEq, true_and]
  have hlast := h.last m (Or.inl hm)
  -- the piece of the local connection is the last one
  obtain ⟨earlier, piece, rfl⟩ : ∃ earlier piece, pieces = earlier ++ [piece] := by
    rcases List.eq_nil_or_concat' pieces with rfl | hconcat
    · cases hlast
    · exact hconcat
  have hindex : index m = earlier.length := by
    rw [List.length_append] at hlast
    exact Nat.succ.inj hlast
  obtain ⟨local_, hlocal, hlocalId⟩ := hentry
  refine ⟨earlier ++ [piece ++ data], cut_next h.cut_eq data, ?_, ?_, ?_, ?_, ?_, ?_⟩
  · have hbytes := h.bytes
    simp only [List.flatten_append, List.flatten_singleton, bytesOf, List.flatMap_append,
      List.flatMap_singleton] at hbytes ⊢
    rw [← hbytes, List.append_assoc]
  · have hcount := h.count
    simp only [List.length_append, List.length_singleton, setups, List.countP_append] at hcount ⊢
    rw [hcount]
    rfl
  · intro n hn
    rw [hopen n hn, hindex, List.length_append]
    rfl
  · intro data' hdata
    rw [hcontrol] at hdata
    cases hdata
  · rw [hlocals]
    exact h.increasing
  · intro n stream hstream hid
    rw [hlocals] at hstream
    obtain ⟨old, hold, hcarries⟩ := h.carries n stream hstream hid
    by_cases hn : n = m
    · subst hn
      rw [hindex, List.getElem?_concat_length] at hold ⊢
      obtain rfl := Option.some.inj hold
      refine ⟨piece ++ data, rfl, ?_, ?_⟩
      · intro hended
        exact (hcarries.ended hended).trans (List.prefix_append _ _)
      · intro halive
        have hconveys := (hcarries.alive halive).put (Or.inl hm) data
        rw [hheading, List.append_nil] at hconveys
        rw [hheading', if_pos rfl]
        refine hconveys.close fun _ => Or.inl hm
    · have hne : index n ≠ earlier.length := by
        intro heq
        exact hn (h.eq_of_index hstream hlocal hid hlocalId (heq.trans hindex.symm))
      have hlt : index n < earlier.length := by
        obtain ⟨hlt, -⟩ := List.getElem?_eq_some_iff.mp hold
        rw [List.length_append, List.length_singleton] at hlt
        omega
      rw [List.getElem?_append_left hlt] at hold ⊢
      refine ⟨old, hold, hcarries.congr rfl rfl rfl ?_ fun hopen' => absurd (hopen n hopen') hn⟩
      rw [hheading, hheading', if_neg (Ne.symm hn)]

theorem uplink_ofTunnel {useTls : Bool} {e : ClientEvent} (hwf : c.WellFormed)
    (h : Uplink id c chunks pieces index) (he : ofTunnel e = true)
    (hstep : c.step useTls e = some c') :
    ∃ pieces', Uplink id c' (chunks ++ chunkFor id c e) pieces' index := by
  obtain ⟨hactive, hlocals, -, hcontrol⟩ := step_ofTunnel he hstep
  rcases hcontrol with ⟨hsame, hnone⟩ | ⟨streamId, data, hreceived, hreading, hnext⟩
  · rw [chunkFor_eq_nil (hnone id), List.append_nil]
    refine ⟨pieces, ?_⟩
    rcases hsame with hsame | ⟨hchunk, hhanding⟩
    · apply h.of_locals_eq hlocals
      · intro n
        exact heading_congr hsame (by rw [hactive])
      · intro n hn
        unfold Open
        rwa [← hsame, ← hactive]
      · intro data hdata
        rwa [← hsame]
    · have hhanding' : c'.control.handing = false := by
        cases hc : c'.control with
        | inserting streamId data n =>
          rw [hc] at hchunk
          cases hchunk
        | forwarding streamId data =>
          rw [hc] at hchunk
          cases hchunk
        | _ => rfl
      apply h.of_locals_eq hlocals
      · intro n
        rw [heading_of_not_handing hhanding', heading_of_not_handing hhanding]
      · exact fun n hn => hn.of_not_handing hactive hhanding'
      · intro data hdata
        rw [hdata] at hchunk
        cases hchunk
  · by_cases hid : streamId = id
    · subst hid
      rw [chunkFor_data hreceived]
      cases hm : c.activeStreams.lookup streamId with
      | none =>
        rw [hm] at hnext
        exact ⟨_, h.setup hactive hlocals hreading hnext hm⟩
      | some m =>
        rw [hm] at hnext
        obtain ⟨stream, hstream, hstreamId, -⟩ := hwf.entry streamId m hm
        exact h.next hactive hlocals hreading hnext hm ⟨stream, hstream, hstreamId⟩
    · have hother : ∀ data, received e ≠ some (.Data id data) := by
        intro data' hdata
        rw [hreceived] at hdata
        injection hdata with hdata
        injection hdata with hstreamId
        exact hid hstreamId
      rw [chunkFor_eq_nil hother, List.append_nil]
      refine ⟨pieces, ?_⟩
      apply h.of_locals_eq hlocals
      · intro n
        rw [heading_of_not_handing (c := c) (by rw [hreading]; rfl), heading, hnext]
        split
        next heq =>
          split at heq <;> cases heq
        next heq =>
          split at heq
          · obtain ⟨rfl, rfl⟩ := Control.forwarding.inj heq
            exact if_neg fun hboth => hid hboth.1
          · cases heq
        · rfl
      · intro n hn
        apply hn.of_active hactive
        intro data' hdata
        rw [hnext] at hdata
        split at hdata <;> cases hdata
      · intro data' hdata
        rw [hnext] at hdata
        split at hdata
        · cases hdata
        · exact absurd (Control.connecting.inj hdata).1 hid

/-! ### The chunk in hand is handed over -/

/-- The local connection for a new piece is made; it is to carry the chunk in hand. -/
theorem Uplink.connected {data : Bytes} (h : Uplink id c chunks pieces index) (hwf : c.WellFormed)
    (hcontrol : c.control = .connecting id data) (hmissing : c.activeStreams.lookup id = none) :
    ∃ index', Uplink id { c.setLocal c.streams (LocalStream.new id c.wormhole) with
      streams := c.streams + 1
      control := .inserting id data c.streams } chunks pieces index' := by
  obtain ⟨earlier, rfl, hearlier⟩ := h.connecting data hcontrol
  have hold : ∀ n stream, c.locals n = some stream → n < c.streams := by
    intro n stream hstream
    by_contra hle
    rw [hwf.made n (Nat.le_of_not_lt hle)] at hstream
    cases hstream
  refine ⟨Function.update index c.streams earlier.length, h.cut_eq, h.bytes, h.count, ?_,
    ?_, ?_, ?_⟩
  · rintro n (hn | ⟨data', hn⟩)
    · cases hmissing.symm.trans hn
    · obtain ⟨-, -, rfl⟩ := Control.inserting.inj hn
      rw [Function.update_self, List.length_append]
      rfl
  · intro data' hdata
    cases hdata
  · intro n m stream stream' hn hm hid hid' hlt
    simp only [locals_setLocal] at hn hm
    rw [Function.update_apply, Function.update_apply]
    split at hm
    next heq =>
      rw [if_neg (by omega), if_pos heq]
      rw [if_neg (by omega)] at hn
      exact hearlier n stream hn hid
    next hne =>
      have hm' := hold m stream' hm
      rw [if_neg (by omega), if_neg hne]
      rw [if_neg (by omega)] at hn
      exact h.increasing n m stream stream' hn hm hid hid' hlt
  · intro n stream hstream hid
    simp only [locals_setLocal] at hstream
    rw [Function.update_apply]
    split at hstream
    next heq =>
      obtain rfl := Option.some.inj hstream
      rw [if_pos heq]
      refine ⟨data, List.getElem?_concat_length, nofun, fun _ => ?_⟩
      have hhand : heading id n { c.setLocal c.streams (LocalStream.new id c.wormhole) with
          streams := c.streams + 1
          control := .inserting id data c.streams } = data := if_pos ⟨rfl, heq.symm⟩
      rw [hhand]
      exact (Conveys.nil _).put (Or.inr ⟨data, by rw [heq]⟩) data
    next hne =>
      rw [if_neg hne]
      obtain ⟨piece, hpiece, hcarries⟩ := h.carries n stream hstream hid
      refine ⟨piece, hpiece, hcarries.congr rfl rfl rfl ?_ ?_⟩
      · rw [heading_of_not_handing (c := c) (by rw [hcontrol]; rfl)]
        exact if_neg fun hboth => hne hboth.2.symm
      · rintro (hn | ⟨data', hn⟩)
        · exact Or.inl hn
        · exact absurd (Control.inserting.inj hn).2.2.symm hne

theorem uplink_connect {useTls : Bool} {result : ConnectResult} (hwf : c.WellFormed)
    (h : Uplink id c chunks pieces index) (hstep : c.connect useTls result = some c') :
    ∃ index', Uplink id c' chunks pieces index' := by
  obtain ⟨streamId, data, hcontrol, hcases⟩ := connect_cases hstep
  have hheading : ∀ n, heading id n c = [] := fun n =>
    heading_of_not_handing (by rw [hcontrol]; rfl)
  -- the table has nothing for the stream: its local connection would be of this piece
  have hmissing : streamId = id → c.activeStreams.lookup id = none := by
    rintro rfl
    obtain ⟨earlier, hpieces, hearlier⟩ := h.connecting data hcontrol
    rw [Option.eq_none_iff_forall_ne_some]
    intro n hn
    obtain ⟨stream, hstream, hid, -⟩ := hwf.entry streamId n hn
    have hlt := hearlier n stream hstream hid
    have hlast := h.last n (Or.inl hn)
    rw [hpieces, List.length_append, List.length_singleton] at hlast
    omega
  have hrefused : c'.locals = c.locals → c'.activeStreams = c.activeStreams →
      c'.control = .forwarding streamId data → ∃ index', Uplink id c' chunks pieces index' := by
    intro hlocals hactive hcontrol'
    have hopen : ∀ n, Open id n c' → Open id n c := by
      intro n hn
      apply hn.of_active hactive
      intro data' hdata
      rw [hcontrol'] at hdata
      cases hdata
    refine ⟨index, h.of_locals_eq hlocals ?_ hopen ?_⟩
    · intro n
      rw [hheading n, heading, hcontrol']
      apply if_neg
      rintro ⟨hid', hn⟩
      rw [hactive, hmissing hid'] at hn
      cases hn
    · intro data' hdata
      rw [hcontrol'] at hdata
      cases hdata
  rcases hcases with ⟨-, rfl⟩ | ⟨-, rfl⟩ | ⟨-, rfl⟩
  · by_cases hid : streamId = id
    · subst hid
      exact h.connected hwf hcontrol (hmissing rfl)
    · refine ⟨index, h.frame ?_ ?_ fun _ hdata => nomatch hdata⟩
      · intro n stream' hstream' hid'
        simp only [locals_setLocal] at hstream'
        split at hstream'
        · obtain rfl := Option.some.inj hstream'
          exact absurd hid' hid
        next hne =>
          refine ⟨stream', hstream', hid', fun piece hc => hc.congr rfl rfl rfl ?_ ?_⟩
          · rw [hheading n]
            exact if_neg fun hboth => hid hboth.1
          · rintro (hn | ⟨data', hn⟩)
            · exact Or.inl hn
            · exact absurd (Control.inserting.inj hn).1 hid
      · rintro n (hn | ⟨data', hn⟩)
        · exact Or.inl hn
        · exact absurd (Control.inserting.inj hn).1 hid
  · apply hrefused
    · exact locals_notifyTunnel _ _ _
    · exact activeStreams_notifyTunnel _ _ _
    · rfl
  · exact hrefused rfl rfl rfl

theorem uplink_insert (hwf : c.WellFormed) (h : Uplink id c chunks pieces index)
    (hstep : c.insert = some c') : Uplink id c' chunks pieces index := by
  obtain ⟨streamId, data, n, stream, hcontrol, hstream, hc'⟩ := insert_cases hstep
  obtain ⟨stream₀, hstream₀, hstreamId, hspawning⟩ := hwf.inserting streamId data n hcontrol
  obtain rfl : stream = stream₀ := Option.some.inj (hstream.symm.trans hstream₀)
  have hlookup : c'.activeStreams.lookup id =
      if id = streamId then some n else c.activeStreams.lookup id := by
    rw [hc']
    exact Table.lookup_insert_ite _ _ _ _
  have hcontrol' : c'.control = .forwarding streamId data := by rw [hc']
  have hlocals : c'.locals =
      (c.setLocal n { stream with forwardToLocalTcp := .running }).locals := by rw [hc']
  have hopen : ∀ m, Open id m c' → Open id m c := by
    rintro m (hm | ⟨data', hm⟩)
    · rw [hlookup] at hm
      split at hm
      next hid =>
        obtain rfl := Option.some.inj hm
        exact Or.inr ⟨data, hid ▸ hcontrol⟩
      · exact Or.inl hm
    · rw [hcontrol'] at hm
      cases hm
  have hheading : ∀ m, heading id m c' = heading id m c := by
    intro m
    simp only [heading, hcontrol, hcontrol', hlookup]
    by_cases hid : streamId = id
    · simp only [hid, if_true, Option.some.injEq]
    · simp only [hid, false_and]
  refine h.frame (locals_changed hstream hlocals rfl ?_ ?_) hopen ?_
  · intro _ piece hc
    refine hc.congr ?_ rfl rfl (hheading n) (hopen n)
    rw [hspawning]
    rfl
  · intro m s piece _ hc
    exact hc.congr rfl rfl rfl (hheading m) (hopen m)
  · intro data' hdata
    rw [hcontrol'] at hdata
    cases hdata

theorem uplink_forward (hwf : c.WellFormed) (h : Uplink id c chunks pieces index)
    (hstep : c.forward = some c') : Uplink id c' chunks pieces index := by
  obtain ⟨streamId, data, hcontrol, hcases⟩ := forward_cases hstep
  -- the chunk goes to the connection of its stream only
  have hother : ∀ m, (streamId = id → c.activeStreams.lookup id ≠ some m) →
      heading id m c = [] := by
    intro m hm
    rw [heading, hcontrol]
    exact if_neg fun hboth => hm hboth.1 hboth.2
  have hrefused : c'.locals = c.locals → c'.activeStreams = c.activeStreams →
      (c'.control = .reading ∨ ∃ result, c'.control = .returned result) →
      c.activeStreams.lookup streamId = none → Uplink id c' chunks pieces index := by
    intro hlocals hactive hcontrol' hnone
    have hhanding : c'.control.handing = false := by
      rcases hcontrol' with hc' | ⟨result, hc'⟩ <;> rw [hc'] <;> rfl
    refine h.of_locals_eq hlocals ?_ (fun _ hm => hm.of_not_handing hactive hhanding) ?_
    · intro m
      rw [heading_of_not_handing hhanding, hother m]
      rintro rfl hm
      rw [hnone] at hm
      cases hm
    · intro data' hdata
      rw [hdata] at hcontrol'
      rcases hcontrol' with hc' | ⟨result, hc'⟩ <;> cases hc'
  rcases hcases with ⟨n, stream, hn, hstream, ⟨hopen, hc'⟩ | ⟨hclosed, hc'⟩⟩ |
    ⟨hnone, ⟨-, hc'⟩ | ⟨-, hc'⟩⟩
  · obtain ⟨stream₀, hstream₀, hstreamId, -⟩ := hwf.entry streamId n hn
    obtain rfl : stream = stream₀ := Option.some.inj (hstream.symm.trans hstream₀)
    have hreading : c'.control = .reading := by rw [hc']
    have hhanding : c'.control.handing = false := by rw [hreading]; rfl
    have hlocals : c'.locals = (c.setLocal n { stream with
        queue := ⟨stream.queue.queue ++ [.Data data], false⟩ }).locals := by rw [hc']
    have hopen' : ∀ m, Open id m c' → Open id m c := fun _ hm =>
      hm.of_not_handing (by rw [hc']; rfl) hhanding
    refine h.frame (locals_changed hstream hlocals rfl ?_ ?_) hopen' ?_
    · rintro rfl piece hc
      refine ⟨hc.ended, ?_⟩
      intro halive
      have hhand : heading stream.streamId n c = data := by
        rw [heading, hcontrol]
        exact if_pos ⟨hstreamId.symm, hstreamId ▸ hn⟩
      have hconveys := hc.alive halive
      rw [hhand] at hconveys
      rw [heading_of_not_handing hhanding, List.append_nil]
      refine Conveys.move (hconveys.close (hopen' n)) ?_
      rw [LocalStream.queued, LocalStream.queued, List.flatMap_append, List.flatMap_singleton]
      rfl
    · intro m s piece hne hc
      refine hc.congr rfl rfl rfl ?_ (hopen' m)
      rw [heading_of_not_handing hhanding, hother m]
      rintro rfl hm
      exact hne (Option.some.inj (hm.symm.trans hn))
    · intro data' hdata
      rw [hreading] at hdata
      cases hdata
  · -- the forwarder has ended, and nothing more is said about what it is given
    have hhanding : c'.control.handing = false := by rw [hc']; rfl
    have hlocals : c'.locals = c.locals := by rw [hc']
    have hopen' : ∀ m, Open id m c' → Open id m c := fun _ hm =>
      hm.of_not_handing (by rw [hc']) hhanding
    refine h.frame ?_ hopen' ?_
    · intro m s hs hid
      rw [hlocals] at hs
      refine ⟨s, hs, hid, ?_⟩
      intro piece hc
      by_cases hm : m = n
      · subst hm
        obtain rfl : stream = s := Option.some.inj (hstream.symm.trans hs)
        refine ⟨hc.ended, ?_⟩
        intro halive
        rw [← (hwf.sound m stream hstream).closed, hclosed] at halive
        cases halive
      · refine hc.congr rfl rfl rfl ?_ (hopen' m)
        rw [heading_of_not_handing hhanding, hother m]
        rintro rfl hm'
        exact hm (Option.some.inj (hm'.symm.trans hn))
    · intro data' hdata
      rw [hc'] at hdata
      cases hdata
  · apply hrefused
    · rw [hc']
      exact locals_notifyTunnel _ _ _
    · rw [hc']
      exact activeStreams_notifyTunnel _ _ _
    · exact Or.inl (by rw [hc'])
    · exact hnone
  · apply hrefused
    · rw [hc']
    · rw [hc']
    · exact Or.inr ⟨_, by rw [hc']⟩
    · exact hnone

/-! ### The tasks of the local connections -/

/-- A task changes its local connection. -/
theorem Uplink.setLocal (h : Uplink id c chunks pieces index) {n : Nat}
    {stream changed : LocalStream} (hstream : c.locals n = some stream)
    (hlocals : c'.locals = (c.setLocal n changed).locals)
    (hstreamId : changed.streamId = stream.streamId) (hcontrol : c'.control = c.control)
    (hactive : c'.activeStreams = c.activeStreams)
    (hchanged : ∀ piece, Carries id c piece n stream → Carries id c piece n changed) :
    Uplink id c' chunks pieces index := by
  have hheading : ∀ m, heading id m c' = heading id m c := fun m =>
    heading_congr hcontrol (by rw [hactive])
  have hopen : ∀ m, Open id m c' → Open id m c := by
    intro m hm
    unfold Open
    rwa [← hcontrol, ← hactive]
  refine h.frame (locals_changed hstream hlocals hstreamId ?_ ?_) hopen ?_
  · intro _ piece hc
    exact (hchanged piece hc).congr rfl rfl rfl (hheading n) (hopen n)
  · intro m s piece _ hc
    exact hc.congr rfl rfl rfl (hheading m) (hopen m)
  · intro data hdata
    rwa [← hcontrol]

/-- A task takes a stream out of the table. -/
theorem Uplink.erase (h : Uplink id c chunks pieces index) {streamId : StreamId}
    (hlocals : c'.locals = c.locals) (hcontrol : c'.control = c.control)
    (hactive : c'.activeStreams = c.activeStreams.erase streamId) :
    Uplink id c' chunks pieces index := by
  have hlookup : c'.activeStreams.lookup id =
      if id = streamId then none else c.activeStreams.lookup id := by
    rw [hactive]
    exact Table.lookup_erase_ite _ _ _
  have hopen : ∀ n, Open id n c' → Open id n c := by
    rintro n (hn | hn)
    · left
      rw [hlookup] at hn
      split at hn
      · cases hn
      · exact hn
    · right
      rwa [hcontrol] at hn
  refine h.frame ?_ hopen ?_
  · intro n stream hstream hid
    rw [hlocals] at hstream
    refine ⟨stream, hstream, hid, ?_⟩
    intro piece hc
    by_cases hsid : id = streamId
    · exact hc.erase hcontrol (by rw [hlookup, if_pos hsid])
    · exact hc.congr rfl rfl rfl (heading_congr hcontrol (by rw [hlookup, if_neg hsid])) (hopen n)
  · intro data hdata
    rwa [← hcontrol]

theorem uplink_readLocal {n : Nat} {result : ReadResult} (h : Uplink id c chunks pieces index)
    (hstep : c.readLocal n result = some c') : Uplink id c' chunks pieces index := by
  rcases readLocal_cases hstep with ⟨stream, hstream, -, ⟨-, rfl⟩ | ⟨-, rfl⟩ |
    ⟨data, reader, -, -, rfl⟩⟩
  · exact h.setLocal hstream rfl rfl rfl rfl fun piece hc => hc.of_eq rfl rfl rfl
  · have hread : Uplink id (c.setLocal n { stream with processLocalTcp := .returned })
        chunks pieces index :=
      h.setLocal hstream rfl rfl rfl rfl fun piece hc => hc.of_eq rfl rfl rfl
    exact hread.erase rfl rfl rfl
  · refine h.setLocal hstream (congrArg (Function.update · n _) (locals_notifyTunnel _ _ _)) rfl
      (control_notifyTunnel _ _ _) (activeStreams_notifyTunnel _ _ _) ?_
    intro piece hc
    exact hc.of_eq rfl rfl rfl

theorem uplink_writeLocal {n : Nat} {result : WriteResult} (h : Uplink id c chunks pieces index)
    (hstep : c.writeLocal n result = some c') : Uplink id c' chunks pieces index := by
  obtain ⟨stream, stream', hstream, hturn, rfl⟩ := writeLocal_cases hstep
  obtain ⟨hrunning, hstreamId, -, hcases⟩ := LocalStream.turn_cases hturn
  apply h.setLocal hstream rfl hstreamId rfl rfl
  intro piece hc
  have hconveys := hc.alive (by rw [hrunning]; rfl)
  rcases hcases with ⟨hrunning', -, hmove⟩ | ⟨hended, -, hpart⟩
  · refine ⟨?_, fun _ => hconveys.move ?_⟩
    · intro hended
      rw [hrunning'] at hended
      cases hended
    · rw [← List.append_assoc, hmove, List.append_assoc]
  · refine ⟨?_, ?_⟩
    · intro _
      have hrest := hconveys.append_isPrefix
      rw [← List.append_assoc] at hrest
      exact hpart.trans ((List.prefix_append _ _).trans hrest)
    · intro halive
      rw [hended] at halive
      cases halive

theorem uplink_endTask {k : Nat} (h : Uplink id c chunks pieces index)
    (hstep : c.endTask k = some c') : Uplink id c' chunks pieces index := by
  rcases endTask_cases hstep with ⟨tasks, rfl | ⟨n, stream, hstream, rfl⟩ | ⟨streamId, rfl⟩⟩
  · refine h.frame (fun n stream hstream hid => ⟨stream, hstream, hid, ?_⟩) (fun n hn => hn)
      fun data hdata => hdata
    intro piece hc
    exact hc.congr rfl rfl rfl rfl fun hn => hn
  · refine h.setLocal hstream rfl rfl rfl rfl ?_
    intro piece hc
    exact hc.of_eq rfl rfl stream.queued_close
  · exact h.erase rfl rfl rfl

/-- In every step. -/
theorem uplink_step {useTls : Bool} {e : ClientEvent} (hwf : c.WellFormed)
    (h : Uplink id c chunks pieces index) (hstep : c.step useTls e = some c') :
    ∃ pieces' index', Uplink id c' (chunks ++ chunkFor id c e) pieces' index' := by
  by_cases he : ofTunnel e = true
  · obtain ⟨pieces', hnext⟩ := uplink_ofTunnel hwf h he hstep
    exact ⟨pieces', index, hnext⟩
  · have hnone : chunkFor id c e = [] := by
      cases e with
      | receive result => exact absurd rfl he
      | _ => rfl
    rw [hnone, List.append_nil]
    refine ⟨pieces, ?_⟩
    cases e with
    | connect result => exact uplink_connect hwf h hstep
    | insert => exact ⟨index, uplink_insert hwf h hstep⟩
    | forward => exact ⟨index, uplink_forward hwf h hstep⟩
    | readLocal n result => exact ⟨index, uplink_readLocal h hstep⟩
    | writeLocal n result => exact ⟨index, uplink_writeLocal h hstep⟩
    | endTask k => exact ⟨index, uplink_endTask h hstep⟩
    | _ => exact absurd rfl he

end Client

end Neutun
