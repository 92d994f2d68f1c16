/-
  Neutun/Client/Readers.lean
  ==========================
  When the table of streams follows the local readers.

  `process_local_tcp` takes its entry out of `ACTIVE_STREAMS` at the end of its
  stream and nowhere else: where it panics the entry stays.  It is spawned before
  `setup_new_stream` puts the entry in, so that an end that comes first finds
  nothing to take out.
-/
import Neutun.Client.Streams

namespace Neutun

open Foundation

namespace Client

/-- `setup_new_stream` has returned and `process_local_tcp` has ended. -/
structure LocalStream.Over (stream : LocalStream) : Prop where
  setUp : stream.forwardToLocalTcp ≠ .spawning
  ended : stream.processLocalTcp ≠ .reading

/-- No entry is left of a local connection that is over, and nothing at all of a
    stream whose connections are. -/
structure FollowsReaders (c : Client) : Prop where
  entry : ∀ n stream, c.locals n = some stream → stream.Over →
    c.activeStreams.lookup stream.streamId ≠ some n
  stream : ∀ streamId,
    (∀ n stream, c.locals n = some stream → stream.streamId = streamId → stream.Over) →
    c.activeStreams.lookup streamId = none

/-- The reader panics over a read: the read has failed, or there is no receiver for
    what it has read. -/
def ReaderPanics (c : Client) (stream : LocalStream) : ReadResult → Prop
  | .err => True
  | .ok data => data ≠ [] ∧ (c.tunnels stream.wormhole).channel.closed = true

/-- An entry is made for a reader that still reads, and a reader that panics has no
    entry. -/
def ReaderInTime (c : Client) : ClientEvent → Prop
  | .insert => ∀ streamId data n stream, c.control = .inserting streamId data n →
    c.locals n = some stream → stream.processLocalTcp = .reading
  | .readLocal n result => ∀ stream, c.locals n = some stream → c.ReaderPanics stream result →
    c.activeStreams.lookup stream.streamId ≠ some n
  | _ => True

/-- Every entry has a reader that still reads. -/
def EntriesRead (c : Client) : Prop :=
  ∀ streamId n stream, c.activeStreams.lookup streamId = some n → c.locals n = some stream →
    stream.processLocalTcp = .reading

variable {c c' : Client}

theorem followsReaders_iff (hwf : c.WellFormed) : c.FollowsReaders ↔ c.EntriesRead := by
  constructor
  · intro h streamId n stream hn hstream
    obtain ⟨s, hs, rfl, hspawned⟩ := hwf.entry streamId n hn
    obtain rfl : stream = s := Option.some.inj (hstream.symm.trans hs)
    by_contra hended
    exact h.entry n stream hstream ⟨hspawned, hended⟩ hn
  · intro h
    have hentry : ∀ n stream, c.locals n = some stream → stream.Over →
        c.activeStreams.lookup stream.streamId ≠ some n := by
      intro n stream hstream hover hn
      exact hover.ended (h _ n stream hn hstream)
    refine ⟨hentry, ?_⟩
    intro streamId hall
    rw [Option.eq_none_iff_forall_ne_some]
    intro n hn
    obtain ⟨stream, hstream, rfl, -⟩ := hwf.entry streamId n hn
    exact hentry n stream hstream (hall n stream hstream rfl) hn

theorem EntriesRead.frame (h : c.EntriesRead) (hactive : c'.activeStreams = c.activeStreams)
    (hlocals : c'.locals = c.locals) : c'.EntriesRead := by
  unfold EntriesRead
  rw [hactive, hlocals]
  exact h

theorem EntriesRead.notifyTunnel (h : c.EntriesRead) (w : Nat) (packet : ControlPacket) :
    (c.notifyTunnel w packet).EntriesRead := by
  apply h.frame
  · exact activeStreams_notifyTunnel _ _ _
  · exact locals_notifyTunnel _ _ _

theorem EntriesRead.erase (h : c.EntriesRead) (streamId : StreamId) :
    EntriesRead { c with activeStreams := c.activeStreams.erase streamId } := by
  intro id n stream hn
  rw [Table.lookup_erase_ite] at hn
  split at hn
  · cases hn
  · exact h id n stream hn

/-- A local connection that has no entry, or a reader that still reads, may take the
    place of another. -/
theorem EntriesRead.setLocal (h : c.EntriesRead) {n : Nat} {stream : LocalStream}
    (hstream : ∀ streamId, c.activeStreams.lookup streamId = some n →
      stream.processLocalTcp = .reading) : (c.setLocal n stream).EntriesRead := by
  intro streamId m s hm hs
  rw [locals_setLocal] at hs
  split at hs
  next heq =>
    obtain rfl := Option.some.inj hs
    exact hstream streamId (heq ▸ hm)
  · exact h streamId m s hm hs

/-! ### Turns of a reader -/

/-- A reader that panics leaves the table as it is. -/
theorem readLocal_panics {n : Nat} {result : ReadResult} {stream : LocalStream}
    (h : c.readLocal n result = some c') (hstream : c.locals n = some stream)
    (hpanics : c.ReaderPanics stream result) :
    ∃ stream', c'.locals = (c.setLocal n stream').locals ∧
      stream'.processLocalTcp = .panicked ∧ c'.activeStreams = c.activeStreams := by
  unfold readLocal at h
  simp only [hstream] at h
  split at h
  · split at h
    · obtain rfl := Option.some.inj h
      exact ⟨_, rfl, rfl, rfl⟩
    · exact absurd rfl hpanics.1
    · split at h
      · cases h
      rw [sendToTunnel_eq_none.mpr hpanics.2] at h
      obtain rfl := Option.some.inj h
      exact ⟨_, rfl, rfl, rfl⟩
  · cases h

/-- Every other reader reads on, or takes its entry out. -/
theorem readLocal_of_not_panics {n : Nat} {result : ReadResult} {stream : LocalStream}
    (h : c.readLocal n result = some c') (hstream : c.locals n = some stream)
    (hpanics : ¬ c.ReaderPanics stream result) :
    ∃ stream', c'.locals = (c.setLocal n stream').locals ∧
      (stream'.processLocalTcp = .reading ∧ c'.activeStreams = c.activeStreams ∨
        c'.activeStreams = c.activeStreams.erase stream.streamId) := by
  unfold readLocal at h
  simp only [hstream] at h
  split at h
  next hreading =>
    split at h
    · exact absurd trivial hpanics
    · obtain rfl := Option.some.inj h
      exact ⟨_, rfl, Or.inr rfl⟩
    next data hdata =>
      split at h
      · cases h
      split at h
      next u hu =>
        obtain ⟨-, rfl⟩ := sendToTunnel_eq_some.mp hu
        obtain rfl := Option.some.inj h
        exact ⟨_, rfl, Or.inl ⟨hreading, rfl⟩⟩
      next hnone => exact absurd ⟨hdata, sendToTunnel_eq_none.mp hnone⟩ hpanics
  · cases h

/-! ### Steps -/

/-- The forwarder leaves the reader alone. -/
theorem LocalStream.turn_processLocalTcp {stream stream' : LocalStream} {result : WriteResult}
    {open_ : Bool} (h : stream.turn result open_ = some stream') :
    stream'.processLocalTcp = stream.processLocalTcp := by
  unfold LocalStream.turn at h
  split at h
  · simp only at h
    split at h
    · obtain rfl := Option.some.inj h
      rfl
    · obtain rfl := Option.some.inj h
      rfl
  · obtain rfl := Option.some.inj h
    rfl
  · split at h
    · cases h
    · obtain rfl := Option.some.inj h
      rfl
  · cases h

theorem entriesRead_connect {useTls : Bool} {result : ConnectResult} (hc : c.EntriesRead)
    (h : c.connect useTls result = some c') : c'.EntriesRead := by
  rcases connect_cases h with ⟨streamId, data, -, ⟨-, rfl⟩ | ⟨-, rfl⟩ | ⟨-, rfl⟩⟩
  · apply EntriesRead.frame (c := c.setLocal c.streams (LocalStream.new streamId c.wormhole))
    · apply hc.setLocal
      intro _ _
      rfl
    · rfl
    · rfl
  · exact (hc.notifyTunnel _ _).frame rfl rfl
  · exact hc.frame rfl rfl

theorem entriesRead_insert (hc : c.EntriesRead) (hguard : c.ReaderInTime .insert)
    (h : c.insert = some c') : c'.EntriesRead := by
  obtain ⟨streamId, data, n, stream, hcontrol, hstream, rfl⟩ := insert_cases h
  have hreading := hguard streamId data n stream hcontrol hstream
  intro id m s hm hs
  rw [Table.lookup_insert_ite] at hm
  simp only [locals_setLocal] at hs
  split at hs
  · obtain rfl := Option.some.inj hs
    exact hreading
  next hne =>
    split at hm
    · exact absurd (Option.some.inj hm).symm hne
    · exact hc id m s hm hs

theorem entriesRead_forward (hc : c.EntriesRead) (h : c.forward = some c') : c'.EntriesRead := by
  rcases forward_cases h with ⟨streamId, data, -, ⟨n, stream, hn, hstream, ⟨-, rfl⟩ | ⟨-, rfl⟩⟩ |
    ⟨-, ⟨-, rfl⟩ | ⟨-, rfl⟩⟩⟩
  · apply EntriesRead.frame (c := c.setLocal n { stream with
      queue := ⟨stream.queue.queue ++ [.Data data], false⟩ })
    · apply hc.setLocal
      intro id hid
      exact hc id n stream hid hstream
    · rfl
    · rfl
  · exact hc.frame rfl rfl
  · exact (hc.notifyTunnel _ _).frame rfl rfl
  · exact hc.frame rfl rfl

theorem entriesRead_readLocal {n : Nat} {result : ReadResult} (hwf : c.WellFormed)
    (hc : c.EntriesRead) (hguard : c.ReaderInTime (.readLocal n result))
    (h : c.readLocal n result = some c') : c'.EntriesRead := by
  obtain ⟨stream, hstream, -⟩ := readLocal_cases h
  -- every entry of the connection is under its stream
  have hown : ∀ id, c.activeStreams.lookup id = some n → id = stream.streamId := by
    intro id hid
    obtain ⟨s, hs, rfl, -⟩ := hwf.entry id n hid
    obtain rfl : stream = s := Option.some.inj (hstream.symm.trans hs)
    rfl
  by_cases hpanics : c.ReaderPanics stream result
  · obtain ⟨stream', hlocals, -, hactive⟩ := readLocal_panics h hstream hpanics
    apply EntriesRead.frame (c := c.setLocal n stream')
    · apply hc.setLocal
      intro id hid
      rw [hown id hid] at hid
      exact absurd hid (hguard stream hstream hpanics)
    · exact hactive
    · exact hlocals
  · obtain ⟨stream', hlocals, ⟨hreading, hactive⟩ | hactive⟩ :=
      readLocal_of_not_panics h hstream hpanics
    · apply EntriesRead.frame (c := c.setLocal n stream')
      · apply hc.setLocal
        intro _ _
        exact hreading
      · exact hactive
      · exact hlocals
    · apply EntriesRead.frame (c := setLocal { c with
        activeStreams := c.activeStreams.erase stream.streamId } n stream')
      · apply (hc.erase stream.streamId).setLocal
        intro id hid
        rw [Table.lookup_erase_ite] at hid
        split at hid
        · cases hid
        next hne => exact absurd (hown id hid) hne
      · exact hactive
      · exact hlocals

theorem entriesRead_writeLocal {n : Nat} {result : WriteResult} (hc : c.EntriesRead)
    (h : c.writeLocal n result = some c') : c'.EntriesRead := by
  obtain ⟨stream, stream', hstream, hturn, rfl⟩ := writeLocal_cases h
  apply hc.setLocal
  intro id hid
  rw [LocalStream.turn_processLocalTcp hturn]
  exact hc id n stream hid hstream

theorem entriesRead_endTask {k : Nat} (hc : c.EntriesRead) (h : c.endTask k = some c') :
    c'.EntriesRead := by
  rcases endTask_cases h with ⟨tasks, rfl | ⟨n, stream, hstream, rfl⟩ | ⟨streamId, rfl⟩⟩
  · exact hc.frame rfl rfl
  · apply EntriesRead.frame (c := c.setLocal n { stream with
      queue := stream.queue.sendOrDrop .Close })
    · apply hc.setLocal
      intro id hid
      exact hc id n stream hid hstream
    · rfl
    · rfl
  · exact (hc.erase streamId).frame rfl rfl

/-- A step that meets the condition leaves no entry without its reader. -/
theorem entriesRead_step {useTls : Bool} {e : ClientEvent} (hwf : c.WellFormed)
    (hc : c.EntriesRead) (hguard : c.ReaderInTime e) (h : c.step useTls e = some c') :
    c'.EntriesRead := by
  by_cases he : ofTunnel e = true
  · obtain ⟨hactive, hlocals, -⟩ := step_ofTunnel he h
    exact hc.frame hactive hlocals
  cases e with
  | connect result => exact entriesRead_connect hc h
  | insert => exact entriesRead_insert hc hguard h
  | forward => exact entriesRead_forward hc h
  | readLocal n result => exact entriesRead_readLocal hwf hc hguard h
  | writeLocal n result => exact entriesRead_writeLocal hc h
  | endTask k => exact entriesRead_endTask hc h
  | _ => exact absurd rfl he

/-- A step that breaks the condition leaves one. -/
theorem readerInTime_of_entriesRead {useTls : Bool} {e : ClientEvent}
    (h : c.step useTls e = some c') (hc : c'.EntriesRead) : c.ReaderInTime e := by
  cases e with
  | insert =>
    intro streamId data n stream hcontrol hstream
    obtain ⟨id, chunk, m, s, hcontrol', hs, rfl⟩ := insert_cases h
    obtain ⟨rfl, -, rfl⟩ : streamId = id ∧ data = chunk ∧ n = m := by
      simpa [hcontrol] using hcontrol'
    obtain rfl : stream = s := Option.some.inj (hstream.symm.trans hs)
    refine hc streamId n { stream with forwardToLocalTcp := .running } ?_ ?_
    · rw [Table.lookup_insert_ite, if_pos rfl]
    · exact (locals_setLocal _ _ _ _).trans (if_pos rfl)
  | readLocal n result =>
    intro stream hstream hpanics hn
    obtain ⟨stream', hlocals, hpanicked, hactive⟩ := readLocal_panics h hstream hpanics
    have hreading : stream'.processLocalTcp = .reading := by
      apply hc stream.streamId n stream'
      · rw [hactive]
        exact hn
      · rw [hlocals, locals_setLocal, if_pos rfl]
    rw [hpanicked] at hreading
    cases hreading
  | _ => trivial

end Client

open Client

/-- In a run of the client no entry of `ACTIVE_STREAMS` outlives the reader of its
    connection exactly if every connection is entered before its reader ends and no
    reader with an entry panics. -/
theorem table_follows_readers (useTls : Bool) (es : List ClientEvent) (t : Client)
    (hrun : (client useTls).run Client.new es = some t) :
    (client useTls).Always FollowsReaders Client.new es ↔
      (client useTls).Meets ReaderInTime Client.new es := by
  apply Machine.always_iff_meets (I := fun c => c.WellFormed ∧ c.EntriesRead)
    (P := FollowsReaders) (D := fun _ _ => True) _ _ _ _ (Machine.meets_true _ _) hrun
  · intro c hI
    exact (followsReaders_iff hI.1).mpr hI.2
  · intro c e c' hI _ hstep hguard
    exact ⟨wellFormed_step hI.1 hstep, entriesRead_step hI.1 hI.2 hguard hstep⟩
  · intro c e c' hI _ hstep hc
    have hwf := wellFormed_step hI.1 hstep
    exact readerInTime_of_entriesRead hstep ((followsReaders_iff hwf).mp hc)
  · refine ⟨wellFormed_new, ?_⟩
    intro streamId n stream hn
    cases hn

namespace LocalRead

def data (byte : UInt8) : ClientEvent :=
  .receive (.ok (.Binary (ControlPacket.Data sampleStream [byte]).serialize))

/-- A stream up to the spawn of its reader. -/
def setup : List ClientEvent := [.startWormhole (.ok ()), data 1, .connect .ok]

/-- The local service answers and closes. -/
def answered : List ClientEvent :=
  setup ++ [.insert, .forward, .readLocal 0 (.ok [2]), .readLocal 0 (.ok [])]

/-- It closes before the entry is made. -/
def closedAtOnce : List ClientEvent := setup ++ [.readLocal 0 (.ok []), .insert]

/-- It resets the connection. -/
def reset : List ClientEvent := setup ++ [.insert, .readLocal 0 .err]

/-- It answers after the tunnel is gone. -/
def untunnelled : List ClientEvent :=
  setup ++ [.insert, .readLocal 0 (.ok [2]), .flush 1 false, .readLocal 0 (.ok [3])]

end LocalRead

open LocalRead in
/-- A stream that ends after an answer. -/
theorem table_follows_readers_answered : ∃ t, (client false).run Client.new answered = some t ∧
    (client false).Always FollowsReaders Client.new answered := by
  refine ⟨_, rfl, ?_⟩
  apply (table_follows_readers false answered _ rfl).mpr
  refine .cons trivial rfl (.cons trivial rfl (.cons trivial rfl (.cons ?_ rfl ?_)))
  · intro id chunk n stream hcontrol hstream
    injection hcontrol with _ _ hn
    subst hn
    obtain rfl := Option.some.inj hstream
    rfl
  · refine .cons trivial rfl (.cons ?_ rfl (.cons ?_ rfl trivial))
    · intro stream hstream hpanics
      obtain rfl := Option.some.inj hstream
      cases hpanics.2
    · intro stream hstream hpanics
      exact absurd rfl hpanics.1

theorem not_followsReaders_of_over {c : Client} {n : Nat} {stream : LocalStream}
    (hstream : c.locals n = some stream) (hover : stream.Over)
    (hn : c.activeStreams.lookup stream.streamId = some n) : ¬ c.FollowsReaders := by
  intro h
  exact h.entry n stream hstream hover hn

open LocalRead in
/-- Each of these leaves an entry that nothing takes out. -/
theorem readers_outlived :
    (∃ t, (client false).run Client.new closedAtOnce = some t ∧ ¬ t.FollowsReaders) ∧
      (∃ t, (client false).run Client.new reset = some t ∧ ¬ t.FollowsReaders) ∧
      ∃ t, (client false).run Client.new untunnelled = some t ∧ ¬ t.FollowsReaders := by
  refine ⟨⟨_, rfl, ?_⟩, ⟨_, rfl, ?_⟩, ⟨_, rfl, ?_⟩⟩
  · exact not_followsReaders_of_over (n := 0) rfl ⟨nofun, nofun⟩ rfl
  · exact not_followsReaders_of_over (n := 0) rfl ⟨nofun, nofun⟩ rfl
  · exact not_followsReaders_of_over (n := 0) rfl ⟨nofun, nofun⟩ rfl

end Neutun
