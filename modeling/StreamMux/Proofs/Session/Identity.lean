import StreamMux.Proofs.Session.Alike
import StreamMux.Proofs.Session.History
import StreamMux.Proofs.Session.Lineage

/-!
# Which stream a number stands for

A number stands for one current stream at most, and for the same one to everybody: to the frames of
the peer, which look the number up, and to whoever holds a handle of the stream.

* `Mux.Identified` — what holds of numbers, streams and handles, `Mux.LeftFor` — a number of this
  side's is no longer current;
* `Mux.identified_run` — the first holds after every run, and the second for ever.
-/

namespace StreamMux

/-! ### One entry for a number -/

namespace Ledger

variable {l l' : Ledger}

/-- Every number has one entry at most. -/
def Single (l : Ledger) : Prop := (l.registry.entries.map (·.1)).Nodup

theorem single_remove (h : l.Single) (id : UInt64) :
    { l with registry := l.registry.remove id }.Single :=
  Registry.nodup_keys_remove h id

theorem single_sweep (h : l.Single) (id : UInt64) : (l.sweep id).Single := by
  rcases l.registry.sweep_eq id with ⟨heq, -⟩ | ⟨heq, -⟩
  · have hremove := single_remove h id
    rwa [← heq] at hremove
  · simpa only [sweep, heq] using h

theorem single_tear (l : Ledger) : l.tear.Single := by simp [tear, Single]

theorem Single.drop (h : l.Single) (place : Nat) (handle : Handle) :
    (l.drop place handle).Single := by
  unfold Ledger.drop
  simp only
  split
  · exact single_remove h _
  · exact h

theorem Single.move (h : l.Single) (hmove : Move l l') : l'.Single := by
  cases hmove with
  | opened label up draw => exact Registry.nodup_keys_create h _
  | openTorn up draw => exact single_tear _
  | tear => exact single_tear l
  | finish ending live => exact single_sweep (l := l.finish _ ending) h _
  | finishTorn ending live => exact single_tear _
  | overflow serial => exact h
  | push chunk live room => exact h
  | pop front => exact h
  | sweep id => exact single_sweep h id
  | welcome up new foreign fits => exact Registry.nodup_keys_create h _
  | accept pending current => exact h
  | @misstart id serial pending current => exact Single.drop (l := l.accept id serial) h _ _

end Ledger

/-! ### What a frame does to the stream that it is for -/

/-- What a frame of the peer makes of the open stream that it is for.  An end leaves the queue to be
read. -/
def Stream.Becomes (stream : Stream) (kind : Kind) (payload : Bytes) (after : Stream) : Prop :=
  match kind.ending? with
  | some ending => after.ending = some ending ∧ after.queue = stream.queue
  | none =>
    if payload = [] then after = stream
    else if stream.queue.length < stream.capacity then
      after = { stream with queue := stream.queue ++ [payload] }
    else after.ending = some .reset ∧ after.queue = stream.queue

namespace Ledger

variable {l l' : Ledger} {gone fails : Bool} {out : List Frame}

theorem ended_finish {serial : Nat} (ending : Ending) (hlt : serial < l.size) :
    ((l.finish serial ending).stream serial).ending = some ending ∧
      ((l.finish serial ending).stream serial).queue = (l.stream serial).queue := by
  rw [finish, stream_put_self hlt]
  exact ⟨rfl, rfl⟩

theorem ending_tear (l : Ledger) (serial : Nat) :
    (l.tear.stream serial).ending = (l.stream serial).ending := by
  rcases l.stream_tear serial with h | h <;> rw [h]
  rfl

theorem Cutting.ended {serial : Nat} (h : l.Cutting gone serial out l')
    (hlive : (l.stream serial).isOver = false) :
    (l'.stream serial).ending = some .reset ∧
      (l'.stream serial).queue = (l.stream serial).queue := by
  have hlt := Registry.lt_of_not_isOver hlive
  cases h with
  | idle isOver =>
    rw [hlive] at isOver
    cases isOver
  | told live up =>
    rw [stream_sweep]
    exact ended_finish _ hlt
  | untold live why =>
    rw [stream_sweep]
    exact ended_finish _ hlt
  | torn live up =>
    rw [ending_tear, queue_tear]
    exact ended_finish _ hlt

/-- Data is queued where there is room, and resets the stream where there is none. -/
theorem Queueing.becomes {serial : Nat} {payload : Bytes} {kind : Kind}
    (h : l.Queueing gone serial payload out l') (opens : kind.ending? = none)
    (hlive : (l.stream serial).isOver = false) :
    (l.stream serial).Becomes kind payload (l'.stream serial) := by
  have hlt := Registry.lt_of_not_isOver hlive
  unfold Stream.Becomes
  simp only [opens]
  cases h with
  | idle why =>
    rcases why with hnil | hover
    · rw [if_pos hnil]
    · rw [hlive] at hover
      cases hover
  | queued data live room =>
    rw [if_neg data, if_pos room, push, stream_put_self hlt]
  | full data live full cutting =>
    rw [if_neg data, if_neg (Nat.not_lt.mpr full)]
    exact cutting.ended live

/-- A frame for a stream that is open, current and in somebody's hands reaches it. -/
theorem Receiving.becomes {frame : Frame} {kind : Kind} {serial : Nat} (sound : l.Sound)
    (h : l.Receiving gone fails frame out l') (hkind : frame.kind? = some kind)
    (hfind : l.find? frame.id = some serial) (hheld : l.Held serial)
    (hlive : (l.stream serial).isOver = false) :
    (l.stream serial).Becomes kind frame.payload (l'.stream serial) := by
  -- A frame for a current stream is neither refused nor begins a stream.
  have hup : l.tornDown ≠ true := fun htorn => by
    rw [sound.isOver_of_torn htorn] at hlive
    cases hlive
  have hsome : l.find? frame.id ≠ none := by simp [hfind]
  have hmessage : ∀ {other : Kind}, frame.kind? = some other → other.isMessage = true →
      kind.ending? = none := by
    intro other is message
    cases hkind.symm.trans is
    exact (Kind.ending?_of_isMessage message).1
  cases h with
  | reserved none => cases none.symm.trans hkind
  | refused is opens why =>
    rcases why with htorn | ⟨hnone, -⟩
    · exact absurd htorn hup
    · exact absurd hnone hsome
  | crowded is message up new foreign sending => exact absurd new hsome
  | began is up new foreign dispatching => exact absurd new hsome
  | announced is up current pending dispatching =>
    obtain ⟨waiting, hwaiting, -, hfree⟩ := sound.waiting pending
    cases hfind.symm.trans hwaiting
    exact absurd hheld hfree
  | repeated is up current accepted queueing =>
    cases hkind.symm.trans is
    cases hfind.symm.trans current
    exact queueing.becomes rfl hlive
  | early is message up new foreign queueing => exact absurd new hsome
  | data is message up current queueing =>
    cases hfind.symm.trans current
    exact queueing.becomes (hmessage is message) hlive
  | lost is ends isOver =>
    rw [isOver serial hfind] at hlive
    cases hlive
  | ended is ends current live =>
    cases hkind.symm.trans is
    cases hfind.symm.trans current
    simp only [Stream.Becomes, ends]
    rw [stream_sweep]
    exact ended_finish _ (Registry.lt_of_not_isOver live)

end Ledger

namespace Mux

variable {side : Side} {settings : Settings} {ops : List Op}

/-! ### Identity -/

/-- Numbers, streams and handles agree with each other. -/
structure Identified (m : Mux) : Prop where
  /-- Which numbers are this side's never changes. -/
  owns : ∀ id, m.ids.owns id = m.side.owns id
  /-- An entry leads to a stream of its number. -/
  entry : ∀ {id serial}, (id, serial) ∈ m.registry.entries →
    serial < m.registry.streams.length ∧ (m.registry.stream serial).id = id
  single : (m.registry.entries.map (·.1)).Nodup
  /-- A stream was opened here exactly if its number is one of this side's. -/
  role_iff : ∀ {serial}, serial < m.registry.streams.length →
    ((m.registry.stream serial).role = .opener ↔
      m.side.owns (m.registry.stream serial).id = true)
  /-- The numbers of streams opened here are given out. -/
  drawn : ∀ {serial}, serial < m.registry.streams.length →
    (m.registry.stream serial).role = .opener → (m.registry.stream serial).id < m.ids.next
  /-- No stream has the next number yet. -/
  next_new : ∀ {id ids}, m.ids.draw = .ok (id, ids) → m.registry.find? id = none ∧
    ∀ serial < m.registry.streams.length, (m.registry.stream serial).id ≠ id
  /-- An open stream in somebody's hands is the current one of its number. -/
  current : ∀ {handle}, handle ∈ m.handles → handle.live = true →
    (m.registry.stream handle.serial).isOver = false →
      m.registry.find? (m.registry.stream handle.serial).id = some handle.serial
  /-- Frames of the peer with its number reach it. -/
  reached : ∀ {handle frame kind}, handle ∈ m.handles → handle.live = true →
    (m.registry.stream handle.serial).isOver = false →
      frame.id = (m.registry.stream handle.serial).id → frame.kind? = some kind →
        (m.registry.stream handle.serial).Becomes kind frame.payload
          ((m.receive frame).registry.stream handle.serial)

/-- A number of this side's that was current and is no longer. -/
def LeftFor (side : Side) (settings : Settings) (ops : List Op) (id : UInt64) : Prop :=
  side.owns id = true ∧ (run side settings ops).registry.find? id = none ∧
    ∃ before, before <+: ops ∧ (run side settings before).registry.find? id ≠ none

/-! ### After every run -/

theorem single_run (side : Side) (settings : Settings) (ops : List Op) :
    (run side settings ops).ledger.Single :=
  ledger_run List.nodup_nil (fun h => h.move) (fun h _ => h.drop _ _) ops

theorem identified {m : Mux} (sound : m.ledger.Sound) (single : m.ledger.Single) :
    m.Identified where
  owns := sound.owns_eq
  entry hmem := sound.current (Registry.find?_of_mem single hmem)
  single := single
  role_iff hlt := (sound.role_iff hlt).trans (by rw [sound.owns_eq]; rfl)
  drawn := sound.drawn
  next_new {id ids} draw := by
    have hnew : ∀ serial < m.registry.streams.length, (m.registry.stream serial).id ≠ id :=
      fun _ hlt => sound.id_ne_of_draw draw hlt
    refine ⟨?_, hnew⟩
    rcases hfind : m.registry.find? id with _ | serial
    · rfl
    · obtain ⟨hlt, hid⟩ := sound.current hfind
      exact absurd hid (hnew serial hlt)
  current _ _ hlive := sound.find?_of_live hlive
  reached {handle frame kind} hmem _ hlive hid hkind := by
    obtain ⟨out, l, hreceiving, hleads⟩ := receives m frame
    have hfind : m.ledger.find? frame.id = some handle.serial :=
      hid ▸ sound.find?_of_live hlive
    have hbecomes := hreceiving.becomes sound hkind hfind ⟨handle, hmem, rfl⟩ hlive
    rwa [← hleads.ledger] at hbecomes

/-- No operation puts an old stream back into the entries, or gives it another number. -/
theorem Step.kept {m m' : Mux} {op : Op} (h : m.Step op m') (id : UInt64) {serial : Nat}
    (hlt : serial < m.ledger.size) :
    serial < m'.ledger.size ∧ (m'.ledger.stream serial).id = (m.ledger.stream serial).id ∧
      (m'.ledger.find? id = some serial → m.ledger.find? id = some serial) := by
  rcases h.ledger with hmoves | ⟨place, handle, -, hplace, -, heq⟩
  · exact ⟨Nat.lt_of_lt_of_le hlt hmoves.extends.size_le,
      Stream.id_eq_of_origin (hmoves.origin_eq hlt), hmoves.extends.current hlt⟩
  · have halike : m.ledger.Alike _ := Ledger.Alike.drop hplace
    rw [heq]
    exact ⟨Nat.lt_of_lt_of_eq hlt halike.size.symm, halike.id serial, Ledger.find?_of_drop⟩

theorem kept_after (before after : List Op) (id : UInt64) {serial : Nat}
    (hlt : serial < (run side settings before).ledger.size) :
    serial < (run side settings (before ++ after)).ledger.size ∧
      ((run side settings (before ++ after)).ledger.stream serial).id =
        ((run side settings before).ledger.stream serial).id ∧
      ((run side settings (before ++ after)).ledger.find? id = some serial →
        (run side settings before).ledger.find? id = some serial) := by
  induction after using List.reverseRecOn with
  | nil =>
    rw [List.append_nil]
    exact ⟨hlt, rfl, fun hfind => hfind⟩
  | append_singleton after op ih =>
    obtain ⟨hsize, hid, hfind⟩ := ih
    rw [← List.append_assoc, run_concat]
    obtain ⟨hsize', hid', hfind'⟩ := (step (sound_run ..) op).kept id hsize
    exact ⟨hsize', hid'.trans hid, fun hcurrent => hfind (hfind' hcurrent)⟩

/-- Only the stream that had a number of this side's first ever has it. -/
theorem find?_of_leftFor {id : UInt64} (h : LeftFor side settings ops id) (more : List Op) :
    (run side settings (ops ++ more)).registry.find? id = none := by
  obtain ⟨hown, hgone, before, ⟨middle, rfl⟩, hbefore⟩ := h
  obtain ⟨first, hfirst⟩ := Option.ne_none_iff_exists'.mp hbefore
  obtain ⟨hlt, hid⟩ := (sound_run side settings before).current hfirst
  -- The first stream is still known after all operations, and as one that was opened here.
  obtain ⟨hmid, hmidId, -⟩ := kept_after before middle id hlt
  obtain ⟨hend, hendId, hcurrent⟩ := kept_after (before ++ middle) more id hmid
  have hfirstId : ((run side settings (before ++ middle ++ more)).registry.stream first).id = id :=
    hendId.trans (hmidId.trans hid)
  have hsound := sound_run side settings (before ++ middle ++ more)
  have howns := hsound.owns_eq id
  rw [show (run side settings (before ++ middle ++ more)).ledger.side = side from
    side_run side settings _, hown, ← hfirstId] at howns
  have hopener := (hsound.role_iff hend).mpr howns
  by_contra hback
  obtain ⟨serial, hfind⟩ := Option.ne_none_iff_exists'.mp hback
  obtain ⟨hlt', hid'⟩ := hsound.current hfind
  obtain rfl := hsound.opener_inj hend hlt' hopener (hfirstId.trans hid'.symm)
  exact absurd hgone (Option.ne_none_iff_exists'.mpr ⟨_, hcurrent hfind⟩)

/-- **A number stands for one stream.**  After every run entries, streams, handles and the numbers
still to be given out agree, so that a frame of the peer reaches whoever holds the open stream of
its number; and a number of this side's that is no longer current never is again, whatever is done
and whatever comes in. -/
theorem identified_run (side : Side) (settings : Settings) (ops : List Op) :
    (run side settings ops).Identified ∧
      ∀ id, LeftFor side settings ops id → ∀ more,
        (run side settings (ops ++ more)).registry.find? id = none :=
  ⟨identified (sound_run side settings ops) (single_run side settings ops),
    fun _ hleft more => find?_of_leftFor hleft more⟩

/-- A byte reaches the second stream that was opened; and the number of the first one, which was
closed, is not taken up by an announcement of the peer. -/
theorem second_stream_reached :
    ((run .dialer .usual [.openStream none, .finish 0 .closed, .openStream none]).receive
        ⟨2, 1, [0xaa]⟩).registry.stream 1 =
      { Stream.start 2 .opener 1024 with queue := [[0xaa]] } ∧
    (run .dialer .usual ([.openStream none, .finish 0 .closed, .openStream none] ++
      [.arrive [0, 0], .turn, .turn, .turn])).registry.find? 0 = none := by
  obtain ⟨hidentified, hleft⟩ :=
    identified_run .dialer .usual [.openStream none, .finish 0 .closed, .openStream none]
  have hheld : (⟨1, none, true⟩ : Handle) ∈
      (run .dialer .usual [.openStream none, .finish 0 .closed, .openStream none]).handles := by
    decide +kernel
  have hstream :
      (run .dialer .usual [.openStream none, .finish 0 .closed, .openStream none]).registry.stream
        1 = Stream.start 2 .opener 1024 := by decide +kernel
  have hkind : (⟨2, 1, [0xaa]⟩ : Frame).kind? = some .messageAcceptor := by decide
  have hreached := hidentified.reached hheld rfl (by decide +kernel) (by rw [hstream]; rfl) hkind
  rw [hstream] at hreached
  refine ⟨hreached, hleft 0 ⟨by decide, by decide +kernel, [.openStream none], ⟨_, rfl⟩, ?_⟩ _⟩
  decide +kernel

end Mux

end StreamMux
