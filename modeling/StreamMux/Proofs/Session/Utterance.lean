import StreamMux.Proofs.Session.Balance
import StreamMux.Proofs.Session.Dispatch
import StreamMux.Proofs.Session.Lineage
import StreamMux.Proofs.Wire.Cuts

/-!
# What an operation sends

A session sends for its streams: it announces the streams that it opens, carries their data and
tells the peer of the ends that this side makes.  It sends for nothing else, apart from one answer:
data that would begin one pending stream too many is answered with a reset.

* `Mux.outgoing` — the frames that an operation sends, and `Mux.subject?` — the stream that it is
  about;
* `Ledger.Receiving.replies` — what is sent when a frame of the peer is applied;
* `Mux.utters` — an operation sends one frame at most, which is one of these.
-/

namespace StreamMux

namespace Ledger

variable {l l' : Ledger} {gone fails : Bool} {out : List Frame}

/-! ### What is sent when a frame is applied -/

/-- The queue of an open stream is full when data comes for it. -/
structure Overfull (l : Ledger) (serial : Nat) (payload : Bytes) : Prop where
  data : payload ≠ []
  live : (l.stream serial).isOver = false
  full : (l.stream serial).capacity ≤ (l.stream serial).queue.length

/-- Only an open stream is reset, and the peer is told at most of that. -/
theorem Cutting.replies {serial : Nat} (h : l.Cutting gone serial out l') :
    out = [] ∨ (l.stream serial).isOver = false ∧ (l'.stream serial).ending = some .reset ∧
      out = [(l.stream serial).farewell .reset] := by
  cases h with
  | told live up =>
    refine Or.inr ⟨live, ?_, rfl⟩
    rw [stream_sweep, finish, stream_put_self (Registry.lt_of_not_isOver live)]
  | _ => exact Or.inl rfl

/-- Queueing sends nothing, unless the queue is full: then the stream is reset. -/
theorem Queueing.replies {serial : Nat} {payload : Bytes}
    (h : l.Queueing gone serial payload out l') :
    out = [] ∨ l.Overfull serial payload ∧ (l'.stream serial).ending = some .reset ∧
      out = [(l.stream serial).farewell .reset] := by
  cases h with
  | idle why => exact Or.inl rfl
  | queued data live room => exact Or.inl rfl
  | full data live full cutting =>
    exact cutting.replies.imp_right fun ⟨_, ended, sends⟩ => ⟨⟨data, live, full⟩, ended, sends⟩

/-- A stream that begins has room, and queueing sends nothing. -/
theorem Queueing.silent_of_start {serial : Nat} {payload : Bytes}
    (h : l.Queueing gone serial payload out l') {id : UInt64} {role : Role} {limit : Nat}
    (hstart : l.stream serial = .start id role limit) : out = [] := by
  rcases h.replies with hnil | ⟨⟨-, -, hfull⟩, -, -⟩
  · exact hnil
  · rw [hstart] at hfull
    simp [Stream.start] at hfull

/-- A stream that is announced may be reset at once, for want of a handler. -/
theorem Dispatching.replies {id : UInt64} {serial : Nat} {payload : Bytes}
    (h : l.Dispatching gone fails id serial payload out l') :
    out = [] ∨ l.Overfull serial payload ∧ (l'.stream serial).ending = some .reset ∧
      out = [(l.stream serial).farewell .reset] ∨
    (l.stream serial).isOver = false ∧ (l'.stream serial).ending = some .reset ∧
      l'.handles = l.handles ++ [{ serial, label := none, live := false }] ∧
      out = [(l.stream serial).farewell .reset] := by
  cases h with
  | called starts queueing =>
    rcases queueing.replies with hnil | ⟨⟨data, live, full⟩, ended, sends⟩
    · exact Or.inl hnil
    · exact Or.inr (Or.inl ⟨⟨data, live, full⟩, ended, sends⟩)
  | unstarted stuck cutting =>
    rcases cutting.replies with hnil | ⟨live, ended, sends⟩
    · exact Or.inl hnil
    · rw [stream_misstart] at live sends
      exact Or.inr (Or.inr
        ⟨live, ended, cutting.handles.trans (handles_misstart ..), sends⟩)

/-- What applying a frame of the peer sends, if it sends anything. -/
inductive Replies (l : Ledger) (frame : Frame) (out : List Frame) (l' : Ledger) : Prop where
  | nothing (silent : out = [])
  /-- Data would begin one pending stream too many. -/
  | refuses (message : frame.isMessage = true) (new : l.find? frame.id = none)
      (foreign : l.ids.owns frame.id = false) (sends : out = [.ofKind frame.id .resetAcceptor []])
  /-- Data finds the queue of its stream full. -/
  | resets {serial : Nat} {kind : Kind} (is : frame.kind? = some kind)
      (opens : kind.ending? = none) (current : l.find? frame.id = some serial)
      (full : l.Overfull serial frame.payload) (ended : (l'.stream serial).ending = some .reset)
      (sends : out = [(l.stream serial).farewell .reset])
  /-- No handler can be started for the stream that the frame announces. -/
  | misstarts {serial : Nat} (is : frame.kind? = some .newStream)
      (about : (l.find? frame.id).getD l.size = serial)
      (live : l.find? frame.id = none ∨ (l.stream serial).isOver = false)
      (ended : (l'.stream serial).ending = some .reset)
      (handles : l'.handles = l.handles ++ [{ serial, label := none, live := false }])
      (sends : out = [(l'.stream serial).farewell .reset])

theorem Queueing.replies_current {serial : Nat} {frame : Frame} {kind : Kind}
    (h : l.Queueing gone serial frame.payload out l') (is : frame.kind? = some kind)
    (opens : kind.ending? = none) (current : l.find? frame.id = some serial) :
    l.Replies frame out l' := by
  rcases h.replies with hnil | ⟨full, ended, sends⟩
  · exact .nothing hnil
  · exact .resets is opens current full ended sends

theorem Receiving.replies {frame : Frame} (h : l.Receiving gone fails frame out l')
    (sound : l.Sound) : l.Replies frame out l' := by
  cases h with
  | reserved kind => exact .nothing rfl
  | refused is opens why => exact .nothing rfl
  | crowded is message up new foreign sending full =>
    cases sending with
    | refused why => exact .nothing rfl
    | sent up => exact .refuses ((frame.isMessage_eq is).trans message) new foreign rfl
    | torn up => exact .nothing rfl
  | began is up new foreign dispatching =>
    have hself := stream_welcome_self l frame.id
    rcases dispatching.replies with hnil | ⟨⟨-, -, hfull⟩, -, -⟩ | ⟨live, ended, handles, sends⟩
    · exact .nothing hnil
    · rw [hself] at hfull
      simp [Stream.start] at hfull
    · have horigin := (dispatching.moves (List.mem_append_right _ (List.mem_singleton_self _))
        (by rw [find?_welcome, if_pos rfl])).origin_eq (Registry.lt_of_not_isOver live)
      rw [← Stream.farewell_eq_of_origin horigin] at sends
      exact .misstarts is (by rw [new]; rfl) (Or.inl new) ended handles sends
  | announced is up current pending dispatching =>
    rcases dispatching.replies with hnil | ⟨full, ended, sends⟩ | ⟨live, ended, handles, sends⟩
    · exact .nothing hnil
    · exact .resets is rfl current full ended sends
    · have horigin := (dispatching.moves pending current).origin_eq (sound.current current).1
      rw [← Stream.farewell_eq_of_origin horigin] at sends
      exact .misstarts is (by rw [current]; rfl) (Or.inr live) ended handles sends
  | repeated is up current accepted queueing => exact queueing.replies_current is rfl current
  | early is message up new foreign queueing room =>
    exact .nothing (queueing.silent_of_start (stream_welcome_self l frame.id))
  | data is message up current queueing =>
    exact queueing.replies_current is (Kind.ending?_of_isMessage message).1 current
  | lost is ends isOver => exact .nothing rfl
  | ended is ends current live => exact .nothing rfl

end Ledger

namespace Mux

variable {m : Mux} {op : Op}

/-! ### What an operation sends -/

/-- The frames that an operation sends. -/
def outgoing (m : Mux) (op : Op) : List Frame :=
  ((m.perform op).1.written.drop m.written.length).filterMap fun chunk =>
    (Frame.decode chunk).toOption

theorem outgoing_of_written {out : List Frame}
    (h : (m.perform op).1.written = m.written ++ out.map Frame.wire)
    (fits : ∀ frame ∈ out, frame.Fits) : m.outgoing op = out := by
  rw [outgoing, h, List.drop_left, Frame.filterMap_decode_wire fits]

theorem outgoing_of_written_eq (h : (m.perform op).1.written = m.written) : m.outgoing op = [] :=
  outgoing_of_written (by simp [h]) (by simp)

theorem outgoing_of_passes {out : List Frame} (h : m.Passes out (m.perform op).1)
    (fits : ∀ frame ∈ out, frame.Fits) : m.outgoing op = out :=
  outgoing_of_written h.written fits

/-- Unless a frame is sent by hand, an operation writes whole frames. -/
theorem written_perform (hop : ∀ frame, op ≠ .send frame) :
    (m.perform op).1.written = m.written ++ (m.outgoing op).map Frame.wire ∧
      ∀ frame ∈ m.outgoing op, frame.Fits := by
  obtain ⟨out, haccounts⟩ := accounts_perform m op
  have hload : op.load < 2 ^ 64 := by
    cases op with
    | send frame => exact absurd rfl (hop frame)
    | write place payload => exact payload.length_lt
    | _ => exact Nat.two_pow_pos 64
  have hfits := haccounts.fits hload
  rw [outgoing_of_written haccounts.written hfits]
  exact ⟨haccounts.written, hfits⟩

/-- The stream that an operation is about, if there is one: the stream that is opened, the one
behind the handle, or the current one with the number of the frame that is applied.  An
announcement is about the stream that begins with it, if there is none. -/
def subject? (m : Mux) : Op → Option Nat
  | .openStream _ => some m.registry.streams.length
  | .write place _ | .finish place _ => (m.handles[place]?).map Handle.serial
  | .turn => m.upcoming?.bind fun frame =>
    (m.registry.find? frame.id).or
      (if frame.kind? = some .newStream then some m.registry.streams.length else none)
  | _ => none

/-! ### What there is to be sent -/

/-- How this side comes to end an open stream: a user does so, data finds the queue full, or no
handler can be started for it. -/
inductive EndsHere (m : Mux) (serial : Nat) : Op → Ending → Prop where
  | user {place : Nat} {handle : Handle} (ending : Ending)
      (given : m.handles[place]? = some handle) (is : handle.serial = serial) :
      EndsHere m serial (.finish place ending) ending
  | overfull {frame : Frame} {kind : Kind} (upcoming : m.upcoming? = some frame)
      (is : frame.kind? = some kind) (opens : kind.ending? = none)
      (current : m.registry.find? frame.id = some serial)
      (full : m.ledger.Overfull serial frame.payload) : EndsHere m serial .turn .reset
  | unstarted {op : Op} (misstarts : m.Misstarts op serial) : EndsHere m serial op .reset

/-- What an operation sends, and for which stream. -/
inductive Utters (m : Mux) (op : Op) : Prop where
  | nothing (silent : m.outgoing op = [])
  /-- A stream is opened. -/
  | announces {label : Option String} {id : UInt64} (opens : op = .openStream label)
      (begins : (m.perform op).1.ledger.stream m.ledger.size =
        .start id .opener m.settings.queueLimit)
      (serials : (m.perform op).1.ledger.serials = m.ledger.serials ++ [m.ledger.size])
      (sends : m.outgoing op = [.ofKind id .newStream []])
  /-- Data of a stream that is open, and stays so. -/
  | carries {serial : Nat} (data : Bytes) (about : m.subject? op = some serial)
      (live : (m.ledger.stream serial).isOver = false)
      (stays : ((m.perform op).1.ledger.stream serial).isOver = false)
      (sends : m.outgoing op = [(m.ledger.stream serial).parcel data])
  /-- The end of a stream that was open, as it ends. -/
  | ends {serial : Nat} {ending : Ending} (about : m.subject? op = some serial)
      (live : (m.ledger.stream serial).isOver = false) (how : m.EndsHere serial op ending)
      (ended : ((m.perform op).1.ledger.stream serial).ending = some ending)
      (sends : m.outgoing op = [(m.ledger.stream serial).farewell ending])
  /-- The end of a stream that begins with an announcement, and has no handler. -/
  | misstarts {serial : Nat} (about : m.subject? op = some serial) (new : serial = m.ledger.size)
      (how : m.EndsHere serial op .reset)
      (role : ((m.perform op).1.ledger.stream serial).role = .acceptor)
      (ended : ((m.perform op).1.ledger.stream serial).ending = some .reset)
      (sends : m.outgoing op = [((m.perform op).1.ledger.stream serial).farewell .reset])
  /-- The answer to data of the peer that there is no stream for. -/
  | refuses {frame : Frame} (turn : op = .turn) (upcoming : m.upcoming? = some frame)
      (message : frame.isMessage = true) (new : m.registry.find? frame.id = none)
      (foreign : m.side.owns frame.id = false)
      (sends : m.outgoing op = [.ofKind frame.id .resetAcceptor []])

theorem fits_parcel (sound : m.ledger.Sound) {serial : Nat}
    (live : (m.ledger.stream serial).isOver = false) (payload : Payload) :
    ((m.ledger.stream serial).parcel payload.data).Fits :=
  ⟨sound.id_le (Registry.lt_of_not_isOver live), Frame.flag_le_of_kind _, payload.length_lt⟩

theorem fits_farewell (sound : m.ledger.Sound) {serial : Nat}
    (live : (m.ledger.stream serial).isOver = false) (ending : Ending) :
    ((m.ledger.stream serial).farewell ending).Fits :=
  ⟨sound.id_le (Registry.lt_of_not_isOver live), Frame.flag_le_of_kind _,
    by simp [Stream.farewell, Frame.ofKind]⟩

/-! ### Each operation -/

theorem written_withHandle {place : Nat} {f : Nat → Mux × Answer}
    (h : ∀ serial, (f serial).1.written = m.written) :
    (m.withHandle place f).1.written = m.written :=
  withHandle_ind (P := fun after => after.written = m.written) rfl
    fun handle _ _ => h handle.serial

/-- Either a stream is opened and announced, and there is a handle, or nothing is sent. -/
theorem utters_openStream (m : Mux) (label : Option String) :
    (m.outgoing (.openStream label) = [] ∧
      (m.perform (.openStream label)).1.ledger.serials = m.ledger.serials) ∨
    ∃ id, (m.perform (.openStream label)).1.ledger.stream m.ledger.size =
        .start id .opener m.settings.queueLimit ∧
      (m.perform (.openStream label)).1.ledger.serials = m.ledger.serials ++ [m.ledger.size] ∧
      m.outgoing (.openStream label) = [.ofKind id .newStream []] := by
  have hperform : (m.perform (.openStream label)).1 = (m.openStream label).1 := rfl
  have hopens := opens m label
  have hout : ∀ {out : List Frame}, m.Passes out (m.openStream label).1 →
      (∀ frame ∈ out, frame.Fits) → m.outgoing (.openStream label) = out :=
    fun passes fits => outgoing_of_passes passes fits
  rw [hperform]
  generalize m.openStream label = result at hopens hout ⊢
  cases hopens with
  | refused fault => exact Or.inl ⟨hout (.refl m) (by simp), rfl⟩
  | @opened after id ids up draw passes ledger =>
    refine Or.inr ⟨id, ?_, ?_, hout passes ?_⟩
    · rw [ledger]
      exact Ledger.stream_register_self m.ledger id ids
    · simp [ledger, Ledger.serials, Ledger.hold, Ledger.register]
    · intro frame hmem
      rw [List.mem_singleton.mp hmem]
      exact ⟨(Ledger.draw_eq draw).2.1, Frame.flag_le_of_kind _, by simp [Frame.ofKind]⟩
  | torn fault up draw passes ledger =>
    refine Or.inl ⟨hout passes (by simp), ?_⟩
    rw [ledger]
    rfl

theorem utters_write (sound : m.ledger.Sound) (place : Nat) (payload : Payload) :
    m.Utters (.write place payload) := by
  rcases m.withHandle_cases place fun serial => ((m.write serial payload.data).1,
      .size (m.write serial payload.data).2) with ⟨handle, hplace, -, heq⟩ | heq
  · have hperform : (m.perform (.write place payload)).1 =
        (m.write handle.serial payload.data).1 := congrArg Prod.fst heq
    have hwrites := writes m handle.serial payload.data
    generalize m.write handle.serial payload.data = result at hperform hwrites
    cases hwrites with
    | refused fault => exact .nothing (outgoing_of_written_eq (by rw [hperform]))
    | written size live up passes ledger =>
      have hsends : m.outgoing (.write place payload) =
          [(m.ledger.stream handle.serial).parcel payload.data] := by
        refine outgoing_of_passes (hperform ▸ passes) fun frame hmem => ?_
        rw [List.mem_singleton.mp hmem]
        exact fits_parcel sound live payload
      refine .carries payload.data ?_ live ?_ hsends
      · simp [subject?, hplace]
      · rw [hperform, ledger]
        exact live
    | torn fault up passes ledger =>
      exact .nothing (outgoing_of_passes (hperform ▸ passes) (by simp))
  · exact .nothing (outgoing_of_written_eq (congrArg (·.1.written) heq))

theorem utters_finish (sound : m.ledger.Sound) (place : Nat) (ending : Ending) :
    m.Utters (.finish place ending) := by
  rcases m.withHandle_cases place fun serial => ((m.terminate serial ending).1,
      .done (m.terminate serial ending).2) with ⟨handle, hplace, -, heq⟩ | heq
  · have hperform : (m.perform (.finish place ending)).1 =
        (m.terminate handle.serial ending).1 := congrArg Prod.fst heq
    have hends := terminates m handle.serial ending
    generalize m.terminate handle.serial ending = result at hperform hends
    cases hends with
    | idle result isOver => exact .nothing (outgoing_of_written_eq (by rw [hperform]))
    | told live up passes ledger =>
      have hsends : m.outgoing (.finish place ending) =
          [(m.ledger.stream handle.serial).farewell ending] := by
        refine outgoing_of_passes (hperform ▸ passes) fun frame hmem => ?_
        rw [List.mem_singleton.mp hmem]
        exact fits_farewell sound live ending
      refine .ends ?_ live (.user ending hplace rfl) ?_ hsends
      · simp [subject?, hplace]
      · rw [hperform, ledger, Ledger.stream_sweep, Ledger.finish,
          Ledger.stream_put_self (Registry.lt_of_not_isOver live)]
    | untold fault live why passes ledger =>
      exact .nothing (outgoing_of_passes (hperform ▸ passes) (by simp))
    | torn fault live up passes ledger =>
      exact .nothing (outgoing_of_passes (hperform ▸ passes) (by simp))
  · exact .nothing (outgoing_of_written_eq (congrArg (·.1.written) heq))

/-- Applying a frame sends what the frame is replied to with. -/
theorem utters_receive (sound : m.ledger.Sound) {frame : Frame}
    (upcoming : m.upcoming? = some frame) : m.Utters .turn := by
  obtain ⟨hid, out, hreceiving, hwritten⟩ := receives_turn upcoming
  cases hreceiving.replies sound with
  | nothing silent =>
    subst silent
    exact .nothing (outgoing_of_written hwritten (by simp))
  | refuses message new foreign sends =>
    subst sends
    refine .refuses rfl upcoming message new (sound.owns_eq frame.id ▸ foreign)
      (outgoing_of_written hwritten fun answer hmem => ?_)
    rw [List.mem_singleton.mp hmem]
    exact ⟨hid, Frame.flag_le_of_kind _, by simp [Frame.ofKind]⟩
  | @resets serial kind is opens current full ended sends =>
    subst sends
    refine .ends ?_ full.live (.overfull upcoming is opens current full) ended
      (outgoing_of_written hwritten fun answer hmem => ?_)
    · simp only [subject?, upcoming, Option.bind_some]
      rw [show m.registry.find? frame.id = some serial from current, Option.some_or]
    · rw [List.mem_singleton.mp hmem]
      exact fits_farewell sound full.live .reset
  | @misstarts serial is about live ended handles sends =>
    subst sends
    -- the handle came dropped, so that the handler could not be started
    have hmisstarts := misstarts_of_dead sound handles (List.mem_singleton_self _) rfl
    obtain ⟨other, hann⟩ := hmisstarts.2
    cases upcoming.symm.trans hann.upcoming
    obtain ⟨-, -, role, number⟩ := accepted_of_announces sound hann
    have hsends : m.outgoing .turn =
        [((m.perform .turn).1.ledger.stream serial).farewell .reset] := by
      refine outgoing_of_written hwritten fun answer hmem => ?_
      rw [List.mem_singleton.mp hmem]
      exact ⟨number.trans_le hid, Frame.flag_le_of_kind _, by simp [Stream.farewell, Frame.ofKind]⟩
    have habout : m.subject? .turn = some serial := by
      simp only [subject?, upcoming, Option.bind_some, is, if_true]
      rw [← about, show m.ledger.find? frame.id = m.registry.find? frame.id from rfl]
      cases m.registry.find? frame.id <;> rfl
    rcases live with new | live
    · -- the stream begins with the announcement
      rw [new] at about
      exact .misstarts habout about.symm (.unstarted hmisstarts) role ended hsends
    · -- it carried data before, and waited
      have horigin := (step sound .turn).origin_eq (Registry.lt_of_not_isOver live)
      rw [Stream.farewell_eq_of_origin horigin] at hsends
      exact .ends habout live (.unstarted hmisstarts) ended hsends

theorem Quiet.written {m' : Mux} (h : m.Quiet m') : m'.written = m.written := by
  cases h with
  | idle => rfl
  | fed => rfl
  | stopped conditions fault gone =>
    have hstop : Accounts { m with conditions } 0 [] [] ({ m with conditions }.stop fault) :=
      accounts_stop ..
    exact hstop.written.trans (List.append_nil _)

theorem utters_turn (sound : m.ledger.Sound) : m.Utters .turn := by
  rcases hupcoming : m.upcoming? with _ | frame
  · refine .nothing (outgoing_of_written_eq ?_)
    rcases quiet_perform_turn hupcoming with heq | hquiet
    · rw [heq]
    · exact hquiet.written
  · exact utters_receive sound hupcoming

/-- **What an operation sends.**  Unless a frame is sent by hand, an operation sends one frame at
most: the announcement of a stream, its data, its end, or the answer to a frame of the peer that
there is no stream for. -/
theorem utters (sound : m.ledger.Sound) (hop : ∀ frame, op ≠ .send frame) : m.Utters op := by
  cases op with
  | openStream label =>
    rcases m.utters_openStream label with ⟨hsilent, -⟩ | ⟨id, hbegins, hserials, hsends⟩
    · exact .nothing hsilent
    · exact .announces rfl hbegins hserials hsends
  | write place payload => exact utters_write sound place payload
  | finish place ending => exact utters_finish sound place ending
  | turn => exact utters_turn sound
  | send frame => exact absurd rfl (hop frame)
  | read place =>
    refine .nothing (outgoing_of_written_eq (written_withHandle fun serial => ?_))
    simpa using (@accounts_read 0 m serial).written
  | drop place =>
    refine .nothing (outgoing_of_written_eq (written_withHandle fun _ => ?_))
    simpa using (passes_drop m place).written
  | readById id =>
    have hwritten : (m.readById id).1.written = m.written := by
      simpa using (@accounts_readById 0 m id).written
    exact .nothing (outgoing_of_written_eq hwritten)
  | close => exact .nothing (outgoing_of_passes (passes_tearDown m .closedHere) (by simp))
  | arrive chunk =>
    refine .nothing (outgoing_of_written_eq ?_)
    simp only [perform]
    split <;> rfl
  | readFar size => exact .nothing (outgoing_of_written_eq rfl)
  | closeFar => exact .nothing (outgoing_of_written_eq rfl)
  | closeLink => exact .nothing (outgoing_of_written_eq m.shut_keeps.2.2.2.2.1)
  | resetLink => exact .nothing (outgoing_of_written_eq rfl)
  | adjust conditions => exact .nothing (outgoing_of_written_eq rfl)

end Mux

end StreamMux
