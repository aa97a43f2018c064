import StreamMux.Proofs.Session.Operations
import StreamMux.Proofs.Session.Sound

/-!
# The outcomes of a frame of the peer

What a frame of the peer does is said on ledgers alone.  A session with ledger `l` that applies
`frame` may pass the frames `out` on and have the ledger `l'` afterwards if
`Ledger.Receiving l gone fails frame out l'`; `gone` tells whether its connection is gone already,
and `fails` whether no handler can be started.

* `Mux.Leads` — an operation passes certain frames on and leads to a certain ledger;
* `Mux.receives` — applying a frame has one of the outcomes that are listed;
* `Ledger.Receiving.moves` — each of these outcomes is made of moves.
-/

namespace StreamMux

namespace Kind

/-- Whether a frame carries data. -/
def isMessage : Kind → Bool
  | messageAcceptor | messageOpener => true
  | _ => false

/-- How a frame ends its stream, if it does. -/
def ending? : Kind → Option Ending
  | closeAcceptor | closeOpener => some .closed
  | resetAcceptor | resetOpener => some .reset
  | _ => none

variable {kind : Kind}

/-! A frame carries data, ends its stream, or announces it. -/

theorem ending?_of_isMessage (message : kind.isMessage = true) :
    kind.ending? = none ∧ kind ≠ .newStream := by
  cases kind <;> first | (cases message; done) | exact ⟨rfl, by simp⟩

theorem isMessage_of_ending? {ending : Ending} (ends : kind.ending? = some ending) :
    kind.isMessage = false ∧ kind ≠ .newStream := by
  cases kind <;> first | (cases ends; done) | exact ⟨rfl, by simp⟩

theorem eq_newStream (opens : kind.ending? = none) (plain : kind.isMessage = false) :
    kind = .newStream := by
  cases kind with
  | newStream => rfl
  | messageAcceptor | messageOpener => cases plain
  | _ => cases opens

end Kind

/-! ### Outcomes on ledgers -/

namespace Ledger

/-- The outcomes of sending a frame. -/
inductive Sending (l : Ledger) (gone : Bool) (frame : Frame) : List Frame → Ledger → Prop where
  | refused (why : gone = true ∨ ∃ fault, frame.encode = .error fault) : Sending l gone frame [] l
  | sent (up : gone = false) : Sending l gone frame [frame] l
  | torn (up : gone = false) : Sending l gone frame [] l.tear

/-- The outcomes of resetting a stream that cannot go on. -/
inductive Cutting (l : Ledger) (gone : Bool) (serial : Nat) : List Frame → Ledger → Prop where
  | idle (isOver : (l.stream serial).isOver = true) : Cutting l gone serial [] l
  /-- The peer is told of the end. -/
  | told (live : (l.stream serial).isOver = false) (up : gone = false) :
      Cutting l gone serial [(l.stream serial).farewell .reset]
        ((l.finish serial .reset).sweep (l.stream serial).id)
  /-- Nobody can be told. -/
  | untold (live : (l.stream serial).isOver = false)
      (why : gone = true ∨ ∃ fault, ((l.stream serial).farewell .reset).encode = .error fault) :
      Cutting l gone serial [] ((l.finish serial .reset).sweep (l.stream serial).id)
  /-- Telling the peer fails. -/
  | torn (live : (l.stream serial).isOver = false) (up : gone = false) :
      Cutting l gone serial [] (l.finish serial .reset).tear

/-- The outcomes of queueing a payload. -/
inductive Queueing (l : Ledger) (gone : Bool) (serial : Nat) (payload : Bytes) :
    List Frame → Ledger → Prop where
  /-- There is nothing to queue, or the stream is over. -/
  | idle (why : payload = [] ∨ (l.stream serial).isOver = true) :
      Queueing l gone serial payload [] l
  | queued (data : payload ≠ []) (live : (l.stream serial).isOver = false)
      (room : (l.stream serial).queue.length < (l.stream serial).capacity) :
      Queueing l gone serial payload [] (l.push serial payload)
  | full {out : List Frame} {l' : Ledger} (data : payload ≠ [])
      (live : (l.stream serial).isOver = false)
      (full : (l.stream serial).capacity ≤ (l.stream serial).queue.length)
      (cutting : (l.overflow serial).Cutting gone serial out l') :
      Queueing l gone serial payload out l'

/-- The outcomes of a payload that comes with the announcement of a pending stream. -/
inductive Dispatching (l : Ledger) (gone fails : Bool) (id : UInt64) (serial : Nat)
    (payload : Bytes) : List Frame → Ledger → Prop where
  | called {out : List Frame} {l' : Ledger} (starts : fails = false)
      (queueing : (l.accept id serial).Queueing gone serial payload out l') :
      Dispatching l gone fails id serial payload out l'
  /-- The handler cannot be started, and the payload is dropped. -/
  | unstarted {out : List Frame} {l' : Ledger} (stuck : fails = true)
      (cutting : (l.misstart id serial).Cutting gone serial out l') :
      Dispatching l gone fails id serial payload out l'

theorem Dispatching.queueing {l l' : Ledger} {gone : Bool} {id : UInt64} {serial : Nat}
    {payload : Bytes} {out : List Frame} (h : l.Dispatching gone false id serial payload out l') :
    (l.accept id serial).Queueing gone serial payload out l' := by
  cases h with
  | called starts queueing => exact queueing
  | unstarted stuck cutting => cases stuck

/-- The outcomes of a frame of the peer. -/
inductive Receiving (l : Ledger) (gone fails : Bool) (frame : Frame) :
    List Frame → Ledger → Prop where
  | reserved (kind : frame.kind? = none) : Receiving l gone fails frame [] l
  /-- The connection is torn down, or the number is one of this side's and has no current stream. -/
  | refused {kind : Kind} (is : frame.kind? = some kind) (opens : kind.ending? = none)
      (why : l.tornDown = true ∨ l.find? frame.id = none ∧ l.ids.owns frame.id = true) :
      Receiving l gone fails frame [] l
  /-- Data would begin one pending stream too many. -/
  | crowded {kind : Kind} {out : List Frame} {l' : Ledger} (is : frame.kind? = some kind)
      (message : kind.isMessage = true) (up : l.tornDown = false) (new : l.find? frame.id = none)
      (foreign : l.ids.owns frame.id = false)
      (sending : l.Sending gone (.ofKind frame.id .resetAcceptor []) out l')
      (full : l.settings.pendingLimit ≤ l.registry.pending.length) :
      Receiving l gone fails frame out l'
  | began {out : List Frame} {l' : Ledger} (is : frame.kind? = some .newStream)
      (up : l.tornDown = false) (new : l.find? frame.id = none)
      (foreign : l.ids.owns frame.id = false)
      (dispatching : (l.welcome frame.id).Dispatching gone fails frame.id l.size frame.payload out
        l') :
      Receiving l gone fails frame out l'
  | announced {serial : Nat} {out : List Frame} {l' : Ledger}
      (is : frame.kind? = some .newStream) (up : l.tornDown = false)
      (current : l.find? frame.id = some serial) (pending : frame.id ∈ l.registry.pending)
      (dispatching : l.Dispatching gone fails frame.id serial frame.payload out l') :
      Receiving l gone fails frame out l'
  | repeated {serial : Nat} {out : List Frame} {l' : Ledger} (is : frame.kind? = some .newStream)
      (up : l.tornDown = false) (current : l.find? frame.id = some serial)
      (accepted : frame.id ∉ l.registry.pending)
      (queueing : l.Queueing gone serial frame.payload out l') : Receiving l gone fails frame out l'
  /-- Data begins a stream, which is pending then. -/
  | early {kind : Kind} {out : List Frame} {l' : Ledger} (is : frame.kind? = some kind)
      (message : kind.isMessage = true) (up : l.tornDown = false) (new : l.find? frame.id = none)
      (foreign : l.ids.owns frame.id = false)
      (queueing : (l.welcome frame.id).Queueing gone l.size frame.payload out l')
      (room : l.registry.pending.length < l.settings.pendingLimit) :
      Receiving l gone fails frame out l'
  | data {kind : Kind} {serial : Nat} {out : List Frame} {l' : Ledger}
      (is : frame.kind? = some kind) (message : kind.isMessage = true) (up : l.tornDown = false)
      (current : l.find? frame.id = some serial)
      (queueing : l.Queueing gone serial frame.payload out l') : Receiving l gone fails frame out l'
  /-- No stream that is open is there to be ended. -/
  | lost {kind : Kind} {ending : Ending} (is : frame.kind? = some kind)
      (ends : kind.ending? = some ending)
      (isOver : ∀ serial, l.find? frame.id = some serial → (l.stream serial).isOver = true) :
      Receiving l gone fails frame [] l
  | ended {kind : Kind} {ending : Ending} {serial : Nat} (is : frame.kind? = some kind)
      (ends : kind.ending? = some ending) (current : l.find? frame.id = some serial)
      (live : (l.stream serial).isOver = false) :
      Receiving l gone fails frame [] ((l.finish serial ending).sweep frame.id)

theorem Cutting.isOver {l l' : Ledger} {gone : Bool} {serial : Nat} {out : List Frame}
    (h : l.Cutting gone serial out l') : (l'.stream serial).isOver = true := by
  cases h with
  | idle isOver => exact isOver
  | told live up => rw [stream_sweep, isOver_finish_self live]
  | untold live why => rw [stream_sweep, isOver_finish_self live]
  | torn live up => exact isOver_tear (isOver_finish_self live .reset)

theorem Cutting.handles {l l' : Ledger} {gone : Bool} {serial : Nat} {out : List Frame}
    (h : l.Cutting gone serial out l') : l'.handles = l.handles := by
  cases h <;> rfl

/-- Where there is nothing to queue, or no stream to queue it for, nothing happens. -/
theorem Queueing.eq_self {l l' : Ledger} {gone : Bool} {serial : Nat} {out : List Frame}
    {payload : Bytes} (h : l.Queueing gone serial payload out l')
    (idle : payload = [] ∨ (l.stream serial).isOver = true) : l' = l ∧ out = [] := by
  have hnot : payload ≠ [] → (l.stream serial).isOver = false → False := by
    rintro data live
    rcases idle with rfl | hover
    · exact data rfl
    · rw [live] at hover
      cases hover
  cases h with
  | idle why => exact ⟨rfl, rfl⟩
  | queued data live room => exact (hnot data live).elim
  | full data live full cutting => exact (hnot data live).elim

end Ledger

/-! ### Operations that lead to a ledger -/

namespace Mux

variable {m m' m'' : Mux} {out out' : List Frame} {l l' : Ledger}

/-- An operation passes frames on and leads to a ledger. -/
structure Leads (m : Mux) (out : List Frame) (l : Ledger) (m' : Mux) : Prop where
  passes : m.Passes out m'
  ledger : m'.ledger = l
  heeds : m.Heeds m'

namespace Leads

theorem refl (m : Mux) : m.Leads [] m.ledger m := ⟨.refl m, rfl, .of_eq rfl⟩

theorem trans (h : m.Leads out l m') (h' : m'.Leads out' l' m'') :
    m.Leads (out ++ out') l' m'' :=
  ⟨h.passes.trans h'.passes, h'.ledger, .trans h.passes h.heeds h'.heeds⟩

theorem nil_trans (h : m.Leads [] l m') (h' : m'.Leads out l' m'') : m.Leads out l' m'' := by
  simpa using h.trans h'

/-- What only changes journal and counters leads nowhere else. -/
theorem trans_quiet (h : m.Leads out l m') (hpasses : m'.Passes [] m'')
    (hledger : m''.ledger = m'.ledger) : m.Leads out l m'' := by
  have hquiet : m'.Leads [] l m'' :=
    ⟨hpasses, hledger.trans h.ledger, .of_eq (congrArg Ledger.tornDown hledger)⟩
  simpa using h.trans hquiet

theorem trans_note (h : m.Leads out l m') (entry : Note) (hentry : entry.overflow? = none) :
    m.Leads out l (m'.note entry) :=
  h.trans_quiet (.note ..) (ledger_note m' entry hentry)

theorem trans_count (h : m.Leads out l m') (f : Counters → Counters) :
    m.Leads out l (m'.count f) :=
  h.trans_quiet (.count ..) rfl

theorem sweep (h : m.Leads out l m') (id : UInt64) : m.Leads out (l.sweep id) (m'.sweep id) := by
  have hsweep : m'.Leads [] (l.sweep id) (m'.sweep id) :=
    ⟨.of_eq rfl rfl rfl rfl rfl rfl rfl rfl, congrArg (Ledger.sweep · id) h.ledger, .of_eq rfl⟩
  simpa using h.trans hsweep

theorem of_note (m : Mux) (entry : Note) (hentry : entry.overflow? = none) :
    m.Leads [] m.ledger (m.note entry) :=
  (Leads.refl m).trans_note entry hentry

theorem isClosed_eq (h : m.Leads out l m') (htorn : l.tornDown = m.tornDown) :
    m'.isClosed = m.isClosed := by
  have ht : m'.tornDown = m.tornDown := (congrArg Ledger.tornDown h.ledger).trans htorn
  unfold Mux.isClosed
  rw [h.passes.side, h.passes.closed, ht]
  cases m.tornDown <;> simp

end Leads

theorem sends_leads (m : Mux) (frame : Frame) :
    ∃ out l, m.ledger.Sending m.isClosed frame out l ∧ m.Leads out l (m.send frame).1 := by
  have hsends := sends m frame
  have hheeds := hsends.heeds
  generalize m.send frame = result at hsends hheeds
  cases hsends with
  | refused fault why => exact ⟨[], _, .refused why, .refl m⟩
  | sent size up passes ledger => exact ⟨[frame], _, .sent up, passes, ledger, hheeds⟩
  | torn fault up passes ledger => exact ⟨[], _, .torn up, passes, ledger, hheeds⟩

/-! ### Binding -/

/-- The outcomes of looking for the stream of a frame. -/
inductive Binds (m : Mux) (id : UInt64) (announced : Bool) :
    Mux × Except Refusal (Nat × Bool) → Prop where
  | torn (torn : m.tornDown = true) : Binds m id announced (m, .error .closed)
  | current {serial : Nat} (up : m.tornDown = false) (find : m.ledger.find? id = some serial) :
      Binds m id announced (m, .ok (serial, false))
  | own (up : m.tornDown = false) (new : m.ledger.find? id = none)
      (own : m.ledger.ids.owns id = true) : Binds m id announced (m, .error .ownNumber)
  | crowded (late : announced = false) (up : m.tornDown = false)
      (new : m.ledger.find? id = none) (foreign : m.ledger.ids.owns id = false)
      (full : m.ledger.settings.pendingLimit ≤ m.ledger.registry.pending.length) :
      Binds m id announced (m, .error .crowded)
  | fresh {m' : Mux} (up : m.tornDown = false) (new : m.ledger.find? id = none)
      (foreign : m.ledger.ids.owns id = false) (leads : m.Leads [] (m.ledger.welcome id) m')
      (room : announced = false →
        m.ledger.registry.pending.length < m.ledger.settings.pendingLimit) :
      Binds m id announced (m', .ok (m.ledger.size, true))

theorem binds (m : Mux) (id : UInt64) (announced : Bool) :
    m.Binds id announced (m.bind id announced) := by
  unfold bind
  by_cases htorn : m.tornDown = true
  · rw [if_pos htorn]
    exact .torn htorn
  · have hup : m.tornDown = false := by simpa using htorn
    rw [if_neg htorn]
    split
    · rename_i serial hfind
      exact .current hup hfind
    · rename_i hnew
      split
      · rename_i hown
        exact .own hup hnew hown
      · rename_i hforeign
        have hforeign : m.ids.owns id = false := by simpa using hforeign
        split
        · rename_i hcrowded
          obtain ⟨hlate, hfull⟩ := Bool.and_eq_true_iff.mp hcrowded
          exact .crowded (by simpa using hlate) hup hnew hforeign (of_decide_eq_true hfull)
        · rename_i hroom
          rw [Registry.findOrBegin_of_none hnew]
          refine .fresh hup hnew hforeign
            ⟨.of_eq rfl rfl rfl rfl rfl rfl rfl rfl, rfl, .of_eq rfl⟩ ?_
          rintro rfl
          have hlt : m.registry.pending.length < m.settings.pendingLimit := by simpa using hroom
          exact hlt

theorem conditions_bind (m : Mux) (id : UInt64) (announced : Bool) :
    (m.bind id announced).1.conditions = m.conditions := by
  unfold bind
  split
  · rfl
  · split
    · rfl
    · split
      · rfl
      · split <;> rfl

theorem turnAway_leads (m : Mux) (id : UInt64) (kind : Kind) {refusal : Refusal}
    (h : refusal ≠ .crowded) : m.Leads [] m.ledger (m.turnAway id kind refusal) := by
  unfold turnAway
  cases refusal with
  | crowded => exact absurd rfl h
  | closed => exact (Leads.of_note m _ rfl).trans_count _
  | ownNumber => exact (Leads.of_note m _ rfl).trans_count _

/-- A stream that would be pending beyond the limit is reset. -/
theorem turnAway_crowded (m : Mux) (id : UInt64) (kind : Kind) :
    ∃ out l, m.ledger.Sending m.isClosed (.ofKind id .resetAcceptor []) out l ∧
      m.Leads out l (m.turnAway id kind .crowded) := by
  unfold turnAway
  simp only
  have hnoted : m.Leads [] m.ledger (m.note (.refused id .crowded)) := .of_note m _ rfl
  obtain ⟨out, l, hsending, hleads⟩ :=
    sends_leads (m.note (.refused id .crowded)) (.ofKind id .resetAcceptor [])
  rw [hnoted.ledger, hnoted.isClosed_eq rfl] at hsending
  refine ⟨out, l, hsending, Leads.trans_count ?_ _⟩
  have hall := hnoted.nil_trans hleads
  generalize (m.note (.refused id .crowded)).send (.ofKind id .resetAcceptor []) = result at hall ⊢
  obtain ⟨after, fault | size⟩ := result
  · exact hall.trans_note _ rfl
  · exact hall

/-! ### Accepting and queueing -/

/-- The state of a session that has just accepted a stream. -/
def accepted (m : Mux) (id : UInt64) (serial : Nat) : Mux :=
  { m with registry := { m.registry with pending := m.registry.pending.erase id } }.takeUp id serial

theorem ledger_accepted (m : Mux) (id : UInt64) (serial : Nat) :
    (m.accepted id serial).ledger = m.ledger.accept id serial := by
  simp [ledger, accepted, takeUp, Ledger.accept, Ledger.hold, note, count, Note.overflow?]

theorem callHandler_of_not_mem {id : UInt64} {serial : Nat} (h : id ∉ m.registry.pending) :
    m.callHandler id serial = (m, .ok false) := by
  unfold callHandler Registry.announce
  rw [if_neg (by simpa using h)]

theorem callHandler_started {id : UInt64} {serial : Nat} (pending : id ∈ m.registry.pending)
    (starts : m.conditions.failStart = none) : m.callHandler id serial =
      ({ m.accepted id serial with arrivals := m.arrivals ++ [m.handles.length] }, .ok true) := by
  unfold callHandler Registry.announce
  rw [if_pos (by simpa using pending)]
  simp only [takeUp, accepted, note, count, starts]

theorem callHandler_unstarted {id : UInt64} {serial : Nat} {text : String}
    (pending : id ∈ m.registry.pending) (fails : m.conditions.failStart = some text) :
    m.callHandler id serial =
      ({ m.accepted id serial with conditions := { m.conditions with failStart := none } }.drop
        m.handles.length, .error (.system text)) := by
  unfold callHandler Registry.announce
  rw [if_pos (by simpa using pending)]
  simp only [takeUp, accepted, note, count, fails]

/-- The handle that was just made is dropped with the handler that cannot be started. -/
theorem unstarted_leads (m : Mux) (id : UInt64) (serial : Nat) :
    m.Leads [] (m.ledger.misstart id serial)
      ({ m.accepted id serial with conditions := { m.conditions with failStart := none } }.drop
        m.handles.length) := by
  have hplace : (m.accepted id serial).handles[m.handles.length]? =
      some { serial, label := none } := by
    simp [accepted, takeUp, note, count]
  have hkept : m.Passes [] { m.accepted id serial with conditions := m.conditions } :=
    .of_eq rfl rfl rfl rfl rfl rfl rfl rfl
  have hpasses : m.Passes [] { m.accepted id serial with
      conditions := { m.conditions with failStart := none } } :=
    { hkept with calm := fun h => by rw [h] }
  have hledger := ledger_drop (m := { m.accepted id serial with
    conditions := { m.conditions with failStart := none } }) hplace rfl
  rw [show Mux.ledger { m.accepted id serial with
      conditions := { m.conditions with failStart := none } } = m.ledger.accept id serial
    from m.ledger_accepted id serial] at hledger
  refine ⟨hpasses.trans_nil (passes_drop ..), hledger, .of_eq ?_⟩
  exact (congrArg Ledger.tornDown hledger).trans (Ledger.tornDown_misstart ..)

theorem ledger_queueFull (m : Mux) (serial limit : Nat) :
    (m.note (.queueFull (m.registry.stream serial).id limit)).ledger =
      m.ledger.overflow serial := by
  simp [ledger, note, Ledger.overflow, Ledger.stream, Note.overflow?]

theorem cutShort_leads (m : Mux) (serial : Nat) :
    ∃ out l, m.ledger.Cutting m.isClosed serial out l ∧ m.Leads out l (m.cutShort serial) := by
  have hends := terminates m serial .reset
  have hheeds := hends.heeds
  unfold cutShort
  generalize m.terminate serial .reset = result at hends hheeds ⊢
  cases hends with
  | idle result isOver =>
    refine ⟨[], _, .idle isOver, ?_⟩
    rcases result with fault | ⟨⟩
    · exact .of_note m _ rfl
    · exact .refl m
  | told live up passes ledger => exact ⟨_, _, .told live up, passes, ledger, hheeds⟩
  | untold fault live why passes ledger =>
    exact ⟨_, _, .untold live why, Leads.trans_note ⟨passes, ledger, hheeds⟩ _ rfl⟩
  | torn fault live up passes ledger =>
    exact ⟨_, _, .torn live up, Leads.trans_note ⟨passes, ledger, hheeds⟩ _ rfl⟩

/-- A stream is reset after something that tears nothing down. -/
theorem Leads.cutShort (h : m.Leads [] l m') (htorn : l.tornDown = m.tornDown) (serial : Nat) :
    ∃ out l', l.Cutting m.isClosed serial out l' ∧ m.Leads out l' (m'.cutShort serial) := by
  obtain ⟨out, l', hcutting, hleads⟩ := cutShort_leads m' serial
  rw [h.ledger, h.isClosed_eq htorn] at hcutting
  exact ⟨out, l', hcutting, h.nil_trans hleads⟩

theorem overflow_leads (m : Mux) (serial limit : Nat) :
    m.Leads [] (m.ledger.overflow serial)
      (m.note (.queueFull (m.registry.stream serial).id limit)) :=
  ⟨.note .., ledger_queueFull m serial limit, .of_eq rfl⟩

theorem enqueue_leads_of_isOver {serial : Nat} (h : (m.ledger.stream serial).isOver = true)
    (payload : Bytes) : m.Leads [] m.ledger (m.enqueue serial payload) := by
  unfold enqueue
  split
  · exact .refl m
  · simp only [Stream.push, if_pos (show (m.registry.stream serial).isOver = true from h)]
    exact (Leads.of_note m _ rfl).trans_count _

theorem enqueues (m : Mux) (serial : Nat) (payload : Bytes) :
    ∃ out l, m.ledger.Queueing m.isClosed serial payload out l ∧
      m.Leads out l (m.enqueue serial payload) := by
  by_cases hover : (m.registry.stream serial).isOver = true
  · exact ⟨[], _, .idle (Or.inr hover), enqueue_leads_of_isOver hover payload⟩
  have hlive : (m.registry.stream serial).isOver = false := by simpa using hover
  unfold enqueue
  by_cases hempty : payload = []
  · rw [if_pos (by simp [hempty])]
    exact ⟨[], _, .idle (Or.inl hempty), .refl m⟩
  rw [if_neg (by simpa using hempty)]
  by_cases hfull : (m.registry.stream serial).capacity ≤ (m.registry.stream serial).queue.length
  · simp only [Stream.push, if_neg hover, if_pos hfull]
    obtain ⟨out, l, hcutting, hleads⟩ :=
      (m.overflow_leads serial m.settings.queueLimit).cutShort rfl serial
    exact ⟨out, l, .full hempty hlive hfull hcutting, hleads⟩
  · simp only [Stream.push, if_neg hover, if_neg hfull]
    exact ⟨[], _, .queued hempty hlive (Nat.lt_of_not_le hfull),
      .of_eq rfl rfl rfl rfl rfl rfl rfl rfl, rfl, .of_eq rfl⟩

theorem Leads.enqueue (h : m.Leads [] l m') (htorn : l.tornDown = m.tornDown) (serial : Nat)
    (payload : Bytes) : ∃ out l', l.Queueing m.isClosed serial payload out l' ∧
      m.Leads out l' (m'.enqueue serial payload) := by
  obtain ⟨out, l', hqueueing, hleads⟩ := enqueues m' serial payload
  rw [h.ledger, h.isClosed_eq htorn] at hqueueing
  exact ⟨out, l', hqueueing, h.nil_trans hleads⟩

theorem announce_leads_of_not_mem {id : UInt64} (h : id ∉ m.ledger.registry.pending)
    (serial : Nat) : m.Leads [] m.ledger (m.announce id serial) := by
  unfold announce
  rw [callHandler_of_not_mem h]
  exact (Leads.of_note m _ rfl).trans_count _

/-- A stream whose handler cannot be started is accepted and reset. -/
theorem announce_unstarted (m : Mux) {id : UInt64} (pending : id ∈ m.ledger.registry.pending)
    {text : String} (fails : m.conditions.failStart = some text) (serial : Nat) :
    ∃ out l, (m.ledger.misstart id serial).Cutting m.isClosed serial out l ∧
      m.Leads out l (m.announce id serial) := by
  unfold announce
  rw [callHandler_unstarted pending fails]
  exact ((m.unstarted_leads id serial).trans_note (.notDispatched id (.system text)) rfl).cutShort
    (Ledger.tornDown_misstart ..) serial

/-- A stream that is pending is accepted, and goes on if its handler can be started. -/
theorem dispatches (m : Mux) {id : UInt64} (pending : id ∈ m.ledger.registry.pending)
    (serial : Nat) (payload : Bytes) :
    ∃ out l,
      m.ledger.Dispatching m.isClosed m.conditions.failStart.isSome id serial payload out l ∧
      m.Leads out l ((m.announce id serial).enqueue serial payload) := by
  rcases hstart : m.conditions.failStart with _ | text
  · have haccepted : m.Leads [] (m.ledger.accept id serial) (m.announce id serial) := by
      unfold announce
      rw [callHandler_started pending hstart]
      exact ⟨.of_eq rfl rfl rfl rfl rfl rfl rfl rfl, m.ledger_accepted id serial, .of_eq rfl⟩
    obtain ⟨out, l, hqueueing, hleads⟩ := haccepted.enqueue rfl serial payload
    exact ⟨out, l, .called rfl hqueueing, hleads⟩
  · obtain ⟨out, l, hcutting, hleads⟩ := m.announce_unstarted pending hstart serial
    -- the stream is over then, and takes no payload
    have hidle := enqueue_leads_of_isOver (hleads.ledger ▸ hcutting.isOver) payload
    rw [hleads.ledger] at hidle
    exact ⟨out, l, .unstarted rfl hcutting, by simpa using hleads.trans hidle⟩

/-! ### Frames -/

section Frames

variable {frame : Frame} {kind : Kind}

theorem receives_newStream (m : Mux) (is : frame.kind? = some .newStream) :
    ∃ out l, m.ledger.Receiving m.isClosed m.conditions.failStart.isSome frame out l ∧
      m.Leads out l (m.receiveKind .newStream frame.id frame.payload) := by
  unfold receiveKind
  have hbinds := binds m frame.id true
  have hsame := conditions_bind m frame.id true
  generalize m.bind frame.id true = result at hbinds hsame ⊢
  cases hbinds with
  | torn torn =>
    exact ⟨[], _, .refused is rfl (Or.inl torn), m.turnAway_leads _ _ (by simp)⟩
  | own up new own =>
    exact ⟨[], _, .refused is rfl (Or.inr ⟨new, own⟩), m.turnAway_leads _ _ (by simp)⟩
  | crowded late => cases late
  | @current serial up find =>
    simp only
    by_cases hpending : frame.id ∈ m.ledger.registry.pending
    · obtain ⟨out, l, hdispatching, hleads⟩ := m.dispatches hpending serial frame.payload
      exact ⟨out, l, .announced is up find hpending hdispatching, hleads⟩
    · obtain ⟨out, l, hqueueing, hleads⟩ :=
        (announce_leads_of_not_mem hpending serial).enqueue rfl serial frame.payload
      exact ⟨out, l, .repeated is up find hpending hqueueing, hleads⟩
  | @fresh begun up new foreign leads =>
    simp only
    have hpending : frame.id ∈ begun.ledger.registry.pending := by
      rw [leads.ledger]
      exact List.mem_append_right _ (List.mem_singleton_self _)
    obtain ⟨out, l, hdispatching, hleads⟩ := begun.dispatches hpending m.ledger.size frame.payload
    rw [leads.ledger, leads.isClosed_eq rfl, hsame] at hdispatching
    exact ⟨out, l, .began is up new foreign hdispatching, leads.nil_trans hleads⟩

theorem receiveKind_refused {id : UInt64} {payload : Bytes} {refusal : Refusal}
    (message : kind.isMessage = true) (h : m.bind id false = (m', .error refusal)) :
    m.receiveKind kind id payload = m'.turnAway id kind refusal := by
  cases kind <;> first | (simp only [receiveKind, h]; done) | cases message

theorem receiveKind_bound {id : UInt64} {payload : Bytes} {serial : Nat} {isNew : Bool}
    (message : kind.isMessage = true) (h : m.bind id false = (m', .ok (serial, isNew))) :
    m.receiveKind kind id payload =
      (if isNew = true then m'.note (.early id) else m').enqueue serial payload := by
  cases kind <;> first | (simp only [receiveKind, h]; done) | cases message

theorem receives_message (m : Mux) (is : frame.kind? = some kind)
    (message : kind.isMessage = true) :
    ∃ out l, m.ledger.Receiving m.isClosed m.conditions.failStart.isSome frame out l ∧
      m.Leads out l (m.receiveKind kind frame.id frame.payload) := by
  have hopens := (Kind.ending?_of_isMessage message).1
  have hbinds := binds m frame.id false
  generalize hbind : m.bind frame.id false = result at hbinds
  cases hbinds with
  | torn torn =>
    rw [receiveKind_refused message hbind]
    exact ⟨[], _, .refused is hopens (Or.inl torn), m.turnAway_leads _ _ (by simp)⟩
  | own up new own =>
    rw [receiveKind_refused message hbind]
    exact ⟨[], _, .refused is hopens (Or.inr ⟨new, own⟩), m.turnAway_leads _ _ (by simp)⟩
  | crowded late up new foreign full =>
    rw [receiveKind_refused message hbind]
    obtain ⟨out, l, hsending, hleads⟩ := m.turnAway_crowded frame.id kind
    exact ⟨out, l, .crowded is message up new foreign hsending full, hleads⟩
  | @current serial up find =>
    rw [receiveKind_bound message hbind]
    obtain ⟨out, l, hqueueing, hleads⟩ := (Leads.refl m).enqueue rfl serial frame.payload
    exact ⟨out, l, .data is message up find hqueueing, hleads⟩
  | @fresh begun up new foreign leads room =>
    rw [receiveKind_bound message hbind]
    obtain ⟨out, l, hqueueing, hleads⟩ :=
      (leads.trans_note (.early frame.id) rfl).enqueue rfl m.ledger.size frame.payload
    exact ⟨out, l, .early is message up new foreign hqueueing (room rfl), hleads⟩

theorem receives_ending (m : Mux) {ending : Ending} (is : frame.kind? = some kind)
    (ends : kind.ending? = some ending) :
    ∃ out l, m.ledger.Receiving m.isClosed m.conditions.failStart.isSome frame out l ∧
      m.Leads out l (m.receiveKind kind frame.id frame.payload) := by
  have hkind : m.receiveKind kind frame.id frame.payload = m.endByPeer frame.id ending := by
    cases kind <;> cases ends <;> rfl
  rw [hkind]
  unfold endByPeer
  split
  · rename_i hnone
    refine ⟨[], _, .lost is ends ?_, (Leads.of_note m _ rfl).trans_count _⟩
    intro serial hfind
    rw [show m.ledger.find? frame.id = none from hnone] at hfind
    cases hfind
  · rename_i serial hfind
    by_cases hover : (m.registry.stream serial).isOver = true
    · rw [Stream.terminate_of_isOver hover]
      refine ⟨[], _, .lost is ends ?_, (Leads.refl m).trans_count _⟩
      intro other hother
      cases hother.symm.trans hfind
      exact hover
    · have hlive : (m.registry.stream serial).isOver = false := by simpa using hover
      rw [Stream.terminate_eq hlive]
      have hupdate : m.Leads [] (m.ledger.finish serial ending)
          (m.update serial { m.registry.stream serial with ending := some ending }) :=
        ⟨.of_eq rfl rfl rfl rfl rfl rfl rfl rfl, rfl, .of_eq rfl⟩
      have hended := (hupdate.trans_quiet (.countEnding _ ending)
        (ledger_countEnding _ ending)).trans_note (.endedByPeer frame.id ending) rfl
      exact ⟨[], _, .ended is ends hfind hlive, hended.sweep frame.id⟩

theorem receives (m : Mux) (frame : Frame) :
    ∃ out l, m.ledger.Receiving m.isClosed m.conditions.failStart.isSome frame out l ∧
      m.Leads out l (m.receive frame) := by
  unfold receive
  rcases hkind : frame.kind? with _ | kind
  · exact ⟨[], _, .reserved hkind, ((Leads.of_note m _ rfl).trans_count _).trans_count _⟩
  · have hnoted : m.Leads [] m.ledger (m.note (.received kind frame.id frame.payload.length)) :=
      .of_note m _ rfl
    have hresult : ∃ out l,
        (m.note (.received kind frame.id frame.payload.length)).ledger.Receiving
          (m.note (.received kind frame.id frame.payload.length)).isClosed
          m.conditions.failStart.isSome frame out l ∧
        (m.note (.received kind frame.id frame.payload.length)).Leads out l
          ((m.note (.received kind frame.id frame.payload.length)).receiveKind kind frame.id
            frame.payload) := by
      rcases hends : kind.ending? with _ | ending
      · cases hmessage : kind.isMessage
        · obtain rfl := Kind.eq_newStream hends hmessage
          exact receives_newStream _ hkind
        · exact receives_message _ hkind hmessage
      · exact receives_ending _ hkind hends
    obtain ⟨out, l, hreceiving, hleads⟩ := hresult
    rw [hnoted.ledger, hnoted.isClosed_eq rfl] at hreceiving
    exact ⟨out, l, hreceiving, (hnoted.nil_trans hleads).trans_count _⟩

end Frames

end Mux

/-! ### Outcomes as moves -/

namespace Ledger

variable {l l' : Ledger} {gone fails : Bool} {out : List Frame}

theorem Sending.moves {frame : Frame} (h : l.Sending gone frame out l') : Moves l l' := by
  cases h with
  | refused why => exact .refl
  | sent up => exact .refl
  | torn up => exact .single .tear

theorem Cutting.moves {serial : Nat} (h : l.Cutting gone serial out l') : Moves l l' := by
  cases h with
  | idle isOver => exact .refl
  | told live up => exact .single (.finish .reset live)
  | untold live why => exact .single (.finish .reset live)
  | torn live up => exact .single (.finishTorn .reset live)

theorem Queueing.moves {serial : Nat} {payload : Bytes}
    (h : l.Queueing gone serial payload out l') : Moves l l' := by
  cases h with
  | idle why => exact .refl
  | queued data live room => exact .single (.push payload live room)
  | full data live full cutting => exact .head (.overflow serial) cutting.moves

theorem Dispatching.moves {id : UInt64} {serial : Nat} {payload : Bytes}
    (h : l.Dispatching gone fails id serial payload out l') (pending : id ∈ l.registry.pending)
    (current : l.find? id = some serial) : Moves l l' := by
  cases h with
  | called starts queueing => exact .head (.accept pending current) queueing.moves
  | unstarted stuck cutting => exact .head (.misstart pending current) cutting.moves

theorem Receiving.moves {frame : Frame} (h : l.Receiving gone fails frame out l') (sound : l.Sound)
    (fits : frame.id ≤ Header.maxId) : Moves l l' := by
  cases h with
  | reserved kind => exact .refl
  | refused is opens why => exact .refl
  | crowded is message up new foreign sending => exact sending.moves
  | began is up new foreign dispatching =>
    refine .head (.welcome up new foreign fits) (dispatching.moves ?_ ?_)
    · exact List.mem_append_right _ (List.mem_singleton_self _)
    · rw [find?_welcome, if_pos rfl]
  | announced is up current pending dispatching => exact dispatching.moves pending current
  | repeated is up current accepted queueing => exact queueing.moves
  | early is message up new foreign queueing =>
    exact .head (.welcome up new foreign fits) queueing.moves
  | data is message up current queueing => exact queueing.moves
  | lost is ends isOver => exact .refl
  | @ended _ ending serial is ends current live =>
    rw [← (sound.current current).2]
    exact .single (.finish ending live)

end Ledger

end StreamMux
