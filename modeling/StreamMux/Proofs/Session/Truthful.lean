import StreamMux.Proofs.Session.Verdict

/-!
# What a fault says about the session

The faults that users are answered fall into two classes.  A fault of the link means that the
connection is gone, for good.  A fault of one stream, or of a frame that cannot be written, means
that nothing happened to anything else.

* `Mux.Refuses`, `Mux.lapses` — a write that the link refuses, and how many there were: one more
  exactly when a frame is refused (`Mux.lapses_send_iff`);
* `Mux.Truthful` — what a fault says about the session before and after it;
* `Mux.truthful_send`, `Mux.truthful_terminate`, … — each operation of a user is truthful;
* `Mux.truthful_run` — so is whatever a user asks for after any run.
-/

namespace StreamMux

/-! ### Classes of faults -/

namespace Fault

/-- Whether the fault is about one stream or one frame, and not about the connection. -/
def isLocal : Fault → Bool
  | frame _ | streamNotFound _ | streamClosed _ | streamReset _ => true
  | _ => false

/-- The stream that a fault names. -/
def stream? : Fault → Option UInt64
  | streamNotFound id | streamClosed id | streamReset id => some id
  | _ => none

end Fault

/-- Whether a note tells of a write that the link refused. -/
def Note.isLapse : Note → Bool
  | writeFailed .. => true
  | _ => false

namespace Mux

variable {m m' : Mux} {frame : Frame} {fault : Fault} {serial : Nat}

/-- The fault of an answer, if it is one. -/
def Answer.fault? : Answer → Option Fault
  | .opened (.error fault) | .size (.error fault) | .done (.error fault) => some fault
  | .reading (.fault fault) => some fault
  | _ => none

/-! ### Writes that the link refuses -/

/-- How many writes the link refused so far. -/
def lapses (m : Mux) : Nat := m.notes.countP Note.isLapse

/-- The frame is written to the link, and the link refuses it. -/
def Refuses (m : Mux) (frame : Frame) : Prop :=
  m.isClosed = false ∧ ∃ bytes fault, frame.encode = .ok bytes ∧ (m.transmit bytes).2 = .error fault

theorem lapses_note (m : Mux) (entry : Note) (h : entry.isLapse = false) :
    (m.note entry).lapses = m.lapses := by
  simp [lapses, note, h]

theorem lapses_shut (m : Mux) : m.shut.1.lapses = m.lapses := by
  have hclosed := lapses_note { m with link := m.link.close m.side } (.linkClosed m.side) rfl
  unfold shut
  simp only
  split <;> split
  · rfl
  · exact hclosed
  · rfl
  · exact hclosed

theorem lapses_tearDown (m : Mux) (cause : Cause) : (m.tearDown cause).lapses = m.lapses := by
  unfold tearDown
  split
  · rfl
  · obtain ⟨begun, hbegun⟩ :
        ∃ begun, { m with tornDown := true }.note (.tearingDown cause) = begun := ⟨_, rfl⟩
    have hsame : begun.lapses = m.lapses :=
      hbegun ▸ lapses_note { m with tornDown := true } (.tearingDown cause) rfl
    have hshut := lapses_shut begun
    simp only [hbegun]
    generalize begun.shut = result at hshut ⊢
    obtain ⟨shut, fault | _⟩ := result
    · rw [lapses_note _ _ rfl]
      exact (lapses_note shut (.closeFailed fault) rfl).trans (hshut.trans hsame)
    · rw [lapses_note _ _ rfl]
      exact hshut.trans hsame

theorem tornDown_tearDown (m : Mux) (cause : Cause) : (m.tearDown cause).tornDown = true := by
  by_cases htorn : m.tornDown = true
  · rwa [tearDown_of_torn htorn]
  · exact congrArg Ledger.tornDown (ledger_tearDown (by simpa using htorn) cause)

theorem send_cases (m : Mux) (frame : Frame) :
    (∃ fault, frame.encode = .error fault ∧ m.send frame = (m, .error (.frame fault))) ∨
    (m.isClosed = true ∧ (∃ bytes, frame.encode = .ok bytes) ∧
      m.send frame = (m, .error .closed)) ∨
    (¬ m.Refuses frame ∧ (m.send frame).1.lapses = m.lapses ∧
      ∃ size, (m.send frame).2 = .ok size) ∨
    (m.Refuses frame ∧ (m.send frame).1.lapses = m.lapses + 1 ∧
      (m.send frame).1.tornDown = true ∧ ∃ fault, (m.send frame).2 = .error (.link fault)) := by
  unfold send Refuses
  rcases hencode : frame.encode with fault | bytes
  · exact Or.inl ⟨fault, rfl, rfl⟩
  · by_cases hclosed : m.isClosed = true
    · exact Or.inr (Or.inl ⟨hclosed, ⟨bytes, rfl⟩, by simp only [if_pos hclosed]⟩)
    · simp only [if_neg hclosed]
      have hnotes : ∀ after : Mux, after.notes = m.notes → after.lapses = m.lapses :=
        fun after h => congrArg (List.countP Note.isLapse) h
      have hsame : (m.transmit bytes).1.notes = m.notes := by
        unfold transmit
        split
        · rfl
        · split <;> rfl
      rcases htransmit : m.transmit bytes with ⟨after, fault | _⟩
      · rw [htransmit] at hsame
        refine Or.inr (Or.inr (Or.inr ⟨⟨by simpa using hclosed, bytes, fault, rfl, ?_⟩, ?_,
          tornDown_tearDown .., fault, rfl⟩))
        · rw [htransmit]
        · rw [lapses_tearDown, ← hnotes after hsame]
          simp [lapses, note, Note.isLapse]
      · rw [htransmit] at hsame
        refine Or.inr (Or.inr (Or.inl ⟨?_, ?_, bytes.length, rfl⟩))
        · rintro ⟨-, other, fault, heq, hfault⟩
          rw [← Except.ok.inj heq, htransmit] at hfault
          cases hfault
        · exact (lapses_note _ _ rfl).trans (hnotes after hsame)

/-- The journal tells of exactly the writes that the link refuses. -/
theorem lapses_send_iff : m.lapses < (m.send frame).1.lapses ↔ m.Refuses frame := by
  rcases m.send_cases frame with ⟨fault, hencode, heq⟩ | ⟨hclosed, -, heq⟩ |
    ⟨hnot, hsame, -⟩ | ⟨hrefuses, hmore, -⟩
  · rw [heq]
    refine iff_of_false (Nat.lt_irrefl _) ?_
    rintro ⟨-, bytes, -, hok, -⟩
    rw [hencode] at hok
    cases hok
  · rw [heq]
    refine iff_of_false (Nat.lt_irrefl _) ?_
    rintro ⟨hup, -⟩
    rw [hclosed] at hup
    cases hup
  · exact iff_of_false (by omega) hnot
  · exact iff_of_true (by omega) hrefuses

/-! ### What a fault says -/

/-- Nothing happened to anything but the streams with one number, if any. -/
structure Spares (m : Mux) (named : Option UInt64) (m' : Mux) : Prop where
  written : m'.written = m.written
  link : m'.link = m.link
  counters : m'.counters = m.counters
  isClosed : m'.isClosed = m.isClosed
  streams : ∀ serial, named ≠ some (m.registry.stream serial).id →
    m'.registry.stream serial = m.registry.stream serial
  size : m'.registry.streams.length = m.registry.streams.length
  entries : ∀ id, named ≠ some id →
    m'.registry.entries.filter (·.1 == id) = m.registry.entries.filter (·.1 == id)
  pending : ∀ id, named ≠ some id →
    m'.registry.pending.filter (· == id) = m.registry.pending.filter (· == id)

theorem Spares.refl (m : Mux) (named : Option UInt64) : m.Spares named m :=
  ⟨rfl, rfl, rfl, rfl, fun _ _ => rfl, rfl, fun _ _ => rfl, fun _ _ => rfl⟩

/-- Taking one number out of a list leaves what has another number. -/
theorem filter_other {α : Type} (key : α → UInt64) {id other : UInt64} (h : other ≠ id)
    (entries : List α) :
    (entries.filter (key · != id)).filter (key · == other) = entries.filter (key · == other) := by
  rw [List.filter_filter]
  refine List.filter_congr fun entry _ => ?_
  by_cases hkey : key entry = other
  · have hne : key entry ≠ id := fun heq => h (hkey.symm.trans heq)
    simp [hkey, h]
  · simp [hkey]

theorem Spares.sweep (m : Mux) (id : UInt64) : m.Spares (some id) (m.sweep id) := by
  rcases m.registry.sweep_eq id with ⟨hgone, -⟩ | ⟨hstay, -⟩
  · have hregistry : (m.sweep id).registry = m.registry.remove id := hgone
    refine ⟨rfl, rfl, rfl, rfl, fun serial _ => m.registry.stream_sweep id serial,
      m.registry.length_sweep id, fun other hother => ?_, fun other hother => ?_⟩
    · rw [hregistry]
      exact filter_other Prod.fst (fun heq => hother (congrArg some heq.symm)) _
    · rw [hregistry]
      exact filter_other (fun number => number) (fun heq => hother (congrArg some heq.symm)) _
  · have hsame : m.sweep id = m := by
      unfold Mux.sweep
      rw [hstay]
    rw [hsame]
    exact .refl m _

/-- What an operation says about the session when it is answered by a fault. -/
structure Truthful (m : Mux) (answer : Answer) (m' : Mux) : Prop where
  /-- A fault of the link is only answered when the connection is gone. -/
  gone : ∀ fault, answer.fault? = some (.link fault) → m'.isClosed = true
  /-- When the link refuses a write, it is answered, and the session was torn down by then. -/
  failed : m.lapses < m'.lapses →
    (∃ fault, answer.fault? = some (.link fault)) ∧ m.tornDown = false ∧ m'.tornDown = true
  /-- Any fault of a stream or a frame leaves everything else alone. -/
  spares : ∀ fault, answer.fault? = some fault → fault.isLocal = true → m.Spares fault.stream? m'

namespace Truthful

/-- An operation that does nothing, and whose answer is no fault of the link unless the connection
is gone. -/
theorem of_eq {answer : Answer}
    (h : ∀ fault, answer.fault? = some (.link fault) → m.isClosed = true) :
    m.Truthful answer m where
  gone := h
  failed hlapse := absurd hlapse (Nat.lt_irrefl _)
  spares _ _ _ := .refl m _

theorem of_link {answer : Answer} {reason : LinkFault} (h : answer.fault? = some (.link reason))
    (gone : m'.isClosed = true)
    (failed : m.lapses < m'.lapses → m.tornDown = false ∧ m'.tornDown = true) :
    m.Truthful answer m' where
  gone _ _ := gone
  failed hlapse := ⟨⟨reason, h⟩, failed hlapse⟩
  spares fault hfault hlocal := by
    rw [h] at hfault
    cases hfault
    cases hlocal

/-- An operation that is not answered by a fault, and writes nothing that is refused. -/
theorem of_done {answer : Answer} (h : answer.fault? = none) (hlapses : m'.lapses ≤ m.lapses) :
    m.Truthful answer m' where
  gone fault hfault := by
    rw [h] at hfault
    cases hfault
  failed hlapse := by omega
  spares fault hfault := by
    rw [h] at hfault
    cases hfault

end Truthful

/-! ### Each operation -/

theorem truthful_send (m : Mux) (frame : Frame) :
    m.Truthful (.size (m.send frame).2) (m.send frame).1 := by
  rcases m.send_cases frame with ⟨fault, -, heq⟩ | ⟨hclosed, -, heq⟩ |
    ⟨-, hsame, size, hok⟩ | ⟨⟨hup, -⟩, -, htorn, fault, hfault⟩
  · rw [heq]
    refine .of_eq fun other hother => ?_
    cases hother
  · rw [heq]
    exact .of_eq fun _ _ => hclosed
  · rw [hok]
    exact .of_done rfl hsame.le
  · rw [hfault]
    exact .of_link rfl (isClosed_of_torn htorn) fun _ => ⟨up_of_isClosed_eq_false hup, htorn⟩

/-- A frame is sent after a change that wrote nothing.  If it can be written, it is refused for the
sake of the connection only. -/
theorem send_after {begun : Mux} (hlapses : begun.lapses = m.lapses)
    (hup : begun.tornDown = m.tornDown) {bytes : Bytes} (hencode : frame.encode = .ok bytes) :
    (∃ reason, (begun.send frame).2 = .error (.link reason) ∧
      (begun.send frame).1.isClosed = true ∧
      (m.lapses < (begun.send frame).1.lapses →
        m.tornDown = false ∧ (begun.send frame).1.tornDown = true)) ∨
    (∃ size, (begun.send frame).2 = .ok size) ∧ (begun.send frame).1.lapses = m.lapses := by
  rcases begun.send_cases frame with ⟨fault, hbad, -⟩ | ⟨hclosed, -, heq⟩ | ⟨-, hsame, hok⟩ |
    ⟨⟨hopen, -⟩, -, htorn, reason, hreason⟩
  · rw [hencode] at hbad
    cases hbad
  · rw [heq]
    exact Or.inl ⟨.closed, rfl, hclosed, fun hlapse => absurd hlapse (Nat.not_lt.mpr hlapses.le)⟩
  · exact Or.inr ⟨hok, hsame.trans hlapses⟩
  · have hbefore : m.tornDown = false := hup.symm.trans (up_of_isClosed_eq_false hopen)
    exact Or.inl ⟨reason, hreason, isClosed_of_torn htorn, fun _ => ⟨hbefore, htorn⟩⟩

theorem isClosed_of_severed (unsevered : m.ledger.Unsevered) (hthere : serial < m.ledger.size)
    (h : (m.registry.stream serial).severed = true) : m.isClosed = true := by
  have htorn : m.tornDown = true := by
    by_contra hup
    have hnot : (m.registry.stream serial).severed = false :=
      unsevered (Bool.eq_false_iff.mpr hup) serial hthere
    rw [h] at hnot
    cases hnot
  exact isClosed_of_torn htorn

theorem truthful_write (m : Mux) (unsevered : m.ledger.Unsevered)
    (hthere : serial < m.ledger.size) (data : Bytes) :
    m.Truthful (.size (m.write serial data).2) (m.write serial data).1 := by
  unfold write
  simp only
  by_cases hgone : (m.isClosed || (m.registry.stream serial).severed) = true
  · rw [if_pos hgone]
    refine .of_eq fun _ _ => ?_
    rcases Bool.or_eq_true_iff.mp hgone with hclosed | hsevered
    · exact hclosed
    · exact isClosed_of_severed unsevered hthere hsevered
  · rw [if_neg hgone]
    cases (m.registry.stream serial).state with
    | live => exact m.truthful_send _
    | closed => exact .of_eq fun fault hfault => by cases hfault
    | reset => exact .of_eq fun fault hfault => by cases hfault

theorem truthful_terminate (m : Mux) (sound : m.ledger.Sound) (unsevered : m.ledger.Unsevered)
    (hthere : serial < m.ledger.size) (ending : Ending) :
    m.Truthful (.done (m.terminate serial ending).2) (m.terminate serial ending).1 := by
  by_cases hover : (m.registry.stream serial).isOver = true
  · have hsame : m.terminate serial ending =
        (m, if (m.registry.stream serial).severed then .error .closed else .ok ()) := by
      unfold terminate
      simp only
      split
      · rfl
      · rw [Stream.terminate_of_isOver hover]
    rw [hsame]
    refine .of_eq fun fault hfault => ?_
    by_cases hsevered : (m.registry.stream serial).severed = true
    · exact isClosed_of_severed unsevered hthere hsevered
    · rw [if_neg hsevered] at hfault
      cases hfault
  · have hlive : (m.registry.stream serial).isOver = false := by simpa using hover
    have hencode := Frame.encode_ofKind (sound.id_le hthere)
      ((m.registry.stream serial).role.endingKind ending) []
    have hended : (m.ended serial ending).lapses = m.lapses := by
      have hcounted : ∀ after : Mux, (after.countEnding ending).lapses = after.lapses := by
        intro after
        cases ending <;> rfl
      exact (lapses_note _ _ rfl).trans (hcounted _)
    have hup : (m.ended serial ending).tornDown = m.tornDown := by cases ending <;> rfl
    have hsent := @send_after m ((m.registry.stream serial).farewell ending) _ hended hup _ hencode
    rw [terminate_of_live hlive]
    simp only
    generalize (m.ended serial ending).send ((m.registry.stream serial).farewell ending) = sent
      at hsent ⊢
    obtain ⟨after, answer⟩ := sent
    rcases hsent with ⟨reason, rfl, hclosed, hfailed⟩ | ⟨⟨size, rfl⟩, hsame⟩
    · exact .of_link rfl hclosed hfailed
    · exact .of_done rfl hsame.le

theorem truthful_read (m : Mux) (unsevered : m.ledger.Unsevered)
    (hthere : serial < m.ledger.size) :
    m.Truthful (.reading (m.read serial).2) (m.read serial).1 := by
  rcases m.read_cases serial with ⟨chunk, queue, -, heq⟩ | ⟨-, -, heq⟩ | ⟨-, -, heq⟩
  · rw [heq]
    exact .of_done rfl (Nat.le_refl _)
  · rw [heq]
    exact .of_done rfl (Nat.le_refl _)
  · rw [heq]
    by_cases hsevered : (m.registry.stream serial).severed = true
    · rw [if_pos hsevered]
      have hgone : m.isClosed = true := isClosed_of_severed unsevered hthere hsevered
      exact .of_link rfl hgone fun hlapse => absurd hlapse (Nat.lt_irrefl _)
    · rw [if_neg hsevered]
      by_cases hreset : (m.registry.stream serial).state = .reset
      · rw [if_pos hreset]
        refine ⟨fun fault hfault => ?_, fun hlapse => absurd hlapse (Nat.lt_irrefl _),
          fun fault hfault _ => ?_⟩
        · cases hfault
        · cases hfault
          exact .sweep m _
      · rw [if_neg hreset]
        exact .of_done rfl (Nat.le_refl _)

theorem truthful_readById (m : Mux) (sound : m.ledger.Sound) (unsevered : m.ledger.Unsevered)
    (id : UInt64) : m.Truthful (.reading (m.readById id).2) (m.readById id).1 := by
  unfold readById Registry.lookup
  rcases hfind : m.registry.find? id with _ | serial
  · exact .of_eq fun fault hfault => by cases hfault
  · exact m.truthful_read unsevered (sound.current hfind).1

theorem truthful_openStream (m : Mux) (label : Option String) :
    m.Truthful (.opened (m.openStream label).2) (m.openStream label).1 := by
  unfold openStream
  by_cases hclosed : m.isClosed = true
  · rw [if_pos hclosed]
    exact .of_eq fun _ _ => hclosed
  · rw [if_neg hclosed]
    rcases hdraw : m.ids.draw with fault | ⟨id, ids⟩
    · refine .of_eq fun other hother => ?_
      unfold Ids.draw at hdraw
      split at hdraw
      · cases hdraw
        cases hother
      · cases hdraw
    · simp only
      obtain ⟨begun, hbegun⟩ : ∃ begun : Mux, begun = { m with
          ids, registry := (m.registry.beginLocal id m.settings.queueLimit).1 } := ⟨_, rfl⟩
      have hlapses : begun.lapses = m.lapses := by rw [hbegun]; rfl
      have hup : begun.tornDown = m.tornDown := by rw [hbegun]
      have hencode := Frame.encode_ofKind (Ledger.draw_eq hdraw).2.1 .newStream []
      have hsent := send_after hlapses hup hencode
      rw [← hbegun]
      generalize begun.send (.ofKind id .newStream []) = sent at hsent ⊢
      obtain ⟨after, answer⟩ := sent
      rcases hsent with ⟨reason, rfl, hclosed, hfailed⟩ | ⟨⟨size, rfl⟩, hsame⟩
      · exact .of_link rfl hclosed hfailed
      · exact .of_done rfl ((lapses_note _ _ rfl).trans hsame).le

/-! ### Whatever a user asks for -/

/-- What users ask for. -/
inductive Request where
  | openStream (label : Option String)
  | send (frame : Frame)
  | readById (id : UInt64)
  | read (place : Nat)
  | write (place : Nat) (payload : Payload)
  | finish (place : Nat) (ending : Ending)

def Request.op : Request → Op
  | openStream label => .openStream label
  | send frame => .send frame
  | readById id => .readById id
  | read place => .read place
  | write place payload => .write place payload
  | finish place ending => .finish place ending

theorem truthful_withHandle (sound : m.ledger.Sound) {place : Nat} {f : Nat → Mux × Answer}
    (h : ∀ serial < m.ledger.size, m.Truthful (f serial).2 (f serial).1) :
    m.Truthful (m.withHandle place f).2 (m.withHandle place f).1 := by
  rcases m.withHandle_cases place f with ⟨handle, hplace, -, heq⟩ | heq
  · rw [heq]
    exact h handle.serial (sound.held_lt (List.mem_of_getElem? hplace))
  · rw [heq]
    exact .of_done rfl (Nat.le_refl _)

theorem truthful_perform (m : Mux) (sound : m.ledger.Sound) (unsevered : m.ledger.Unsevered)
    (request : Request) :
    m.Truthful (m.perform request.op).2 (m.perform request.op).1 := by
  cases request with
  | openStream label => exact m.truthful_openStream label
  | send frame => exact m.truthful_send frame
  | readById id => exact m.truthful_readById sound unsevered id
  | read place => exact truthful_withHandle sound fun _ hlt => m.truthful_read unsevered hlt
  | write place payload =>
    exact truthful_withHandle sound fun _ hlt => m.truthful_write unsevered hlt payload.data
  | finish place ending =>
    exact truthful_withHandle sound fun _ hlt => m.truthful_terminate sound unsevered hlt ending

section Run

variable {side : Side} {settings : Settings}

theorem isClosed_run {ops : List Op} (h : (run side settings ops).isClosed = true)
    (later : List Op) : (run side settings (ops ++ later)).isClosed = true := by
  rw [run_append]
  exact isClosed_runFrom (sound_run side settings ops) h later

/-- **A fault tells the truth.**  Whatever a user asks for after any run: if the answer is a fault
of the link, the connection is gone from then on.  If the link refused a write, that is the answer,
no stream is current or pending, and all that were current, or were taken up then, are severed.  If
the answer is a fault of a stream or of a frame, nothing was written or counted, the connection is
there as before, and so is everything about streams with another number. -/
theorem truthful_run (side : Side) (settings : Settings) (ops : List Op) (request : Request) :
    let m := run side settings ops
    let m' := (m.perform request.op).1
    let answer := (m.perform request.op).2
    (∀ fault, answer.fault? = some (.link fault) →
      ∀ later, (run side settings (ops ++ request.op :: later)).isClosed = true) ∧
    (m.lapses < m'.lapses → (∃ fault, answer.fault? = some (.link fault)) ∧
      m'.registry.entries = [] ∧ m'.registry.pending = [] ∧
      ∀ serial, serial ∈ m.registry.current ∨ m.ledger.size ≤ serial ∧ serial < m'.ledger.size →
        (m'.registry.stream serial).severed = true) ∧
    (∀ fault, answer.fault? = some fault → fault.isLocal = true →
      m.Spares fault.stream? m') := by
  have hsound := sound_run side settings ops
  have htruthful := truthful_perform _ hsound (unsevered_run side settings ops) request
  refine ⟨fun fault hfault later => ?_, fun hlapse => ?_, htruthful.spares⟩
  · have hgone := htruthful.gone fault hfault
    rw [← run_concat] at hgone
    have hlater := isClosed_run hgone later
    rwa [List.append_assoc] at hlater
  · obtain ⟨hanswer, hup, htorn⟩ := htruthful.failed hlapse
    rw [← run_concat] at htorn
    -- the stream that the operation began is there when it tears the session down
    obtain ⟨moment, hgathers, -, hsevers⟩ := exists_moment hup htorn
    rw [run_concat] at hsevers
    refine ⟨hanswer, hsevers.entries, hsevers.pending, fun serial hserial => ?_⟩
    have hcurrent : serial ∈ moment.registry.current := by
      rw [hgathers.current]
      rcases hserial with hcurrent | ⟨hle, hlt⟩
      · exact Or.inl hcurrent
      · exact Or.inr ⟨hle, hsevers.size ▸ hlt⟩
    exact congrArg Stream.severed (hsevers.current hcurrent)

/-- The link refuses data of a stream, which is severed; and a stream that was closed refuses data.
-/
theorem truthful_when_refused :
    ((run .dialer .usual [.openStream none, .adjust { failWrite := some .reset },
        .write 0 ⟨[0xaa], by decide⟩, .adjust {}, .turn]).isClosed = true ∧
      ((run .dialer .usual [.openStream none, .adjust { failWrite := some .reset },
        .write 0 ⟨[0xaa], by decide⟩]).registry.stream 0).severed = true) ∧
    (run .dialer .usual [.openStream none, .finish 0 .closed]).Spares (some 0)
      (run .dialer .usual [.openStream none, .finish 0 .closed, .write 0 ⟨[0xaa], by decide⟩]) := by
  obtain ⟨hgone, hfailed, -⟩ := truthful_run .dialer .usual
    [.openStream none, .adjust { failWrite := some .reset }] (.write 0 ⟨[0xaa], by decide⟩)
  obtain ⟨-, -, hspares⟩ := truthful_run .dialer .usual [.openStream none, .finish 0 .closed]
    (.write 0 ⟨[0xaa], by decide⟩)
  obtain ⟨-, -, -, hsevered⟩ := hfailed (by decide +kernel)
  exact ⟨⟨hgone .reset (by decide +kernel) [.adjust {}, .turn],
    hsevered 0 (Or.inl (by decide +kernel))⟩, hspares (.streamClosed 0) (by decide +kernel) rfl⟩

end Run

end Mux

end StreamMux
