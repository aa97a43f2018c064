import StreamMux.Proofs.Session.Arrivals
import StreamMux.Proofs.Session.Severing

/-!
# After teardown

A session that was torn down lets its users read what waits and drop their handles, and does nothing
else, whatever is asked of it and whatever still comes in.

* `Mux.Rests` — what stays as it is when a session is torn down, and `Mux.rests_perform`: no
  operation changes it;
* `Mux.TornDown`, `Mux.tornDown_run` — how teardown leaves the streams, and that this is for good.
-/

namespace StreamMux

/-- The counters without those that frames of the peer move. -/
def Counters.ownPart (c : Counters) : Counters :=
  { c with framesIn := 0, bytesIn := 0, overhead := 0, ignored := 0 }

namespace Mux

variable {m m' m'' : Mux}

/-! ### What rests -/

/-- What stays as it is when a session is torn down. -/
structure Rests (m m' : Mux) : Prop where
  torn : m'.tornDown = true
  /-- No stream begins. -/
  size : m'.registry.streams.length = m.registry.streams.length
  /-- Streams are read, and nothing else happens to them. -/
  stream : ∀ serial, m'.registry.stream serial =
    { m.registry.stream serial with queue := (m'.registry.stream serial).queue }
  /-- No handle is given out. -/
  serials : m'.handles.map Handle.serial = m.handles.map Handle.serial
  /-- The handler is not called. -/
  arrivals : m'.arrivals = m.arrivals
  /-- Nothing is written to the link. -/
  written : m'.written = m.written
  counters : m'.counters.ownPart = m.counters.ownPart
  teardowns : m'.teardowns = m.teardowns

namespace Rests

theorem trans (h : m.Rests m') (h' : m'.Rests m'') : m.Rests m'' where
  torn := h'.torn
  size := h'.size.trans h.size
  stream serial := by rw [h'.stream serial, h.stream serial]
  serials := h'.serials.trans h.serials
  arrivals := h'.arrivals.trans h.arrivals
  written := h'.written.trans h.written
  counters := h'.counters.trans h.counters
  teardowns := h'.teardowns.trans h.teardowns

theorem of_registry (torn : m.tornDown = true) (tornDown : m'.tornDown = m.tornDown)
    (registry : m'.registry = m.registry)
    (serials : m'.handles.map Handle.serial = m.handles.map Handle.serial)
    (arrivals : m'.arrivals = m.arrivals) (written : m'.written = m.written)
    (counters : m'.counters.ownPart = m.counters.ownPart)
    (teardowns : m'.teardowns = m.teardowns) : m.Rests m' where
  torn := tornDown.trans torn
  size := by rw [registry]
  stream serial := by rw [registry]
  serials := serials
  arrivals := arrivals
  written := written
  counters := counters
  teardowns := teardowns

theorem refl (torn : m.tornDown = true) : m.Rests m :=
  .of_registry torn rfl rfl rfl rfl rfl rfl rfl

theorem trans_note (h : m.Rests m') (entry : Note) (hentry : entry.isTeardown = false) :
    m.Rests (m'.note entry) :=
  h.trans (.of_registry h.torn rfl rfl rfl rfl rfl rfl (by simp [note, Mux.teardowns, hentry]))

theorem trans_ignored (h : m.Rests m') : m.Rests (m'.count (·.bump .ignored)) :=
  h.trans (.of_registry h.torn rfl rfl rfl rfl rfl rfl rfl)

theorem trans_frameIn (h : m.Rests m') (payload size : Nat) :
    m.Rests (m'.count (·.frameIn payload size)) :=
  h.trans (.of_registry h.torn rfl rfl rfl rfl rfl rfl rfl)

end Rests

/-! ### Each operation -/

section Torn

variable (sound : m.ledger.Sound) (torn : m.tornDown = true)

include torn

theorem isClosed_of_torn : m.isClosed = true := by rw [isClosed, torn, Bool.true_or]

theorem openStream_of_torn (label : Option String) :
    m.openStream label = (m, .error .closed) := if_pos (isClosed_of_torn torn)

theorem write_of_torn (serial : Nat) (data : Bytes) :
    m.write serial data = (m, .error .closed) := by
  unfold write
  simp only
  rw [if_pos (by rw [isClosed_of_torn torn, Bool.true_or])]

theorem send_of_torn (frame : Frame) : (m.send frame).1 = m := by
  unfold send
  split
  · rfl
  · rw [if_pos (isClosed_of_torn torn)]

theorem rests_shut : m.Rests m.shut.1 := by
  have hledger := m.shut_keeps.2.1
  have hgreets := m.greets_shut
  refine .of_registry torn (congrArg Ledger.tornDown hledger) (congrArg Ledger.registry hledger)
    hgreets.serials_eq hgreets.silent.arrivals m.shut_keeps.2.2.2.2.1 ?_ m.teardowns_shut
  unfold shut
  simp only
  split <;> split <;> rfl

theorem turnAway_of_torn (id : UInt64) (kind : Kind) :
    m.Rests (m.turnAway id kind .closed) :=
  ((Rests.refl torn).trans_note _ rfl).trans_ignored

theorem rests_stop {fault : Option Fault} : m.Rests (m.stop fault) := by
  have hend : ∀ {before : Mux}, m.Rests before →
      m.Rests ({ before with loop := .ended }.note .loopStopped) := by
    intro before hbefore
    have hloop : before.Rests { before with loop := .ended } :=
      .of_registry hbefore.torn rfl rfl rfl rfl rfl rfl rfl
    exact hbefore.trans (hloop.trans_note .loopStopped rfl)
  unfold stop
  rcases fault with _ | fault
  · exact hend (.refl torn)
  · apply hend
    simp only
    rw [if_pos (isClosed_of_torn torn)]
    exact (Rests.refl torn).trans_note _ rfl

theorem Quiet.rests (h : m.Quiet m') : m.Rests m' := by
  cases h with
  | idle short => exact .of_registry torn rfl rfl rfl rfl rfl rfl rfl
  | fed waiting read => exact .of_registry torn rfl rfl rfl rfl rfl rfl rfl
  | stopped conditions fault gone =>
    have hadjusted : m.Rests { m with conditions } :=
      .of_registry torn rfl rfl rfl rfl rfl rfl rfl
    exact hadjusted.trans (rests_stop hadjusted.torn)

theorem rests_withHandle {place : Nat} {f : Nat → Mux × Answer}
    (h : ∀ serial, m.Rests (f serial).1) : m.Rests (m.withHandle place f).1 :=
  withHandle_ind (P := m.Rests) (.refl torn) fun handle _ _ => h handle.serial

theorem bind_of_torn (id : UInt64) (announced : Bool) :
    m.bind id announced = (m, .error .closed) := if_pos torn

theorem takesIn_of_torn (op : Op) (serial : Nat) : m.takesIn op serial = [] := by
  unfold takesIn
  split
  · rename_i frame _
    unfold intake
    split
    · rfl
    · rw [bind_of_torn torn, ite_self]
  · rfl

include sound

theorem terminate_of_torn (serial : Nat) (ending : Ending) :
    (m.terminate serial ending).1 = m := by
  have hover : (m.registry.stream serial).isOver = true := sound.isOver_of_torn torn serial
  unfold terminate
  simp only
  split
  · rfl
  · rw [Stream.terminate_of_isOver hover]

theorem find?_of_torn (id : UInt64) : m.registry.find? id = none := sound.find?_of_torn torn id

theorem rests_read (serial : Nat) : m.Rests (m.read serial).1 := by
  rcases m.read_cases serial with ⟨chunk, queue, -, heq⟩ | ⟨-, -, heq⟩ | ⟨-, -, heq⟩
  · rw [heq]
    refine ⟨torn, Registry.length_update .., fun other => ?_, rfl, rfl, rfl, rfl, rfl⟩
    rcases m.ledger.stream_put serial { m.registry.stream serial with queue } other with
      ⟨rfl, hput⟩ | hput
    · rw [show (m.update other _).registry.stream other = _ from hput]
    · rw [show (m.update serial _).registry.stream other = m.registry.stream other from hput]
  · rw [heq]
    exact .refl torn
  · have hsweep : (m.registry.sweep (m.registry.stream serial).id).1 = m.registry := by
      simp [Registry.sweep, find?_of_torn sound torn]
    rw [heq]
    exact .of_registry torn rfl hsweep rfl rfl rfl rfl rfl

theorem rests_drop (place : Nat) : m.Rests (m.drop place) := by
  unfold drop
  split
  · exact .refl torn
  · rename_i handle hplace
    split
    · rw [forget, if_neg (by
        rw [show Registry.find? _ _ = none from find?_of_torn sound torn _]
        simp)]
      exact .of_registry torn rfl rfl (Ledger.map_serial_set hplace) rfl rfl rfl rfl
    · exact .refl torn

theorem rests_receiveKind (kind : Kind) (id : UInt64) (payload : Bytes) :
    m.Rests (m.receiveKind kind id payload) := by
  have hbind := bind_of_torn torn id
  have hend : ∀ ending, m.Rests (m.endByPeer id ending) := fun ending => by
    rw [endByPeer, find?_of_torn sound torn id]
    exact ((Rests.refl torn).trans_note _ rfl).trans_ignored
  cases kind with
  | newStream =>
    simp only [receiveKind, hbind]
    exact turnAway_of_torn torn ..
  | messageAcceptor =>
    rw [receiveKind_refused rfl (hbind false)]
    exact turnAway_of_torn torn ..
  | messageOpener =>
    rw [receiveKind_refused rfl (hbind false)]
    exact turnAway_of_torn torn ..
  | closeAcceptor => exact hend .closed
  | closeOpener => exact hend .closed
  | resetAcceptor => exact hend .reset
  | resetOpener => exact hend .reset

theorem rests_receive (frame : Frame) : m.Rests (m.receive frame) := by
  unfold receive
  rcases frame.kind? with _ | kind
  · exact ((Rests.refl torn).trans_note _ rfl).trans_ignored.trans_frameIn ..
  · have hnoted : m.Rests (m.note (.received kind frame.id frame.payload.length)) :=
      (Rests.refl torn).trans_note _ rfl
    have hledger := ledger_note m (.received kind frame.id frame.payload.length) rfl
    have hkind := rests_receiveKind (hledger ▸ sound) hnoted.torn kind frame.id frame.payload
    exact (hnoted.trans hkind).trans_frameIn ..

/-- **Nothing happens after teardown.**  No operation and no frame changes what rests. -/
theorem rests_perform (op : Op) : m.Rests (m.perform op).1 := by
  have hsame : ∀ {after : Mux}, after = m → m.Rests after := by
    rintro after rfl
    exact .refl torn
  cases op with
  | openStream label => exact hsame (congrArg Prod.fst (openStream_of_torn torn label))
  | write place payload =>
    exact rests_withHandle torn fun serial =>
      hsame (congrArg Prod.fst (write_of_torn torn serial payload.data))
  | finish place ending =>
    exact rests_withHandle torn fun serial => hsame (terminate_of_torn sound torn serial ending)
  | read place => exact rests_withHandle torn fun serial => rests_read sound torn serial
  | drop place => exact rests_withHandle torn fun _ => rests_drop sound torn place
  | send frame => exact hsame (send_of_torn torn frame)
  | readById id =>
    simp only [perform, readById]
    split
    · exact .refl torn
    · exact rests_read sound torn _
  | close => exact hsame (tearDown_of_torn torn .closedHere)
  | turn =>
    simp only [perform]
    rcases hturn : m.turn with _ | after
    · exact .refl torn
    · rcases @turn_cases m after 0 hturn with ⟨frame, rest, -, -, rfl⟩ | ⟨hnone, -⟩
      · have htaken : m.Rests { m with assembler := ⟨rest⟩, loop := .ready } :=
          .of_registry torn rfl rfl rfl rfl rfl rfl rfl
        exact htaken.trans
          (rests_receive (m := { m with assembler := ⟨rest⟩, loop := .ready }) sound torn frame)
      · exact (quiet_turn hturn hnone).rests torn
  | arrive chunk =>
    simp only [perform]
    split
    · exact .of_registry torn rfl rfl rfl rfl rfl rfl rfl
    · exact .refl torn
  | readFar size => exact .of_registry torn rfl rfl rfl rfl rfl rfl rfl
  | closeFar => exact .of_registry torn rfl rfl rfl rfl rfl rfl rfl
  | closeLink => exact rests_shut torn
  | resetLink => exact .of_registry torn rfl rfl rfl rfl rfl rfl rfl
  | adjust conditions => exact .of_registry torn rfl rfl rfl rfl rfl rfl rfl

end Torn

/-! ### Runs that end torn down -/

variable {side : Side} {settings : Settings} {ops : List Op}

theorem rests_runFrom (sound : m.ledger.Sound) (torn : m.tornDown = true) (ops : List Op) :
    m.Rests (m.runFrom ops) := by
  induction ops generalizing m with
  | nil => exact .refl torn
  | cons op ops ih =>
    have hrests := rests_perform sound torn op
    exact hrests.trans (ih ((step sound op).sound sound) hrests.torn)

theorem takenIn_of_torn (sound : m.ledger.Sound) (torn : m.tornDown = true) (ops : List Op)
    (serial : Nat) : m.takenIn ops serial = [] := by
  induction ops generalizing m with
  | nil => rfl
  | cons op ops ih =>
    have hrest := ih ((step sound op).sound sound) (rests_perform sound torn op).torn
    simp only [takenIn, trail, List.flatMap_cons] at hrest ⊢
    rw [takesIn_of_torn torn, hrest, List.append_nil]

/-- What has become of a stream that was current at teardown; `read` is what was read since. -/
structure CutOff (before : Stream) (read : List Bytes) (now : Stream) : Prop where
  severed : now.severed = true
  isOver : now.isOver = true
  /-- What waited was read since, from the front, or waits still. -/
  queue : before.queue = read ++ now.queue
  closed : before.state = .closed → now.state = .closed

theorem CutOff.of_sever {before severed now : Stream} {read : List Bytes}
    (hsever : severed = before.sever) (hnow : now = { severed with queue := now.queue })
    (hqueue : severed.queue = read ++ now.queue) : CutOff before read now := by
  subst hsever
  have hover : now.isOver = true := by rw [hnow]; exact Stream.isOver_sever before
  refine ⟨by rw [hnow]; rfl, hover, hqueue, fun hclosed => ?_⟩
  have hstate := before.state_sever
  rw [Stream.isOver, hclosed] at hstate
  rw [hnow]
  exact hstate

/-- How a session came to be torn down, and what has happened since. -/
structure TornDownBy (side : Side) (settings : Settings) (before : List Op) (op : Op)
    (after : List Op) (moment : Ledger) : Prop where
  up : (run side settings before).tornDown = false
  /-- What the operation had done when teardown began. -/
  gathers : (run side settings before).ledger.Gathers moment
  severs : moment.Severs (run side settings (before ++ [op])).ledger
  rests : (run side settings (before ++ [op])).Rests (run side settings (before ++ op :: after))
  streams : ∀ serial ∈ moment.registry.current, CutOff (moment.stream serial)
    ((run side settings (before ++ [op])).takenOut after serial)
    ((run side settings (before ++ op :: after)).registry.stream serial)

/-- What holds of a session that is torn down. -/
structure TornDown (side : Side) (settings : Settings) (ops : List Op) : Prop where
  entries : (run side settings ops).registry.entries = []
  pending : (run side settings ops).registry.pending = []
  once : IsTeardown (run side settings ops).teardowns
  /-- What waits is read through the handle, the oldest chunk first. -/
  reads : ∀ {place handle chunk rest}, (run side settings ops).handles[place]? = some handle →
    handle.live = true →
    ((run side settings ops).registry.stream handle.serial).queue = chunk :: rest →
      ((run side settings ops).perform (.read place)).2 = .reading (.chunk chunk) ∧
      ((run side settings (ops ++ [.read place])).registry.stream handle.serial).queue = rest
  history : ∃ before op after moment, ops = before ++ op :: after ∧
    TornDownBy side settings before op after moment

theorem tornDownBy {before : List Op} {op : Op} (after : List Op)
    (hup : (run side settings before).tornDown = false)
    (htorn : (run side settings (before ++ [op])).tornDown = true) :
    ∃ moment, TornDownBy side settings before op after moment := by
  obtain ⟨moment, hgathers, -, hsevers⟩ := exists_moment hup htorn
  have hsound := sound_run side settings (before ++ [op])
  have hsplit : run side settings (before ++ op :: after) =
      (run side settings (before ++ [op])).runFrom after := by
    rw [← run_append, List.append_assoc, List.singleton_append]
  have hrests := rests_runFrom hsound htorn after
  refine ⟨moment, hup, hgathers, hsevers, hsplit ▸ hrests, fun serial hmem => ?_⟩
  have hsever := hsevers.current hmem
  have hqueue := (run side settings (before ++ [op])).queue_runFrom after serial
  rw [takenIn_of_torn hsound htorn, List.append_nil, ← hsplit] at hqueue
  have hstream := hrests.stream serial
  rw [← hsplit] at hstream
  exact .of_sever hsever hstream hqueue

theorem read_front {place : Nat} {handle : Handle} {chunk : Bytes} {rest : List Bytes}
    (hplace : m.handles[place]? = some handle) (hlive : handle.live = true)
    (hqueue : (m.registry.stream handle.serial).queue = chunk :: rest) :
    (m.perform (.read place)).2 = .reading (.chunk chunk) ∧
      ((m.perform (.read place)).1.registry.stream handle.serial).queue = rest := by
  have hread : (m.read handle.serial).2 = .chunk chunk := by
    simp [read, Stream.pop, hqueue]
  have htaken := m.queue_read handle.serial handle.serial
  rw [if_pos rfl, hread, hqueue] at htaken
  rw [perform_read hplace hlive]
  exact ⟨congrArg Answer.reading hread, (List.cons.inj htaken).2.symm⟩

/-- **Teardown is complete and for good.**  When a session is torn down, no stream is current and
none is pending; every stream that was current when teardown began is severed and over, with its
chunks still to be read in order, and one that was closed stays closed.  Since then no stream began,
the handler was not called, nothing was written, and teardown did not happen again. -/
theorem tornDown_run (h : (run side settings ops).tornDown = true) :
    TornDown side settings ops := by
  have hsound := sound_run side settings ops
  obtain ⟨hentries, hpending⟩ := hsound.torn h
  have honce := tornOnce_run side settings ops
  rw [TornOnce, if_pos h] at honce
  refine ⟨hentries, hpending, honce, fun hplace hlive hqueue => ?_, ?_⟩
  · rw [run_concat]
    exact read_front hplace hlive hqueue
  · obtain ⟨before, op, after, rfl, hup, htorn⟩ := exists_teardown h
    obtain ⟨moment, hmoment⟩ := tornDownBy after hup htorn
    exact ⟨before, op, after, moment, rfl, hmoment⟩

/-- A stream of the peer has a byte to be read when it is closed here, and telling the peer fails,
as does closing the link.  The stream is severed, and stays closed; its byte is read afterwards. -/
theorem tornDown_while_closing :
    ((run .listener .usual [.arrive [0, 0, 2, 1, 0xaa], .turn, .turn, .turn, .turn,
      .adjust { failWrite := some .reset, failClose := some .reset }, .finish 0 .closed,
      .openStream none, .turn]).registry.stream 0) =
        { Stream.start 0 .acceptor 1024 with
          ending := some .closed, severed := true, queue := [[0xaa]] } ∧
    TornDown .listener .usual [.arrive [0, 0, 2, 1, 0xaa], .turn, .turn, .turn, .turn,
      .adjust { failWrite := some .reset, failClose := some .reset }, .finish 0 .closed,
      .openStream none, .turn] :=
  ⟨by decide +kernel, tornDown_run (by decide +kernel)⟩

end Mux

end StreamMux
