import StreamMux.Proofs.Session.Acts

/-!
# What goes into queues and what comes out

A chunk comes into a queue when a frame of the peer is bound to the stream and the queue takes the
payload; it goes out when somebody reads it, through a handle or by the stream's number.  Nothing
else touches a queue, neither the end of the stream nor teardown.

* `Mux.trail` — operations, each with the session that it met;
* `Mux.takenIn`, `Mux.takenOut` — what went into and out of the queue of a stream meanwhile;
* `Mux.queue_perform`, `Mux.queue_runFrom` — a queue and what went into it is what came out of it
  and what waits, for one operation and for any number of them.
-/

namespace StreamMux

/-! ### What a queue takes in -/

/-- What a payload adds to the queue of a stream.  An empty payload is nothing. -/
def Stream.intake (stream : Stream) (payload : Bytes) : List Bytes :=
  if payload = [] then []
  else match (stream.push payload).2 with
    | .queued => [payload]
    | .full | .over => []

namespace Stream

variable {stream : Stream} {payload : Bytes}

theorem intake_of_isOver (h : stream.isOver = true) : stream.intake payload = [] := by
  simp [intake, push, h]

theorem intake_of_full (hlive : stream.isOver = false)
    (h : stream.capacity ≤ stream.queue.length) : stream.intake payload = [] := by
  simp [intake, push, hlive, h]

theorem intake_of_room (hdata : payload ≠ []) (hlive : stream.isOver = false)
    (h : stream.queue.length < stream.capacity) : stream.intake payload = [payload] := by
  simp [intake, push, hdata, hlive, Nat.not_le.mpr h]

end Stream

/-! ### Ledgers with the same queues -/

namespace Ledger

variable {l l' l'' : Ledger} {gone : Bool} {out : List Frame}

/-- All streams have the same chunks waiting; a stream that is new has none. -/
def SameQueues (l l' : Ledger) : Prop :=
  ∀ serial, (l'.stream serial).queue = (l.stream serial).queue

namespace SameQueues

theorem refl (l : Ledger) : l.SameQueues l := fun _ => rfl

theorem of_eq (h : l' = l) : l.SameQueues l' := h ▸ refl l

theorem trans (h : l.SameQueues l') (h' : l'.SameQueues l'') : l.SameQueues l'' :=
  fun serial => (h' serial).trans (h serial)

theorem put {serial : Nat} {stream : Stream} (h : stream.queue = (l.stream serial).queue) :
    l.SameQueues (l.put serial stream) := by
  intro other
  rcases l.stream_put serial stream other with ⟨rfl, heq⟩ | heq <;> rw [heq]
  exact h

theorem finish (l : Ledger) (serial : Nat) (ending : Ending) :
    l.SameQueues (l.finish serial ending) := put rfl

theorem sweep (l : Ledger) (id : UInt64) : l.SameQueues (l.sweep id) := fun serial => by
  rw [stream_sweep]

theorem tear (l : Ledger) : l.SameQueues l.tear := queue_tear l

/-- A stream that begins has nothing waiting, like one that is not there. -/
theorem of_begins {stream : Stream} (b : l.Begins stream l') (hqueue : stream.queue = []) :
    l.SameQueues l' := by
  have hsize := b.size
  intro serial
  rcases Nat.lt_trichotomy serial l.size with hlt | rfl | hgt
  · rw [b.old hlt]
  · rw [b.new, hqueue, Ledger.stream, Registry.stream_of_le (Nat.le_refl _)]
    rfl
  · rw [Ledger.stream, Ledger.stream, Registry.stream_of_le (by change l'.size ≤ serial; omega),
      Registry.stream_of_le (Nat.le_of_lt hgt)]

theorem register (l : Ledger) (id : UInt64) (ids : Ids) : l.SameQueues (l.register id ids) :=
  of_begins (begins_register l id ids) rfl

theorem welcome (l : Ledger) (id : UInt64) : l.SameQueues (l.welcome id) :=
  of_begins (begins_welcome l id) rfl

theorem drop (l : Ledger) (place : Nat) (handle : Handle) :
    l.SameQueues (l.drop place handle) := fun serial => by
  rw [stream_drop]

end SameQueues

/-- Nothing that this side does apart from reading touches a queue. -/
theorem Act.sameQueues (h : l.Act l') : l.SameQueues l' := by
  cases h with
  | none => exact .refl l
  | @opened id ids label up draw => exact .register l id ids
  | @openTorn id ids up draw => exact .trans (.register l id ids) (.tear _)
  | tear => exact .tear l
  | finish ending live => exact .trans (.finish l _ ending) (.sweep _ _)
  | finishTorn ending live => exact .trans (.finish l _ ending) (.tear _)
  | sweep id => exact .sweep l id
  | drop given => exact .drop l _ _

theorem Cutting.sameQueues {serial : Nat} (h : l.Cutting gone serial out l') :
    l.SameQueues l' := by
  cases h with
  | idle isOver => exact .refl l
  | told live up => exact .trans (.finish l serial .reset) (.sweep _ _)
  | untold live why => exact .trans (.finish l serial .reset) (.sweep _ _)
  | torn live up => exact .trans (.finish l serial .reset) (.tear _)

/-- Queueing a payload adds what the queue takes in, and leaves all other queues alone. -/
theorem Queueing.queue {serial : Nat} {payload : Bytes}
    (h : l.Queueing gone serial payload out l') (other : Nat) :
    (l'.stream other).queue = (l.stream other).queue ++
      if other = serial then (l.stream serial).intake payload else [] := by
  have hfull : ∀ {after : Ledger}, l.SameQueues after → (l.stream serial).intake payload = [] →
      (after.stream other).queue = (l.stream other).queue ++
        if other = serial then (l.stream serial).intake payload else [] := by
    intro after hsame hintake
    rw [hsame other, hintake, ite_self, List.append_nil]
  cases h with
  | idle why =>
    refine hfull (.refl l) ?_
    rcases why with rfl | hover
    · rfl
    · exact Stream.intake_of_isOver hover
  | queued data live room =>
    rw [Stream.intake_of_room data live room]
    by_cases heq : other = serial
    · subst heq
      rw [if_pos rfl, push, stream_put_self (Registry.lt_of_not_isOver live)]
    · rw [if_neg heq, push, stream_put_of_ne heq, List.append_nil]
  | full data live full cutting =>
    exact hfull (SameQueues.trans (.refl l) cutting.sameQueues) (Stream.intake_of_full live full)

end Ledger

/-- The chunk that a reading gives, if it gives one. -/
def Reading.chunks : Reading → List Bytes
  | .chunk data => [data]
  | .blocked | .over | .fault _ => []

namespace Mux

variable {m m' : Mux}

/-- The chunk that an answer gives, if it gives one. -/
def Answer.chunks : Answer → List Bytes
  | .reading result => result.chunks
  | _ => []

/-! ### What a frame brings -/

/-- Whether the announcement of a stream fails: the stream waits to be accepted, and no handler can
be started. -/
def misannounces (m : Mux) (kind : Kind) (id : UInt64) : Bool :=
  kind == .newStream && m.registry.pending.contains id && m.conditions.failStart.isSome

/-- What a frame of the peer adds to the queue of a stream: its payload, if it is bound to the
stream, does not announce it in vain, and the queue takes it. -/
def intake (m : Mux) (frame : Frame) (serial : Nat) : List Bytes :=
  match frame.kind? with
  | none => []
  | some kind =>
    if kind.ending? ≠ none then []
    else match m.bind frame.id (kind == .newStream) with
      | (_, .error _) => []
      | (bound, .ok (target, _)) =>
        if serial = target ∧ bound.misannounces kind frame.id = false then
          (bound.registry.stream target).intake frame.payload
        else []

theorem bind_congr {n : Mux} (h : n.ledger = m.ledger) (id : UInt64) (announced : Bool) :
    (n.bind id announced).2 = (m.bind id announced).2 ∧
      (n.bind id announced).1.registry = (m.bind id announced).1.registry := by
  have htorn : n.tornDown = m.tornDown := congrArg Ledger.tornDown h
  have hregistry : n.registry = m.registry := congrArg Ledger.registry h
  have hids : n.ids = m.ids := congrArg Ledger.ids h
  have hsettings : n.settings = m.settings := congrArg Ledger.settings h
  unfold bind
  rw [htorn, hregistry, hids, hsettings]
  split
  · exact ⟨rfl, hregistry⟩
  · split
    · exact ⟨rfl, hregistry⟩
    · split
      · exact ⟨rfl, hregistry⟩
      · split
        · exact ⟨rfl, hregistry⟩
        · exact ⟨rfl, rfl⟩

theorem intake_congr {n : Mux} (h : n.ledger = m.ledger) (hconditions : n.conditions = m.conditions)
    (frame : Frame) (serial : Nat) : n.intake frame serial = m.intake frame serial := by
  unfold intake
  split
  · rfl
  · rename_i kind _
    obtain ⟨hresult, hregistry⟩ := bind_congr h frame.id (kind == .newStream)
    have hstarts : (n.bind frame.id (kind == .newStream)).1.conditions =
        (m.bind frame.id (kind == .newStream)).1.conditions := by
      rw [conditions_bind, conditions_bind, hconditions]
    rcases hn : n.bind frame.id (kind == .newStream) with ⟨bound, refusal | ⟨target, isNew⟩⟩
    all_goals
      rcases hm : m.bind frame.id (kind == .newStream) with ⟨bound', result⟩
      rw [hn, hm] at hresult hregistry hstarts
      subst hresult
    · rfl
    · simp only at hregistry hstarts
      have hfails : bound.misannounces kind frame.id = bound'.misannounces kind frame.id := by
        simp only [misannounces, hregistry, hstarts]
      simp only [hfails, hregistry]

theorem sameQueues_bind (m : Mux) (id : UInt64) (announced : Bool) :
    m.ledger.SameQueues (m.bind id announced).1.ledger := by
  have hbinds := binds m id announced
  generalize m.bind id announced = result at hbinds ⊢
  cases hbinds with
  | torn torn => exact .refl _
  | current up find => exact .refl _
  | own up new own => exact .refl _
  | crowded late up new foreign => exact .refl _
  | fresh up new foreign leads =>
    rw [leads.ledger]
    exact .welcome m.ledger id

theorem sameQueues_turnAway (m : Mux) (id : UInt64) (kind : Kind) (refusal : Refusal) :
    m.ledger.SameQueues (m.turnAway id kind refusal).ledger := by
  by_cases h : refusal = .crowded
  · subst h
    obtain ⟨out, l, hsending, hleads⟩ := m.turnAway_crowded id kind
    rw [hleads.ledger]
    exact hsending.acts.sameQueues
  · exact .of_eq (m.turnAway_leads id kind h).ledger

theorem queue_enqueue (m : Mux) (serial : Nat) (payload : Bytes) (other : Nat) :
    ((m.enqueue serial payload).registry.stream other).queue = (m.registry.stream other).queue ++
      if other = serial then (m.registry.stream serial).intake payload else [] := by
  obtain ⟨out, l, hqueueing, hleads⟩ := enqueues m serial payload
  have hqueue := hqueueing.queue other
  rwa [← hleads.ledger] at hqueue

/-- An announcement changes no stream, or it fails and the stream is over then. -/
theorem announce_cases (m : Mux) (id : UInt64) (serial : Nat) :
    m.misannounces .newStream id = false ∧
      (∀ other, (m.announce id serial).registry.stream other = m.registry.stream other) ∨
    m.misannounces .newStream id = true ∧ m.ledger.SameQueues (m.announce id serial).ledger ∧
      ((m.announce id serial).registry.stream serial).isOver = true := by
  by_cases hpending : id ∈ m.registry.pending
  · rcases hstart : m.conditions.failStart with _ | text
    · refine Or.inl ⟨by simp [misannounces, hstart], fun other => ?_⟩
      unfold announce
      rw [callHandler_started hpending hstart]
      rfl
    · obtain ⟨out, l, hcutting, hleads⟩ := m.announce_unstarted hpending hstart serial
      refine Or.inr ⟨by simp [misannounces, hstart, hpending], ?_, ?_⟩
      · rw [hleads.ledger]
        exact .trans (fun other => congrArg Stream.queue (Ledger.stream_misstart ..))
          hcutting.sameQueues
      · have hover := hcutting.isOver
        rwa [← hleads.ledger] at hover
  · refine Or.inl ⟨by simp [misannounces, hpending], fun other => ?_⟩
    unfold announce
    rw [callHandler_of_not_mem hpending]
    rfl

theorem queue_newStream (m : Mux) {frame : Frame} (is : frame.kind? = some .newStream)
    (serial : Nat) :
    ((m.receiveKind .newStream frame.id frame.payload).registry.stream serial).queue =
      (m.registry.stream serial).queue ++ m.intake frame serial := by
  have hbind := m.sameQueues_bind frame.id true serial
  unfold intake receiveKind
  simp only [is, Kind.ending?, ne_eq, not_true_eq_false, if_false, beq_self_eq_true]
  generalize m.bind frame.id true = bound at hbind ⊢
  obtain ⟨after, refusal | ⟨target, isNew⟩⟩ := bound
  · rw [List.append_nil]
    exact (after.sameQueues_turnAway frame.id .newStream refusal serial).trans hbind
  · simp only at hbind ⊢
    rw [queue_enqueue]
    rcases after.announce_cases frame.id target with ⟨hstarts, hsame⟩ | ⟨hfails, hsame, hover⟩
    · rw [hsame, hsame, hstarts]
      simp only [and_true]
      exact congrArg (· ++ _) hbind
    · rw [Stream.intake_of_isOver hover, ite_self, if_neg (by simp [hfails])]
      exact congrArg (· ++ []) ((hsame serial).trans hbind)

theorem queue_message (m : Mux) {frame : Frame} {kind : Kind} (is : frame.kind? = some kind)
    (message : kind.isMessage = true) (serial : Nat) :
    ((m.receiveKind kind frame.id frame.payload).registry.stream serial).queue =
      (m.registry.stream serial).queue ++ m.intake frame serial := by
  have hbind := m.sameQueues_bind frame.id false serial
  obtain ⟨hopens, hne⟩ := Kind.ending?_of_isMessage message
  have hlate : (kind == .newStream) = false := beq_eq_false_iff_ne.mpr hne
  unfold intake
  simp only [is, hopens, ne_eq, not_true_eq_false, if_false, hlate, misannounces, Bool.false_and,
    and_true]
  rcases hbound : m.bind frame.id false with ⟨after, refusal | ⟨target, isNew⟩⟩
  · rw [hbound] at hbind
    rw [receiveKind_refused message hbound, List.append_nil]
    exact (after.sameQueues_turnAway frame.id kind refusal serial).trans hbind
  · rw [hbound] at hbind
    have hnoted : ∀ other, (if isNew = true then after.note (.early frame.id) else
        after).registry.stream other = after.registry.stream other := fun other => by
      split <;> rfl
    rw [receiveKind_bound message hbound, queue_enqueue, hnoted, hnoted]
    exact congrArg (· ++ _) hbind

theorem queue_ending (m : Mux) {frame : Frame} {kind : Kind} {ending : Ending}
    (is : frame.kind? = some kind) (ends : kind.ending? = some ending) (serial : Nat) :
    ((m.receiveKind kind frame.id frame.payload).registry.stream serial).queue =
      (m.registry.stream serial).queue ++ m.intake frame serial := by
  have hintake : m.intake frame serial = [] := by simp [intake, is, ends]
  obtain ⟨hplain, hlate⟩ := Kind.isMessage_of_ending? ends
  have hsilent : kind.isMessage ≠ true := by simp [hplain]
  obtain ⟨out, l, hreceiving, hleads⟩ := receives_ending m is ends
  have hsame : m.ledger.SameQueues l := by
    cases hreceiving with
    | reserved kind => exact .refl _
    | refused is opens why => exact .refl _
    | crowded is' message => cases is.symm.trans is'; exact absurd message hsilent
    | began is' => cases is.symm.trans is'; exact absurd rfl hlate
    | announced is' => cases is.symm.trans is'; exact absurd rfl hlate
    | repeated is' => cases is.symm.trans is'; exact absurd rfl hlate
    | early is' message => cases is.symm.trans is'; exact absurd message hsilent
    | data is' message => cases is.symm.trans is'; exact absurd message hsilent
    | lost is ends isOver => exact .refl _
    | ended is ends current live => exact Ledger.SameQueues.trans (.finish _ _ _) (.sweep _ _)
  rw [hintake, List.append_nil]
  rw [← hleads.ledger] at hsame
  exact hsame serial

/-- A frame of the peer adds to a queue what it brings, and nothing else. -/
theorem queue_receive (m : Mux) (frame : Frame) (serial : Nat) :
    ((m.receive frame).registry.stream serial).queue =
      (m.registry.stream serial).queue ++ m.intake frame serial := by
  unfold receive
  rcases hkind : frame.kind? with _ | kind
  · have hintake : m.intake frame serial = [] := by simp [intake, hkind]
    rw [hintake, List.append_nil]
    rfl
  · have hnoted := ledger_note m (.received kind frame.id frame.payload.length) rfl
    rw [← intake_congr hnoted rfl]
    simp only
    generalize m.note (.received kind frame.id frame.payload.length) = noted at hnoted ⊢
    rw [show m.registry = noted.registry from (congrArg Ledger.registry hnoted).symm]
    rcases hends : kind.ending? with _ | ending
    · cases hmessage : kind.isMessage
      · obtain rfl := Kind.eq_newStream hends hmessage
        exact queue_newStream noted hkind serial
      · exact queue_message noted hkind hmessage serial
    · exact queue_ending noted hkind hends serial

/-! ### What an operation takes in and out -/

/-- What an operation puts into the queue of a stream. -/
def takesIn (m : Mux) (op : Op) (serial : Nat) : List Bytes :=
  match op, m.upcoming? with
  | .turn, some frame => m.intake frame serial
  | _, _ => []

/-- The stream that an operation reads, if it reads one. -/
def readFrom? (m : Mux) : Op → Option Nat
  | .read place => (m.handles[place]?).map Handle.serial
  | .readById id => m.registry.find? id
  | _ => none

/-- What an operation takes out of the queue of a stream. -/
def takesOut (m : Mux) (op : Op) (serial : Nat) : List Bytes :=
  if m.readFrom? op = some serial then (m.perform op).2.chunks else []

/-- What an operation takes out of the queue of a stream by the stream's number. -/
def takesByNumber (m : Mux) (op : Op) (serial : Nat) : List Bytes :=
  match op with
  | .readById id => m.takesOut (.readById id) serial
  | _ => []

theorem takesOut_of_ne {op : Op} {serial : Nat} (h : m.readFrom? op ≠ some serial) :
    m.takesOut op serial = [] := if_neg h

theorem takesOut_of_answer {op : Op} {serial : Nat} (h : (m.perform op).2.chunks = []) :
    m.takesOut op serial = [] := by
  rw [takesOut, h, ite_self]

theorem queue_read (m : Mux) (serial other : Nat) :
    (m.registry.stream other).queue =
      (if serial = other then (m.read serial).2.chunks else []) ++
        ((m.read serial).1.registry.stream other).queue := by
  have hreads := reads m serial
  generalize m.read serial = result at hreads ⊢
  cases hreads with
  | @chunk after chunk queue front passes ledger =>
    rw [show after.registry = _ from congrArg Ledger.registry ledger]
    change _ = _ ++ ((m.ledger.pop serial queue).stream other).queue
    by_cases heq : serial = other
    · subst heq
      have hlt : serial < m.ledger.size := by
        by_contra hge
        rw [Ledger.stream, Registry.stream_of_le (Nat.le_of_not_lt hge)] at front
        cases front
      rw [Ledger.pop, Ledger.stream_put_self hlt, if_pos rfl]
      exact front
    · rw [Ledger.pop, Ledger.stream_put_of_ne (Ne.symm heq), if_neg heq]
      rfl
  | blocked live drained => simp [Reading.chunks]
  | @ended after reading isOver drained verdict passes ledger =>
    have hchunks : reading.chunks = [] := by
      rcases verdict with rfl | ⟨fault, rfl⟩ <;> rfl
    rw [show after.registry = _ from congrArg Ledger.registry ledger, hchunks, ite_self]
    exact (Ledger.SameQueues.sweep m.ledger _ other).symm

/-- What is neither a turn of the loop nor a read takes nothing in or out. -/
theorem queue_of_act {op : Op} (hturn : op ≠ .turn) (hread : ∀ place, op ≠ .read place)
    (hnumber : ∀ id, op ≠ .readById id) (serial : Nat) :
    (m.registry.stream serial).queue ++ m.takesIn op serial =
      m.takesOut op serial ++ ((m.perform op).1.registry.stream serial).queue := by
  have hin : m.takesIn op serial = [] := by
    unfold takesIn
    split
    · exact absurd rfl hturn
    · rfl
  have hnone : m.readFrom? op = none := by
    unfold readFrom?
    split
    · exact absurd rfl (hread _)
    · exact absurd rfl (hnumber _)
    · rfl
  rw [hin, takesOut_of_ne (by simp [hnone]), List.append_nil, List.nil_append]
  exact ((acts hturn hread hnumber).sameQueues serial).symm

/-- **What an operation does to a queue.**  What waited and what the operation put behind it is what
the operation took off the front and what waits then. -/
theorem queue_perform (m : Mux) (op : Op) (serial : Nat) :
    (m.registry.stream serial).queue ++ m.takesIn op serial =
      m.takesOut op serial ++ ((m.perform op).1.registry.stream serial).queue := by
  cases op with
  | turn =>
    rw [takesOut_of_ne (by simp [readFrom?]), List.nil_append]
    rcases hturn : m.turn with _ | after
    · simp [takesIn, upcoming?_of_turn_eq_none hturn, perform, hturn]
    · simp only [perform, hturn, Option.getD_some]
      rcases @turn_cases m after 0 hturn with ⟨frame, rest, hupcoming, -, rfl⟩ | ⟨hnone, -⟩
      · -- a frame comes in, and nothing is read
        simp only [takesIn, hupcoming]
        rw [queue_receive]
        exact congrArg (_ ++ ·) (intake_congr (m := { m with assembler := ⟨rest⟩, loop := .ready })
          (n := m) rfl rfl frame serial)
      · simp only [takesIn, hnone, List.append_nil]
        exact ((quiet_turn hturn hnone).acts.sameQueues serial).symm
  | read place =>
    simp only [takesIn, List.append_nil]
    rcases m.withHandle_cases place fun serial => ((m.read serial).1, .reading (m.read serial).2)
      with ⟨handle, hplace, -, heq⟩ | heq
    · have hperform : m.perform (.read place) =
          ((m.read handle.serial).1, .reading (m.read handle.serial).2) := heq
      rw [m.queue_read handle.serial serial, takesOut, hperform]
      simp only [readFrom?, hplace, Option.map_some, Option.some.injEq, Answer.chunks]
    · -- without a handle nothing is read
      have hperform : m.perform (.read place) = (m, .noHandle) := heq
      rw [takesOut_of_answer (by simp [hperform, Answer.chunks]), hperform]
      rfl
  | readById id =>
    simp only [takesIn, List.append_nil]
    rcases hfind : m.registry.find? id with _ | found
    · have hperform : m.perform (.readById id) = (m, .reading (.fault (.streamNotFound id))) := by
        simp [perform, readById, Registry.lookup, hfind]
      rw [takesOut_of_answer (by simp [hperform, Answer.chunks, Reading.chunks]), hperform]
      rfl
    · have hperform : m.perform (.readById id) =
          ((m.read found).1, .reading (m.read found).2) := by
        simp [perform, readById, Registry.lookup, hfind]
      rw [m.queue_read found serial, takesOut, hperform]
      simp only [readFrom?, hfind, Option.some.injEq, Answer.chunks]
  | _ => exact queue_of_act (by simp) (by simp) (by simp) serial

/-! ### Runs -/

/-- A session after some more operations. -/
def runFrom (m : Mux) (ops : List Op) : Mux :=
  ops.foldl (fun m op => (m.perform op).1) m

@[simp] theorem runFrom_nil (m : Mux) : m.runFrom [] = m := rfl

@[simp] theorem runFrom_cons (m : Mux) (op : Op) (ops : List Op) :
    m.runFrom (op :: ops) = (m.perform op).1.runFrom ops := rfl

theorem run_append (side : Side) (settings : Settings) (ops more : List Op) :
    run side settings (ops ++ more) = (run side settings ops).runFrom more :=
  List.foldl_append

theorem isClosed_runFrom (sound : m.ledger.Sound) (h : m.isClosed = true) (ops : List Op) :
    (m.runFrom ops).isClosed = true := by
  induction ops generalizing m with
  | nil => exact h
  | cons op ops ih => exact ih ((step sound op).sound sound) ((step sound op).keeps h)

/-- Operations, each with the session that it met. -/
def trail : Mux → List Op → List (Mux × Op)
  | _, [] => []
  | m, op :: ops => (m, op) :: trail (m.perform op).1 ops

theorem trail_append (m : Mux) (ops more : List Op) :
    m.trail (ops ++ more) = m.trail ops ++ (m.runFrom ops).trail more := by
  induction ops generalizing m with
  | nil => rfl
  | cons op ops ih => exact congrArg ((m, op) :: ·) (ih _)

/-- What went into the queue of a stream meanwhile. -/
def takenIn (m : Mux) (ops : List Op) (serial : Nat) : List Bytes :=
  (m.trail ops).flatMap fun step => step.1.takesIn step.2 serial

/-- What came out of the queue of a stream meanwhile. -/
def takenOut (m : Mux) (ops : List Op) (serial : Nat) : List Bytes :=
  (m.trail ops).flatMap fun step => step.1.takesOut step.2 serial

/-- What was read by number out of the queue of a stream meanwhile. -/
def takenByNumber (m : Mux) (ops : List Op) (serial : Nat) : List Bytes :=
  (m.trail ops).flatMap fun step => step.1.takesByNumber step.2 serial

/-- **Queues lose nothing and mix nothing up.**  What waited and what went in meanwhile is what came
out and what waits now, in this order. -/
theorem queue_runFrom (m : Mux) (ops : List Op) (serial : Nat) :
    (m.registry.stream serial).queue ++ m.takenIn ops serial =
      m.takenOut ops serial ++ ((m.runFrom ops).registry.stream serial).queue := by
  induction ops generalizing m with
  | nil => simp [takenIn, takenOut, trail]
  | cons op ops ih =>
    have hstep := m.queue_perform op serial
    have hrest := ih (m.perform op).1
    simp only [takenIn, takenOut, trail, List.flatMap_cons] at hrest ⊢
    rw [← List.append_assoc, hstep, List.append_assoc, hrest, List.append_assoc, runFrom_cons]

end Mux

end StreamMux
