import StreamMux.Proofs.Session.Endings
import StreamMux.Proofs.Session.Protocol

/-!
# What passes a stream by

A stream changes when a frame of the peer is for it, when somebody uses it, and when the connection
goes away under it.  Everything else passes it by.  What then holds of the stream is no case by case
matter: its number, its end and its queue each change for reasons of their own, and none of these is
there.

* `Mux.used?` — the stream that a user does something with, and `Mux.Bypasses` — an operation passes
  a stream by;
* `Mux.Bypasses.stream_eq`, `Mux.Bypasses.find?_eq`, `Mux.Bypasses.silent` — the stream stays as it
  is and current, and nothing is sent under its number;
* `Mux.readings` — what the reads of a stream are answered, and `Mux.answer_runFrom`: while the
  connection is there, a stream that is over is read to its end, whatever else is done.
-/

namespace StreamMux

theorem Stream.eq_of_origin {stream other : Stream} (origin : stream.origin = other.origin)
    (ending : stream.ending = other.ending) (severed : stream.severed = other.severed) :
    stream = { other with queue := stream.queue } := by
  obtain ⟨id, role, capacity, _, _, queue⟩ := stream
  cases ending
  cases severed
  cases origin
  rfl

/-! ### Streams that stay current -/

namespace Ledger

variable {l l' : Ledger} {id : UInt64} {serial : Nat}

theorem Move.tornDown (h : Move l l') (torn : l.tornDown = true) : l'.tornDown = true := by
  cases h with
  | openTorn => rfl
  | tear => rfl
  | finishTorn => rfl
  | misstart => rwa [tornDown_misstart]
  | _ => exact torn

/-- A stream that is over takes nothing in, so that what waits was there before. -/
theorem Move.queue_ne_nil (h : Move l l') (hlt : serial < l.size)
    (hover : (l.stream serial).isOver = true) (hwaits : (l'.stream serial).queue ≠ []) :
    (l.stream serial).queue ≠ [] := by
  cases h with
  | @opened id ids label up draw =>
    have hsame : (l.register id ids).stream serial = l.stream serial := stream_register_of_lt hlt
    rwa [← hsame]
  | @openTorn id ids up draw => rwa [queue_tear, stream_register_of_lt hlt] at hwaits
  | tear => rwa [queue_tear] at hwaits
  | finish ending live =>
    rwa [stream_sweep, Ledger.finish, stream_put_of_isOver live hover] at hwaits
  | finishTorn ending live =>
    rwa [queue_tear, Ledger.finish, stream_put_of_isOver live hover] at hwaits
  | overflow other => exact hwaits
  | push chunk live room => rwa [Ledger.push, stream_put_of_isOver live hover] at hwaits
  | @pop other chunk queue front =>
    rcases l.stream_put other { l.stream other with queue } serial with ⟨rfl, -⟩ | heq
    · rw [front]
      exact List.cons_ne_nil _ _
    · rwa [Ledger.pop, heq] at hwaits
  | sweep other => rwa [stream_sweep] at hwaits
  | welcome up new foreign fits => rwa [stream_welcome_of_lt hlt] at hwaits
  | accept pending current => exact hwaits
  | misstart pending current => rwa [stream_misstart] at hwaits

theorem sweep_of_waits (hfind : l.find? id = some serial)
    (hwaits : (l.stream serial).queue ≠ []) : l.sweep id = l := by
  rcases l.registry.sweep_eq id with ⟨-, found, hfound, -, hdrained⟩ | ⟨heq, -⟩
  · cases hfound.symm.trans hfind
    exact absurd hdrained hwaits
  · rw [sweep, heq]

theorem find?_sweep_of_waits (hfind : l.find? id = some serial)
    (hwaits : (l.stream serial).queue ≠ []) (other : UInt64) :
    (l.sweep other).find? id = some serial := by
  by_cases hsame : id = other
  · rw [← hsame, sweep_of_waits hfind hwaits]
    exact hfind
  · rcases l.registry.sweep_eq other with ⟨heq, -⟩ | ⟨heq, -⟩
    · simpa only [sweep, find?, heq, Registry.find?_remove, if_neg hsame] using hfind
    · simpa only [sweep, find?, heq] using hfind

/-- Dropping a handle takes no stream but its own out of the entries. -/
theorem find?_drop_of_ne {place : Nat} {handle : Handle} (hfind : l.find? id = some serial)
    (hne : handle.serial ≠ serial) : (l.drop place handle).find? id = some serial := by
  unfold drop
  simp only
  split
  · rename_i hcurrent
    rw [Bool.and_eq_true, beq_iff_eq] at hcurrent
    have hother : id ≠ (l.stream handle.serial).id := by
      rintro rfl
      exact hne (Option.some.inj (hcurrent.2.symm.trans hfind))
    simp only [find?, Registry.find?_remove, if_neg hother]
    exact hfind
  · exact hfind

/-- Nothing but teardown takes a stream out of the entries that is over and for which something
waits, unless a handle is given out for it and dropped at once. -/
theorem Move.find?_kept (h : Move l l') (sound : l.Sound) (hfind : l.find? id = some serial)
    (hover : (l.stream serial).isOver = true) (hwaits : (l.stream serial).queue ≠ [])
    (hheld : l'.Held serial → l.Held serial) (up : l'.tornDown = false) :
    l'.find? id = some serial := by
  obtain ⟨hlt, hid⟩ := sound.current hfind
  cases h with
  | @opened other ids label _ draw =>
    change (l.register other ids).find? id = some serial
    rw [find?_register, if_neg (hid ▸ sound.id_ne_of_draw draw hlt)]
    exact hfind
  | openTorn => cases up
  | tear => cases up
  | finish ending live =>
    refine find?_sweep_of_waits (l := l.finish _ ending) hfind ?_ _
    rwa [Ledger.finish, stream_put_of_isOver live hover]
  | finishTorn => cases up
  | overflow other => exact hfind
  | push chunk live room => exact hfind
  | pop front => exact hfind
  | sweep other => exact find?_sweep_of_waits hfind hwaits other
  | welcome _ new foreign fits =>
    rw [find?_welcome, if_neg, hfind]
    rintro rfl
    cases new.symm.trans hfind
  | accept pending current => exact hfind
  | @misstart other found pending current =>
    refine find?_drop_of_ne (l := l.accept other found) hfind ?_
    rintro rfl
    obtain ⟨waiting, hwaiting, -, hfree⟩ := sound.waiting pending
    cases hwaiting.symm.trans current
    -- a pending stream has no handle, and this one has none more
    refine hfree (hheld ⟨{ serial := found, label := none, live := false }, ?_, rfl⟩)
    rw [handles_misstart]
    exact List.mem_append_right _ (List.mem_singleton_self _)

theorem Extends.held (h : l.Extends l') (hheld : l.Held serial) : l'.Held serial := by
  obtain ⟨new, heq⟩ := h.handles
  obtain ⟨handle, hmem, hserial⟩ := hheld
  exact ⟨handle, heq ▸ List.mem_append_left _ hmem, hserial⟩

theorem Moves.find?_kept (h : Moves l l') (sound : l.Sound) (hfind : l.find? id = some serial)
    (hover : (l.stream serial).isOver = true) (hwaits : (l'.stream serial).queue ≠ [])
    (hheld : l'.Held serial → l.Held serial) (up : l'.tornDown = false) :
    l'.find? id = some serial := by
  have hlt := (sound.current hfind).1
  induction h with
  | refl => exact hfind
  | @tail middle last hmoves hmove ih =>
    have hextends := Moves.extends hmoves
    have hextends' := Moves.extends (.single hmove)
    have hthere : serial < middle.size := Nat.lt_of_lt_of_le hlt hextends.size_le
    have hended := (Moves.keepsEnd hmoves hlt hover).isOver hover
    have hbefore := hmove.queue_ne_nil hthere hended hwaits
    have hup : middle.tornDown = false := by
      by_contra htorn
      rw [hmove.tornDown (by simpa using htorn)] at up
      cases up
    -- who is held in the end was held all along
    exact hmove.find?_kept (sound.moves hmoves)
      (ih hbefore (fun hmiddle => hheld (hextends'.held hmiddle)) hup) hended hbefore
      (fun hlast => hextends.held (hheld hlast)) up

end Ledger

namespace Mux

variable {m : Mux} {op : Op} {serial : Nat}

/-! ### What one operation leaves of a stream -/

theorem up_of_perform (sound : m.ledger.Sound) (up : (m.perform op).1.tornDown = false) :
    m.tornDown = false := by
  by_contra htorn
  rw [(rests_perform sound (by simpa using htorn) op).torn] at up
  cases up

theorem Step.unsevered {m' : Mux} (h : m.Step op m') (unsevered : m.ledger.Unsevered) :
    m'.ledger.Unsevered := by
  rcases h.ledger with hmoves | ⟨place, handle, -, -, -, heq⟩
  · exact unsevered.moves hmoves
  · rw [heq]
    exact unsevered.drop place handle

/-- Where nothing is torn down and nothing ends a stream, only its queue may change. -/
theorem stream_perform (sound : m.ledger.Sound) (unsevered : m.ledger.Unsevered)
    (hlt : serial < m.ledger.size) (up : (m.perform op).1.tornDown = false)
    (hends : m.ends? op serial = none) :
    (m.perform op).1.registry.stream serial =
      { m.registry.stream serial with
        queue := ((m.perform op).1.registry.stream serial).queue } := by
  have hstep := step sound op
  have hendsAs := endsAs_perform sound op
  refine Stream.eq_of_origin (hstep.origin_eq hlt) ?_ ?_
  · have hold := hendsAs serial
    rwa [hends, Option.or_none] at hold
  · have hafter := hstep.unsevered unsevered up serial (hstep.kept 0 hlt).1
    exact hafter.trans (unsevered (up_of_perform sound up) serial hlt).symm

/-- A frame brings a stream nothing, unless it is for the stream and the stream is open. -/
theorem intake_eq_nil (sound : m.ledger.Sound) (hlt : serial < m.ledger.size) {frame : Frame}
    (h : frame.id = (m.registry.stream serial).id → (m.registry.stream serial).isOver = true) :
    m.intake frame serial = [] := by
  unfold intake
  split
  · rfl
  · rename_i kind _
    split
    · rfl
    · have hbinds := binds m frame.id (kind == .newStream)
      generalize m.bind frame.id (kind == .newStream) = result at hbinds ⊢
      cases hbinds with
      | torn torn => rfl
      | own up new own => rfl
      | crowded late up new foreign full => rfl
      | @current found up find =>
        simp only
        split
        · rename_i hboth
          obtain ⟨rfl, -⟩ := hboth
          exact Stream.intake_of_isOver (h (sound.current find).2.symm)
        · rfl
      | fresh up new foreign leads room => exact if_neg fun hboth => Nat.ne_of_lt hlt hboth.1

theorem takesIn_eq_nil (sound : m.ledger.Sound) (hlt : serial < m.ledger.size)
    (h : ∀ frame ∈ m.applies op, frame.id = (m.registry.stream serial).id →
      (m.registry.stream serial).isOver = true) : m.takesIn op serial = [] := by
  unfold takesIn
  split
  · rename_i frame hupcoming
    exact intake_eq_nil sound hlt (h frame (by simp [applies, hupcoming]))
  · rfl

/-! ### Operations that pass a stream by -/

/-- The stream that a user does something with: through a handle, by its number, or by sending a
frame with its number by hand. -/
def used? (m : Mux) : Op → Option Nat
  | .write place _ | .finish place _ | .read place | .drop place =>
    (m.handles[place]?).map Handle.serial
  | .readById id => m.registry.find? id
  | .send frame => m.registry.find? frame.id
  | _ => none

/-- An operation is not about a stream: nobody uses the stream, no frame of the peer is for it, and
the connection is there afterwards. -/
structure Bypasses (m : Mux) (op : Op) (serial : Nat) : Prop where
  unused : m.used? op ≠ some serial
  others : ∀ frame ∈ m.applies op, frame.id ≠ (m.registry.stream serial).id
  up : (m.perform op).1.isClosed = false

theorem readFrom?_eq_used? {op : Op} (h : m.readFrom? op = some serial) :
    m.used? op = some serial := by
  cases op with
  | read place => exact h
  | readById id => exact h
  | _ => cases h

/-- A frame that is sent by hand is read off the wire with its own number. -/
theorem id_of_mem_outgoing_send {frame sent : Frame} (h : sent ∈ m.outgoing (.send frame)) :
    sent.id = frame.id := by
  have hsend : (m.perform (.send frame)).1 = (m.send frame).1 := rfl
  rcases frame.encode_cases with ⟨-, hencode⟩ | ⟨-, -, hencode⟩ | ⟨hid, hflag, -⟩
  · rw [outgoing_of_written_eq (by rw [hsend, send, hencode])] at h
    cases h
  · rw [outgoing_of_written_eq (by rw [hsend, send, hencode])] at h
    cases h
  · obtain ⟨out, l, hsending, hleads⟩ := sends_leads m frame
    rw [outgoing, hsend, hleads.passes.written, List.drop_left] at h
    obtain ⟨chunk, hmem, hdecode⟩ := List.mem_filterMap.mp h
    have hwire : chunk = frame.wire := by
      cases hsending with
      | refused why => cases hmem
      | sent up => exact List.mem_singleton.mp hmem
      | torn up => cases hmem
    rw [hwire] at hdecode
    refine Frame.id_eq_of_decode_wire hid hflag ?_
    rcases hread : Frame.decode frame.wire with fault | read
    · rw [hread] at hdecode
      cases hdecode
    · rw [hread] at hdecode
      cases hdecode
      rfl

namespace Bypasses

/-- No frame that comes in announces the stream. -/
theorem not_announces (h : m.Bypasses op serial) (sound : m.ledger.Sound)
    (hlt : serial < m.ledger.size) (frame : Frame) : ¬ m.Announces op frame serial := by
  intro hann
  have hother := h.others frame (by simp [hann.turn, applies, hann.upcoming])
  rcases hann.stream with ⟨hcurrent, -⟩ | ⟨-, heq⟩
  · exact hother (sound.current hcurrent).2.symm
  · exact Nat.ne_of_lt hlt heq

/-- Nobody is handed the stream who was not before. -/
theorem held (h : m.Bypasses op serial) (sound : m.ledger.Sound) (hlt : serial < m.ledger.size)
    (hheld : (m.perform op).1.ledger.Held serial) : m.ledger.Held serial := by
  rw [← Ledger.mem_serials_iff] at hheld ⊢
  by_cases hop : op = .turn
  · cases dispatch sound op with
    | accepted frame found announces greets isOver role number =>
      rw [Ledger.serials, show (m.perform op).1.ledger.handles = _ from greets.handles,
        List.map_append] at hheld
      refine (List.mem_append.mp hheld).resolve_right fun hnew => ?_
      obtain rfl := List.mem_singleton.mp hnew
      exact h.not_announces sound hlt frame announces
    | silent others arrivals handles => rwa [← (handles hop).serials_eq]
  · rcases (m.silent_perform hop).2 with hsame | ⟨label, rfl⟩
    · rwa [← hsame]
    · rcases m.utters_openStream label with ⟨-, hsame⟩ | ⟨id, -, hsame, -⟩
      · rwa [← hsame]
      · rw [hsame] at hheld
        refine (List.mem_append.mp hheld).resolve_right fun hnew => ?_
        exact Nat.ne_of_lt hlt (List.mem_singleton.mp hnew)

theorem ends?_eq (h : m.Bypasses op serial) (sound : m.ledger.Sound)
    (hlt : serial < m.ledger.size) : m.ends? op serial = none := by
  unfold ends?
  split
  · rename_i place ending
    refine if_neg fun hboth => h.unused ?_
    obtain ⟨handle, hholder, hserial⟩ := Option.map_eq_some_iff.mp hboth.2
    obtain ⟨hplace, -⟩ := Option.filter_eq_some_iff.mp hholder
    simp only [used?]
    exact Option.map_eq_some_iff.mpr ⟨handle, hplace, hserial⟩
  · rcases hupcoming : m.upcoming? with _ | frame
    · rfl
    · have hother := h.others frame (by simp [applies, hupcoming])
      rw [Option.bind_some, Ledger.endedBy?, if_neg, Ledger.endsCurrent?_of_find?_ne]
      · exact fun hcurrent => hother (sound.current hcurrent).2.symm
      · exact fun hboth => h.not_announces sound hlt frame
          (announces_iff.mpr ⟨rfl, hupcoming, hboth.2⟩)
  · rfl

theorem subject?_ne (h : m.Bypasses op serial) (sound : m.ledger.Sound)
    (hlt : serial < m.ledger.size) : m.subject? op ≠ some serial := by
  intro about
  unfold subject? at about
  split at about
  · exact absurd (Option.some.inj about) (Nat.ne_of_gt hlt)
  · exact h.unused about
  · exact h.unused about
  · obtain ⟨frame, hupcoming, habout⟩ := Option.bind_eq_some_iff.mp about
    rcases Option.or_eq_some_iff.mp habout with hcurrent | ⟨-, hnew⟩
    · exact h.others frame (by simp [applies, hupcoming]) (sound.current hcurrent).2.symm
    · split at hnew
      · exact Nat.ne_of_gt hlt (Option.some.inj hnew)
      · cases hnew
  · cases about

theorem stream_eq (h : m.Bypasses op serial) (sound : m.ledger.Sound)
    (unsevered : m.ledger.Unsevered) (hlt : serial < m.ledger.size) :
    (m.perform op).1.registry.stream serial = m.registry.stream serial := by
  have hup := up_of_isClosed_eq_false h.up
  have hin := takesIn_eq_nil sound hlt fun frame hmem heq => absurd heq (h.others frame hmem)
  have hout : m.takesOut op serial = [] :=
    takesOut_of_ne fun hread => h.unused (readFrom?_eq_used? hread)
  have hqueue := m.queue_perform op serial
  rw [hin, hout, List.append_nil, List.nil_append] at hqueue
  rw [stream_perform sound unsevered hlt hup (h.ends?_eq sound hlt), ← hqueue]

/-- What passes a stream by leaves it current, unless it is over and drained. -/
theorem find?_eq (h : m.Bypasses op serial) (sound : m.ledger.Sound)
    (unsevered : m.ledger.Unsevered) {id : UInt64} (hfind : m.registry.find? id = some serial)
    (hkept : (m.registry.stream serial).isOver = true → (m.registry.stream serial).queue ≠ []) :
    (m.perform op).1.registry.find? id = some serial := by
  obtain ⟨hlt, hid⟩ := sound.current hfind
  have hstream : (m.perform op).1.ledger.stream serial = m.ledger.stream serial :=
    h.stream_eq sound unsevered hlt
  have hstep := step sound op
  by_cases hover : (m.registry.stream serial).isOver = true
  · rcases hstep.ledger with hmoves | ⟨place, handle, rfl, hplace, -, heq⟩
    · refine hmoves.find?_kept sound hfind hover ?_ (h.held sound hlt)
        (up_of_isClosed_eq_false h.up)
      rw [hstream]
      exact hkept hover
    · have hne : handle.serial ≠ serial := fun hserial =>
        h.unused (Option.map_eq_some_iff.mpr ⟨handle, hplace, hserial⟩)
      rw [show ((m.perform (.drop place)).1).registry = _ from congrArg Ledger.registry heq]
      exact Ledger.find?_drop_of_ne hfind hne
  · have hlive : ((m.perform op).1.ledger.stream serial).isOver = false := by
      rw [hstream]
      exact Bool.eq_false_iff.mpr hover
    have hcurrent := (hstep.sound sound).find?_of_live hlive
    rwa [hstream, hid] at hcurrent

/-- A stream that is opened meanwhile has another number. -/
theorem number_ne_of_opened (h : m.Bypasses op serial) (sound : m.ledger.Sound)
    (unsevered : m.ledger.Unsevered) {id new : UInt64} {capacity : Nat}
    (hfind : m.registry.find? id = some serial)
    (begins : (m.perform op).1.ledger.stream m.ledger.size = .start new .opener capacity) :
    new ≠ id := by
  obtain ⟨hlt, hid⟩ := sound.current hfind
  have hstream : (m.perform op).1.ledger.stream serial = m.ledger.stream serial :=
    h.stream_eq sound unsevered hlt
  have hthere : m.ledger.size < (m.perform op).1.ledger.size := by
    refine Registry.lt_of_not_isOver ?_
    change ((m.perform op).1.ledger.stream m.ledger.size).isOver = false
    rw [begins]
    rfl
  rintro rfl
  refine Nat.ne_of_gt hlt (((step sound op).sound sound).opener_inj hthere
    (Nat.lt_trans hlt hthere) ?_ ?_)
  · exact congrArg Stream.role begins
  · exact (congrArg Stream.id begins).trans ((congrArg Stream.id hstream).trans hid).symm

/-- So has one that is announced and reset at once. -/
theorem number_ne_of_new (h : m.Bypasses op serial) (sound : m.ledger.Sound) {id : UInt64}
    (hfind : m.registry.find? id = some serial) {other : Nat} (new : other = m.ledger.size)
    (how : m.EndsHere other op .reset) : ((m.perform op).1.ledger.stream other).id ≠ id := by
  cases how with
  | user ending given is =>
    exact absurd (sound.held_lt (List.mem_of_getElem? given)) (by omega)
  | overfull upcoming is opens current full =>
    exact absurd new (Nat.ne_of_lt (sound.current current).1)
  | unstarted misstarts =>
    obtain ⟨frame, hann⟩ := misstarts.2
    rw [show ((m.perform op).1.ledger.stream other).id = frame.id from
      (accepted_of_announces sound hann).2.2.2, ← (sound.current hfind).2]
    exact h.others frame (by simp [hann.turn, applies, hann.upcoming])

/-- What passes a stream by sends nothing under its number, as long as the stream is current. -/
theorem silent (h : m.Bypasses op serial) (sound : m.ledger.Sound)
    (unsevered : m.ledger.Unsevered) {id : UInt64} (hfind : m.registry.find? id = some serial) :
    ∀ frame ∈ m.outgoing op, frame.id ≠ id := by
  have hlt := (sound.current hfind).1
  by_cases hsent : ∃ frame, op = .send frame
  · obtain ⟨frame, rfl⟩ := hsent
    intro sent hmem heq
    refine h.unused ?_
    simp only [used?]
    rw [← id_of_mem_outgoing_send hmem, heq]
    exact hfind
  · have hother : ∀ {other : Nat}, m.subject? op = some other →
        (m.ledger.stream other).isOver = false → (m.ledger.stream other).id ≠ id := by
      intro other about hlive heq
      -- an open stream with the number is the current one, and the operation is not about that
      have hcurrent := sound.find?_of_live hlive
      rw [heq] at hcurrent
      obtain rfl := Option.some.inj (hcurrent.symm.trans hfind)
      exact h.subject?_ne sound hlt about
    cases utters sound fun frame heq => hsent ⟨frame, heq⟩ with
    | nothing silent => simp [silent]
    | announces opens begins serials sends =>
      rw [sends]
      simpa [Frame.ofKind] using h.number_ne_of_opened sound unsevered hfind begins
    | carries data about live stays sends =>
      rw [sends]
      simpa [Stream.parcel, Frame.ofKind] using hother about live
    | ends about live how ended sends =>
      rw [sends]
      simpa [Stream.farewell, Frame.ofKind] using hother about live
    | misstarts about new how role ended sends =>
      rw [sends]
      simpa [Stream.farewell, Frame.ofKind] using h.number_ne_of_new sound hfind new how
    | refuses turn upcoming message new foreign sends =>
      rw [sends]
      intro frame hmem
      rw [List.mem_singleton.mp hmem]
      rintro rfl
      cases new.symm.trans hfind

end Bypasses

/-! ### Reads of a stream that is over -/

/-- What an answer tells a reader, if it is one. -/
def Answer.reading? : Answer → Option Reading
  | .reading result => some result
  | _ => none

/-- What an operation tells the reader of a stream, if it reads the stream. -/
def readingOf? (m : Mux) (op : Op) (serial : Nat) : Option Reading :=
  if m.readFrom? op = some serial then (m.perform op).2.reading? else none

/-- What the reads of a stream are answered meanwhile, oldest first. -/
def readings (m : Mux) (ops : List Op) (serial : Nat) : List Reading :=
  (m.trail ops).filterMap fun step => step.1.readingOf? step.2 serial

theorem readings_cons (m : Mux) (op : Op) (ops : List Op) (serial : Nat) :
    m.readings (op :: ops) serial =
      (m.readingOf? op serial).toList ++ (m.perform op).1.readings ops serial := by
  rw [readings, trail, List.filterMap_cons]
  rcases m.readingOf? op serial with _ | reading <;> rfl

/-- An operation reads a stream: through a handle that is held, or by the number while the stream is
current. -/
inductive ReadsFrom (m : Mux) (serial : Nat) : Op → Prop
  | held {place : Nat} {handle : Handle} (hplace : m.handles[place]? = some handle)
      (live : handle.live = true) (about : handle.serial = serial) :
      ReadsFrom m serial (.read place)
  | current {id : UInt64} (hfind : m.registry.find? id = some serial) :
      ReadsFrom m serial (.readById id)

theorem ReadsFrom.answer (h : m.ReadsFrom serial op) :
    (m.perform op).2 = .reading (m.read serial).2 := by
  cases h with
  | held hplace live about => rw [perform_read hplace live, about]
  | current hfind => simp [perform, readById, Registry.lookup, hfind]

theorem readsFrom_of_readingOf? {reading : Reading} (h : m.readingOf? op serial = some reading) :
    m.ReadsFrom serial op := by
  unfold readingOf? at h
  split at h
  · rename_i hread
    cases op with
    | read place =>
      obtain ⟨handle, hplace, about⟩ := Option.map_eq_some_iff.mp hread
      rcases m.withHandle_cases place fun serial => ((m.read serial).1, .reading (m.read serial).2)
        with ⟨found, hfound, live, -⟩ | heq
      · cases hfound.symm.trans hplace
        exact .held hplace live about
      · rw [show m.perform (.read place) = (m, .noHandle) from heq] at h
        cases h
    | readById id => exact .current hread
    | _ => cases hread
  · cases h

theorem eq_read_of_readingOf? {reading : Reading} (h : m.readingOf? op serial = some reading) :
    reading = (m.read serial).2 := by
  have hanswer := (readsFrom_of_readingOf? h).answer
  rw [readingOf?, hanswer] at h
  split at h
  · exact (Option.some.inj h).symm
  · cases h

theorem takesOut_eq (m : Mux) (op : Op) (serial : Nat) :
    m.takesOut op serial = (m.readingOf? op serial).elim [] Reading.chunks := by
  unfold takesOut readingOf?
  split
  · rcases (m.perform op).2 with _ | _ | _ | _ | _ | _ | _ <;> rfl
  · rfl

section Over

variable (sound : m.ledger.Sound) (unsevered : m.ledger.Unsevered) (hlt : serial < m.ledger.size)
  (hover : (m.registry.stream serial).isOver = true)

include sound unsevered hlt hover

/-- While the connection is there, only reads change a stream that is over. -/
theorem stream_unread (up : (m.perform op).1.tornDown = false)
    (h : m.readingOf? op serial = none) :
    (m.perform op).1.registry.stream serial = m.registry.stream serial := by
  have hqueue := m.queue_perform op serial
  rw [takesIn_eq_nil sound hlt fun _ _ _ => hover, takesOut_eq, h, List.append_nil] at hqueue
  rw [stream_perform sound unsevered hlt up (ends?_of_isOver hlt hover)]
  exact congrArg (fun queue => { m.registry.stream serial with queue }) hqueue.symm

/-- A read is answered from the queue, and takes the chunk that it is given. -/
theorem stream_read (up : (m.perform op).1.tornDown = false) {reading : Reading}
    (h : m.readingOf? op serial = some reading) :
    reading = (m.registry.stream serial).answer 0 ∧
      (m.perform op).1.registry.stream serial =
        { m.registry.stream serial with queue := (m.registry.stream serial).queue.tail } := by
  have hanswer : reading = (m.registry.stream serial).answer 0 :=
    (eq_read_of_readingOf? h).trans (read_of_isOver hover)
  have hqueue := m.queue_perform op serial
  rw [takesIn_eq_nil sound hlt fun _ _ _ => hover, takesOut_eq, h, List.append_nil] at hqueue
  have htail : ((m.perform op).1.registry.stream serial).queue =
      (m.registry.stream serial).queue.tail := by
    rw [hanswer] at hqueue
    exact Stream.eq_tail_of_answer hqueue
  refine ⟨hanswer, ?_⟩
  rw [stream_perform sound unsevered hlt up (ends?_of_isOver hlt hover), htail]

/-- **While the connection is there, a stream that is over is only read to its end**, whatever else
is done: each read takes one chunk as long as any wait. -/
theorem stream_runFrom {ops : List Op} (up : (m.runFrom ops).tornDown = false) :
    (m.runFrom ops).registry.stream serial =
      { m.registry.stream serial with
        queue := (m.registry.stream serial).queue.drop (m.readings ops serial).length } := by
  induction ops generalizing m with
  | nil => rfl
  | cons op ops ih =>
    have hstep := step sound op
    have hsound := hstep.sound sound
    have hup : (m.perform op).1.tornDown = false := by
      by_contra htorn
      rw [runFrom_cons, tornDown_runFrom hsound (by simpa using htorn)] at up
      cases up
    have hthere := (hstep.kept 0 hlt).1
    have hended := (hstep.keepsEnd hlt hover).isOver hover
    have hrest := ih hsound (hstep.unsevered unsevered) hthere hended up
    rw [runFrom_cons, hrest, readings_cons]
    rcases hread : m.readingOf? op serial with _ | first
    · rw [stream_unread sound unsevered hlt hover hup hread]
      rfl
    · rw [(stream_read sound unsevered hlt hover hup hread).2, List.drop_tail]
      rfl

/-- Reads give what waits, chunk after chunk, and from then on all the same verdict. -/
theorem answer_runFrom {ops : List Op} (up : (m.runFrom ops).tornDown = false)
    (reads : (m.runFrom ops).ReadsFrom serial op) : ((m.runFrom ops).perform op).2 =
      .reading ((m.registry.stream serial).answer (m.readings ops serial).length) := by
  have hstream := stream_runFrom sound unsevered hlt hover up
  have hended : ((m.runFrom ops).registry.stream serial).isOver = true := by
    rw [hstream]
    exact hover
  rw [reads.answer, read_of_isOver hended, hstream, Stream.answer_drop, Nat.add_zero]

end Over

end Mux

end StreamMux
