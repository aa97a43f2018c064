import StreamMux.Proofs.Session.Turning

/-!
# What operations do to the counters

The counters of frames and bytes go by the frames that an operation applies and passes on, those of
streams by how many streams there are, how they ended, and how many handles were given out.

* `Mux.Balanced` — the counters of streams are right;
* `Mux.Accounts` — an operation counts exactly the frames that it applies and passes on, and keeps
  the counters of streams right;
* `Mux.accounts_send` — sending a frame does.
-/

namespace StreamMux

/-! ### Frames in numbers -/

namespace Frame

/-- The bytes of a frame besides its payload. -/
def overhead (frame : Frame) : Nat := frame.wireSize - frame.payload.length

/-- The bytes of the payloads of some frames. -/
def payloadBytes (frames : List Frame) : Nat := (frames.map (·.payload.length)).sum

/-- The bytes of some frames besides their payloads. -/
def overheadBytes (frames : List Frame) : Nat := (frames.map overhead).sum

@[simp] theorem payloadBytes_nil : payloadBytes [] = 0 := rfl

@[simp] theorem overheadBytes_nil : overheadBytes [] = 0 := rfl

@[simp] theorem payloadBytes_append (frames more : List Frame) :
    payloadBytes (frames ++ more) = payloadBytes frames + payloadBytes more := by
  simp [payloadBytes]

@[simp] theorem overheadBytes_append (frames more : List Frame) :
    overheadBytes (frames ++ more) = overheadBytes frames + overheadBytes more := by
  simp [overheadBytes]

@[simp] theorem payloadBytes_singleton (frame : Frame) :
    payloadBytes [frame] = frame.payload.length := by simp [payloadBytes]

@[simp] theorem overheadBytes_singleton (frame : Frame) :
    overheadBytes [frame] = frame.wireSize - frame.payload.length := by
  simp [overheadBytes, overhead]

theorem two_le_overhead (frame : Frame) : Counters.smallestOverhead ≤ frame.overhead := by
  have hsize : ∀ value, 0 < Varint.size value := fun value => by
    rw [← Varint.length_encode]
    exact List.length_pos_of_ne_nil (Varint.encode_ne_nil value)
  have hheader := hsize (Header.word frame.id frame.flag)
  have hlength := hsize (lengthWord frame.payload)
  unfold Counters.smallestOverhead overhead wireSize
  omega

/-- Frames have at least the smallest overhead each. -/
theorem le_overheadBytes (frames : List Frame) :
    Counters.smallestOverhead * frames.length ≤ overheadBytes frames := by
  induction frames with
  | nil => simp
  | cons frame others ih =>
    have hframe := frame.two_le_overhead
    rw [overheadBytes] at ih ⊢
    rw [List.map_cons, List.sum_cons, List.length_cons, Nat.mul_succ]
    omega

end Frame

/-! ### How streams ended -/

namespace Registry

/-- How one of the sides ended each stream, if one did. -/
def endings (registry : Registry) : List (Option Ending) := registry.streams.map Stream.ending

theorem endings_eq {registry registry' : Registry}
    (hlength : registry'.streams.length = registry.streams.length)
    (h : ∀ serial, (registry'.stream serial).ending = (registry.stream serial).ending) :
    registry'.endings = registry.endings := by
  apply List.ext_getElem
  · simp [endings, hlength]
  · intro i hi hi'
    have hlt' : i < registry'.streams.length := by simpa [endings] using hi
    have hlt : i < registry.streams.length := by simpa [endings] using hi'
    have hstream := h i
    simp only [Registry.stream, List.getD_eq_getElem?_getD, List.getElem?_eq_getElem hlt',
      List.getElem?_eq_getElem hlt, Option.getD_some] at hstream
    simpa [endings] using hstream

theorem endings_create (registry : Registry) (stream : Stream) :
    (registry.create stream).1.endings = registry.endings ++ [stream.ending] := by
  simp [create, endings]

theorem endings_update (registry : Registry) (serial : Nat) (stream : Stream) :
    (registry.update serial stream).endings = registry.endings.set serial stream.ending := by
  simp [update, endings, List.map_set]

theorem endings_update_of_eq {registry : Registry} {serial : Nat} {stream : Stream}
    (h : stream.ending = (registry.stream serial).ending) :
    (registry.update serial stream).endings = registry.endings := by
  refine endings_eq (length_update ..) fun other => ?_
  by_cases hne : other = serial
  · subst hne
    by_cases hlt : other < registry.streams.length
    · rw [stream_update_self _ hlt, h]
    · rw [stream_of_le (by simpa using hlt), stream_of_le (by omega)]
  · rw [stream_update_of_ne _ _ hne]

@[simp] theorem endings_sweep (registry : Registry) (id : UInt64) :
    (registry.sweep id).1.endings = registry.endings :=
  endings_eq (length_sweep ..) fun serial => by rw [stream_sweep]

@[simp] theorem endings_sever (registry : Registry) :
    registry.sever.1.endings = registry.endings :=
  endings_eq (length_sever _) fun serial => by
    rw [stream_sever]
    split <;> rfl

theorem count_endings_update {registry : Registry} {serial : Nat}
    (hlt : serial < registry.streams.length) (hbefore : (registry.stream serial).ending = none)
    (ending other : Ending) :
    (registry.update serial { registry.stream serial with ending := some ending }).endings.count
        (some other) =
      registry.endings.count (some other) + if ending = other then 1 else 0 := by
  have hlt' : serial < registry.endings.length := by simpa [endings] using hlt
  have hget : registry.endings[serial] = none := by
    have hstream := hbefore
    simp only [Registry.stream, List.getD_eq_getElem?_getD, List.getElem?_eq_getElem hlt,
      Option.getD_some] at hstream
    simpa [endings] using hstream
  rw [endings_update, List.count_set hlt', hget]
  simp

end Registry

namespace Stream

@[simp] theorem ending_pop (stream : Stream) : stream.pop.1.ending = stream.ending := by
  unfold pop
  split <;> rfl

@[simp] theorem ending_push (stream : Stream) (chunk : Bytes) :
    (stream.push chunk).1.ending = stream.ending := by
  rcases stream.push_eq chunk with ⟨heq, -⟩ | ⟨heq, -⟩ <;> rw [heq]

end Stream

namespace Mux

variable {m m' m'' : Mux} {size : Nat} {got got' out out' : List Frame}

/-! ### Balanced counters -/

/-- The counters of streams are right. -/
structure Balanced (m : Mux) : Prop where
  held : m.counters.opened + m.counters.accepted = m.handles.length
  closed : m.counters.closed = m.registry.endings.count (some .closed)
  reset : m.counters.reset = m.registry.endings.count (some .reset)

/-- What an operation that applies the frames `got` and passes the frames `out` on does to the
counters; `size` is the number of bytes that it is given to send. -/
structure Accounts (m : Mux) (size : Nat) (got out : List Frame) (m' : Mux) : Prop where
  framesIn : m'.counters.framesIn = m.counters.framesIn + got.length
  framesOut : m'.counters.framesOut = m.counters.framesOut + out.length
  bytesIn : m'.counters.bytesIn = m.counters.bytesIn + Frame.payloadBytes got
  bytesOut : m'.counters.bytesOut = m.counters.bytesOut + Frame.payloadBytes out
  overhead : m'.counters.overhead =
    m.counters.overhead + Frame.overheadBytes got + Frame.overheadBytes out
  written : m'.written = m.written ++ out.map Frame.wire
  fits : size < 2 ^ 64 → ∀ frame ∈ out, frame.Fits
  balanced : m.Balanced → m'.Balanced

namespace Accounts

theorem trans (h : m.Accounts size got out m') (h' : m'.Accounts size got' out' m'') :
    m.Accounts size (got ++ got') (out ++ out') m'' where
  framesIn := by rw [h'.framesIn, h.framesIn, List.length_append, Nat.add_assoc]
  framesOut := by rw [h'.framesOut, h.framesOut, List.length_append, Nat.add_assoc]
  bytesIn := by rw [h'.bytesIn, h.bytesIn, Frame.payloadBytes_append, Nat.add_assoc]
  bytesOut := by rw [h'.bytesOut, h.bytesOut, Frame.payloadBytes_append, Nat.add_assoc]
  overhead := by
    rw [h'.overhead, h.overhead, Frame.overheadBytes_append, Frame.overheadBytes_append]
    omega
  written := by rw [h'.written, h.written, List.map_append, List.append_assoc]
  fits hsize frame hmem :=
    (List.mem_append.mp hmem).elim (h.fits hsize frame) (h'.fits hsize frame)
  balanced hbalanced := h'.balanced (h.balanced hbalanced)

theorem trans_nil (h : m.Accounts size got out m') (h' : m'.Accounts size [] [] m'') :
    m.Accounts size got out m'' := by
  simpa using h.trans h'

theorem nil_trans (h : m.Accounts size [] [] m') (h' : m'.Accounts size got out m'') :
    m.Accounts size got out m'' := by
  simpa using h.trans h'

theorem of_balanced (counters : m'.counters.framesIn = m.counters.framesIn ∧
      m'.counters.framesOut = m.counters.framesOut ∧ m'.counters.bytesIn = m.counters.bytesIn ∧
      m'.counters.bytesOut = m.counters.bytesOut ∧ m'.counters.overhead = m.counters.overhead)
    (written : m'.written = m.written) (balanced : m.Balanced → m'.Balanced) :
    m.Accounts size [] [] m' := by
  obtain ⟨hin, hout, hbin, hbout, hover⟩ := counters
  exact ⟨hin, hout, hbin, hbout, hover, by simp [written], fun _ _ hmem => by simp at hmem,
    balanced⟩

/-- An operation that counts nothing, and neither ends a stream nor gives out a handle. -/
theorem of_eq (counters : m'.counters = m.counters) (written : m'.written = m.written)
    (handles : m'.handles.length = m.handles.length)
    (endings : m'.registry.endings = m.registry.endings) : m.Accounts size [] [] m' := by
  refine of_balanced ?_ written fun h => ⟨?_, ?_, ?_⟩
  · simp [counters]
  · rw [counters, handles, h.held]
  · rw [counters, endings, h.closed]
  · rw [counters, endings, h.reset]

theorem refl (m : Mux) : m.Accounts size [] [] m := .of_eq rfl rfl rfl rfl

theorem note (m : Mux) (entry : Note) : m.Accounts size [] [] (m.note entry) :=
  .of_eq rfl rfl rfl rfl

theorem trans_note (h : m.Accounts size got out m') (entry : Note) :
    m.Accounts size got out (m'.note entry) :=
  h.trans_nil (.note m' entry)

theorem trans_ignored (h : m.Accounts size got out m') :
    m.Accounts size got out (m'.count (·.bump .ignored)) :=
  h.trans_nil (.of_balanced ⟨rfl, rfl, rfl, rfl, rfl⟩ rfl
    fun hb => ⟨hb.held, hb.closed, hb.reset⟩)

theorem sweep (m : Mux) (id : UInt64) : m.Accounts size [] [] (m.sweep id) :=
  .of_eq rfl rfl rfl (Registry.endings_sweep ..)

theorem remove (m : Mux) (id : UInt64) :
    m.Accounts size [] [] { m with registry := m.registry.remove id } :=
  .of_eq rfl rfl rfl rfl

/-- A stream is put in place of one that was ended in the same way. -/
theorem update {serial : Nat} {stream : Stream} (m : Mux)
    (h : stream.ending = (m.registry.stream serial).ending) :
    m.Accounts size [] [] (m.update serial stream) :=
  .of_eq rfl rfl rfl (Registry.endings_update_of_eq h)

theorem create {ids : Ids} {pending : List UInt64} (m : Mux) (stream : Stream)
    (h : stream.ending = none) :
    m.Accounts size [] [] { m with
      ids, registry := { (m.registry.create stream).1 with pending } } := by
  refine of_balanced ⟨rfl, rfl, rfl, rfl, rfl⟩ rfl fun hb => ⟨hb.held, ?_, ?_⟩
  · change m.counters.closed = (m.registry.create stream).1.endings.count _
    rw [Registry.endings_create, h, hb.closed]
    simp
  · change m.counters.reset = (m.registry.create stream).1.endings.count _
    rw [Registry.endings_create, h, hb.reset]
    simp

end Accounts

/-! ### The link -/

theorem accounts_shut (m : Mux) : m.Accounts size [] [] m.shut.1 := by
  unfold shut
  simp only
  have hclosed : m.Accounts size [] [] (if m.link.isClosed m.side then m else
      { m with link := m.link.close m.side }.note (.linkClosed m.side)) := by
    split
    · exact .refl m
    · exact .of_eq rfl rfl rfl rfl
  split
  · exact hclosed.trans_nil (.of_eq rfl rfl rfl rfl)
  · exact hclosed

theorem accounts_tearDown (m : Mux) (cause : Cause) :
    m.Accounts size [] [] (m.tearDown cause) := by
  unfold tearDown
  split
  · exact .refl m
  · have hmarked : m.Accounts size [] []
        ({ m with tornDown := true }.note (.tearingDown cause)) := .of_eq rfl rfl rfl rfl
    have hshut := hmarked.trans_nil (accounts_shut _)
    have hsever : ∀ after : Mux, after.Accounts size [] []
        ({ after with registry := after.registry.sever.1 }.note
          (.severed after.registry.sever.2)) :=
      fun after => .of_eq rfl rfl rfl (Registry.endings_sever _)
    simp only
    generalize ({ m with tornDown := true }.note (.tearingDown cause)).shut = result at hshut ⊢
    obtain ⟨shut, fault | _⟩ := result
    · exact (hshut.trans_note _).trans_nil (hsever _)
    · exact hshut.trans_nil (hsever _)

/-! ### Sending -/

/-- A chunk that the link refuses changes nothing that is counted. -/
theorem accounts_transmit (m : Mux) (chunk : Bytes) :
    (∃ refusing fault, m.transmit chunk = (refusing, .error fault) ∧
      m.Accounts size [] [] refusing) ∨
    (∃ link, m.transmit chunk = ({ m with link, written := m.written ++ [chunk] }, .ok ())) := by
  unfold transmit
  split
  · exact Or.inl ⟨_, _, rfl, .of_eq rfl rfl rfl rfl⟩
  · split
    · exact Or.inl ⟨_, _, rfl, .refl m⟩
    · exact Or.inr ⟨_, rfl⟩

/-- A frame is counted and on record exactly if sending it succeeds. -/
theorem accounts_send (m : Mux) (frame : Frame) :
    (∃ bytes, (m.send frame).2 = .ok bytes ∧
      m.Accounts frame.payload.length [] [frame] (m.send frame).1) ∨
    (∃ fault, (m.send frame).2 = .error fault ∧
      m.Accounts frame.payload.length [] [] (m.send frame).1) := by
  unfold send
  split
  · exact Or.inr ⟨_, rfl, .refl m⟩
  · rename_i bytes hencode
    have hfits := Frame.fits_of_encode hencode
    obtain rfl := Frame.eq_wire_of_encode hencode
    split
    · exact Or.inr ⟨_, rfl, .refl m⟩
    · rcases m.accounts_transmit frame.wire with
        ⟨refusing, fault, heq, hrefusing⟩ | ⟨link, heq⟩
      · rw [heq]
        exact Or.inr ⟨_, rfl, (hrefusing.trans_note _).trans_nil (accounts_tearDown ..)⟩
      · rw [heq]
        refine Or.inl ⟨_, rfl, rfl, rfl, rfl, ?_, ?_, ?_, ?_, ?_⟩
        · simp [note, count, Counters.frameOut]
        · simp [note, count, Counters.frameOut, Frame.length_wire]
        · simp [note, count]
        · intro hlength sent hsent
          obtain rfl := List.mem_singleton.mp hsent
          exact hfits hlength
        · exact fun hb => ⟨hb.held, hb.closed, hb.reset⟩

theorem accounts_send_some (m : Mux) (frame : Frame) :
    ∃ out, m.Accounts frame.payload.length [] out (m.send frame).1 := by
  rcases m.accounts_send frame with ⟨-, -, h⟩ | ⟨-, -, h⟩ <;> exact ⟨_, h⟩

end Mux

end StreamMux
