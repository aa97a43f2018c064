import StreamMux.Proofs.Network.Pipeline
import StreamMux.Proofs.Session.Queues
import StreamMux.Proofs.Wire.Shortest

/-!
# The bytes that a session counts

A session counts every frame with the bytes of its shortest form, whichever way it goes.  What it
sends is in this form.  What comes in need not be, so that the counters may fall short of the bytes
that were taken off the link.

* `Mux.takesOff`, `Mux.padding` — the bytes that a frame is applied from, and how many of them its
  shortest form does without;
* `Mux.booked_iff_shortest` — the counters of bytes after every run, and when they are exact.
-/

namespace StreamMux

/-- All bytes of all frames, in both directions. -/
def Counters.bytes (c : Counters) : Nat := c.bytesIn + c.bytesOut + c.overhead

theorem Frame.payloadBytes_add_overheadBytes (frames : List Frame) :
    payloadBytes frames + overheadBytes frames = (frames.flatMap wire).length := by
  induction frames with
  | nil => rfl
  | cons frame others ih =>
    have hwire : frame.payload.length + frame.overhead = frame.wire.length := by
      rw [length_wire, overhead, wireSize]
      omega
    rw [payloadBytes, overheadBytes] at ih ⊢
    simp only [List.map_cons, List.sum_cons, List.flatMap_cons, List.length_append]
    omega

namespace Mux

variable {m m' : Mux} {side : Side} {settings : Settings}

/-! ### Bytes of one operation -/

/-- The bytes that an operation takes off what came in, with the frame that it applies. -/
def takesOff (m : Mux) (op : Op) : Bytes :=
  match op, m.upcoming? with
  | .turn, some _ =>
    m.assembler.buffer.take (m.assembler.buffered - (m.perform .turn).1.assembler.buffered)
  | _, _ => []

/-- The number of these that the frame does without in its shortest form. -/
def padding (m : Mux) (op : Op) : Nat :=
  (m.takesOff op).length - ((m.applies op).flatMap Frame.wire).length

theorem applies_of_ne_turn {op : Op} (h : op ≠ .turn) : m.applies op = [] := by
  cases op <;> first | rfl | exact absurd rfl h

/-- A frame is applied from the front of what came in, and from no fewer bytes than it takes. -/
theorem takesOff_cases (m : Mux) (op : Op) :
    (m.applies op = [] ∧ m.takesOff op = []) ∨
    ∃ frame, m.applies op = [frame] ∧
      m.assembler.buffer = m.takesOff op ++ (m.perform op).1.assembler.buffer ∧
      frame.wireSize ≤ (m.takesOff op).length ∧
      ((m.takesOff op).length = frame.wireSize → m.takesOff op = frame.wire) := by
  by_cases hop : op = .turn
  · subst hop
    rcases hturn : m.turn with _ | after
    · have hnone := upcoming?_of_turn_eq_none hturn
      exact Or.inl ⟨by simp [applies, hnone], by simp [takesOff, hnone]⟩
    · rcases @turn_cases m after 0 hturn with ⟨frame, rest, hupcoming, hcut, heq⟩ | ⟨hnone, -⟩
      · obtain ⟨taken, hbuffer, hsize, hshortest⟩ := Frame.taken_of_cut hcut
        obtain ⟨out, l, -, hleads⟩ := receives { m with assembler := ⟨rest⟩, loop := .ready } frame
        have hrest : (m.perform .turn).1.assembler.buffer = rest := by
          simp only [perform, hturn, Option.getD_some, heq]
          exact congrArg Assembler.buffer hleads.passes.assembler
        have htakes : m.takesOff .turn = taken := by
          simp [takesOff, hupcoming, Assembler.buffered, hrest, hbuffer]
        refine Or.inr ⟨frame, by simp [applies, hupcoming], ?_⟩
        rw [htakes, hrest]
        exact ⟨hbuffer, hsize, hshortest⟩
      · exact Or.inl ⟨by simp [applies, hnone], by simp [takesOff, hnone]⟩
  · refine Or.inl ⟨applies_of_ne_turn hop, ?_⟩
    cases op <;> first | rfl | exact absurd rfl hop

theorem length_takesOff (m : Mux) (op : Op) : (m.takesOff op).length =
    ((m.applies op).flatMap Frame.wire).length + m.padding op := by
  unfold padding
  rcases m.takesOff_cases op with ⟨happlies, htakes⟩ | ⟨frame, happlies, -, hsize, -⟩
  · simp [happlies, htakes]
  · rw [happlies, List.flatMap_singleton, Frame.length_wire]
    omega

/-- There is no padding exactly if the frame comes in its shortest form. -/
theorem padding_eq_zero_iff (m : Mux) (op : Op) :
    m.padding op = 0 ↔ m.takesOff op = (m.applies op).flatMap Frame.wire := by
  have hlength := m.length_takesOff op
  constructor
  · intro hzero
    rcases m.takesOff_cases op with ⟨happlies, htakes⟩ | ⟨frame, happlies, -, -, hshortest⟩
    · simp [happlies, htakes]
    · rw [happlies, List.flatMap_singleton] at hlength ⊢
      rw [Frame.length_wire, hzero] at hlength
      exact hshortest hlength
  · intro htakes
    rw [htakes] at hlength
    omega

/-- Whatever is done, the counters fall behind the bytes by the padding. -/
theorem bytes_perform (m : Mux) (op : Op) :
    (m.perform op).1.counters.bytes + m.padding op + m.written.flatten.length =
      m.counters.bytes + (m.takesOff op).length + (m.perform op).1.written.flatten.length := by
  obtain ⟨out, haccounts⟩ := m.accounts_perform op
  have hgot := Frame.payloadBytes_add_overheadBytes (m.applies op)
  have hout := Frame.payloadBytes_add_overheadBytes out
  have hwritten : (m.perform op).1.written.flatten.length =
      m.written.flatten.length + (out.flatMap Frame.wire).length := by
    rw [haccounts.written, List.flatten_append, List.length_append, List.flatMap_def]
  rw [hwritten, length_takesOff, Counters.bytes, Counters.bytes, haccounts.bytesIn,
    haccounts.bytesOut, haccounts.overhead]
  omega

/-! ### Runs -/

/-- The frames that were applied meanwhile. -/
def applied (m : Mux) (ops : List Op) : List Frame :=
  (m.trail ops).flatMap fun step => step.1.applies step.2

/-- The bytes that they were applied from. -/
def consumed (m : Mux) (ops : List Op) : Bytes :=
  (m.trail ops).flatMap fun step => step.1.takesOff step.2

/-- The number of these that the frames do without in their shortest form. -/
def padded (m : Mux) (ops : List Op) : Nat :=
  ((m.trail ops).map fun step => step.1.padding step.2).sum

theorem bytes_runFrom (m : Mux) (ops : List Op) :
    (m.runFrom ops).counters.bytes + m.padded ops + m.written.flatten.length =
      m.counters.bytes + (m.consumed ops).length + (m.runFrom ops).written.flatten.length := by
  induction ops generalizing m with
  | nil => simp [padded, consumed, trail]
  | cons op ops ih =>
    have hstep := m.bytes_perform op
    have hrest := ih (m.perform op).1
    simp only [padded, consumed, trail, List.map_cons, List.sum_cons, List.flatMap_cons,
      List.length_append, runFrom_cons] at hrest ⊢
    omega

theorem reckons_runFrom {got sent : List Frame} {ops : List Op} (h : Network.Reckons m got sent)
    (hload : ∀ op ∈ ops, op.load < 2 ^ 64) :
    ∃ sent', Network.Reckons (m.runFrom ops) (got ++ m.applied ops) sent' := by
  induction ops generalizing m got sent with
  | nil => exact ⟨sent, by simpa [applied, trail] using h⟩
  | cons op ops ih =>
    obtain ⟨out, haccounts⟩ := m.accounts_perform op
    have hstep := h.accounts (hload op (by simp)) haccounts
    obtain ⟨sent', hrest⟩ := ih hstep fun other hmem => hload other (List.mem_cons_of_mem _ hmem)
    refine ⟨sent', ?_⟩
    rw [List.append_assoc] at hrest
    exact hrest

/-- Nothing was padded exactly if every frame came in its shortest form. -/
theorem padded_eq_zero_iff (m : Mux) (ops : List Op) :
    m.padded ops = 0 ↔ ∀ step ∈ m.trail ops,
      step.1.takesOff step.2 = (step.1.applies step.2).flatMap Frame.wire := by
  rw [padded, List.sum_eq_zero_iff_forall_eq_nat]
  simp only [List.mem_map, forall_exists_index, and_imp, forall_apply_eq_imp_iff₂,
    padding_eq_zero_iff]

/-- **The counters of bytes.**  After every run the counters of payload bytes are right in both
directions.  All bytes that were counted, with the padding of the frames that were applied, are the
bytes that were written and those that the frames were applied from; so the counters are exact if
and only if every frame came in its shortest form. -/
theorem booked_iff_shortest (side : Side) (settings : Settings) (ops : List Op)
    (hload : ∀ op ∈ ops, op.load < 2 ^ 64) :
    (run side settings ops).counters.bytesIn =
        Frame.payloadBytes ((start side settings).applied ops) ∧
      (run side settings ops).counters.bytesOut =
        Frame.payloadBytes (run side settings ops).sent ∧
      (run side settings ops).counters.bytes + (start side settings).padded ops =
        (run side settings ops).written.flatten.length +
          ((start side settings).consumed ops).length ∧
      ((run side settings ops).counters.bytes = (run side settings ops).written.flatten.length +
          ((start side settings).consumed ops).length ↔
        ∀ step ∈ (start side settings).trail ops,
          step.1.takesOff step.2 = (step.1.applies step.2).flatMap Frame.wire) := by
  have hstart : Network.Reckons (start side settings) [] [] := ⟨rfl, by simp, rfl, rfl, rfl, rfl⟩
  obtain ⟨sent, hreckons⟩ := reckons_runFrom hstart hload
  rw [List.nil_append] at hreckons
  have hbytes : (run side settings ops).counters.bytes + (start side settings).padded ops =
      (run side settings ops).written.flatten.length +
        ((start side settings).consumed ops).length := by
    have hrun := (start side settings).bytes_runFrom ops
    rw [show (start side settings).written = [] from rfl,
      show (start side settings).counters.bytes = 0 from rfl] at hrun
    simp only [List.flatten_nil, List.length_nil, Nat.add_zero, Nat.zero_add] at hrun
    rw [Nat.add_comm (List.length _)]
    exact hrun
  refine ⟨hreckons.bytesIn, ?_, hbytes, ?_⟩
  · rw [show (run side settings ops).sent = sent from hreckons.sent_eq]
    exact hreckons.bytesOut
  · rw [← padded_eq_zero_iff]
    omega

/-- The peer announces a stream with a header of two bytes, the second one empty: three bytes are
taken off the link and two are counted. -/
theorem not_booked_with_padding :
    (run .listener .usual [.arrive [0x80, 0x00, 0x00], .turn, .turn, .turn]).counters =
        { framesIn := 1, overhead := 2, accepted := 1 } ∧
      (start .listener .usual).consumed [.arrive [0x80, 0x00, 0x00], .turn, .turn, .turn] =
        [0x80, 0x00, 0x00] ∧
      (start .listener .usual).padded [.arrive [0x80, 0x00, 0x00], .turn, .turn, .turn] = 1 := by
  have hload : ∀ op ∈ [Op.arrive [0x80, 0x00, 0x00], .turn, .turn, .turn], op.load < 2 ^ 64 := by
    simp [Op.load]
  have hcounters : (run .listener .usual
      [.arrive [0x80, 0x00, 0x00], .turn, .turn, .turn]).counters =
        { framesIn := 1, overhead := 2, accepted := 1 } := by decide +kernel
  have hconsumed : (start .listener .usual).consumed
      [.arrive [0x80, 0x00, 0x00], .turn, .turn, .turn] = [0x80, 0x00, 0x00] := by decide +kernel
  have hwritten : (run .listener .usual
      [.arrive [0x80, 0x00, 0x00], .turn, .turn, .turn]).written = [] := by decide +kernel
  have hbooked := (booked_iff_shortest .listener .usual _ hload).2.2.1
  rw [hcounters, hconsumed, hwritten] at hbooked
  refine ⟨hcounters, hconsumed, ?_⟩
  simp [Counters.bytes] at hbooked
  omega

end Mux

end StreamMux
