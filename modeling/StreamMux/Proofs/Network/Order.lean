import StreamMux.Proofs.Network.Joined

/-!
# The order of data

* `Network.order_kept` — what came in for a stream is a prefix of what was written to it at the
  other side, and all of it unless the reading side had a reason not to take it in.
-/

namespace StreamMux.Network

/-- The stream behind the handle at a place. -/
def streamAt? (net : Network) (side : Side) (place : Nat) : Option Stream := do
  let m ← net.mux? side
  let handle ← m.handles[place]?
  some (m.registry.stream handle.serial)

/-- Nothing kept a side from taking in all data of a stream: the connection is there, everything on
its way to the side was applied, and the queue of the stream was never found full. -/
def TookAll (net : Network) (side : Side) (id : UInt64) : Prop :=
  ∃ m ∈ net.mux? side, m.tornDown = false ∧ m.assembler.buffer = [] ∧
    (m.link.ends.get side).pending = [] ∧ ∀ note ∈ m.notes, note.overflow? ≠ some id

variable {settings : Both Settings} {steps : List (Side × Use)} {side : Side} {place : Nat}

theorem streamAt?_eq {net : Network} {m : Mux} {stream : Stream} (hm : net.mux? side = some m)
    (h : net.streamAt? side place = some stream) :
    ∃ i, m.ledger.serials[place]? = some i ∧ m.ledger.stream i = stream := by
  simp only [streamAt?, hm, Option.bind_eq_bind, Option.bind_some] at h
  obtain ⟨handle, hplace, heq⟩ := Option.bind_eq_some_iff.mp h
  exact ⟨handle.serial, Ledger.getElem?_serials hplace, Option.some.inj heq⟩

/-- Nothing is on its way once there is nothing on the link and nothing in the assembler. -/
theorem flight_eq_nil {m : Mux} {flight : List Frame} (hcarries : Carries m flight)
    (hbuffer : m.assembler.buffer = []) (hpending : (m.link.ends.get m.side).pending = []) :
    flight = [] := by
  unfold Carries at hcarries
  rw [hbuffer, hpending] at hcarries
  cases flight with
  | nil => rfl
  | cons frame others =>
    rw [List.flatMap_cons] at hcarries
    exact absurd (List.append_eq_nil_iff.mp hcarries.symm).1 frame.wire_ne_nil

/-- **Streams keep the order.**  In every run, for the handles of one stream at both sides, what was
read through the one, followed by what still waits there, is a prefix of the data written through
the other; it is all of it if everything was taken in and the stream was not ended at the reading
side, neither through a handle nor for want of a handler. -/
theorem order_kept (settings : Both Settings) (steps : List (Side × Use)) (reader : Side)
    {p q : Nat} {source sink : Stream}
    (hsource : (play settings steps).1.streamAt? reader.other p = some source)
    (hsink : (play settings steps).1.streamAt? reader q = some sink)
    (hid : source.id = sink.id) :
    taken (play settings steps).2 reader q ++ sink.queue <+:
        (written (play settings steps).2 reader.other p).filter (· ≠ []) ∧
      ((play settings steps).1.TookAll reader sink.id → ¬ EndedThrough settings steps reader q →
        ¬ Unstarted settings steps reader q →
        taken (play settings steps).2 reader q ++ sink.queue =
          (written (play settings steps).2 reader.other p).filter (· ≠ [])) := by
  obtain ⟨histories, flights, j⟩ := joined settings steps
  obtain ⟨m, hm⟩ := j.stands reader
  obtain ⟨n, hn⟩ := j.stands reader.other
  obtain ⟨k, hp, rfl⟩ := streamAt?_eq hn.mux hsource
  obtain ⟨i, hq, rfl⟩ := streamAt?_eq hm.mux hsink
  -- what was written was sent, and what was sent came in or is on its way
  have hsent : (written (play settings steps).2 reader.other p).filter (· ≠ []) =
      dataFor (m.ledger.stream i).id (histories.get reader).got ++
        dataFor (m.ledger.stream i).id (flights.get reader) := by
    rw [← j.wrote, ← hn.orderly.mail.wrote hp, hid, j.passed reader, dataFor_append]
  obtain ⟨hfront, hall⟩ := hm.orderly.mail.arrived hq
  rw [j.took] at hfront hall
  constructor
  · rw [hsent]
    exact hfront.trans (List.prefix_append _ _)
  · intro htook hgoing hstarted
    obtain ⟨m', hm', hup, hbuffer, hpending, hroom⟩ := htook
    obtain rfl := Option.some.inj (hm.mux.symm.trans hm')
    have hflight : flights.get reader = [] :=
      flight_eq_nil hm.carries hbuffer (by rw [hm.here]; exact hpending)
    rw [hsent, hflight, show dataFor (m.ledger.stream i).id [] = [] from rfl, List.append_nil]
    apply hall.resolve_right
    rintro ⟨-, htorn | hended | hfull⟩
    · rw [show m.ledger.tornDown = m.tornDown from rfl, hup] at htorn
      cases htorn
    · exact (j.ended reader q hended).elim hgoing hstarted
    · obtain ⟨note, hnote, heq⟩ := List.mem_filterMap.mp hfull
      exact hroom note hnote heq

/-- A stream is opened, data is written to it, then none, and data again, and the first is read. -/
def talk : List (Side × Use) :=
  [(.dialer, .openStream none), (.dialer, .write 0 ⟨[1, 2], by decide⟩),
    (.dialer, .write 0 ⟨[], by decide⟩), (.dialer, .write 0 ⟨[3], by decide⟩)] ++
    List.replicate 20 (.listener, .turn) ++ [(.listener, .read 0)]

theorem talk_keeps_all :
    (play ⟨.usual, .usual⟩ talk).1.TookAll .listener 0 ∧
      ¬ EndedThrough ⟨.usual, .usual⟩ talk .listener 0 ∧
      ¬ Unstarted ⟨.usual, .usual⟩ talk .listener 0 ∧
      taken (play ⟨.usual, .usual⟩ talk).2 .listener 0 = [[1, 2]] ∧
      taken (play ⟨.usual, .usual⟩ talk).2 .listener 0 ++ [[3]] =
        (written (play ⟨.usual, .usual⟩ talk).2 .dialer 0).filter (· ≠ []) := by
  have hsource : (play ⟨.usual, .usual⟩ talk).1.streamAt? Side.listener.other 0 =
      some (.start 0 .opener 1024) := by decide +kernel
  have hsink : (play ⟨.usual, .usual⟩ talk).1.streamAt? .listener 0 =
      some { Stream.start 0 .acceptor 1024 with queue := [[3]] } := by decide +kernel
  have htook : (play ⟨.usual, .usual⟩ talk).1.TookAll .listener 0 := by
    unfold TookAll
    decide +kernel
  have hgoing : ¬ EndedThrough ⟨.usual, .usual⟩ talk .listener 0 := by
    rintro ⟨before, ending, after, heq, -⟩
    have hmem : (Side.listener, Use.finish 0 ending) ∈ talk := heq ▸ by simp
    simp [talk] at hmem
  have hstarted : ¬ Unstarted ⟨.usual, .usual⟩ talk .listener 0 :=
    not_unstarted (by simp [talk]) 0
  refine ⟨htook, hgoing, hstarted, by decide +kernel, ?_⟩
  exact (order_kept ⟨.usual, .usual⟩ talk .listener hsource hsink rfl).2 htook hgoing hstarted

end StreamMux.Network
