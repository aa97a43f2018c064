import StreamMux.Proofs.Network.Order

/-!
# The ends of streams

Both sides may end a stream at any time, and neither waits for the other.  Once nothing is on its
way any more, they agree on whether it goes on: an end was sent or applied where it is known
(`Ledger.Candid`), and by then everything sent was applied.

* `Network.ends_agree` — a stream is open at the side that opened it exactly if it is open at the
  side that accepted it.
-/

namespace StreamMux.Network

/-- The connection is there, and nothing is on its way to a side. -/
def Idle (net : Network) (side : Side) : Prop :=
  ∃ m ∈ net.mux? side, m.tornDown = false ∧ m.assembler.buffer = [] ∧
    (m.link.ends.get side).pending = []

variable {settings : Both Settings} {steps : List (Side × Use)} {side : Side}

theorem streamAt?_of_serials {net : Network} {m : Mux} {place serial : Nat}
    (hm : net.mux? side = some m) (h : m.ledger.serials[place]? = some serial) :
    net.streamAt? side place = some (m.ledger.stream serial) := by
  obtain ⟨handle, hplace, rfl⟩ := Ledger.getElem?_of_serials h
  have hplace : m.handles[place]? = some handle := hplace
  simp only [streamAt?, hm, hplace, Option.bind_eq_bind, Option.bind_some]
  rfl

/-! ### What one side knows, the other knows -/

section Agreement

variable {histories : Both History} {flights : Both (List Frame)}

theorem Stands.flight_eq_nil_of_idle {m : Mux} {h : History} {flight : List Frame} {net : Network}
    (hm : Stands net side h flight m) (hidle : net.Idle side) :
    m.tornDown = false ∧ flight = [] := by
  obtain ⟨m', hm', hup, hbuffer, hpending⟩ := hidle
  obtain rfl := Option.some.inj (hm.mux.symm.trans hm')
  exact ⟨hup, flight_eq_nil hm.carries hbuffer (by rw [hm.here]; exact hpending)⟩

variable (j : Joined settings steps histories flights) (hquiet : ∀ s, flights.get s = [])

include j hquiet

theorem sent_eq_got {far : Side} (hfar : far = side.other) :
    (histories.get far).sent = (histories.get side).got := by
  rw [hfar, j.passed side, hquiet, List.append_nil]

theorem isOver_of_isOver {far : Side} (hfar : far = side.other) {m n : Mux}
    (hm : Stands (play settings steps).1 side (histories.get side) (flights.get side) m)
    (hn : Stands (play settings steps).1 far (histories.get far) (flights.get far) n)
    (hup : m.tornDown = false) (hup' : n.tornDown = false) {i k : Nat}
    (hi : i ∈ m.ledger.serials) (hk : k ∈ n.ledger.serials)
    (hid : (m.ledger.stream i).id = (n.ledger.stream k).id)
    (hover : (m.ledger.stream i).isOver = true) : (n.ledger.stream k).isOver = true := by
  have hcame := sent_eq_got j hquiet hfar
  have hwent := sent_eq_got j hquiet (show side = far.other by rw [hfar, Side.other_other])
  -- the end was sent to the far side, or it came from there
  have hknown : ∃ other ∈ n.ledger.serials, (n.ledger.stream other).id = (m.ledger.stream i).id ∧
      (n.ledger.stream other).isOver = true := by
    rcases hm.orderly.candid.told hi hover with htorn | hsent | hgot
    · rw [show m.ledger.tornDown = m.tornDown from rfl, hup] at htorn
      cases htorn
    · rw [hwent] at hsent
      refine (hn.orderly.candid.heeded hsent).resolve_left ?_
      simp [Mux.ledger, hup']
    · rw [← hcame] at hgot
      exact hn.orderly.mail.isOver hgot
  obtain ⟨other, hmem, hsame, hother⟩ := hknown
  obtain ⟨q, hq⟩ := List.getElem?_of_mem hmem
  obtain ⟨q', hq'⟩ := List.getElem?_of_mem hk
  obtain rfl := hn.orderly.census.distinct hq hq' (hsame.trans hid)
  cases hq.symm.trans hq'
  exact hother

end Agreement

/-- **No stream stays half open.**  In every run, as soon as both connections are there and nothing
is on its way, the other side has accepted each stream that one side opened, once; and the stream is
open at the one exactly if it is open at the other. -/
theorem ends_agree (settings : Both Settings) (steps : List (Side × Use)) (side : Side) {p : Nat}
    {source : Stream} (hidle : ∀ s, (play settings steps).1.Idle s)
    (hsource : (play settings steps).1.streamAt? side p = some source)
    (hrole : source.role = .opener) :
    ∃ q sink, (play settings steps).1.streamAt? side.other q = some sink ∧ sink.id = source.id ∧
      sink.role = .acceptor ∧ (source.state = .live ↔ sink.state = .live) ∧
      ∀ q' sink', (play settings steps).1.streamAt? side.other q' = some sink' →
        sink'.id = source.id → q' = q := by
  obtain ⟨histories, flights, j⟩ := joined settings steps
  obtain ⟨m, hm⟩ := j.stands side
  obtain ⟨n, hn⟩ := j.stands side.other
  have hquiet : ∀ s, flights.get s = [] := fun s => by
    obtain ⟨o, ho⟩ := j.stands s
    exact (ho.flight_eq_nil_of_idle (hidle s)).2
  obtain ⟨hup, -⟩ := hm.flight_eq_nil_of_idle (hidle side)
  obtain ⟨hup', -⟩ := hn.flight_eq_nil_of_idle (hidle side.other)
  obtain ⟨i, hp, rfl⟩ := streamAt?_eq hm.mux hsource
  have hi := List.mem_of_getElem? hp
  -- the stream was announced, and so it was accepted
  have hannounced := hm.orderly.mail.opener hi hrole
  rw [sent_eq_got j hquiet side.other_other.symm] at hannounced
  obtain ⟨k, hk, hid⟩ := (hn.orderly.census.welcomed hannounced).resolve_left
    (by simp [Mux.ledger, hup'])
  obtain ⟨q, hq⟩ := List.getElem?_of_mem hk
  refine ⟨q, _, streamAt?_of_serials hn.mux hq, hid, ?_, ?_, ?_⟩
  · apply hn.role_eq_acceptor hk
    rw [Side.other_other, hid]
    exact (hm.role_iff hi).mp hrole
  · have hagree : (m.ledger.stream i).isOver = true ↔ (n.ledger.stream k).isOver = true :=
      ⟨isOver_of_isOver j hquiet rfl hm hn hup hup' hi hk hid.symm,
        isOver_of_isOver j hquiet side.other_other.symm hn hm hup' hup hk hi hid⟩
    rw [Stream.state_eq_live_iff, Stream.state_eq_live_iff, ← Bool.not_eq_true,
      ← Bool.not_eq_true, hagree]
  · intro q' sink' hsink' hid'
    obtain ⟨k', hq', rfl⟩ := streamAt?_eq hn.mux hsink'
    exact hn.orderly.census.distinct hq' hq (hid'.trans hid.symm)

/-- A stream is opened and accepted; then it is closed at the one side and reset at the other before
either hears of it. -/
def crossed : List (Side × Use) :=
  [(.dialer, .openStream none)] ++ List.replicate 4 (.listener, .turn) ++
    [(.dialer, .finish 0 .closed), (.listener, .finish 0 .reset)] ++
    List.replicate 4 (.listener, .turn) ++ List.replicate 4 (.dialer, .turn)

theorem crossed_agrees :
    (∀ s, (play ⟨.usual, .usual⟩ crossed).1.Idle s) ∧
      (play ⟨.usual, .usual⟩ crossed).1.streamAt? .dialer 0 =
        some { Stream.start 0 .opener 1024 with ending := some .closed } ∧
      ∃ q sink, (play ⟨.usual, .usual⟩ crossed).1.streamAt? .listener q = some sink ∧
        sink.id = 0 ∧ sink.state ≠ .live := by
  have hidle : ∀ s, (play ⟨.usual, .usual⟩ crossed).1.Idle s := by
    intro s
    unfold Idle
    cases s <;> decide +kernel
  have hsource : (play ⟨.usual, .usual⟩ crossed).1.streamAt? .dialer 0 =
      some { Stream.start 0 .opener 1024 with ending := some .closed } := by decide +kernel
  refine ⟨hidle, hsource, ?_⟩
  obtain ⟨q, sink, hsink, hid, -, hagree, -⟩ :=
    ends_agree ⟨.usual, .usual⟩ crossed .dialer hidle hsource rfl
  exact ⟨q, sink, hsink, hid, fun hlive => by cases hagree.mpr hlive⟩

end StreamMux.Network
