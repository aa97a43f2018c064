import StreamMux.Proofs.Session.Passage

/-!
# The outcomes of each operation

For each operation that users of streams perform its outcomes, one constructor each: what it
answers, which frames it passes on (`Mux.Passes`) and what becomes of the ledger.  Whoever needs to
know what such an operation can do goes through the cases of `Mux.Opens`, `Mux.Writes`,
`Mux.Terminates` and `Mux.Reads`, and never opens the operation.
-/

namespace StreamMux

namespace Stream

/-- The frame that carries data of a stream. -/
def parcel (stream : Stream) (data : Bytes) : Frame :=
  .ofKind stream.id stream.role.messageKind data

/-- The frame that tells the peer of the end of a stream. -/
def farewell (stream : Stream) (ending : Ending) : Frame :=
  .ofKind stream.id (stream.role.endingKind ending) []

end Stream

namespace Registry

theorem sweep_sever (registry : Registry) (id : UInt64) :
    (registry.sever.1.sweep id).1 = registry.sever.1 := by
  rcases registry.sever.1.sweep_eq id with ⟨-, serial, hfind, -⟩ | ⟨heq, -⟩
  · simp at hfind
  · exact heq

theorem remove_sever (registry : Registry) (id : UInt64) :
    registry.sever.1.remove id = registry.sever.1 := by
  have hentries := registry.entries_sever
  have hpending := registry.pending_sever
  revert hentries hpending
  generalize registry.sever.1 = severed
  intro hentries hpending
  obtain ⟨streams, entries, pending⟩ := severed
  simp only at hentries hpending
  subst hentries hpending
  rfl

end Registry

namespace Mux

variable {m m' : Mux}

/-! ### Ending a stream -/

/-- The outcomes of ending a stream from this side. -/
inductive Terminates (m : Mux) (serial : Nat) (ending : Ending) : Mux × Except Fault Unit → Prop
    where
  | idle (result : Except Fault Unit) (isOver : (m.ledger.stream serial).isOver = true) :
      Terminates m serial ending (m, result)
  | told {m' : Mux} (live : (m.ledger.stream serial).isOver = false) (up : m.isClosed = false)
      (passes : m.Passes [(m.ledger.stream serial).farewell ending] m')
      (ledger : m'.ledger =
        (m.ledger.finish serial ending).sweep (m.ledger.stream serial).id) :
      Terminates m serial ending (m', .ok ())
  /-- It ends, and nobody can be told. -/
  | untold {m' : Mux} (fault : Fault) (live : (m.ledger.stream serial).isOver = false)
      (why : m.isClosed = true ∨
        ∃ fault, ((m.ledger.stream serial).farewell ending).encode = .error fault)
      (passes : m.Passes [] m')
      (ledger : m'.ledger =
        (m.ledger.finish serial ending).sweep (m.ledger.stream serial).id) :
      Terminates m serial ending (m', .error fault)
  /-- It ends, and telling the peer fails. -/
  | torn {m' : Mux} (fault : LinkFault) (live : (m.ledger.stream serial).isOver = false)
      (up : m.isClosed = false) (passes : m.Passes [] m')
      (ledger : m'.ledger = (m.ledger.finish serial ending).tear) :
      Terminates m serial ending (m', .error (.link fault))

/-- The state between the end of a stream and telling the peer. -/
def ended (m : Mux) (serial : Nat) (ending : Ending) : Mux :=
  ((m.update serial { m.registry.stream serial with ending := some ending }).countEnding
    ending).note (.endedHere (m.registry.stream serial).id ending)

theorem ledger_ended (m : Mux) (serial : Nat) (ending : Ending) :
    (m.ended serial ending).ledger = m.ledger.finish serial ending := by
  rw [ended, ledger_note _ _ rfl, ledger_countEnding]
  rfl

theorem passes_ended (m : Mux) (serial : Nat) (ending : Ending) :
    m.Passes [] (m.ended serial ending) := by
  have hupdate : m.Passes [] (m.update serial { m.registry.stream serial with
      ending := some ending }) := .of_eq rfl rfl rfl rfl rfl rfl rfl rfl
  exact hupdate.trans_nil ((Passes.countEnding _ ending).trans_nil (Passes.note ..))

theorem isClosed_ended (m : Mux) (serial : Nat) (ending : Ending) :
    (m.ended serial ending).isClosed = m.isClosed := by
  cases ending <;> rfl

theorem terminate_of_live {serial : Nat} (h : (m.registry.stream serial).isOver = false)
    (ending : Ending) : m.terminate serial ending =
      let sent := (m.ended serial ending).send ((m.registry.stream serial).farewell ending)
      (sent.1.sweep (m.registry.stream serial).id, sent.2.map fun _ => ()) := by
  unfold terminate ended Stream.farewell
  generalize m.registry.stream serial = stream at h ⊢
  simp only [Stream.terminate_eq h]
  rw [if_neg (by simp [Stream.severed_eq_false h])]

theorem terminates (m : Mux) (serial : Nat) (ending : Ending) :
    m.Terminates serial ending (m.terminate serial ending) := by
  by_cases hover : (m.registry.stream serial).isOver = true
  · unfold terminate
    simp only
    split
    · exact .idle _ hover
    · rw [Stream.terminate_of_isOver hover]
      exact .idle _ hover
  · have hlive : (m.registry.stream serial).isOver = false := by simpa using hover
    have hpasses := m.passes_ended serial ending
    have hledger := m.ledger_ended serial ending
    have hclosed := m.isClosed_ended serial ending
    have hsends := sends (m.ended serial ending) ((m.registry.stream serial).farewell ending)
    have hsweep : ∀ after : Mux, after.Passes [] (after.sweep (m.registry.stream serial).id) :=
      fun _ => .of_eq rfl rfl rfl rfl rfl rfl rfl rfl
    rw [terminate_of_live hlive]
    simp only
    generalize (m.ended serial ending).send ((m.registry.stream serial).farewell ending) = result
      at hsends ⊢
    cases hsends with
    | refused fault why =>
      refine .untold fault hlive (hclosed ▸ why) (hpasses.trans_nil (hsweep _)) ?_
      rw [← hledger]
      rfl
    | sent size up passes ledger =>
      refine .told hlive (hclosed ▸ up) ((hpasses.nil_trans passes).trans_nil (hsweep _)) ?_
      rw [← hledger, ← ledger]
      rfl
    | @torn after fault up passes ledger =>
      refine .torn fault hlive (hclosed ▸ up) ((hpasses.nil_trans passes).trans_nil (hsweep _)) ?_
      change after.ledger.sweep _ = _
      rw [ledger, hledger]
      simp only [Ledger.sweep, Ledger.tear, Registry.sweep_sever]

theorem Terminates.heeds {serial : Nat} {ending : Ending} {result : Mux × Except Fault Unit}
    (h : m.Terminates serial ending result) : m.Heeds result.1 := by
  cases h with
  | idle result isOver => exact .of_eq rfl
  | told live up passes ledger => exact .of_up up
  | untold fault live why passes ledger => exact .of_eq (congrArg Ledger.tornDown ledger)
  | torn fault live up passes ledger => exact .of_up up

/-! ### Opening a stream -/

/-- The outcomes of opening a stream. -/
inductive Opens (m : Mux) (label : Option String) : Mux × Except Fault Nat → Prop where
  /-- The connection is gone, or there is no number left. -/
  | refused (fault : Fault) : Opens m label (m, .error fault)
  | opened {m' : Mux} {id : UInt64} {ids : Ids} (up : m.isClosed = false)
      (draw : m.ids.draw = .ok (id, ids)) (passes : m.Passes [.ofKind id .newStream []] m')
      (ledger : m'.ledger = (m.ledger.register id ids).hold m.ledger.size label) :
      Opens m label (m', .ok m.handles.length)
  | torn {m' : Mux} {id : UInt64} {ids : Ids} (fault : LinkFault) (up : m.isClosed = false)
      (draw : m.ids.draw = .ok (id, ids)) (passes : m.Passes [] m')
      (ledger : m'.ledger = (m.ledger.register id ids).tear) :
      Opens m label (m', .error (.link fault))

theorem opens (m : Mux) (label : Option String) : m.Opens label (m.openStream label) := by
  unfold openStream
  by_cases hclosed : m.isClosed = true
  · rw [if_pos hclosed]
    exact .refused _
  · have hup : m.isClosed = false := by simpa using hclosed
    rw [if_neg hclosed]
    split
    · exact .refused _
    · rename_i id ids hdraw
      -- the stream is there before its announcement is sent
      obtain ⟨begun, hbegun⟩ : ∃ begun : Mux, begun = { m with
          ids, registry := (m.registry.beginLocal id m.settings.queueLimit).1 } := ⟨_, rfl⟩
      have hpasses : m.Passes [] begun := by
        rw [hbegun]
        exact .of_eq rfl rfl rfl rfl rfl rfl rfl rfl
      have hledger : begun.ledger = m.ledger.register id ids := by
        rw [hbegun]
        rfl
      have hhandles : begun.handles = m.handles := by rw [hbegun]
      have hopen : begun.isClosed = false := by
        rw [hbegun]
        exact hup
      have hfits := (Ledger.draw_eq hdraw).2.1
      have hsends := sends begun (.ofKind id .newStream [])
      simp only
      rw [show (m.registry.beginLocal id m.settings.queueLimit).2 = m.registry.streams.length
        from rfl, ← hbegun]
      generalize begun.send (.ofKind id .newStream []) = result at hsends ⊢
      cases hsends with
      | refused fault why =>
        rcases why with hgone | ⟨fault, hfault⟩
        · rw [hopen] at hgone
          cases hgone
        · rw [Frame.encode_ofKind hfits] at hfault
          cases hfault
      | @sent after size up passes ledger =>
        have hplace : ((after.count (·.bump .opened)).note (.opened id label)).handles.length =
            m.handles.length :=
          congrArg List.length (congrArg Ledger.handles (ledger.trans hledger))
        simp only [hplace]
        refine .opened hup hdraw (hpasses.nil_trans (passes.trans_nil ?_)) ?_
        · exact .of_eq rfl rfl rfl rfl rfl rfl rfl rfl
        · have hnote : ((after.count (·.bump .opened)).note (.opened id label)).ledger =
              m.ledger.register id ids := by
            rw [ledger_note _ _ rfl, ledger_count, ledger, hledger]
          exact congrArg (Ledger.hold · m.registry.streams.length label) hnote
      | @torn after fault up passes ledger =>
        refine .torn fault hup hdraw (hpasses.nil_trans (passes.trans_nil ?_)) ?_
        · exact .of_eq rfl rfl rfl rfl rfl rfl rfl rfl
        · -- teardown has severed the stream, so that taking it back changes nothing more
          change { after.ledger with registry := after.ledger.registry.remove id } = _
          rw [ledger, hledger]
          simp only [Ledger.tear, Registry.remove_sever]

theorem Opens.heeds {label : Option String} {result : Mux × Except Fault Nat}
    (h : m.Opens label result) : m.Heeds result.1 := by
  cases h with
  | refused fault => exact .of_eq rfl
  | opened up draw passes ledger => exact .of_up up
  | torn fault up draw passes ledger => exact .of_up up

/-! ### Writing and reading -/

/-- The outcomes of writing to a stream. -/
inductive Writes (m : Mux) (serial : Nat) (data : Bytes) : Mux × Except Fault Nat → Prop where
  /-- The connection is gone, or the stream is over, or its number has no room in a header. -/
  | refused (fault : Fault) : Writes m serial data (m, .error fault)
  | written {m' : Mux} (size : Nat) (live : (m.ledger.stream serial).isOver = false)
      (up : m.isClosed = false) (passes : m.Passes [(m.ledger.stream serial).parcel data] m')
      (ledger : m'.ledger = m.ledger) : Writes m serial data (m', .ok size)
  | torn {m' : Mux} (fault : LinkFault) (up : m.isClosed = false) (passes : m.Passes [] m')
      (ledger : m'.ledger = m.ledger.tear) : Writes m serial data (m', .error (.link fault))

theorem writes (m : Mux) (serial : Nat) (data : Bytes) :
    m.Writes serial data (m.write serial data) := by
  unfold write
  simp only
  split
  · exact .refused _
  · split
    · rename_i hstate
      have hlive : (m.ledger.stream serial).isOver = false := by
        simp only [Stream.isOver, bne_eq_false_iff_eq]
        exact hstate
      have hsends := sends m ((m.registry.stream serial).parcel data)
      change m.Writes serial data (m.send ((m.registry.stream serial).parcel data))
      generalize m.send ((m.registry.stream serial).parcel data) = result at hsends ⊢
      cases hsends with
      | refused fault why => exact .refused fault
      | sent size up passes ledger => exact .written size hlive up passes ledger
      | torn fault up passes ledger => exact .torn fault up passes ledger
    · exact .refused _
    · exact .refused _

theorem Writes.heeds {serial : Nat} {data : Bytes} {result : Mux × Except Fault Nat}
    (h : m.Writes serial data result) : m.Heeds result.1 := by
  cases h with
  | refused fault => exact .of_eq rfl
  | written size live up passes ledger => exact .of_up up
  | torn fault up passes ledger => exact .of_up up

/-- The outcomes of reading a stream. -/
inductive Reads (m : Mux) (serial : Nat) : Mux × Reading → Prop where
  | chunk {m' : Mux} {chunk : Bytes} {queue : List Bytes}
      (front : (m.ledger.stream serial).queue = chunk :: queue) (passes : m.Passes [] m')
      (ledger : m'.ledger = m.ledger.pop serial queue) : Reads m serial (m', .chunk chunk)
  | blocked (live : (m.ledger.stream serial).isOver = false)
      (drained : (m.ledger.stream serial).queue = []) : Reads m serial (m, .blocked)
  | ended {m' : Mux} {reading : Reading} (isOver : (m.ledger.stream serial).isOver = true)
      (drained : (m.ledger.stream serial).queue = [])
      (verdict : reading = .over ∨ ∃ fault, reading = .fault fault) (passes : m.Passes [] m')
      (ledger : m'.ledger = m.ledger.sweep (m.ledger.stream serial).id) :
      Reads m serial (m', reading)

/-- What a read does: it takes the chunk in front, or nothing has come, or it tells the end. -/
theorem read_cases (m : Mux) (serial : Nat) :
    (∃ chunk queue, (m.registry.stream serial).queue = chunk :: queue ∧ m.read serial =
      (m.update serial { m.registry.stream serial with queue }, .chunk chunk)) ∨
    ((m.registry.stream serial).queue = [] ∧ (m.registry.stream serial).isOver = false ∧
      m.read serial = (m, .blocked)) ∨
    ((m.registry.stream serial).queue = [] ∧ (m.registry.stream serial).isOver = true ∧
      m.read serial = (m.sweep (m.registry.stream serial).id,
        if (m.registry.stream serial).severed then .fault .closed
        else if (m.registry.stream serial).state = .reset then
          .fault (.streamReset (m.registry.stream serial).id)
        else .over)) := by
  unfold read Stream.pop
  rcases hqueue : (m.registry.stream serial).queue with _ | ⟨chunk, queue⟩
  · rcases hover : (m.registry.stream serial).isOver with _ | _
    · exact Or.inr (Or.inl ⟨rfl, rfl, rfl⟩)
    · exact Or.inr (Or.inr ⟨rfl, rfl, rfl⟩)
  · exact Or.inl ⟨chunk, queue, rfl, rfl⟩

theorem reads (m : Mux) (serial : Nat) : m.Reads serial (m.read serial) := by
  rcases m.read_cases serial with ⟨chunk, queue, hqueue, heq⟩ | ⟨hqueue, hlive, heq⟩ |
    ⟨hqueue, hover, heq⟩
  · rw [heq]
    exact .chunk hqueue (.of_eq rfl rfl rfl rfl rfl rfl rfl rfl) rfl
  · rw [heq]
    exact .blocked hlive hqueue
  · rw [heq]
    refine .ended hover hqueue ?_ (.of_eq rfl rfl rfl rfl rfl rfl rfl rfl) rfl
    split
    · exact Or.inr ⟨_, rfl⟩
    · split
      · exact Or.inr ⟨_, rfl⟩
      · exact Or.inl rfl

theorem Reads.heeds {serial : Nat} {result : Mux × Reading} (h : m.Reads serial result) :
    m.Heeds result.1 := by
  cases h with
  | chunk front passes ledger => exact .of_eq (congrArg Ledger.tornDown ledger)
  | blocked live drained => exact .of_eq rfl
  | ended isOver drained verdict passes ledger => exact .of_eq (congrArg Ledger.tornDown ledger)

/-! ### Dropping a handle -/

theorem ledger_drop {place : Nat} {handle : Handle} (hplace : m.handles[place]? = some handle)
    (hlive : handle.live = true) : (m.drop place).ledger = m.ledger.drop place handle := by
  simp only [drop, hplace, hlive, if_true, forget, Ledger.drop]
  change _ = ite (((m.registry.stream handle.serial).isOver &&
    m.registry.find? (m.registry.stream handle.serial).id == some handle.serial) = true) _ _
  split <;> rfl

theorem passes_drop (m : Mux) (place : Nat) : m.Passes [] (m.drop place) := by
  unfold drop
  split
  · exact .refl m
  · split
    · unfold forget
      simp only
      split <;> exact .of_eq rfl rfl rfl rfl rfl rfl rfl rfl
    · exact .refl m

end Mux

end StreamMux
