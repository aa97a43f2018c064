import StreamMux.Proofs.Session.Ledger
import StreamMux.Proofs.Wire.Frame

/-!
# What operations do to the link

`Mux.Passes m out m'` says what an operation that does not read may do below the streams: it puts
the frames `out` on their way to the other end, and closes its own end exactly when it tears the
connection down.  `Mux.Heeds m m'` says that it does not tear down a connection that is gone
already.

`Mux.Sends` lists the outcomes of sending one frame: it is refused, it goes out, or the connection
is torn down.  Every other operation sends through `Mux.send`.
-/

namespace StreamMux.Mux

variable {m m' m'' : Mux} {out out' : List Frame}

/-! ### Passing frames on -/

/-- What an operation does to the link, apart from reading it. -/
structure Passes (m : Mux) (out : List Frame) (m' : Mux) : Prop where
  side : m'.side = m.side
  settings : m'.settings = m.settings
  loop : m'.loop = m.loop
  assembler : m'.assembler = m.assembler
  written : m'.written = m.written ++ out.map Frame.wire
  /-- What is on its way to this end stays there. -/
  near : (m'.link.ends.get m.side).pending = (m.link.ends.get m.side).pending
  /-- The frames go behind what is on its way to the other end. -/
  far : (m'.link.ends.get m.side.other).pending =
    (m.link.ends.get m.side.other).pending ++ out.flatMap Frame.wire
  far_closed : m'.link.isClosed m.side.other = m.link.isClosed m.side.other
  reset : m'.link.wasReset = m.link.wasReset
  torn : m.tornDown = true → m'.tornDown = true
  /-- The own end is closed by teardown, and by nothing else. -/
  closed : m'.link.isClosed m.side = (m.link.isClosed m.side || (m'.tornDown && !m.tornDown))
  /-- Without failures to come, none are to come afterwards. -/
  calm : m.conditions = {} → m'.conditions = {}

/-- A connection that is gone is not torn down any more. -/
def Heeds (m m' : Mux) : Prop := m.isClosed = true → m'.tornDown = m.tornDown

theorem Passes.of_eq (side : m'.side = m.side) (settings : m'.settings = m.settings)
    (loop : m'.loop = m.loop) (assembler : m'.assembler = m.assembler)
    (written : m'.written = m.written) (link : m'.link = m.link)
    (torn : m'.tornDown = m.tornDown) (conditions : m'.conditions = m.conditions) :
    m.Passes [] m' where
  side := side
  settings := settings
  loop := loop
  assembler := assembler
  written := by rw [written]; simp
  near := by rw [link]
  far := by rw [link]; simp
  far_closed := by rw [link]
  reset := by rw [link]
  torn h := torn.trans h
  closed := by rw [link, torn]; cases m.tornDown <;> simp
  calm h := conditions.trans h

theorem Passes.refl (m : Mux) : m.Passes [] m := .of_eq rfl rfl rfl rfl rfl rfl rfl rfl

theorem Passes.note (m : Mux) (entry : Note) : m.Passes [] (m.note entry) :=
  .of_eq rfl rfl rfl rfl rfl rfl rfl rfl

theorem Passes.count (m : Mux) (f : Counters → Counters) : m.Passes [] (m.count f) :=
  .of_eq rfl rfl rfl rfl rfl rfl rfl rfl

theorem Passes.trans (h : m.Passes out m') (h' : m'.Passes out' m'') :
    m.Passes (out ++ out') m'' where
  side := h'.side.trans h.side
  settings := h'.settings.trans h.settings
  loop := h'.loop.trans h.loop
  assembler := h'.assembler.trans h.assembler
  written := by rw [h'.written, h.written, List.map_append, List.append_assoc]
  near := by rw [← h.near, ← h.side, h'.near]
  far := by
    have hfar := h'.far
    rw [h.side] at hfar
    rw [hfar, h.far, List.flatMap_append, List.append_assoc]
  far_closed := by
    have hfar := h'.far_closed
    rw [h.side] at hfar
    rw [hfar, h.far_closed]
  reset := h'.reset.trans h.reset
  torn ht := h'.torn (h.torn ht)
  closed := by
    have hclosed := h'.closed
    rw [h.side] at hclosed
    rw [hclosed, h.closed]
    have hmono := h.torn
    have hmono' := h'.torn
    revert hmono hmono'
    cases m.tornDown <;> cases m'.tornDown <;> cases m''.tornDown <;>
      cases m.link.isClosed m.side <;> simp
  calm hc := h'.calm (h.calm hc)

theorem Passes.trans_nil (h : m.Passes out m') (h' : m'.Passes [] m'') : m.Passes out m'' := by
  simpa using h.trans h'

theorem Passes.nil_trans (h : m.Passes [] m') (h' : m'.Passes out m'') : m.Passes out m'' := by
  simpa using h.trans h'

theorem passes_conditions (m : Mux) {conditions : Conditions}
    (h : m.conditions = {} → conditions = {}) : m.Passes [] { m with conditions } :=
  { Passes.refl m with calm := h }

theorem Passes.isClosed (h : m.Passes out m') (hclosed : m.isClosed = true) :
    m'.isClosed = true := by
  unfold Mux.isClosed at hclosed ⊢
  rw [h.side, h.closed]
  rcases Bool.or_eq_true_iff.mp hclosed with ht | hl
  · rw [h.torn ht, Bool.true_or]
  · rw [hl, Bool.true_or, Bool.or_true]

theorem Heeds.of_eq (h : m'.tornDown = m.tornDown) : m.Heeds m' := fun _ => h

theorem Heeds.of_up (h : m.isClosed = false) : m.Heeds m' := fun hclosed => by
  rw [h] at hclosed
  cases hclosed

theorem Heeds.trans (hp : m.Passes out m') (h : m.Heeds m') (h' : m'.Heeds m'') : m.Heeds m'' :=
  fun hclosed => (h' (hp.isClosed hclosed)).trans (h hclosed)

/-! ### The ledger below journal and counters -/

theorem ledger_note (m : Mux) (entry : Note) (h : entry.overflow? = none) :
    (m.note entry).ledger = m.ledger := by
  simp [ledger, note, h]

@[simp] theorem ledger_count (m : Mux) (f : Counters → Counters) :
    (m.count f).ledger = m.ledger := rfl

@[simp] theorem ledger_countEnding (m : Mux) (ending : Ending) :
    (m.countEnding ending).ledger = m.ledger := by
  cases ending <;> rfl

theorem Passes.countEnding (m : Mux) (ending : Ending) : m.Passes [] (m.countEnding ending) := by
  cases ending
  · exact Passes.count m (·.bump .closed)
  · exact Passes.count m (·.bump .reset)

theorem up_of_isClosed_eq_false (h : m.isClosed = false) : m.tornDown = false :=
  (Bool.or_eq_false_iff.mp h).1

/-! ### Teardown -/

theorem close_of_isClosed {link : Link} {side : Side} (h : link.isClosed side = true) :
    link.close side = link := by
  obtain ⟨⟨dialer, listener⟩, wasReset⟩ := link
  cases side
  · obtain ⟨inbox, remainder, closed⟩ := dialer
    cases (show closed = true from h)
    rfl
  · obtain ⟨inbox, remainder, closed⟩ := listener
    cases (show closed = true from h)
    rfl

/-- Closing the link closes it, whether or not the answer is a fault. -/
theorem shut_keeps (m : Mux) :
    m.shut.1.link = m.link.close m.side ∧ m.shut.1.ledger = m.ledger ∧
      m.shut.1.loop = m.loop ∧ m.shut.1.assembler = m.assembler ∧
      m.shut.1.written = m.written ∧ (m.conditions = {} → m.shut.1.conditions = {}) := by
  unfold shut
  simp only
  by_cases hclosed : m.link.isClosed m.side = true
  · rw [if_pos hclosed, close_of_isClosed hclosed]
    split
    · rename_i fault hfail
      refine ⟨rfl, rfl, rfl, rfl, rfl, ?_⟩
      intro hcalm
      rw [hcalm] at hfail
      cases hfail
    · exact ⟨rfl, rfl, rfl, rfl, rfl, id⟩
  · rw [if_neg hclosed]
    have hnote := ledger_note { m with link := m.link.close m.side } (.linkClosed m.side) rfl
    split
    · rename_i fault hfail
      refine ⟨rfl, hnote, rfl, rfl, rfl, ?_⟩
      intro hcalm
      change m.conditions.failClose = some fault at hfail
      rw [hcalm] at hfail
      cases hfail
    · exact ⟨rfl, hnote, rfl, rfl, rfl, id⟩

theorem tearDown_of_torn {m : Mux} (h : m.tornDown = true) (cause : Cause) :
    m.tearDown cause = m := by
  simp [tearDown, h]

/-- The state between closing the link and severing the streams. -/
theorem tearDown_of_up {m : Mux} (h : m.tornDown = false) (cause : Cause) :
    ∃ closed : Mux, closed.link = m.link.close m.side ∧
      closed.ledger = { m.ledger with tornDown := true } ∧ closed.loop = m.loop ∧
      closed.assembler = m.assembler ∧ closed.written = m.written ∧
      (m.conditions = {} → closed.conditions = {}) ∧
      m.tearDown cause =
        { closed with registry := closed.registry.sever.1 }.note (.severed closed.registry.sever.2)
      := by
  obtain ⟨marked, hmarked⟩ :
      ∃ marked, { m with tornDown := true }.note (.tearingDown cause) = marked := ⟨_, rfl⟩
  have hledger : marked.ledger = { m.ledger with tornDown := true } :=
    hmarked ▸ ledger_note { m with tornDown := true } _ rfl
  obtain ⟨hlink, hledger', hloop, hassembler, hwritten, hcalm⟩ := shut_keeps marked
  rw [hledger] at hledger'
  have hsame : marked.link = m.link ∧ marked.side = m.side ∧ marked.loop = m.loop ∧
      marked.assembler = m.assembler ∧ marked.written = m.written ∧
      marked.conditions = m.conditions := by
    rw [← hmarked]
    exact ⟨rfl, rfl, rfl, rfl, rfl, rfl⟩
  obtain ⟨h1, h2, h3, h4, h5, h6⟩ := hsame
  rw [h1, h2] at hlink
  rw [h3] at hloop
  rw [h4] at hassembler
  rw [h5] at hwritten
  rw [h6] at hcalm
  unfold tearDown
  rw [if_neg (by simp [h])]
  simp only [hmarked]
  generalize marked.shut = result at hlink hledger' hloop hassembler hwritten hcalm ⊢
  obtain ⟨shut, fault | _⟩ := result
  · exact ⟨shut.note (.closeFailed fault), hlink, (ledger_note shut _ rfl).trans hledger', hloop,
      hassembler, hwritten, hcalm, rfl⟩
  · exact ⟨shut, hlink, hledger', hloop, hassembler, hwritten, hcalm, rfl⟩

theorem ledger_tearDown {m : Mux} (h : m.tornDown = false) (cause : Cause) :
    (m.tearDown cause).ledger = m.ledger.tear := by
  obtain ⟨closed, -, hledger, -, -, -, -, heq⟩ := tearDown_of_up h cause
  rw [heq, ledger_note _ _ rfl]
  have hregistry : closed.registry = m.registry := congrArg Ledger.registry hledger
  calc { closed with registry := closed.registry.sever.1 }.ledger
      = { closed.ledger with registry := closed.registry.sever.1 } := rfl
    _ = m.ledger.tear := by rw [hledger, hregistry]; rfl

theorem passes_tearDown (m : Mux) (cause : Cause) : m.Passes [] (m.tearDown cause) := by
  by_cases h : m.tornDown = true
  · rw [tearDown_of_torn h]
    exact .refl m
  · have h : m.tornDown = false := by simpa using h
    obtain ⟨closed, hlink, hledger, hloop, hassembler, hwritten, hcalm, heq⟩ :=
      tearDown_of_up h cause
    have hside : closed.side = m.side := congrArg Ledger.side hledger
    have htorn : closed.tornDown = true := congrArg Ledger.tornDown hledger
    rw [heq]
    refine ⟨hside, congrArg Ledger.settings hledger, hloop, hassembler, ?_, ?_, ?_, ?_, ?_, ?_, ?_,
      hcalm⟩
    · exact hwritten.trans (by simp)
    · change (closed.link.ends.get m.side).pending = _
      rw [hlink]
      simp [Link.close, LinkEnd.pending]
    · change (closed.link.ends.get m.side.other).pending = _
      rw [hlink]
      simp [Link.close]
    · change closed.link.isClosed m.side.other = _
      rw [hlink, Link.isClosed_close_other]
    · change closed.link.wasReset = _
      rw [hlink]
      rfl
    · exact fun _ => htorn
    · change closed.link.isClosed m.side = (_ || (closed.tornDown && _))
      rw [hlink, Link.isClosed_close_self, htorn, h]
      simp

/-! ### Sending -/

/-- The outcomes of sending a frame. -/
inductive Sends (m : Mux) (frame : Frame) : Mux × Except Fault Nat → Prop where
  /-- It is not written: the connection is gone, or the frame cannot be written. -/
  | refused (fault : Fault) (why : m.isClosed = true ∨ ∃ fault, frame.encode = .error fault) :
      Sends m frame (m, .error fault)
  | sent {m' : Mux} (size : Nat) (up : m.isClosed = false) (passes : m.Passes [frame] m')
      (ledger : m'.ledger = m.ledger) : Sends m frame (m', .ok size)
  | torn {m' : Mux} (fault : LinkFault) (up : m.isClosed = false) (passes : m.Passes [] m')
      (ledger : m'.ledger = m.ledger.tear) : Sends m frame (m', .error (.link fault))

/-- Writing a chunk to the link either leaves link and ledger alone, or puts it there. -/
theorem transmit_cases (m : Mux) (chunk : Bytes) :
    (∃ refusing fault, m.transmit chunk = (refusing, .error fault) ∧
      refusing.ledger = m.ledger ∧ m.Passes [] refusing) ∨
    (∃ link, m.transmit chunk = ({ m with link, written := m.written ++ [chunk] }, .ok ()) ∧
      m.link.write m.side chunk = .ok link) := by
  unfold transmit
  split
  · rename_i fault hfail
    refine Or.inl ⟨_, fault, rfl, rfl, { Passes.refl m with calm := ?_ }⟩
    intro hcalm
    rw [hcalm] at hfail
    cases hfail
  · split
    · rename_i fault hwrite
      exact Or.inl ⟨m, fault, rfl, rfl, .refl m⟩
    · rename_i link hwrite
      exact Or.inr ⟨link, rfl, hwrite⟩

theorem sends (m : Mux) (frame : Frame) : m.Sends frame (m.send frame) := by
  unfold send
  split
  · rename_i fault hencode
    exact .refused _ (Or.inr ⟨fault, hencode⟩)
  · rename_i bytes hencode
    obtain rfl := Frame.eq_wire_of_encode hencode
    by_cases hclosed : m.isClosed = true
    · rw [if_pos hclosed]
      exact .refused _ (Or.inl hclosed)
    · have hup : m.isClosed = false := by simpa using hclosed
      rw [if_neg hclosed]
      rcases m.transmit_cases frame.wire with ⟨refusing, fault, heq, hledger, hpasses⟩ |
        ⟨link, heq, hwrite⟩
      · rw [heq]
        have htorn : refusing.tornDown = false :=
          (congrArg Ledger.tornDown hledger).trans (up_of_isClosed_eq_false hup)
        have hnote := ledger_note refusing (.writeFailed frame.id fault) rfl
        refine .torn fault hup
          (hpasses.trans_nil ((Passes.note ..).trans_nil (passes_tearDown ..))) ?_
        rw [ledger_tearDown (by exact htorn), hnote, hledger]
      · rw [heq]
        obtain ⟨hnear, hfar, hreset⟩ := Link.write_keeps hwrite
        refine .sent _ hup ⟨rfl, rfl, rfl, rfl, rfl, ?_, ?_, hfar, hreset, id, ?_, id⟩
          (ledger_note _ _ rfl)
        · exact congrArg LinkEnd.pending (Link.get_write_self hwrite)
        · refine (Link.pending_write hwrite).trans ?_
          simp
        · refine hnear.trans ?_
          simp [note, count]

theorem Sends.heeds {frame : Frame} {result : Mux × Except Fault Nat}
    (h : m.Sends frame result) : m.Heeds result.1 := by
  cases h with
  | refused fault why => exact .of_eq rfl
  | sent size up passes ledger => exact .of_up up
  | torn fault up passes ledger => exact .of_up up

end StreamMux.Mux
