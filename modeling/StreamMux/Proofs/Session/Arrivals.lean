import StreamMux.Proofs.Session.Alike
import StreamMux.Proofs.Session.Counting
import StreamMux.Proofs.Session.Run

/-!
# Calls of the handler, and the journal of teardown

The handler is called when a frame announces a stream, and the handle that it is called with goes
behind all others.  A handle whose handler could not be started goes there too, dropped already.
Teardown writes of itself into the journal: that it begins, whether the link
could be closed, and how many streams were severed.

* `Mux.Greets` — an operation calls the handler with the handles that it adds and that are held,
  with each once, and writes of teardown at most once;
* `Mux.greets_receive`, `Mux.greets_turn` — what frames and turns of the loop do of this;
* `Mux.tornOnce_run` — after every run the journal tells of one teardown, or of none while the
  session is not torn down.
-/

namespace StreamMux

/-- Whether a note is part of what teardown writes. -/
def Note.isTeardown : Note → Bool
  | tearingDown _ | closeFailed _ | severed _ => true
  | _ => false

namespace Mux

variable {m m' m'' : Mux} {made made' : List Handle}

/-- What the journal says of teardown. -/
def teardowns (m : Mux) : List Note := m.notes.filter Note.isTeardown

/-- One teardown, with or without trouble in closing the link. -/
def IsTeardown (notes : List Note) : Prop :=
  ∃ cause trouble count, notes =
    [.tearingDown cause] ++ (Option.toList trouble).map .closeFailed ++ [.severed count]

/-- The journal tells of one teardown once the session is torn down, and of none before. -/
def TornOnce (m : Mux) : Prop :=
  if m.tornDown then IsTeardown m.teardowns else m.teardowns = []

/-- The places of those handles that are held, among handles that come behind `before` others. -/
def heldPlaces (before : Nat) (made : List Handle) : List Nat :=
  ((made.zipIdx before).filter (·.1.live)).map (·.2)

@[simp] theorem heldPlaces_nil (before : Nat) : heldPlaces before [] = [] := rfl

theorem heldPlaces_append (before : Nat) (made more : List Handle) :
    heldPlaces before (made ++ more) =
      heldPlaces before made ++ heldPlaces (before + made.length) more := by
  simp [heldPlaces, List.zipIdx_append]

/-- What an operation that opens no stream does about handles. -/
structure Greets (m : Mux) (made : List Handle) (m' : Mux) : Prop where
  handles : m'.handles = m.handles ++ made
  /-- The handler is called with each new handle that is held, in their order. -/
  arrivals : m'.arrivals = m.arrivals ++ heldPlaces m.handles.length made
  opened : m'.counters.opened = m.counters.opened
  tornOnce : m.TornOnce → m'.TornOnce

namespace Greets

theorem trans (h : m.Greets made m') (h' : m'.Greets made' m'') :
    m.Greets (made ++ made') m'' where
  handles := by rw [h'.handles, h.handles, List.append_assoc]
  arrivals := by
    rw [h'.arrivals, h.arrivals, h.handles, List.length_append, List.append_assoc,
      heldPlaces_append]
  opened := h'.opened.trans h.opened
  tornOnce htorn := h'.tornOnce (h.tornOnce htorn)

theorem trans_nil (h : m.Greets made m') (h' : m'.Greets [] m'') : m.Greets made m'' := by
  simpa using h.trans h'

theorem nil_trans (h : m.Greets [] m') (h' : m'.Greets made m'') : m.Greets made m'' := by
  simpa using h.trans h'

theorem of_eq (handles : m'.handles = m.handles) (arrivals : m'.arrivals = m.arrivals)
    (opened : m'.counters.opened = m.counters.opened) (tornDown : m'.tornDown = m.tornDown)
    (teardowns : m'.teardowns = m.teardowns) : m.Greets [] m' where
  handles := by simp [handles]
  arrivals := by simp [arrivals]
  opened := opened
  tornOnce h := by
    unfold TornOnce at h ⊢
    rwa [tornDown, teardowns]

theorem refl (m : Mux) : m.Greets [] m := .of_eq rfl rfl rfl rfl rfl

theorem note (m : Mux) (entry : Note) (h : entry.isTeardown = false) :
    m.Greets [] (m.note entry) :=
  .of_eq rfl rfl rfl rfl (by simp [Mux.note, teardowns, h])

theorem trans_note (h : m.Greets made m') (entry : Note) (hentry : entry.isTeardown = false) :
    m.Greets made (m'.note entry) :=
  h.trans_nil (.note m' entry hentry)

theorem trans_count (h : m.Greets made m') (f : Counters → Counters)
    (hf : (f m'.counters).opened = m'.counters.opened) : m.Greets made (m'.count f) :=
  h.trans_nil (.of_eq rfl rfl hf rfl rfl)

theorem countEnding (m : Mux) (ending : Ending) : m.Greets [] (m.countEnding ending) := by
  cases ending <;> exact .of_eq rfl rfl rfl rfl rfl

end Greets

/-! ### The link and teardown -/

theorem teardowns_shut (m : Mux) : m.shut.1.teardowns = m.teardowns := by
  have hnote : ({ m with link := m.link.close m.side }.note (.linkClosed m.side)).teardowns =
      m.teardowns := by simp [note, teardowns, Note.isTeardown]
  unfold shut
  simp only
  by_cases hclosed : m.link.isClosed m.side = true
  · rw [if_pos hclosed]
    split <;> rfl
  · rw [if_neg hclosed]
    split <;> exact hnote

theorem greets_shut (m : Mux) : m.Greets [] m.shut.1 := by
  have hledger := m.shut_keeps.2.1
  refine .of_eq (congrArg Ledger.handles hledger) ?_ ?_ (congrArg Ledger.tornDown hledger)
    m.teardowns_shut
  all_goals
    unfold shut
    simp only
    split <;> split <;> rfl

/-- Teardown writes of itself when it tears the session down, and is silent afterwards. -/
theorem greets_tearDown (m : Mux) (cause : Cause) : m.Greets [] (m.tearDown cause) := by
  by_cases htorn : m.tornDown = true
  · rw [tearDown_of_torn htorn]
    exact .refl m
  · -- the note that teardown begins alone does not make one, so the link is closed apart
    have hup : m.tornDown = false := by simpa using htorn
    obtain ⟨begun, hbegun⟩ :
        ∃ begun, { m with tornDown := true }.note (.tearingDown cause) = begun := ⟨_, rfl⟩
    have hshut := greets_shut begun
    have hnotes : begun.shut.1.teardowns = m.teardowns ++ [.tearingDown cause] := by
      rw [teardowns_shut, ← hbegun]
      simp [note, teardowns, Note.isTeardown]
    have hmarked : begun.shut.1.tornDown = true := by
      rw [show begun.shut.1.tornDown = begun.tornDown from
        congrArg Ledger.tornDown begun.shut_keeps.2.1, ← hbegun]
      rfl
    have hbefore : begun.handles = m.handles ∧ begun.arrivals = m.arrivals ∧
        begun.counters = m.counters := by
      rw [← hbegun]
      exact ⟨rfl, rfl, rfl⟩
    unfold tearDown
    rw [if_neg htorn]
    simp only [hbegun]
    generalize begun.shut = result at hshut hnotes hmarked ⊢
    have hhandles := hshut.handles
    have harrivals := hshut.arrivals
    have hopened := hshut.opened
    rw [hbefore.1] at hhandles harrivals
    rw [hbefore.2.1] at harrivals
    rw [hbefore.2.2] at hopened
    -- whether or not closing fails, the note of teardown follows
    obtain ⟨shut, fault | _⟩ := result
    all_goals
      refine ⟨hhandles, harrivals, hopened, fun h => ?_⟩
      rw [TornOnce, hup] at h
      have hnone : m.teardowns = [] := h
      rw [hnone, List.nil_append, teardowns] at hnotes
      unfold TornOnce
      simp only at hmarked
      simp only [Mux.note, hmarked, if_true]
    · refine ⟨cause, some fault, shut.registry.sever.2, ?_⟩
      simp [teardowns, hnotes, Note.isTeardown]
    · refine ⟨cause, none, shut.registry.sever.2, ?_⟩
      simp [teardowns, hnotes, Note.isTeardown]

theorem greets_send (m : Mux) (frame : Frame) : m.Greets [] (m.send frame).1 := by
  unfold send transmit
  split
  · exact .refl m
  · rename_i bytes _
    split
    · exact .refl m
    · split
      · rename_i heq
        split at heq
        · cases heq
        · split at heq
          · cases heq
          · rename_i link _
            cases heq
            have hwritten : m.Greets [] { m with link, written := m.written ++ [bytes] } :=
              .of_eq rfl rfl rfl rfl rfl
            exact (hwritten.trans_count _ rfl).trans_note (.sent ..) rfl
      · rename_i refusing fault heq
        have hrefusing : m.Greets [] refusing := by
          split at heq
          · cases heq
            exact .of_eq rfl rfl rfl rfl rfl
          · split at heq
            · cases heq
              exact .refl m
            · cases heq
        exact (hrefusing.trans_note _ rfl).trans_nil (greets_tearDown ..)

/-! ### What users do -/

theorem greets_update (m : Mux) (serial : Nat) (stream : Stream) :
    m.Greets [] (m.update serial stream) := .of_eq rfl rfl rfl rfl rfl

theorem greets_sweep (m : Mux) (id : UInt64) : m.Greets [] (m.sweep id) :=
  .of_eq rfl rfl rfl rfl rfl

theorem greets_terminate (m : Mux) (serial : Nat) (ending : Ending) :
    m.Greets [] (m.terminate serial ending).1 := by
  by_cases hover : (m.registry.stream serial).isOver = true
  · unfold terminate
    simp only
    split
    · exact .refl m
    · rw [Stream.terminate_of_isOver hover]
      exact .refl m
  · rw [terminate_of_live (by simpa using hover)]
    have hended : m.Greets [] (m.ended serial ending) :=
      ((greets_update m serial _).trans_nil (.countEnding _ ending)).trans_note _ rfl
    exact (hended.trans_nil (greets_send ..)).trans_nil (greets_sweep ..)

theorem greets_write (m : Mux) (serial : Nat) (data : Bytes) :
    m.Greets [] (m.write serial data).1 := by
  unfold write
  simp only
  split
  · exact .refl m
  · split
    · exact greets_send ..
    · exact .refl m
    · exact .refl m

theorem greets_read (m : Mux) (serial : Nat) : m.Greets [] (m.read serial).1 := by
  unfold read
  split
  · exact greets_update ..
  · exact .refl m
  · exact greets_sweep ..

theorem greets_readById (m : Mux) (id : UInt64) : m.Greets [] (m.readById id).1 := by
  unfold readById
  split
  · exact .refl m
  · exact greets_read ..

/-- What an operation does that calls no handler. -/
structure Silent (m m' : Mux) : Prop where
  arrivals : m'.arrivals = m.arrivals
  /-- New handles are those of streams that were opened. -/
  opened : m'.counters.opened + m.handles.length = m.counters.opened + m'.handles.length
  tornOnce : m.TornOnce → m'.TornOnce

theorem Greets.silent (h : m.Greets [] m') : m.Silent m' :=
  ⟨by simpa using h.arrivals, by rw [h.opened, h.handles, List.append_nil], h.tornOnce⟩

theorem Greets.serials_eq (h : m.Greets [] m') : m'.ledger.serials = m.ledger.serials :=
  congrArg (List.map Handle.serial) (h.handles.trans (List.append_nil _))

theorem silent_openStream (m : Mux) (label : Option String) :
    m.Silent (m.openStream label).1 := by
  unfold openStream
  split
  · exact (Greets.refl m).silent
  · split
    · exact (Greets.refl m).silent
    · rename_i id ids hdraw
      have hbegun : m.Greets [] { m with
          ids, registry := (m.registry.beginLocal id m.settings.queueLimit).1 } :=
        .of_eq rfl rfl rfl rfl rfl
      have hall := hbegun.trans_nil (greets_send { m with
        ids, registry := (m.registry.beginLocal id m.settings.queueLimit).1 }
        (.ofKind id .newStream []))
      simp only
      generalize Mux.send _ (Frame.ofKind id .newStream []) = result at hall ⊢
      obtain ⟨after, fault | size⟩ := result
      · have hremoved : after.Greets [] { after with registry := after.registry.remove id } :=
          .of_eq rfl rfl rfl rfl rfl
        exact (hall.trans_nil hremoved).silent
      · have hnoted := (hall.trans_note (.opened id label) rfl).silent
        refine ⟨hnoted.arrivals, ?_, hnoted.tornOnce⟩
        have hopened : after.counters.opened + m.handles.length =
            m.counters.opened + after.handles.length := hnoted.opened
        simp only [note, count, Counters.bump, List.length_append, List.length_singleton]
        omega

theorem counters_drop (m : Mux) (place : Nat) : (m.drop place).counters = m.counters := by
  unfold drop
  split
  · rfl
  · split
    · unfold forget
      simp only
      split <;> rfl
    · rfl

theorem silent_drop (m : Mux) (place : Nat) : m.Silent (m.drop place) := by
  have hlength : ∀ handle : Handle,
      m.counters.opened + m.handles.length =
        m.counters.opened + (m.handles.set place handle).length := by simp
  unfold drop
  split
  · exact (Greets.refl m).silent
  · split
    · unfold forget
      simp only
      split <;> exact ⟨rfl, hlength _, id⟩
    · exact (Greets.refl m).silent

/-! ### Frames of the peer -/

theorem greets_bind (m : Mux) (id : UInt64) (announced : Bool) :
    m.Greets [] (m.bind id announced).1 := by
  unfold bind
  split
  · exact .refl m
  · split
    · exact .refl m
    · split
      · exact .refl m
      · split
        · exact .refl m
        · exact .of_eq rfl rfl rfl rfl rfl

theorem greets_turnAway (m : Mux) (id : UInt64) (kind : Kind) (refusal : Refusal) :
    m.Greets [] (m.turnAway id kind refusal) := by
  unfold turnAway
  cases refusal with
  | closed => exact (Greets.note m _ rfl).trans_count _ rfl
  | ownNumber => exact (Greets.note m _ rfl).trans_count _ rfl
  | crowded =>
    have hsend := (Greets.note m (.refused id .crowded) rfl).trans_nil
      (greets_send _ (.ofKind id .resetAcceptor []))
    simp only
    generalize (m.note (.refused id .crowded)).send (.ofKind id .resetAcceptor []) = result
      at hsend ⊢
    obtain ⟨after, fault | size⟩ := result
    · exact (hsend.trans_note _ rfl).trans_count _ rfl
    · exact hsend.trans_count _ rfl

/-- The handle of a stream that was just accepted is held if the handler was called with it. -/
theorem greets_callHandler (m : Mux) (id : UInt64) (serial : Nat) :
    ∃ made, m.Greets made (m.callHandler id serial).1 := by
  have htorn : m.TornOnce → (m.accepted id serial).TornOnce :=
    (Greets.note m (.accepted id) rfl).tornOnce
  by_cases hpending : id ∈ m.registry.pending
  · rcases hstart : m.conditions.failStart with _ | text
    · rw [callHandler_started hpending hstart]
      exact ⟨[{ serial, label := none }], rfl, rfl, rfl, htorn⟩
    · rw [callHandler_unstarted hpending hstart]
      have hdrop := silent_drop { m.accepted id serial with
        conditions := { m.conditions with failStart := none } } m.handles.length
      refine ⟨[{ serial, label := none, live := false }], ?_, ?_, ?_, ?_⟩
      · exact (congrArg Ledger.handles (m.unstarted_leads id serial).ledger).trans
          (Ledger.handles_misstart ..)
      · exact hdrop.arrivals.trans (List.append_nil _).symm
      · exact (congrArg Counters.opened (counters_drop ..)).trans rfl
      · exact fun h => hdrop.tornOnce (htorn h)
  · rw [callHandler_of_not_mem hpending]
    exact ⟨[], .refl m⟩

theorem greets_cutShort (m : Mux) (serial : Nat) : m.Greets [] (m.cutShort serial) := by
  have hends := m.greets_terminate serial .reset
  unfold cutShort
  generalize m.terminate serial .reset = result at hends ⊢
  obtain ⟨after, fault | done⟩ := result
  · exact hends.trans_note _ rfl
  · exact hends

theorem greets_announce (m : Mux) (id : UInt64) (serial : Nat) :
    ∃ made, m.Greets made (m.announce id serial) := by
  obtain ⟨made, hcall⟩ := m.greets_callHandler id serial
  refine ⟨made, ?_⟩
  unfold announce
  generalize m.callHandler id serial = result at hcall ⊢
  obtain ⟨after, fault | _ | _⟩ := result
  · exact (hcall.trans_note _ rfl).trans_nil (greets_cutShort ..)
  · exact (hcall.trans_note _ rfl).trans_count _ rfl
  · exact hcall

theorem greets_enqueue (m : Mux) (serial : Nat) (payload : Bytes) :
    m.Greets [] (m.enqueue serial payload) := by
  unfold enqueue
  split
  · exact .refl m
  · simp only
    split
    · exact greets_update ..
    · exact (Greets.note m _ rfl).trans_nil (greets_cutShort ..)
    · exact (Greets.note m _ rfl).trans_count _ rfl

theorem greets_endByPeer (m : Mux) (id : UInt64) (ending : Ending) :
    m.Greets [] (m.endByPeer id ending) := by
  unfold endByPeer
  split
  · exact (Greets.note m _ rfl).trans_count _ rfl
  · split
    · exact (Greets.refl m).trans_count _ rfl
    · exact (((greets_update m ..).trans_nil (.countEnding _ ending)).trans_note _ rfl).trans_nil
        (greets_sweep ..)

theorem greets_newStream (m : Mux) (id : UInt64) (payload : Bytes) :
    ∃ made, m.Greets made (m.receiveKind .newStream id payload) := by
  unfold receiveKind
  have hbind : m.Greets [] (m.bind id true).1 := m.greets_bind id true
  simp only
  generalize m.bind id true = bound at hbind ⊢
  obtain ⟨after, refusal | ⟨serial, isNew⟩⟩ := bound
  · exact ⟨[], hbind.trans_nil (greets_turnAway ..)⟩
  · obtain ⟨made, hannounce⟩ := after.greets_announce id serial
    exact ⟨made, (hbind.nil_trans hannounce).trans_nil (greets_enqueue ..)⟩

theorem greets_message (m : Mux) {kind : Kind} (message : kind.isMessage = true) (id : UInt64)
    (payload : Bytes) : m.Greets [] (m.receiveKind kind id payload) := by
  have hbind : m.Greets [] (m.bind id false).1 := m.greets_bind id false
  rcases hbound : m.bind id false with ⟨after, refusal | ⟨serial, isNew⟩⟩
  · rw [hbound] at hbind
    rw [receiveKind_refused message hbound]
    exact hbind.trans_nil (greets_turnAway ..)
  · rw [hbound] at hbind
    rw [receiveKind_bound message hbound]
    have hnoted : m.Greets [] (if isNew = true then after.note (.early id) else after) := by
      split
      · exact hbind.trans_note _ rfl
      · exact hbind
    exact hnoted.trans_nil (greets_enqueue ..)

theorem greets_receive (m : Mux) (frame : Frame) :
    ∃ made, m.Greets made (m.receive frame) := by
  unfold receive
  rcases frame.kind? with _ | kind
  · exact ⟨[], ((Greets.note m _ rfl).trans_count _ rfl).trans_count _ rfl⟩
  · obtain ⟨noted, hnoted⟩ :
        ∃ noted, m.note (.received kind frame.id frame.payload.length) = noted := ⟨_, rfl⟩
    have hnote : m.Greets [] noted := hnoted ▸ .note m _ rfl
    have happlied : ∃ made,
        noted.Greets made (noted.receiveKind kind frame.id frame.payload) := by
      cases kind with
      | newStream => exact greets_newStream ..
      | messageAcceptor => exact ⟨[], greets_message _ rfl _ _⟩
      | messageOpener => exact ⟨[], greets_message _ rfl _ _⟩
      | closeAcceptor => exact ⟨[], greets_endByPeer ..⟩
      | closeOpener => exact ⟨[], greets_endByPeer ..⟩
      | resetAcceptor => exact ⟨[], greets_endByPeer ..⟩
      | resetOpener => exact ⟨[], greets_endByPeer ..⟩
    obtain ⟨made, happlied⟩ := happlied
    simp only [hnoted]
    exact ⟨made, (hnote.nil_trans happlied).trans_count _ rfl⟩

/-! ### Turns -/

theorem greets_stop (m : Mux) (fault : Option Fault) : m.Greets [] (m.stop fault) := by
  have hend : ∀ {before : Mux}, m.Greets [] before →
      m.Greets [] ({ before with loop := .ended }.note .loopStopped) := by
    intro before hbefore
    have hloop : before.Greets [] { before with loop := .ended } := .of_eq rfl rfl rfl rfl rfl
    exact hbefore.trans_nil (hloop.trans_note .loopStopped rfl)
  unfold stop
  rcases fault with _ | fault
  · exact hend (.refl m)
  · apply hend
    simp only
    split
    · exact .note m _ rfl
    · refine (Greets.note m _ ?_).trans_nil (greets_tearDown ..)
      cases fault <;> rfl

theorem Quiet.greets (h : m.Quiet m') : m.Greets [] m' := by
  cases h with
  | idle short => exact .of_eq rfl rfl rfl rfl rfl
  | fed waiting read => exact .of_eq rfl rfl rfl rfl rfl
  | stopped conditions fault gone =>
    have hadjusted : m.Greets [] { m with conditions } := .of_eq rfl rfl rfl rfl rfl
    exact hadjusted.trans_nil (greets_stop ..)

theorem greets_turn (h : m.turn = some m') : ∃ made, m.Greets made m' := by
  rcases @turn_cases m m' 0 h with ⟨frame, rest, -, -, rfl⟩ | ⟨hnone, -⟩
  · obtain ⟨made, hgreets⟩ :=
      greets_receive { m with assembler := ⟨rest⟩, loop := .ready } frame
    have htaken : m.Greets [] { m with assembler := ⟨rest⟩, loop := .ready } :=
      .of_eq rfl rfl rfl rfl rfl
    exact ⟨made, htaken.nil_trans hgreets⟩
  · exact ⟨[], (quiet_turn h hnone).greets⟩

/-! ### All operations -/

theorem greets_withHandle {place : Nat} {f : Nat → Mux × Answer}
    (h : ∀ serial, m.Greets [] (f serial).1) : m.Greets [] (m.withHandle place f).1 :=
  withHandle_ind (P := m.Greets []) (.refl m) fun handle _ _ => h handle.serial

/-- Apart from turns, no operation calls the handler, and only opening a stream adds a handle. -/
theorem silent_perform (m : Mux) {op : Op} (hop : op ≠ .turn) :
    m.Silent (m.perform op).1 ∧
      ((m.perform op).1.ledger.serials = m.ledger.serials ∨ ∃ label, op = .openStream label) := by
  have hsilent : ∀ {after : Mux}, m.Greets [] after → m.Silent after ∧
      (after.ledger.serials = m.ledger.serials ∨ ∃ label, op = .openStream label) :=
    fun h => ⟨h.silent, Or.inl h.serials_eq⟩
  cases op with
  | turn => exact absurd rfl hop
  | openStream label => exact ⟨m.silent_openStream label, Or.inr ⟨label, rfl⟩⟩
  | write place payload => exact hsilent (greets_withHandle fun _ => greets_write ..)
  | finish place ending => exact hsilent (greets_withHandle fun _ => greets_terminate ..)
  | read place => exact hsilent (greets_withHandle fun _ => greets_read ..)
  | drop place =>
    simp only [perform]
    rcases m.withHandle_cases place fun _ => (m.drop place, .nothing) with
      ⟨handle, hplace, hlive, heq⟩ | heq
    · rw [heq]
      refine ⟨m.silent_drop place, Or.inl ?_⟩
      rw [ledger_drop hplace hlive]
      exact (Ledger.Alike.drop hplace).serials
    · rw [heq]
      exact hsilent (.refl m)
  | send frame => exact hsilent (greets_send ..)
  | readById id => exact hsilent (greets_readById ..)
  | close => exact hsilent (greets_tearDown ..)
  | arrive chunk =>
    simp only [perform]
    split
    · exact hsilent (.of_eq rfl rfl rfl rfl rfl)
    · exact hsilent (.refl m)
  | readFar size => exact hsilent (.of_eq rfl rfl rfl rfl rfl)
  | closeFar => exact hsilent (.of_eq rfl rfl rfl rfl rfl)
  | closeLink => exact hsilent (greets_shut m)
  | resetLink => exact hsilent (.of_eq rfl rfl rfl rfl rfl)
  | adjust conditions => exact hsilent (.of_eq rfl rfl rfl rfl rfl)

theorem tornOnce_perform (h : m.TornOnce) (op : Op) : (m.perform op).1.TornOnce := by
  by_cases hop : op = .turn
  · subst hop
    simp only [perform]
    rcases hturn : m.turn with _ | after
    · exact h
    · obtain ⟨made, hgreets⟩ := greets_turn hturn
      exact hgreets.tornOnce h
  · exact (m.silent_perform hop).1.tornOnce h

theorem tornOnce_run (side : Side) (settings : Settings) (ops : List Op) :
    (run side settings ops).TornOnce := by
  induction ops using List.reverseRecOn with
  | nil => exact rfl
  | append_singleton ops op ih =>
    rw [run_concat]
    exact tornOnce_perform ih op

end Mux

end StreamMux
