import Mathlib.Data.List.Induction
import StreamMux.Proofs.Session.Turning

/-!
# Runs of a session

`Mux.Op` lists everything that can be done with a session and everything that can happen to it: what
its user does, turns of its loop, what happens at the other end of the link and to the link under
it.  `Mux.run` is a session after any number of these.

* `Mux.step` — what one operation may do, whichever it is;
* `Mux.sound_run` — the invariant of the streams holds after every run;
* `Mux.ledger_run` — so does whatever every move of the ledger keeps.
-/

namespace StreamMux

/-- Data of a length that fits a word. -/
structure Payload where
  data : Bytes
  length_lt : data.length < 2 ^ 64

namespace Mux

/-! ### Operations -/

/-- What can be done with a session, and what can happen to it. -/
inductive Op where
  -- with a stream, given by the place of its handle
  | openStream (label : Option String)
  | write (place : Nat) (payload : Payload)
  | finish (place : Nat) (ending : Ending)
  | read (place : Nat)
  | drop (place : Nat)
  -- with the session
  | send (frame : Frame)
  | readById (id : UInt64)
  | close
  /-- The loop takes a turn, if there is one. -/
  | turn
  -- at the other end of the link
  | arrive (chunk : Bytes)
  | readFar (size : Nat)
  | closeFar
  -- with the link under the session
  | closeLink
  | resetLink
  | adjust (conditions : Conditions)

inductive Answer where
  | nothing
  /-- The handle was dropped, or never given out. -/
  | noHandle
  | opened (result : Except Fault Nat)
  | size (result : Except Fault Nat)
  | done (result : Except Fault Unit)
  | reading (reading : Reading)
  | link (result : Except LinkFault Unit)

/-- An operation with the stream of a handle that is still held. -/
def withHandle (m : Mux) (place : Nat) (f : Nat → Mux × Answer) : Mux × Answer :=
  match m.handles[place]? with
  | some { serial, live := true, .. } => f serial
  | _ => (m, .noHandle)

def perform (m : Mux) : Op → Mux × Answer
  | .openStream label =>
    let (m, result) := m.openStream label
    (m, .opened result)
  | .write place payload =>
    m.withHandle place fun serial =>
      let (m, result) := m.write serial payload.data
      (m, .size result)
  | .finish place ending =>
    m.withHandle place fun serial =>
      let (m, result) := m.terminate serial ending
      (m, .done result)
  | .read place =>
    m.withHandle place fun serial =>
      let (m, reading) := m.read serial
      (m, .reading reading)
  | .drop place => m.withHandle place fun _ => (m.drop place, .nothing)
  | .send frame =>
    let (m, result) := m.send frame
    (m, .size result)
  | .readById id =>
    let (m, reading) := m.readById id
    (m, .reading reading)
  | .close => (m.tearDown .closedHere, .nothing)
  | .turn => (m.turn.getD m, .nothing)
  | .arrive chunk =>
    match m.link.write m.side.other chunk with
    | .ok link => ({ m with link }, .link (.ok ()))
    | .error fault => (m, .link (.error fault))
  | .readFar size => ({ m with link := (m.link.read m.side.other size).1 }, .nothing)
  | .closeFar => ({ m with link := m.link.close m.side.other }, .nothing)
  | .closeLink =>
    let (m, result) := m.shut
    (m, .link result)
  | .resetLink => ({ m with link := m.link.reset }, .nothing)
  | .adjust conditions => ({ m with conditions }, .nothing)

/-- A session at the beginning, with nothing on the link. -/
def start (side : Side) (settings : Settings) : Mux :=
  { Session.start side settings with link := {} }

/-- A session after some operations. -/
def run (side : Side) (settings : Settings) (ops : List Op) : Mux :=
  ops.foldl (fun m op => (m.perform op).1) (start side settings)

variable {m m' : Mux} {side : Side} {settings : Settings}

theorem run_concat (ops : List Op) (op : Op) :
    run side settings (ops ++ [op]) = ((run side settings ops).perform op).1 := by
  simp [run]

theorem withHandle_cases (m : Mux) (place : Nat) (f : Nat → Mux × Answer) :
    (∃ handle, m.handles[place]? = some handle ∧ handle.live = true ∧
      m.withHandle place f = f handle.serial) ∨ m.withHandle place f = (m, .noHandle) := by
  unfold withHandle
  split
  · rename_i serial label hplace
    exact Or.inl ⟨_, hplace, rfl, rfl⟩
  · exact Or.inr rfl

/-- An operation with a handle does what it does with the stream, or nothing. -/
theorem withHandle_ind {P : Mux → Prop} {place : Nat} {f : Nat → Mux × Answer} (idle : P m)
    (h : ∀ handle, m.handles[place]? = some handle → handle.live = true → P (f handle.serial).1) :
    P (m.withHandle place f).1 := by
  rcases m.withHandle_cases place f with ⟨handle, hplace, hlive, heq⟩ | heq
  · rw [heq]
    exact h handle hplace hlive
  · rw [heq]
    exact idle

theorem perform_read {place : Nat} {handle : Handle} (hplace : m.handles[place]? = some handle)
    (hlive : handle.live = true) :
    m.perform (.read place) = ((m.read handle.serial).1, .reading (m.read handle.serial).2) := by
  obtain ⟨serial, label, live⟩ := handle
  cases hlive
  simp [perform, withHandle, hplace]

theorem perform_drop {place : Nat} {handle : Handle} (hplace : m.handles[place]? = some handle)
    (hlive : handle.live = true) : (m.perform (.drop place)).1 = m.drop place := by
  obtain ⟨serial, label, live⟩ := handle
  cases hlive
  simp [perform, withHandle, hplace]

/-! ### What one operation may do -/

/-- What an operation may do to a session. -/
structure Step (m : Mux) (op : Op) (m' : Mux) : Prop where
  side : m'.side = m.side
  /-- Apart from dropping a handle, everything is made of moves. -/
  ledger : Ledger.Moves m.ledger m'.ledger ∨
    ∃ place handle, op = .drop place ∧ m.handles[place]? = some handle ∧ handle.live = true ∧
      m'.ledger = m.ledger.drop place handle
  /-- Who closes the own end of the link. -/
  closed : m'.link.isClosed m.side = true →
    m.link.isClosed m.side = true ∨ m'.tornDown = true ∨ op = .closeLink
  keeps : m.isClosed = true → m'.isClosed = true
  /-- Once the connection is gone, only closing the session tears it down. -/
  heeds : m.isClosed = true → op ≠ .close → m'.tornDown = m.tornDown
  /-- The loop ends when the connection is gone. -/
  ended : m'.loop = .ended → m.loop = .ended ∨ m'.isClosed = true
  /-- What came in and is no frame yet is for the loop to change. -/
  still : op ≠ .turn → m'.assembler = m.assembler ∧ m'.loop = m.loop

theorem Step.of_passes {op : Op} {out : List Frame} (hpasses : m.Passes out m')
    (hheeds : op ≠ .close → m.Heeds m')
    (hledger : Ledger.Moves m.ledger m'.ledger ∨
      ∃ place handle, op = .drop place ∧ m.handles[place]? = some handle ∧ handle.live = true ∧
        m'.ledger = m.ledger.drop place handle) : m.Step op m' where
  side := hpasses.side
  ledger := hledger
  closed h := by
    rw [hpasses.closed, Bool.or_eq_true, Bool.and_eq_true] at h
    rcases h with h | h
    · exact Or.inl h
    · exact Or.inr (Or.inl h.1)
  keeps := hpasses.isClosed
  heeds hclosed hop := hheeds hop hclosed
  ended h := Or.inl (hpasses.loop ▸ h)
  still _ := ⟨hpasses.assembler, hpasses.loop⟩

theorem Step.refl (m : Mux) (op : Op) : m.Step op m :=
  .of_passes (.refl m) (fun _ => .of_eq rfl) (Or.inl .refl)

theorem Step.of_link {op : Op} {link : Link} (m : Mux)
    (h : link.isClosed m.side = m.link.isClosed m.side) : m.Step op { m with link } where
  side := rfl
  ledger := Or.inl .refl
  closed hclosed := Or.inl (h ▸ hclosed)
  keeps hclosed := by
    unfold isClosed at hclosed ⊢
    rw [h]
    exact hclosed
  heeds _ _ := rfl
  ended h := Or.inl h
  still _ := ⟨rfl, rfl⟩

theorem Step.of_turns (sound : m.ledger.Sound) (h : m.Turns m') : m.Step .turn m' := by
  cases h with
  | idle going calm =>
    exact ⟨rfl, Or.inl .refl, Or.inl, id, fun _ _ => rfl, fun h => absurd h going,
      fun hop => absurd rfl hop⟩
  | fed read =>
    have hkeeps := (Link.read_keeps read).2.1
    refine ⟨rfl, Or.inl .refl, fun h => Or.inl (hkeeps ▸ h), ?_, fun _ _ => rfl,
      fun h => (by cases h), fun hop => absurd rfl hop⟩
    intro h
    unfold isClosed at h ⊢
    rw [hkeeps]
    exact h
  | @frame frame rest cut =>
    obtain ⟨out, l, hreceiving, hleads⟩ :=
      receives { m with assembler := ⟨rest⟩, loop := .ready } frame
    have hstep : Step { m with assembler := ⟨rest⟩, loop := .ready } .turn _ :=
      .of_passes hleads.passes (fun _ => hleads.heeds)
        (Or.inl (hleads.ledger ▸ hreceiving.moves sound (Frame.fits_of_cut cut).1.id_le))
    refine ⟨hstep.side, hstep.ledger, hstep.closed, hstep.keeps, hstep.heeds, ?_,
      fun hop => absurd rfl hop⟩
    intro h
    rw [hleads.passes.loop] at h
    cases h
  | stopped passes ledger =>
    have hstep : Step { m with loop := .ended } .turn m' := by
      refine .of_passes passes ?_ ?_
      · intro _ hclosed
        rcases ledger with ⟨-, heq⟩ | ⟨hup, -⟩
        · exact congrArg Ledger.tornDown heq
        · change m.isClosed = true at hclosed
          rw [hup] at hclosed
          cases hclosed
      · rcases ledger with ⟨-, heq⟩ | ⟨-, heq⟩
        · exact Or.inl (heq ▸ .refl)
        · exact Or.inl (heq ▸ .single .tear)
    refine ⟨hstep.side, hstep.ledger, hstep.closed, hstep.keeps, hstep.heeds,
      fun _ => Or.inr ?_, fun hop => absurd rfl hop⟩
    rcases ledger with ⟨hclosed, -⟩ | ⟨-, heq⟩
    · exact hstep.keeps hclosed
    · have htorn : m'.tornDown = true := congrArg Ledger.tornDown heq
      rw [isClosed, htorn, Bool.true_or]

/-! #### Operations of a user -/

theorem Opens.moves {label : Option String} {result : Mux × Except Fault Nat}
    (h : m.Opens label result) : Ledger.Moves m.ledger result.1.ledger := by
  cases h with
  | refused fault => exact .refl
  | opened up draw passes ledger =>
    rw [ledger]
    exact .single (.opened label (up_of_isClosed_eq_false up) draw)
  | torn fault up draw passes ledger =>
    rw [ledger]
    exact .single (.openTorn (up_of_isClosed_eq_false up) draw)

theorem Opens.passes {label : Option String} {result : Mux × Except Fault Nat}
    (h : m.Opens label result) : ∃ out, m.Passes out result.1 := by
  cases h with
  | refused fault => exact ⟨_, .refl m⟩
  | opened up draw passes ledger => exact ⟨_, passes⟩
  | torn fault up draw passes ledger => exact ⟨_, passes⟩

theorem Terminates.moves {serial : Nat} {ending : Ending} {result : Mux × Except Fault Unit}
    (h : m.Terminates serial ending result) : Ledger.Moves m.ledger result.1.ledger := by
  cases h with
  | idle result isOver => exact .refl
  | told live up passes ledger =>
    rw [ledger]
    exact .single (.finish ending live)
  | untold fault live why passes ledger =>
    rw [ledger]
    exact .single (.finish ending live)
  | torn fault live up passes ledger =>
    rw [ledger]
    exact .single (.finishTorn ending live)

theorem Terminates.passes {serial : Nat} {ending : Ending} {result : Mux × Except Fault Unit}
    (h : m.Terminates serial ending result) : ∃ out, m.Passes out result.1 := by
  cases h with
  | idle result isOver => exact ⟨_, .refl m⟩
  | told live up passes ledger => exact ⟨_, passes⟩
  | untold fault live why passes ledger => exact ⟨_, passes⟩
  | torn fault live up passes ledger => exact ⟨_, passes⟩

theorem Writes.moves {serial : Nat} {data : Bytes} {result : Mux × Except Fault Nat}
    (h : m.Writes serial data result) : Ledger.Moves m.ledger result.1.ledger := by
  cases h with
  | refused fault => exact .refl
  | written size live up passes ledger => exact ledger ▸ .refl
  | torn fault up passes ledger =>
    rw [ledger]
    exact .single .tear

theorem Writes.passes {serial : Nat} {data : Bytes} {result : Mux × Except Fault Nat}
    (h : m.Writes serial data result) : ∃ out, m.Passes out result.1 := by
  cases h with
  | refused fault => exact ⟨_, .refl m⟩
  | written size live up passes ledger => exact ⟨_, passes⟩
  | torn fault up passes ledger => exact ⟨_, passes⟩

theorem Reads.moves {serial : Nat} {result : Mux × Reading} (h : m.Reads serial result) :
    Ledger.Moves m.ledger result.1.ledger := by
  cases h with
  | chunk front passes ledger =>
    rw [ledger]
    exact .single (.pop front)
  | blocked live drained => exact .refl
  | ended isOver drained verdict passes ledger =>
    rw [ledger]
    exact .single (.sweep _)

theorem Reads.passes {serial : Nat} {result : Mux × Reading} (h : m.Reads serial result) :
    m.Passes [] result.1 := by
  cases h with
  | chunk front passes ledger => exact passes
  | blocked live drained => exact .refl m
  | ended isOver drained verdict passes ledger => exact passes

theorem Step.of_read (op : Op) (m : Mux) (serial : Nat) : m.Step op (m.read serial).1 :=
  .of_passes (reads m serial).passes (fun _ => (reads m serial).heeds)
    (Or.inl (reads m serial).moves)

theorem Step.of_withHandle {op : Op} {place : Nat} {f : Nat → Mux × Answer}
    (h : ∀ handle, m.handles[place]? = some handle → handle.live = true →
      m.Step op (f handle.serial).1) : m.Step op (m.withHandle place f).1 :=
  withHandle_ind (P := m.Step op) (.refl m op) h

/-! #### All operations -/

theorem step (sound : m.ledger.Sound) (op : Op) : m.Step op (m.perform op).1 := by
  cases op with
  | openStream label =>
    obtain ⟨out, hpasses⟩ := (opens m label).passes
    exact .of_passes hpasses (fun _ => (opens m label).heeds) (Or.inl (opens m label).moves)
  | write place payload =>
    apply Step.of_withHandle
    intro handle _ _
    have hwrites := writes m handle.serial payload.data
    obtain ⟨out, hpasses⟩ := hwrites.passes
    exact .of_passes hpasses (fun _ => hwrites.heeds) (Or.inl hwrites.moves)
  | finish place ending =>
    apply Step.of_withHandle
    intro handle _ _
    have hends := terminates m handle.serial ending
    obtain ⟨out, hpasses⟩ := hends.passes
    exact .of_passes hpasses (fun _ => hends.heeds) (Or.inl hends.moves)
  | read place => exact .of_withHandle fun handle _ _ => .of_read _ m handle.serial
  | drop place =>
    apply Step.of_withHandle
    intro handle hplace hlive
    have hledger := ledger_drop hplace hlive
    refine .of_passes (passes_drop m place) (fun _ => .of_eq ?_)
      (Or.inr ⟨place, handle, rfl, hplace, hlive, hledger⟩)
    exact (congrArg Ledger.tornDown hledger).trans (Ledger.tornDown_drop ..)
  | send frame =>
    obtain ⟨out, l, hsending, hleads⟩ := sends_leads m frame
    exact .of_passes hleads.passes (fun _ => hleads.heeds) (Or.inl (hleads.ledger ▸ hsending.moves))
  | readById id =>
    simp only [perform, readById]
    split
    · exact .refl m _
    · exact .of_read _ m _
  | close =>
    refine .of_passes (passes_tearDown m .closedHere) (fun h => absurd rfl h) (Or.inl ?_)
    by_cases htorn : m.tornDown = true
    · rw [perform, tearDown_of_torn htorn]
    · rw [perform, ledger_tearDown (by simpa using htorn)]
      exact .single .tear
  | turn =>
    simp only [perform]
    rcases hturn : m.turn with _ | m'
    · exact .refl m _
    · exact .of_turns sound (turns hturn)
  | arrive chunk =>
    simp only [perform]
    split
    · rename_i link hwrite
      have hkeeps := (Link.write_keeps hwrite).2.1
      rw [Side.other_other] at hkeeps
      exact .of_link m hkeeps
    · exact .refl m _
  | readFar size =>
    apply Step.of_link
    have hfar := m.link.get_read_other m.side.other size
    rw [Side.other_other] at hfar
    exact congrArg LinkEnd.closed hfar
  | closeFar =>
    apply Step.of_link
    have hfar := m.link.isClosed_close_other m.side.other
    rwa [Side.other_other] at hfar
  | closeLink =>
    -- the link is closed behind the session, which is not torn down by that
    obtain ⟨hlink, hledger, hloop, hassembler, -⟩ := m.shut_keeps
    have hside : m.shut.1.side = m.side := congrArg Ledger.side hledger
    have htorn : m.shut.1.tornDown = m.tornDown := congrArg Ledger.tornDown hledger
    refine ⟨hside, Or.inl (hledger ▸ .refl), fun _ => Or.inr (Or.inr rfl), ?_,
      fun _ _ => htorn, fun h => Or.inl (hloop ▸ h), fun _ => ⟨hassembler, hloop⟩⟩
    intro _
    change m.shut.1.isClosed = true
    rw [isClosed, hlink, hside, Link.isClosed_close_self, Bool.or_true]
  | resetLink => exact .of_link m rfl
  | adjust conditions =>
    exact ⟨rfl, Or.inl .refl, Or.inl, id, fun _ _ => rfl, Or.inl, fun _ => ⟨rfl, rfl⟩⟩

/-! ### After every run -/

theorem Step.sound {op : Op} (h : m.Step op m') (sound : m.ledger.Sound) : m'.ledger.Sound := by
  rcases h.ledger with hmoves | ⟨place, handle, -, hplace, -, heq⟩
  · exact sound.moves hmoves
  · rw [heq]
    exact sound.drop hplace

theorem sound_run (side : Side) (settings : Settings) (ops : List Op) :
    (run side settings ops).ledger.Sound := by
  induction ops using List.reverseRecOn with
  | nil => exact Ledger.sound_start side settings []
  | append_singleton ops op ih =>
    rw [run_concat]
    exact (step ih op).sound ih

/-- What holds of a ledger at the beginning and is kept by every move, and by dropping a handle,
holds after every run. -/
theorem ledger_run {P : Ledger → Prop} (hstart : P (start side settings).ledger)
    (hmove : ∀ {l l' : Ledger}, P l → Ledger.Move l l' → P l')
    (hdrop : ∀ {l : Ledger} {place : Nat} {handle : Handle}, P l →
      l.handles[place]? = some handle → P (l.drop place handle))
    (ops : List Op) : P (run side settings ops).ledger := by
  induction ops using List.reverseRecOn with
  | nil => exact hstart
  | append_singleton ops op ih =>
    have hmoves : ∀ {l : Ledger}, Ledger.Moves (run side settings ops).ledger l → P l := by
      intro l h
      induction h with
      | refl => exact ih
      | tail _ hlast hbefore => exact hmove hbefore hlast
    rw [run_concat]
    rcases (step (sound_run side settings ops) op).ledger with h | ⟨_, _, -, hplace, -, heq⟩
    · exact hmoves h
    · rw [heq]
      exact hdrop ih hplace

theorem side_run (side : Side) (settings : Settings) (ops : List Op) :
    (run side settings ops).side = side := by
  induction ops using List.reverseRecOn with
  | nil => rfl
  | append_singleton ops op ih =>
    rw [run_concat, (step (sound_run side settings ops) op).side, ih]

end Mux

end StreamMux
