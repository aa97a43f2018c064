import StreamMux.Proofs.Network.Basic
import StreamMux.Proofs.Session.Orderly

/-!
# One step of one session

`Network.Advance` says what one step does at the side that takes it: how the history goes on, which
frames are taken off those on their way to it, and which are put on their way to the other side.

* `Network.advance` — every step advances, as long as the frame in front may follow those applied.
-/

namespace StreamMux.Network

open Mux (Answer)

variable {m m' : Mux} {h h' : History} {flight flight' out : List Frame} {use : Use}
  {answer : Answer}

/-! ### Advances -/

/-- The frames on their way to a session that are not applied yet. -/
def Carries (m : Mux) (flight : List Frame) : Prop :=
  m.assembler.buffer ++ (m.link.ends.get m.side).pending = flight.flatMap Frame.wire

namespace Carries

theorem of_eq (h : Carries m flight) (side : m'.side = m.side)
    (assembler : m'.assembler = m.assembler)
    (near : (m'.link.ends.get m.side).pending = (m.link.ends.get m.side).pending) :
    Carries m' flight := by
  unfold Carries at h ⊢
  rw [assembler, side, near]
  exact h

/-- A chunk that is read moves from the link to the bytes that came in. -/
theorem fed (h : Carries m flight) {link : Link} {chunk : Bytes}
    (hread : m.link.read m.side m.settings.readSize = (link, .ok (some chunk))) :
    Carries { m with link, assembler := m.assembler.feed chunk, loop := .fed } flight := by
  unfold Carries at h ⊢
  rw [← h, Link.pending_read hread]
  exact List.append_assoc ..

theorem behind {n : Mux} (h : Carries n flight) (hside : n.side = m.side.other)
    (hlink : n.link = m.link) (hfar : (m'.link.ends.get m.side.other).pending =
      (m.link.ends.get m.side.other).pending ++ out.flatMap Frame.wire) :
    Carries { n with link := m'.link } (flight ++ out) := by
  unfold Carries at h ⊢
  rw [List.flatMap_append, ← h, List.append_assoc, hside, hlink, ← hfar]

end Carries

theorem far_of_read {link : Link} {chunk : Bytes}
    (hread : m.link.read m.side m.settings.readSize = (link, .ok (some chunk))) :
    (link.ends.get m.side.other).pending =
      (m.link.ends.get m.side.other).pending ++ List.flatMap Frame.wire [] := by
  have hother := m.link.get_read_other m.side m.settings.readSize
  rw [hread] at hother
  rw [hother]
  exact (List.append_nil _).symm

/-- A step ends the stream behind a handle: through the handle, or because no handler can be started
for a stream that comes in. -/
inductive EndsAt (m : Mux) : Use → Nat → Prop where
  | through {place : Nat} {handle : Handle} (ending : Ending)
      (given : m.handles[place]? = some handle) (held : handle.live = true)
      (going : (m.registry.stream handle.serial).isOver = false) :
      EndsAt m (.finish place ending) place
  | unstarted {serial : Nat} (misstarts : m.Misstarts .turn serial) :
      EndsAt m .turn m.handles.length

/-- What one step does at its side. -/
structure Advance (m : Mux) (h : History) (flight : List Frame) (use : Use) (answer : Answer)
    (m' : Mux) (h' : History) (flight' out : List Frame) : Prop where
  side : m'.side = m.side
  orderly : m'.ledger.Orderly h'
  closed : m'.link.isClosed m.side = true → m'.tornDown = true
  carries : Carries m' flight'
  got : h.got ++ flight = h'.got ++ flight'
  sent : h'.sent = h.sent ++ out
  /-- The frames sent go behind those on their way to the other side. -/
  far : (m'.link.ends.get m.side.other).pending =
    (m.link.ends.get m.side.other).pending ++ out.flatMap Frame.wire
  far_closed : m'.link.isClosed m.side.other = m.link.isClosed m.side.other
  wrote : ∀ p, h'.wrote p = h.wrote p ++ ((⟨m.side, use, answer⟩ : Event).written? m.side p).toList
  took : ∀ p, h'.took p = h.took p ++ ((⟨m.side, use, answer⟩ : Event).taken? m.side p).toList
  ended : ∀ p, h'.ended p → h.ended p ∨ EndsAt m use p
  calm : (∀ text, use ≠ .failStart text) → m.conditions = {} → m'.conditions = {}

/-- A step that neither writes nor reads data. -/
def Quiet (use : Use) (answer : Answer) : Prop :=
  ∀ side p, (⟨side, use, answer⟩ : Event).written? side p = none ∧
    (⟨side, use, answer⟩ : Event).taken? side p = none

theorem quiet_noHandle (use : Use) : Quiet use .noHandle := by
  intro side p
  cases use <;> exact ⟨rfl, rfl⟩

theorem Advance.of_passes (hpasses : m.Passes out m')
    (hclosed : m.link.isClosed m.side = true → m.tornDown = true) (hcarries : Carries m flight)
    (horderly : m'.ledger.Orderly h') (hgot : h'.got = h.got) (hsent : h'.sent = h.sent ++ out)
    (hwrote : ∀ p, h'.wrote p =
      h.wrote p ++ ((⟨m.side, use, answer⟩ : Event).written? m.side p).toList)
    (htook : ∀ p, h'.took p =
      h.took p ++ ((⟨m.side, use, answer⟩ : Event).taken? m.side p).toList)
    (hended : ∀ p, h'.ended p → h.ended p ∨ EndsAt m use p) :
    Advance m h flight use answer m' h' flight out where
  side := hpasses.side
  orderly := horderly
  closed hshut := by
    rw [hpasses.closed, Bool.or_eq_true, Bool.and_eq_true] at hshut
    exact hshut.elim (fun hbefore => hpasses.torn (hclosed hbefore)) And.left
  carries := hcarries.of_eq hpasses.side hpasses.assembler hpasses.near
  got := by rw [hgot]
  sent := hsent
  far := hpasses.far
  far_closed := hpasses.far_closed
  wrote := hwrote
  took := htook
  ended := hended
  calm _ := hpasses.calm

theorem Advance.of_quiet (hquiet : Quiet use answer) (hpasses : m.Passes out m')
    (hclosed : m.link.isClosed m.side = true → m.tornDown = true) (hcarries : Carries m flight)
    (horderly : m'.ledger.Orderly (h.emit out)) :
    Advance m h flight use answer m' (h.emit out) flight out :=
  .of_passes hpasses hclosed hcarries horderly rfl rfl
    (fun p => by rw [(hquiet m.side p).1]; exact (List.append_nil _).symm)
    (fun p => by rw [(hquiet m.side p).2]; exact (List.append_nil _).symm) fun _ => Or.inl

theorem Advance.refl (hquiet : Quiet use answer) (o : m.ledger.Orderly h)
    (hclosed : m.link.isClosed m.side = true → m.tornDown = true) (hcarries : Carries m flight) :
    Advance m h flight use answer m h flight [] := by
  have hadvance := Advance.of_quiet (h := h) hquiet (.refl m) hclosed hcarries
    (by rw [History.emit_nil]; exact o)
  rwa [History.emit_nil] at hadvance

/-! ### Steps of a user -/

section User

variable (o : m.ledger.Orderly h)
  (hclosed : m.link.isClosed m.side = true → m.tornDown = true) (hcarries : Carries m flight)

include o hclosed hcarries

theorem advance_openStream (label : Option String) :
    ∃ h' flight' out, Advance m h flight (.openStream label) (m.perform (.openStream label)).2
      (m.perform (.openStream label)).1 h' flight' out := by
  have hquiet : ∀ result, Quiet (.openStream label) (.opened result) :=
    fun result side p => ⟨rfl, rfl⟩
  have hopens := Mux.opens m label
  simp only [Mux.perform]
  generalize m.openStream label = result at hopens ⊢
  cases hopens with
  | refused fault => exact ⟨h, flight, [], .refl (hquiet _) o hclosed hcarries⟩
  | opened up draw passes ledger =>
    have hup := Mux.up_of_isClosed_eq_false up
    refine ⟨_, flight, _, .of_quiet (hquiet _) passes hclosed hcarries (ledger ▸ ?_)⟩
    exact ⟨(o.census.opened hup draw label).of_same rfl fun _ hended => hended,
      o.mail.opened o.census hup draw label,
      o.candid.enroll o.census.toSound (.opened o.census.toSound draw label) Iff.rfl
        fun hended => endedBy_concat.mpr (Or.inl hended)⟩
  | torn fault up draw passes ledger =>
    refine ⟨_, flight, _, .of_quiet (hquiet _) passes hclosed hcarries (ledger ▸ ?_)⟩
    rw [History.emit_nil]
    exact ⟨o.census.openTorn (Mux.up_of_isClosed_eq_false up) draw, o.mail.openTorn o.census,
      .of_torn rfl⟩

theorem advance_withHandle {place : Nat} {f : Nat → Mux × Answer}
    (hheld : ∀ handle, m.handles[place]? = some handle → handle.live = true →
      ∃ h' flight' out, Advance m h flight use (f handle.serial).2 (f handle.serial).1 h' flight'
        out) :
    ∃ h' flight' out, Advance m h flight use (m.withHandle place f).2 (m.withHandle place f).1 h'
      flight' out := by
  rcases m.withHandle_cases place f with ⟨handle, hplace, hlive, heq⟩ | heq
  · rw [heq]
    exact hheld handle hplace hlive
  · rw [heq]
    exact ⟨h, flight, [], .refl (quiet_noHandle use) o hclosed hcarries⟩

theorem advance_write (place : Nat) (payload : Payload) :
    ∃ h' flight' out, Advance m h flight (.write place payload)
      (m.perform (.write place payload)).2 (m.perform (.write place payload)).1 h' flight' out := by
  apply advance_withHandle o hclosed hcarries
  intro handle hplace _
  have hserial : m.ledger.serials[place]? = some handle.serial := Ledger.getElem?_serials hplace
  have hquiet : ∀ fault, Quiet (.write place payload) (.size (.error fault)) :=
    fun fault side p => ⟨rfl, rfl⟩
  have hwrites := Mux.writes m handle.serial payload.data
  generalize m.write handle.serial payload.data = result at hwrites ⊢
  cases hwrites with
  | refused fault => exact ⟨h, flight, [], .refl (hquiet _) o hclosed hcarries⟩
  | @written after size live up passes ledger =>
    have hfollows := o.follows_parcel hserial live payload.length_lt
    have horderly : after.ledger.Orderly
        ((h.emit [(m.ledger.stream handle.serial).parcel payload.data]).write place
          payload.data) := by
      rw [ledger]
      exact ⟨o.census.of_same rfl fun _ hended => hended,
        o.mail.written o.census hserial hfollows,
        (o.candid.emit _).of_same rfl fun hended => hended⟩
    refine ⟨_, flight, _, .of_passes passes hclosed hcarries horderly rfl rfl ?_
      (fun p => (List.append_nil _).symm) fun _ => Or.inl⟩
    intro p
    change Function.update h.wrote place (h.wrote place ++ [payload.data]) p = _
    by_cases hsame : p = place
    · subst hsame
      simp [Event.written?]
    · rw [Function.update_of_ne hsame]
      simp [Event.written?, Ne.symm hsame]
  | torn fault up passes ledger =>
    refine ⟨_, flight, _, .of_quiet (hquiet _) passes hclosed hcarries (ledger ▸ ?_)⟩
    rw [History.emit_nil]
    exact ⟨o.census.tear, o.mail.tear, .of_torn rfl⟩

theorem advance_finish (place : Nat) (ending : Ending) :
    ∃ h' flight' out, Advance m h flight (.finish place ending)
      (m.perform (.finish place ending)).2 (m.perform (.finish place ending)).1 h' flight' out := by
  apply advance_withHandle o hclosed hcarries
  intro handle hplace hheld
  have hserial : m.ledger.serials[place]? = some handle.serial := Ledger.getElem?_serials hplace
  have hmem := List.mem_of_getElem? hserial
  have hquiet : ∀ result, Quiet (.finish place ending) (.done result) :=
    fun result side p => ⟨rfl, rfl⟩
  have hends := Mux.terminates m handle.serial ending
  generalize m.terminate handle.serial ending = result at hends ⊢
  -- an open stream that ends does so through this handle
  have hthrough : (m.ledger.stream handle.serial).isOver = false → ∀ p, (h.finish place).ended p →
      h.ended p ∨ EndsAt m (.finish place ending) p := fun hlive p hended => by
    rcases hended with rfl | hended
    · exact Or.inr (.through ending hplace hheld hlive)
    · exact Or.inl hended
  have hended : m.ledger.Orderly (h.finish place) :=
    ⟨o.census.of_same rfl fun _ => Or.inr, o.mail.ended place,
      o.candid.of_same rfl fun hended => hended⟩
  have hcause : ∀ q, m.ledger.serials[q]? = some handle.serial →
      m.ledger.Caused (h.finish place) q handle.serial := fun q hq =>
    Or.inr (Or.inl (Or.inl (o.census.distinct hq hserial rfl)))
  have hgone : m.isClosed = true → m.ledger.tornDown = true := fun hgone =>
    (Bool.or_eq_true_iff.mp hgone).elim id hclosed
  cases hends with
  | idle result isOver => exact ⟨h, flight, [], .refl (hquiet _) o hclosed hcarries⟩
  | told live up passes ledger =>
    have htold := hended.told ending live hcause (Or.inl hmem) (m.ledger.stream handle.serial).id
    exact ⟨(h.finish place).emit _, flight, _, .of_passes passes hclosed hcarries (ledger ▸ htold)
      rfl rfl (fun p => (List.append_nil _).symm) (fun p => (List.append_nil _).symm)
      (hthrough live)⟩
  | untold fault live why passes ledger => exact absurd why (o.not_untold hgone live)
  | torn fault live up passes ledger =>
    have htorn : (m.ledger.finish handle.serial ending).tear.Orderly (h.finish place) :=
      ⟨(hended.census.finish ending live hcause (Or.inl hmem)).tear,
        (hended.mail.finish handle.serial ending).tear, .of_torn rfl⟩
    exact ⟨h.finish place, flight, _, .of_passes passes hclosed hcarries (ledger ▸ htorn) rfl
      (List.append_nil _).symm (fun p => (List.append_nil _).symm)
      (fun p => (List.append_nil _).symm) (hthrough live)⟩

theorem advance_read (place : Nat) :
    ∃ h' flight' out, Advance m h flight (.read place)
      (m.perform (.read place)).2 (m.perform (.read place)).1 h' flight' out := by
  apply advance_withHandle o hclosed hcarries
  intro handle hplace _
  have hserial : m.ledger.serials[place]? = some handle.serial := Ledger.getElem?_serials hplace
  have hreads := Mux.reads m handle.serial
  generalize m.read handle.serial = result at hreads ⊢
  cases hreads with
  | @chunk _ chunk queue front passes ledger =>
    refine ⟨h.take place chunk, flight, _, .of_passes passes hclosed hcarries (ledger ▸ ?_) rfl
      (List.append_nil _).symm (fun p => (List.append_nil _).symm) ?_ fun _ => Or.inl⟩
    · exact ⟨(o.census.put_queue (Or.inl (List.mem_of_getElem? hserial))).of_same rfl
        fun _ hended => hended, o.mail.take o.census hserial front,
        (o.candid.put_queue handle.serial queue).of_same rfl fun hended => hended⟩
    · intro p
      change Function.update h.took place (h.took place ++ [chunk]) p = _
      by_cases hsame : p = place
      · subst hsame
        simp [Event.taken?]
      · rw [Function.update_of_ne hsame]
        simp [Event.taken?, Ne.symm hsame]
  | blocked live drained =>
    exact ⟨h, flight, [], .refl (fun side p => ⟨rfl, rfl⟩) o hclosed hcarries⟩
  | @ended _ reading isOver drained verdict passes ledger =>
    have hquiet : Quiet (.read place) (.reading reading) := fun side p => by
      rcases verdict with rfl | ⟨fault, rfl⟩ <;> exact ⟨rfl, rfl⟩
    refine ⟨_, flight, _, .of_quiet hquiet passes hclosed hcarries (ledger ▸ ?_)⟩
    rw [History.emit_nil]
    exact ⟨o.census.sweep _, o.mail.sweep _, o.candid.sweep _⟩

theorem advance_drop (place : Nat) :
    ∃ h' flight' out, Advance m h flight (.drop place)
      (m.perform (.drop place)).2 (m.perform (.drop place)).1 h' flight' out := by
  apply advance_withHandle o hclosed hcarries
  intro handle hplace hlive
  refine ⟨_, flight, _, .of_quiet (fun side p => ⟨rfl, rfl⟩) (Mux.passes_drop m place) hclosed
    hcarries (Mux.ledger_drop hplace hlive ▸ ?_)⟩
  rw [History.emit_nil]
  exact ⟨o.census.drop hplace, o.mail.drop hplace, o.candid.drop hplace⟩

theorem advance_close :
    ∃ h' flight' out, Advance m h flight .close (m.perform .close).2 (m.perform .close).1 h' flight'
      out := by
  have horderly : (m.tearDown .closedHere).ledger.Orderly h := by
    by_cases htorn : m.tornDown = true
    · rw [Mux.tearDown_of_torn htorn]
      exact o
    · rw [Mux.ledger_tearDown (by simpa using htorn)]
      exact ⟨o.census.tear, o.mail.tear, .of_torn rfl⟩
  refine ⟨_, flight, _, .of_quiet (fun side p => ⟨rfl, rfl⟩) (Mux.passes_tearDown m .closedHere)
    hclosed hcarries ?_⟩
  rw [History.emit_nil]
  exact horderly

/-! ### Turns of the loop -/

/-- What the frame in front must be for a session that is to apply it. -/
def Expects (m : Mux) (h : History) (flight : List Frame) : Prop :=
  ∀ frame others, flight = frame :: others → Follows m.side.other h.got frame ∧
    (m.side.owns frame.id = true → ∃ i ∈ m.ledger.serials, (m.ledger.stream i).id = frame.id)

theorem advance_fed {link : Link} {chunk : Bytes} (hquiet : Quiet use answer)
    (hread : m.link.read m.side m.settings.readSize = (link, .ok (some chunk))) :
    Advance m h flight use answer
      { m with link, assembler := m.assembler.feed chunk, loop := .fed } h flight [] where
  side := rfl
  orderly := o
  closed hshut := hclosed ((Link.read_keeps hread).2.1 ▸ hshut)
  carries := hcarries.fed hread
  got := rfl
  sent := (List.append_nil _).symm
  far := far_of_read hread
  far_closed := (Link.read_keeps hread).2.2
  wrote p := by
    rw [(hquiet m.side p).1]
    exact (List.append_nil _).symm
  took p := by
    rw [(hquiet m.side p).2]
    exact (List.append_nil _).symm
  ended _ := Or.inl
  calm _ hcalm := hcalm

theorem advance_frame {frame : Frame} {rest : Bytes} (hquiet : Quiet .turn answer)
    (hfits : ∀ f ∈ flight, f.Fits) (hexpects : Expects m h flight)
    (hcut : Frame.cut m.assembler.buffer m.settings.frameLimit = .ok (some (frame, rest)))
    (hafter : (m.perform .turn).1 = { m with assembler := ⟨rest⟩, loop := .ready }.receive frame) :
    ∃ h' flight' out, Advance m h flight .turn answer (m.perform .turn).1 h' flight' out := by
  obtain ⟨others, rfl, hothers⟩ := Frame.eq_head_of_cut hfits hcarries hcut
  obtain ⟨hfollows, hmine⟩ := hexpects frame others rfl
  obtain ⟨out, l, hreceiving, hleads⟩ :=
    Mux.receives { m with assembler := ⟨rest⟩, loop := .ready } frame
  have hgone : m.isClosed = true → m.ledger.tornDown = true := fun hgone =>
    (Bool.or_eq_true_iff.mp hgone).elim id hclosed
  rw [← hafter] at hleads
  rcases o.receiving hreceiving hgone hfollows hmine with horderly | ⟨hhandles, horderly⟩
  · have hpassed : Advance { m with assembler := ⟨rest⟩, loop := .ready } (h.get frame) others .turn
        answer (m.perform .turn).1 ((h.get frame).emit out) others out :=
      .of_quiet hquiet hleads.passes hclosed hothers (hleads.ledger ▸ horderly)
    refine ⟨_, others, out, { hpassed with got := ?_, ended := fun p => Or.inl }⟩
    simp [History.get, History.emit]
  · -- the stream that comes in is ended at the place of its handle
    have hmisstarts : m.Misstarts .turn m.ledger.size := by
      have hnew : (m.perform .turn).1.handles = m.handles ++ _ :=
        (congrArg Ledger.handles hleads.ledger).trans hhandles
      exact Mux.misstarts_of_dead o.census.toSound hnew (List.mem_singleton_self _) rfl
    have hpassed : Advance { m with assembler := ⟨rest⟩, loop := .ready }
        ((h.get frame).finish m.handles.length) others .turn answer (m.perform .turn).1
        (((h.get frame).finish m.handles.length).emit out) others out :=
      .of_quiet hquiet hleads.passes hclosed hothers (hleads.ledger ▸ horderly)
    refine ⟨_, others, out, { hpassed with got := ?_, ended := fun p hended => ?_ }⟩
    · simp [History.get, History.emit, History.finish]
    · rcases hended with rfl | hbefore
      · exact Or.inr (.unstarted hmisstarts)
      · exact Or.inl hbefore

theorem advance_turn (hfits : ∀ f ∈ flight, f.Fits) (hexpects : Expects m h flight) :
    ∃ h' flight' out, Advance m h flight .turn (m.perform .turn).2 (m.perform .turn).1 h' flight'
      out := by
  have hquiet : Quiet .turn (m.perform .turn).2 := fun side p => ⟨rfl, rfl⟩
  cases hturn : m.turn with
  | none =>
    have hidle : (m.perform .turn).1 = m := by simp [Mux.perform, hturn]
    rw [hidle]
    exact ⟨h, flight, [], .refl hquiet o hclosed hcarries⟩
  | some m' =>
    have hafter : (m.perform .turn).1 = m' := by simp [Mux.perform, hturn]
    cases Mux.turns hturn with
    | idle going calm =>
      rw [hafter]
      have hidle : Advance m h flight .turn (m.perform .turn).2 m h flight [] :=
        .refl hquiet o hclosed hcarries
      exact ⟨h, flight, [], { hidle with calm := fun _ => calm }⟩
    | fed read =>
      rw [hafter]
      exact ⟨h, flight, [], advance_fed o hclosed hcarries hquiet read⟩
    | frame cut => exact advance_frame o hclosed hcarries hquiet hfits hexpects cut hafter
    | stopped passes ledger =>
      rw [hafter]
      have horderly : m'.ledger.Orderly (h.emit []) := by
        rw [History.emit_nil]
        rcases ledger with ⟨-, hsame⟩ | ⟨-, htear⟩
        · rw [hsame]
          exact o
        · rw [htear]
          exact ⟨o.census.tear, o.mail.tear, .of_torn rfl⟩
      have hstopped : Advance { m with loop := .ended } h flight .turn (m.perform .turn).2 m'
          (h.emit []) flight [] := .of_quiet hquiet passes hclosed hcarries horderly
      exact ⟨_, flight, [], { hstopped with ended := fun _ => Or.inl }⟩

/-- **One step of one session.**  Whatever is done, the history goes on. -/
theorem advance (hfits : ∀ f ∈ flight, f.Fits) (hexpects : Expects m h flight) (use : Use) :
    ∃ h' flight' out, Advance m h flight use (m.perform use.op).2 (m.perform use.op).1 h' flight'
      out := by
  cases use with
  | openStream label => exact advance_openStream o hclosed hcarries label
  | write place payload => exact advance_write o hclosed hcarries place payload
  | finish place ending => exact advance_finish o hclosed hcarries place ending
  | read place => exact advance_read o hclosed hcarries place
  | drop place => exact advance_drop o hclosed hcarries place
  | turn => exact advance_turn o hclosed hcarries hfits hexpects
  | close => exact advance_close o hclosed hcarries
  | failStart text =>
    have hsame : Advance m h flight (.failStart text) .nothing m h flight [] :=
      .refl (fun _ _ => ⟨rfl, rfl⟩) o hclosed hcarries
    exact ⟨h, flight, [], { hsame with calm := fun hne => absurd rfl (hne text) }⟩

end User

end StreamMux.Network
