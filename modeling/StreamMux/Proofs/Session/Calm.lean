import StreamMux.Proofs.Session.Decided
import StreamMux.Proofs.Session.Willing

/-!
# Sessions on a link that takes everything

* `Mux.Calm` — the connection is there, and the link takes whatever is written;
* `Mux.Calm.openStream`, `Mux.Calm.use`, `Mux.Calm.receive` — a calm session does what its ledger
  decides.
-/

namespace StreamMux

namespace Mux

variable {m m' : Mux} {out : List Frame}

/-! ### Calm sessions -/

/-- The connection is there, and nothing is about to go wrong with it. -/
structure Calm (m : Mux) : Prop where
  up : m.tornDown = false
  conditions : m.conditions = {}
  near : m.link.isClosed m.side = false
  far : m.link.isClosed m.side.other = false
  reset : m.link.wasReset = false

theorem calm_start (side : Side) (settings : Settings) : (start side settings).Calm := by
  cases side <;> exact ⟨rfl, rfl, rfl, rfl, rfl⟩

namespace Calm

theorem isClosed (calm : m.Calm) : m.isClosed = false := by
  rw [Mux.isClosed, calm.up, calm.near]
  rfl

theorem willing (calm : m.Calm) : m.Willing := by
  intro _
  rw [calm.conditions, Link.writeFault?, calm.near, calm.far, calm.reset]
  exact ⟨rfl, rfl⟩

theorem of_beside (calm : m.Calm) (h : m.Beside m') (conditions : m'.conditions = m.conditions) :
    m'.Calm where
  up := h.torn.trans calm.up
  conditions := conditions.trans calm.conditions
  near := by rw [h.link, h.side, calm.near]
  far := by rw [h.link, h.side, calm.far]
  reset := by rw [h.link, calm.reset]

theorem of_leads (calm : m.Calm) {l : Ledger} (h : m.Leads out l m')
    (up : l.tornDown = false) : m'.Calm where
  up := (congrArg Ledger.tornDown h.ledger).trans up
  conditions := h.passes.calm calm.conditions
  near := by
    have hup : m'.tornDown = false := (congrArg Ledger.tornDown h.ledger).trans up
    rw [h.passes.side, h.passes.closed, calm.near, hup]
    rfl
  far := by rw [h.passes.side, h.passes.far_closed, calm.far]
  reset := h.passes.reset.trans calm.reset

theorem leads (calm : m.Calm) {l : Ledger} (passes : m.Passes out m') (ledger : m'.ledger = l) :
    m.Leads out l m' := ⟨passes, ledger, .of_up calm.isClosed⟩

theorem send (calm : m.Calm) {frame : Frame} (hencode : frame.encode = .ok frame.wire) :
    m.Leads [frame] m.ledger (m.send frame).1 ∧ (m.send frame).2 = .ok frame.wire.length := by
  have htorn := calm.willing.send frame
  have hsize : (m.send frame).2 = .ok frame.wire.length := by
    obtain ⟨hfail, hlink⟩ := calm.willing calm.isClosed
    obtain ⟨link, hwrite⟩ := Link.write_of_none hlink frame.wire
    simp only [Mux.send, hencode, calm.isClosed, Bool.false_eq_true, if_false, transmit, hfail,
      hwrite]
  refine ⟨?_, hsize⟩
  have hsends := sends m frame
  generalize m.send frame = result at htorn hsize hsends ⊢
  cases hsends with
  | refused fault why => cases hsize
  | sent size up passes ledger => exact calm.leads passes ledger
  | torn fault up passes ledger => cases hsize

theorem terminate (calm : m.Calm) (sound : m.ledger.Sound) (serial : Nat) (ending : Ending) :
    m.Leads (m.ledger.terminated serial ending).2 (m.ledger.terminated serial ending).1
        (m.terminate serial ending).1 ∧
      (m.terminate serial ending).2 =
        if (m.ledger.stream serial).severed then .error .closed else .ok () := by
  by_cases hover : (m.ledger.stream serial).isOver = true
  · have hover : (m.registry.stream serial).isOver = true := hover
    have hsame : m.terminate serial ending =
        (m, if (m.registry.stream serial).severed then .error .closed else .ok ()) := by
      unfold Mux.terminate
      simp only
      split
      · rfl
      · rw [Stream.terminate_of_isOver hover]
    rw [hsame, Ledger.terminated, if_pos (show (m.ledger.stream serial).isOver = true from hover)]
    exact ⟨calm.leads (.refl m) rfl, rfl⟩
  · have hlive : (m.ledger.stream serial).isOver = false := by simpa using hover
    have hid := sound.id_le (Registry.lt_of_not_isOver hlive)
    have hended : (m.ended serial ending).Calm :=
      calm.of_beside (.ended m serial ending) (by cases ending <;> rfl)
    obtain ⟨hleads, hok⟩ := hended.send
      (Frame.encode_ofKind hid ((m.ledger.stream serial).role.endingKind ending) [])
    rw [terminate_of_live hlive, Ledger.terminated, if_neg hover]
    simp only
    refine ⟨calm.leads ?_ ?_, ?_⟩
    · have hsweep : ∀ after : Mux, after.Passes [] (after.sweep (m.registry.stream serial).id) :=
        fun _ => .of_eq rfl rfl rfl rfl rfl rfl rfl rfl
      exact ((m.passes_ended serial ending).nil_trans hleads.passes).trans_nil (hsweep _)
    · change ((m.ended serial ending).send _).1.ledger.sweep _ = _
      rw [← m.ledger_ended serial ending]
      exact congrArg (Ledger.sweep · _) hleads.ledger
    · rw [if_neg (by simp [Stream.severed_eq_false hlive])]
      exact congrArg (Except.map fun _ => ()) hok

theorem write (calm : m.Calm) (sound : m.ledger.Sound) (serial : Nat) (payload : Payload) :
    m.Leads (if (m.ledger.stream serial).isOver then []
        else [(m.ledger.stream serial).parcel payload.data]) m.ledger
        (m.write serial payload.data).1 ∧
      (m.write serial payload.data).2 = (m.ledger.stream serial).receipt payload.data := by
  change m.Leads (if (m.registry.stream serial).isOver then []
    else [(m.registry.stream serial).parcel payload.data]) m.ledger _ ∧ _ =
      (m.registry.stream serial).receipt payload.data
  by_cases hover : (m.registry.stream serial).isOver = true
  · have hstate : (m.registry.stream serial).state ≠ .live := by
      simpa only [Stream.isOver, bne_iff_ne] using hover
    -- a stream that is over refuses before anything is sent
    have hsame : m.write serial payload.data =
        (m, (m.registry.stream serial).receipt payload.data) := by
      unfold Mux.write Stream.receipt
      simp only [calm.isClosed, Bool.false_or]
      split
      · rfl
      · cases hend : (m.registry.stream serial).state with
        | live => exact absurd hend hstate
        | closed => rfl
        | reset => rfl
    rw [if_pos hover, hsame]
    exact ⟨calm.leads (.refl m) rfl, rfl⟩
  · have hlive : (m.registry.stream serial).isOver = false := by simpa using hover
    have hstate := Stream.state_eq_live_iff.mpr hlive
    have hid : (m.registry.stream serial).id ≤ Header.maxId :=
      sound.id_le (Registry.lt_of_not_isOver hlive)
    have hencode : ((m.registry.stream serial).parcel payload.data).encode =
        .ok ((m.registry.stream serial).parcel payload.data).wire :=
      Frame.encode_ofKind hid _ _
    obtain ⟨hleads, hok⟩ := calm.send hencode
    have hsame : m.write serial payload.data =
        m.send ((m.registry.stream serial).parcel payload.data) := by
      unfold Mux.write
      simp only [calm.isClosed, Bool.false_or, Stream.severed_eq_false hlive, Bool.false_eq_true,
        if_false, hstate]
      rfl
    rw [if_neg hover, hsame]
    refine ⟨hleads, ?_⟩
    simp only [hok, Stream.receipt, Stream.severed_eq_false hlive, Bool.false_eq_true, if_false,
      hstate]

theorem read (calm : m.Calm) (serial : Nat) :
    m.Leads [] (m.ledger.taken serial) (m.read serial).1 ∧
      (m.read serial).2 = (m.ledger.stream serial).reading := by
  change _ ∧ _ = (m.registry.stream serial).reading
  rcases m.read_cases serial with ⟨chunk, queue, hqueue, heq⟩ | ⟨hqueue, hlive, heq⟩ |
    ⟨hqueue, hover, heq⟩
  · have hfront : (m.ledger.stream serial).queue = chunk :: queue := hqueue
    have htaken : m.ledger.taken serial = m.ledger.pop serial queue := by
      simp only [Ledger.taken, hfront]
    rw [heq, htaken]
    exact ⟨calm.leads (.of_eq rfl rfl rfl rfl rfl rfl rfl rfl) rfl,
      by simp only [Stream.reading, hqueue]⟩
  · have hempty : (m.ledger.stream serial).queue = [] := hqueue
    have hgoing : ¬ (m.ledger.stream serial).isOver = true := Bool.eq_false_iff.mp hlive
    have htaken : m.ledger.taken serial = m.ledger := by
      simp only [Ledger.taken, hempty, if_neg hgoing]
    rw [heq, htaken]
    exact ⟨calm.leads (.refl m) rfl,
      by simp only [Stream.reading, hqueue, if_neg (Bool.eq_false_iff.mp hlive)]⟩
  · have hempty : (m.ledger.stream serial).queue = [] := hqueue
    have hended : (m.ledger.stream serial).isOver = true := hover
    have htaken : m.ledger.taken serial = m.ledger.sweep (m.registry.stream serial).id := by
      simp only [Ledger.taken, hempty, if_pos hended]
      rfl
    rw [heq, htaken]
    refine ⟨calm.leads (.of_eq rfl rfl rfl rfl rfl rfl rfl rfl) rfl, ?_⟩
    simp only [Stream.reading, hqueue, if_pos hover]
    rfl

theorem use (calm : m.Calm) (sound : m.ledger.Sound) (place : Nat) (usage : Usage) :
    m.Leads (m.ledger.used place usage).2 (m.ledger.used place usage).1
        (m.perform (usage.op place)).1 ∧
      (m.perform (usage.op place)).2 = m.ledger.replies place usage := by
  have hused := m.withHandle_eq place
  unfold Ledger.used Ledger.replies
  rcases hholder : m.ledger.holder? place with _ | handle
  · rw [hholder] at hused
    cases usage <;> exact ⟨calm.leads (by rw [Usage.op, perform, hused]; exact .refl m)
      (by rw [Usage.op, perform, hused]), by rw [Usage.op, perform, hused]⟩
  · rw [hholder] at hused
    cases usage with
    | write payload =>
      obtain ⟨hleads, hanswer⟩ := calm.write sound handle.serial payload
      rw [Usage.op, perform, hused]
      exact ⟨hleads, congrArg Answer.size hanswer⟩
    | finish ending =>
      obtain ⟨hleads, hanswer⟩ := calm.terminate sound handle.serial ending
      rw [Usage.op, perform, hused]
      exact ⟨hleads, congrArg Answer.done hanswer⟩
    | read =>
      obtain ⟨hleads, hanswer⟩ := calm.read handle.serial
      rw [Usage.op, perform, hused]
      exact ⟨hleads, congrArg Answer.reading hanswer⟩
    | drop =>
      obtain ⟨hplace, hlive⟩ := Option.filter_eq_some_iff.mp hholder
      rw [Usage.op, perform, hused]
      exact ⟨calm.leads (m.passes_drop place) (ledger_drop hplace hlive), rfl⟩

theorem openStream (calm : m.Calm) (label : Option String) :
    m.Leads (m.ledger.opened label).2 (m.ledger.opened label).1 (m.openStream label).1 := by
  have hopens := opens m label
  rcases hdraw : m.ids.draw with fault | ⟨id, ids⟩
  · have hsame : m.openStream label = (m, .error fault) := by
      simp only [Mux.openStream, calm.isClosed, Bool.false_eq_true, if_false, hdraw]
    have hopened : m.ledger.opened label = (m.ledger, []) := by
      simp only [Ledger.opened, show m.ledger.ids.draw = _ from hdraw]
    rw [hsame, hopened]
    exact calm.leads (.refl m) rfl
  · have hopened : m.ledger.opened label =
        ((m.ledger.register id ids).hold m.ledger.size label, [.ofKind id .newStream []]) := by
      simp only [Ledger.opened, show m.ledger.ids.draw = _ from hdraw]
    -- the announcement goes out, so that the stream stays
    have hok : ∃ place, (m.openStream label).2 = .ok place := by
      have hbegun : m.Beside { m with
          ids, registry := (m.registry.beginLocal id m.settings.queueLimit).1 } :=
        ⟨rfl, rfl, rfl, rfl⟩
      have hsent := ((calm.of_beside hbegun rfl).send
        (Frame.encode_ofKind (Ledger.draw_eq hdraw).2.1 .newStream [])).2
      simp only [Mux.openStream, calm.isClosed, Bool.false_eq_true, if_false, hdraw]
      generalize Mux.send _ _ = result at hsent ⊢
      obtain ⟨after, fault | size⟩ := result
      · cases hsent
      · exact ⟨_, rfl⟩
    obtain ⟨place, hok⟩ := hok
    generalize m.openStream label = result at hopens hok ⊢
    cases hopens with
    | refused fault => cases hok
    | opened up draw passes ledger =>
      rw [hdraw] at draw
      cases draw
      rw [hopened]
      exact calm.leads passes ledger
    | torn fault up draw passes ledger => cases hok

/-- What a calm session does when a frame of the peer comes in that begins no pending stream too
many. -/
theorem receive (calm : m.Calm) (sound : m.ledger.Sound) {frame : Frame}
    (hid : frame.id ≤ Header.maxId) (room : ¬ m.ledger.Crowds frame) :
    m.Leads (m.ledger.received frame).2 (m.ledger.received frame).1 (m.receive frame) := by
  obtain ⟨out, l, hreceiving, hleads⟩ := receives m frame
  have htorn : l.tornDown = false := by
    rw [← hleads.ledger]
    exact (calm.willing.receive frame).trans calm.up
  rw [calm.isClosed, calm.conditions] at hreceiving
  rw [← hreceiving.eq_received sound hid calm.up htorn (fun _ => rfl) room]
  exact hleads

end Calm

end Mux

end StreamMux
