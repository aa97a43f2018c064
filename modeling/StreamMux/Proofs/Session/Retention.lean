import StreamMux.Proofs.Session.Acceptance

/-!
# How long streams stay

A stream that is over stays current as long as it is pending or its handle is held.  It leaves when
its end is told to a reader, or when its handle is dropped after its end.  A handle that is dropped
*before* the end of its stream is not there to take the stream along, whether a user drops it or the
handler that would have got it cannot be started.

* `Mux.kept_iff_not_droppedEarly` — in every run, the current streams that are over and that nobody
  has any more are those whose handle was dropped before they were over.
-/

namespace StreamMux

namespace Ledger

variable {l l' : Ledger}

/-! ### Dropping a handle -/

/-- Dropping the handle of a stream that is over leaves the stream behind. -/
theorem find?_drop_ne (sound : l.Sound) {place : Nat} {handle : Handle}
    (hover : (l.stream handle.serial).isOver = true) (id : UInt64) :
    (l.drop place handle).find? id ≠ some handle.serial := by
  intro hfind
  have hbefore := find?_of_drop hfind
  have hid := (sound.current hbefore).2
  unfold drop at hfind
  rw [if_pos (by rw [hover, hid]; simpa using hbefore)] at hfind
  simp only [find?, Registry.find?_remove, hid, if_true] at hfind
  cases hfind

theorem Move.handles_cases (h : Move l l') :
    l'.handles = l.handles ∨
      (∃ handle : Handle, handle.live = true ∧ l'.handles = l.handles ++ [handle]) ∨
      ∃ id serial, id ∈ l.registry.pending ∧ l.find? id = some serial ∧
        l' = l.misstart id serial := by
  cases h with
  | opened label up draw => exact Or.inr (Or.inl ⟨_, rfl, rfl⟩)
  | accept pending current => exact Or.inr (Or.inl ⟨_, rfl, rfl⟩)
  | misstart pending current => exact Or.inr (Or.inr ⟨_, _, pending, current, rfl⟩)
  | _ => exact Or.inl rfl

/-- A stream that is over goes with a handle that is dropped as soon as it is made. -/
theorem Moves.gone_of_dead (h : Moves l l') (sound : l.Sound) {serial : Nat} (hlt : serial < l.size)
    (hover : (l.stream serial).isOver = true)
    (hfree : ∀ handle ∈ l.handles, handle.serial ≠ serial) :
    ∀ handle ∈ l'.handles, handle.serial = serial → handle.live = false →
      ∀ id, l'.find? id ≠ some serial := by
  induction h with
  | refl => exact fun handle hmem heq => absurd heq (hfree handle hmem)
  | @tail before after hmoves hmove ih =>
    intro handle hmem heq hdead id hfind
    have hthere := Nat.lt_of_lt_of_le hlt (Moves.extends hmoves).size_le
    have hold : handle ∈ before.handles → False := fun hbefore =>
      ih handle hbefore heq hdead id (hmove.extends.current hthere hfind)
    rcases hmove.handles_cases with hsame | ⟨new, hlive, hnew⟩ |
      ⟨other, found, hpending, hcurrent, rfl⟩
    · exact hold (hsame ▸ hmem)
    · rw [hnew] at hmem
      rcases List.mem_append.mp hmem with hbefore | hlast
      · exact hold hbefore
      · rw [List.mem_singleton.mp hlast, hlive] at hdead
        cases hdead
    · rw [handles_misstart] at hmem
      rcases List.mem_append.mp hmem with hbefore | hlast
      · exact hold hbefore
      · obtain rfl := List.mem_singleton.mp hlast
        subst heq
        exact find?_drop_ne ((sound.moves hmoves).accept hpending hcurrent)
          ((Moves.keepsEnd hmoves hlt hover).isOver hover) id hfind

end Ledger

namespace Mux

variable {side : Side} {settings : Settings} {ops : List Op}

/-! ### Handles dropped early -/

/-- An operation drops the handle of a stream that is not over: a user drops it, or the handler of a
stream that is announced, and may begin only then, cannot be started. -/
inductive DropsEarly (m : Mux) : Op → Nat → Prop where
  | dropped {place : Nat} {handle : Handle} (held : m.handles[place]? = some handle)
      (live : handle.live = true) (going : (m.registry.stream handle.serial).isOver = false) :
      DropsEarly m (.drop place) handle.serial
  | unstarted {op : Op} {serial : Nat} (misstarts : m.Misstarts op serial)
      (going : serial < m.registry.streams.length → (m.registry.stream serial).isOver = false) :
      DropsEarly m op serial

/-- The handle of a stream was dropped before the stream was over. -/
def DroppedEarly (side : Side) (settings : Settings) (ops : List Op) (serial : Nat) : Prop :=
  ∃ before op after, ops = before ++ op :: after ∧ (run side settings before).DropsEarly op serial

theorem DroppedEarly.concat {serial : Nat} (h : DroppedEarly side settings ops serial) (op : Op) :
    DroppedEarly side settings (ops ++ [op]) serial := by
  obtain ⟨before, early, after, rfl, hearly⟩ := h
  exact ⟨before, early, after ++ [op], by simp, hearly⟩

theorem Step.getElem?_dead {m m' : Mux} {op : Op} (h : m.Step op m') {place : Nat} {handle : Handle}
    (hplace : m.handles[place]? = some handle) (hdead : handle.live = false) :
    m'.handles[place]? = some handle :=
  h.getElem?_kept hplace fun hlive => by simp [hdead] at hlive

theorem DropsEarly.dead {m : Mux} {op : Op} {serial : Nat} (h : m.DropsEarly op serial)
    (sound : m.ledger.Sound) : ∃ (place : Nat) (handle : Handle),
      (m.perform op).1.handles[place]? = some handle ∧ handle.serial = serial ∧
        handle.live = false := by
  cases h with
  | @dropped place handle held live going =>
    refine ⟨place, { handle with live := false }, ?_, rfl, rfl⟩
    have hhandles := congrArg Ledger.handles (ledger_drop held live)
    rw [Ledger.handles_drop] at hhandles
    rw [perform_drop held live, show (m.drop place).handles = _ from hhandles]
    exact List.getElem?_set_self (List.getElem?_eq_some_iff.mp held).1
  | unstarted misstarts going =>
    obtain ⟨hfails, frame, hann⟩ := misstarts
    cases dispatch sound op with
    | accepted other found announces greets isOver role number =>
      obtain rfl := hann.inj announces
      refine ⟨m.handles.length, _, by rw [greets.handles]; simp; rfl, rfl, ?_⟩
      rw [Option.isNone_eq_false_iff]
      exact hfails
    | silent others arrivals handles => exact absurd hann (others frame serial)

theorem dead_of_droppedEarly {serial : Nat} (h : DroppedEarly side settings ops serial) :
    ∃ handle ∈ (run side settings ops).handles, handle.serial = serial ∧ handle.live = false := by
  obtain ⟨before, early, after, rfl, hearly⟩ := h
  obtain ⟨place, handle, hplace, hserial, hdead⟩ := hearly.dead (sound_run side settings before)
  suffices hkept : (run side settings (before ++ early :: after)).handles[place]? = some handle from
    ⟨handle, List.mem_of_getElem? hkept, hserial, hdead⟩
  induction after using List.reverseRecOn with
  | nil =>
    rw [run_concat]
    exact hplace
  | append_singleton after op ih =>
    rw [show before ++ early :: (after ++ [op]) = (before ++ early :: after) ++ [op] by simp,
      run_concat]
    exact (step (sound_run ..) op).getElem?_dead ih hdead

/-- Other operations than turns of the loop add no handle that is dropped already. -/
theorem live_of_new {m : Mux} {op : Op} (hop : op ≠ .turn) {new : List Handle}
    (h : (m.perform op).1.handles = m.handles ++ new) : ∀ handle ∈ new, handle.live = true := by
  have hnone : (m.perform op).1.handles.length = m.handles.length →
      ∀ handle ∈ new, handle.live = true := by
    intro hlength handle hmem
    rw [h, List.length_append] at hlength
    rw [List.eq_nil_of_length_eq_zero (l := new) (by omega)] at hmem
    cases hmem
  rcases (m.silent_perform hop).2 with heq | ⟨label, rfl⟩
  · have hlength := congrArg List.length heq
    simp only [Ledger.serials, List.length_map] at hlength
    exact hnone hlength
  · have hopens := opens m label
    simp only [perform] at h hnone
    generalize m.openStream label = result at hopens h hnone
    cases hopens with
    | refused fault => exact hnone rfl
    | opened up draw passes ledger =>
      have hhandles := congrArg Ledger.handles ledger
      obtain rfl : new = [{ serial := m.ledger.size, label }] :=
        List.append_cancel_left (h.symm.trans hhandles)
      simp
    | torn fault up draw passes ledger =>
      exact hnone (congrArg List.length (congrArg Ledger.handles ledger))

/-- A handle that is dropped as soon as it is made, or by a user, is dropped early unless its stream
is over and goes with it. -/
theorem dropsEarly_or_gone_of_new {m : Mux} {op : Op} (sound : m.ledger.Sound)
    (hmoves : m.ledger.Moves (m.perform op).1.ledger) {new : List Handle}
    (hhandles : (m.perform op).1.handles = m.handles ++ new) {handle : Handle} (hmem : handle ∈ new)
    (hdead : handle.live = false) : m.DropsEarly op handle.serial ∨
      ∀ id, (m.perform op).1.registry.find? id ≠ some handle.serial := by
  -- only the loop makes handles that are dropped already
  have hturn : op = .turn := by
    by_contra hop
    rw [live_of_new hop hhandles handle hmem] at hdead
    cases hdead
  subst hturn
  have hmisstarts := misstarts_of_dead sound hhandles hmem hdead
  by_cases hover : handle.serial < m.registry.streams.length ∧
      (m.registry.stream handle.serial).isOver = true
  · obtain ⟨-, frame, hann⟩ := hmisstarts
    have hthere : handle ∈ (m.perform .turn).1.handles :=
      hhandles ▸ List.mem_append_right _ hmem
    exact Or.inr (hmoves.gone_of_dead sound hover.1 hover.2 (hann.not_held sound) handle hthere rfl
      hdead)
  · refine Or.inl (.unstarted hmisstarts fun hthere => ?_)
    simpa using fun h => hover ⟨hthere, h⟩

theorem dropsEarly_or_gone_of_drop {m : Mux} (sound : m.ledger.Sound) {place : Nat}
    {handle : Handle} (held : m.handles[place]? = some handle) (live : handle.live = true) :
    m.DropsEarly (.drop place) handle.serial ∨
      ∀ id, (m.perform (.drop place)).1.registry.find? id ≠ some handle.serial := by
  by_cases hover : (m.registry.stream handle.serial).isOver = true
  · refine Or.inr fun id => ?_
    have hregistry := congrArg Ledger.registry (ledger_drop held live)
    rw [perform_drop held live, show (m.drop place).registry = _ from hregistry]
    exact Ledger.find?_drop_ne sound hover id
  · exact Or.inl (.dropped held live (by simpa using hover))

/-- A handle that is not held any more was not held before, or it is dropped early or goes with its
stream. -/
theorem dead_cases {m : Mux} (sound : m.ledger.Sound) (op : Op) {place : Nat} {handle : Handle}
    (hplace : (m.perform op).1.handles[place]? = some handle) (hdead : handle.live = false) :
    (m.handles[place]? = some handle ∧
        ∀ {id}, (m.perform op).1.registry.find? id = some handle.serial →
          m.registry.find? id = some handle.serial) ∨
      m.DropsEarly op handle.serial ∨
      ∀ id, (m.perform op).1.registry.find? id ≠ some handle.serial := by
  rcases (step sound op).ledger with hmoves | ⟨other, dropped, rfl, held, live, heq⟩
  · obtain ⟨new, hhandles⟩ := hmoves.extends.handles
    change (m.perform op).1.handles = m.handles ++ new at hhandles
    have hplaced := hplace
    rw [hhandles] at hplaced
    by_cases hlt : place < m.handles.length
    · -- the handle was there before
      rw [List.getElem?_append_left hlt] at hplaced
      have hthere := sound.held_lt (List.mem_of_getElem? hplaced)
      exact Or.inl ⟨hplaced, fun hfind => hmoves.extends.current hthere hfind⟩
    · rw [List.getElem?_append_right (Nat.le_of_not_lt hlt)] at hplaced
      exact Or.inr (dropsEarly_or_gone_of_new sound hmoves hhandles (List.mem_of_getElem? hplaced)
        hdead)
  · have hhandles := congrArg Ledger.handles heq
    change (m.perform (.drop other)).1.handles = _ at hhandles
    rw [hhandles, Ledger.handles_drop] at hplace
    change (m.handles.set other _)[place]? = some handle at hplace
    by_cases hne : other = place
    · subst hne
      rw [List.getElem?_set_self (List.getElem?_eq_some_iff.mp held).1] at hplace
      cases hplace
      have hcases := dropsEarly_or_gone_of_drop sound held live
      exact Or.inr hcases
    · rw [List.getElem?_set_ne hne] at hplace
      refine Or.inl ⟨hplace, fun {id} hfind => ?_⟩
      rw [show (m.perform (.drop other)).1.registry = _ from congrArg Ledger.registry heq] at hfind
      exact Ledger.find?_of_drop hfind

theorem droppedEarly_of_dead {place : Nat} {handle : Handle}
    (hplace : (run side settings ops).handles[place]? = some handle) (hdead : handle.live = false) :
    DroppedEarly side settings ops handle.serial ∨
      ∀ id, (run side settings ops).registry.find? id ≠ some handle.serial := by
  induction ops using List.reverseRecOn with
  | nil => cases hplace
  | append_singleton ops op ih =>
    rw [run_concat] at hplace ⊢
    rcases dead_cases (sound_run side settings ops) op hplace hdead with
      ⟨hbefore, hcurrent⟩ | hearly | hgone
    · exact (ih hbefore).imp (·.concat op) fun hgone id hfind => hgone id (hcurrent hfind)
    · exact Or.inl ⟨ops, op, [], rfl, hearly⟩
    · exact Or.inr hgone

/-- **Who keeps a stream that is over.**  In every run, a current stream that is over is pending or
held through a handle exactly if its handle was not dropped before its end. -/
theorem kept_iff_not_droppedEarly {id : UInt64} {serial : Nat}
    (hfind : (run side settings ops).registry.find? id = some serial)
    (hover : ((run side settings ops).registry.stream serial).isOver = true) :
    (id ∈ (run side settings ops).registry.pending ∨
      ∃ handle ∈ (run side settings ops).handles, handle.serial = serial ∧ handle.live = true) ↔
    ¬ DroppedEarly side settings ops serial := by
  have hsound := sound_run side settings ops
  constructor
  · intro hkept hearly
    obtain ⟨dead, hdead, hserial, hfalse⟩ := dead_of_droppedEarly hearly
    rcases hkept with hpending | ⟨handle, hmem, rfl, hlive⟩
    · obtain ⟨waiting, hwaiting, -, hheld⟩ := hsound.waiting hpending
      cases hwaiting.symm.trans hfind
      exact hheld ⟨dead, hdead, hserial⟩
    · obtain ⟨p, hp⟩ := List.getElem?_of_mem hmem
      obtain ⟨q, hq⟩ := List.getElem?_of_mem hdead
      obtain rfl := hsound.place_inj hp hq hserial.symm
      cases hp.symm.trans hq
      rw [hlive] at hfalse
      cases hfalse
  · intro hearly
    rcases hsound.held hfind with hpending | ⟨handle, hmem, rfl⟩
    · exact Or.inl hpending
    · refine Or.inr ⟨handle, hmem, rfl, ?_⟩
      by_contra hlive
      obtain ⟨place, hplace⟩ := List.getElem?_of_mem hmem
      rcases droppedEarly_of_dead hplace (by simpa using hlive) with h | h
      · exact hearly h
      · exact h id hfind

/-- The peer opens a stream and sends a byte, the handle is dropped, and the peer closes the stream:
it stays current, and nobody has it. -/
theorem not_kept_after_early_drop :
    (run .listener .usual [.arrive [0, 0, 2, 1, 0xaa], .turn, .turn, .turn, .turn, .turn, .drop 0,
      .arrive [4, 0], .turn, .turn]).registry.find? 0 = some 0 ∧
    ((run .listener .usual [.arrive [0, 0, 2, 1, 0xaa], .turn, .turn, .turn, .turn, .turn, .drop 0,
      .arrive [4, 0], .turn, .turn]).registry.stream 0).isOver = true ∧
    ¬ (0 ∈ (run .listener .usual [.arrive [0, 0, 2, 1, 0xaa], .turn, .turn, .turn, .turn, .turn,
        .drop 0, .arrive [4, 0], .turn, .turn]).registry.pending ∨
      ∃ handle ∈ (run .listener .usual [.arrive [0, 0, 2, 1, 0xaa], .turn, .turn, .turn, .turn,
        .turn, .drop 0, .arrive [4, 0], .turn, .turn]).handles,
        handle.serial = 0 ∧ handle.live = true) := by
  have hfind : (run .listener .usual [.arrive [0, 0, 2, 1, 0xaa], .turn, .turn, .turn, .turn, .turn,
      .drop 0, .arrive [4, 0], .turn, .turn]).registry.find? 0 = some 0 := by decide +kernel
  have hover : ((run .listener .usual [.arrive [0, 0, 2, 1, 0xaa], .turn, .turn, .turn, .turn,
      .turn, .drop 0, .arrive [4, 0], .turn, .turn]).registry.stream 0).isOver = true := by
    decide +kernel
  have hheld : (run .listener .usual [.arrive [0, 0, 2, 1, 0xaa], .turn, .turn, .turn, .turn,
      .turn]).handles[0]? = some { serial := 0, label := none } := by decide +kernel
  refine ⟨hfind, hover, fun hkept => (kept_iff_not_droppedEarly hfind hover).mp hkept ?_⟩
  exact ⟨[.arrive [0, 0, 2, 1, 0xaa], .turn, .turn, .turn, .turn, .turn], .drop 0,
    [.arrive [4, 0], .turn, .turn], rfl,
    .dropped hheld rfl (by decide +kernel)⟩

end Mux

end StreamMux
