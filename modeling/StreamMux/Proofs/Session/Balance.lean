import StreamMux.Proofs.Session.Counting
import StreamMux.Proofs.Session.Run

/-!
# Whether the counters are sane

The counters of a session are meant to be `Counters.Sane` at all times.  The part on bytes is; the
part on streams is not, since a stream of the peer that ends before it was announced counts as
ended, and neither as opened nor as accepted.

* `Mux.balanced_run`, `Mux.overhead_run` — what holds of the counters after every run;
* `Mux.sane_iff_endedUnseen_le_going` — they are sane exactly as long as the streams that ended
  unseen are no more than the streams in somebody's hands that nobody ended;
* `Mux.not_sane_after_unseen_end` — two frames of the peer that make them insane.
-/

namespace StreamMux.Mux

variable {m m' : Mux} {side : Side} {settings : Settings}

/-! ### Runs keep the accounts -/

theorem accounts_withHandle {size : Nat} {place : Nat} {f : Nat → Mux × Answer}
    (h : ∀ serial, ∃ out, m.Accounts size [] out (f serial).1) :
    ∃ out, m.Accounts size [] out (m.withHandle place f).1 :=
  withHandle_ind (P := fun after => ∃ out, m.Accounts size [] out after) ⟨[], .refl m⟩
    fun handle _ _ => h handle.serial

/-- The number of payload bytes that an operation is given to send. -/
def Op.load : Op → Nat
  | .write _ payload => payload.data.length
  | .send frame => frame.payload.length
  | _ => 0

/-- The frames that an operation applies: a turn of the loop applies one at most. -/
def applies (m : Mux) : Op → List Frame
  | .turn => m.upcoming?.toList
  | _ => []

/-- Every operation counts the frames that it applies and passes on, and no others. -/
theorem accounts_perform (m : Mux) (op : Op) :
    ∃ out, m.Accounts op.load (m.applies op) out (m.perform op).1 := by
  cases op with
  | openStream label => exact accounts_openStream ..
  | write place payload => exact accounts_withHandle fun _ => accounts_write ..
  | finish place ending => exact accounts_withHandle fun _ => accounts_terminate ..
  | read place => exact accounts_withHandle fun _ => ⟨[], accounts_read ..⟩
  | drop place => exact accounts_withHandle fun _ => ⟨[], accounts_drop ..⟩
  | send frame => exact accounts_send_some ..
  | readById id => exact ⟨[], accounts_readById ..⟩
  | close => exact ⟨[], accounts_tearDown ..⟩
  | turn =>
    simp only [perform, applies]
    rcases hturn : m.turn with _ | after
    · rw [upcoming?_of_turn_eq_none hturn]
      exact ⟨[], .refl m⟩
    · exact accounts_turn hturn
  | arrive chunk =>
    simp only [perform]
    split
    · exact ⟨[], .of_eq rfl rfl rfl rfl⟩
    · exact ⟨[], .refl m⟩
  | readFar size => exact ⟨[], .of_eq rfl rfl rfl rfl⟩
  | closeFar => exact ⟨[], .of_eq rfl rfl rfl rfl⟩
  | closeLink => exact ⟨[], accounts_shut m⟩
  | resetLink => exact ⟨[], .of_eq rfl rfl rfl rfl⟩
  | adjust conditions => exact ⟨[], .of_eq rfl rfl rfl rfl⟩

theorem balanced_run (side : Side) (settings : Settings) (ops : List Op) :
    (run side settings ops).Balanced := by
  induction ops using List.reverseRecOn with
  | nil => exact ⟨rfl, rfl, rfl⟩
  | append_singleton ops op ih =>
    rw [run_concat]
    obtain ⟨out, haccounts⟩ := accounts_perform (run side settings ops) op
    exact haccounts.balanced ih

theorem Accounts.overhead_le {size : Nat} {got out : List Frame} (h : m.Accounts size got out m')
    (before : Counters.smallestOverhead * m.counters.frames ≤ m.counters.overhead) :
    Counters.smallestOverhead * m'.counters.frames ≤ m'.counters.overhead := by
  have hgot := Frame.le_overheadBytes got
  have hout := Frame.le_overheadBytes out
  simp only [Counters.frames] at before ⊢
  rw [h.framesIn, h.framesOut, h.overhead]
  simp only [Nat.mul_add] at before ⊢
  omega

theorem overhead_run (side : Side) (settings : Settings) (ops : List Op) :
    Counters.smallestOverhead * (run side settings ops).counters.frames ≤
      (run side settings ops).counters.overhead := by
  induction ops using List.reverseRecOn with
  | nil => exact Nat.le_refl 0
  | append_singleton ops op ih =>
    rw [run_concat]
    obtain ⟨out, haccounts⟩ := accounts_perform (run side settings ops) op
    exact haccounts.overhead_le ih

/-! ### Streams that ended and streams in hand -/

/-- The number of the streams that one of the sides ended although nobody was ever handed them. -/
def endedUnseen (m : Mux) : Nat :=
  (List.range m.registry.streams.length).countP fun serial =>
    (m.registry.stream serial).ending.isSome && serial ∉ m.handles.map Handle.serial

/-- The number of the streams that somebody was handed and neither side ended. -/
def going (m : Mux) : Nat :=
  m.handles.countP fun handle => (m.registry.stream handle.serial).ending.isNone

theorem count_closed_add_count_reset (endings : List (Option Ending)) :
    endings.count (some .closed) + endings.count (some .reset) = endings.countP Option.isSome := by
  induction endings with
  | nil => rfl
  | cons ending others ih =>
    rcases ending with _ | _ | _ <;> simp <;> omega

theorem endings_eq_range (registry : Registry) : registry.endings =
    (List.range registry.streams.length).map fun serial => (registry.stream serial).ending := by
  apply List.ext_getElem
  · simp [Registry.endings]
  · intro serial _ hlt
    have hlt : serial < registry.streams.length := by simpa using hlt
    simp [Registry.endings, Registry.stream, List.getD_eq_getElem?_getD, hlt]

theorem count_endings (registry : Registry) :
    registry.endings.count (some .closed) + registry.endings.count (some .reset) =
      (List.range registry.streams.length).countP fun serial =>
        (registry.stream serial).ending.isSome := by
  rw [count_closed_add_count_reset, endings_eq_range, List.countP_map]
  rfl

/-- Streams in somebody's hands are counted by their handles, of which each has one. -/
theorem countP_handles (sound : m.ledger.Sound) (p : Nat → Bool) :
    m.handles.countP (fun handle => p handle.serial) =
      (List.range m.registry.streams.length).countP fun serial =>
        p serial && serial ∈ m.handles.map Handle.serial := by
  have hperm : (m.handles.map Handle.serial).Perm
      ((List.range m.registry.streams.length).filter (· ∈ m.handles.map Handle.serial)) := by
    refine (List.perm_ext_iff_of_nodup sound.handles_nodup (List.nodup_range.filter _)).mpr ?_
    intro serial
    simp only [List.mem_filter, List.mem_range, decide_eq_true_eq]
    refine ⟨fun hmem => ⟨?_, hmem⟩, And.right⟩
    obtain ⟨handle, hhandle, rfl⟩ := List.mem_map.mp hmem
    exact sound.held_lt hhandle
  calc m.handles.countP (fun handle => p handle.serial)
      = (m.handles.map Handle.serial).countP p := by rw [List.countP_map]; rfl
    _ = ((List.range m.registry.streams.length).filter
          (· ∈ m.handles.map Handle.serial)).countP p := hperm.countP_eq p
    _ = _ := List.countP_filter

/-- What ended and what goes on, together, is what was opened and accepted, and what ended
unseen. -/
theorem endings_balance (sound : m.ledger.Sound) (balanced : m.Balanced) :
    m.counters.closed + m.counters.reset + m.going =
      m.counters.opened + m.counters.accepted + m.endedUnseen := by
  have hended := count_endings m.registry
  have hheld := countP_handles sound fun serial => (m.registry.stream serial).ending.isSome
  have hsplit := List.countP_eq_countP_filter_add (List.range m.registry.streams.length)
    (fun serial => (m.registry.stream serial).ending.isSome)
    (fun serial => decide (serial ∈ m.handles.map Handle.serial))
  have hhandles := m.handles.length_eq_countP_add_countP
    fun handle => (m.registry.stream handle.serial).ending.isSome
  rw [List.countP_filter, List.countP_filter] at hsplit
  simp only [Bool.not_eq_true, Bool.decide_eq_false, Option.not_isSome] at hhandles
  rw [balanced.closed, balanced.reset, balanced.held]
  simp only [going, endedUnseen, decide_not]
  omega

/-- **The counters are sane as long as few streams ended unseen.**  After every run the bytes
besides payloads are no fewer than all frames take at least; and no more streams ended than were
opened and accepted exactly if the streams that ended before anyone was handed them are at most as
many as the streams in somebody's hands that go on. -/
theorem sane_iff_endedUnseen_le_going (side : Side) (settings : Settings) (ops : List Op) :
    Counters.smallestOverhead * (run side settings ops).counters.frames ≤
        (run side settings ops).counters.overhead ∧
      ((run side settings ops).counters.Sane ↔
        (run side settings ops).endedUnseen ≤ (run side settings ops).going) := by
  have hoverhead := overhead_run side settings ops
  have hbalance := endings_balance (sound_run side settings ops) (balanced_run side settings ops)
  refine ⟨hoverhead, fun hsane => ?_, fun hle => ⟨hoverhead, ?_⟩⟩
  · have hstreams := hsane.2
    omega
  · omega

/-- The peer sends a byte on a stream that it never announces, and closes it: one stream ended, and
none was opened or accepted. -/
theorem not_sane_after_unseen_end :
    (run .listener .usual [.arrive [2, 1, 0xaa, 4, 0], .turn, .turn, .turn, .turn]).counters =
        { framesIn := 2, bytesIn := 1, overhead := 4, closed := 1 } ∧
      ¬ (run .listener .usual
        [.arrive [2, 1, 0xaa, 4, 0], .turn, .turn, .turn, .turn]).counters.Sane := by
  refine ⟨by decide +kernel, fun hsane => ?_⟩
  have hle := (sane_iff_endedUnseen_le_going _ _ _).2.mp hsane
  exact absurd hle (by decide +kernel)

end StreamMux.Mux
