import StreamMux.Proofs.Session.Arrivals
import StreamMux.Proofs.Session.Balance
import StreamMux.Proofs.Session.Endings

/-!
# What the counters of streams and frames count

Counting a stream is a matter of its own, apart from opening or ending it, and teardown changes
streams without counting them.  The counters are exact all the same.

* `Mux.openings` — how many streams were opened, going by the answers;
* `Mux.Tallied`, `Mux.tallied_run` — after every run the counters of opened, closed and reset
  streams and of frames that went out are the numbers of what happened.
-/

namespace StreamMux.Mux

variable {m m' : Mux} {side : Side} {settings : Settings} {ops : List Op}

/-! ### Streams that were opened -/

/-- Whether an operation is to open a stream, and is answered that it did. -/
def opensStream (m : Mux) : Op → Bool
  | .openStream label => (m.openStream label).2.isOk
  | _ => false

/-- How often a stream was opened meanwhile. -/
def openings (m : Mux) (ops : List Op) : Nat :=
  (m.trail ops).countP fun step => step.1.opensStream step.2

theorem openings_concat (ops : List Op) (op : Op) :
    (start side settings).openings (ops ++ [op]) =
      (start side settings).openings ops +
        ((run side settings ops).opensStream op).toNat := by
  rw [openings, trail_append, List.countP_append]
  refine congrArg (_ + ·) (List.countP_singleton.trans ?_)
  change (if (run side settings ops).opensStream op then 1 else 0) = _
  cases (run side settings ops).opensStream op <;> rfl

theorem opened_perform (m : Mux) (op : Op) :
    (m.perform op).1.counters.opened = m.counters.opened + (m.opensStream op).toNat := by
  have hsame : op ≠ .turn → (∀ label, op ≠ .openStream label) →
      (m.perform op).1.counters.opened = m.counters.opened := by
    intro hturn hopen
    obtain ⟨hsilent, hserials | ⟨label, rfl⟩⟩ := m.silent_perform hturn
    · -- who has a handle was opened or accepted, so that equal lengths give equal counts
      have hlength := congrArg List.length hserials
      simp only [Ledger.serials, List.length_map] at hlength
      have hopened := hsilent.opened
      change (m.perform op).1.handles.length = m.handles.length at hlength
      omega
    · exact absurd rfl (hopen label)
  cases op with
  | turn =>
    simp only [perform, opensStream, Bool.toNat_false, Nat.add_zero]
    rcases hturn : m.turn with _ | after
    · rfl
    · obtain ⟨made, hgreets⟩ := greets_turn hturn
      exact hgreets.opened
  | openStream label =>
    have hlocal : Op.openStream label ≠ .turn := by simp
    have hopened := (m.silent_perform hlocal).1.opened
    have hopens := opens m label
    simp only [perform, opensStream] at hopened ⊢
    generalize m.openStream label = result at hopens hopened ⊢
    cases hopens with
    | refused fault => rfl
    | @opened after id ids up draw passes ledger =>
      have hhandles : after.handles.length = m.handles.length + 1 :=
        (congrArg (·.handles.length) ledger :).trans (List.length_append ..)
      change after.counters.opened = m.counters.opened + 1
      change after.counters.opened + _ = _ + after.handles.length at hopened
      omega
    | @torn after id ids fault up draw passes ledger =>
      have hhandles : after.handles = m.handles := congrArg Ledger.handles ledger
      exact Nat.add_right_cancel (hhandles ▸ hopened)
  | _ => exact hsame (by simp) (by simp)

theorem opened_run (side : Side) (settings : Settings) (ops : List Op) :
    (run side settings ops).counters.opened = (start side settings).openings ops := by
  induction ops using List.reverseRecOn with
  | nil => rfl
  | append_singleton ops op ih => rw [run_concat, openings_concat, opened_perform, ih]

/-! ### Frames that went out -/

theorem framesOut_run (side : Side) (settings : Settings) (ops : List Op) :
    (run side settings ops).counters.framesOut = (run side settings ops).written.length := by
  induction ops using List.reverseRecOn with
  | nil => rfl
  | append_singleton ops op ih =>
    obtain ⟨out, haccounts⟩ := accounts_perform (run side settings ops) op
    rw [run_concat, haccounts.framesOut, haccounts.written, ih, List.length_append,
      List.length_map]

/-! ### Streams that ended -/

theorem state_eq_closed_iff {stream : Stream} :
    stream.state = .closed ↔ stream.ending = some .closed := by
  unfold Stream.state
  rcases stream.ending with _ | _ | _ <;> cases stream.severed <;> simp [Ending.state]

theorem state_eq_reset_iff {stream : Stream} :
    stream.state = .reset ↔
      stream.ending = some .reset ∨ stream.ending = none ∧ stream.severed = true := by
  unfold Stream.state
  rcases stream.ending with _ | _ | _ <;> cases stream.severed <;> simp [Ending.state]

/-- The streams that were ended in a certain way, by what happened to each. -/
theorem count_endings_run (side : Side) (settings : Settings) (ops : List Op) (ending : Ending) :
    (run side settings ops).registry.endings.count (some ending) =
      (List.range (run side settings ops).registry.streams.length).countP fun serial =>
        ending ∈ (start side settings).endings ops serial := by
  rw [endings_eq_range, List.count, List.countP_map]
  refine List.countP_congr fun serial hmem => ?_
  rw [ending_run]
  simp

/-! ### The law of the counters -/

/-- What the counters say after some operations. -/
structure Tallied (side : Side) (settings : Settings) (ops : List Op) : Prop where
  opened : (run side settings ops).counters.opened = (start side settings).openings ops
  framesOut : (run side settings ops).counters.framesOut = (run side settings ops).written.length
  /-- All streams that ever began are counted that are closed. -/
  closed : (run side settings ops).counters.closed =
    (run side settings ops).registry.streams.countP fun stream => stream.state = .closed
  /-- Those are counted that were reset here, by the peer, or for want of room or of a handler. -/
  reset : (run side settings ops).counters.reset =
    (List.range (run side settings ops).registry.streams.length).countP fun serial =>
      .reset ∈ (start side settings).endings ops serial
  /-- A stream is ended once at most, however often it is closed and reset. -/
  once : ∀ serial, ((start side settings).endings ops serial).length ≤ 1
  /-- Both counters together count a stream once at most. -/
  together : (run side settings ops).counters.closed + (run side settings ops).counters.reset =
    (List.range (run side settings ops).registry.streams.length).countP fun serial =>
      (start side settings).endings ops serial ≠ []
  closed_iff : ∀ serial < (run side settings ops).registry.streams.length,
    (((run side settings ops).registry.stream serial).state = .closed ↔
      (start side settings).endings ops serial = [.closed])
  /-- Besides the streams that are counted as reset, those are reset that teardown severed. -/
  reset_iff : ∀ serial < (run side settings ops).registry.streams.length,
    (((run side settings ops).registry.stream serial).state = .reset ↔
      (start side settings).endings ops serial = [.reset] ∨
        (start side settings).endings ops serial = [] ∧
          ((run side settings ops).registry.stream serial).severed = true)

/-- **The counters are exact.**  After every run, the counter of opened streams is the number of
openings that were answered so, and that of frames that went out the number of writes to the link
that succeeded.  The streams counted as closed are those that are closed, and the streams counted
as reset those that were reset here, by the peer, or for want of room or of a handler, and not those
that teardown made so; no stream counts twice. -/
theorem tallied_run (side : Side) (settings : Settings) (ops : List Op) :
    Tallied side settings ops where
  opened := opened_run side settings ops
  framesOut := framesOut_run side settings ops
  closed := by
    rw [(balanced_run side settings ops).closed, Registry.endings, List.count, List.countP_map]
    refine List.countP_congr fun stream _ => ?_
    simp [state_eq_closed_iff]
  reset := by
    rw [(balanced_run side settings ops).reset, count_endings_run]
  once serial := by
    rw [ending_run]
    rcases ((run side settings ops).ledger.stream serial).ending with _ | _ <;> simp
  together := by
    rw [(balanced_run side settings ops).closed, (balanced_run side settings ops).reset,
      count_endings]
    refine List.countP_congr fun serial hmem => ?_
    rw [ending_run]
    rcases ((run side settings ops).registry.stream serial).ending with _ | _ <;> simp
  closed_iff serial hlt := by
    rw [ending_run, state_eq_closed_iff]
    rcases ((run side settings ops).registry.stream serial).ending with _ | _ <;> simp
  reset_iff serial hlt := by
    rw [ending_run, state_eq_reset_iff]
    rcases ((run side settings ops).registry.stream serial).ending with _ | _ <;> simp

end StreamMux.Mux
