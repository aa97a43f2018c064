import StreamMux.Proofs.Session.Facet

/-!
# Operations keep to one number

* `Ledger.only_used`, `Ledger.only_received` — what is done with the streams of a number comes to
  the same on what a ledger holds of the number;
* `Ledger.only_used_of_ne`, `Ledger.only_received_of_ne` — what is done with other numbers leaves
  that alone, and sends nothing for the number.
-/

namespace StreamMux

namespace Ledger

variable {l l' : Ledger} {s id : UInt64} {serial : Nat}

/-! ### Ends, payloads and reads -/

theorem only_finish (h : l.Of s serial) (ending : Ending) :
    (l.finish serial ending).only s = (l.only s).finish (l.rank s serial) ending := by
  rw [finish, finish, h.stream_only]
  exact only_put h rfl

theorem only_push (h : l.Of s serial) (chunk : Bytes) :
    (l.push serial chunk).only s = (l.only s).push (l.rank s serial) chunk := by
  rw [push, push, h.stream_only]
  exact only_put h rfl

theorem only_pop (h : l.Of s serial) (queue : List Bytes) :
    (l.pop serial queue).only s = (l.only s).pop (l.rank s serial) queue := by
  rw [pop, pop, h.stream_only]
  exact only_put h rfl

theorem only_overflow (h : l.Of s serial) :
    (l.overflow serial).only s = (l.only s).overflow (l.rank s serial) := by
  refine ext_parts rfl rfl rfl rfl rfl rfl rfl rfl ?_
  change (l.overflows ++ [_]).filter _ = l.overflows.filter _ ++ [_]
  rw [h.stream_only]
  simp [h.2]

theorem only_overflow_of_ne (hne : (l.stream serial).id ≠ s) :
    (l.overflow serial).only s = l.only s := by
  refine ext_parts rfl rfl rfl rfl rfl rfl rfl rfl ?_
  change (l.overflows ++ [_]).filter _ = l.overflows.filter _
  simp [hne]

/-- What an operation does, as far as it concerns a number. -/
def restrict (s : UInt64) (result : Ledger × List Frame) : Ledger × List Frame :=
  (result.1.only s, result.2.filter (·.id == s))

theorem only_terminated (sound : l.Sound) (h : l.Of s serial) (ending : Ending) :
    restrict s (l.terminated serial ending) =
      (l.only s).terminated (l.rank s serial) ending := by
  rw [terminated, terminated, h.stream_only]
  split
  · rfl
  · have hsweep := only_sweep (sound.finish serial ending) s
    rw [only_finish h] at hsweep
    rw [h.2, restrict, hsweep]
    simp [Stream.farewell, Frame.ofKind, h.2]

theorem only_terminated_of_ne (hne : (l.stream serial).id ≠ s) (ending : Ending) :
    restrict s (l.terminated serial ending) = (l.only s, []) := by
  rw [terminated]
  split
  · rfl
  · have hfinish : (l.finish serial ending).only s = l.only s :=
      only_put_of_ne (fun h => hne h.2) rfl
    rw [restrict, only_sweep_of_ne _ hne, hfinish]
    simp [Stream.farewell, Frame.ofKind, hne]

theorem only_enqueued (sound : l.Sound) (h : l.Of s serial) (payload : Bytes) :
    restrict s (l.enqueued serial payload) = (l.only s).enqueued (l.rank s serial) payload := by
  rw [enqueued, enqueued, h.stream_only]
  split
  · rfl
  · split
    · rw [restrict, only_push h]
      rfl
    · have hsound : (l.overflow serial).Sound := { sound with }
      have hof : (l.overflow serial).Of s serial := h
      rw [only_terminated hsound hof, only_overflow h]
      rfl

theorem only_enqueued_of_ne (hne : (l.stream serial).id ≠ s) (payload : Bytes) :
    restrict s (l.enqueued serial payload) = (l.only s, []) := by
  rw [enqueued]
  split
  · rfl
  · split
    · have hpush : (l.push serial payload).only s = l.only s :=
        only_put_of_ne (fun h => hne h.2) rfl
      rw [restrict, hpush]
      rfl
    · have hother : ((l.overflow serial).stream serial).id ≠ s := hne
      rw [only_terminated_of_ne hother, only_overflow_of_ne hne]

theorem only_taken (sound : l.Sound) (h : l.Of s serial) :
    (l.taken serial).only s = (l.only s).taken (l.rank s serial) := by
  rw [taken, taken, h.stream_only]
  split
  · exact only_pop h _
  · split
    · rw [h.2]
      exact only_sweep sound s
    · rfl

theorem only_taken_of_ne (hne : (l.stream serial).id ≠ s) : (l.taken serial).only s = l.only s := by
  rw [taken]
  split
  · exact only_put_of_ne (fun h => hne h.2) rfl
  · split
    · exact only_sweep_of_ne l hne
    · rfl

/-! ### Handles used -/

theorem replies_only (sound : l.Sound) (s : UInt64) (nth : Nat) (usage : Mux.Usage) :
    (l.only s).replies nth usage = l.replies (l.place s nth) usage := by
  rw [replies, replies, holder?_only]
  rcases hholder : l.holder? (l.place s nth) with _ | handle
  · rfl
  · have hstream : (l.only s).stream (l.seen s handle).serial = l.stream handle.serial :=
      (of_holder? sound hholder).stream_only
    simp only [Option.map_some, hstream]

/-- Using a handle for the number comes to the same on what is kept. -/
theorem only_used (sound : l.Sound) (s : UInt64) (nth : Nat) (usage : Mux.Usage) :
    restrict s (l.used (l.place s nth) usage) = (l.only s).used nth usage := by
  unfold used
  rw [holder?_only]
  rcases hholder : l.holder? (l.place s nth) with _ | handle
  · rfl
  · have hof := of_holder? sound hholder
    cases usage with
    | write payload =>
      have hstream : (l.only s).stream (l.seen s handle).serial = l.stream handle.serial :=
        hof.stream_only
      simp only [Option.map_some, hstream, restrict]
      split
      · rfl
      · simp [Stream.parcel, Frame.ofKind, hof.2]
    | finish ending => exact only_terminated sound hof ending
    | read => exact congrArg (·, []) (only_taken sound hof)
    | drop => exact congrArg (·, []) (only_drop sound hholder)

/-- Using a handle for another number leaves what is kept alone. -/
theorem only_used_of_ne (sound : l.Sound) (hne : id ≠ s) (nth : Nat) (usage : Mux.Usage) :
    restrict s (l.used (l.place id nth) usage) = (l.only s, []) := by
  unfold used
  rcases hholder : l.holder? (l.place id nth) with _ | handle
  · rfl
  · have hother : (l.stream handle.serial).id ≠ s := by
      rw [(of_holder? sound hholder).2]
      exact hne
    cases usage with
    | write payload =>
      simp only [restrict]
      split
      · rfl
      · simp [Stream.parcel, Frame.ofKind, hother]
    | finish ending => exact only_terminated_of_ne hother ending
    | read => exact congrArg (·, []) (only_taken_of_ne hother)
    | drop =>
      exact congrArg (·, []) (only_drop_of_ne (Option.filter_eq_some_iff.mp hholder).1 hother)

/-! ### Frames of the peer -/

theorem only_endedByPeer (sound : l.Sound) (s : UInt64) (ending : Ending) :
    (l.endedByPeer s ending).only s = (l.only s).endedByPeer s ending := by
  rw [endedByPeer, endedByPeer, find?_only]
  rcases hfind : l.find? s with _ | serial
  · rfl
  · have hof := sound.of_find? hfind
    simp only [Option.map_some, hof.stream_only]
    split
    · rfl
    · rw [only_sweep (sound.finish serial ending), only_finish hof]

theorem only_endedByPeer_of_ne (sound : l.Sound) (hne : id ≠ s) (ending : Ending) :
    (l.endedByPeer id ending).only s = l.only s := by
  rw [endedByPeer]
  rcases hfind : l.find? id with _ | serial
  · rfl
  · simp only
    split
    · rfl
    · have hother : ¬ l.Of s serial := fun h => hne ((sound.current hfind).2.symm.trans h.2)
      rw [only_sweep_of_ne _ hne]
      exact only_put_of_ne hother rfl

theorem rank_announced (l : Ledger) (s : UInt64) (serial : Nat) :
    (l.announced s serial).rank s = l.rank s := by
  rw [announced]
  split <;> rfl

theorem only_bound (sound : l.Sound) (s : UInt64) :
    (l.bound s).1.only s = ((l.only s).bound s).1 ∧
      (l.bound s).1.rank s (l.bound s).2 = ((l.only s).bound s).2 := by
  rw [bound, bound, find?_only]
  rcases l.find? s with _ | serial
  · exact ⟨only_welcome sound s, rank_create_self l s _⟩
  · exact ⟨rfl, rfl⟩

theorem only_bound_of_ne (sound : l.Sound) (hne : id ≠ s) : (l.bound id).1.only s = l.only s := by
  rw [bound]
  split
  · exact only_welcome_of_ne sound hne
  · rfl

theorem only_announced (h : l.Of s serial) :
    (l.announced s serial).only s = (l.only s).announced s (l.rank s serial) := by
  have hmem : s ∈ (l.only s).registry.pending ↔ s ∈ l.registry.pending := by simp [only]
  rw [announced, announced]
  by_cases hpending : s ∈ l.registry.pending
  · rw [if_pos hpending, if_pos (hmem.mpr hpending), only_accept h]
  · rw [if_neg hpending, if_neg (hmem.not.mpr hpending)]

theorem only_announced_of_ne (hne : id ≠ s) (hid : (l.stream serial).id = id) :
    (l.announced id serial).only s = l.only s := by
  rw [announced]
  split
  · exact only_accept_of_ne hne hid
  · rfl

section Delivered

variable {kind : Kind} {payload : Bytes}

theorem only_delivered (sound : l.Sound) (up : l.tornDown = false) (hid : s ≤ Header.maxId) :
    restrict s (l.delivered kind s payload) = (l.only s).delivered kind s payload := by
  have hnone : ((l.only s).find? s).isNone = (l.find? s).isNone := by rw [find?_only]; simp
  have howns : (l.only s).ids.owns s = l.ids.owns s := rfl
  rw [delivered, delivered, hnone, howns]
  split
  · rfl
  · rename_i hadmitted
    have hready := sound.readied up hadmitted hid kind
    obtain ⟨hbound, hrank⟩ := only_bound sound s
    have hof := sound.of_bound s
    rw [only_enqueued hready (of_readied hof kind), readied, readied]
    split
    · rw [only_announced hof, rank_announced, hbound, hrank]
    · rw [hbound, hrank]

theorem only_delivered_of_ne (sound : l.Sound) (hne : id ≠ s) :
    restrict s (l.delivered kind id payload) = (l.only s, []) := by
  rw [delivered]
  split
  · rfl
  · have hid := (sound.of_bound id).2
    have hother : ((l.readied kind id).stream (l.bound id).2).id ≠ s :=
      fun heq => hne (((of_readied (sound.of_bound id) kind).2.symm).trans heq)
    rw [only_enqueued_of_ne hother, readied]
    split
    · rw [only_announced_of_ne hne hid, only_bound_of_ne sound hne]
    · rw [only_bound_of_ne sound hne]

end Delivered

/-- A frame for the number comes to the same on what is kept. -/
theorem only_received (sound : l.Sound) (up : l.tornDown = false) {frame : Frame}
    (hid : frame.id ≤ Header.maxId) :
    restrict frame.id (l.received frame) = (l.only frame.id).received frame := by
  rw [received, received]
  split
  · rfl
  · split
    · exact congrArg (·, []) (only_endedByPeer sound frame.id _)
    · exact only_delivered sound up hid

theorem only_received_of_ne (sound : l.Sound) {frame : Frame} (hne : frame.id ≠ s) :
    restrict s (l.received frame) = (l.only s, []) := by
  rw [received]
  split
  · rfl
  · split
    · exact congrArg (·, []) (only_endedByPeer_of_ne sound hne _)
    · exact only_delivered_of_ne sound hne

end Ledger

end StreamMux
