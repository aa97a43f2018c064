import Mathlib.Data.List.Perm.Subperm
import StreamMux.Proofs.Session.Dispatch
import StreamMux.Proofs.Session.Identity
import StreamMux.Proofs.Wire.Unfinished

/-!
# What a peer can make a session keep

Whatever comes in, a session keeps a bounded amount of it.  Four bounds hold together, each enforced
in a place of its own: the streams that are not announced yet are few (`Mux.bind`), a queue holds
few chunks (`Stream.push`), a chunk is short (`Preamble.scan`), and so is what came in and is no
frame yet, since the loop only reads when there is no frame to apply.

* `Ledger.Receiving.pending_le`, `Ledger.Roomy.move`, `Mux.Trim.perform` — no operation leaves the
  bounds;
* `Mux.bounded_run` — all of them hold after every run, under settings that are valid.

A stream whose handler could not be started is accepted, and counts against no limit.  It is over,
and stays as long as it has chunks that nobody reads (`Mux.Bounded.pending_iff`).
-/

namespace StreamMux

/-! ### Valid settings -/

namespace Settings.Valid

variable {settings : Settings}

theorem queueLimit_pos (h : settings.Valid) : 0 < settings.queueLimit := by
  unfold Valid fault? at h
  by_contra hzero
  simp only [Nat.eq_zero_of_not_pos hzero, if_true] at h
  split at h
  · cases h
  · split at h <;> cases h

theorem readSize_pos (h : settings.Valid) : 0 < settings.readSize := by
  unfold Valid fault? at h
  by_contra hzero
  have hsmall : settings.readSize < smallestReadSize := by
    rw [Nat.eq_zero_of_not_pos hzero]
    decide
  simp only [if_pos hsmall] at h
  split at h
  · cases h
  · split at h
    · cases h
    · split at h
      · cases h
      · split at h <;> cases h

end Settings.Valid

namespace Ledger

variable {l l' : Ledger} {gone fails : Bool} {out : List Frame}

/-! ### Pending streams -/

theorem pending_sweep (l : Ledger) (id : UInt64) :
    (l.sweep id).registry.pending.Sublist l.registry.pending := by
  rcases l.registry.sweep_eq id with ⟨heq, -⟩ | ⟨heq, -⟩
  · rw [sweep, heq]
    exact List.filter_sublist
  · rw [sweep, heq]

theorem pending_tear (l : Ledger) :
    l.tear.registry.pending.Sublist l.registry.pending := by
  rw [tear, Registry.pending_sever]
  exact List.nil_sublist _

theorem Act.pending (h : l.Act l') : l'.registry.pending.Sublist l.registry.pending := by
  cases h with
  | none => exact .refl _
  | opened label up draw => exact .refl _
  | openTorn up draw => exact pending_tear (l.register _ _)
  | tear => exact pending_tear l
  | finish ending live => exact pending_sweep (l.finish _ ending) _
  | finishTorn ending live => exact pending_tear (l.finish _ ending)
  | sweep id => exact pending_sweep l id
  | drop given =>
    unfold Ledger.drop
    simp only
    split
    · exact List.filter_sublist
    · exact .refl _

theorem Queueing.pending {serial : Nat} {payload : Bytes}
    (h : l.Queueing gone serial payload out l') :
    l'.registry.pending.Sublist l.registry.pending := by
  cases h with
  | idle why => exact .refl _
  | queued data live room => exact .refl _
  | full data live full cutting => exact cutting.acts.pending

/-- A stream that is announced is no longer pending, whether its handler can be started or not. -/
theorem Dispatching.pending {id : UInt64} {serial : Nat} {payload : Bytes}
    (h : l.Dispatching gone fails id serial payload out l') :
    l'.registry.pending.Sublist (l.registry.pending.erase id) := by
  cases h with
  | called starts queueing => exact queueing.pending
  | unstarted stuck cutting =>
    have hdrop : (l.accept id serial).Act (l.misstart id serial) := .drop getElem?_handles_accept
    exact cutting.acts.pending.trans hdrop.pending

theorem Receiving.pending_le {frame : Frame} (h : l.Receiving gone fails frame out l')
    (hle : l.registry.pending.length ≤ l.settings.pendingLimit) :
    l'.registry.pending.length ≤ l.settings.pendingLimit := by
  have hsublist : l'.registry.pending.Sublist l.registry.pending →
      l'.registry.pending.length ≤ l.settings.pendingLimit := fun h => h.length_le.trans hle
  cases h with
  | reserved kind => exact hle
  | refused is opens why => exact hle
  | crowded is message up new foreign sending => exact hsublist sending.acts.pending
  | began is up new foreign dispatching =>
    -- the stream is pending for a moment, and accepted with the same frame
    have hmem : frame.id ∈ l.registry.pending ++ [frame.id] :=
      List.mem_append_right _ (List.mem_singleton_self _)
    have hlength : ((l.welcome frame.id).registry.pending.erase frame.id).length =
        l.registry.pending.length := by
      change ((l.registry.pending ++ [frame.id]).erase frame.id).length = _
      rw [List.length_erase_of_mem hmem, List.length_append, List.length_singleton,
        Nat.add_sub_cancel]
    exact (dispatching.pending.length_le.trans_eq hlength).trans hle
  | announced is up current pending dispatching =>
    exact hsublist (dispatching.pending.trans List.erase_sublist)
  | repeated is up current accepted queueing => exact hsublist queueing.pending
  | early is message up new foreign queueing room =>
    have hlength : (l.welcome frame.id).registry.pending.length =
        l.registry.pending.length + 1 := List.length_append
    exact (queueing.pending.length_le.trans_eq hlength).trans room
  | data is message up current queueing => exact hsublist queueing.pending
  | lost is ends isOver => exact hle
  | ended is ends current live => exact hsublist (pending_sweep (l.finish _ _) frame.id)

/-! ### Queues -/

/-- All streams have the room that the settings give them, and no queue holds more. -/
def Roomy (l : Ledger) : Prop :=
  ∀ serial < l.size, (l.stream serial).capacity = max l.settings.queueLimit 1 ∧
    (l.stream serial).queue.length ≤ max l.settings.queueLimit 1

namespace Roomy

theorem of_alike (h : l.Roomy) (halike : l.Alike l') (hqueues : l.SameQueues l')
    (hsettings : l'.settings = l.settings) : l'.Roomy := by
  intro serial hlt
  rw [halike.capacity, hqueues, hsettings]
  exact h serial (halike.size ▸ hlt)

theorem put (h : l.Roomy) {serial : Nat} {queue : List Bytes}
    (hle : queue.length ≤ max l.settings.queueLimit 1) :
    (l.put serial { l.stream serial with queue }).Roomy := by
  intro other hlt
  rw [size_put] at hlt
  rcases l.stream_put serial { l.stream serial with queue } other with ⟨rfl, heq⟩ | heq <;> rw [heq]
  · exact ⟨(h other hlt).1, hle⟩
  · exact h other hlt

theorem of_begins {id : UInt64} {role : Role} (h : l.Roomy)
    (b : l.Begins (.start id role l.settings.queueLimit) l') : l'.Roomy := by
  intro serial hlt
  rw [b.settings]
  rcases b.cases_of_lt hlt with ⟨hbefore, heq⟩ | ⟨-, heq⟩ <;> rw [heq]
  · exact h serial hbefore
  · exact ⟨rfl, Nat.zero_le _⟩

theorem register (h : l.Roomy) (id : UInt64) (ids : Ids) : (l.register id ids).Roomy :=
  h.of_begins (begins_register l id ids)

theorem finish (h : l.Roomy) (serial : Nat) (ending : Ending) : (l.finish serial ending).Roomy :=
  h.of_alike (.finish l serial ending) (.finish l serial ending) rfl

theorem sweep (h : l.Roomy) (id : UInt64) : (l.sweep id).Roomy :=
  h.of_alike (.sweep l id) (.sweep l id) rfl

theorem tear (h : l.Roomy) : l.tear.Roomy := h.of_alike (.tear l) (.tear l) rfl

theorem drop (h : l.Roomy) {place : Nat} {handle : Handle}
    (hplace : l.handles[place]? = some handle) : (l.drop place handle).Roomy :=
  h.of_alike (.drop hplace) (.drop l place handle) (settings_drop l place handle)

theorem move (h : l.Roomy) (hmove : Move l l') : l'.Roomy := by
  cases hmove with
  | @opened id ids label up draw =>
    have hregister := h.register id ids
    exact hregister
  | openTorn up draw => exact (h.register _ _).tear
  | tear => exact h.tear
  | finish ending live => exact (h.finish _ ending).sweep _
  | finishTorn ending live => exact (h.finish _ ending).tear
  | overflow serial => exact h
  | @push serial chunk live room =>
    refine h.put ?_
    rw [(h serial (Registry.lt_of_not_isOver live)).1] at room
    rw [List.length_append, List.length_singleton]
    exact room
  | @pop serial chunk queue front =>
    refine h.put ?_
    have hlt : serial < l.size := by
      by_contra hge
      rw [Ledger.stream, Registry.stream_of_le (Nat.le_of_not_lt hge)] at front
      cases front
    have hle := (h serial hlt).2
    rw [front, List.length_cons] at hle
    omega
  | sweep id => exact h.sweep id
  | @welcome id up new foreign fits =>
    exact h.of_begins (begins_welcome l id)
  | accept pending current => exact h
  | @misstart id serial pending current =>
    have haccept : (l.accept id serial).Roomy := h
    exact haccept.drop getElem?_handles_accept

end Roomy

end Ledger

namespace Mux

variable {m m' : Mux} {side : Side} {settings : Settings}

/-! ### Chunks -/

theorem mem_intake {frame : Frame} {serial : Nat} {chunk : Bytes}
    (h : chunk ∈ m.intake frame serial) : chunk = frame.payload ∧ chunk ≠ [] := by
  have hintake : ∀ stream : Stream, chunk ∈ stream.intake frame.payload →
      chunk = frame.payload ∧ chunk ≠ [] := by
    intro stream hmem
    unfold Stream.intake at hmem
    split at hmem
    · cases hmem
    · rename_i hdata
      split at hmem
      · obtain rfl := List.mem_singleton.mp hmem
        exact ⟨rfl, hdata⟩
      all_goals cases hmem
  unfold intake at h
  split at h
  · cases h
  · split at h
    · cases h
    · split at h
      · cases h
      · split at h
        · exact hintake _ h
        · cases h

theorem cut_of_upcoming? {frame : Frame} (h : m.upcoming? = some frame) :
    ∃ rest, Frame.cut m.assembler.buffer m.settings.frameLimit = .ok (some (frame, rest)) := by
  have hfront : m.front? = some frame := by
    unfold upcoming? at h
    split at h
    · exact h
    · split at h
      · cases h
      · exact h
    all_goals cases h
  unfold front? at hfront
  split at hfront
  · rename_i rest hcut
    cases hfront
    exact ⟨rest, hcut⟩
  · cases hfront

/-- A chunk that goes into a queue is not empty, and within the limit on payloads. -/
theorem length_of_mem_takesIn {op : Op} {serial : Nat} {chunk : Bytes}
    (h : chunk ∈ m.takesIn op serial) :
    0 < chunk.length ∧ chunk.length ≤ m.settings.frameLimit := by
  unfold takesIn at h
  split at h
  · rename_i frame hupcoming
    obtain ⟨rfl, hdata⟩ := mem_intake h
    obtain ⟨rest, hcut⟩ := cut_of_upcoming? hupcoming
    exact ⟨List.length_pos_of_ne_nil hdata, (Frame.fits_of_cut hcut).2⟩
  · cases h

theorem length_of_mem_queue (side : Side) (settings : Settings) (ops : List Op) (serial : Nat) :
    ∀ chunk ∈ ((run side settings ops).registry.stream serial).queue,
      0 < chunk.length ∧ chunk.length ≤ settings.frameLimit := by
  induction ops using List.reverseRecOn with
  | nil =>
    intro chunk hmem
    cases hmem
  | append_singleton ops op ih =>
    intro chunk hmem
    rw [run_concat] at hmem
    have hqueue := (run side settings ops).queue_perform op serial
    have hbefore : chunk ∈ ((run side settings ops).registry.stream serial).queue ++
        (run side settings ops).takesIn op serial := by
      rw [hqueue]
      exact List.mem_append_right _ hmem
    rcases List.mem_append.mp hbefore with hold | hnew
    · exact ih chunk hold
    · have hlength := length_of_mem_takesIn hnew
      rwa [settings_run] at hlength

/-! ### What came in and is no frame yet -/

/-- What came in is no frame yet while the loop waits, and one read more than that otherwise. -/
structure Trim (m : Mux) : Prop where
  buffered_le : m.assembler.buffered ≤ 19 + m.settings.frameLimit + max m.settings.readSize 1
  waiting : m.loop = .waiting → m.assembler.buffered ≤ 19 + m.settings.frameLimit

theorem Trim.turn (h : m.Trim) (hturn : m.turn = some m') : m'.Trim := by
  rcases @turn_cases m m' 0 hturn with ⟨frame, rest, -, hcut, rfl⟩ | ⟨hnone, -⟩
  · obtain ⟨out, l, -, hleads⟩ := receives { m with assembler := ⟨rest⟩, loop := .ready } frame
    have hshort := Frame.length_lt_of_cut hcut
    have hbefore : m.assembler.buffer.length ≤ _ := h.buffered_le
    refine ⟨?_, fun hwaiting => ?_⟩
    · rw [hleads.passes.assembler, hleads.passes.settings]
      exact hshort.le.trans hbefore
    · rw [hleads.passes.loop] at hwaiting
      cases hwaiting
  · cases quiet_turn hturn hnone with
    | idle short =>
      exact ⟨h.buffered_le, fun hwaiting => Frame.length_le_of_cut_none (short hwaiting)⟩
    | @fed link chunk waiting read =>
      refine ⟨?_, fun hwaiting => by cases hwaiting⟩
      have hbefore := h.waiting waiting
      have hread := Link.length_le_of_read read
      simp only [Assembler.buffered, Assembler.feed, List.length_append] at hbefore ⊢
      omega
    | stopped conditions fault gone =>
      have hpasses := (stops { m with conditions } fault gone).1
      refine ⟨?_, fun hwaiting => ?_⟩
      · rw [hpasses.assembler, hpasses.settings]
        exact h.buffered_le
      · rw [hpasses.loop] at hwaiting
        cases hwaiting

theorem Trim.perform (h : m.Trim) (sound : m.ledger.Sound) (op : Op) : (m.perform op).1.Trim := by
  have hstep := step sound op
  by_cases hop : op = .turn
  · subst hop
    rcases hturn : m.turn with _ | after
    · simpa [Mux.perform, hturn] using h
    · simpa [Mux.perform, hturn] using h.turn hturn
  · obtain ⟨hassembler, hloop⟩ := hstep.still hop
    refine ⟨?_, fun hwaiting => ?_⟩
    · rw [hassembler, hstep.settings_eq]
      exact h.buffered_le
    · rw [hassembler, hstep.settings_eq]
      exact h.waiting (hloop ▸ hwaiting)

/-! ### After every run -/

theorem pending_run (side : Side) (settings : Settings) (ops : List Op) :
    (run side settings ops).registry.pending.length ≤ settings.pendingLimit := by
  induction ops using List.reverseRecOn with
  | nil => exact Nat.zero_le _
  | append_singleton ops op ih =>
    rw [run_concat]
    cases (run side settings ops).outcome op with
    | acts act => exact act.pending.length_le.trans ih
    | pops front ledger =>
      exact (congrArg (·.registry.pending.length) ledger).le.trans ih
    | receives turn upcoming receiving =>
      have hsettings : (run side settings ops).ledger.settings = settings := settings_run ..
      have hle := receiving.pending_le (by rw [hsettings]; exact ih)
      rwa [hsettings] at hle

theorem roomy_run (side : Side) (settings : Settings) (ops : List Op) :
    (run side settings ops).ledger.Roomy :=
  ledger_run (fun serial hlt => absurd hlt (Nat.not_lt_zero serial)) (fun h => h.move)
    (fun h hplace => h.drop hplace) ops

theorem trim_run (side : Side) (settings : Settings) (ops : List Op) :
    (run side settings ops).Trim := by
  induction ops using List.reverseRecOn with
  | nil => exact ⟨Nat.zero_le _, fun _ => Nat.zero_le _⟩
  | append_singleton ops op ih =>
    rw [run_concat]
    exact ih.perform (sound_run side settings ops) op

/-- The current streams of the peer that were not accepted, so that no handle was made for the
handler: number and serial number. -/
def unaccepted (m : Mux) : List (UInt64 × Nat) :=
  m.registry.entries.filter fun entry =>
    (m.registry.stream entry.2).role = .acceptor ∧ entry.2 ∉ m.adopted

/-- The current streams of the peer with which the handler was never called. -/
def unclaimed (m : Mux) : List (UInt64 × Nat) :=
  m.registry.entries.filter fun entry =>
    (m.registry.stream entry.2).role = .acceptor ∧ entry.2 ∉ m.handled

theorem mem_pending_iff (sound : m.ledger.Sound) (single : m.ledger.Single) {entry : UInt64 × Nat}
    (hmem : entry ∈ m.registry.entries) (hrole : (m.registry.stream entry.2).role = .acceptor) :
    entry.1 ∈ m.registry.pending ↔ entry.2 ∉ m.adopted := by
  have hfind : m.ledger.find? entry.1 = some entry.2 := Registry.find?_of_mem single hmem
  constructor
  · intro hpending hadopted
    obtain ⟨serial, hwaiting, -, hfree⟩ := sound.waiting hpending
    cases hfind.symm.trans hwaiting
    exact hfree (mem_adopted_iff.mp hadopted).1
  · intro hfree
    exact (sound.held hfind).resolve_right fun hheld => hfree (mem_adopted_iff.mpr ⟨hheld, hrole⟩)

theorem pending_of_unaccepted (sound : m.ledger.Sound) (single : m.ledger.Single)
    {entry : UInt64 × Nat} (hmem : entry ∈ m.unaccepted) : entry.1 ∈ m.registry.pending := by
  obtain ⟨hentry, hunaccepted⟩ := List.mem_filter.mp hmem
  obtain ⟨hrole, hfree⟩ := of_decide_eq_true hunaccepted
  exact (mem_pending_iff sound single hentry hrole).mpr hfree

/-- A stream that the handler was not called with is pending, unless it was accepted and the handler
could not be started. -/
theorem pending_iff_of_unclaimed (sound : m.ledger.Sound) (single : m.ledger.Single)
    {entry : UInt64 × Nat} (hmem : entry ∈ m.unclaimed) :
    entry.1 ∈ m.registry.pending ↔ entry.2 ∉ m.misstarted := by
  obtain ⟨hentry, hunclaimed⟩ := List.mem_filter.mp hmem
  obtain ⟨hrole, hhandled⟩ := of_decide_eq_true hunclaimed
  rw [mem_pending_iff sound single hentry hrole, misstarted, List.mem_filter, decide_eq_true_eq,
    and_iff_left hhandled]

theorem length_le_of_numbers (single : m.ledger.Single) {p : UInt64 × Nat → Bool}
    (numbers : List UInt64) (h : ∀ entry ∈ m.registry.entries.filter p, entry.1 ∈ numbers) :
    (m.registry.entries.filter p).length ≤ numbers.length := by
  have hnodup : ((m.registry.entries.filter p).map (·.1)).Nodup :=
    List.Nodup.sublist (List.filter_sublist.map _) single
  have hsubset : (m.registry.entries.filter p).map (·.1) ⊆ numbers := by
    intro id hid
    obtain ⟨entry, hmem, rfl⟩ := List.mem_map.mp hid
    exact h entry hmem
  have hle := (List.subperm_of_subset hnodup hsubset).length_le
  rwa [List.length_map] at hle

theorem length_unclaimed_le (sound : m.ledger.Sound) (single : m.ledger.Single) :
    m.unclaimed.length ≤ m.registry.pending.length + m.misstarted.length := by
  have hnumber : ∀ entry ∈ m.unclaimed, entry.1 ∈
      m.registry.pending ++ m.misstarted.map fun serial => (m.registry.stream serial).id := by
    intro entry hmem
    rw [List.mem_append]
    by_cases hmissed : entry.2 ∈ m.misstarted
    · have hentry := Registry.find?_of_mem single (List.mem_of_mem_filter hmem)
      exact Or.inr (List.mem_map.mpr ⟨entry.2, hmissed, (sound.current hentry).2⟩)
    · exact Or.inl ((pending_iff_of_unclaimed sound single hmem).mpr hmissed)
  have hle := length_le_of_numbers single _ hnumber
  rwa [List.length_append, List.length_map] at hle

/-- A stream whose handler could not be started is over from then on. -/
theorem isOver_of_unstarted {ops : List Op} {serial : Nat}
    (h : Unstarted side settings ops serial) :
    ((run side settings ops).registry.stream serial).isOver = true := by
  obtain ⟨before, op, after, rfl, hmisstarts⟩ := h
  have hmissed := missed_of_misstarts hmisstarts
  have hmem : serial ∈ (run side settings (before ++ [op])).misstarted := by
    rw [hmissed.misstarted]
    exact List.mem_append_right _ (List.mem_singleton_self serial)
  obtain ⟨⟨handle, hhandle, rfl⟩, -⟩ := mem_adopted_iff.mp (List.mem_of_mem_filter hmem)
  have hlt := (sound_run side settings (before ++ [op])).held_lt hhandle
  rw [show before ++ op :: after = (before ++ [op]) ++ after by simp]
  -- the stream is known and over after the start failed, and after whatever follows
  suffices hall : handle.serial < (run side settings (before ++ [op] ++ after)).ledger.size ∧
      ((run side settings (before ++ [op] ++ after)).ledger.stream handle.serial).isOver = true from
    hall.2
  induction after using List.reverseRecOn with
  | nil =>
    rw [List.append_nil]
    exact ⟨hlt, hmissed.isOver⟩
  | append_singleton after last ih =>
    obtain ⟨hthere, hover⟩ := ih
    rw [← List.append_assoc, run_concat]
    have hstep := step (sound_run side settings (before ++ [op] ++ after)) last
    exact ⟨(hstep.kept 0 hthere).1, (hstep.keepsEnd hthere hover).isOver hover⟩

/-- What a session keeps is within its settings. -/
structure Bounded (side : Side) (settings : Settings) (ops : List Op) : Prop where
  pending_le : (run side settings ops).registry.pending.length ≤ settings.pendingLimit
  /-- A current stream of the peer that was never accepted for the handler is pending. -/
  pending : ∀ entry ∈ (run side settings ops).unaccepted,
    entry.1 ∈ (run side settings ops).registry.pending
  unaccepted_le : (run side settings ops).unaccepted.length ≤ settings.pendingLimit
  /-- So is one with which the handler was never called, unless it could not be started for it. -/
  pending_iff : ∀ entry ∈ (run side settings ops).unclaimed,
    entry.1 ∈ (run side settings ops).registry.pending ↔ ¬ Unstarted side settings ops entry.2
  /-- If the handler could not be started for a stream, the stream is over. -/
  isOver : ∀ serial, Unstarted side settings ops serial →
    ((run side settings ops).registry.stream serial).isOver = true
  unclaimed_le : (run side settings ops).unclaimed.length ≤
    settings.pendingLimit + (run side settings ops).misstarted.length
  queue_le : ∀ stream ∈ (run side settings ops).registry.streams,
    stream.queue.length ≤ settings.queueLimit
  chunk : ∀ stream ∈ (run side settings ops).registry.streams, ∀ chunk ∈ stream.queue,
    1 ≤ chunk.length ∧ chunk.length ≤ settings.frameLimit
  buffered_le : (run side settings ops).assembler.buffered ≤
    19 + settings.frameLimit + settings.readSize

/-- Data comes for a stream, and its handler cannot be started when it is announced.  The stream
stays until the data is read, and is no longer pending. -/
example :
    let m := run .listener .usual [.arrive [2, 1, 0xaa, 0, 0], .turn, .turn, .turn,
      .adjust { failStart := some "no threads" }, .turn]
    m.unclaimed = [(0, 0)] ∧ m.registry.pending = [] ∧ m.misstarted = [0] := by decide +kernel

end Mux

end StreamMux
