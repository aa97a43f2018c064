import StreamMux.Proofs.Session.Acceptance
import StreamMux.Proofs.Session.Balance
import StreamMux.Proofs.Session.Queues

/-!
# Which streams the handler is called with

The handler is called with a stream of the peer as soon as the stream is accepted, and never again,
unless it cannot be started then.

* `Mux.handled` — the streams with which the handler was called, and `Mux.misstarted`: those that
  were accepted without it;
* `Mux.dispatches_run` — the handler is called for exactly the streams that are announced while it
  can be started, once for each stream, and finds in the stream's queue all that came before and was
  not read by number.
-/

namespace StreamMux

namespace Mux

variable {m m' : Mux} {side : Side} {settings : Settings} {ops : List Op}

/-! ### The streams handled -/

/-- The streams with which the handler was called, oldest call first. -/
def handled (m : Mux) : List Nat :=
  m.arrivals.filterMap fun place => (m.handles[place]?).map Handle.serial

/-- The streams of the peer that were accepted, the first one first. -/
def adopted (m : Mux) : List Nat :=
  m.ledger.serials.filter fun serial => (m.registry.stream serial).role = .acceptor

/-- The streams that were accepted without a call of the handler. -/
def misstarted (m : Mux) : List Nat := m.adopted.filter (· ∉ m.handled)

theorem mem_adopted_iff {serial : Nat} : serial ∈ m.adopted ↔
    m.ledger.Held serial ∧ (m.registry.stream serial).role = .acceptor := by
  rw [adopted, List.mem_filter, decide_eq_true_eq, Ledger.mem_serials_iff]

/-- The handler was only called with streams that were accepted, and the others with a handle were
opened here. -/
structure Greeted (m : Mux) : Prop where
  place_lt : ∀ place ∈ m.arrivals, place < m.handles.length
  handled : m.handled.Sublist m.adopted
  opened : m.counters.opened + m.adopted.length = m.handles.length

/-- Whoever was accepted was handed to the handler, or was not for want of one. -/
theorem Greeted.length_adopted (h : m.Greeted) (sound : m.ledger.Sound) :
    m.adopted.length = m.handled.length + m.misstarted.length := by
  have hnodup : m.adopted.Nodup := sound.handles_nodup.filter _
  have hperm : (m.adopted.filter (· ∈ m.handled)).Perm m.handled := by
    refine (List.perm_ext_iff_of_nodup (hnodup.filter _) (hnodup.sublist h.handled)).mpr ?_
    intro serial
    simp only [List.mem_filter, decide_eq_true_eq]
    exact ⟨And.right, fun hmem => ⟨h.handled.subset hmem, hmem⟩⟩
  have hsplit := m.adopted.length_eq_length_filter_add (· ∈ m.handled)
  rw [hperm.length_eq] at hsplit
  simpa [misstarted] using hsplit

/-- Looking up the places of the held ones among some handles gives the handles put there. -/
theorem filterMap_heldPlaces (handles made : List Handle) :
    (heldPlaces handles.length made).filterMap
      (fun place => ((handles ++ made)[place]?).map Handle.serial) =
        (made.filter Handle.live).map Handle.serial := by
  induction made generalizing handles with
  | nil => rfl
  | cons first others ih =>
    have hrest := ih (handles ++ [first])
    rw [List.length_append, List.append_assoc] at hrest
    rw [← List.singleton_append, heldPlaces_append, List.filterMap_append, List.filter_append,
      List.map_append]
    refine congrArg₂ (· ++ ·) ?_ hrest
    rcases hlive : first.live with _ | _ <;> simp [heldPlaces, hlive]

theorem handled_of_places (hplaces : ∀ place ∈ m.arrivals, place < m.handles.length)
    {new : List Nat} (hserials : m'.ledger.serials = m.ledger.serials ++ new)
    {more : List Nat} (harrivals : m'.arrivals = m.arrivals ++ more) :
    m'.handled = m.handled ++
      more.filterMap fun place => (m'.handles[place]?).map Handle.serial := by
  unfold handled
  rw [harrivals, List.filterMap_append]
  congr 1
  refine List.filterMap_congr fun place hmem => ?_
  have hlt := hplaces place hmem
  rw [← List.getElem?_map, ← List.getElem?_map]
  change m'.ledger.serials[place]? = m.ledger.serials[place]?
  rw [hserials, List.getElem?_append_left (List.length_map Handle.serial ▸ hlt)]

/-- Without a call of the handler the same streams are handled. -/
theorem Greeted.handled_of_silent (h : m.Greeted) {op : Op} (hstep : m.Step op m')
    (harrivals : m'.arrivals = m.arrivals) : m'.handled = m.handled := by
  obtain ⟨new, hserials⟩ := hstep.serials
  have hhandled :=
    handled_of_places h.place_lt hserials (harrivals.trans (List.append_nil _).symm)
  rwa [List.filterMap_nil, List.append_nil] at hhandled

theorem Greeted.handled_of_greets (h : m.Greeted) {made : List Handle}
    (hgreets : m.Greets made m') :
    m'.handled = m.handled ++ (made.filter Handle.live).map Handle.serial := by
  have hserials : m'.ledger.serials = m.ledger.serials ++ made.map Handle.serial := by
    rw [Ledger.serials, show m'.ledger.handles = _ from hgreets.handles, List.map_append]
    rfl
  rw [handled_of_places h.place_lt hserials hgreets.arrivals, hgreets.handles, filterMap_heldPlaces]

/-- Streams keep their roles, and those of new handles are told apart. -/
theorem adopted_of_serials (sound : m.ledger.Sound) {op : Op} (hstep : m.Step op m')
    {new : List Nat} (hserials : m'.ledger.serials = m.ledger.serials ++ new) :
    m'.adopted = m.adopted ++
      new.filter fun serial => (m'.registry.stream serial).role = .acceptor := by
  rw [adopted, hserials, List.filter_append, adopted]
  congr 1
  refine List.filter_congr fun serial hmem => ?_
  have horigin := hstep.origin_eq (Ledger.lt_of_mem_serials sound hmem)
  rw [show (m'.registry.stream serial).role = (m.registry.stream serial).role from
    Stream.role_eq_of_origin horigin]

/-! ### What one operation does -/

/-- What an operation does that accepts a stream. -/
theorem Greeted.of_accepted (h : m.Greeted) (sound : m.ledger.Sound) {op : Op} {serial : Nat}
    {live : Bool} (hstep : m.Step op m') (greets : m.Greets [{ serial, label := none, live }] m')
    (role : (m'.registry.stream serial).role = .acceptor) :
    m'.adopted = m.adopted ++ [serial] ∧
      m'.handled = m.handled ++ if live then [serial] else [] := by
  have hserials : m'.ledger.serials = m.ledger.serials ++ [serial] := by
    rw [Ledger.serials, show m'.ledger.handles = _ from greets.handles, List.map_append]
    rfl
  refine ⟨by rw [adopted_of_serials sound hstep hserials]; simp [role], ?_⟩
  rw [h.handled_of_greets greets]
  cases live <;> rfl

/-- The new handle of a stream that is opened here is no handle of the peer's. -/
theorem serials_openStream (sound : m.ledger.Sound) (label : Option String) :
    (m.openStream label).1.ledger.serials = m.ledger.serials ∨
      (m.openStream label).1.ledger.serials = m.ledger.serials ++ [m.ledger.size] ∧
        ((m.openStream label).1.registry.stream m.ledger.size).role = .opener := by
  have hopens := opens m label
  generalize m.openStream label = result at hopens ⊢
  cases hopens with
  | refused fault => exact Or.inl rfl
  | @opened after id ids up draw passes ledger =>
    have henrolls := Ledger.Enrolls.opened sound draw label
    refine Or.inr ⟨by rw [ledger]; exact henrolls.serials, ?_⟩
    rw [show after.registry = _ from congrArg Ledger.registry ledger]
    exact congrArg Stream.role (Ledger.stream_register_self m.ledger id ids)
  | torn fault up draw passes ledger => exact Or.inl (by rw [ledger]; rfl)

/-- What an operation does that accepts no stream. -/
theorem Greeted.of_silent (h : m.Greeted) (sound : m.ledger.Sound) {op : Op}
    (others : ∀ frame serial, ¬ m.Announces op frame serial) :
    m.Silent (m.perform op).1 ∧ (m.perform op).1.adopted = m.adopted ∧
      (m.perform op).1.handled = m.handled := by
  have hstep := step sound op
  have hsilent : m.Silent (m.perform op).1 ∧
      ((m.perform op).1.ledger.serials = m.ledger.serials ∨
        (m.perform op).1.ledger.serials = m.ledger.serials ++ [m.ledger.size] ∧
          ((m.perform op).1.registry.stream m.ledger.size).role = .opener) := by
    by_cases hop : op = .turn
    · cases dispatch sound op with
      | accepted frame serial announces => exact absurd announces (others frame serial)
      | silent others arrivals handles =>
        exact ⟨(handles hop).silent, Or.inl (handles hop).serials_eq⟩
    · obtain ⟨hsilent, heq | ⟨label, rfl⟩⟩ := m.silent_perform hop
      · exact ⟨hsilent, Or.inl heq⟩
      · exact ⟨hsilent, serials_openStream sound label⟩
  refine ⟨hsilent.1, ?_, h.handled_of_silent hstep hsilent.1.arrivals⟩
  rcases hsilent.2 with heq | ⟨heq, hopener⟩
  · rw [adopted_of_serials sound hstep (heq.trans (List.append_nil _).symm)]
    exact List.append_nil _
  · rw [adopted_of_serials sound hstep heq]
    simp [hopener]

theorem Greeted.unchanged (h : m.Greeted) {op : Op} (hstep : m.Step op m') (silent : m.Silent m')
    (hadopted : m'.adopted = m.adopted) (hhandled : m'.handled = m.handled) : m'.Greeted := by
  obtain ⟨new, hserials⟩ := hstep.serials
  have hlength := congrArg List.length hserials
  simp only [Ledger.serials, List.length_append, List.length_map] at hlength
  change m'.handles.length = m.handles.length + _ at hlength
  refine ⟨fun place hmem => ?_, by rw [hadopted, hhandled]; exact h.handled, ?_⟩
  · rw [silent.arrivals] at hmem
    have hlt := h.place_lt place hmem
    omega
  · have hopened := silent.opened
    have hbefore := h.opened
    rw [hadopted]
    omega

theorem Greeted.accepted (h : m.Greeted) (sound : m.ledger.Sound) {op : Op} {serial : Nat}
    {live : Bool} (hstep : m.Step op m') (greets : m.Greets [{ serial, label := none, live }] m')
    (role : (m'.registry.stream serial).role = .acceptor) : m'.Greeted := by
  obtain ⟨hadopted, hhandled⟩ := h.of_accepted sound hstep greets role
  have hbefore := h.opened
  refine ⟨fun place hmem => ?_, ?_, ?_⟩
  · rw [greets.arrivals] at hmem
    rw [greets.handles, List.length_append, List.length_singleton]
    rcases List.mem_append.mp hmem with hmem | hmem
    · exact Nat.lt_succ_of_lt (h.place_lt place hmem)
    · cases live <;> simp [heldPlaces] at hmem
      omega
  · rw [hadopted, hhandled]
    refine h.handled.append ?_
    split
    · exact .refl _
    · exact List.nil_sublist _
  · rw [greets.opened, greets.handles, hadopted, List.length_append, List.length_append,
      List.length_singleton, List.length_singleton]
    omega

theorem Greeted.perform (h : m.Greeted) (sound : m.ledger.Sound) (op : Op) :
    (m.perform op).1.Greeted := by
  cases dispatch sound op with
  | silent others arrivals handles =>
    obtain ⟨silent, hadopted, hhandled⟩ := h.of_silent sound others
    exact h.unchanged (step sound op) silent hadopted hhandled
  | accepted frame serial announces greets isOver role number =>
    exact h.accepted sound (step sound op) greets role

/-! ### After every run -/

theorem greeted_run (side : Side) (settings : Settings) (ops : List Op) :
    (run side settings ops).Greeted := by
  induction ops using List.reverseRecOn with
  | nil => exact ⟨by simp [run, start, Session.start], List.Sublist.refl [], rfl⟩
  | append_singleton ops op ih =>
    rw [run_concat]
    exact ih.perform (sound_run side settings ops) op

/-! ### Chunks that wait for the handler -/

theorem takesOut_of_not_held {serial : Nat} (h : serial ∉ m.ledger.serials) (op : Op) :
    m.takesOut op serial = m.takesByNumber op serial := by
  cases op with
  | readById id => rfl
  | read place =>
    refine takesOut_of_ne fun hread => h ?_
    have hplace : m.ledger.serials[place]? = some serial := by
      rw [Ledger.serials, List.getElem?_map]
      exact hread
    exact List.mem_of_getElem? hplace
  | _ => exact takesOut_of_ne (by simp [readFrom?])

/-- As long as a stream has no handle, all that came out of its queue was read by number. -/
theorem takenOut_of_not_held (sound : m.ledger.Sound) {ops : List Op} {serial : Nat}
    (h : serial ∉ (m.runFrom ops).ledger.serials) :
    m.takenOut ops serial = m.takenByNumber ops serial ∧ serial ∉ m.ledger.serials := by
  induction ops generalizing m with
  | nil => exact ⟨rfl, h⟩
  | cons op ops ih =>
    have hstep := step sound op
    obtain ⟨hrest, hnot⟩ := ih (hstep.sound sound) h
    obtain ⟨new, hserials⟩ := hstep.serials
    have hbefore : serial ∉ m.ledger.serials := fun hmem =>
      hnot (hserials ▸ List.mem_append_left new hmem)
    refine ⟨?_, hbefore⟩
    simp only [takenOut, takenByNumber, trail, List.flatMap_cons] at hrest ⊢
    rw [hrest, takesOut_of_not_held hbefore]

/-! ### The law of dispatch -/

/-- The handler is called with a stream: with a handle of its own, as soon as a frame announces the
stream, and with all that came before and was not read by number still in the queue. -/
structure Called (side : Side) (settings : Settings) (ops : List Op) (op : Op) (frame : Frame)
    (serial : Nat) : Prop where
  handled : (run side settings (ops ++ [op])).handled = (run side settings ops).handled ++ [serial]
  misstarted : (run side settings (ops ++ [op])).misstarted = (run side settings ops).misstarted
  handles : (run side settings (ops ++ [op])).handles =
    (run side settings ops).handles ++ [{ serial, label := none }]
  role : ((run side settings (ops ++ [op])).registry.stream serial).role = .acceptor
  number : ((run side settings (ops ++ [op])).registry.stream serial).id = frame.id
  waiting : (start side settings).takenIn ops serial =
    (start side settings).takenByNumber ops serial ++
      ((run side settings ops).registry.stream serial).queue
  queue : ((run side settings (ops ++ [op])).registry.stream serial).queue =
    ((run side settings ops).registry.stream serial).queue ++
      (run side settings ops).intake frame serial

/-- The handler of a stream that is announced cannot be started: the stream is accepted all the
same, and over at once. -/
structure Missed (side : Side) (settings : Settings) (ops : List Op) (op : Op) (serial : Nat) :
    Prop where
  handled : (run side settings (ops ++ [op])).handled = (run side settings ops).handled
  misstarted : (run side settings (ops ++ [op])).misstarted =
    (run side settings ops).misstarted ++ [serial]
  handles : (run side settings (ops ++ [op])).handles =
    (run side settings ops).handles ++ [{ serial, label := none, live := false }]
  isOver : ((run side settings (ops ++ [op])).registry.stream serial).isOver = true

/-- A stream was announced while no handler could be started. -/
def Unstarted (side : Side) (settings : Settings) (ops : List Op) (serial : Nat) : Prop :=
  ∃ before op after, ops = before ++ op :: after ∧ (run side settings before).Misstarts op serial

/-- What holds of the streams with which the handler was called. -/
structure Dispatches (side : Side) (settings : Settings) (ops : List Op) : Prop where
  once : (run side settings ops).handled.Nodup
  /-- Whoever is counted as accepted was handed to the handler, unless it could not be started. -/
  counted : (run side settings ops).counters.accepted =
    (run side settings ops).handled.length + (run side settings ops).misstarted.length
  misstarted : ∀ serial, serial ∈ (run side settings ops).misstarted ↔
    Unstarted side settings ops serial
  foreign : ∀ serial ∈ (run side settings ops).handled,
    ((run side settings ops).registry.stream serial).role = .acceptor ∧
      side.owns ((run side settings ops).registry.stream serial).id = false
  called : ∀ {op frame serial}, (run side settings ops).Announces op frame serial →
    (run side settings ops).conditions.failStart = none →
      Called side settings ops op frame serial
  missed : ∀ {op serial}, (run side settings ops).Misstarts op serial →
    Missed side settings ops op serial
  others : ∀ {op}, (∀ frame serial, ¬ (run side settings ops).Announces op frame serial) →
    (run side settings (ops ++ [op])).handled = (run side settings ops).handled ∧
      (run side settings (ops ++ [op])).misstarted = (run side settings ops).misstarted

theorem Announces.not_adopted {op : Op} {frame : Frame} {serial : Nat}
    (sound : m.ledger.Sound) (h : m.Announces op frame serial) : serial ∉ m.adopted := by
  intro hmem
  obtain ⟨⟨handle, hhandle, heq⟩, -⟩ := mem_adopted_iff.mp hmem
  exact h.not_held sound handle hhandle heq

/-- With another stream accepted, the streams handled and those missed are told apart as before. -/
theorem misstarted_concat {n : Mux} {serial : Nat} (h : m.Greeted) (hfree : serial ∉ m.adopted)
    (hadopted : n.adopted = m.adopted ++ [serial]) {live : Bool}
    (hhandled : n.handled = m.handled ++ if live then [serial] else []) :
    n.misstarted = m.misstarted ++ if live then [] else [serial] := by
  have hnot : serial ∉ m.handled := fun hmem => hfree (h.handled.subset hmem)
  rw [misstarted, hadopted, hhandled, List.filter_append, misstarted]
  congr 1
  · refine List.filter_congr fun other hmem => ?_
    have hne : other ≠ serial := fun heq => hfree (heq ▸ hmem)
    cases live <;> simp [hne]
  · cases live <;> simp [hnot]

theorem called_of_announces {op : Op} {frame : Frame} {serial : Nat}
    (hann : (run side settings ops).Announces op frame serial)
    (hstarts : (run side settings ops).conditions.failStart = none) :
    Called side settings ops op frame serial := by
  have hsound := sound_run side settings ops
  have hgreeted := greeted_run side settings ops
  have hstep := step hsound op
  obtain ⟨hgreets, -, hrole, hnumber⟩ := accepted_of_announces hsound hann
  rw [hstarts] at hgreets
  rw [← run_concat] at hgreets hrole hnumber hstep
  have hfree : serial ∉ (run side settings ops).ledger.serials := fun hmem => by
    obtain ⟨handle, hhandle, rfl⟩ := List.mem_map.mp hmem
    exact hann.not_held hsound handle hhandle rfl
  have htaken := (takenOut_of_not_held (sound_run side settings []) hfree).1
  obtain ⟨hadopted, hhandled⟩ := hgreeted.of_accepted hsound hstep hgreets hrole
  have hmisstarted :=
    misstarted_concat hgreeted (hann.not_adopted hsound) hadopted hhandled
  refine ⟨hhandled, by simpa using hmisstarted, hgreets.handles, hrole, hnumber, ?_, ?_⟩
  · have hqueue := (start side settings).queue_runFrom ops serial
    rw [show (start side settings).takenOut ops serial = _ from htaken] at hqueue
    exact (List.nil_append _).symm.trans hqueue
  · have hqueue := (run side settings ops).queue_perform op serial
    have hin : (run side settings ops).takesIn .turn serial =
        (run side settings ops).intake frame serial := by simp only [takesIn, hann.upcoming]
    rw [hann.turn, takesOut_of_ne (by simp [readFrom?]), hin, List.nil_append] at hqueue
    rw [run_concat, hann.turn]
    exact hqueue.symm

theorem missed_of_misstarts {op : Op} {serial : Nat}
    (hmisstarts : (run side settings ops).Misstarts op serial) :
    Missed side settings ops op serial := by
  obtain ⟨hfails, frame, hann⟩ := hmisstarts
  have hsound := sound_run side settings ops
  have hgreeted := greeted_run side settings ops
  have hstep := step hsound op
  obtain ⟨hgreets, hover, hrole, -⟩ := accepted_of_announces hsound hann
  rw [hfails] at hgreets
  rw [← run_concat] at hgreets hover hrole hstep
  obtain ⟨hadopted, hhandled⟩ := hgreeted.of_accepted hsound hstep hgreets hrole
  refine ⟨by simpa using hhandled, ?_, hgreets.handles, hover hfails⟩
  exact misstarted_concat hgreeted (hann.not_adopted hsound) hadopted hhandled

theorem others_of_not_announces {op : Op}
    (hnone : ∀ frame serial, ¬ (run side settings ops).Announces op frame serial) :
    (run side settings (ops ++ [op])).handled = (run side settings ops).handled ∧
      (run side settings (ops ++ [op])).misstarted = (run side settings ops).misstarted := by
  obtain ⟨-, hadopted, hhandled⟩ :=
    (greeted_run side settings ops).of_silent (sound_run side settings ops) hnone
  rw [run_concat]
  exact ⟨hhandled, by rw [misstarted, hadopted, hhandled, misstarted]⟩

/-- The streams missed are those announced while no handler could be started. -/
theorem mem_misstarted_iff {serial : Nat} :
    serial ∈ (run side settings ops).misstarted ↔ Unstarted side settings ops serial := by
  induction ops using List.reverseRecOn with
  | nil =>
    refine iff_of_false List.not_mem_nil ?_
    rintro ⟨before, op, after, heq, -⟩
    simp at heq
  | append_singleton ops op ih =>
    -- Whether the last operation announces a stream decides what is added on both sides.
    have hsplit : Unstarted side settings (ops ++ [op]) serial ↔
        Unstarted side settings ops serial ∨ (run side settings ops).Misstarts op serial := by
      constructor
      · rintro ⟨before, last, after, heq, hmisstarts⟩
        rcases List.eq_nil_or_concat after with rfl | ⟨others, final, rfl⟩
        · obtain ⟨rfl, hlast⟩ := List.append_inj' heq rfl
          cases hlast
          exact Or.inr hmisstarts
        · rw [List.concat_eq_append, ← List.cons_append, ← List.append_assoc] at heq
          exact Or.inl ⟨before, last, others, (List.append_inj' heq rfl).1, hmisstarts⟩
      · rintro (⟨before, last, after, rfl, hmisstarts⟩ | hmisstarts)
        · exact ⟨before, last, after ++ [op], by simp, hmisstarts⟩
        · exact ⟨ops, op, [], rfl, hmisstarts⟩
    rw [hsplit, ← ih]
    by_cases hann : ∃ frame found, (run side settings ops).Announces op frame found
    · obtain ⟨frame, found, hann⟩ := hann
      rcases hstart : (run side settings ops).conditions.failStart with _ | text
      · rw [(called_of_announces hann hstart).misstarted]
        simp [Misstarts, hstart]
      · have hmisstarts : (run side settings ops).Misstarts op found :=
          ⟨by rw [hstart]; rfl, frame, hann⟩
        rw [(missed_of_misstarts hmisstarts).misstarted, List.mem_append, List.mem_singleton]
        refine or_congr_right ⟨fun heq => heq ▸ hmisstarts, ?_⟩
        rintro ⟨-, other, hother⟩
        exact hother.inj hann
    · have hnone : ∀ frame found, ¬ (run side settings ops).Announces op frame found :=
        fun frame found h => hann ⟨frame, found, h⟩
      rw [(others_of_not_announces hnone).2]
      exact ⟨Or.inl, fun h => h.elim (fun h => h) fun ⟨_, frame, h⟩ =>
        absurd h (hnone frame serial)⟩

/-- The streams accepted are the peer's, by their roles and by their numbers. -/
theorem foreign_of_mem_adopted (sound : m.ledger.Sound) {serial : Nat} (hmem : serial ∈ m.adopted) :
    (m.registry.stream serial).role = .acceptor ∧
      m.side.owns (m.registry.stream serial).id = false := by
  obtain ⟨⟨handle, hhandle, rfl⟩, hrole⟩ := mem_adopted_iff.mp hmem
  refine ⟨hrole, ?_⟩
  rw [← Bool.not_eq_true]
  intro hown
  have howns := (sound.owns_eq (m.ledger.stream handle.serial).id).trans hown
  have hopener := (sound.role_iff (sound.held_lt hhandle)).mpr howns
  rw [show (m.ledger.stream handle.serial).role = _ from hrole] at hopener
  cases hopener

/-- **Announced streams are dispatched exactly once.**  In every run the handler is called with a
stream exactly when a frame is applied that announces a stream of the peer which is current, or
begins with the frame, and which was not accepted before, and the handler can be started; the
connection is not torn down then.  No stream is handled twice, none is one of this side's, and as
many are counted as accepted as there were calls and starts that failed. -/
theorem dispatches_run (side : Side) (settings : Settings) (ops : List Op) :
    Dispatches side settings ops := by
  have hsound := sound_run side settings ops
  have hgreeted := greeted_run side settings ops
  refine ⟨?_, ?_, fun serial => mem_misstarted_iff, fun serial hmem => ?_, called_of_announces,
    missed_of_misstarts, others_of_not_announces⟩
  · exact hgreeted.handled.nodup (hsound.handles_nodup.filter _)
  · have hopened := hgreeted.opened
    have hhandles := (balanced_run side settings ops).held
    rw [← hgreeted.length_adopted hsound]
    omega
  · have hforeign := foreign_of_mem_adopted hsound (hgreeted.handled.subset hmem)
    rwa [side_run] at hforeign

/-- Two bytes come for a stream of the peer, the first is read by its number, and the announcement
that follows finds the second. -/
example : (run .listener .usual [.arrive [2, 1, 0xaa, 2, 1, 0xbb, 0, 0], .turn, .turn, .turn, .turn,
    .readById 0, .turn]).handled = [0] := by decide +kernel

end Mux

end StreamMux
