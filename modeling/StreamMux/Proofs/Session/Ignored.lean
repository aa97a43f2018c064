import StreamMux.Proofs.Session.Arrivals
import StreamMux.Proofs.Session.Balance
import StreamMux.Proofs.Session.Disregard
import StreamMux.Proofs.Session.Willing

/-!
# Frames that count as ignored

A session counts the frames of the peer that come in, and those that it ignored.  The second count
goes up as often as the ledger disregards the frame, which may be twice.

* `Mux.ignored_receive` — how often a frame counts as ignored;
* `Mux.passedOver_iff` — frames that do not straddle count once at most, and change nothing if they
  count;
* `Mux.ignored_run` — the frames that were ignored are no more than those that came in exactly as
  long as those that counted twice are no more than those that did not count.
-/

namespace StreamMux

namespace Mux

variable {m m' : Mux} {frame : Frame} {kind : Kind}

/-! ### Counting -/

theorem counters_shut (m : Mux) : m.shut.1.counters = m.counters := by
  unfold shut
  simp only
  repeat' split
  all_goals rfl

theorem counters_tearDown (m : Mux) (cause : Cause) :
    (m.tearDown cause).counters = m.counters := by
  unfold tearDown
  split
  · rfl
  · have hshut := counters_shut ({ m with tornDown := true }.note (.tearingDown cause))
    simp only
    generalize ({ m with tornDown := true }.note (.tearingDown cause)).shut = result at hshut ⊢
    obtain ⟨shut, fault | _⟩ := result <;> exact hshut

theorem ignored_send (m : Mux) (frame : Frame) :
    (m.send frame).1.counters.ignored = m.counters.ignored := by
  unfold send
  split
  · rfl
  · split
    · rfl
    · rename_i bytes _ _
      have htransmit : (m.transmit bytes).1.counters = m.counters := by
        unfold transmit
        repeat' split
        all_goals rfl
      generalize m.transmit bytes = result at htransmit ⊢
      obtain ⟨after, fault | ⟨⟩⟩ := result
      · exact congrArg Counters.ignored ((counters_tearDown _ _).trans htransmit)
      · exact (congrArg Counters.ignored htransmit :)

theorem ignored_terminate (m : Mux) (serial : Nat) (ending : Ending) :
    (m.terminate serial ending).1.counters.ignored = m.counters.ignored := by
  by_cases hover : (m.registry.stream serial).isOver = true
  · unfold terminate
    simp only
    split
    · rfl
    · rw [Stream.terminate_of_isOver hover]
  · rw [terminate_of_live (by simpa using hover)]
    refine (ignored_send _ _).trans ?_
    cases ending <;> rfl

theorem ignored_bind (m : Mux) (id : UInt64) (announced : Bool) :
    (m.bind id announced).1.counters = m.counters := by
  unfold bind
  repeat' split
  all_goals rfl

theorem ignored_callHandler (m : Mux) (id : UInt64) (serial : Nat) :
    (m.callHandler id serial).1.counters.ignored = m.counters.ignored := by
  by_cases hpending : id ∈ m.registry.pending
  · rcases hstart : m.conditions.failStart with _ | text
    · rw [callHandler_started hpending hstart]
      rfl
    · rw [callHandler_unstarted hpending hstart]
      exact (congrArg Counters.ignored (counters_drop ..)).trans rfl
  · rw [callHandler_of_not_mem hpending]

theorem ignored_cutShort (m : Mux) (serial : Nat) :
    (m.cutShort serial).counters.ignored = m.counters.ignored := by
  have hends := ignored_terminate m serial .reset
  unfold cutShort
  generalize m.terminate serial .reset = result at hends ⊢
  obtain ⟨after, fault | ⟨⟩⟩ := result <;> exact hends

theorem ignored_announce (m : Mux) (id : UInt64) (serial : Nat) :
    (m.announce id serial).counters.ignored =
      m.counters.ignored + if id ∈ m.registry.pending then 0 else 1 := by
  have hcalled := m.ignored_callHandler id serial
  unfold announce
  by_cases hpending : id ∈ m.registry.pending
  · rw [if_pos hpending, Nat.add_zero]
    rcases hstart : m.conditions.failStart with _ | text
    · rw [callHandler_started hpending hstart] at hcalled ⊢
      exact hcalled
    · rw [callHandler_unstarted hpending hstart] at hcalled ⊢
      exact (ignored_cutShort ..).trans hcalled
  · rw [if_neg hpending, callHandler_of_not_mem hpending]
    rfl

/-- A stream is over once it is announced, if it was before or no handler can be started. -/
theorem isOver_announce (m : Mux) (id : UInt64) (serial : Nat) :
    ((m.announce id serial).registry.stream serial).isOver = true ↔
      (m.registry.stream serial).isOver = true ∨
        m.conditions.failStart.isSome = true ∧ id ∈ m.registry.pending := by
  by_cases hpending : id ∈ m.registry.pending
  · rcases hstart : m.conditions.failStart with _ | text
    · unfold announce
      rw [callHandler_started hpending hstart]
      simp only [Option.isSome_none, Bool.false_eq_true, false_and, or_false]
      rfl
    · obtain ⟨out, l, hcutting, hleads⟩ := m.announce_unstarted hpending hstart serial
      have hover := hcutting.isOver
      rw [← hleads.ledger] at hover
      exact iff_of_true hover (Or.inr ⟨rfl, hpending⟩)
  · unfold announce
    rw [callHandler_of_not_mem hpending]
    simp [hpending, note, count]

theorem ignored_turnAway (m : Mux) (id : UInt64) (kind : Kind) (refusal : Refusal) :
    (m.turnAway id kind refusal).counters.ignored = m.counters.ignored + 1 := by
  unfold turnAway
  cases refusal with
  | crowded =>
    have hsend := ignored_send (m.note (.refused id .crowded)) (.ofKind id .resetAcceptor [])
    simp only
    generalize Mux.send _ _ = result at hsend ⊢
    obtain ⟨after, fault | size⟩ := result <;> exact congrArg (· + 1) hsend
  | closed => rfl
  | ownNumber => rfl

theorem ignored_enqueue (m : Mux) (serial : Nat) (payload : Bytes) :
    (m.enqueue serial payload).counters.ignored = m.counters.ignored +
      if payload ≠ [] ∧ (m.registry.stream serial).isOver = true then 1 else 0 := by
  unfold enqueue
  by_cases hempty : payload = []
  · simp [hempty]
  · rw [if_neg (by simpa using hempty)]
    by_cases hover : (m.registry.stream serial).isOver = true
    · rw [if_pos ⟨hempty, hover⟩]
      simp only [Stream.push, if_pos hover]
      rfl
    · rw [if_neg fun hboth => hover hboth.2, Nat.add_zero]
      simp only [Stream.push, if_neg hover]
      by_cases hfull :
          (m.registry.stream serial).queue.length ≥ (m.registry.stream serial).capacity
      · simp only [if_pos hfull]
        exact ignored_cutShort ..
      · simp only [if_neg hfull]
        rfl

theorem ignored_endByPeer (m : Mux) (id : UInt64) (ending : Ending) :
    (m.endByPeer id ending).counters.ignored =
      m.counters.ignored + if m.ledger.isLive id then 0 else 1 := by
  unfold endByPeer
  rcases hfind : m.registry.find? id with _ | serial
  · rw [Ledger.isLive, show m.ledger.find? id = none from hfind]
    rfl
  · rw [Ledger.isLive, show m.ledger.find? id = some serial from hfind, Option.any_some]
    change _ = m.counters.ignored + if (!(m.registry.stream serial).isOver) = true then 0 else 1
    by_cases hover : (m.registry.stream serial).isOver = true
    · simp only [Stream.terminate_of_isOver hover, hover]
      rfl
    · have hlive : (m.registry.stream serial).isOver = false := by simpa using hover
      simp only [Stream.terminate_eq hlive, hlive]
      cases ending <;> rfl

/-! ### Streams to begin or to feed -/

section Binds

variable {id : UInt64} {announced : Bool}

theorem Binds.refuses {refusal : Refusal} (h : m.Binds id announced (m', .error refusal))
    (late : announced = false → kind ≠ .newStream) : m.ledger.refuses kind id = true := by
  cases h with
  | torn torn => simp [Ledger.refuses, show m.ledger.tornDown = true from torn]
  | own up new own => simp [Ledger.refuses, new, own]
  | crowded unannounced up new foreign full =>
    simp [Ledger.refuses, new, foreign, late unannounced, full]

theorem isOver_begun {out : List Frame} (leads : m.Leads out (m.ledger.welcome id) m') :
    (m'.registry.stream m.ledger.size).isOver = false := by
  change (m'.ledger.stream m.ledger.size).isOver = false
  rw [leads.ledger, Ledger.stream_welcome_self]
  rfl

end Binds

theorem ignored_newStream (m : Mux) (is : frame.kind? = some .newStream) :
    (m.receiveKind .newStream frame.id frame.payload).counters.ignored =
      m.counters.ignored + m.ledger.disregards m.conditions.failStart.isSome frame := by
  have hbinds := binds m frame.id true
  have hcount := congrArg Counters.ignored (ignored_bind m frame.id true)
  have hsame := conditions_bind m frame.id true
  unfold receiveKind
  simp only
  generalize m.bind frame.id true = result at hbinds hcount hsame ⊢
  obtain ⟨bound, refusal | ⟨serial, fresh⟩⟩ := result
  · rw [Ledger.disregards_refused is rfl (hbinds.refuses fun late => by cases late), ← hcount]
    exact ignored_turnAway ..
  · simp only [ignored_enqueue, ignored_announce, isOver_announce]
    cases hbinds with
    | current up find =>
      have hdone : m.ledger.isDone frame.id = (m.registry.stream serial).isOver :=
        Ledger.isDone_of_current find
      rw [Ledger.disregards_newStream is (Ledger.refuses_of_current up find), hdone]
      by_cases hpending : frame.id ∈ m.registry.pending
      · have hawaited : m.ledger.isAwaited frame.id = true := Ledger.isAwaited_of_mem hpending
        simp [hawaited, hpending]
      · have haccepted : m.ledger.isAwaited frame.id = false :=
          Ledger.isAwaited_of_not_mem find hpending
        simp [haccepted, hpending, Nat.add_assoc]
    | fresh up new foreign leads =>
      have hpending : frame.id ∈ bound.registry.pending := by
        rw [show bound.registry = _ from congrArg Ledger.registry leads.ledger]
        exact List.mem_append_right _ (List.mem_singleton_self _)
      rw [Ledger.disregards_newStream is
          (Ledger.refuses_eq_false up foreign fun hne => absurd rfl hne),
        Ledger.isDone_of_none new, Ledger.isAwaited_of_none new, isOver_begun leads,
        if_pos hpending, show bound.counters.ignored = m.counters.ignored from hcount,
        show bound.conditions = m.conditions from hsame]
      simp [hpending]

theorem ignored_message (m : Mux) (is : frame.kind? = some kind)
    (message : kind.isMessage = true) :
    (m.receiveKind kind frame.id frame.payload).counters.ignored =
      m.counters.ignored + m.ledger.disregards m.conditions.failStart.isSome frame := by
  obtain ⟨hopens, hlate⟩ := Kind.ending?_of_isMessage message
  have hbinds := binds m frame.id false
  have hcount := congrArg Counters.ignored (ignored_bind m frame.id false)
  rcases hbind : m.bind frame.id false with ⟨bound, refusal | ⟨serial, fresh⟩⟩
  · rw [hbind] at hbinds hcount
    rw [receiveKind_refused message hbind,
      Ledger.disregards_refused is hopens (hbinds.refuses fun _ => hlate), ← hcount]
    exact ignored_turnAway ..
  · rw [hbind] at hbinds hcount
    rw [receiveKind_bound message hbind]
    cases hbinds with
    | current up find =>
      rw [Ledger.disregards_message is message (Ledger.refuses_of_current up find),
        Ledger.isDone_of_current find]
      simp only [ignored_enqueue, Bool.false_eq_true, if_false]
      rfl
    | fresh up new foreign leads room =>
      have hlive := isOver_begun leads
      rw [Ledger.disregards_message is message
        (Ledger.refuses_eq_false up foreign fun _ => room rfl), Ledger.isDone_of_none new]
      simp only [if_true, ignored_enqueue, Bool.false_eq_true, and_false, if_false]
      rw [if_neg fun hboth => absurd hboth.2 (by simp [note, hlive])]
      exact hcount

/-- A frame counts as ignored as often as the session disregards it. -/
theorem ignored_receive (m : Mux) (frame : Frame) :
    (m.receive frame).counters.ignored =
      m.counters.ignored + m.ledger.disregards m.conditions.failStart.isSome frame := by
  unfold receive
  rcases hkind : frame.kind? with _ | kind
  · rw [Ledger.disregards_reserved hkind]
    rfl
  · have hnoted := ledger_note m (.received kind frame.id frame.payload.length) rfl
    rw [← hnoted]
    obtain ⟨noted, hnote⟩ :
        ∃ noted, m.note (.received kind frame.id frame.payload.length) = noted := ⟨_, rfl⟩
    have hcounters : noted.counters = m.counters := hnote ▸ rfl
    have hconditions : noted.conditions = m.conditions := hnote ▸ rfl
    simp only [hnote]
    rw [← hcounters, ← hconditions]
    change (noted.receiveKind kind frame.id frame.payload).counters.ignored = _
    rcases hends : kind.ending? with _ | ending
    · cases hmessage : kind.isMessage
      · obtain rfl := Kind.eq_newStream hends hmessage
        exact noted.ignored_newStream hkind
      · exact noted.ignored_message hkind hmessage
    · rw [Ledger.disregards_ending hkind hends]
      cases kind <;> cases hends <;> exact noted.ignored_endByPeer ..

/-! ### Frames that are passed over -/

/-- What is meant to hold of a frame that counts as ignored: it counts once, and has no effect,
unless the peer is told that there was no room for one more pending stream. -/
structure PassedOver (m : Mux) (frame : Frame) (m' : Mux) : Prop where
  once : m'.counters.ignored ≤ m.counters.ignored + 1
  idle : m'.counters.ignored ≠ m.counters.ignored →
    m'.ledger = m.ledger ∧ m'.arrivals = m.arrivals
  quiet : m'.counters.ignored ≠ m.counters.ignored → m'.written = m.written ∨
    m'.written = m.written ++ [(Frame.ofKind frame.id .resetAcceptor []).wire] ∧
      m.ledger.Crowds frame

/-- The handler was called for nothing if there is no handle more. -/
theorem Greets.arrivals_eq {made : List Handle} (h : m.Greets made m')
    (handles : m'.handles = m.handles) : m'.arrivals = m.arrivals := by
  have hmade : made = [] := by
    have hsame := h.handles
    rw [handles] at hsame
    exact List.append_cancel_left (hsame.symm.trans (List.append_nil _).symm)
  rw [h.arrivals, hmade]
  exact List.append_nil _

/-- Every frame is passed over as it should be, unless it straddles. -/
theorem passedOver_iff (m : Mux) (willing : m.Willing) (frame : Frame) :
    m.PassedOver frame (m.receive frame) ↔
      ¬ m.ledger.Straddles m.conditions.failStart.isSome frame := by
  have hcount := m.ignored_receive frame
  obtain ⟨out, l, hreceiving, hleads⟩ := receives m frame
  constructor
  · intro h straddles
    have honce := h.once
    refine hreceiving.ne straddles (by omega) ?_
    rw [← hleads.ledger]
    exact (h.idle fun hsame => straddles.counts (by omega)).1
  · intro whole
    have honce := Ledger.disregards_le_one whole
    have htorn : l.tornDown = m.ledger.tornDown := by
      rw [← hleads.ledger]
      exact willing.receive frame
    have hidle : (m.receive frame).counters.ignored ≠ m.counters.ignored →
        l = m.ledger ∧
          (out = [] ∨ out = [.ofKind frame.id .resetAcceptor []] ∧ m.ledger.Crowds frame) :=
      fun hcounts => hreceiving.eq_self (by omega) whole htorn
    have hwritten := hleads.passes.written
    refine ⟨by omega, fun hcounts => ?_, fun hcounts => ?_⟩
    · have hledger : (m.receive frame).ledger = m.ledger := hleads.ledger.trans (hidle hcounts).1
      obtain ⟨made, hgreets⟩ := m.greets_receive frame
      exact ⟨hledger, hgreets.arrivals_eq (congrArg Ledger.handles hledger)⟩
    · rcases (hidle hcounts).2 with rfl | ⟨rfl, hcrowds⟩
      · exact Or.inl (by simpa using hwritten)
      · exact Or.inr ⟨by simpa using hwritten, hcrowds⟩

/-! ### Operations -/

theorem ignored_openStream (m : Mux) (label : Option String) :
    (m.openStream label).1.counters.ignored = m.counters.ignored := by
  unfold openStream
  split
  · rfl
  · split
    · rfl
    · rename_i id ids _
      have hsend := ignored_send { m with
        ids, registry := (m.registry.beginLocal id m.settings.queueLimit).1 }
        (.ofKind id .newStream [])
      simp only
      generalize Mux.send _ _ = result at hsend ⊢
      obtain ⟨after, fault | size⟩ := result <;> exact hsend

theorem ignored_write (m : Mux) (serial : Nat) (data : Bytes) :
    (m.write serial data).1.counters.ignored = m.counters.ignored := by
  unfold write
  simp only
  split
  · rfl
  · split
    · exact ignored_send ..
    · rfl
    · rfl

theorem counters_read (m : Mux) (serial : Nat) : (m.read serial).1.counters = m.counters := by
  unfold read
  split <;> rfl

theorem counters_stop (m : Mux) (fault : Option Fault) : (m.stop fault).counters = m.counters := by
  unfold stop
  rcases fault with _ | fault
  · rfl
  · simp only
    split
    · rfl
    · exact counters_tearDown ..

theorem Quiet.counters_eq (h : m.Quiet m') : m'.counters = m.counters := by
  cases h with
  | idle short => rfl
  | fed waiting read => rfl
  | stopped conditions fault gone => exact counters_stop ..

theorem ignored_withHandle {place : Nat} {f : Nat → Mux × Answer}
    (h : ∀ serial, (f serial).1.counters.ignored = m.counters.ignored) :
    (m.withHandle place f).1.counters.ignored = m.counters.ignored :=
  withHandle_ind (P := fun after => after.counters.ignored = m.counters.ignored) rfl
    fun handle _ _ => h handle.serial

/-- Only the frames that are applied count as ignored. -/
theorem ignored_perform (m : Mux) (op : Op) : (m.perform op).1.counters.ignored =
    m.counters.ignored +
      ((m.applies op).map (m.ledger.disregards m.conditions.failStart.isSome)).sum := by
  cases op with
  | turn =>
    simp only [perform, applies]
    rcases hturn : m.turn with _ | after
    · rw [upcoming?_of_turn_eq_none hturn]
      rfl
    · rcases @turn_cases m after 0 hturn with ⟨frame, rest, hupcoming, -, rfl⟩ | ⟨hnone, -⟩
      · rw [hupcoming]
        exact ignored_receive { m with assembler := ⟨rest⟩, loop := .ready } frame
      · rw [hnone]
        exact congrArg Counters.ignored (quiet_turn hturn hnone).counters_eq
  | openStream label => exact ignored_openStream ..
  | write place payload => exact ignored_withHandle fun serial => ignored_write m serial _
  | finish place ending => exact ignored_withHandle fun serial => ignored_terminate m serial _
  | read place =>
    exact ignored_withHandle fun serial => congrArg Counters.ignored (counters_read m serial)
  | drop place =>
    exact ignored_withHandle fun _ => congrArg Counters.ignored (counters_drop m place)
  | send frame => exact ignored_send ..
  | readById id =>
    simp only [perform, readById]
    split
    · rfl
    · exact congrArg Counters.ignored (counters_read ..)
  | close => exact congrArg Counters.ignored (counters_tearDown ..)
  | arrive chunk =>
    simp only [perform]
    split <;> rfl
  | readFar size => rfl
  | closeFar => rfl
  | closeLink => exact congrArg Counters.ignored (counters_shut m)
  | resetLink => rfl
  | adjust conditions => rfl

/-! ### Runs -/

/-- How often each frame that was applied meanwhile counts as ignored. -/
def disregarded (m : Mux) (ops : List Op) : List Nat :=
  (m.trail ops).flatMap fun step => (step.1.applies step.2).map
    (step.1.ledger.disregards step.1.conditions.failStart.isSome)

theorem ignored_runFrom (m : Mux) (ops : List Op) :
    (m.runFrom ops).counters.framesIn = m.counters.framesIn + (m.disregarded ops).length ∧
      (m.runFrom ops).counters.ignored = m.counters.ignored + (m.disregarded ops).sum := by
  induction ops generalizing m with
  | nil => exact ⟨rfl, rfl⟩
  | cons op ops ih =>
    obtain ⟨out, haccounts⟩ := accounts_perform m op
    have hframes := haccounts.framesIn
    have hignored := m.ignored_perform op
    obtain ⟨hin, hcount⟩ := ih (m.perform op).1
    simp only [disregarded, trail, List.flatMap_cons, List.length_append, List.sum_append,
      List.length_map, runFrom_cons] at hin hcount ⊢
    omega

theorem le_two_of_mem_disregarded {ops : List Op} {count : Nat} (h : count ∈ m.disregarded ops) :
    count ≤ 2 := by
  obtain ⟨step, -, hmem⟩ := List.mem_flatMap.mp h
  obtain ⟨frame, -, rfl⟩ := List.mem_map.mp hmem
  exact Ledger.disregards_le_two ..

/-- Numbers up to two sum up to as many as there are, with one more for each two and one less for
each zero. -/
theorem sum_add_count_zero {counts : List Nat} (h : ∀ count ∈ counts, count ≤ 2) :
    counts.sum + counts.count 0 = counts.length + counts.count 2 := by
  induction counts with
  | nil => rfl
  | cons count others ih =>
    have hrest := ih fun other hmem => h other (List.mem_cons_of_mem _ hmem)
    have hle := h count (by simp)
    rw [List.sum_cons, List.length_cons, List.count_cons, List.count_cons]
    rcases (by omega : count = 0 ∨ count = 1 ∨ count = 2) with rfl | rfl | rfl <;> simp <;> omega

/-- **Frames that count as ignored.**  After every run, as long as the link takes what is written, a
frame of the peer counts as it came in once, and as ignored as often as the session disregards it.
It counts once at most and changes nothing if it counts, exactly if it does not straddle.  An
announcement whose handler cannot be started straddles too: its payload counts, and it is accepted
and reset.  The frames ignored are no more than those that came in exactly as long as those that
counted twice are no more than those that did not count. -/
theorem ignored_run (side : Side) (settings : Settings) (ops : List Op) :
    (∀ frame, (run side settings ops).Willing →
      ((run side settings ops).receive frame).counters.framesIn =
          (run side settings ops).counters.framesIn + 1 ∧
        ((run side settings ops).receive frame).counters.ignored =
          (run side settings ops).counters.ignored +
            (run side settings ops).ledger.disregards
              (run side settings ops).conditions.failStart.isSome frame ∧
        ((run side settings ops).PassedOver frame ((run side settings ops).receive frame) ↔
          ¬ (run side settings ops).ledger.Straddles
            (run side settings ops).conditions.failStart.isSome frame)) ∧
      (run side settings ops).counters.framesIn =
        ((start side settings).disregarded ops).length ∧
      (run side settings ops).counters.ignored = ((start side settings).disregarded ops).sum ∧
      ((run side settings ops).counters.ignored ≤ (run side settings ops).counters.framesIn ↔
        ((start side settings).disregarded ops).count 2 ≤
          ((start side settings).disregarded ops).count 0) := by
  refine ⟨fun frame willing => ⟨?_, ignored_receive .., passedOver_iff _ willing frame⟩, ?_⟩
  · obtain ⟨out, haccounts⟩ := accounts_receive (run side settings ops) frame
    exact haccounts.framesIn
  · have hrun := (start side settings).ignored_runFrom ops
    rw [show (start side settings).counters = {} from rfl, Nat.zero_add, Nat.zero_add] at hrun
    obtain ⟨hin, hcount⟩ : (run side settings ops).counters.framesIn = _ ∧
      (run side settings ops).counters.ignored = _ := hrun
    have hle : ∀ count ∈ (start side settings).disregarded ops, count ≤ 2 :=
      fun count hmem => le_two_of_mem_disregarded hmem
    have hbalance := sum_add_count_zero hle
    exact ⟨hin, hcount, by omega⟩

/-- The peer announces a stream, writes to it and closes it, and then announces it with data a few
times. -/
def reannounced (count : Nat) : List Op :=
  .arrive ([0, 0] ++ [2, 1, 0xaa] ++ [4, 0] ++ (List.replicate count [0, 1, 0xbb]).flatten) ::
    List.replicate (5 + count) .turn

/-- One more announcement straddles, and counts twice; after four of them more frames were ignored
than came in. -/
theorem ignored_reannounced :
    ¬ (run .listener .usual (reannounced 0)).PassedOver ⟨0, 0, [0xbb]⟩
        ((run .listener .usual (reannounced 0)).receive ⟨0, 0, [0xbb]⟩) ∧
      ((run .listener .usual (reannounced 0)).receive ⟨0, 0, [0xbb]⟩).counters.ignored =
        (run .listener .usual (reannounced 0)).counters.ignored + 2 ∧
      ¬ (run .listener .usual (reannounced 4)).counters.ignored ≤
        (run .listener .usual (reannounced 4)).counters.framesIn := by
  have hwilling : (run .listener .usual (reannounced 0)).Willing := by
    intro
    decide +kernel
  have hstraddles :
      (run .listener .usual (reannounced 0)).ledger.Straddles
        (run .listener .usual (reannounced 0)).conditions.failStart.isSome ⟨0, 0, [0xbb]⟩ :=
    ⟨rfl, by simp, by decide +kernel, Or.inl (by decide +kernel)⟩
  have htwo : (run .listener .usual (reannounced 0)).ledger.disregards
      (run .listener .usual (reannounced 0)).conditions.failStart.isSome ⟨0, 0, [0xbb]⟩ = 2 := by
    decide +kernel
  have hcounts : (start .listener .usual).disregarded (reannounced 4) = [0, 0, 0, 2, 2, 2, 2] := by
    decide +kernel
  obtain ⟨-, hcount, hiff⟩ :=
    (ignored_run .listener .usual (reannounced 0)).1 ⟨0, 0, [0xbb]⟩ hwilling
  refine ⟨fun h => hiff.mp h hstraddles, htwo ▸ hcount, fun hle => ?_⟩
  have hfew := (ignored_run .listener .usual (reannounced 4)).2.2.2.mp hle
  rw [hcounts] at hfew
  exact absurd hfew (by decide)

end Mux

end StreamMux
