import StreamMux.Proofs.Session.Accounts

/-!
# Every operation keeps the accounts

* `Mux.accounts_openStream`, `Mux.accounts_write`, `Mux.accounts_terminate`, … — what users do;
* `Mux.accounts_receive` — a frame of the peer;
* `Mux.upcoming?` — the frame that the next turn of the loop applies, and `Mux.accounts_turn`:
  exactly this frame is counted;
* `Mux.Quiet` — what a turn that applies no frame comes to.
-/

namespace StreamMux.Mux

variable {m m' : Mux} {size : Nat}

/-! ### Ending a stream -/

/-- A stream that was not over is ended, and counted as ended. -/
theorem accounts_countEnding {serial : Nat} (hlive : (m.registry.stream serial).isOver = false)
    (ending : Ending) : m.Accounts size [] []
      ((m.update serial { m.registry.stream serial with ending := some ending }).countEnding
        ending) := by
  have hlt := Registry.lt_of_not_isOver hlive
  have hcount := Registry.count_endings_update hlt (Stream.ending_eq_none hlive) ending
  cases ending with
  | closed =>
    refine .of_balanced ⟨rfl, rfl, rfl, rfl, rfl⟩ rfl fun hb => ⟨hb.held, ?_, ?_⟩
    · exact (congrArg (· + 1) hb.closed).trans (hcount .closed).symm
    · exact hb.reset.trans (hcount .reset).symm
  | reset =>
    refine .of_balanced ⟨rfl, rfl, rfl, rfl, rfl⟩ rfl fun hb => ⟨hb.held, ?_, ?_⟩
    · exact hb.closed.trans (hcount .closed).symm
    · exact (congrArg (· + 1) hb.reset).trans (hcount .reset).symm

theorem accounts_terminate (m : Mux) (serial : Nat) (ending : Ending) :
    ∃ out, m.Accounts 0 [] out (m.terminate serial ending).1 := by
  by_cases hover : (m.registry.stream serial).isOver = true
  · unfold terminate
    simp only
    split
    · exact ⟨[], .refl m⟩
    · rw [Stream.terminate_of_isOver hover]
      exact ⟨[], .refl m⟩
  · have hlive : (m.registry.stream serial).isOver = false := by simpa using hover
    rw [terminate_of_live hlive]
    have hended : m.Accounts 0 [] [] (m.ended serial ending) :=
      (accounts_countEnding hlive ending).trans_note _
    obtain ⟨out, hsend⟩ :=
      accounts_send_some (m.ended serial ending) ((m.registry.stream serial).farewell ending)
    exact ⟨out, (hended.nil_trans hsend).trans_nil (.sweep ..)⟩

/-! ### What users do -/

theorem accounts_openStream (m : Mux) (label : Option String) :
    ∃ out, m.Accounts 0 [] out (m.openStream label).1 := by
  unfold openStream
  split
  · exact ⟨[], .refl m⟩
  · split
    · exact ⟨[], .refl m⟩
    · rename_i id ids hdraw
      have hcreate : m.Accounts 0 [] [] { m with
          ids, registry := (m.registry.beginLocal id m.settings.queueLimit).1 } :=
        .create m (.start id .opener m.settings.queueLimit) rfl
      obtain ⟨out, hsend⟩ := accounts_send_some { m with
        ids, registry := (m.registry.beginLocal id m.settings.queueLimit).1 }
        (.ofKind id .newStream [])
      have hall := hcreate.nil_trans hsend
      simp only
      generalize Mux.send _ (Frame.ofKind id .newStream []) = result at hall ⊢
      obtain ⟨after, fault | written⟩ := result
      · exact ⟨out, hall.trans_nil (.remove after id)⟩
      · refine ⟨out, hall.trans_nil (.of_balanced ⟨rfl, rfl, rfl, rfl, rfl⟩ rfl fun hb =>
          ⟨?_, hb.closed, hb.reset⟩)⟩
        have hheld : after.counters.opened + after.counters.accepted = after.handles.length :=
          hb.held
        simp only [note, count, Counters.bump, List.length_append, List.length_singleton]
        omega

theorem accounts_write (m : Mux) (serial : Nat) (data : Bytes) :
    ∃ out, m.Accounts data.length [] out (m.write serial data).1 := by
  unfold write
  simp only
  split
  · exact ⟨[], .refl m⟩
  · split
    · exact accounts_send_some m ((m.registry.stream serial).parcel data)
    · exact ⟨[], .refl m⟩
    · exact ⟨[], .refl m⟩

theorem accounts_read (m : Mux) (serial : Nat) : m.Accounts size [] [] (m.read serial).1 := by
  unfold read
  split
  · rename_i stream chunk hpop
    refine .update m ?_
    rw [← (m.registry.stream serial).ending_pop, hpop]
  · exact .refl m
  · exact .sweep ..

theorem accounts_readById (m : Mux) (id : UInt64) : m.Accounts size [] [] (m.readById id).1 := by
  unfold readById
  split
  · exact .refl m
  · exact accounts_read ..

theorem accounts_drop (m : Mux) (place : Nat) : m.Accounts size [] [] (m.drop place) := by
  unfold drop
  split
  · exact .refl m
  · split
    · have hset : ∀ handle : Handle,
          m.Accounts size [] [] { m with handles := m.handles.set place handle } :=
        fun _ => .of_eq rfl rfl List.length_set rfl
      unfold forget
      simp only
      split
      · exact (hset _).trans_nil (.remove ..)
      · exact hset _
    · exact .refl m

/-! ### Frames of the peer -/

theorem accounts_bind (m : Mux) (id : UInt64) (announced : Bool) :
    m.Accounts size [] [] (m.bind id announced).1 := by
  unfold bind
  split
  · exact .refl m
  · split
    · exact .refl m
    · rename_i hnew
      split
      · exact .refl m
      · split
        · exact .refl m
        · rw [Registry.findOrBegin_of_none hnew]
          exact .create m (.start id .acceptor m.settings.queueLimit) rfl

theorem accounts_turnAway (m : Mux) (id : UInt64) (kind : Kind) (refusal : Refusal) :
    ∃ out, m.Accounts 0 [] out (m.turnAway id kind refusal) := by
  unfold turnAway
  cases refusal with
  | closed => exact ⟨[], (Accounts.note ..).trans_ignored⟩
  | ownNumber => exact ⟨[], (Accounts.note ..).trans_ignored⟩
  | crowded =>
    obtain ⟨out, hsend⟩ :=
      accounts_send_some (m.note (.refused id .crowded)) (.ofKind id .resetAcceptor [])
    have hall := (Accounts.note m (.refused id .crowded)).nil_trans hsend
    simp only
    generalize (m.note (.refused id .crowded)).send (.ofKind id .resetAcceptor []) = result
      at hall ⊢
    obtain ⟨after, fault | written⟩ := result
    · exact ⟨out, (hall.trans_note _).trans_ignored⟩
    · exact ⟨out, hall.trans_ignored⟩

/-- Whether or not the handler can be started, there is a handle more. -/
theorem accounts_callHandler (m : Mux) (id : UInt64) (serial : Nat) :
    m.Accounts size [] [] (m.callHandler id serial).1 := by
  by_cases hpending : id ∈ m.registry.pending
  · have haccepted : m.Accounts size [] [] (m.accepted id serial) := by
      refine .of_balanced ⟨rfl, rfl, rfl, rfl, rfl⟩ rfl fun hb => ⟨?_, hb.closed, hb.reset⟩
      have hheld := hb.held
      simp only [accepted, takeUp, note, count, Counters.bump, List.length_append,
        List.length_singleton]
      omega
    rcases hstart : m.conditions.failStart with _ | text
    · rw [callHandler_started hpending hstart]
      exact haccepted.trans_nil (.of_eq rfl rfl rfl rfl)
    · rw [callHandler_unstarted hpending hstart]
      have hadjusted : (m.accepted id serial).Accounts size [] [] { m.accepted id serial with
          conditions := { m.conditions with failStart := none } } := .of_eq rfl rfl rfl rfl
      exact (haccepted.trans_nil hadjusted).trans_nil (accounts_drop ..)
  · rw [callHandler_of_not_mem hpending]
    exact .refl m

theorem accounts_cutShort (m : Mux) (serial : Nat) :
    ∃ out, m.Accounts 0 [] out (m.cutShort serial) := by
  obtain ⟨out, hends⟩ := accounts_terminate m serial .reset
  unfold cutShort
  generalize m.terminate serial .reset = result at hends ⊢
  obtain ⟨after, fault | done⟩ := result
  · exact ⟨out, hends.trans_note _⟩
  · exact ⟨out, hends⟩

theorem accounts_announce (m : Mux) (id : UInt64) (serial : Nat) :
    ∃ out, m.Accounts 0 [] out (m.announce id serial) := by
  have hcall : m.Accounts 0 [] [] (m.callHandler id serial).1 := m.accounts_callHandler id serial
  unfold announce
  generalize m.callHandler id serial = result at hcall ⊢
  obtain ⟨after, fault | _ | _⟩ := result
  · obtain ⟨out, hcut⟩ := accounts_cutShort (after.note (.notDispatched id fault)) serial
    exact ⟨out, (hcall.trans_note _).nil_trans hcut⟩
  · exact ⟨[], (hcall.trans_note _).trans_ignored⟩
  · exact ⟨[], hcall⟩

theorem accounts_enqueue (m : Mux) (serial : Nat) (payload : Bytes) :
    ∃ out, m.Accounts 0 [] out (m.enqueue serial payload) := by
  unfold enqueue
  split
  · exact ⟨[], .refl m⟩
  · simp only
    split
    · rename_i longer hpush
      refine ⟨[], .update m ?_⟩
      rw [← (m.registry.stream serial).ending_push payload, hpush]
    · obtain ⟨out, hcut⟩ := accounts_cutShort
        (m.note (.queueFull (m.registry.stream serial).id m.settings.queueLimit)) serial
      exact ⟨out, (Accounts.note m _).nil_trans hcut⟩
    · exact ⟨[], (Accounts.note ..).trans_ignored⟩

theorem accounts_endByPeer (m : Mux) (id : UInt64) (ending : Ending) :
    m.Accounts size [] [] (m.endByPeer id ending) := by
  unfold endByPeer
  split
  · exact (Accounts.note ..).trans_ignored
  · rename_i serial hfind
    by_cases hover : (m.registry.stream serial).isOver = true
    · rw [Stream.terminate_of_isOver hover]
      exact (Accounts.refl m).trans_ignored
    · have hlive : (m.registry.stream serial).isOver = false := by simpa using hover
      rw [Stream.terminate_eq hlive]
      exact ((accounts_countEnding hlive ending).trans_note _).trans_nil (.sweep ..)

theorem accounts_newStream (m : Mux) (id : UInt64) (payload : Bytes) :
    ∃ out, m.Accounts 0 [] out (m.receiveKind .newStream id payload) := by
  unfold receiveKind
  have hbind : m.Accounts 0 [] [] (m.bind id true).1 := m.accounts_bind id true
  simp only
  generalize m.bind id true = bound at hbind ⊢
  obtain ⟨after, refusal | ⟨serial, isNew⟩⟩ := bound
  · obtain ⟨out, haway⟩ := accounts_turnAway after id .newStream refusal
    exact ⟨out, hbind.nil_trans haway⟩
  · obtain ⟨out, hannounce⟩ := after.accounts_announce id serial
    obtain ⟨more, hqueue⟩ := accounts_enqueue (after.announce id serial) serial payload
    exact ⟨out ++ more, hbind.nil_trans (hannounce.trans hqueue)⟩

theorem accounts_message (m : Mux) {kind : Kind} (message : kind.isMessage = true) (id : UInt64)
    (payload : Bytes) : ∃ out, m.Accounts 0 [] out (m.receiveKind kind id payload) := by
  have hbind : m.Accounts 0 [] [] (m.bind id false).1 := m.accounts_bind id false
  rcases hbound : m.bind id false with ⟨after, refusal | ⟨serial, isNew⟩⟩
  · rw [hbound] at hbind
    rw [receiveKind_refused message hbound]
    obtain ⟨out, haway⟩ := accounts_turnAway after id kind refusal
    exact ⟨out, hbind.nil_trans haway⟩
  · rw [hbound] at hbind
    rw [receiveKind_bound message hbound]
    have hnoted : m.Accounts 0 [] [] (if isNew = true then after.note (.early id) else after) := by
      split
      · exact hbind.trans_note _
      · exact hbind
    obtain ⟨out, hqueue⟩ := accounts_enqueue
      (if isNew = true then after.note (.early id) else after) serial payload
    exact ⟨out, hnoted.nil_trans hqueue⟩

theorem accounts_receive (m : Mux) (frame : Frame) :
    ∃ out, m.Accounts 0 [frame] out (m.receive frame) := by
  have hcounted : ∀ {applied : Mux} {out : List Frame}, m.Accounts 0 [] out applied →
      m.Accounts 0 [frame] out
        (applied.count (·.frameIn frame.payload.length frame.wireSize)) := by
    intro applied out happlied
    have hframe : applied.Accounts 0 [frame] []
        (applied.count (·.frameIn frame.payload.length frame.wireSize)) := by
      refine ⟨rfl, rfl, ?_, rfl, ?_, by simp [count], fun _ _ hmem => by simp at hmem,
        fun hb => ⟨hb.held, hb.closed, hb.reset⟩⟩
      · simp [count, Counters.frameIn]
      · simp [count, Counters.frameIn]
    simpa using happlied.trans hframe
  unfold receive
  rcases frame.kind? with _ | kind
  · exact ⟨[], hcounted (Accounts.note ..).trans_ignored⟩
  · obtain ⟨noted, hnoted⟩ :
        ∃ noted, m.note (.received kind frame.id frame.payload.length) = noted := ⟨_, rfl⟩
    have hnote : m.Accounts 0 [] [] noted := hnoted ▸ .note ..
    have happlied : ∃ out,
        noted.Accounts 0 [] out (noted.receiveKind kind frame.id frame.payload) := by
      cases kind with
      | newStream => exact accounts_newStream ..
      | messageAcceptor => exact accounts_message _ rfl _ _
      | messageOpener => exact accounts_message _ rfl _ _
      | closeAcceptor => exact ⟨[], accounts_endByPeer ..⟩
      | closeOpener => exact ⟨[], accounts_endByPeer ..⟩
      | resetAcceptor => exact ⟨[], accounts_endByPeer ..⟩
      | resetOpener => exact ⟨[], accounts_endByPeer ..⟩
    obtain ⟨out, happlied⟩ := happlied
    simp only [hnoted]
    exact ⟨out, hcounted (hnote.nil_trans happlied)⟩

/-! ### Turns -/

theorem accounts_stop (m : Mux) (fault : Option Fault) : m.Accounts size [] [] (m.stop fault) := by
  have hend : ∀ {before : Mux}, m.Accounts size [] [] before →
      m.Accounts size [] [] ({ before with loop := .ended }.note .loopStopped) := by
    intro before hbefore
    have hloop : before.Accounts size [] [] { before with loop := .ended } :=
      .of_eq rfl rfl rfl rfl
    exact hbefore.trans_nil (hloop.trans_note _)
  unfold stop
  rcases fault with _ | fault
  · exact hend (.refl m)
  · apply hend
    simp only
    split
    · exact .note ..
    · exact (Accounts.note ..).trans_nil (accounts_tearDown ..)

/-- The frame that stands in front of what came in. -/
def front? (m : Mux) : Option Frame :=
  match Frame.cut m.assembler.buffer m.settings.frameLimit with
  | .ok (some (frame, _)) => some frame
  | _ => none

/-- The frame that the next turn of the loop applies, if it applies one. -/
def upcoming? (m : Mux) : Option Frame :=
  match m.loop with
  | .fed => m.front?
  | .ready => if m.isClosed then none else m.front?
  | .waiting | .ended => none

/-- A frame in front is applied, and without one nothing is counted. -/
theorem proceed_cases (m : Mux) (next : LoopState) :
    (∃ frame rest, m.front? = some frame ∧
      Frame.cut m.assembler.buffer m.settings.frameLimit = .ok (some (frame, rest)) ∧
      m.proceed next = { m with assembler := ⟨rest⟩, loop := .ready }.receive frame) ∨
    (m.front? = none ∧ m.Accounts size [] [] (m.proceed next)) := by
  unfold proceed front? Assembler.take
  rcases hcut : Frame.cut m.assembler.buffer m.settings.frameLimit with fault | _ | ⟨frame, rest⟩
  · exact Or.inr ⟨rfl, accounts_stop ..⟩
  · exact Or.inr ⟨rfl, .of_eq rfl rfl rfl rfl⟩
  · exact Or.inl ⟨frame, rest, rfl, rfl, rfl⟩

/-- A turn applies the upcoming frame, and counts nothing if there is none. -/
theorem turn_cases (h : m.turn = some m') :
    (∃ frame rest, m.upcoming? = some frame ∧
      Frame.cut m.assembler.buffer m.settings.frameLimit = .ok (some (frame, rest)) ∧
      m' = { m with assembler := ⟨rest⟩, loop := .ready }.receive frame) ∨
    (m.upcoming? = none ∧ m.Accounts size [] [] m') := by
  unfold turn at h
  unfold upcoming?
  split at h
  · cases h
  · rename_i hloop
    rw [hloop]
    cases h
    by_cases hclosed : m.isClosed = true
    · simp only [if_pos hclosed]
      exact Or.inr ⟨trivial, accounts_stop ..⟩
    · simp only [if_neg hclosed]
      exact proceed_cases ..
  · rename_i hloop
    rw [hloop]
    rcases m.poll_cases with
      hnone | ⟨conditions, -, heq | ⟨fault, heq⟩⟩ | ⟨link, chunk, -, heq⟩
    · split at h
      · cases h
      all_goals simp_all
    · rw [heq] at h
      cases h
      exact Or.inr ⟨rfl, .of_eq rfl rfl rfl rfl⟩
    · rw [heq] at h
      cases h
      have hquiet : m.Accounts size [] [] { m with conditions } := .of_eq rfl rfl rfl rfl
      exact Or.inr ⟨rfl, hquiet.trans_nil (accounts_stop ..)⟩
    · rw [heq] at h
      cases h
      exact Or.inr ⟨rfl, .of_eq rfl rfl rfl rfl⟩
  · rename_i hloop
    rw [hloop]
    cases h
    exact proceed_cases ..

theorem upcoming?_of_turn_eq_none (h : m.turn = none) : m.upcoming? = none := by
  unfold turn at h
  unfold upcoming?
  cases hloop : m.loop with
  | ready => simp [hloop] at h
  | waiting => rfl
  | fed => simp [hloop] at h
  | ended => rfl

/-- The outcomes of a turn that applies no frame. -/
inductive Quiet (m : Mux) : Mux → Prop where
  /-- Only the loop moves on.  It waits only while the frame in front is not all there. -/
  | idle {loop : LoopState} {conditions : Conditions}
      (short : loop = .waiting →
        Frame.cut m.assembler.buffer m.settings.frameLimit = .ok none) :
      Quiet m { m with loop, conditions }
  | fed {link : Link} {chunk : Bytes} (waiting : m.loop = .waiting)
      (read : m.link.read m.side m.settings.readSize = (link, .ok (some chunk))) :
      Quiet m { m with link, assembler := m.assembler.feed chunk, loop := .fed }
  | stopped (conditions : Conditions) (fault : Option Fault)
      (gone : fault = none → m.isClosed = true) : Quiet m ({ m with conditions }.stop fault)

theorem quiet_proceed (hnone : m.front? = none) (next : LoopState) : m.Quiet (m.proceed next) := by
  unfold front? at hnone
  unfold proceed Assembler.take
  rcases hcut : Frame.cut m.assembler.buffer m.settings.frameLimit with fault | _ | ⟨frame, rest⟩
  · exact .stopped m.conditions _ (by simp)
  · exact .idle fun _ => hcut
  · rw [hcut] at hnone
    cases hnone

theorem quiet_turn (h : m.turn = some m') (hnone : m.upcoming? = none) : m.Quiet m' := by
  unfold turn at h
  unfold upcoming? at hnone
  split at h
  · cases h
  · rename_i hloop
    simp only [hloop] at hnone
    cases h
    split
    · rename_i hclosed
      exact .stopped m.conditions none fun _ => hclosed
    · rename_i hclosed
      rw [if_neg hclosed] at hnone
      exact quiet_proceed hnone _
  · rename_i hloop
    rcases m.poll_cases with
      hpoll | ⟨conditions, -, heq | ⟨fault, heq⟩⟩ | ⟨link, chunk, hread, heq⟩
    · split at h
      · cases h
      all_goals simp_all
    · rw [heq] at h
      cases h
      exact .idle (by simp)
    · rw [heq] at h
      cases h
      exact .stopped conditions _ (by simp)
    · rw [heq] at h
      cases h
      exact .fed hloop hread
  · rename_i hloop
    simp only [hloop] at hnone
    cases h
    exact quiet_proceed hnone _

theorem accounts_turn (h : m.turn = some m') :
    ∃ out, m.Accounts 0 m.upcoming?.toList out m' := by
  rcases turn_cases h with ⟨frame, rest, hupcoming, -, rfl⟩ | ⟨hnone, hquiet⟩
  · rw [hupcoming]
    have htaken : m.Accounts 0 [] [] { m with assembler := ⟨rest⟩, loop := .ready } :=
      .of_eq rfl rfl rfl rfl
    obtain ⟨out, hreceive⟩ :=
      accounts_receive { m with assembler := ⟨rest⟩, loop := .ready } frame
    exact ⟨out, htaken.nil_trans hreceive⟩
  · rw [hnone]
    exact ⟨[], hquiet⟩

end StreamMux.Mux
