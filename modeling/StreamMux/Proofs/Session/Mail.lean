import StreamMux.Proofs.Session.Census

/-!
# What is sent and what arrives

`Ledger.Mail` relates the history of a session to its streams.  What was sent for a stream is what
was written through its handle; what was read through a handle, followed by what still waits, is a
prefix of what came in for the stream, and all of it unless this side ended the stream.

The lemmas say that everything a session does keeps this, one lemma for each thing.
-/

namespace StreamMux.Ledger

variable {l l' : Ledger} {h : History}

/-- Why a stream with a handle takes nothing in any more, apart from the peer. -/
def Shut (l : Ledger) (h : History) (q i : Nat) : Prop :=
  (l.stream i).isOver = true ∧
    (l.tornDown = true ∨ h.ended q ∨ (l.stream i).id ∈ l.overflows)

/-- What was read and what waits came in, in this order; unless the stream was shut here, that is
all that came in. -/
def Arrives (l : Ledger) (h : History) (q i : Nat) : Prop :=
  h.took q ++ (l.stream i).queue <+: dataFor (l.stream i).id h.got ∧
    (h.took q ++ (l.stream i).queue = dataFor (l.stream i).id h.got ∨ l.Shut h q i)

/-- What was sent, what came in, and which streams it belongs to. -/
structure Mail (l : Ledger) (h : History) : Prop where
  sequenced : Sequenced l.side h.sent
  /-- Whatever was sent belongs to a stream with a handle. -/
  owner : ∀ frame ∈ h.sent, ∃ i ∈ l.serials, (l.stream i).id = frame.id
  /-- A stream whose end was sent is over. -/
  isOver : ∀ {id}, EndedBy h.sent id → ∃ i ∈ l.serials, (l.stream i).id = id ∧
    (l.stream i).isOver = true
  /-- A stream opened here was announced. -/
  opener : ∀ {i}, i ∈ l.serials → (l.stream i).role = .opener → Announced h.sent (l.stream i).id
  /-- Data came in for streams with handles only. -/
  heard : ∀ {id}, dataFor id h.got ≠ [] → l.tornDown = true ∨ ∃ i ∈ l.serials, (l.stream i).id = id
  wrote : ∀ {p i : Nat}, l.serials[p]? = some i →
    dataFor (l.stream i).id h.sent = (h.wrote p).filter (· ≠ [])
  arrived : ∀ {q i : Nat}, l.serials[q]? = some i → l.Arrives h q i
  /-- Nothing was written or read without a handle. -/
  beyond : ∀ {p}, l.serials.length ≤ p → h.wrote p = [] ∧ h.took p = []

theorem Shut.alike {h' : History} {q i : Nat} (hshut : l.Shut h q i) (a : l.Alike l')
    (hended : ∀ place, h.ended place → h'.ended place) : l'.Shut h' q i := by
  obtain ⟨hover, hwhy⟩ := hshut
  refine ⟨a.isOver i hover, ?_⟩
  rw [a.id]
  exact hwhy.imp a.torn (Or.imp (hended q) (a.overflows _))

namespace Mail

/-- Nothing about what was sent changes as long as the streams stay the same. -/
theorem alike {h' : History} (m : l.Mail h) (a : l.Alike l') (hsent : h'.sent = h.sent)
    (hwrote : h'.wrote = h.wrote) (htook : ∀ {p}, l.serials.length ≤ p → h'.took p = h.took p)
    (hheard : ∀ {id}, dataFor id h'.got ≠ [] → dataFor id h.got ≠ [] ∨ l.tornDown = true ∨
      ∃ i ∈ l.serials, (l.stream i).id = id)
    (harrived : ∀ {q i : Nat}, l.serials[q]? = some i → l.Arrives h q i → l'.Arrives h' q i) :
    l'.Mail h' where
  sequenced := by
    rw [a.side, hsent]
    exact m.sequenced
  owner frame hmem := by
    obtain ⟨i, hi, hid⟩ := m.owner frame (hsent ▸ hmem)
    exact ⟨i, a.serials ▸ hi, (a.id i).trans hid⟩
  isOver hended := by
    obtain ⟨i, hi, hid, hover⟩ := m.isOver (hsent ▸ hended)
    exact ⟨i, a.serials ▸ hi, (a.id i).trans hid, a.isOver i hover⟩
  opener {i} hi hrole := by
    rw [a.role] at hrole
    rw [a.id, hsent]
    exact m.opener (a.serials ▸ hi) hrole
  heard hdata := by
    rcases (hheard hdata).elim m.heard id with htorn | ⟨i, hi, hid⟩
    · exact Or.inl (a.torn htorn)
    · exact Or.inr ⟨i, a.serials ▸ hi, (a.id i).trans hid⟩
  wrote {p i} hp := by
    rw [a.id, hsent, hwrote]
    exact m.wrote (a.serials ▸ hp)
  arrived hq := by
    rw [a.serials] at hq
    exact harrived hq (m.arrived hq)
  beyond hp := by
    rw [a.serials] at hp
    rw [hwrote, htook hp]
    exact m.beyond hp

/-! ### Streams that end and leave -/

theorem of_queue_eq (m : l.Mail h) (a : l.Alike l')
    (hqueue : ∀ i, (l'.stream i).queue = (l.stream i).queue) : l'.Mail h := by
  refine m.alike a rfl rfl (fun _ => rfl) Or.inl ?_
  intro q i _ harrives
  unfold Arrives at harrives ⊢
  rw [hqueue, a.id]
  exact harrives.imp_right (Or.imp_right (·.alike a fun _ => id))

theorem finish (m : l.Mail h) (serial : Nat) (ending : Ending) : (l.finish serial ending).Mail h :=
  m.of_queue_eq (.finish l serial ending) fun i => by
    rcases l.stream_put serial { l.stream serial with ending := some ending } i with
      ⟨rfl, heq⟩ | heq <;> rw [Ledger.finish, heq]

theorem sweep (m : l.Mail h) (id : UInt64) : (l.sweep id).Mail h :=
  m.of_queue_eq (.sweep l id) fun i => by rw [stream_sweep]

theorem tear (m : l.Mail h) : l.tear.Mail h := m.of_queue_eq (.tear l) (queue_tear l)

theorem overflow (m : l.Mail h) (serial : Nat) : (l.overflow serial).Mail h :=
  m.of_queue_eq (.overflow l serial) fun _ => rfl

theorem drop (m : l.Mail h) {place : Nat} {handle : Handle}
    (hplace : l.handles[place]? = some handle) : (l.drop place handle).Mail h :=
  m.of_queue_eq (.drop hplace) fun i => by rw [stream_drop]

theorem ended (m : l.Mail h) (place : Nat) : l.Mail (h.finish place) :=
  { m with
    arrived := fun hq =>
      (m.arrived hq).imp_right (Or.imp_right (·.alike (.refl l) fun _ => Or.inr)) }

theorem of_old (m : l.Mail h) (hside : l'.side = l.side) (hserials : l'.serials = l.serials)
    (htorn : l'.tornDown = l.tornDown) (hoverflows : l'.overflows = l.overflows)
    (hold : ∀ {i}, i ∈ l.serials → l'.stream i = l.stream i) : l'.Mail h where
  sequenced := hside ▸ m.sequenced
  owner frame hmem := by
    obtain ⟨i, hi, hid⟩ := m.owner frame hmem
    exact ⟨i, hserials ▸ hi, by rw [hold hi, hid]⟩
  isOver hended := by
    obtain ⟨i, hi, hid, hover⟩ := m.isOver hended
    exact ⟨i, hserials ▸ hi, by rw [hold hi, hid], by rw [hold hi, hover]⟩
  opener {i} hi hrole := by
    rw [hserials] at hi
    rw [hold hi] at hrole ⊢
    exact m.opener hi hrole
  heard hdata := by
    rcases m.heard hdata with ht | ⟨i, hi, hid⟩
    · exact Or.inl (htorn ▸ ht)
    · exact Or.inr ⟨i, hserials ▸ hi, by rw [hold hi, hid]⟩
  wrote {p i} hp := by
    rw [hserials] at hp
    rw [hold (List.mem_of_getElem? hp)]
    exact m.wrote hp
  arrived {q i} hq := by
    rw [hserials] at hq
    unfold Arrives Shut
    rw [hold (List.mem_of_getElem? hq), htorn, hoverflows]
    exact m.arrived hq
  beyond hp := m.beyond (hserials ▸ hp)

/-! ### Sending -/

theorem emit (m : l.Mail h) {frame : Frame} (hfollows : Follows l.side h.sent frame)
    (howner : ∃ i ∈ l.serials, (l.stream i).id = frame.id)
    (hover : ∀ {id}, frame.Ends id → ∃ i ∈ l.serials, (l.stream i).id = id ∧
      (l.stream i).isOver = true)
    (hdata : ∀ id, frame.data? id = none) : l.Mail (h.emit [frame]) :=
  { m with
    sequenced := m.sequenced.concat hfollows
    owner := fun other hmem => by
      rcases List.mem_append.mp hmem with hmem | hmem
      · exact m.owner other hmem
      · rw [List.mem_singleton.mp hmem]
        exact howner
    isOver := fun hended => (endedBy_concat.mp hended).elim m.isOver hover
    opener := fun hi hrole => announced_append.mpr (Or.inl (m.opener hi hrole))
    wrote := fun hp => (dataFor_concat_of_none (hdata _)).trans (m.wrote hp) }

theorem written (m : l.Mail h) (c : l.Census h) {place serial : Nat}
    (hplace : l.serials[place]? = some serial) {data : Bytes}
    (hfollows : Follows l.side h.sent ((l.stream serial).parcel data)) :
    l.Mail ((h.emit [(l.stream serial).parcel data]).write place data) := by
  have hmessage := (l.stream serial).isMessage_parcel data
  have hmem := List.mem_of_getElem? hplace
  refine { m with
    sequenced := m.sequenced.concat hfollows
    owner := ?_
    isOver := ?_
    opener := fun hi hrole => announced_append.mpr (Or.inl (m.opener hi hrole))
    wrote := ?_
    beyond := ?_ }
  · intro other hother
    rcases List.mem_append.mp hother with hother | hother
    · exact m.owner other hother
    · rw [List.mem_singleton.mp hother]
      exact ⟨serial, hmem, rfl⟩
  · intro id hended
    rcases endedBy_concat.mp hended with hbefore | hends
    · exact m.isOver hbefore
    · rw [hends.not_message] at hmessage
      cases hmessage
  · -- through another handle nothing was written, since no two share a number
    intro p i hp
    change dataFor (l.stream i).id (h.sent ++ [(l.stream serial).parcel data]) =
      (Function.update h.wrote place (h.wrote place ++ [data]) p).filter (· ≠ [])
    by_cases hsame : p = place
    · subst hsame
      cases hp.symm.trans hplace
      rw [Function.update_self, List.filter_append, ← m.wrote hp]
      by_cases hdata : data = []
      · rw [dataFor_concat_of_none (by simp [Frame.data?, Stream.parcel, Frame.ofKind, hdata])]
        simp [hdata]
      · rw [dataFor_concat_of_some ((l.stream serial).data?_parcel hdata)]
        simp [hdata]
    · rw [Function.update_of_ne hsame, ← m.wrote hp]
      apply dataFor_concat_of_none
      by_contra hdata
      exact hsame (c.distinct hp hplace (Frame.data?_of_ne_none hdata).1.symm)
  · intro p hp
    refine ⟨?_, (m.beyond hp).2⟩
    have hne : p ≠ place := by
      have hlt := (List.getElem?_eq_some_iff.mp hplace).1
      omega
    exact (Function.update_of_ne hne _ _).trans (m.beyond hp).1

/-! ### Receiving and reading -/

theorem get (m : l.Mail h) {frame : Frame}
    (hheard : frame.data? frame.id ≠ none →
      l.tornDown = true ∨ ∃ i ∈ l.serials, (l.stream i).id = frame.id)
    (hshut : ∀ {q i : Nat}, l.serials[q]? = some i → frame.data? (l.stream i).id ≠ none →
      l.Shut h q i) : l.Mail (h.get frame) := by
  refine m.alike (.refl l) rfl rfl (fun _ => rfl) ?_ ?_
  · intro id hdata
    by_cases hframe : frame.data? id = none
    · rw [History.get, dataFor_concat_of_none hframe] at hdata
      exact Or.inl hdata
    · obtain rfl := (Frame.data?_of_ne_none hframe).1
      exact Or.inr (hheard hframe)
  · intro q i hq harrives
    unfold Arrives at harrives ⊢
    by_cases hframe : frame.data? (l.stream i).id = none
    · rw [History.get, dataFor_concat_of_none hframe]
      exact harrives
    · rw [History.get, dataFor_append]
      exact ⟨harrives.1.trans (List.prefix_append _ _), Or.inr (hshut hq hframe)⟩

theorem deliver (m : l.Mail h) {frame : Frame} {serial : Nat}
    (hlive : (l.stream serial).isOver = false) (hid : (l.stream serial).id = frame.id)
    (hdata : frame.data? frame.id = some frame.payload)
    (hheard : l.tornDown = true ∨ ∃ i ∈ l.serials, (l.stream i).id = frame.id)
    (hshut : ∀ {q i : Nat}, l.serials[q]? = some i → i ≠ serial → (l.stream i).id = frame.id →
      l.Shut h q i) : (l.push serial frame.payload).Mail (h.get frame) := by
  have halike : l.Alike (l.push serial frame.payload) := .put rfl rfl rfl fun h => h
  refine m.alike halike rfl rfl (fun _ => rfl) ?_ ?_
  · intro id hsome
    by_cases hframe : frame.data? id = none
    · rw [History.get, dataFor_concat_of_none hframe] at hsome
      exact Or.inl hsome
    · obtain rfl := (Frame.data?_of_ne_none hframe).1
      exact Or.inr hheard
  · intro q i hq harrives
    by_cases hsame : i = serial
    · subst hsame
      have hself : (l.push i frame.payload).stream i =
          { l.stream i with queue := (l.stream i).queue ++ [frame.payload] } :=
        stream_put_self (Registry.lt_of_not_isOver hlive)
      -- the stream is open, so that nothing for it was lost so far
      have hall : h.took q ++ (l.stream i).queue = dataFor (l.stream i).id h.got := by
        apply harrives.2.resolve_right
        intro hshut
        have hover := hshut.1
        rw [hlive] at hover
        cases hover
      have heq : h.took q ++ ((l.stream i).queue ++ [frame.payload]) =
          dataFor (l.stream i).id (h.got ++ [frame]) := by
        rw [dataFor_concat_of_some (hid ▸ hdata), ← hall, List.append_assoc]
      unfold Arrives
      rw [hself]
      exact ⟨heq ▸ List.prefix_refl _, Or.inl heq⟩
    · have hother : (l.push serial frame.payload).stream i = l.stream i := stream_put_of_ne hsame
      unfold Arrives at harrives ⊢
      rw [hother]
      by_cases hframe : frame.data? (l.stream i).id = none
      · rw [History.get, dataFor_concat_of_none hframe]
        exact harrives.imp_right (Or.imp_right (·.alike halike fun _ => id))
      · rw [History.get, dataFor_append]
        -- another stream of the number was shut before, and misses what comes now
        have hover := hshut hq hsame (Frame.data?_of_ne_none hframe).1.symm
        exact ⟨harrives.1.trans (List.prefix_append _ _),
          Or.inr (hover.alike halike fun _ => id)⟩

theorem take (m : l.Mail h) (c : l.Census h) {place serial : Nat} {chunk : Bytes}
    {queue : List Bytes} (hplace : l.serials[place]? = some serial)
    (hfront : (l.stream serial).queue = chunk :: queue) :
    (l.pop serial queue).Mail (h.take place chunk) := by
  have halike : l.Alike (l.pop serial queue) := .put rfl rfl rfl fun h => h
  have hlt := (List.getElem?_eq_some_iff.mp hplace).1
  refine m.alike halike rfl rfl (fun {p} hp => Function.update_of_ne (by omega) _ _) Or.inl ?_
  intro q i hq harrives
  have htook : ∀ other, other ≠ place → (h.take place chunk).took other = h.took other :=
    fun other hne => Function.update_of_ne hne _ _
  unfold Arrives at harrives ⊢
  rw [halike.id]
  by_cases hsame : q = place
  · subst hsame
    obtain rfl : i = serial := Option.some.inj (hq.symm.trans hplace)
    have hself : (l.pop i queue).stream i = { l.stream i with queue } :=
      stream_put_self (c.lt_of_mem (List.mem_of_getElem? hq))
    have heq : (h.take q chunk).took q ++ ((l.pop i queue).stream i).queue =
        h.took q ++ (l.stream i).queue := by
      rw [hself, hfront]
      change Function.update h.took q (h.took q ++ [chunk]) q ++ queue = _
      rw [Function.update_self, List.append_assoc, List.singleton_append]
    rw [heq]
    exact harrives.imp_right (Or.imp_right (·.alike halike fun _ => id))
  · have hother : (l.pop serial queue).stream i = l.stream i := by
      apply stream_put_of_ne
      rintro rfl
      exact hsame (c.distinct hq hplace rfl)
    rw [hother, htook q hsame]
    exact harrives.imp_right (Or.imp_right (·.alike halike fun _ => id))

/-! ### Streams that begin -/

theorem enroll {h' : History} {id : UInt64} (m : l.Mail h) (c : l.Census h) (e : l.Enrolls id l')
    (up : l.tornDown = false) (hsequenced : Sequenced l.side h'.sent)
    (hsent : ∀ frame ∈ h'.sent, frame ∈ h.sent ∨ frame.id = id)
    (hended : ∀ {other}, EndedBy h'.sent other → EndedBy h.sent other)
    (hannounced : ∀ {other}, Announced h.sent other → Announced h'.sent other)
    (hopener : (l'.stream l.size).role = .opener → Announced h'.sent id)
    (hout : ∀ other, dataFor other h'.sent = dataFor other h.sent)
    (hin : ∀ other, dataFor other h'.got = dataFor other h.got)
    (hwrote : h'.wrote = h.wrote) (htook : h'.took = h.took)
    (hends : h'.ended = h.ended) : l'.Mail h' := by
  have hmem : ∀ {i}, i ∈ l.serials → i ∈ l'.serials ∧ l'.stream i = l.stream i := by
    intro i hi
    have hlt := c.lt_of_mem hi
    exact ⟨(e.mem_iff hlt).mpr hi, e.old hlt⟩
  -- nothing was ever sent or heard under the number of the new stream
  have hsilent : dataFor id h.sent = [] := by
    apply dataFor_eq_nil
    intro frame hframe heq
    obtain ⟨i, hi, hid⟩ := m.owner frame hframe
    exact e.fresh (c.lt_of_mem hi) (hid.trans heq)
  have hquiet : dataFor id h.got = [] := by
    by_contra hdata
    rcases m.heard hdata with ht | ⟨i, hi, hid⟩
    · rw [up] at ht
      cases ht
    · exact e.fresh (c.lt_of_mem hi) hid
  refine ⟨e.side ▸ hsequenced, ?_, ?_, ?_, ?_, ?_, ?_, ?_⟩
  · -- owner
    intro frame hframe
    rcases hsent frame hframe with hframe | heq
    · obtain ⟨i, hi, heq⟩ := m.owner frame hframe
      exact ⟨i, (hmem hi).1, by rw [(hmem hi).2, heq]⟩
    · exact ⟨l.size, e.mem_self, e.number.trans heq.symm⟩
  · -- isOver
    intro other hother
    obtain ⟨i, hi, heq, hover⟩ := m.isOver (hended hother)
    exact ⟨i, (hmem hi).1, by rw [(hmem hi).2, heq], by rw [(hmem hi).2, hover]⟩
  · -- opener
    intro i hi hrole
    rcases e.cases_of_mem hi with rfl | hi
    · rw [e.number]
      exact hopener hrole
    · rw [(hmem hi).2] at hrole ⊢
      exact hannounced (m.opener hi hrole)
  · -- heard
    intro other hdata
    rw [hin] at hdata
    rcases m.heard hdata with ht | ⟨i, hi, heq⟩
    · exact Or.inl (e.torn ▸ ht)
    · exact Or.inr ⟨i, (hmem hi).1, by rw [(hmem hi).2, heq]⟩
  · -- wrote
    intro p i hp
    rw [hout, hwrote]
    rcases e.cases_of_getElem? c.toSound hp with ⟨rfl, rfl⟩ | ⟨hp, hlt⟩
    · rw [e.number, hsilent, (m.beyond (Nat.le_refl _)).1]
      rfl
    · rw [e.old hlt]
      exact m.wrote hp
  · -- arrived
    intro q i hq
    unfold Arrives Shut
    rw [hin, htook, hends, e.torn, e.overflows]
    rcases e.cases_of_getElem? c.toSound hq with ⟨rfl, rfl⟩ | ⟨hq, hlt⟩
    · rw [e.number, hquiet, e.drained, (m.beyond (Nat.le_refl _)).2]
      exact ⟨List.prefix_refl _, Or.inl rfl⟩
    · rw [e.old hlt]
      exact m.arrived hq
  · -- beyond
    intro p hp
    rw [e.serials, List.length_append] at hp
    rw [hwrote, htook]
    exact m.beyond (by omega)

theorem opened (m : l.Mail h) (c : l.Census h) {id : UInt64} {ids : Ids} (up : l.tornDown = false)
    (draw : l.ids.draw = .ok (id, ids)) (label : Option String) :
    ((l.register id ids).hold l.size label).Mail (h.emit [.ofKind id .newStream []]) := by
  have hannounces : (Frame.ofKind id .newStream []).Announces id := ⟨rfl, Frame.kind?_ofKind ..⟩
  have hown : l.side.owns id = true := by
    rw [← c.toSound.owns_eq, owns_iff, (draw_eq draw).1]
  have hfits : (Frame.ofKind id .newStream []).Fits :=
    ⟨(draw_eq draw).2.1, Frame.flag_le_of_kind _, by simp [Frame.ofKind]⟩
  have hsequenced : Sequenced l.side (h.sent ++ [.ofKind id .newStream []]) := by
    refine m.sequenced.concat ⟨hfits, fun _ => ⟨hown, ?_, rfl⟩, ?_, ?_⟩
    · rintro ⟨frame, hmem, heq, -⟩
      obtain ⟨i, hi, hid⟩ := m.owner frame hmem
      exact c.id_ne_of_draw draw (c.lt_of_mem hi) (hid.trans heq)
    · intro hkind
      exact absurd hannounces.2 hkind
    · intro hmessage
      rw [Frame.isMessage_eq hannounces.2] at hmessage
      cases hmessage
  refine m.enroll c (.opened c.toSound draw label) up hsequenced ?_ ?_ ?_ ?_ ?_
    (fun _ => rfl) rfl rfl rfl
  · intro frame hframe
    exact (List.mem_append.mp hframe).imp_right fun hnew => by rw [List.mem_singleton.mp hnew]; rfl
  · intro other hended
    exact (endedBy_concat.mp hended).resolve_right (hannounces.not_ends _)
  · intro other hannounced
    exact announced_append.mpr (Or.inl hannounced)
  · intro _
    exact announced_concat.mpr (Or.inr hannounces)
  · intro other
    exact dataFor_concat_of_none (by simp [Frame.data?, Frame.ofKind])

/-- A stream is taken up, and the connection goes away at once. -/
theorem openTorn (m : l.Mail h) (c : l.Census h) {id : UInt64} {ids : Ids} :
    (l.register id ids).tear.Mail h := by
  suffices hregister : (l.register id ids).Mail h from hregister.tear
  have hold : ∀ {i}, i ∈ l.serials → (l.register id ids).stream i = l.stream i :=
    fun hi => stream_register_of_lt (c.lt_of_mem hi)
  exact m.of_old rfl rfl rfl rfl hold

theorem welcome (m : l.Mail h) (c : l.Census h) (id : UInt64) : (l.welcome id).Mail h := by
  have hold : ∀ {i}, i ∈ l.serials → (l.welcome id).stream i = l.stream i :=
    fun hi => stream_welcome_of_lt (c.lt_of_mem hi)
  exact m.of_old rfl rfl rfl rfl hold

theorem began (m : l.Mail h) (c : l.Census h) {frame : Frame} (empty : frame.payload = [])
    (up : l.tornDown = false) (foreign : l.ids.owns frame.id = false)
    (hfirst : ¬ Announced h.got frame.id) :
    ((l.welcome frame.id).accept frame.id l.size).Mail (h.get frame) := by
  have hself : ((l.welcome frame.id).accept frame.id l.size).stream l.size =
      Stream.start frame.id .acceptor l.settings.queueLimit := stream_welcome_self l frame.id
  refine m.enroll c (.began (c.id_ne_of_not_announced foreign hfirst)) up m.sequenced
    (fun _ => Or.inl) id id ?_ (fun _ => rfl) ?_ rfl rfl rfl
  · intro hrole
    rw [hself] at hrole
    cases hrole
  · intro other
    exact dataFor_concat_of_none (by simp [Frame.data?, empty])

theorem fits (m : l.Mail h) {frame : Frame} (hmem : frame ∈ h.sent) : frame.Fits := by
  obtain ⟨before, after, heq⟩ := List.append_of_mem hmem
  exact (m.sequenced before frame after heq).fits

end Mail

theorem mail_start (side : Side) (settings : Settings) :
    Mail { side, settings, ids := Ids.ofSide side, registry := {}, handles := [],
           tornDown := false, overflows := [] } {} where
  sequenced := .nil
  owner _ hmem := by cases hmem
  isOver hended := by
    obtain ⟨frame, hmem, -⟩ := hended
    cases hmem
  opener hi := by cases hi
  heard hdata := absurd rfl hdata
  wrote hp := by cases hp
  arrived hq := by cases hq
  beyond _ := ⟨rfl, rfl⟩

end StreamMux.Ledger
