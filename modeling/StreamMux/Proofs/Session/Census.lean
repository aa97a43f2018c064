import StreamMux.Proofs.Session.Alike
import StreamMux.Proofs.Session.History

/-!
# How many streams share a number

`Ledger.Census` counts the streams of each number at one side of a connection whose peer keeps to
the order that `Follows` describes.  At most one stream of a number gets a handle.  A stream beside
it never gets one: it is a *late* stream, begun by data that the peer had sent before it learned
that this side had ended the stream with the handle.

The lemmas say that everything a session does keeps the census, one lemma for each thing.
-/

namespace StreamMux.Ledger

variable {l l' : Ledger} {h : History}

/-! ### The census -/

/-- Why a stream without a handle is not gone. -/
def Lingers (l : Ledger) (h : History) (i : Nat) : Prop :=
  l.tornDown = true ∨ (l.stream i).isOver = false ∨ EndedBy h.got (l.stream i).id ∨
    (l.find? (l.stream i).id = some i ∧ (l.stream i).queue ≠ [])

/-- Why the stream with a handle is over. -/
def Caused (l : Ledger) (h : History) (q i : Nat) : Prop :=
  l.tornDown = true ∨ h.ended q ∨ (l.stream i).id ∈ l.overflows ∨ EndedBy h.got (l.stream i).id

/-- How many streams share a number, and why. -/
structure Census (l : Ledger) (h : History) : Prop extends l.Sound where
  roomy : ∀ {i}, i < l.size → 0 < (l.stream i).capacity
  /-- Streams with handles have different numbers. -/
  distinct : ∀ {p q i j : Nat}, l.serials[p]? = some i → l.serials[q]? = some j →
    (l.stream i).id = (l.stream j).id → p = q
  /-- A stream of the peer gets its handle when it is announced. -/
  accepted : ∀ {i}, i ∈ l.serials → (l.stream i).role = .acceptor →
    Announced h.got (l.stream i).id
  welcomed : ∀ {id}, Announced h.got id →
    l.tornDown = true ∨ ∃ i ∈ l.serials, (l.stream i).id = id
  /-- Before a late stream there was one with a handle, which this side ended. -/
  late : ∀ {i}, i < l.size → (l.stream i).role = .acceptor → i ∉ l.serials →
    ∃ q k, l.serials[q]? = some k ∧ k < i ∧ (l.stream k).id = (l.stream i).id ∧
      (l.stream k).isOver = true ∧ (h.ended q ∨ (l.stream i).id ∈ l.overflows)
  /-- Only the last stream of a number may be late. -/
  single : ∀ {i j}, i < j → j < l.size → (l.stream i).id = (l.stream j).id → i ∈ l.serials
  lingering : ∀ {i}, i < l.size → i ∉ l.serials → l.Lingers h i
  cause : ∀ {q i : Nat}, l.serials[q]? = some i → (l.stream i).isOver = true → l.Caused h q i

theorem Caused.alike {h' : History} {q i : Nat} (hcaused : l.Caused h q i) (a : l.Alike l')
    (g : h.Grows h') : l'.Caused h' q i := by
  unfold Caused at hcaused ⊢
  rw [a.id]
  rcases hcaused with htorn | hended | hover | hpeer
  · exact Or.inl (a.torn htorn)
  · exact Or.inr (Or.inl (g.ended q hended))
  · exact Or.inr (Or.inr (Or.inl (a.overflows _ hover)))
  · exact Or.inr (Or.inr (Or.inr (g.endedBy hpeer)))

namespace Census

theorem lt_of_mem (c : l.Census h) {i : Nat} (hmem : i ∈ l.serials) : i < l.size :=
  lt_of_mem_serials c.toSound hmem

/-- A stream with a handle is no longer current when another of its number is. -/
theorem isOver_of_find?_ne (c : l.Census h) {i : Nat} (hmem : i ∈ l.serials)
    (hne : l.find? (l.stream i).id ≠ some i) : (l.stream i).isOver = true :=
  c.gone (c.lt_of_mem hmem) hne

/-- Nothing about handles and numbers changes as long as the streams stay the same. -/
theorem alike {h' : History} (c : l.Census h) (a : l.Alike l') (g : h.Grows h') (sound : l'.Sound)
    (hnew : ∀ {id}, Announced h'.got id → Announced h.got id ∨ l'.tornDown = true)
    (hlingers : ∀ {i}, i < l.size → i ∉ l.serials → l'.Lingers h' i)
    (hcause : ∀ {q i : Nat}, l.serials[q]? = some i → (l'.stream i).isOver = true →
      (l.stream i).isOver = false → l'.Caused h' q i) : l'.Census h' where
  toSound := sound
  roomy hlt := by
    rw [a.capacity]
    exact c.roomy (a.size ▸ hlt)
  distinct hp hq heq := by
    rw [a.id, a.id] at heq
    exact c.distinct (a.serials ▸ hp) (a.serials ▸ hq) heq
  accepted hmem hrole := by
    rw [a.role] at hrole
    rw [a.id]
    exact g.announced (c.accepted (a.serials ▸ hmem) hrole)
  welcomed {id} hannounced := by
    rcases hnew hannounced with hold | htorn
    · rcases c.welcomed hold with htorn | ⟨i, hmem, hid⟩
      · exact Or.inl (a.torn htorn)
      · exact Or.inr ⟨i, a.serials ▸ hmem, (a.id i).trans hid⟩
    · exact Or.inl htorn
  late {i} hlt hrole hmem := by
    rw [a.role] at hrole
    obtain ⟨q, k, hq, hki, hid, hover, hwhy⟩ :=
      c.late (a.size ▸ hlt) hrole (a.serials ▸ hmem)
    refine ⟨q, k, a.serials ▸ hq, hki, ?_, a.isOver k hover, ?_⟩
    · rw [a.id, a.id, hid]
    · rw [a.id]
      exact hwhy.imp (g.ended q) (a.overflows _)
  single {i j} hij hlt heq := by
    rw [a.id, a.id] at heq
    rw [a.serials]
    exact c.single hij (a.size ▸ hlt) heq
  lingering hlt hmem := hlingers (a.size ▸ hlt) (a.serials ▸ hmem)
  cause {q i} hq hover := by
    rw [a.serials] at hq
    by_cases hbefore : (l.stream i).isOver = true
    · exact (c.cause hq hbefore).alike a g
    · exact hcause hq hover (by simpa using hbefore)

/-! #### Streams that end and leave -/

theorem get (c : l.Census h) {frame : Frame}
    (hnew : frame.kind? = some .newStream → l.tornDown = true) : l.Census (h.get frame) := by
  refine c.alike (.refl l) (.get h frame) c.toSound ?_ ?_ ?_
  · intro id hannounced
    rcases announced_concat.mp hannounced with hold | hframe
    · exact Or.inl hold
    · exact Or.inr (hnew hframe.2)
  · intro i hlt hmem
    rcases c.lingering hlt hmem with htorn | hlive | hended | hcurrent
    · exact Or.inl htorn
    · exact Or.inr (Or.inl hlive)
    · exact Or.inr (Or.inr (Or.inl ((History.Grows.get h frame).endedBy hended)))
    · exact Or.inr (Or.inr (Or.inr hcurrent))
  · intro q i _ hover hlive
    rw [hlive] at hover
    cases hover

/-- The census does not look at what was sent, written and read. -/
theorem of_same {h' : History} (c : l.Census h) (hgot : h'.got = h.got)
    (hended : ∀ place, h.ended place → h'.ended place) : l.Census h' := by
  have hgrows : h.Grows h' := ⟨fun frame hmem => hgot ▸ hmem, hended⟩
  refine c.alike (.refl l) hgrows c.toSound (fun hannounced => Or.inl (hgot ▸ hannounced)) ?_ ?_
  · intro i hlt hmem
    have hlingers := c.lingering hlt hmem
    unfold Lingers at hlingers ⊢
    rwa [hgot]
  · intro q i _ hover hlive
    rw [hlive] at hover
    cases hover

theorem tear (c : l.Census h) : l.tear.Census h :=
  c.alike (.tear l) (.refl h) c.toSound.tear Or.inl (fun _ _ => Or.inl rfl)
    (fun _ _ _ => Or.inl rfl)

theorem put_queue (c : l.Census h) {serial : Nat} {queue : List Bytes}
    (hserial : serial ∈ l.serials ∨ (l.stream serial).isOver = false) :
    (l.put serial { l.stream serial with queue }).Census h := by
  refine c.alike (.put rfl rfl rfl fun h => h) (.refl h) (c.toSound.put rfl rfl fun h => h)
    Or.inl ?_ ?_
  · intro i hlt hmem
    rcases l.stream_put serial { l.stream serial with queue } i with ⟨rfl, heq⟩ | heq
    · rcases hserial with hheld | hlive
      · exact absurd hheld hmem
      · unfold Lingers
        rw [heq]
        exact Or.inr (Or.inl hlive)
    · have hlingers := c.lingering hlt hmem
      unfold Lingers at hlingers ⊢
      rw [heq]
      exact hlingers
  · intro q i _ hover hlive
    rcases l.stream_put serial { l.stream serial with queue } i with ⟨rfl, heq⟩ | heq
    · rw [heq, Stream.isOver_queue, hlive] at hover
      cases hover
    · rw [heq, hlive] at hover
      cases hover

theorem find?_sweep_of_queue {id other : UInt64} {serial : Nat}
    (hfind : l.find? other = some serial) (hqueue : (l.stream serial).queue ≠ []) :
    (l.sweep id).find? other = some serial := by
  rcases l.registry.sweep_eq id with ⟨heq, swept, hswept, -, hdrained⟩ | ⟨heq, -⟩
  · have hne : other ≠ id := by
      rintro rfl
      cases hfind.symm.trans hswept
      exact hqueue hdrained
    simp only [Ledger.sweep, find?, heq, Registry.find?_remove, if_neg hne]
    exact hfind
  · simpa only [Ledger.sweep, find?, heq] using hfind

theorem sweep (c : l.Census h) (id : UInt64) : (l.sweep id).Census h := by
  refine c.alike (.sweep l id) (.refl h) (c.toSound.sweep id) Or.inl ?_ ?_
  · intro i hlt hmem
    have hlingers := c.lingering hlt hmem
    unfold Lingers at hlingers ⊢
    rw [stream_sweep]
    refine hlingers.imp_right (Or.imp_right (Or.imp_right ?_))
    intro hcurrent
    exact ⟨find?_sweep_of_queue hcurrent.1 hcurrent.2, hcurrent.2⟩
  · intro q i _ hover hlive
    rw [stream_sweep, hlive] at hover
    cases hover

theorem overflow (c : l.Census h) (serial : Nat) : (l.overflow serial).Census h := by
  refine c.alike (.overflow l serial) (.refl h) { c.toSound with } Or.inl ?_ ?_
  · exact fun hlt hmem => c.lingering hlt hmem
  · intro q i _ hover hlive
    rw [show ((l.overflow serial).stream i).isOver = false from hlive] at hover
    cases hover

/-- A stream ends, for a reason.  Without a handle it is ended by the peer, or has something to
read. -/
theorem finish (c : l.Census h) {serial : Nat} (ending : Ending)
    (hlive : (l.stream serial).isOver = false)
    (hcause : ∀ q, l.serials[q]? = some serial → l.Caused h q serial)
    (hlate : serial ∈ l.serials ∨ EndedBy h.got (l.stream serial).id ∨
      (l.stream serial).queue ≠ []) : (l.finish serial ending).Census h := by
  have halike := Alike.finish l serial ending
  refine c.alike halike (.refl h) (c.toSound.finish serial ending) Or.inl ?_ ?_
  · intro i hlt hmem
    unfold Lingers
    rw [halike.id]
    rcases l.stream_put serial { l.stream serial with ending := some ending } i with
      ⟨rfl, heq⟩ | heq
    · rcases hlate with hheld | hpeer | hqueue
      · exact absurd hheld hmem
      · exact Or.inr (Or.inr (Or.inl hpeer))
      · refine Or.inr (Or.inr (Or.inr ⟨c.find?_of_live hlive, ?_⟩))
        rw [Ledger.finish, heq]
        exact hqueue
    · rw [Ledger.finish, heq]
      exact c.lingering hlt hmem
  · intro q i hq hover hbefore
    rcases l.stream_put serial { l.stream serial with ending := some ending } i with
      ⟨rfl, -⟩ | heq
    · exact (hcause q hq).alike halike (.refl h)
    · rw [Ledger.finish, heq, hbefore] at hover
      cases hover

theorem drop (c : l.Census h) {place : Nat} {handle : Handle}
    (hplace : l.handles[place]? = some handle) : (l.drop place handle).Census h := by
  refine c.alike (.drop hplace) (.refl h) (c.toSound.drop hplace) ?_ ?_ ?_
  · exact Or.inl
  · intro i hlt hmem
    have hlingers := c.lingering hlt hmem
    unfold Lingers at hlingers ⊢
    rw [stream_drop]
    refine Or.imp ?_ (Or.imp_right (Or.imp_right fun hcurrent => ⟨?_, hcurrent.2⟩)) hlingers
    · exact (Alike.drop hplace).torn
    · -- only the stream of the handle may leave, which is another one
      unfold Ledger.drop
      simp only
      split
      · rename_i hover
        rw [Bool.and_eq_true, beq_iff_eq] at hover
        have hne : (l.stream i).id ≠ (l.stream handle.serial).id := fun heq => by
          have hsame := hcurrent.1
          rw [heq, hover.2] at hsame
          cases hsame
          exact hmem (List.mem_of_getElem? (getElem?_serials hplace))
        simp only [find?, Registry.find?_remove, if_neg hne]
        exact hcurrent.1
      · exact hcurrent.1
  · intro q i _ hover hlive
    rw [stream_drop, hlive] at hover
    cases hover

/-! #### Streams that begin -/

theorem enroll {h' : History} {id : UInt64} (c : l.Census h) (e : l.Enrolls id l')
    (sound : l'.Sound) (g : h.Grows h')
    (hannounced : (l'.stream l.size).role = .acceptor → Announced h'.got id)
    (hnew : ∀ {other}, Announced h'.got other → Announced h.got other ∨ other = id) :
    l'.Census h' := by
  refine ⟨sound, ?_, ?_, ?_, ?_, ?_, ?_, ?_, ?_⟩
  · -- roomy
    intro i hlt
    rcases e.cases_of_lt hlt with rfl | hlt
    · exact e.roomy
    · rw [e.old hlt]
      exact c.roomy hlt
  · -- distinct
    intro p q i j hp hq heq
    rcases e.cases_of_getElem? c.toSound hp with ⟨rfl, rfl⟩ | ⟨hp, hi⟩ <;>
      rcases e.cases_of_getElem? c.toSound hq with ⟨rfl, rfl⟩ | ⟨hq, hj⟩
    · rfl
    · rw [e.number, e.old hj] at heq
      exact absurd heq.symm (e.fresh hj)
    · rw [e.number, e.old hi] at heq
      exact absurd heq (e.fresh hi)
    · rw [e.old hi, e.old hj] at heq
      exact c.distinct hp hq heq
  · -- accepted
    intro i hi hrole
    rcases e.cases_of_lt (lt_of_mem_serials sound hi) with rfl | hlt
    · rw [e.number]
      exact hannounced hrole
    · rw [e.old hlt] at hrole ⊢
      exact g.announced (c.accepted ((e.mem_iff hlt).mp hi) hrole)
  · -- welcomed
    intro other hother
    rcases hnew hother with hbefore | rfl
    · rcases c.welcomed hbefore with ht | ⟨i, hi, heq⟩
      · exact Or.inl (e.torn ▸ ht)
      · have hlt := c.lt_of_mem hi
        exact Or.inr ⟨i, (e.mem_iff hlt).mpr hi, by rw [e.old hlt, heq]⟩
    · exact Or.inr ⟨l.size, e.mem_self, e.number⟩
  · -- late
    intro i hlt hrole hi
    rcases e.cases_of_lt hlt with rfl | hlt
    · exact absurd e.mem_self hi
    · rw [e.old hlt] at hrole ⊢
      obtain ⟨q, k, hq, hki, heq, hover, hwhy⟩ :=
        c.late hlt hrole fun hheld => hi ((e.mem_iff hlt).mpr hheld)
      have hk := Nat.lt_trans hki hlt
      refine ⟨q, k, e.getElem?_old hq, hki, by rw [e.old hk, heq], by rw [e.old hk, hover], ?_⟩
      rw [e.overflows]
      exact hwhy.imp_left (g.ended q)
  · -- single
    intro i j hij hlt heq
    rcases e.cases_of_lt hlt with rfl | hlt
    · rw [e.old hij, e.number] at heq
      exact absurd heq (e.fresh hij)
    · have hi := Nat.lt_trans hij hlt
      rw [e.old hi, e.old hlt] at heq
      exact (e.mem_iff hi).mpr (c.single hij hlt heq)
  · -- lingering
    intro i hlt hi
    rcases e.cases_of_lt hlt with rfl | hlt
    · exact absurd e.mem_self hi
    · have hlingers := c.lingering hlt fun hheld => hi ((e.mem_iff hlt).mpr hheld)
      unfold Lingers at hlingers ⊢
      rw [e.torn, e.old hlt, e.find (e.fresh hlt)]
      exact hlingers.imp_right (Or.imp_right (Or.imp_left g.endedBy))
  · -- cause
    intro q i hq hover
    rcases e.cases_of_getElem? c.toSound hq with ⟨-, rfl⟩ | ⟨hq, hlt⟩
    · rw [e.live] at hover
      cases hover
    · rw [e.old hlt] at hover
      have hcaused := c.cause hq hover
      unfold Caused at hcaused ⊢
      rw [e.torn, e.overflows, e.old hlt]
      exact hcaused.imp_right (Or.imp (g.ended q) (Or.imp_right g.endedBy))

theorem opened (c : l.Census h) {id : UInt64} {ids : Ids} (up : l.tornDown = false)
    (draw : l.ids.draw = .ok (id, ids)) (label : Option String) :
    ((l.register id ids).hold l.size label).Census h := by
  have hself : ((l.register id ids).hold l.size label).stream l.size =
      Stream.start id .opener l.settings.queueLimit := stream_register_self l id ids
  refine c.enroll (.opened c.toSound draw label) (c.toSound.opened up draw label) (.refl h) ?_
    Or.inl
  intro hrole
  rw [hself] at hrole
  cases hrole

/-- A stream is taken up, and the connection goes away at once. -/
theorem openTorn (c : l.Census h) {id : UInt64} {ids : Ids} (up : l.tornDown = false)
    (draw : l.ids.draw = .ok (id, ids)) : (l.register id ids).tear.Census h := by
  have hsound : (l.register id ids).tear.Sound := c.toSound.move (.openTorn up draw)
  have hself := stream_register_self l id ids
  have hfresh : ∀ {i}, i < l.size → (l.stream i).id ≠ id := c.id_ne_of_draw draw
  have halike := Alike.tear (l.register id ids)
  have hold : ∀ {i}, i < l.size → (l.register id ids).stream i = l.stream i :=
    fun hlt => stream_register_of_lt hlt
  have hcases : ∀ {i}, i < (l.register id ids).tear.size → i = l.size ∨ i < l.size := by
    intro i hlt
    rw [halike.size, size_register] at hlt
    omega
  refine ⟨hsound, ?_, ?_, ?_, ?_, ?_, ?_, ?_, ?_⟩
  · -- roomy
    intro i hlt
    rw [halike.capacity]
    rcases hcases hlt with rfl | hlt
    · rw [hself]
      exact Nat.lt_of_lt_of_le Nat.zero_lt_one (Nat.le_max_right _ _)
    · rw [hold hlt]
      exact c.roomy hlt
  · -- distinct
    intro p q i j hp hq heq
    have hi := c.lt_of_mem (List.mem_of_getElem? (l := l.serials) hp)
    have hj := c.lt_of_mem (List.mem_of_getElem? (l := l.serials) hq)
    rw [halike.id, halike.id, hold hi, hold hj] at heq
    exact c.distinct hp hq heq
  · -- accepted
    intro i hi hrole
    have hlt := c.lt_of_mem hi
    rw [halike.role, hold hlt] at hrole
    rw [halike.id, hold hlt]
    exact c.accepted hi hrole
  · exact fun _ => Or.inl rfl
  · -- late
    intro i hlt hrole hi
    rw [halike.role] at hrole
    rcases hcases hlt with rfl | hlt
    · rw [hself] at hrole
      cases hrole
    · rw [hold hlt] at hrole
      obtain ⟨q, k, hq, hki, heq, hover, hwhy⟩ := c.late hlt hrole hi
      have hk := Nat.lt_trans hki hlt
      refine ⟨q, k, hq, hki, ?_, halike.isOver k (by rw [hold hk, hover]), ?_⟩
      · rw [halike.id, halike.id, hold hk, hold hlt, heq]
      · rw [halike.id, hold hlt]
        exact hwhy
  · -- single
    intro i j hij hlt heq
    rw [halike.id, halike.id] at heq
    rcases hcases hlt with rfl | hlt
    · rw [hself, hold hij] at heq
      exact absurd heq (hfresh hij)
    · rw [hold (Nat.lt_trans hij hlt), hold hlt] at heq
      exact c.single hij hlt heq
  · exact fun _ _ => Or.inl rfl
  · exact fun _ _ => Or.inl rfl

theorem id_ne_of_not_announced (c : l.Census h) {id : UInt64} (foreign : l.ids.owns id = false)
    (hnew : ¬ Announced h.got id) {i : Nat} (hlt : i < l.size) : (l.stream i).id ≠ id := by
  intro heq
  have hacceptor : ∀ {j}, j < l.size → (l.stream j).id = id → (l.stream j).role = .acceptor := by
    intro j hj hid
    have hrole := c.role_iff hj
    rw [show (l.registry.stream j).id = id from hid, foreign] at hrole
    cases hr : (l.stream j).role with
    | opener => exact absurd (hrole.mp hr) (by simp)
    | acceptor => rfl
  by_cases hheld : i ∈ l.serials
  · exact hnew (heq ▸ c.accepted hheld (hacceptor hlt heq))
  · obtain ⟨q, k, hq, hki, hid, -⟩ := c.late hlt (hacceptor hlt heq) hheld
    have hk := List.mem_of_getElem? hq
    have hkid := hid.trans heq
    exact hnew (hkid ▸ c.accepted hk (hacceptor (c.lt_of_mem hk) hkid))

theorem began (c : l.Census h) {frame : Frame} (is : frame.kind? = some .newStream)
    (up : l.tornDown = false) (new : l.find? frame.id = none)
    (foreign : l.ids.owns frame.id = false) (fits : frame.id ≤ Header.maxId)
    (hfirst : ¬ Announced h.got frame.id) :
    ((l.welcome frame.id).accept frame.id l.size).Census (h.get frame) := by
  have hwelcome := c.toSound.welcome up new foreign fits
  refine c.enroll (.began (c.id_ne_of_not_announced foreign hfirst)) (hwelcome.accept ?_ ?_)
    (.get h frame) ?_ ?_
  · exact List.mem_append_right _ (List.mem_singleton_self _)
  · rw [find?_welcome, if_pos rfl]
  · intro _
    exact announced_concat.mpr (Or.inr ⟨rfl, is⟩)
  · intro other hannounced
    exact (announced_concat.mp hannounced).imp_right fun hframe => hframe.1.symm

/-- A stream of the peer that no current one has the number of, and that the peer did not end, has
a handle, and this side ended it. -/
theorem handled_of_new (c : l.Census h) {id : UInt64} (up : l.tornDown = false)
    (new : l.find? id = none) (hannounced : Announced h.got id) (hgoing : ¬ EndedBy h.got id) :
    ∃ q k : Nat, l.serials[q]? = some k ∧ (l.stream k).id = id ∧ (l.stream k).isOver = true ∧
      (h.ended q ∨ id ∈ l.overflows) := by
  obtain ⟨k, hk, rfl⟩ := (c.welcomed hannounced).resolve_left (by simp [up])
  obtain ⟨q, hq⟩ := List.getElem?_of_mem hk
  have hover := c.isOver_of_find?_ne hk (by simp [new])
  refine ⟨q, k, hq, rfl, hover, ?_⟩
  rcases c.cause hq hover with ht | hended | hfull | hpeer
  · exact absurd ht (by simp [up])
  · exact Or.inl hended
  · exact Or.inr hfull
  · exact absurd hpeer hgoing

theorem mem_serials_of_new (c : l.Census h) {i : Nat} (up : l.tornDown = false)
    (new : l.find? (l.stream i).id = none) (hgoing : ¬ EndedBy h.got (l.stream i).id)
    (hlt : i < l.size) : i ∈ l.serials := by
  by_contra hi
  rcases c.lingering hlt hi with ht | hlive | hended | hcurrent
  · exact absurd ht (by simp [up])
  · cases new.symm.trans (c.find?_of_live hlive)
  · exact hgoing hended
  · cases new.symm.trans hcurrent.1

theorem welcome (c : l.Census h) {id : UInt64} (up : l.tornDown = false) (new : l.find? id = none)
    (foreign : l.ids.owns id = false) (fits : id ≤ Header.maxId)
    (hannounced : Announced h.got id) (hgoing : ¬ EndedBy h.got id) : (l.welcome id).Census h := by
  have hbegins := begins_welcome l id
  have hself := hbegins.new
  have hold : ∀ {i}, i < l.size → (l.welcome id).stream i = l.stream i := hbegins.old
  refine ⟨c.toSound.welcome up new foreign fits, ?_, ?_, ?_, ?_, ?_, ?_, ?_, ?_⟩
  · -- roomy
    intro i hlt
    rcases hbegins.cases_of_lt hlt with ⟨hlt, heq⟩ | ⟨-, heq⟩ <;> rw [heq]
    · exact c.roomy hlt
    · exact Nat.lt_of_lt_of_le Nat.zero_lt_one (Nat.le_max_right _ _)
  · -- distinct
    intro p q i j hp hq heq
    rw [hold (c.lt_of_mem (List.mem_of_getElem? (l := l.serials) hp)),
      hold (c.lt_of_mem (List.mem_of_getElem? (l := l.serials) hq))] at heq
    exact c.distinct hp hq heq
  · -- accepted
    intro i hi hrole
    have hlt := c.lt_of_mem hi
    rw [hold hlt] at hrole ⊢
    exact c.accepted hi hrole
  · -- welcomed
    intro other hother
    rcases c.welcomed hother with ht | ⟨i, hi, heq⟩
    · exact Or.inl ht
    · exact Or.inr ⟨i, hi, by rw [hold (c.lt_of_mem hi), heq]⟩
  · -- late: the new stream is, behind the one with the handle
    intro i hlt hrole hi
    rcases hbegins.cases_of_lt hlt with ⟨hlt, heq⟩ | ⟨rfl, -⟩
    · rw [heq] at hrole ⊢
      obtain ⟨q, k, hq, hki, hid, hover, hwhy⟩ := c.late hlt hrole hi
      have hk := Nat.lt_trans hki hlt
      exact ⟨q, k, hq, hki, by rw [hold hk, hid], by rw [hold hk, hover], hwhy⟩
    · obtain ⟨q, k, hq, hid, hover, hwhy⟩ := c.handled_of_new up new hannounced hgoing
      have hk := c.lt_of_mem (List.mem_of_getElem? hq)
      rw [hself]
      exact ⟨q, k, hq, hk, by rw [hold hk, hid]; rfl, by rw [hold hk, hover], hwhy⟩
  · -- single
    intro i j hij hlt heq
    rcases hbegins.cases_of_lt hlt with ⟨hlt, hj⟩ | ⟨rfl, hj⟩
    · rw [hold (Nat.lt_trans hij hlt), hj] at heq
      exact c.single hij hlt heq
    · rw [hold hij, hj] at heq
      obtain rfl : (l.stream i).id = id := heq
      exact c.mem_serials_of_new up new hgoing hij
  · -- lingering
    intro i hlt hi
    unfold Lingers
    rcases hbegins.cases_of_lt hlt with ⟨hlt, heq⟩ | ⟨-, heq⟩ <;> rw [heq]
    · refine (c.lingering hlt hi).imp_right (Or.imp_right (Or.imp_right fun hcurrent => ?_))
      refine ⟨?_, hcurrent.2⟩
      rw [find?_welcome, if_neg, hcurrent.1]
      intro hid
      cases new.symm.trans (hid ▸ hcurrent.1)
    · exact Or.inr (Or.inl rfl)
  · -- cause
    intro q i hq hover
    have hlt := c.lt_of_mem (List.mem_of_getElem? (l := l.serials) hq)
    rw [hold hlt] at hover
    unfold Caused
    rw [hold hlt]
    exact c.cause hq hover

end Census

theorem census_start (side : Side) (settings : Settings) :
    Census { side, settings, ids := Ids.ofSide side, registry := {}, handles := [],
             tornDown := false, overflows := [] } {} where
  toSound := sound_start side settings []
  roomy hlt := by cases hlt
  distinct hp := by cases hp
  accepted hmem := by cases hmem
  welcomed hannounced := by
    obtain ⟨frame, hmem, -⟩ := hannounced
    cases hmem
  late hlt := by cases hlt
  single hij hlt := by cases hlt
  lingering hlt := by cases hlt
  cause hq := by cases hq

end StreamMux.Ledger
