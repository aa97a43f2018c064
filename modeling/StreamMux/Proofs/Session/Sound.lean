import Mathlib.Data.List.Nodup
import StreamMux.Proofs.Session.Ledger

/-!
# The invariant of a session's streams

* `Numbered` — which numbers the streams of a registry have, and which of them may be no longer
  current;
* `Ledger.Sound` — the whole invariant: the numbers, and which streams are pending and held;
* `Ledger.Sound.move`, `Ledger.Sound.drop` — every move of a ledger keeps it;
* `Ledger.Sound.isOver_of_torn`, `Ledger.Sound.find?_of_live` — after teardown every stream is over,
  and before it every stream that is not over is the current one of its number.
-/

namespace StreamMux

/-! ### Numbers -/

/-- The numbers of the streams in a registry. -/
structure Numbered (side : Side) (ids : Ids) (registry : Registry) : Prop where
  /-- The numbers not given out are this side's. -/
  parity : ids.next.toNat % 2 = (Ids.ofSide side).next.toNat % 2
  /-- An entry leads to a stream of its number. -/
  current : ∀ {id serial}, registry.find? id = some serial →
    serial < registry.streams.length ∧ (registry.stream serial).id = id
  id_le : ∀ {serial}, serial < registry.streams.length →
    (registry.stream serial).id ≤ Header.maxId
  /-- A stream was opened here exactly if its number is one of this side's. -/
  role_iff : ∀ {serial}, serial < registry.streams.length →
    ((registry.stream serial).role = .opener ↔ ids.owns (registry.stream serial).id = true)
  /-- The numbers of streams opened here are given out. -/
  drawn : ∀ {serial}, serial < registry.streams.length →
    (registry.stream serial).role = .opener → (registry.stream serial).id < ids.next
  /-- A stream opened here shares its number with no other. -/
  opener_inj : ∀ {i j}, i < registry.streams.length → j < registry.streams.length →
    (registry.stream i).role = .opener → (registry.stream i).id = (registry.stream j).id → i = j
  /-- A stream that is no longer current is over. -/
  gone : ∀ {serial}, serial < registry.streams.length →
    registry.find? (registry.stream serial).id ≠ some serial →
      (registry.stream serial).isOver = true

namespace Numbered

variable {side : Side} {ids ids' : Ids} {registry registry' : Registry}

/-- Streams may end and leave, as long as none of them leaves before its end. -/
theorem mono (h : Numbered side ids registry)
    (hlength : registry'.streams.length = registry.streams.length)
    (hid : ∀ serial, (registry'.stream serial).id = (registry.stream serial).id)
    (hrole : ∀ serial, (registry'.stream serial).role = (registry.stream serial).role)
    (hfind : ∀ {id serial}, registry'.find? id = some serial → registry.find? id = some serial)
    (hgone : ∀ {serial}, registry.find? (registry.stream serial).id = some serial →
      registry'.find? (registry.stream serial).id ≠ some serial →
        (registry'.stream serial).isOver = true)
    (hover : ∀ {serial}, (registry.stream serial).isOver = true →
      (registry'.stream serial).isOver = true) : Numbered side ids registry' where
  parity := h.parity
  current hcurrent := by
    rw [hlength, hid]
    exact h.current (hfind hcurrent)
  id_le hlt := by
    rw [hid]
    exact h.id_le (hlength ▸ hlt)
  role_iff hlt := by
    rw [hid, hrole]
    exact h.role_iff (hlength ▸ hlt)
  drawn hlt := by
    rw [hid, hrole]
    exact h.drawn (hlength ▸ hlt)
  opener_inj hi hj := by
    rw [hid, hid, hrole]
    exact h.opener_inj (hlength ▸ hi) (hlength ▸ hj)
  gone {serial} hlt hne := by
    rw [hid] at hne
    by_cases hcurrent : registry.find? (registry.stream serial).id = some serial
    · exact hgone hcurrent hne
    · exact hover (h.gone (hlength ▸ hlt) hcurrent)

/-- A stream begins.  All streams that had its number before are over, and none of these, nor the
new one then, was opened here. -/
theorem create (h : Numbered side ids registry) {stream : Stream}
    (hparity : ids'.next.toNat % 2 = ids.next.toNat % 2) (hnext : ids.next ≤ ids'.next)
    (hfits : stream.id ≤ Header.maxId)
    (hrole : stream.role = .opener ↔ ids.owns stream.id = true)
    (hdrawn : stream.role = .opener → stream.id < ids'.next)
    (hbefore : ∀ {serial}, serial < registry.streams.length →
      (registry.stream serial).id = stream.id →
        stream.role ≠ .opener ∧ (registry.stream serial).isOver = true) :
    Numbered side ids' (registry.create stream).1 := by
  have howns : ∀ id, ids'.owns id = ids.owns id := fun id => by
    rw [Bool.eq_iff_iff, Ledger.owns_iff, Ledger.owns_iff, hparity]
  have hself := registry.stream_create_self stream
  have hcases : ∀ {serial}, serial < registry.streams.length + 1 →
      serial = registry.streams.length ∨ serial < registry.streams.length := by omega
  refine ⟨hparity.trans h.parity, ?_, ?_, ?_, ?_, ?_, ?_⟩
  · -- current
    intro id serial hfind
    rw [Registry.length_create]
    rw [Registry.find?_create] at hfind
    split at hfind
    · rename_i heq
      cases hfind
      exact ⟨Nat.lt_succ_self _, by rw [hself, heq]⟩
    · obtain ⟨hlt, hid⟩ := h.current hfind
      exact ⟨Nat.lt_succ_of_lt hlt, by rw [Registry.stream_create_of_lt _ hlt, hid]⟩
  · -- id_le
    intro serial hlt
    rw [Registry.length_create] at hlt
    rcases hcases hlt with rfl | hlt
    · rw [hself]
      exact hfits
    · rw [Registry.stream_create_of_lt _ hlt]
      exact h.id_le hlt
  · -- role_iff
    intro serial hlt
    rw [Registry.length_create] at hlt
    rw [howns]
    rcases hcases hlt with rfl | hlt
    · rw [hself]
      exact hrole
    · rw [Registry.stream_create_of_lt _ hlt]
      exact h.role_iff hlt
  · -- drawn
    intro serial hlt hopener
    rw [Registry.length_create] at hlt
    rcases hcases hlt with rfl | hlt
    · rw [hself] at hopener ⊢
      exact hdrawn hopener
    · rw [Registry.stream_create_of_lt _ hlt] at hopener ⊢
      exact UInt64.lt_of_lt_of_le (h.drawn hlt hopener) hnext
  · -- opener_inj
    intro i j hi hj hopener heq
    rw [Registry.length_create] at hi hj
    rcases hcases hi with rfl | hi <;> rcases hcases hj with rfl | hj
    · rfl
    · rw [hself] at hopener heq
      rw [Registry.stream_create_of_lt _ hj] at heq
      exact absurd hopener (hbefore hj heq.symm).1
    · rw [Registry.stream_create_of_lt _ hi] at hopener heq
      rw [hself] at heq
      have hown := (h.role_iff hi).mp hopener
      rw [heq] at hown
      exact absurd (hrole.mpr hown) (hbefore hi heq).1
    · rw [Registry.stream_create_of_lt _ hi] at hopener heq
      rw [Registry.stream_create_of_lt _ hj] at heq
      exact h.opener_inj hi hj hopener heq
  · -- gone
    intro serial hlt hne
    rw [Registry.length_create] at hlt
    rw [Registry.find?_create] at hne
    rcases hcases hlt with rfl | hlt
    · rw [hself, if_pos rfl] at hne
      exact absurd rfl hne
    · rw [Registry.stream_create_of_lt _ hlt] at hne ⊢
      by_cases heq : (registry.stream serial).id = stream.id
      · exact (hbefore hlt heq).2
      · rw [if_neg heq] at hne
        exact h.gone hlt hne

end Numbered

/-! ### The whole invariant -/

namespace Ledger

variable {l : Ledger}

structure Sound (l : Ledger) : Prop extends Numbered l.side l.ids l.registry where
  /-- A pending number has a current stream of the peer, for which there is no handle. -/
  waiting : ∀ {id}, id ∈ l.registry.pending →
    ∃ serial, l.find? id = some serial ∧ (l.stream serial).role = .acceptor ∧ ¬ l.Held serial
  pending_nodup : l.registry.pending.Nodup
  /-- A current stream is pending or has a handle. -/
  held : ∀ {id serial}, l.find? id = some serial → id ∈ l.registry.pending ∨ l.Held serial
  held_lt : ∀ {handle}, handle ∈ l.handles → handle.serial < l.size
  /-- There is at most one handle for a stream. -/
  handles_nodup : (l.handles.map Handle.serial).Nodup
  /-- After teardown no stream is current. -/
  torn : l.tornDown = true → l.registry.entries = [] ∧ l.registry.pending = []

/-- Teardown needs little of the invariant, and leaves all of it. -/
theorem sound_tear (h : Numbered l.side l.ids l.registry)
    (hlt : ∀ {handle}, handle ∈ l.handles → handle.serial < l.size)
    (hnodup : (l.handles.map Handle.serial).Nodup) : l.tear.Sound where
  toNumbered := by
    refine h.mono (size_tear l) (id_tear l) (role_tear l) ?_ ?_ isOver_tear
    · intro id serial hfind
      exact absurd hfind (by simp [tear])
    · intro serial hfind _
      change (l.tear.stream serial).isOver = true
      rw [stream_tear_of_current hfind]
      exact Stream.isOver_sever _
  waiting hmem := by simp [tear] at hmem
  pending_nodup := by simp [tear]
  held hfind := by simp at hfind
  held_lt hmem := by
    rw [size_tear]
    exact hlt hmem
  handles_nodup := hnodup
  torn _ := by simp [tear]

namespace Sound

theorem find?_of_torn (h : l.Sound) (htorn : l.tornDown = true) (id : UInt64) :
    l.find? id = none := by
  simp [find?, Registry.find?, (h.torn htorn).1]

/-- After teardown every stream is over. -/
theorem isOver_of_torn (h : l.Sound) (htorn : l.tornDown = true) (serial : Nat) :
    (l.stream serial).isOver = true := by
  by_cases hlt : serial < l.size
  · exact h.gone hlt (by simp [h.find?_of_torn htorn])
  · rw [stream, Registry.stream_of_le (Nat.le_of_not_lt hlt), Registry.isOver_absent]

theorem find?_of_live (h : l.Sound) {serial : Nat} (hlive : (l.stream serial).isOver = false) :
    l.find? (l.stream serial).id = some serial := by
  by_contra hne
  rw [h.gone (Registry.lt_of_not_isOver hlive) hne] at hlive
  cases hlive

/-- Two handles for one stream are the same. -/
theorem place_inj (h : l.Sound) {p q : Nat} {a b : Handle} (hp : l.handles[p]? = some a)
    (hq : l.handles[q]? = some b) (heq : a.serial = b.serial) : p = q := by
  obtain ⟨hplt, hp⟩ := List.getElem?_eq_some_iff.mp hp
  obtain ⟨hqlt, hq⟩ := List.getElem?_eq_some_iff.mp hq
  have hplt' : p < (l.handles.map Handle.serial).length := by simpa using hplt
  have hqlt' : q < (l.handles.map Handle.serial).length := by simpa using hqlt
  refine (h.handles_nodup.getElem_inj_iff (i := p) (j := q)).mp (?_ : _[p] = _[q])
  simp [hp, hq, heq]

/-! ### Moves that begin no stream -/

/-- The invariant does not look into queues, and streams may end. -/
theorem put (h : l.Sound) {serial : Nat} {stream : Stream}
    (hid : stream.id = (l.stream serial).id) (hrole : stream.role = (l.stream serial).role)
    (hover : (l.stream serial).isOver = true → stream.isOver = true) :
    (l.put serial stream).Sound where
  toNumbered := h.toNumbered.mono (size_put ..) (id_put hid) (role_put hrole) id
    (fun hfind hne => absurd hfind hne) (isOver_put hover)
  waiting hmem := by
    obtain ⟨serial, hfind, hacceptor, hheld⟩ := h.waiting hmem
    exact ⟨serial, hfind, by rw [role_put hrole]; exact hacceptor, hheld⟩
  pending_nodup := h.pending_nodup
  held := h.held
  held_lt hmem := by
    rw [size_put]
    exact h.held_lt hmem
  handles_nodup := h.handles_nodup
  torn := h.torn

theorem finish (h : l.Sound) (serial : Nat) (ending : Ending) : (l.finish serial ending).Sound :=
  h.put rfl rfl fun _ => Stream.isOver_ended (l.stream serial) ending

theorem remove (h : l.Sound) {id : UInt64}
    (hover : ∀ serial, l.find? id = some serial → (l.stream serial).isOver = true) :
    { l with registry := l.registry.remove id }.Sound where
  toNumbered := by
    refine h.toNumbered.mono rfl (fun _ => rfl) (fun _ => rfl) ?_ ?_ (fun h => h)
    · intro other serial hfind
      rw [Registry.find?_remove] at hfind
      split at hfind
      · cases hfind
      · exact hfind
    · intro serial hfind hne
      rw [Registry.find?_remove] at hne
      split at hne
      · rename_i heq
        exact hover serial (heq ▸ hfind)
      · exact absurd hfind hne
  waiting {other} hmem := by
    simp only [Registry.remove, List.mem_filter, bne_iff_ne] at hmem
    obtain ⟨serial, hfind, hrest⟩ := h.waiting hmem.1
    refine ⟨serial, ?_, hrest⟩
    simp only [find?, Registry.find?_remove, if_neg hmem.2]
    exact hfind
  pending_nodup := h.pending_nodup.filter _
  held {other serial} hfind := by
    simp only [find?, Registry.find?_remove] at hfind
    split at hfind
    · cases hfind
    · rename_i hne
      rcases h.held hfind with hmem | hheld
      · exact Or.inl (by simpa [Registry.remove, hne] using hmem)
      · exact Or.inr hheld
  held_lt := h.held_lt
  handles_nodup := h.handles_nodup
  torn htorn := by simp [Registry.remove, h.torn htorn]

theorem sweep (h : l.Sound) (id : UInt64) : (l.sweep id).Sound := by
  rcases l.registry.sweep_eq id with ⟨heq, serial, hfind, hover, -⟩ | ⟨heq, -⟩
  · have hsound := h.remove fun other (hother : l.find? id = some other) => by
      cases hfind.symm.trans hother
      exact hover
    rwa [← heq] at hsound
  · simpa only [Ledger.sweep, heq] using h

theorem tear (h : l.Sound) : l.tear.Sound :=
  sound_tear h.toNumbered h.held_lt h.handles_nodup

/-! ### Moves that begin a stream -/

/-- The next number is new. -/
theorem id_ne_of_draw (h : l.Sound) {id : UInt64} {ids : Ids} (draw : l.ids.draw = .ok (id, ids))
    {serial : Nat} (hlt : serial < l.size) : (l.stream serial).id ≠ id := by
  intro heq
  obtain ⟨rfl, -⟩ := draw_eq draw
  have hown : l.ids.owns (l.stream serial).id = true := by rw [owns_iff, heq]
  have hdrawn := h.drawn hlt ((h.role_iff hlt).mpr hown)
  rw [heq] at hdrawn
  exact UInt64.lt_irrefl _ hdrawn

theorem numbered_register (h : l.Sound) {id : UInt64} {ids : Ids}
    (draw : l.ids.draw = .ok (id, ids)) : Numbered l.side ids (l.register id ids).registry := by
  obtain ⟨hid, hfits, hnext⟩ := draw_eq draw
  refine h.toNumbered.create (by rw [hnext, hid]; omega) ?_ hfits ?_ ?_ ?_
  · rw [UInt64.le_iff_toNat_le, hnext, hid]
    omega
  · simp only [Stream.start, owns_iff, hid]
  · intro _
    simp only [Stream.start]
    rw [UInt64.lt_iff_toNat_lt, hnext]
    omega
  · intro serial hlt heq
    exact absurd heq (h.id_ne_of_draw draw hlt)

theorem opened (h : l.Sound) {id : UInt64} {ids : Ids} (up : l.tornDown = false)
    (draw : l.ids.draw = .ok (id, ids)) (label : Option String) :
    ((l.register id ids).hold l.size label).Sound where
  toNumbered := h.numbered_register draw
  waiting {other} hmem := by
    obtain ⟨serial, hfind, hrole, hheld⟩ := h.waiting hmem
    obtain ⟨hlt, hother⟩ := h.current hfind
    refine ⟨serial, ?_, ?_, ?_⟩
    · change (l.register id ids).find? other = some serial
      rw [find?_register, if_neg (hother ▸ h.id_ne_of_draw draw hlt), hfind]
    · change ((l.register id ids).stream serial).role = .acceptor
      rw [stream_register_of_lt hlt, hrole]
    · rintro ⟨handle, hhandle, heq⟩
      rcases List.mem_append.mp hhandle with hmem | hnew
      · exact hheld ⟨handle, hmem, heq⟩
      · obtain rfl := List.mem_singleton.mp hnew
        exact absurd heq (Nat.ne_of_gt hlt)
  pending_nodup := h.pending_nodup
  held {other serial} hfind := by
    change (l.register id ids).find? other = some serial at hfind
    rw [find?_register] at hfind
    split at hfind
    · cases hfind
      exact Or.inr ⟨_, List.mem_append_right _ (List.mem_singleton_self _), rfl⟩
    · rcases h.held hfind with hmem | ⟨handle, hmem, heq⟩
      · exact Or.inl hmem
      · exact Or.inr ⟨handle, List.mem_append_left _ hmem, heq⟩
  held_lt {handle} hmem := by
    change handle.serial < (l.register id ids).size
    rw [size_register]
    rcases List.mem_append.mp hmem with hmem | hnew
    · exact Nat.lt_succ_of_lt (h.held_lt hmem)
    · obtain rfl := List.mem_singleton.mp hnew
      exact Nat.lt_succ_self _
  handles_nodup := by
    simp only [hold, register, List.map_append, List.map_cons, List.map_nil]
    refine List.nodup_append.mpr ⟨h.handles_nodup, List.nodup_singleton _, ?_⟩
    intro serial hmem last hlast heq
    obtain ⟨handle, hhandle, rfl⟩ := List.mem_map.mp hmem
    have hlt := h.held_lt hhandle
    rw [List.mem_singleton.mp hlast] at heq
    omega
  torn htorn := by
    rw [show ((l.register id ids).hold l.size label).tornDown = l.tornDown from rfl, up] at htorn
    cases htorn

theorem welcome (h : l.Sound) {id : UInt64} (up : l.tornDown = false) (new : l.find? id = none)
    (foreign : l.ids.owns id = false) (fits : id ≤ Header.maxId) : (l.welcome id).Sound where
  toNumbered := by
    have hnumbers : Numbered l.side l.ids
        (l.registry.create (Stream.start id .acceptor l.settings.queueLimit)).1 := by
      refine h.toNumbered.create rfl (UInt64.le_refl _) fits ?_ ?_ ?_
      · simp [Stream.start, foreign]
      · intro hrole
        simp [Stream.start] at hrole
      · intro serial hlt heq
        refine ⟨by simp [Stream.start], h.gone hlt ?_⟩
        rw [show (l.registry.stream serial).id = id from heq, show l.registry.find? id = _ from new]
        simp
    exact { hnumbers with }
  waiting {other} hmem := by
    rcases List.mem_append.mp hmem with hmem | hnew
    · obtain ⟨serial, hfind, hrole, hheld⟩ := h.waiting hmem
      obtain ⟨hlt, -⟩ := h.current hfind
      refine ⟨serial, ?_, by rw [stream_welcome_of_lt hlt, hrole], hheld⟩
      rw [find?_welcome, if_neg, hfind]
      rintro rfl
      rw [new] at hfind
      cases hfind
    · obtain rfl := List.mem_singleton.mp hnew
      refine ⟨l.size, by rw [find?_welcome, if_pos rfl], by rw [stream_welcome_self]; rfl, ?_⟩
      rintro ⟨handle, hmem, heq⟩
      have hlt := h.held_lt hmem
      omega
  pending_nodup := by
    refine List.nodup_append.mpr ⟨h.pending_nodup, List.nodup_singleton _, ?_⟩
    intro other hmem last hlast heq
    obtain ⟨serial, hfind, -⟩ := h.waiting hmem
    rw [heq, List.mem_singleton.mp hlast, new] at hfind
    cases hfind
  held {other serial} hfind := by
    rw [find?_welcome] at hfind
    split at hfind
    · rename_i heq
      exact Or.inl (List.mem_append_right _ (by simp [heq]))
    · rcases h.held hfind with hmem | hheld
      · exact Or.inl (List.mem_append_left _ hmem)
      · exact Or.inr hheld
  held_lt hmem := by
    rw [size_welcome]
    exact Nat.lt_succ_of_lt (h.held_lt hmem)
  handles_nodup := h.handles_nodup
  torn htorn := by
    rw [show (l.welcome id).tornDown = l.tornDown from rfl, up] at htorn
    cases htorn

/-! ### Moves of handles -/

theorem accept (h : l.Sound) {id : UInt64} {serial : Nat} (pending : id ∈ l.registry.pending)
    (current : l.find? id = some serial) : (l.accept id serial).Sound where
  toNumbered := h.toNumbered.mono rfl (fun _ => rfl) (fun _ => rfl) (fun h => h)
    (fun hfind hne => absurd hfind hne) (fun h => h)
  waiting {other} hmem := by
    have hne : other ≠ id := fun heq => h.pending_nodup.not_mem_erase (heq ▸ hmem)
    obtain ⟨waiting, hfind, hrole, hheld⟩ := h.waiting (List.mem_of_mem_erase hmem)
    refine ⟨waiting, hfind, hrole, ?_⟩
    rintro ⟨handle, hhandle, heq⟩
    rcases List.mem_append.mp hhandle with hmem | hnew
    · exact hheld ⟨handle, hmem, heq⟩
    · obtain rfl := List.mem_singleton.mp hnew
      simp only at heq
      subst heq
      exact hne ((h.current hfind).2.symm.trans (h.current current).2)
  pending_nodup := h.pending_nodup.erase id
  held {other found} hfind := by
    by_cases heq : other = id
    · subst heq
      cases current.symm.trans hfind
      exact Or.inr ⟨_, List.mem_append_right _ (List.mem_singleton_self _), rfl⟩
    · rcases h.held hfind with hmem | ⟨handle, hmem, hserial⟩
      · exact Or.inl ((List.mem_erase_of_ne heq).mpr hmem)
      · exact Or.inr ⟨handle, List.mem_append_left _ hmem, hserial⟩
  held_lt {handle} hmem := by
    rcases List.mem_append.mp hmem with hmem | hnew
    · exact h.held_lt hmem
    · obtain rfl := List.mem_singleton.mp hnew
      exact (h.current current).1
  handles_nodup := by
    simp only [Ledger.accept, hold, List.map_append, List.map_cons, List.map_nil]
    refine List.nodup_append.mpr ⟨h.handles_nodup, List.nodup_singleton _, ?_⟩
    intro other hmem last hlast heq
    obtain ⟨handle, hhandle, rfl⟩ := List.mem_map.mp hmem
    obtain ⟨waiting, hfind, -, hheld⟩ := h.waiting pending
    cases current.symm.trans hfind
    exact hheld ⟨handle, hhandle, heq.trans (List.mem_singleton.mp hlast)⟩
  torn htorn := by
    have hnil := (h.torn htorn).2
    rw [hnil] at pending
    cases pending

theorem drop (h : l.Sound) {place : Nat} {handle : Handle}
    (hplace : l.handles[place]? = some handle) : (l.drop place handle).Sound := by
  have hserials : (l.handles.set place { handle with live := false }).map Handle.serial =
      l.handles.map Handle.serial := map_serial_set hplace
  have hheld : ∀ {serial}, (∃ other ∈ l.handles.set place { handle with live := false },
      other.serial = serial) ↔ l.Held serial := fun {serial} => by
    rw [← List.mem_map (f := Handle.serial), hserials, List.mem_map]
    rfl
  have hdropped : { l with handles := l.handles.set place { handle with live := false } }.Sound :=
    { h with
      waiting := fun hmem => by
        obtain ⟨serial, hfind, hrole, hnot⟩ := h.waiting hmem
        exact ⟨serial, hfind, hrole, fun hset => hnot (hheld.mp hset)⟩
      held := fun hfind => (h.held hfind).imp_right hheld.mpr
      held_lt := fun {other} hmem => by
        obtain ⟨old, hold, heq⟩ := hheld.mp ⟨other, hmem, rfl⟩
        exact heq ▸ h.held_lt hold
      handles_nodup := by
        rw [hserials]
        exact h.handles_nodup }
  unfold Ledger.drop
  simp only
  split
  · rename_i hover
    rw [Bool.and_eq_true, beq_iff_eq] at hover
    apply hdropped.remove
    intro serial hfind
    cases hover.2.symm.trans hfind
    exact hover.1
  · exact hdropped

theorem misstart (h : l.Sound) {id : UInt64} {serial : Nat} (pending : id ∈ l.registry.pending)
    (current : l.find? id = some serial) : (l.misstart id serial).Sound :=
  (h.accept pending current).drop getElem?_handles_accept

/-! ### All moves -/

theorem move {l' : Ledger} (h : l.Sound) (hmove : Move l l') : l'.Sound := by
  cases hmove with
  | opened label up draw => exact h.opened up draw label
  | openTorn up draw =>
    refine sound_tear (h.numbered_register draw) ?_ h.handles_nodup
    intro handle hmem
    rw [size_register]
    exact Nat.lt_succ_of_lt (h.held_lt hmem)
  | tear => exact h.tear
  | finish ending live => exact (h.finish _ ending).sweep _
  | finishTorn ending live => exact (h.finish _ ending).tear
  | overflow serial => exact { h with }
  | push chunk live room => exact h.put rfl rfl id
  | pop front => exact h.put rfl rfl id
  | sweep id => exact h.sweep id
  | welcome up new foreign fits => exact h.welcome up new foreign fits
  | accept pending current => exact h.accept pending current
  | misstart pending current => exact h.misstart pending current

theorem moves {l' : Ledger} (h : l.Sound) (hmoves : Moves l l') : l'.Sound := by
  induction hmoves with
  | refl => exact h
  | tail _ hmove ih => exact ih.move hmove

end Sound

theorem sound_start (side : Side) (settings : Settings) (overflows : List UInt64) :
    Sound { side, settings, ids := Ids.ofSide side, registry := {}, handles := [],
            tornDown := false, overflows } where
  parity := rfl
  current hfind := by cases hfind
  id_le hlt := by cases hlt
  role_iff hlt := by cases hlt
  drawn hlt := by cases hlt
  opener_inj hi := by cases hi
  gone hlt := by cases hlt
  waiting hmem := by cases hmem
  pending_nodup := List.nodup_nil
  held hfind := by cases hfind
  held_lt hmem := by cases hmem
  handles_nodup := List.nodup_nil
  torn _ := ⟨rfl, rfl⟩

end Ledger

end StreamMux
