import StreamMux.Proofs.Session.Sound

/-!
# What a ledger shares with an earlier one

Most of what a session knows about its streams outlasts whatever it does next.  Two cases cover
nearly everything:

* `Ledger.Alike` — the streams and their handles are the same, though streams may have ended;
* `Ledger.Enrolls` — one stream more began and got a handle at once, under a number of its own.
-/

namespace StreamMux.Ledger

variable {l l' l'' : Ledger}

/-- The serial numbers behind the handles, by the handles' places. -/
abbrev serials (l : Ledger) : List Nat := l.handles.map Handle.serial

theorem mem_serials_iff {serial : Nat} : serial ∈ l.serials ↔ l.Held serial := List.mem_map

theorem getElem?_serials {place : Nat} {handle : Handle} (h : l.handles[place]? = some handle) :
    l.serials[place]? = some handle.serial := by
  simp [serials, h]

theorem getElem?_of_serials {place serial : Nat} (h : l.serials[place]? = some serial) :
    ∃ handle, l.handles[place]? = some handle ∧ handle.serial = serial := by
  simpa [serials] using h

theorem lt_of_mem_serials (sound : l.Sound) {i : Nat} (hmem : i ∈ l.serials) : i < l.size := by
  obtain ⟨handle, hhandle, rfl⟩ := List.mem_map.mp hmem
  exact sound.held_lt hhandle

/-! ### The same streams -/

/-- The same streams under the same handles; a stream may have ended since, and left. -/
structure Alike (l l' : Ledger) : Prop where
  side : l'.side = l.side
  size : l'.size = l.size
  serials : l'.serials = l.serials
  id : ∀ i, (l'.stream i).id = (l.stream i).id
  role : ∀ i, (l'.stream i).role = (l.stream i).role
  capacity : ∀ i, (l'.stream i).capacity = (l.stream i).capacity
  isOver : ∀ i, (l.stream i).isOver = true → (l'.stream i).isOver = true
  torn : l.tornDown = true → l'.tornDown = true
  overflows : ∀ id, id ∈ l.overflows → id ∈ l'.overflows

namespace Alike

theorem refl (l : Ledger) : l.Alike l :=
  ⟨rfl, rfl, rfl, fun _ => rfl, fun _ => rfl, fun _ => rfl, fun _ h => h, fun h => h, fun _ h => h⟩

theorem trans (a : l.Alike l') (b : l'.Alike l'') : l.Alike l'' where
  side := b.side.trans a.side
  size := b.size.trans a.size
  serials := b.serials.trans a.serials
  id i := (b.id i).trans (a.id i)
  role i := (b.role i).trans (a.role i)
  capacity i := (b.capacity i).trans (a.capacity i)
  isOver i h := b.isOver i (a.isOver i h)
  torn h := b.torn (a.torn h)
  overflows id h := b.overflows id (a.overflows id h)

theorem put {serial : Nat} {stream : Stream} (hid : stream.id = (l.stream serial).id)
    (hrole : stream.role = (l.stream serial).role)
    (hcapacity : stream.capacity = (l.stream serial).capacity)
    (hover : (l.stream serial).isOver = true → stream.isOver = true) :
    l.Alike (l.put serial stream) where
  side := rfl
  size := size_put ..
  serials := rfl
  id := id_put hid
  role := role_put hrole
  capacity i := by
    rcases l.stream_put serial stream i with ⟨rfl, heq⟩ | heq <;> rw [heq]
    exact hcapacity
  isOver _ := isOver_put hover
  torn h := h
  overflows _ h := h

theorem finish (l : Ledger) (serial : Nat) (ending : Ending) : l.Alike (l.finish serial ending) :=
  .put rfl rfl rfl fun _ => Stream.isOver_ended (l.stream serial) ending

theorem sweep (l : Ledger) (id : UInt64) : l.Alike (l.sweep id) where
  side := rfl
  size := size_sweep ..
  serials := rfl
  id i := by rw [stream_sweep]
  role i := by rw [stream_sweep]
  capacity i := by rw [stream_sweep]
  isOver i := by
    rw [stream_sweep]
    exact fun h => h
  torn h := h
  overflows _ h := h

theorem tear (l : Ledger) : l.Alike l.tear where
  side := rfl
  size := size_tear l
  serials := rfl
  id := id_tear l
  role := role_tear l
  capacity i := by
    rcases l.stream_tear i with heq | heq <;> rw [heq]
    rfl
  isOver _ := isOver_tear
  torn _ := rfl
  overflows _ h := h

theorem overflow (l : Ledger) (serial : Nat) : l.Alike (l.overflow serial) :=
  { refl l with overflows := fun _ => List.mem_append_left _ }

theorem drop {place : Nat} {handle : Handle} (hplace : l.handles[place]? = some handle) :
    l.Alike (l.drop place handle) := by
  have hboth : ∀ registry : Registry, registry.streams = l.registry.streams →
      l.Alike { l with
        registry, handles := l.handles.set place { handle with live := false } } := by
    intro registry hstreams
    have hstream : ∀ i, registry.stream i = l.registry.stream i := fun i => by
      rw [Registry.stream, Registry.stream, hstreams]
    exact ⟨rfl, congrArg List.length hstreams, map_serial_set hplace,
      fun i => congrArg Stream.id (hstream i), fun i => congrArg Stream.role (hstream i),
      fun i => congrArg Stream.capacity (hstream i),
      fun i h => (congrArg Stream.isOver (hstream i)).trans h, fun h => h, fun _ h => h⟩
  unfold Ledger.drop
  simp only
  split
  · exact hboth _ rfl
  · exact hboth _ rfl

end Alike

/-! ### One stream more -/

/-- A stream begins and gets a handle at once.  No stream had its number before. -/
structure Enrolls (l : Ledger) (id : UInt64) (l' : Ledger) : Prop where
  side : l'.side = l.side
  size : l'.size = l.size + 1
  serials : l'.serials = l.serials ++ [l.size]
  old : ∀ {i}, i < l.size → l'.stream i = l.stream i
  find : ∀ {other}, other ≠ id → l'.find? other = l.find? other
  torn : l'.tornDown = l.tornDown
  overflows : l'.overflows = l.overflows
  number : (l'.stream l.size).id = id
  live : (l'.stream l.size).isOver = false
  roomy : 0 < (l'.stream l.size).capacity
  drained : (l'.stream l.size).queue = []
  fresh : ∀ {i}, i < l.size → (l.stream i).id ≠ id

namespace Enrolls

variable {id : UInt64}

theorem mem_self (e : l.Enrolls id l') : l.size ∈ l'.serials := by
  rw [e.serials]
  exact List.mem_append_right _ (List.mem_singleton_self _)

theorem mem_iff (e : l.Enrolls id l') {i : Nat} (hlt : i < l.size) :
    i ∈ l'.serials ↔ i ∈ l.serials := by
  rw [e.serials, List.mem_append, List.mem_singleton]
  exact ⟨fun h => h.resolve_right (Nat.ne_of_lt hlt), Or.inl⟩

theorem cases_of_mem (e : l.Enrolls id l') {i : Nat} (hmem : i ∈ l'.serials) :
    i = l.size ∨ i ∈ l.serials := by
  rw [e.serials, List.mem_append, List.mem_singleton] at hmem
  exact hmem.symm

theorem cases_of_lt (e : l.Enrolls id l') {i : Nat} (hlt : i < l'.size) :
    i = l.size ∨ i < l.size := by
  have hsize := e.size
  omega

/-- A handle is the one of the new stream, or was there before. -/
theorem cases_of_getElem? (e : l.Enrolls id l') (sound : l.Sound) {p i : Nat}
    (hp : l'.serials[p]? = some i) :
    (p = l.serials.length ∧ i = l.size) ∨ (l.serials[p]? = some i ∧ i < l.size) := by
  rw [e.serials] at hp
  by_cases hlt : p < l.serials.length
  · rw [List.getElem?_append_left hlt] at hp
    exact Or.inr ⟨hp, lt_of_mem_serials sound (List.mem_of_getElem? hp)⟩
  · rw [List.getElem?_append_right (Nat.le_of_not_lt hlt), List.getElem?_singleton] at hp
    split at hp
    · cases hp
      exact Or.inl ⟨by omega, rfl⟩
    · cases hp

theorem getElem?_old (e : l.Enrolls id l') {p i : Nat} (hp : l.serials[p]? = some i) :
    l'.serials[p]? = some i := by
  rw [e.serials, List.getElem?_append_left (List.getElem?_eq_some_iff.mp hp).1, hp]

theorem opened (sound : l.Sound) {ids : Ids} (draw : l.ids.draw = .ok (id, ids))
    (label : Option String) : l.Enrolls id ((l.register id ids).hold l.size label) := by
  have hself : ((l.register id ids).hold l.size label).stream l.size =
      Stream.start id .opener l.settings.queueLimit := stream_register_self l id ids
  have hold : ∀ {i}, i < l.size → (l.register id ids).stream i = l.stream i :=
    fun hlt => stream_register_of_lt hlt
  refine ⟨rfl, size_register l id ids, ?_, hold, ?_, rfl, rfl, ?_, ?_, ?_, ?_,
    sound.id_ne_of_draw draw⟩
  · simp [Ledger.serials, Ledger.hold, register]
  · intro other hne
    change (l.register id ids).find? other = l.find? other
    rw [find?_register, if_neg hne]
  all_goals rw [hself]
  · rfl
  · rfl
  · exact Nat.lt_of_lt_of_le Nat.zero_lt_one (Nat.le_max_right _ _)
  · rfl

theorem began (hfresh : ∀ {i}, i < l.size → (l.stream i).id ≠ id) :
    l.Enrolls id ((l.welcome id).accept id l.size) := by
  have hself : ((l.welcome id).accept id l.size).stream l.size =
      Stream.start id .acceptor l.settings.queueLimit := stream_welcome_self l id
  have hold : ∀ {i}, i < l.size → (l.welcome id).stream i = l.stream i :=
    fun hlt => stream_welcome_of_lt hlt
  refine ⟨rfl, size_welcome l id, ?_, hold, ?_, rfl, rfl, ?_, ?_, ?_, ?_, hfresh⟩
  · simp [Ledger.serials, accept, Ledger.hold, Ledger.welcome]
  · intro other hne
    change (l.welcome id).find? other = l.find? other
    rw [find?_welcome, if_neg hne]
  all_goals rw [hself]
  · rfl
  · rfl
  · exact Nat.lt_of_lt_of_le Nat.zero_lt_one (Nat.le_max_right _ _)
  · rfl

end Enrolls

end StreamMux.Ledger
