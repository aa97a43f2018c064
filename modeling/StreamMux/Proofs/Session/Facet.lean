import StreamMux.Proofs.Session.Decided

/-!
# What a ledger holds of one number

`Ledger.only` keeps of a ledger what belongs to one stream number: its streams and its handles, in
their order, and whether it is current and pending.  Serial numbers and places become positions
among what is kept.  What is done to a stream of the number can be done to what is kept instead, and
what is done to any other stream leaves it alone.
-/

namespace StreamMux

/-! ### Positions among some elements of a list -/

section Positions

variable {α : Type} {p : α → Bool} {as : List α}

theorem getElem?_filter (as : List α) (n : Nat) :
    (as.filter p)[n]? = as[as.findIdxNth p n]? := by
  induction as generalizing n with
  | nil => rfl
  | cons a rest ih => grind

/-- The element at a position is put in its place among those that are kept. -/
theorem filter_set_findIdxNth {a : α} (ha : p a = true) (as : List α) (n : Nat) :
    (as.set (as.findIdxNth p n) a).filter p = (as.filter p).set n a := by
  induction as generalizing n with
  | nil => rfl
  | cons first rest ih =>
    by_cases hfirst : p first = true
    · cases n with
      | zero => simp [hfirst, ha]
      | succ n => simp [hfirst, ih]
    · have hfirst : p first = false := by simpa using hfirst
      rw [List.findIdxNth_cons_of_neg hfirst, List.set_cons_succ,
        List.filter_cons_of_neg (by simp [hfirst]), List.filter_cons_of_neg (by simp [hfirst]), ih]

theorem filter_set_of_neg {a : α} {i : Nat} (ha : p a = false)
    (hi : ∀ b, as[i]? = some b → p b = false) : (as.set i a).filter p = as.filter p := by
  induction as generalizing i with
  | nil => rfl
  | cons first rest ih =>
    cases i with
    | zero => simp [ha, hi first rfl]
    | succ i => rw [List.set_cons_succ, List.filter_cons, List.filter_cons, ih hi]

/-- Positions stay if the element that is replaced is kept exactly if the new one is. -/
theorem countPBefore_set {a : α} {i : Nat} (hi : ∀ b, as[i]? = some b → p a = p b) (j : Nat) :
    (as.set i a).countPBefore p j = as.countPBefore p j := by
  induction as generalizing i j with
  | nil => rfl
  | cons first rest ih =>
    cases j with
    | zero => simp
    | succ j =>
      cases i with
      | zero => simp [hi first rfl]
      | succ i => simp [ih hi]

theorem countPBefore_append {i : Nat} (h : i ≤ as.length) (more : List α) :
    (as ++ more).countPBefore p i = as.countPBefore p i := by
  rw [List.countPBefore_eq_countP_take, List.countPBefore_eq_countP_take,
    List.take_append_of_le_length h]

end Positions

namespace Ledger

variable {l l' : Ledger} {s id : UInt64} {serial : Nat} {stream : Stream}

/-! ### What is kept -/

/-- The position of a stream among those with a number. -/
def rank (l : Ledger) (s : UInt64) (serial : Nat) : Nat :=
  l.registry.streams.countPBefore (·.id == s) serial

/-- Whether a handle is for a stream with a number. -/
def isFor (l : Ledger) (s : UInt64) (handle : Handle) : Bool :=
  (l.stream handle.serial).id == s

/-- A handle as it looks when only the streams with a number are kept. -/
def seen (l : Ledger) (s : UInt64) (handle : Handle) : Handle :=
  { handle with serial := l.rank s handle.serial }

/-- What a ledger holds of a number. -/
def only (l : Ledger) (s : UInt64) : Ledger :=
  { l with
    registry :=
      { streams := l.registry.streams.filter (·.id == s)
        entries := (l.find? s).toList.map fun serial => (s, l.rank s serial)
        pending := l.registry.pending.filter (· == s) }
    handles := (l.handles.filter (l.isFor s)).map (l.seen s)
    overflows := l.overflows.filter (· == s) }

theorem ext_parts (side : l'.side = l.side) (settings : l'.settings = l.settings)
    (ids : l'.ids = l.ids) (streams : l'.registry.streams = l.registry.streams)
    (entries : l'.registry.entries = l.registry.entries)
    (pending : l'.registry.pending = l.registry.pending) (handles : l'.handles = l.handles)
    (tornDown : l'.tornDown = l.tornDown) (overflows : l'.overflows = l.overflows) : l' = l := by
  obtain ⟨_, _, _, ⟨_, _, _⟩, _, _, _⟩ := l
  obtain ⟨_, _, _, ⟨_, _, _⟩, _, _, _⟩ := l'
  simp only at side settings ids streams entries pending handles tornDown overflows
  subst side settings ids streams entries pending handles tornDown overflows
  rfl

theorem stream_eq_of_getElem? (h : l.registry.streams[serial]? = some stream) :
    l.stream serial = stream := by
  simp [Ledger.stream, Registry.stream, List.getD_eq_getElem?_getD, h]

theorem getElem?_of_lt (h : serial < l.size) :
    l.registry.streams[serial]? = some (l.stream serial) := by
  simp [Ledger.stream, Registry.stream, List.getD_eq_getElem?_getD, h]

namespace Of

theorem findIdxNth_rank (h : l.Of s serial) :
    l.registry.streams.findIdxNth (·.id == s) (l.rank s serial) = serial := by
  obtain ⟨hlt, hid⟩ := h
  have hget := (List.getElem?_eq_some_iff.mp (getElem?_of_lt hlt)).2
  exact List.findIdxNth_countPBefore_of_lt_length_of_pos (h := hlt) (by simp [hget, hid])

theorem rank_inj {other : Nat} (h : l.Of s serial) (h' : l.Of s other)
    (heq : l.rank s serial = l.rank s other) : serial = other := by
  rw [← h.findIdxNth_rank, ← h'.findIdxNth_rank, heq]

theorem stream_only (h : l.Of s serial) :
    (l.only s).stream (l.rank s serial) = l.stream serial := by
  refine stream_eq_of_getElem? ?_
  change (l.registry.streams.filter (·.id == s))[l.rank s serial]? = _
  rw [getElem?_filter, h.findIdxNth_rank, getElem?_of_lt h.1]

end Of

theorem find?_only (l : Ledger) (s : UInt64) : (l.only s).find? s = (l.find? s).map (l.rank s) := by
  change List.lookup s ((l.find? s).toList.map fun serial => (s, l.rank s serial)) = _
  rcases l.find? s with _ | serial
  · rfl
  · simp

/-! ### Streams put in place of others -/

theorem isFor_put (hid : stream.id = (l.stream serial).id) :
    (l.put serial stream).isFor s = l.isFor s := by
  funext handle
  rw [isFor, isFor, id_put hid]

theorem rank_put (hid : stream.id = (l.stream serial).id) :
    (l.put serial stream).rank s = l.rank s := by
  funext other
  refine countPBefore_set (fun found hget => ?_) other
  rw [hid, stream_eq_of_getElem? hget]

theorem seen_put (hid : stream.id = (l.stream serial).id) :
    (l.put serial stream).seen s = l.seen s := by
  funext handle
  rw [seen, seen, rank_put hid]

theorem only_put (h : l.Of s serial) (hid : stream.id = (l.stream serial).id) :
    (l.put serial stream).only s = (l.only s).put (l.rank s serial) stream := by
  refine ext_parts rfl rfl rfl ?_ ?_ rfl ?_ rfl rfl
  · change (l.registry.streams.set serial stream).filter _ = (l.registry.streams.filter _).set _ _
    rw [← filter_set_findIdxNth (by simp [hid, h.2]), h.findIdxNth_rank]
  · simp only [only, rank_put hid]
    rfl
  · simp only [only, isFor_put hid, seen_put hid]
    rfl

theorem only_put_of_ne (h : ¬ l.Of s serial) (hid : stream.id = (l.stream serial).id) :
    (l.put serial stream).only s = l.only s := by
  refine ext_parts rfl rfl rfl ?_ ?_ rfl ?_ rfl rfl
  · by_cases hlt : serial < l.size
    · have hne : (l.stream serial).id ≠ s := fun heq => h ⟨hlt, heq⟩
      refine filter_set_of_neg (by simpa [hid] using hne) fun found hget => ?_
      rw [← stream_eq_of_getElem? hget]
      simpa using hne
    · change (l.registry.streams.set serial stream).filter _ = _
      rw [List.set_eq_of_length_le (Nat.le_of_not_lt hlt)]
      rfl
  · simp only [only, rank_put hid]
    rfl
  · simp only [only, isFor_put hid, seen_put hid]
    rfl

/-! ### Streams that leave -/

theorem only_remove (l : Ledger) (s : UInt64) :
    { l with registry := l.registry.remove s }.only s =
      { l.only s with registry := (l.only s).registry.remove s } := by
  refine ext_parts rfl rfl rfl rfl ?_ ?_ rfl rfl rfl
  · change ((l.registry.remove s).find? s).toList.map _ =
      ((l.find? s).toList.map _).filter fun entry : UInt64 × Nat => entry.1 != s
    rw [Registry.find?_remove_self, List.filter_map]
    simp
  · change (l.registry.pending.filter (· != s)).filter (· == s) =
      (l.registry.pending.filter (· == s)).filter (· != s)
    rw [List.filter_filter, List.filter_filter]
    exact List.filter_congr fun other _ => Bool.and_comm ..

theorem only_remove_of_ne (l : Ledger) (hne : id ≠ s) :
    { l with registry := l.registry.remove id }.only s = l.only s := by
  refine ext_parts rfl rfl rfl rfl ?_ ?_ rfl rfl rfl
  · change ((l.registry.remove id).find? s).toList.map _ = (l.find? s).toList.map _
    rw [Registry.find?_remove_of_ne _ hne.symm]
    rfl
  · change (l.registry.pending.filter (· != id)).filter (· == s) =
      l.registry.pending.filter (· == s)
    rw [List.filter_filter]
    refine List.filter_congr fun other _ => ?_
    by_cases heq : other = s
    · simp [heq, hne.symm]
    · simp [heq]

theorem only_sweep (sound : l.Sound) (s : UInt64) : (l.sweep s).only s = (l.only s).sweep s := by
  unfold sweep Registry.sweep
  have hfind : (l.only s).registry.find? s = (l.find? s).map (l.rank s) := find?_only l s
  rw [hfind]
  rcases hcurrent : l.registry.find? s with _ | serial
  · rw [show l.find? s = none from hcurrent]
    rfl
  · have hstream : (l.only s).registry.stream (l.rank s serial) = l.registry.stream serial :=
      (sound.of_find? hcurrent).stream_only
    rw [show l.find? s = some serial from hcurrent]
    simp only [Option.map_some, hstream]
    split
    · exact only_remove l s
    · rfl

theorem only_sweep_of_ne (l : Ledger) (hne : id ≠ s) : (l.sweep id).only s = l.only s := by
  rcases l.registry.sweep_eq id with ⟨heq, -⟩ | ⟨heq, -⟩
  · simp only [sweep, heq]
    exact only_remove_of_ne l hne
  · simp only [sweep, heq]

/-! ### Streams that begin -/

/-- The old streams keep their positions when there is one stream more. -/
theorem rank_create (stream : Stream) (hle : serial ≤ l.size) :
    { l with registry := (l.registry.create stream).1 }.rank s serial = l.rank s serial :=
  countPBefore_append hle _

theorem rank_create_self (l : Ledger) (s : UInt64) (stream : Stream) :
    { l with registry := (l.registry.create stream).1 }.rank s l.size = (l.only s).size := by
  rw [rank_create stream (Nat.le_refl _), rank, List.countPBefore_length,
    List.countP_eq_length_filter]
  rfl

theorem handles_only_create (sound : l.Sound) (stream : Stream) :
    ({ l with registry := (l.registry.create stream).1 }.only s).handles = (l.only s).handles := by
  have hfor : l.handles.filter ({ l with registry := (l.registry.create stream).1 }.isFor s) =
      l.handles.filter (l.isFor s) := by
    refine List.filter_congr fun handle hmem => ?_
    have hold : (l.registry.create stream).1.stream handle.serial = l.stream handle.serial :=
      Registry.stream_create_of_lt stream (sound.held_lt hmem)
    simp only [isFor, Ledger.stream, hold]
  simp only [only, hfor]
  refine List.map_congr_left fun handle hmem => ?_
  rw [seen, seen, rank_create stream (Nat.le_of_lt (sound.held_lt (List.mem_of_mem_filter hmem)))]

theorem only_create (sound : l.Sound) (hid : stream.id = s) :
    { l with registry := (l.registry.create stream).1 }.only s =
      { l.only s with registry := ((l.only s).registry.create stream).1 } := by
  refine ext_parts rfl rfl rfl ?_ ?_ rfl ?_ rfl rfl
  · change (l.registry.streams ++ [stream]).filter _ = l.registry.streams.filter _ ++ [stream]
    simp [hid]
  · change ((l.registry.create stream).1.find? s).toList.map _ =
      ((l.find? s).toList.map _).filter (fun entry : UInt64 × Nat => entry.1 != stream.id) ++
        [(stream.id, (l.registry.streams.filter _).length)]
    rw [Registry.find?_create, if_pos hid.symm, Option.toList_some, List.map_singleton,
      rank_create_self, List.filter_map, hid, List.filter_eq_nil_iff.mpr (by simp)]
    rfl
  · exact handles_only_create sound stream

theorem only_create_of_ne (sound : l.Sound) (hne : stream.id ≠ s) :
    { l with registry := (l.registry.create stream).1 }.only s = l.only s := by
  refine ext_parts rfl rfl rfl ?_ ?_ rfl ?_ rfl rfl
  · change (l.registry.streams ++ [stream]).filter _ = l.registry.streams.filter _
    simp [hne]
  · change ((l.registry.create stream).1.find? s).toList.map _ = (l.find? s).toList.map _
    rw [Registry.find?_create, if_neg hne.symm]
    refine List.map_congr_left fun serial hmem => ?_
    rw [rank_create stream (Nat.le_of_lt (sound.current (Option.mem_toList.mp hmem)).1)]
  · exact handles_only_create sound stream

theorem only_register (sound : l.Sound) (ids : Ids) :
    (l.register s ids).only s = (l.only s).register s ids := by
  have hcreate := only_create sound (rfl : (Stream.start s .opener l.settings.queueLimit).id = s)
  exact congrArg (fun begun : Ledger => { begun with ids }) hcreate

theorem only_register_of_ne (sound : l.Sound) (hne : id ≠ s) (ids : Ids) :
    (l.register id ids).only s = { l.only s with ids } := by
  have hother : (Stream.start id .opener l.settings.queueLimit).id ≠ s := hne
  have hcreate := only_create_of_ne sound hother
  exact congrArg (fun begun : Ledger => { begun with ids }) hcreate

theorem only_welcome (sound : l.Sound) (s : UInt64) :
    (l.welcome s).only s = (l.only s).welcome s := by
  have hcreate := only_create sound (rfl : (Stream.start s .acceptor l.settings.queueLimit).id = s)
  refine ext_parts rfl rfl rfl ?_ ?_ ?_ ?_ rfl rfl
  · exact congrArg (·.registry.streams) hcreate
  · exact congrArg (·.registry.entries) hcreate
  · change (l.registry.pending ++ [s]).filter _ = l.registry.pending.filter _ ++ [s]
    simp
  · exact congrArg (·.handles) hcreate

theorem only_welcome_of_ne (sound : l.Sound) (hne : id ≠ s) :
    (l.welcome id).only s = l.only s := by
  have hother : (Stream.start id .acceptor l.settings.queueLimit).id ≠ s := hne
  have hcreate := only_create_of_ne sound hother
  refine ext_parts rfl rfl rfl ?_ ?_ ?_ ?_ rfl rfl
  · exact congrArg (·.registry.streams) hcreate
  · exact congrArg (·.registry.entries) hcreate
  · change (l.registry.pending ++ [id]).filter _ = l.registry.pending.filter _
    simp [hne]
  · exact congrArg (·.handles) hcreate

/-! ### Handles -/

theorem only_hold (h : l.Of s serial) (label : Option String) :
    (l.hold serial label).only s = (l.only s).hold (l.rank s serial) label := by
  refine ext_parts rfl rfl rfl rfl rfl rfl ?_ rfl rfl
  have hfor : l.isFor s ⟨serial, label, true⟩ = true := by simp [isFor, h.2]
  change ((l.handles ++ [Handle.mk serial label true]).filter (l.isFor s)).map (l.seen s) =
    (l.handles.filter (l.isFor s)).map (l.seen s) ++ [l.seen s ⟨serial, label, true⟩]
  simp [hfor]

theorem only_hold_of_ne (hne : (l.stream serial).id ≠ s) (label : Option String) :
    (l.hold serial label).only s = l.only s := by
  refine ext_parts rfl rfl rfl rfl rfl rfl ?_ rfl rfl
  have hfor : l.isFor s ⟨serial, label, true⟩ = false := by simp [isFor, hne]
  change ((l.handles ++ [Handle.mk serial label true]).filter (l.isFor s)).map (l.seen s) =
    (l.handles.filter (l.isFor s)).map (l.seen s)
  simp [hfor]

theorem only_accept (h : l.Of s serial) :
    (l.accept s serial).only s = (l.only s).accept s (l.rank s serial) := by
  have hhold := only_hold h none
  refine ext_parts rfl rfl rfl rfl rfl ?_ ?_ rfl rfl
  · exact List.erase_filter.symm
  · exact congrArg (·.handles) hhold

theorem only_accept_of_ne (hne : id ≠ s) (hid : (l.stream serial).id = id) :
    (l.accept id serial).only s = l.only s := by
  have hhold : (l.hold serial none).only s = l.only s := only_hold_of_ne (hid ▸ hne) none
  refine ext_parts rfl rfl rfl rfl rfl ?_ ?_ rfl rfl
  · change (l.registry.pending.erase id).filter _ = l.registry.pending.filter _
    rw [← List.erase_filter, List.erase_of_not_mem (by simp [hne])]
  · exact congrArg (·.handles) hhold

/-- The place of one of the handles for a number, by its position among them. -/
def place (l : Ledger) (s : UInt64) (nth : Nat) : Nat := l.handles.findIdxNth (l.isFor s) nth

theorem getElem?_handles_only (l : Ledger) (s : UInt64) (nth : Nat) :
    (l.only s).handles[nth]? = l.handles[l.place s nth]?.map (l.seen s) := by
  change ((l.handles.filter (l.isFor s)).map (l.seen s))[nth]? = _
  rw [List.getElem?_map, getElem?_filter]
  rfl

theorem isFor_of_place {nth : Nat} {handle : Handle}
    (h : l.handles[l.place s nth]? = some handle) : l.isFor s handle = true := by
  rw [place, ← getElem?_filter] at h
  exact (List.mem_filter.mp (List.mem_of_getElem? h)).2

theorem holder?_only (l : Ledger) (s : UInt64) (nth : Nat) :
    (l.only s).holder? nth = (l.holder? (l.place s nth)).map (l.seen s) := by
  rw [holder?, holder?, getElem?_handles_only]
  rcases l.handles[l.place s nth]? with _ | ⟨serial, label, _ | _⟩ <;> rfl

theorem of_holder? (sound : l.Sound) {nth : Nat} {handle : Handle}
    (h : l.holder? (l.place s nth) = some handle) : l.Of s handle.serial := by
  obtain ⟨hplace, -⟩ := Option.filter_eq_some_iff.mp h
  exact ⟨sound.held_lt (List.mem_of_getElem? hplace), by simpa [isFor] using isFor_of_place hplace⟩

theorem only_drop (sound : l.Sound) {nth : Nat} {handle : Handle}
    (h : l.holder? (l.place s nth) = some handle) :
    (l.drop (l.place s nth) handle).only s = (l.only s).drop nth (l.seen s handle) := by
  have hof := of_holder? sound h
  obtain ⟨dropped, hdropped⟩ : ∃ dropped : Ledger, dropped =
      { l with handles := l.handles.set (l.place s nth) { handle with live := false } } := ⟨_, rfl⟩
  have hkept : dropped.only s = { l.only s with
      handles := (l.only s).handles.set nth { l.seen s handle with live := false } } := by
    rw [hdropped]
    refine ext_parts rfl rfl rfl rfl rfl rfl ?_ rfl rfl
    change ((l.handles.set _ _).filter (l.isFor s)).map (l.seen s) =
      ((l.handles.filter (l.isFor s)).map (l.seen s)).set nth _
    rw [place, filter_set_findIdxNth (by simp [isFor, hof.2]), List.map_set]
    rfl
  have hstream : (l.only s).stream (l.seen s handle).serial = l.stream handle.serial :=
    hof.stream_only
  have hcurrent : ((l.only s).find? s == some (l.seen s handle).serial) =
      (l.find? s == some handle.serial) := by
    rw [find?_only]
    rcases hfind : l.find? s with _ | serial
    · rfl
    · have hinj : l.rank s serial = l.rank s handle.serial ↔ serial = handle.serial :=
        ⟨(sound.of_find? hfind).rank_inj hof, congrArg _⟩
      rw [Bool.eq_iff_iff]
      simp only [beq_iff_eq, Option.map_some, Option.some.injEq]
      exact hinj
  unfold drop
  rw [hstream, hof.2, hcurrent, ← hdropped]
  simp only
  split
  · have hremove := only_remove dropped s
    rw [hkept] at hremove
    rw [← hremove, hdropped]
  · exact hkept

theorem only_drop_of_ne {place : Nat} {handle : Handle} (hplace : l.handles[place]? = some handle)
    (hne : (l.stream handle.serial).id ≠ s) : (l.drop place handle).only s = l.only s := by
  have hkept : { l with handles := l.handles.set place { handle with live := false } }.only s =
      l.only s := by
    refine ext_parts rfl rfl rfl rfl rfl rfl ?_ rfl rfl
    change ((l.handles.set _ _).filter (l.isFor s)).map (l.seen s) =
      (l.handles.filter (l.isFor s)).map (l.seen s)
    rw [filter_set_of_neg (by simp [isFor, hne])]
    intro other hother
    rw [hplace] at hother
    cases hother
    simp [isFor, hne]
  unfold drop
  simp only
  split
  · exact (only_remove_of_ne _ hne).trans hkept
  · exact hkept

end Ledger

end StreamMux
