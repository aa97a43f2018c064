import Mathlib.Data.List.Nodup
import StreamMux.Registry

/-!
# Streams and entries of a registry after each operation

Everything later is said through two views of a registry: `Registry.stream`, the stream with a
serial number, and `Registry.find?`, the serial number of the current stream with a number.  For
each operation the lemmas here say what it does to both.
-/

namespace StreamMux

/-! ### Streams -/

namespace Stream

@[simp] theorem isOver_sever (stream : Stream) : stream.sever.isOver = true :=
  isOver_iff.mpr (Or.inr rfl)

/-- Ending a stream by hand is what `terminate` does to one that is not over. -/
theorem terminate_eq {stream : Stream} (h : stream.isOver = false) (ending : Ending) :
    stream.terminate ending = ({ stream with ending := some ending }, true) := by
  simp [terminate, h]

@[simp] theorem isOver_ended (stream : Stream) (ending : Ending) :
    { stream with ending := some ending }.isOver = true :=
  isOver_iff.mpr (Or.inl (by simp))

@[simp] theorem isOver_queue (stream : Stream) (queue : List Bytes) :
    { stream with queue := queue }.isOver = stream.isOver := rfl

theorem state_eq_live_iff {stream : Stream} : stream.state = .live ↔ stream.isOver = false := by
  simp [isOver]

theorem ending_eq_none {stream : Stream} (h : stream.isOver = false) : stream.ending = none := by
  by_contra hended
  rw [isOver_iff.mpr (Or.inl hended)] at h
  cases h

theorem severed_eq_false {stream : Stream} (h : stream.isOver = false) :
    stream.severed = false := by
  by_contra hs
  rw [isOver_iff.mpr (Or.inr (by simpa using hs))] at h
  cases h

end Stream

namespace Registry

theorem isOver_absent : absent.isOver = true := rfl

theorem stream_of_le {registry : Registry} {serial : Nat} (h : registry.streams.length ≤ serial) :
    registry.stream serial = absent := by
  rw [stream, List.getD_eq_getElem?_getD, List.getElem?_eq_none h, Option.getD_none]

/-- Only serial numbers that were given out lead to streams that are not over. -/
theorem lt_of_not_isOver {registry : Registry} {serial : Nat}
    (h : (registry.stream serial).isOver = false) : serial < registry.streams.length := by
  by_contra hlt
  rw [stream_of_le (by omega), isOver_absent] at h
  cases h

/-! ### Putting a stream in place of another -/

@[simp] theorem length_update (registry : Registry) (serial : Nat) (stream : Stream) :
    (registry.update serial stream).streams.length = registry.streams.length :=
  List.length_set

theorem stream_update_self {registry : Registry} {serial : Nat} (stream : Stream)
    (h : serial < registry.streams.length) :
    (registry.update serial stream).stream serial = stream := by
  simp [update, Registry.stream, List.getD_eq_getElem?_getD, h]

theorem stream_update_of_ne (registry : Registry) {serial other : Nat} (stream : Stream)
    (h : other ≠ serial) :
    (registry.update serial stream).stream other = registry.stream other := by
  simp [update, Registry.stream, List.getD_eq_getElem?_getD, List.getElem?_set_ne h.symm]

/-- A stream put in place of another either stands there or, without such a place, changes
nothing. -/
theorem stream_update (registry : Registry) (serial : Nat) (stream : Stream) (other : Nat) :
    (other = serial ∧ (registry.update serial stream).stream other = stream) ∨
      (registry.update serial stream).stream other = registry.stream other := by
  by_cases hne : other = serial
  · subst hne
    by_cases hlt : other < registry.streams.length
    · exact Or.inl ⟨rfl, stream_update_self stream hlt⟩
    · right
      rw [stream_of_le (by simpa using hlt), stream_of_le (Nat.le_of_not_lt hlt)]
  · exact Or.inr (stream_update_of_ne registry stream hne)

/-! ### New streams -/

@[simp] theorem snd_create (registry : Registry) (stream : Stream) :
    (registry.create stream).2 = registry.streams.length := rfl

@[simp] theorem length_create (registry : Registry) (stream : Stream) :
    (registry.create stream).1.streams.length = registry.streams.length + 1 := by
  simp [create]

theorem stream_create_self (registry : Registry) (stream : Stream) :
    (registry.create stream).1.stream registry.streams.length = stream := by
  simp [create, Registry.stream, List.getD_eq_getElem?_getD]

theorem stream_create_of_lt {registry : Registry} (stream : Stream) {serial : Nat}
    (h : serial < registry.streams.length) :
    (registry.create stream).1.stream serial = registry.stream serial := by
  simp [create, Registry.stream, List.getD_eq_getElem?_getD, List.getElem?_append_left h]

theorem find?_create (registry : Registry) (stream : Stream) (other : UInt64) :
    (registry.create stream).1.find? other =
      if other = stream.id then some registry.streams.length else registry.find? other := by
  by_cases h : other = stream.id
  · rw [h, if_pos rfl, find?_create_self, snd_create]
  · rw [if_neg h, find?_create_of_ne registry h]

/-- A number without a current stream gets one, which is pending. -/
theorem findOrBegin_of_none {registry : Registry} {id : UInt64} (h : registry.find? id = none)
    (capacity : Nat) : registry.findOrBegin id capacity =
      ({ (registry.create (Stream.start id .acceptor capacity)).1 with
          pending := registry.pending ++ [id] }, registry.streams.length, true) := by
  simp [findOrBegin, h, create]

/-! ### Leaving -/

@[simp] theorem stream_remove (registry : Registry) (id : UInt64) (serial : Nat) :
    (registry.remove id).stream serial = registry.stream serial := rfl

theorem find?_remove (registry : Registry) (id other : UInt64) :
    (registry.remove id).find? other = if other = id then none else registry.find? other := by
  by_cases h : other = id
  · rw [h, if_pos rfl, find?_remove_self]
  · rw [if_neg h, find?_remove_of_ne registry h]

/-- Sweeping removes a current stream that is over and drained, and does nothing otherwise. -/
theorem sweep_eq (registry : Registry) (id : UInt64) :
    ((registry.sweep id).1 = registry.remove id ∧ ∃ serial, registry.find? id = some serial ∧
      (registry.stream serial).isOver = true ∧ (registry.stream serial).queue = []) ∨
    ((registry.sweep id).1 = registry ∧ ∀ serial, registry.find? id = some serial →
      (registry.stream serial).isOver = true → (registry.stream serial).queue ≠ []) := by
  unfold sweep
  split
  · rename_i hfind
    exact Or.inr ⟨rfl, by simp [hfind]⟩
  · rename_i serial hfind
    simp only
    split
    · rename_i hdone
      simp only [Stream.isDrained, Bool.and_eq_true, List.isEmpty_iff] at hdone
      exact Or.inl ⟨rfl, serial, hfind, hdone⟩
    · rename_i hdone
      refine Or.inr ⟨rfl, fun other hother hover hqueue => hdone ?_⟩
      rw [hfind] at hother
      cases hother
      simp [hover, Stream.isDrained, hqueue]

@[simp] theorem stream_sweep (registry : Registry) (id : UInt64) (serial : Nat) :
    (registry.sweep id).1.stream serial = registry.stream serial := by
  rcases sweep_eq registry id with ⟨h, -⟩ | ⟨h, -⟩ <;> simp [h]

@[simp] theorem length_sweep (registry : Registry) (id : UInt64) :
    (registry.sweep id).1.streams.length = registry.streams.length := by
  rcases sweep_eq registry id with ⟨h, -⟩ | ⟨h, -⟩ <;> simp [h, remove]

/-! ### Severing all current streams -/

/-- Severing the streams of some serial numbers, one after the other. -/
theorem stream_foldl_sever (serials : List Nat) (registry : Registry) (serial : Nat) :
    (serials.foldl (fun r s => r.update s (r.stream s).sever) registry).stream serial =
        (if serial ∈ serials then (registry.stream serial).sever else registry.stream serial) ∧
      (serials.foldl (fun r s => r.update s (r.stream s).sever) registry).streams.length =
        registry.streams.length ∧
      (serials.foldl (fun r s => r.update s (r.stream s).sever) registry).entries =
        registry.entries ∧
      (serials.foldl (fun r s => r.update s (r.stream s).sever) registry).pending =
        registry.pending := by
  induction serials generalizing registry with
  | nil => simp
  | cons first others ih =>
    obtain ⟨hstream, hlength, hentries, hpending⟩ :=
      ih (registry.update first (registry.stream first).sever)
    rw [List.foldl_cons]
    refine ⟨?_, by rw [hlength, length_update], hentries, hpending⟩
    rw [hstream]
    by_cases heq : serial = first
    · subst heq
      by_cases hlt : serial < registry.streams.length
      · rw [stream_update_self _ hlt]
        simp [Stream.sever]
      · rw [stream_of_le (by simpa using hlt), stream_of_le (by omega)]
        simp [Stream.sever, absent]
    · rw [stream_update_of_ne _ _ heq]
      simp [heq]

theorem mem_map_clear (registry : Registry) (serial : Nat) :
    serial ∈ registry.clear.2 ↔ serial ∈ registry.entries.map (·.2) := by
  simp only [clear, List.mem_map]
  constructor <;> rintro ⟨entry, hmem, rfl⟩
  · exact ⟨entry, List.mem_mergeSort.mp hmem, rfl⟩
  · exact ⟨entry, List.mem_mergeSort.mpr hmem, rfl⟩

/-- Severing severs the streams of all entries, and keeps no entry. -/
theorem stream_sever (registry : Registry) (serial : Nat) :
    registry.sever.1.stream serial =
      if serial ∈ registry.entries.map (·.2) then (registry.stream serial).sever
      else registry.stream serial := by
  have h := (stream_foldl_sever registry.clear.2 registry.clear.1 serial).1
  simp only [mem_map_clear] at h
  exact h

@[simp] theorem length_sever (registry : Registry) :
    registry.sever.1.streams.length = registry.streams.length :=
  (stream_foldl_sever registry.clear.2 registry.clear.1 0).2.1

@[simp] theorem entries_sever (registry : Registry) : registry.sever.1.entries = [] :=
  (stream_foldl_sever registry.clear.2 registry.clear.1 0).2.2.1

@[simp] theorem pending_sever (registry : Registry) : registry.sever.1.pending = [] :=
  (stream_foldl_sever registry.clear.2 registry.clear.1 0).2.2.2

@[simp] theorem find?_sever (registry : Registry) (id : UInt64) :
    registry.sever.1.find? id = none := by
  simp [find?]

theorem mem_entries_of_find? {registry : Registry} {id : UInt64} {serial : Nat}
    (h : registry.find? id = some serial) : (id, serial) ∈ registry.entries := by
  unfold find? at h
  obtain ⟨before, after, heq, -⟩ := List.lookup_eq_some_iff.mp h
  simp [heq]

/-! ### One entry for a number -/

theorem nodup_keys_create {registry : Registry} (h : (registry.entries.map (·.1)).Nodup)
    (stream : Stream) : ((registry.create stream).1.entries.map (·.1)).Nodup := by
  simp only [create, List.map_append, List.map_cons, List.map_nil]
  refine List.nodup_append.mpr
    ⟨List.Nodup.sublist (List.filter_sublist.map _) h, List.nodup_singleton _, ?_⟩
  intro key hmem new hnew heq
  obtain ⟨entry, hentry, rfl⟩ := List.mem_map.mp hmem
  rw [List.mem_singleton.mp hnew] at heq
  have hne := (List.mem_filter.mp hentry).2
  simp [heq] at hne

theorem nodup_keys_remove {registry : Registry} (h : (registry.entries.map (·.1)).Nodup)
    (id : UInt64) : ((registry.remove id).entries.map (·.1)).Nodup :=
  List.Nodup.sublist (List.filter_sublist.map _) h

theorem find?_of_mem {entries : List (UInt64 × Nat)} (h : (entries.map (·.1)).Nodup)
    {id : UInt64} {serial : Nat} (hmem : (id, serial) ∈ entries) :
    entries.lookup id = some serial := by
  induction entries with
  | nil => cases hmem
  | cons entry others ih =>
    obtain ⟨key, first⟩ := entry
    rw [List.map_cons, List.nodup_cons] at h
    rcases List.mem_cons.mp hmem with heq | hrest
    · cases heq
      simp
    · have hne : (id == key) = false := by
        rw [beq_eq_false_iff_ne]
        rintro rfl
        exact h.1 (List.mem_map.mpr ⟨_, hrest, rfl⟩)
      rw [List.lookup_cons, hne]
      exact ih h.2 hrest

end Registry

end StreamMux
