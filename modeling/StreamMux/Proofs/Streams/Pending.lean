import StreamMux.Proofs.Streams.Queue

/-!
# Which streams are pending

A registry is used through calls, which come in any order and with any stream numbers.  Between them
the streams that it gave out, current or not, are used through calls of their own.

* `Registry.Tidy` — what every call keeps of the entries and the pending numbers;
* `Registry.pending_serve` — a number becomes pending only by the call that began its stream, and
  is announced once for each such call;
* `Registry.pending_consistent` — the pending numbers stay consistent with the entries.
-/

namespace StreamMux.Registry

variable {registry : Registry} {id : UInt64}

/-! ### Calls on a registry -/

/-- What is asked of a registry, or of a stream that it gave out. -/
inductive Call where
  | beginLocal (id : UInt64) (capacity : Nat)
  | findOrBegin (id : UInt64) (capacity : Nat)
  | announce (id : UInt64)
  | remove (id : UInt64)
  | sweep (id : UInt64)
  | clear
  | ask (serial : Nat) (call : Stream.Call)
  deriving DecidableEq, Repr

/-- What is answered.  Streams are given out by their serial numbers. -/
inductive Reply where
  | began (serial : Nat)
  | found (serial : Nat) (new : Bool)
  | announced (waited : Bool)
  | removed (serial : Option Nat)
  | swept (gone : Bool)
  | cleared (serials : List Nat)
  | answered (reply : Stream.Reply)
  deriving DecidableEq, Repr

/-- Makes a call. -/
def serve (registry : Registry) : Call → Registry × Reply
  | .beginLocal id capacity =>
    ((registry.beginLocal id capacity).1, .began (registry.beginLocal id capacity).2)
  | .findOrBegin id capacity =>
    ((registry.findOrBegin id capacity).1,
      .found (registry.findOrBegin id capacity).2.1 (registry.findOrBegin id capacity).2.2)
  | .announce id => ((registry.announce id).1, .announced (registry.announce id).2)
  | .remove id => (registry.remove id, .removed (registry.find? id))
  | .sweep id => ((registry.sweep id).1, .swept (registry.sweep id).2)
  | .clear => (registry.clear.1, .cleared registry.clear.2)
  | .ask serial call =>
    (registry.update serial ((registry.stream serial).serve call).1,
      .answered ((registry.stream serial).serve call).2)

/-- Whether a call began a stream of the peer's with a number. -/
def begins (id : UInt64) : Call × Reply → Bool
  | (.findOrBegin other _, .found _ new) => new && other == id
  | _ => false

/-- Whether a call announced the stream with a number. -/
def announces (id : UInt64) : Call × Reply → Bool
  | (.announce other, .announced waited) => waited && other == id
  | _ => false

/-! ### What every call keeps -/

/-- Entries and pending numbers agree. -/
structure Tidy (registry : Registry) : Prop where
  /-- Every number has one entry at most. -/
  keys : (registry.entries.map (·.1)).Nodup
  /-- An entry leads to a stream of its number. -/
  entry : ∀ {id serial}, registry.find? id = some serial →
    serial < registry.streams.length ∧ (registry.stream serial).id = id
  once : registry.pending.Nodup
  /-- A pending number has an entry. -/
  current : ∀ {id}, id ∈ registry.pending → ∃ serial, registry.find? id = some serial

namespace Tidy

theorem create (h : registry.Tidy) (stream : Stream) : (registry.create stream).1.Tidy where
  keys := nodup_keys_create h.keys stream
  entry {id serial} hfind := by
    rw [find?_create] at hfind
    rw [length_create]
    split at hfind
    · rename_i heq
      cases hfind
      exact ⟨Nat.lt_succ_self _, by rw [stream_create_self, heq]⟩
    · obtain ⟨hlt, hid⟩ := h.entry hfind
      exact ⟨Nat.lt_succ_of_lt hlt, by rw [stream_create_of_lt _ hlt, hid]⟩
  once := h.once
  current {id} hmem := by
    rw [find?_create]
    split
    · exact ⟨_, rfl⟩
    · exact h.current hmem

theorem findOrBegin (h : registry.Tidy) (id : UInt64) (capacity : Nat) :
    (registry.findOrBegin id capacity).1.Tidy := by
  rcases hfind : registry.find? id with _ | serial
  · rw [findOrBegin_of_none hfind]
    have hcreate := h.create (Stream.start id .acceptor capacity)
    have hnew : id ∉ registry.pending := by
      intro hmem
      obtain ⟨serial, hserial⟩ := h.current hmem
      cases hfind.symm.trans hserial
    refine ⟨hcreate.keys, hcreate.entry, ?_, ?_⟩
    · exact List.nodup_append.mpr ⟨h.once, List.nodup_singleton id, by
        rintro a ha b hb rfl
        exact hnew (List.mem_singleton.mp hb ▸ ha)⟩
    · intro other hmem
      rcases List.mem_append.mp hmem with hold | hlast
      · exact hcreate.current hold
      · obtain rfl := List.mem_singleton.mp hlast
        exact ⟨_, find?_create_self registry (Stream.start other .acceptor capacity)⟩
  · simp only [Registry.findOrBegin, hfind]
    exact h

theorem announce (h : registry.Tidy) (id : UInt64) : (registry.announce id).1.Tidy := by
  unfold Registry.announce
  split
  · exact ⟨h.keys, h.entry, h.once.erase id, fun hmem => h.current (List.mem_of_mem_erase hmem)⟩
  · exact h

theorem remove (h : registry.Tidy) (id : UInt64) : (registry.remove id).Tidy where
  keys := nodup_keys_remove h.keys id
  entry {other serial} hfind := by
    rw [find?_remove] at hfind
    split at hfind
    · cases hfind
    · exact h.entry hfind
  once := h.once.filter _
  current {other} hmem := by
    obtain ⟨hmem, hne⟩ := List.mem_filter.mp hmem
    rw [find?_remove_of_ne registry (by simpa using hne)]
    exact h.current hmem

theorem sweep (h : registry.Tidy) (id : UInt64) : (registry.sweep id).1.Tidy := by
  rcases registry.sweep_eq id with ⟨heq, -⟩ | ⟨heq, -⟩
  · rw [heq]
    exact h.remove id
  · rw [heq]
    exact h

theorem update (h : registry.Tidy) {serial : Nat} {stream : Stream}
    (hid : stream.id = (registry.stream serial).id) : (registry.update serial stream).Tidy where
  keys := h.keys
  entry {id found} hfind := by
    obtain ⟨hlt, hsame⟩ := h.entry hfind
    refine ⟨Nat.lt_of_lt_of_eq hlt (length_update ..).symm, ?_⟩
    rcases registry.stream_update serial stream found with ⟨rfl, heq⟩ | heq <;> rw [heq]
    · exact hid.trans hsame
    · exact hsame
  once := h.once
  current := h.current

theorem clear (registry : Registry) : registry.clear.1.Tidy where
  keys := List.nodup_nil
  entry hfind := by cases hfind
  once := List.nodup_nil
  current hmem := by cases hmem

theorem serve (h : registry.Tidy) (call : Call) : (registry.serve call).1.Tidy := by
  cases call with
  | beginLocal id capacity => exact h.create _
  | findOrBegin id capacity => exact h.findOrBegin id capacity
  | announce id => exact h.announce id
  | remove id => exact h.remove id
  | sweep id => exact h.sweep id
  | clear => exact clear registry
  | ask serial call => exact h.update (Stream.served _ call).id

end Tidy

/-! ### Beginning and announcing -/

section Call

variable (registry)

theorem snd_findOrBegin_iff (id : UInt64) (capacity : Nat) :
    (registry.findOrBegin id capacity).2.2 = true ↔ registry.find? id = none := by
  rcases hfind : registry.find? id with _ | serial
  · simp [findOrBegin_of_none hfind]
  · simp [findOrBegin, hfind]

/-- A stream is new exactly if its number has no entry, and only then becomes pending. -/
theorem pending_findOrBegin (id : UInt64) (capacity : Nat) :
    (registry.findOrBegin id capacity).1.pending =
      if (registry.findOrBegin id capacity).2.2 then registry.pending ++ [id]
      else registry.pending := by
  rcases hfind : registry.find? id with _ | serial
  · simp [findOrBegin_of_none hfind]
  · simp [findOrBegin, hfind]

theorem snd_announce_iff (id : UInt64) :
    (registry.announce id).2 = true ↔ id ∈ registry.pending := by
  unfold announce
  split
  · rename_i hmem
    simpa using hmem
  · rename_i hmem
    simpa using hmem

theorem pending_announce (id : UInt64) :
    (registry.announce id).1.pending = registry.pending.erase id := by
  unfold announce
  split
  · rfl
  · rename_i hmem
    exact (List.erase_of_not_mem (by simpa using hmem)).symm

theorem snd_sweep_iff (id : UInt64) :
    (registry.sweep id).2 = true ↔ ∃ serial, registry.find? id = some serial ∧
      (registry.stream serial).state ≠ .live ∧ (registry.stream serial).queue = [] := by
  unfold sweep
  rcases hfind : registry.find? id with _ | serial
  · simp
  · by_cases hdone : (registry.stream serial).isOver = true ∧ (registry.stream serial).queue = []
    · simp [Stream.state_eq_live_iff, Stream.isDrained, hdone]
    · simp [Stream.state_eq_live_iff, Stream.isDrained, hdone]

theorem fst_sweep (id : UInt64) :
    (registry.sweep id).1 = if (registry.sweep id).2 then registry.remove id else registry := by
  unfold sweep
  split
  · rfl
  · simp only
    split <;> rfl

/-- A stream is begun for the peer exactly if its number has no entry. -/
theorem begins_iff (call : Call) (id : UInt64) :
    begins id (call, (registry.serve call).2) = true ↔
      ∃ capacity, call = .findOrBegin id capacity ∧ registry.find? id = none := by
  cases call with
  | findOrBegin other capacity =>
    simp only [begins, serve, Bool.and_eq_true, beq_iff_eq, snd_findOrBegin_iff]
    constructor
    · rintro ⟨hnew, rfl⟩
      exact ⟨capacity, rfl, hnew⟩
    · rintro ⟨_, heq, hnew⟩
      cases heq
      exact ⟨hnew, rfl⟩
  | _ => simp [begins]

theorem announces_iff (call : Call) (id : UInt64) :
    announces id (call, (registry.serve call).2) = true ↔
      call = .announce id ∧ id ∈ registry.pending := by
  cases call with
  | announce other =>
    simp only [announces, serve, Bool.and_eq_true, beq_iff_eq, snd_announce_iff]
    constructor
    · rintro ⟨hmem, rfl⟩
      exact ⟨rfl, hmem⟩
    · rintro ⟨heq, hmem⟩
      cases heq
      exact ⟨hmem, rfl⟩
  | _ => simp [announces]

/-- Only a stream that is begun for the peer adds to the pending numbers. -/
theorem count_pending_le (call : Call) {id : UInt64}
    (h : ¬ begins id (call, (registry.serve call).2) = true) :
    (registry.serve call).1.pending.count id ≤ registry.pending.count id := by
  cases call with
  | findOrBegin other capacity =>
    simp only [serve, pending_findOrBegin]
    split
    · rename_i hnew
      have hne : other ≠ id := by
        rintro rfl
        exact h (by simp [begins, serve, hnew])
      have hother : [other].count id = 0 := List.count_eq_zero.mpr (by simpa using Ne.symm hne)
      exact Nat.le_of_eq (by rw [List.count_append, hother, Nat.add_zero])
    · exact Nat.le_refl _
  | announce other =>
    simp only [serve, pending_announce]
    exact List.Sublist.count_le id List.erase_sublist
  | remove other => exact List.Sublist.count_le id List.filter_sublist
  | sweep other =>
    simp only [serve, fst_sweep]
    split
    · exact List.Sublist.count_le id List.filter_sublist
    · exact Nat.le_refl _
  | clear => exact Nat.zero_le _
  | beginLocal | ask => exact Nat.le_refl _

/-- **A number becomes pending only by the call that begins its stream, and is announced no more
often than that.**  What is announced was pending and is so no longer. -/
theorem count_pending_serve (call : Call) (id : UInt64) :
    [(call, (registry.serve call).2)].countP (announces id) +
        (registry.serve call).1.pending.count id ≤
      registry.pending.count id + [(call, (registry.serve call).2)].countP (begins id) := by
  rw [List.countP_singleton, List.countP_singleton]
  by_cases hbegins : begins id (call, (registry.serve call).2) = true
  · obtain ⟨capacity, rfl, hnew⟩ := (registry.begins_iff call id).mp hbegins
    have hother : ¬ announces id (.findOrBegin id capacity,
        (registry.serve (.findOrBegin id capacity)).2) = true := by simp [announces]
    rw [if_pos hbegins, if_neg hother, Nat.zero_add]
    simp [serve, findOrBegin_of_none hnew]
  rw [if_neg hbegins, Nat.add_zero]
  by_cases hannounces : announces id (call, (registry.serve call).2) = true
  · obtain ⟨rfl, hmem⟩ := (registry.announces_iff call id).mp hannounces
    have hpos := List.count_pos_iff.mpr hmem
    rw [if_pos hannounces, serve, pending_announce, List.count_erase_self]
    omega
  · rw [if_neg hannounces, Nat.zero_add]
    exact registry.count_pending_le call hbegins

end Call

/-! ### After calls -/

/-- A new registry, after calls. -/
def used (calls : List Call) : Dialogue Registry Call Reply := .play serve {} calls

theorem used_concat (calls : List Call) (last : Call) :
    (used (calls ++ [last])).state = ((used calls).state.serve last).1 := by
  rw [used, Dialogue.play_concat]
  rfl

theorem tidy_used (calls : List Call) : (used calls).state.Tidy := by
  induction calls using List.reverseRecOn with
  | nil => exact Tidy.clear {}
  | append_singleton calls last ih =>
    rw [used_concat]
    exact ih.serve last

/-- From any registry on, a number is announced at most once for each time that a stream with it was
begun for the peer, and once more if it was pending already. -/
theorem announced_le (registry : Registry) (calls : List Call) (id : UInt64) :
    (Dialogue.play serve registry calls).record.countP (announces id) +
        (Dialogue.play serve registry calls).state.pending.count id ≤
      registry.pending.count id +
        (Dialogue.play serve registry calls).record.countP (begins id) := by
  induction calls using List.reverseRecOn with
  | nil => exact Nat.le_of_eq (Nat.add_comm ..)
  | append_singleton calls last ih =>
    have hlast := (Dialogue.play serve registry calls).state.count_pending_serve last id
    rw [Dialogue.play_concat]
    simp only [Dialogue.call, List.countP_append]
    omega

/-- A number is pending since the call that began its stream. -/
def PendingSince (calls : List Call) (id : UInt64) : Prop :=
  ∃ before capacity since, calls = before ++ .findOrBegin id capacity :: since ∧
    (used before).state.find? id = none ∧ ∀ part, part <+: since →
      id ∈ (used (before ++ .findOrBegin id capacity :: part)).state.pending

theorem pendingSince {calls : List Call} {id : UInt64} (h : id ∈ (used calls).state.pending) :
    PendingSince calls id := by
  induction calls using List.reverseRecOn with
  | nil => cases h
  | append_singleton calls last ih =>
    have hstays := h
    rw [used_concat] at h
    by_cases hbegins : begins id (last, ((used calls).state.serve last).2) = true
    · obtain ⟨capacity, rfl, hnew⟩ := (begins_iff _ last id).mp hbegins
      refine ⟨calls, capacity, [], rfl, hnew, ?_⟩
      intro part hpart
      rw [List.prefix_nil.mp hpart]
      exact hstays
    · have hcount := count_pending_le _ last hbegins
      have hbefore : id ∈ (used calls).state.pending :=
        List.count_pos_iff.mp (Nat.lt_of_lt_of_le (List.count_pos_iff.mpr h) hcount)
      obtain ⟨before, capacity, since, rfl, hnew, hall⟩ := ih hbefore
      refine ⟨before, capacity, since ++ [last], by simp, hnew, ?_⟩
      intro part hpart
      rcases List.prefix_concat_iff.mp hpart with rfl | hpart
      · simpa using hstays
      · exact hall part hpart

/-! ### Everything together -/

theorem Tidy.nodup_clear (h : registry.Tidy) : registry.clear.2.Nodup := by
  have hserials : (registry.entries.map (·.2)).Nodup := by
    refine h.keys.of_map.map_on ?_
    rintro ⟨id, serial⟩ hmem ⟨other, _⟩ hother rfl
    -- an entry leads to a stream of its number, so two entries for one stream are the same
    have hid := (h.entry (find?_of_mem h.keys hmem)).2
    have hid' := (h.entry (find?_of_mem h.keys hother)).2
    rw [← hid, ← hid']
  have hperm : registry.clear.2.Perm (registry.entries.map (·.2)) :=
    (List.mergeSort_perm registry.entries _).map _
  exact hperm.nodup_iff.mpr hserials

theorem Tidy.mem_clear_iff (h : registry.Tidy) (serial : Nat) :
    serial ∈ registry.clear.2 ↔ ∃ id, registry.find? id = some serial := by
  rw [mem_map_clear, List.mem_map]
  constructor
  · rintro ⟨⟨id, found⟩, hmem, rfl⟩
    exact ⟨id, find?_of_mem h.keys hmem⟩
  · rintro ⟨id, hfind⟩
    exact ⟨_, mem_entries_of_find? hfind, rfl⟩

/-- What can be relied on of a registry, after calls on it. -/
structure Consistent (calls : List Call) (after : Registry) : Prop where
  once : after.pending.Nodup
  /-- A pending number has an entry, -/
  entry : ∀ id ∈ after.pending, ∃ serial, after.find? id = some serial
  /-- and was made pending by the call that began its stream for the peer. -/
  since : ∀ id ∈ after.pending, PendingSince calls id
  new_iff : ∀ id capacity,
    (∃ serial, (after.serve (.findOrBegin id capacity)).2 = .found serial true) ↔
      after.find? id = none
  announced_iff : ∀ id, (after.serve (.announce id)).2 = .announced true ↔ id ∈ after.pending
  /-- Only that number is taken out, and the others stay in their order. -/
  announced_rest : ∀ id, (after.serve (.announce id)).1 =
    { after with pending := after.pending.filter (· != id) }
  /-- From here on a number is announced at most once for each stream begun with it, -/
  announced_le : ∀ id more, (Dialogue.play serve after more).record.countP (announces id) ≤
    after.pending.count id + (Dialogue.play serve after more).record.countP (begins id)
  /-- and once announced, not again before the next one is begun. -/
  announced_once : ∀ id more,
    (Dialogue.play serve (after.serve (.announce id)).1 more).record.countP (begins id) = 0 →
      (Dialogue.play serve (after.serve (.announce id)).1 more).record.countP (announces id) = 0
  swept_iff : ∀ id, (after.serve (.sweep id)).2 = .swept true ↔
    ∃ serial, after.find? id = some serial ∧ (after.stream serial).state ≠ .live ∧
      (after.stream serial).queue = []
  /-- Only that entry goes, and only if it is said to. -/
  swept_entries : ∀ id other, (after.serve (.sweep id)).1.find? other =
    if other = id ∧ (after.serve (.sweep id)).2 = .swept true then none else after.find? other
  /-- All current streams are given out, each once. -/
  cleared : ∃ serials, (after.serve .clear).2 = .cleared serials ∧ serials.Nodup ∧
    ∀ serial, serial ∈ serials ↔ ∃ id, after.find? id = some serial
  emptied : (after.serve .clear).1 = { after with entries := [], pending := [] }

theorem fst_announce (h : registry.Tidy) (id : UInt64) :
    (registry.announce id).1 = { registry with pending := registry.pending.filter (· != id) } := by
  have hpending := registry.pending_announce id
  rw [h.once.erase_eq_filter] at hpending
  rw [← hpending]
  unfold announce
  split <;> rfl

/-- **The pending numbers stay consistent with the entries**, whatever is called on a registry and
on its streams, and in whatever order. -/
theorem pending_consistent (calls : List Call) : Consistent calls (used calls).state where
  once := (tidy_used calls).once
  entry _ := (tidy_used calls).current
  since _ := pendingSince
  new_iff id capacity := by
    rw [← snd_findOrBegin_iff _ id capacity]
    simp [serve]
  announced_iff id := by
    rw [← snd_announce_iff]
    simp [serve]
  announced_rest := fst_announce (tidy_used calls)
  announced_le id more := Nat.le_trans (Nat.le_add_right ..) (announced_le _ more id)
  announced_once id more hbegins := by
    have hle := announced_le ((used calls).state.serve (.announce id)).1 more id
    have hgone : ((used calls).state.serve (.announce id)).1.pending.count id = 0 := by
      rw [List.count_eq_zero, serve, pending_announce]
      exact (tidy_used calls).once.not_mem_erase
    omega
  swept_iff id := by
    rw [← snd_sweep_iff]
    simp [serve]
  swept_entries id other := by
    simp only [serve, fst_sweep, Reply.swept.injEq]
    by_cases hgone : ((used calls).state.sweep id).2 = true
    · simp [hgone, find?_remove]
    · simp [hgone]
  cleared := ⟨_, rfl, (tidy_used calls).nodup_clear, (tidy_used calls).mem_clear_iff⟩
  emptied := rfl

/-- A stream opened here takes over an entry, whose number stays pending until it is announced. -/
example : (used [.findOrBegin 3 4, .beginLocal 3 4, .announce 3, .announce 3, .findOrBegin 3 4,
    .clear]).record.map (·.2) =
      [.found 0 true, .began 1, .announced true, .announced false, .found 1 false,
        .cleared [1]] := by decide +kernel

end StreamMux.Registry
