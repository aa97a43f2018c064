import Mathlib.Logic.Relation
import StreamMux.Proofs.Session.Registry
import StreamMux.Session.Loop

/-!
# What a session knows about its streams

The *ledger* of a session is the part of its state that concerns streams: the numbers it has not yet
given out, the registry, the handles, and whether it was torn down.  Journal, counters, loop and
link are left out, so that most of what an operation does is invisible in the ledger.

`Ledger.Move` lists the moves that operations are made of, one constructor for each thing that can
happen to a ledger (dropping a handle apart, which is `Ledger.drop`).  The lemmas say what each of
them does to the streams (`Ledger.stream`) and to the entries (`Ledger.find?`).
-/

namespace StreamMux

/-- The number of the stream whose queue was found full, if that is what a note says. -/
def Note.overflow? : Note → Option UInt64
  | .queueFull id _ => some id
  | _ => none

/-- What a session knows about its streams. -/
structure Ledger where
  side : Side
  settings : Settings
  ids : Ids
  registry : Registry
  handles : List Handle
  tornDown : Bool
  /-- The numbers of the streams whose queue was found full. -/
  overflows : List UInt64

def Mux.ledger (m : Mux) : Ledger :=
  { side := m.side, settings := m.settings, ids := m.ids, registry := m.registry,
    handles := m.handles, tornDown := m.tornDown, overflows := m.notes.filterMap Note.overflow? }

namespace Ledger

variable {l l' : Ledger}

/-! ### Operations on a ledger -/

abbrev stream (l : Ledger) (serial : Nat) : Stream := l.registry.stream serial

/-- The serial number of the current stream with a number. -/
abbrev find? (l : Ledger) (id : UInt64) : Option Nat := l.registry.find? id

abbrev size (l : Ledger) : Nat := l.registry.streams.length

/-- A handle was given out for a stream. -/
def Held (l : Ledger) (serial : Nat) : Prop := ∃ handle ∈ l.handles, handle.serial = serial

/-- Puts a stream in place of the one with a serial number. -/
def put (l : Ledger) (serial : Nat) (stream : Stream) : Ledger :=
  { l with registry := l.registry.update serial stream }

def push (l : Ledger) (serial : Nat) (chunk : Bytes) : Ledger :=
  l.put serial { l.stream serial with queue := (l.stream serial).queue ++ [chunk] }

/-- The oldest chunk is taken, which leaves the rest of the queue. -/
def pop (l : Ledger) (serial : Nat) (queue : List Bytes) : Ledger :=
  l.put serial { l.stream serial with queue }

def finish (l : Ledger) (serial : Nat) (ending : Ending) : Ledger :=
  l.put serial { l.stream serial with ending := some ending }

/-- The queue of a stream was found full. -/
def overflow (l : Ledger) (serial : Nat) : Ledger :=
  { l with overflows := l.overflows ++ [(l.stream serial).id] }

/-- The current stream with a number goes if it is over and drained. -/
def sweep (l : Ledger) (id : UInt64) : Ledger :=
  { l with registry := (l.registry.sweep id).1 }

/-- All current streams are severed and go. -/
def tear (l : Ledger) : Ledger :=
  { l with registry := l.registry.sever.1, tornDown := true }

/-- This side takes up a stream with its next number. -/
def register (l : Ledger) (id : UInt64) (ids : Ids) : Ledger :=
  { l with ids, registry := (l.registry.beginLocal id l.settings.queueLimit).1 }

def hold (l : Ledger) (serial : Nat) (label : Option String) : Ledger :=
  { l with handles := l.handles ++ [{ serial, label }] }

/-- A stream of the peer is taken up, and waits to be accepted. -/
def welcome (l : Ledger) (id : UInt64) : Ledger :=
  { l with
    registry :=
      { (l.registry.create (Stream.start id .acceptor l.settings.queueLimit)).1 with
        pending := l.registry.pending ++ [id] } }

def accept (l : Ledger) (id : UInt64) (serial : Nat) : Ledger :=
  { l with registry := { l.registry with pending := l.registry.pending.erase id } }.hold serial none

/-- A handle is dropped; the stream goes too if it is over and still the current one. -/
def drop (l : Ledger) (place : Nat) (handle : Handle) : Ledger :=
  let dropped := { l with handles := l.handles.set place { handle with live := false } }
  if (l.stream handle.serial).isOver && l.find? (l.stream handle.serial).id == some handle.serial
  then { dropped with registry := l.registry.remove (l.stream handle.serial).id }
  else dropped

/-- A stream is accepted, and its handle dropped at once: the handler could not be started. -/
def misstart (l : Ledger) (id : UInt64) (serial : Nat) : Ledger :=
  (l.accept id serial).drop l.handles.length { serial, label := none }

/-- The moves that operations are made of. -/
inductive Move : Ledger → Ledger → Prop where
  | opened {l : Ledger} {id : UInt64} {ids : Ids} (label : Option String)
      (up : l.tornDown = false) (draw : l.ids.draw = .ok (id, ids)) :
      Move l ((l.register id ids).hold l.size label)
  /-- A stream is taken up, and the connection goes away before the peer is told of it. -/
  | openTorn {l : Ledger} {id : UInt64} {ids : Ids} (up : l.tornDown = false)
      (draw : l.ids.draw = .ok (id, ids)) : Move l (l.register id ids).tear
  | tear {l : Ledger} : Move l l.tear
  /-- A stream ends, by whatever side, and goes if it is drained. -/
  | finish {l : Ledger} {serial : Nat} (ending : Ending)
      (live : (l.stream serial).isOver = false) :
      Move l ((l.finish serial ending).sweep (l.stream serial).id)
  /-- A stream ends, and the connection goes away before the peer is told of it. -/
  | finishTorn {l : Ledger} {serial : Nat} (ending : Ending)
      (live : (l.stream serial).isOver = false) : Move l (l.finish serial ending).tear
  | overflow {l : Ledger} (serial : Nat) : Move l (l.overflow serial)
  | push {l : Ledger} {serial : Nat} (chunk : Bytes) (live : (l.stream serial).isOver = false)
      (room : (l.stream serial).queue.length < (l.stream serial).capacity) :
      Move l (l.push serial chunk)
  | pop {l : Ledger} {serial : Nat} {chunk : Bytes} {queue : List Bytes}
      (front : (l.stream serial).queue = chunk :: queue) : Move l (l.pop serial queue)
  /-- A reader finds the end of a stream. -/
  | sweep {l : Ledger} (id : UInt64) : Move l (l.sweep id)
  | welcome {l : Ledger} {id : UInt64} (up : l.tornDown = false) (new : l.find? id = none)
      (foreign : l.ids.owns id = false) (fits : id ≤ Header.maxId) : Move l (l.welcome id)
  | accept {l : Ledger} {id : UInt64} {serial : Nat} (pending : id ∈ l.registry.pending)
      (current : l.find? id = some serial) : Move l (l.accept id serial)
  | misstart {l : Ledger} {id : UInt64} {serial : Nat} (pending : id ∈ l.registry.pending)
      (current : l.find? id = some serial) : Move l (l.misstart id serial)

abbrev Moves : Ledger → Ledger → Prop := Relation.ReflTransGen Move

/-! ### Streams put in place of others -/

section Put

variable {serial : Nat} {stream : Stream}

@[simp] theorem size_put (l : Ledger) (serial : Nat) (stream : Stream) :
    (l.put serial stream).size = l.size :=
  Registry.length_update ..

theorem stream_put_self (hlt : serial < l.size) : (l.put serial stream).stream serial = stream :=
  Registry.stream_update_self stream hlt

theorem stream_put_of_ne {other : Nat} (hne : other ≠ serial) :
    (l.put serial stream).stream other = l.stream other :=
  Registry.stream_update_of_ne _ stream hne

/-- What is put in place of an open stream leaves one that is over alone. -/
theorem stream_put_of_isOver {other : Nat} (hlive : (l.stream serial).isOver = false)
    (hover : (l.stream other).isOver = true) :
    (l.put serial stream).stream other = l.stream other := by
  refine stream_put_of_ne ?_
  rintro rfl
  rw [hlive] at hover
  cases hover

theorem stream_put (l : Ledger) (serial : Nat) (stream : Stream) (other : Nat) :
    (other = serial ∧ (l.put serial stream).stream other = stream) ∨
      (l.put serial stream).stream other = l.stream other :=
  Registry.stream_update ..

theorem id_put (hid : stream.id = (l.stream serial).id) (other : Nat) :
    ((l.put serial stream).stream other).id = (l.stream other).id := by
  rcases l.stream_put serial stream other with ⟨rfl, h⟩ | h <;> rw [h]
  exact hid

theorem role_put (hrole : stream.role = (l.stream serial).role) (other : Nat) :
    ((l.put serial stream).stream other).role = (l.stream other).role := by
  rcases l.stream_put serial stream other with ⟨rfl, h⟩ | h <;> rw [h]
  exact hrole

theorem isOver_put (hover : (l.stream serial).isOver = true → stream.isOver = true) {other : Nat}
    (h : (l.stream other).isOver = true) : ((l.put serial stream).stream other).isOver = true := by
  rcases l.stream_put serial stream other with ⟨rfl, heq⟩ | heq <;> rw [heq]
  · exact hover h
  · exact h

end Put

theorem isOver_finish_self {serial : Nat} (hlive : (l.stream serial).isOver = false)
    (ending : Ending) : ((l.finish serial ending).stream serial).isOver = true := by
  rw [finish, stream_put_self (Registry.lt_of_not_isOver hlive)]
  exact Stream.isOver_ended _ _

/-! ### Teardown -/

theorem stream_tear (l : Ledger) (serial : Nat) :
    l.tear.stream serial = l.stream serial ∨ l.tear.stream serial = (l.stream serial).sever := by
  simp only [tear, stream, Registry.stream_sever]
  split
  · exact Or.inr rfl
  · exact Or.inl rfl

theorem id_tear (l : Ledger) (serial : Nat) :
    (l.tear.stream serial).id = (l.stream serial).id := by
  rcases l.stream_tear serial with h | h <;> rw [h]
  rfl

theorem role_tear (l : Ledger) (serial : Nat) :
    (l.tear.stream serial).role = (l.stream serial).role := by
  rcases l.stream_tear serial with h | h <;> rw [h]
  rfl

theorem queue_tear (l : Ledger) (serial : Nat) :
    (l.tear.stream serial).queue = (l.stream serial).queue := by
  rcases l.stream_tear serial with h | h <;> rw [h]
  rfl

theorem isOver_tear {serial : Nat} (h : (l.stream serial).isOver = true) :
    (l.tear.stream serial).isOver = true := by
  rcases l.stream_tear serial with heq | heq <;> rw [heq]
  · exact h
  · exact Stream.isOver_sever _

@[simp] theorem size_tear (l : Ledger) : l.tear.size = l.size :=
  Registry.length_sever l.registry

@[simp] theorem find?_tear (l : Ledger) (id : UInt64) : l.tear.find? id = none :=
  Registry.find?_sever l.registry id

theorem stream_tear_of_current {id : UInt64} {serial : Nat} (hfind : l.find? id = some serial) :
    l.tear.stream serial = (l.stream serial).sever := by
  simp only [tear, stream, Registry.stream_sever]
  rw [if_pos (List.mem_map.mpr ⟨_, Registry.mem_entries_of_find? hfind, rfl⟩)]

/-! ### Sweeping -/

@[simp] theorem size_sweep (l : Ledger) (id : UInt64) : (l.sweep id).size = l.size :=
  Registry.length_sweep ..

@[simp] theorem stream_sweep (l : Ledger) (id : UInt64) (serial : Nat) :
    (l.sweep id).stream serial = l.stream serial :=
  Registry.stream_sweep ..

theorem find?_of_sweep {id other : UInt64} {serial : Nat}
    (h : (l.sweep id).find? other = some serial) : l.find? other = some serial := by
  rcases l.registry.sweep_eq id with ⟨heq, -⟩ | ⟨heq, -⟩
  · simp only [sweep, find?, heq, Registry.find?_remove] at h
    split at h
    · cases h
    · exact h
  · simpa only [sweep, find?, heq] using h

/-! ### New streams -/

section New

variable {id : UInt64} {ids : Ids}

@[simp] theorem size_register (l : Ledger) (id : UInt64) (ids : Ids) :
    (l.register id ids).size = l.size + 1 :=
  Registry.length_create ..

theorem stream_register_self (l : Ledger) (id : UInt64) (ids : Ids) :
    (l.register id ids).stream l.size = Stream.start id .opener l.settings.queueLimit :=
  Registry.stream_create_self ..

theorem stream_register_of_lt {serial : Nat} (hlt : serial < l.size) :
    (l.register id ids).stream serial = l.stream serial :=
  Registry.stream_create_of_lt _ hlt

theorem find?_register (l : Ledger) (id : UInt64) (ids : Ids) (other : UInt64) :
    (l.register id ids).find? other = if other = id then some l.size else l.find? other :=
  Registry.find?_create ..

@[simp] theorem size_welcome (l : Ledger) (id : UInt64) : (l.welcome id).size = l.size + 1 :=
  Registry.length_create ..

theorem stream_welcome_self (l : Ledger) (id : UInt64) :
    (l.welcome id).stream l.size = Stream.start id .acceptor l.settings.queueLimit :=
  Registry.stream_create_self ..

theorem stream_welcome_of_lt {serial : Nat} (hlt : serial < l.size) :
    (l.welcome id).stream serial = l.stream serial :=
  Registry.stream_create_of_lt _ hlt

theorem find?_welcome (l : Ledger) (id other : UInt64) :
    (l.welcome id).find? other = if other = id then some l.size else l.find? other :=
  Registry.find?_create ..

/-- There is one stream more, and nothing else happens to streams. -/
structure Begins (l : Ledger) (stream : Stream) (l' : Ledger) : Prop where
  torn : l'.tornDown = l.tornDown
  settings : l'.settings = l.settings
  size : l'.size = l.size + 1
  old : ∀ {serial}, serial < l.size → l'.stream serial = l.stream serial
  new : l'.stream l.size = stream

theorem begins_register (l : Ledger) (id : UInt64) (ids : Ids) :
    l.Begins (.start id .opener l.settings.queueLimit) (l.register id ids) :=
  ⟨rfl, rfl, size_register l id ids, stream_register_of_lt, stream_register_self l id ids⟩

theorem begins_welcome (l : Ledger) (id : UInt64) :
    l.Begins (.start id .acceptor l.settings.queueLimit) (l.welcome id) :=
  ⟨rfl, rfl, size_welcome l id, stream_welcome_of_lt, stream_welcome_self l id⟩

theorem Begins.cases_of_lt {stream : Stream} (b : l.Begins stream l') {serial : Nat}
    (hlt : serial < l'.size) :
    serial < l.size ∧ l'.stream serial = l.stream serial ∨
      serial = l.size ∧ l'.stream serial = stream := by
  have hsize := b.size
  rcases Nat.lt_or_ge serial l.size with hold | hge
  · exact Or.inl ⟨hold, b.old hold⟩
  · obtain rfl : serial = l.size := by omega
    exact Or.inr ⟨rfl, b.new⟩

end New

/-! ### Dropping a handle -/

section Drop

variable (l : Ledger) (place : Nat) (handle : Handle)

@[simp] theorem tornDown_drop : (l.drop place handle).tornDown = l.tornDown := by
  unfold drop
  simp only
  split <;> rfl

@[simp] theorem settings_drop : (l.drop place handle).settings = l.settings := by
  unfold drop
  simp only
  split <;> rfl

@[simp] theorem stream_drop (serial : Nat) :
    (l.drop place handle).stream serial = l.stream serial := by
  unfold drop
  simp only
  split <;> rfl

@[simp] theorem size_drop : (l.drop place handle).size = l.size := by
  unfold drop
  simp only
  split <;> rfl

theorem handles_drop :
    (l.drop place handle).handles = l.handles.set place { handle with live := false } := by
  unfold drop
  simp only
  split <;> rfl

variable {l handle} in
theorem drop_of_live (hlive : (l.stream handle.serial).isOver = false) : l.drop place handle =
    { l with handles := l.handles.set place { handle with live := false } } := by
  simp [drop, hlive]

variable {l place handle} in
theorem find?_of_drop {id : UInt64} {serial : Nat}
    (h : (l.drop place handle).find? id = some serial) : l.find? id = some serial := by
  unfold drop at h
  simp only at h
  split at h
  · simp only [find?, Registry.find?_remove] at h
    split at h
    · cases h
    · exact h
  · exact h

end Drop

theorem map_serial_set {handles : List Handle} {place : Nat} {handle : Handle}
    (hplace : handles[place]? = some handle) :
    (handles.set place { handle with live := false }).map Handle.serial =
      handles.map Handle.serial := by
  obtain ⟨hlt, hget⟩ := List.getElem?_eq_some_iff.mp hplace
  apply List.ext_getElem?
  intro i
  by_cases hi : i = place
  · subst hi
    simp [hlt, hget]
  · simp [List.getElem?_set_ne (Ne.symm hi)]

theorem getElem?_handles_accept {id : UInt64} {serial : Nat} :
    (l.accept id serial).handles[l.handles.length]? = some { serial, label := none } := by
  simp [accept, hold]

section Misstart

variable (l : Ledger) (id : UInt64) (serial : Nat)

@[simp] theorem tornDown_misstart : (l.misstart id serial).tornDown = l.tornDown :=
  tornDown_drop ..

@[simp] theorem settings_misstart : (l.misstart id serial).settings = l.settings :=
  settings_drop ..

@[simp] theorem stream_misstart (other : Nat) :
    (l.misstart id serial).stream other = l.stream other :=
  stream_drop ..

@[simp] theorem size_misstart : (l.misstart id serial).size = l.size :=
  size_drop ..

theorem handles_misstart : (l.misstart id serial).handles =
    l.handles ++ [{ serial, label := none, live := false }] := by
  simp [misstart, handles_drop, accept, hold]

variable {l id serial} in
theorem find?_of_misstart {other : UInt64} {found : Nat}
    (h : (l.misstart id serial).find? other = some found) : l.find? other = some found :=
  find?_of_drop (l := l.accept id serial) h

end Misstart

theorem draw_eq {ids ids' : Ids} {id : UInt64} (h : ids.draw = .ok (id, ids')) :
    id = ids.next ∧ id ≤ Header.maxId ∧ ids'.next.toNat = id.toNat + 2 := by
  unfold Ids.draw at h
  split at h
  · cases h
  · rename_i hle
    cases h
    have hle := UInt64.not_lt.mp hle
    refine ⟨rfl, hle, ?_⟩
    rw [UInt64.le_iff_toNat_le] at hle
    simp only [Header.maxId, UInt64.reduceToNat] at hle
    rw [UInt64.toNat_add]
    simp only [UInt64.reduceToNat]
    omega

theorem owns_iff {ids : Ids} {id : UInt64} :
    ids.owns id = true ↔ id.toNat % 2 = ids.next.toNat % 2 := by
  simp only [Ids.owns, beq_iff_eq]
  rw [← UInt64.toNat_inj, UInt64.toNat_mod, UInt64.toNat_mod]
  simp only [UInt64.reduceToNat]

end Ledger

end StreamMux
