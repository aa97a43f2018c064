import StreamMux.Proofs.Session.Alike
import StreamMux.Proofs.Session.Run

/-!
# What never changes

A stream keeps its number, its role and its capacity for good, a handle its stream, and a session
its settings.

* `Ledger.Extends` — what a move does to the entries and handles that are there already;
* `Stream.origin` — a stream as it began, and `Mux.Step.origin_eq`: it stays so;
* `Stream.KeepsEnd` — a stream keeps its end, and `Mux.Step.keepsEnd`: one that is over does;
* `Mux.Step.serials` — handles are added, and never lead to another stream;
* `Mux.settings_run` — a session keeps the settings that it began with.
-/

namespace StreamMux

/-- The stream as it began. -/
def Stream.origin (stream : Stream) : Stream :=
  { stream with ending := none, severed := false, queue := [] }

namespace Stream

variable {stream other : Stream}

theorem id_eq_of_origin (h : stream.origin = other.origin) : stream.id = other.id := by
  change stream.origin.id = other.origin.id
  rw [h]

theorem role_eq_of_origin (h : stream.origin = other.origin) : stream.role = other.role := by
  change stream.origin.role = other.origin.role
  rw [h]

theorem farewell_eq_of_origin (h : stream.origin = other.origin) (ending : Ending) :
    stream.farewell ending = other.farewell ending := by
  rw [farewell, farewell, id_eq_of_origin h, role_eq_of_origin h]

end Stream

/-- A stream keeps its end, though it may be severed as well. -/
structure Stream.KeepsEnd (stream after : Stream) : Prop where
  ending : after.ending = stream.ending
  severed : stream.severed = true → after.severed = true

namespace Stream.KeepsEnd

variable {stream after last : Stream}

theorem of_eq (h : after = stream) : stream.KeepsEnd after := h ▸ ⟨rfl, fun hsevered => hsevered⟩

theorem trans (h : stream.KeepsEnd after) (h' : after.KeepsEnd last) : stream.KeepsEnd last :=
  ⟨h'.ending.trans h.ending, fun hsevered => h'.severed (h.severed hsevered)⟩

theorem isOver (h : stream.KeepsEnd after) (hover : stream.isOver = true) :
    after.isOver = true := by
  rw [isOver_iff] at hover ⊢
  rw [h.ending]
  exact hover.imp_right h.severed

end Stream.KeepsEnd

namespace Ledger

variable {l l' l'' : Ledger}

/-! ### What moves leave alone -/

/-- What moves do to entries and handles that are there already. -/
structure Extends (l l' : Ledger) : Prop where
  size_le : l.size ≤ l'.size
  current : ∀ {id serial}, serial < l.size → l'.find? id = some serial → l.find? id = some serial
  handles : ∃ new, l'.handles = l.handles ++ new

theorem Extends.trans (h : l.Extends l') (h' : l'.Extends l'') : l.Extends l'' := by
  obtain ⟨new, heq⟩ := h.handles
  obtain ⟨newer, heq'⟩ := h'.handles
  exact ⟨h.size_le.trans h'.size_le, fun hlt hfind =>
    h.current hlt (h'.current (Nat.lt_of_lt_of_le hlt h.size_le) hfind), new ++ newer,
    by rw [heq', heq, List.append_assoc]⟩

theorem Extends.of_find? (hsize : l'.size = l.size) (hhandles : l'.handles = l.handles)
    (hfind : ∀ {id serial}, l'.find? id = some serial → l.find? id = some serial) :
    l.Extends l' :=
  ⟨hsize.ge, fun _ => hfind, [], by simp [hhandles]⟩

theorem find?_of_find?_tear {id : UInt64} {serial : Nat} (h : l.tear.find? id = some serial) :
    l.find? id = some serial := by
  rw [find?_tear] at h
  cases h

theorem extends_register (l : Ledger) (id : UInt64) (ids : Ids) :
    l.Extends (l.register id ids) := by
  refine ⟨by rw [size_register]; omega, ?_, [], by simp [register]⟩
  intro other serial hlt hfind
  rw [find?_register] at hfind
  split at hfind
  · cases hfind
    exact absurd hlt (Nat.lt_irrefl _)
  · exact hfind

theorem extends_hold (l : Ledger) (serial : Nat) (label : Option String) :
    l.Extends (l.hold serial label) :=
  ⟨Nat.le_refl _, fun _ => id, [{ serial, label }], rfl⟩

theorem Move.extends (h : Move l l') : l.Extends l' := by
  cases h with
  | opened label up draw => exact (extends_register l _ _).trans (extends_hold _ _ label)
  | openTorn up draw =>
    exact (extends_register l _ _).trans (.of_find? (size_tear _) rfl find?_of_find?_tear)
  | tear => exact .of_find? (size_tear l) rfl find?_of_find?_tear
  | finish ending live =>
    exact .of_find? ((size_sweep ..).trans (size_put ..)) rfl
      fun hfind => find?_of_sweep (l := l.finish _ ending) hfind
  | finishTorn ending live =>
    exact .of_find? ((size_tear _).trans (size_put ..)) rfl
      fun hfind => find?_of_find?_tear (l := l.finish _ ending) hfind
  | overflow serial => exact .of_find? rfl rfl id
  | push chunk live room => exact .of_find? (size_put ..) rfl id
  | pop front => exact .of_find? (size_put ..) rfl id
  | sweep other => exact .of_find? (size_sweep ..) rfl fun hfind => find?_of_sweep hfind
  | welcome up new foreign fits =>
    refine ⟨by rw [size_welcome]; omega, ?_, [], by simp [Ledger.welcome]⟩
    intro other serial hlt hfind
    rw [find?_welcome] at hfind
    split at hfind
    · cases hfind
      exact absurd hlt (Nat.lt_irrefl _)
    · exact hfind
  | accept pending current => exact ⟨Nat.le_refl _, fun _ => id, [_], rfl⟩
  | misstart pending current =>
    exact ⟨(size_misstart ..).ge, fun _ => find?_of_misstart, [_], handles_misstart ..⟩

theorem Moves.extends (h : Moves l l') : l.Extends l' := by
  induction h with
  | refl => exact .of_find? rfl rfl id
  | tail _ hmove ih => exact ih.trans hmove.extends

variable {serial : Nat}

/-! ### What streams keep -/

theorem Alike.origin_eq (h : l.Alike l') (serial : Nat) :
    (l'.stream serial).origin = (l.stream serial).origin := by
  simp only [Stream.origin, h.id, h.role, h.capacity]

theorem origin_eq_of_stream_eq (h : l'.stream serial = l.stream serial) :
    (l'.stream serial).origin = (l.stream serial).origin := congrArg Stream.origin h

theorem Move.origin_eq (h : Move l l') (hlt : serial < l.size) :
    (l'.stream serial).origin = (l.stream serial).origin := by
  cases h with
  | @opened id ids label up draw =>
    exact origin_eq_of_stream_eq (@stream_register_of_lt l id ids serial hlt)
  | @openTorn id ids up draw =>
    rw [(Alike.tear (l.register id ids)).origin_eq, stream_register_of_lt hlt]
  | tear => exact (Alike.tear l).origin_eq serial
  | finish ending live => exact ((Alike.finish l _ ending).trans (.sweep ..)).origin_eq serial
  | finishTorn ending live => exact ((Alike.finish l _ ending).trans (.tear _)).origin_eq serial
  | overflow other => rfl
  | @push other chunk live room =>
    have halike : l.Alike (l.push other chunk) := .put rfl rfl rfl id
    exact halike.origin_eq serial
  | @pop other chunk queue front =>
    have halike : l.Alike (l.pop other queue) := .put rfl rfl rfl id
    exact halike.origin_eq serial
  | sweep id => exact (Alike.sweep l id).origin_eq serial
  | welcome up new foreign fits => rw [stream_welcome_of_lt hlt]
  | accept pending current => rfl
  | misstart pending current => exact origin_eq_of_stream_eq (stream_misstart ..)

theorem Moves.origin_eq (h : Moves l l') (hlt : serial < l.size) :
    (l'.stream serial).origin = (l.stream serial).origin := by
  induction h with
  | refl => rfl
  | tail hmoves hmove ih =>
    rw [hmove.origin_eq (Nat.lt_of_lt_of_le hlt (Moves.extends hmoves).size_le), ih]

theorem keepsEnd_tear (l : Ledger) (serial : Nat) :
    (l.stream serial).KeepsEnd (l.tear.stream serial) := by
  rcases l.stream_tear serial with heq | heq <;> rw [heq]
  · exact .of_eq rfl
  · exact ⟨rfl, fun _ => rfl⟩

/-- What is put in place of an open stream is put in place of no stream that is over. -/
theorem keepsEnd_put {stream : Stream} {other : Nat} (live : (l.stream other).isOver = false)
    (hover : (l.stream serial).isOver = true) :
    (l.stream serial).KeepsEnd ((l.put other stream).stream serial) := by
  refine .of_eq (stream_put_of_ne ?_)
  rintro rfl
  rw [live] at hover
  cases hover

theorem Move.keepsEnd (h : Move l l') (hlt : serial < l.size)
    (hover : (l.stream serial).isOver = true) : (l.stream serial).KeepsEnd (l'.stream serial) := by
  cases h with
  | @opened id ids label up draw => exact .of_eq (@stream_register_of_lt l id ids serial hlt)
  | @openTorn id ids up draw =>
    have hregister : (l.register id ids).stream serial = l.stream serial :=
      stream_register_of_lt hlt
    exact .trans (.of_eq hregister) (keepsEnd_tear _ serial)
  | tear => exact keepsEnd_tear l serial
  | finish ending live =>
    rw [stream_sweep]
    exact keepsEnd_put live hover
  | finishTorn ending live => exact .trans (keepsEnd_put live hover) (keepsEnd_tear _ serial)
  | overflow other => exact .of_eq rfl
  | push chunk live room => exact keepsEnd_put live hover
  | @pop other chunk queue front =>
    rcases l.stream_put other { l.stream other with queue } serial with ⟨rfl, heq⟩ | heq
    · rw [Ledger.pop, heq]
      exact ⟨rfl, id⟩
    · exact .of_eq heq
  | sweep id =>
    rw [stream_sweep]
    exact .of_eq rfl
  | welcome up new foreign fits => exact .of_eq (stream_welcome_of_lt hlt)
  | accept pending current => exact .of_eq rfl
  | misstart pending current => exact .of_eq (stream_misstart ..)

theorem Moves.keepsEnd (h : Moves l l') (hlt : serial < l.size)
    (hover : (l.stream serial).isOver = true) : (l.stream serial).KeepsEnd (l'.stream serial) := by
  induction h with
  | refl => exact .of_eq rfl
  | tail hmoves hmove ih =>
    exact ih.trans (hmove.keepsEnd (Nat.lt_of_lt_of_le hlt (Moves.extends hmoves).size_le)
      (ih.isOver hover))

theorem Move.settings_eq (h : Move l l') : l'.settings = l.settings := by
  cases h with
  | misstart pending current => exact settings_misstart ..
  | _ => rfl

theorem Moves.settings_eq (h : Moves l l') : l'.settings = l.settings := by
  induction h with
  | refl => rfl
  | tail _ hmove ih => exact hmove.settings_eq.trans ih

end Ledger

namespace Mux

variable {m m' : Mux} {op : Op}

theorem Step.origin_eq (h : m.Step op m') {serial : Nat} (hlt : serial < m.ledger.size) :
    (m'.ledger.stream serial).origin = (m.ledger.stream serial).origin := by
  rcases h.ledger with hmoves | ⟨place, handle, -, hplace, -, heq⟩
  · exact hmoves.origin_eq hlt
  · rw [heq]
    exact (Ledger.Alike.drop hplace).origin_eq serial

theorem Step.keepsEnd (h : m.Step op m') {serial : Nat} (hlt : serial < m.ledger.size)
    (hover : (m.ledger.stream serial).isOver = true) :
    (m.ledger.stream serial).KeepsEnd (m'.ledger.stream serial) := by
  rcases h.ledger with hmoves | ⟨place, handle, -, -, -, heq⟩
  · exact hmoves.keepsEnd hlt hover
  · rw [heq, Ledger.stream_drop]
    exact .of_eq rfl

theorem Step.serials (h : m.Step op m') :
    ∃ new, m'.ledger.serials = m.ledger.serials ++ new := by
  rcases h.ledger with hmoves | ⟨place, handle, -, hplace, -, heq⟩
  · obtain ⟨new, heq⟩ := hmoves.extends.handles
    exact ⟨new.map Handle.serial, by rw [Ledger.serials, heq, List.map_append]⟩
  · rw [heq]
    exact ⟨[], by rw [(Ledger.Alike.drop hplace).serials, List.append_nil]⟩

theorem Step.getElem?_kept {m m' : Mux} {op : Op} (h : m.Step op m') {place : Nat}
    {handle : Handle} (hplace : m.handles[place]? = some handle)
    (hop : handle.live = true → op ≠ .drop place) : m'.handles[place]? = some handle := by
  rcases h.ledger with hmoves | ⟨other, dropped, hdrop, hother, hlive, heq⟩
  · obtain ⟨new, heq⟩ := hmoves.extends.handles
    change m'.handles = m.handles ++ new at heq
    rw [heq, List.getElem?_append_left (List.getElem?_eq_some_iff.mp hplace).1, hplace]
  · have hhandles : m'.handles = _ := (congrArg Ledger.handles heq).trans (Ledger.handles_drop ..)
    have hne : other ≠ place := by
      rintro rfl
      cases hother.symm.trans hplace
      exact hop hlive hdrop
    rw [hhandles, List.getElem?_set_ne hne]
    exact hplace

theorem Step.settings_eq (h : m.Step op m') : m'.settings = m.settings := by
  rcases h.ledger with hmoves | ⟨place, handle, -, -, -, heq⟩
  · exact hmoves.settings_eq
  · exact (congrArg Ledger.settings heq).trans (Ledger.settings_drop ..)

theorem settings_run (side : Side) (settings : Settings) (ops : List Op) :
    (run side settings ops).settings = settings := by
  induction ops using List.reverseRecOn with
  | nil => rfl
  | append_singleton ops op ih =>
    rw [run_concat, (step (sound_run side settings ops) op).settings_eq, ih]

end Mux

end StreamMux
