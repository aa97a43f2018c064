import StreamMux.Proofs.Session.Arrivals
import StreamMux.Proofs.Session.History
import StreamMux.Proofs.Session.Lineage

/-!
# Which streams of the peer are accepted

A stream of the peer is accepted when a frame announces it, whether or not data came for it before,
and never again.  There is a handle for it from then on, held by the handler, or dropped already if
the handler could not be started.

* `Ledger.Receiving.handles` — a frame adds a handle exactly for a stream that it announces;
* `Mux.Announces` — an operation applies a frame that announces a stream of the peer that nobody has
  accepted yet, and `Mux.Misstarts`: its handler cannot be started;
* `Mux.dispatch` — an operation accepts exactly the streams that it announces.
-/

namespace StreamMux

namespace Ledger

variable {l l' : Ledger} {gone fails : Bool} {frame : Frame} {out : List Frame}

/-! ### Announcements on ledgers -/

/-- A frame announces a stream of the peer: a current one without a handle, or one that begins with
the frame. -/
structure Announces (l : Ledger) (frame : Frame) (serial : Nat) : Prop where
  up : l.tornDown = false
  newStream : frame.kind? = some .newStream
  foreign : l.side.owns frame.id = false
  stream : l.find? frame.id = some serial ∧ ¬ l.Held serial ∨
    l.find? frame.id = none ∧ serial = l.size

instance (l : Ledger) (frame : Frame) (serial : Nat) : Decidable (l.Announces frame serial) :=
  decidable_of_iff
    (l.tornDown = false ∧ frame.kind? = some .newStream ∧ l.side.owns frame.id = false ∧
      (l.find? frame.id = some serial ∧ (∀ handle ∈ l.handles, handle.serial ≠ serial) ∨
        l.find? frame.id = none ∧ serial = l.size))
    ⟨fun ⟨up, newStream, foreign, stream⟩ => ⟨up, newStream, foreign, stream.imp_left
        (And.imp_right fun hfree ⟨handle, hmem, heq⟩ => hfree handle hmem heq)⟩,
      fun h => ⟨h.up, h.newStream, h.foreign, h.stream.imp_left
        (And.imp_right fun hfree handle hmem heq => hfree ⟨handle, hmem, heq⟩)⟩⟩

theorem Announces.inj {serial other : Nat} (h : l.Announces frame serial)
    (h' : l.Announces frame other) : serial = other := by
  rcases h.stream with ⟨hfind, -⟩ | ⟨hfind, rfl⟩ <;>
    rcases h'.stream with ⟨hfind', -⟩ | ⟨hfind', rfl⟩
  · exact Option.some.inj (hfind.symm.trans hfind')
  · cases hfind.symm.trans hfind'
  · cases hfind.symm.trans hfind'
  · rfl

theorem announces_of_new (sound : l.Sound) (up : l.tornDown = false)
    (is : frame.kind? = some .newStream) (new : l.find? frame.id = none)
    (foreign : l.ids.owns frame.id = false) : l.Announces frame l.size :=
  ⟨up, is, sound.owns_eq frame.id ▸ foreign, Or.inr ⟨new, rfl⟩⟩

theorem announces_of_pending (sound : l.Sound) (up : l.tornDown = false)
    (is : frame.kind? = some .newStream) {serial : Nat} (current : l.find? frame.id = some serial)
    (pending : frame.id ∈ l.registry.pending) : l.Announces frame serial := by
  obtain ⟨waiting, hfind, hrole, hfree⟩ := sound.waiting pending
  cases hfind.symm.trans current
  obtain ⟨hlt, hid⟩ := sound.current current
  refine ⟨up, is, ?_, Or.inl ⟨current, hfree⟩⟩
  -- whoever waits was not opened here
  rw [← sound.owns_eq, ← hid, ← Bool.not_eq_true]
  intro hown
  have hopener := (sound.role_iff hlt).mpr hown
  rw [hrole] at hopener
  cases hopener

theorem not_announces_of_reserved (reserved : frame.kind? = none) (serial : Nat) :
    ¬ l.Announces frame serial := fun hann => by cases reserved.symm.trans hann.newStream

theorem not_announces_of_ne {kind : Kind} (is : frame.kind? = some kind) (h : kind ≠ .newStream)
    (serial : Nat) : ¬ l.Announces frame serial := fun hann =>
  h (Option.some.inj (is.symm.trans hann.newStream))

theorem not_announces_of_refused (sound : l.Sound)
    (why : l.tornDown = true ∨ l.find? frame.id = none ∧ l.ids.owns frame.id = true)
    (serial : Nat) : ¬ l.Announces frame serial := by
  intro hann
  rcases why with htorn | ⟨-, hown⟩
  · cases hann.up.symm.trans htorn
  · cases hann.foreign.symm.trans ((sound.owns_eq frame.id).symm.trans hown)

theorem not_announces_of_accepted (sound : l.Sound) {serial : Nat}
    (current : l.find? frame.id = some serial) (accepted : frame.id ∉ l.registry.pending)
    (other : Nat) : ¬ l.Announces frame other := by
  intro hann
  rcases hann.stream with ⟨hfind, hfree⟩ | ⟨hnone, -⟩
  · exact (sound.held hfind).elim accepted hfree
  · cases hnone.symm.trans current

/-! ### The handles that frames add -/

theorem Queueing.handles {serial : Nat} {payload : Bytes}
    (h : l.Queueing gone serial payload out l') : l'.handles = l.handles := by
  cases h with
  | full data live full cutting => exact cutting.handles
  | _ => rfl

theorem Dispatching.handles {id : UInt64} {serial : Nat} {payload : Bytes}
    (h : l.Dispatching gone fails id serial payload out l') :
    l'.handles = l.handles ++ [{ serial, label := none, live := !fails }] ∧
      (fails = true → (l'.stream serial).isOver = true) := by
  cases h with
  | called starts queueing =>
    subst starts
    exact ⟨queueing.handles, by simp⟩
  | unstarted stuck cutting =>
    subst stuck
    exact ⟨cutting.handles.trans (handles_misstart ..), fun _ => cutting.isOver⟩

/-- Whatever becomes of a pending stream that is announced, it keeps its role and its number. -/
theorem Dispatching.accepts {id : UInt64} {serial : Nat} {payload : Bytes}
    (h : l.Dispatching gone fails id serial payload out l') (pending : id ∈ l.registry.pending)
    (current : l.find? id = some serial) (hlt : serial < l.size)
    (hrole : (l.stream serial).role = .acceptor) (hid : (l.stream serial).id = id) :
    l'.handles = l.handles ++ [{ serial, label := none, live := !fails }] ∧
      (fails = true → (l'.stream serial).isOver = true) ∧
      (l'.stream serial).role = .acceptor ∧ (l'.stream serial).id = id := by
  have horigin := (h.moves pending current).origin_eq hlt
  exact ⟨h.handles.1, h.handles.2, (Stream.role_eq_of_origin horigin).trans hrole,
    (Stream.id_eq_of_origin horigin).trans hid⟩

/-- A frame adds a handle exactly for a stream that it announces.  If the handle is dropped already,
the stream is over. -/
theorem Receiving.handles (h : l.Receiving gone fails frame out l') (sound : l.Sound) :
    (∃ serial, l.Announces frame serial ∧
      l'.handles = l.handles ++ [{ serial, label := none, live := !fails }] ∧
      (fails = true → (l'.stream serial).isOver = true) ∧
      (l'.stream serial).role = .acceptor ∧ (l'.stream serial).id = frame.id) ∨
    ((∀ serial, ¬ l.Announces frame serial) ∧ l'.handles = l.handles) := by
  cases h with
  | reserved kind => exact Or.inr ⟨not_announces_of_reserved kind, rfl⟩
  | refused is opens why => exact Or.inr ⟨not_announces_of_refused sound why, rfl⟩
  | crowded is message up new foreign sending =>
    refine Or.inr ⟨not_announces_of_ne is (Kind.ending?_of_isMessage message).2, ?_⟩
    cases sending <;> rfl
  | began is up new foreign dispatching =>
    have hself := stream_welcome_self l frame.id
    have hlt : l.size < (l.welcome frame.id).size :=
      (size_welcome l frame.id).symm ▸ l.size.lt_add_one
    exact Or.inl ⟨l.size, announces_of_new sound up is new foreign,
      dispatching.accepts (List.mem_append_right _ (List.mem_singleton_self _))
        (by rw [find?_welcome, if_pos rfl]) hlt (by rw [hself]; rfl) (by rw [hself]; rfl)⟩
  | @announced serial out l' is up current pending dispatching =>
    obtain ⟨waiting, hfind, hrole, -⟩ := sound.waiting pending
    cases hfind.symm.trans current
    obtain ⟨hlt, hid⟩ := sound.current current
    exact Or.inl ⟨serial, announces_of_pending sound up is current pending,
      dispatching.accepts pending current hlt hrole hid⟩
  | repeated is up current accepted queueing =>
    exact Or.inr ⟨not_announces_of_accepted sound current accepted, queueing.handles⟩
  | early is message up new foreign queueing =>
    exact Or.inr ⟨not_announces_of_ne is (Kind.ending?_of_isMessage message).2,
      queueing.handles⟩
  | data is message up current queueing =>
    exact Or.inr ⟨not_announces_of_ne is (Kind.ending?_of_isMessage message).2,
      queueing.handles⟩
  | lost is ends isOver =>
    exact Or.inr ⟨not_announces_of_ne is (Kind.isMessage_of_ending? ends).2, rfl⟩
  | ended is ends current live =>
    exact Or.inr ⟨not_announces_of_ne is (Kind.isMessage_of_ending? ends).2, rfl⟩

end Ledger

namespace Mux

variable {m m' : Mux}

/-! ### What one operation accepts -/

/-- An operation applies a frame that announces a stream of the peer: a current one for which there
never was a handle, or one that begins with the frame. -/
structure Announces (m : Mux) (op : Op) (frame : Frame) (serial : Nat) : Prop where
  turn : op = .turn
  upcoming : m.upcoming? = some frame
  newStream : frame.kind? = some .newStream
  up : m.tornDown = false
  foreign : m.side.owns frame.id = false
  stream : m.registry.find? frame.id = some serial ∧ serial ∉ m.ledger.serials ∨
    m.registry.find? frame.id = none ∧ serial = m.registry.streams.length

/-- An operation announces a stream, and its handler cannot be started. -/
def Misstarts (m : Mux) (op : Op) (serial : Nat) : Prop :=
  m.conditions.failStart.isSome = true ∧ ∃ frame, m.Announces op frame serial

theorem announces_iff {op : Op} {frame : Frame} {serial : Nat} : m.Announces op frame serial ↔
    op = .turn ∧ m.upcoming? = some frame ∧ m.ledger.Announces frame serial := by
  constructor
  · rintro ⟨hop, hupcoming, hnew, hup, hforeign, hstream⟩
    exact ⟨hop, hupcoming, hup, hnew, hforeign,
      hstream.imp_left (And.imp_right fun hnot hheld => hnot (Ledger.mem_serials_iff.mpr hheld))⟩
  · rintro ⟨hop, hupcoming, hup, hnew, hforeign, hstream⟩
    exact ⟨hop, hupcoming, hnew, hup, hforeign,
      hstream.imp_left (And.imp_right fun hnot hmem => hnot (Ledger.mem_serials_iff.mp hmem))⟩

theorem Announces.inj {op : Op} {frame other : Frame} {serial found : Nat}
    (h : m.Announces op frame serial) (h' : m.Announces op other found) : serial = found := by
  cases h.upcoming.symm.trans h'.upcoming
  exact (announces_iff.mp h).2.2.inj (announces_iff.mp h').2.2

theorem Announces.not_held (sound : m.ledger.Sound) {op : Op} {frame : Frame} {serial : Nat}
    (h : m.Announces op frame serial) : ∀ handle ∈ m.handles, handle.serial ≠ serial := by
  rintro handle hmem rfl
  rcases h.stream with ⟨-, hfree⟩ | ⟨-, heq⟩
  · exact hfree (List.mem_map.mpr ⟨handle, hmem, rfl⟩)
  · exact absurd heq (Nat.ne_of_lt (sound.held_lt hmem))

/-- What an operation does about the streams that it announces. -/
inductive Dispatch (m : Mux) (op : Op) (m' : Mux) : Prop where
  | accepted (frame : Frame) (serial : Nat) (announces : m.Announces op frame serial)
      (greets : m.Greets [{ serial, label := none, live := !m.conditions.failStart.isSome }] m')
      (isOver : m.conditions.failStart.isSome = true → (m'.registry.stream serial).isOver = true)
      (role : (m'.registry.stream serial).role = .acceptor)
      (number : (m'.registry.stream serial).id = frame.id)
  | silent (others : ∀ frame serial, ¬ m.Announces op frame serial)
      (arrivals : m'.arrivals = m.arrivals)
      (handles : op = .turn → m.Greets [] m')

theorem dispatch (sound : m.ledger.Sound) (op : Op) : m.Dispatch op (m.perform op).1 := by
  by_cases hop : op = .turn
  swap
  · exact .silent (fun _ _ hann => hop hann.turn) (m.silent_perform hop).1.arrivals
      fun h => absurd h hop
  subst hop
  simp only [perform]
  rcases hturn : m.turn with _ | after
  · refine .silent (fun _ _ hann => ?_) rfl fun _ => .refl m
    have hupcoming := hann.upcoming
    rw [upcoming?_of_turn_eq_none hturn] at hupcoming
    cases hupcoming
  · simp only [Option.getD_some]
    obtain ⟨made, hgreets⟩ := greets_turn hturn
    rcases @turn_cases m after 0 hturn with ⟨frame, rest, hupcoming, -, rfl⟩ | ⟨hnone, -⟩
    · obtain ⟨out, l, hreceiving, hleads⟩ :=
        receives { m with assembler := ⟨rest⟩, loop := .ready } frame
      generalize Mux.receive _ frame = after at hgreets hleads ⊢
      have hledger := hleads.ledger
      -- what the session notes and what the ledger does add the same handles
      rcases hreceiving.handles sound with
        ⟨serial, hann, hhandles, hover, hrole, hid⟩ | ⟨hnot, hhandles⟩
      · rw [← hledger] at hhandles hover hrole hid
        obtain rfl := List.append_cancel_left (hgreets.handles.symm.trans hhandles)
        exact .accepted frame serial (announces_iff.mpr ⟨rfl, hupcoming, hann⟩) hgreets hover hrole
          hid
      · have hnew : made = [] := by
          rw [← hledger] at hhandles
          exact List.append_cancel_left
            ((hgreets.handles.symm.trans hhandles).trans (List.append_nil _).symm)
        subst hnew
        refine .silent (fun other serial hann => ?_) (by simpa using hgreets.arrivals)
          fun _ => hgreets
        cases hupcoming.symm.trans hann.upcoming
        exact hnot serial (announces_iff.mp hann).2.2
    · have hquiet := (quiet_turn hturn hnone).greets
      refine .silent (fun _ _ hann => ?_) (by simpa using hquiet.arrivals) fun _ => hquiet
      cases hnone.symm.trans hann.upcoming

theorem accepted_of_announces (sound : m.ledger.Sound) {op : Op} {frame : Frame} {serial : Nat}
    (h : m.Announces op frame serial) :
    m.Greets [{ serial, label := none, live := !m.conditions.failStart.isSome }] (m.perform op).1 ∧
      (m.conditions.failStart.isSome = true →
        ((m.perform op).1.registry.stream serial).isOver = true) ∧
      ((m.perform op).1.registry.stream serial).role = .acceptor ∧
      ((m.perform op).1.registry.stream serial).id = frame.id := by
  cases dispatch sound op with
  | accepted other found announces greets isOver role number =>
    obtain rfl := h.inj announces
    cases h.upcoming.symm.trans announces.upcoming
    exact ⟨greets, isOver, role, number⟩
  | silent others arrivals handles => exact absurd h (others frame serial)

/-- A new handle that comes dropped is one for which no handler could be started. -/
theorem misstarts_of_dead (sound : m.ledger.Sound) {new : List Handle}
    (h : (m.perform .turn).1.handles = m.handles ++ new) {handle : Handle} (hmem : handle ∈ new)
    (hdead : handle.live = false) : m.Misstarts .turn handle.serial := by
  cases dispatch sound .turn with
  | accepted frame serial announces greets isOver role number =>
    obtain rfl := List.append_cancel_left (h.symm.trans greets.handles)
    obtain rfl := List.mem_singleton.mp hmem
    exact ⟨by simpa using hdead, frame, announces⟩
  | silent others arrivals handles =>
    obtain rfl := List.append_cancel_left (h.symm.trans (handles rfl).handles)
    cases hmem

end Mux

end StreamMux
