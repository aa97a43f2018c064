import StreamMux.Proofs.Network.Pipeline
import StreamMux.Proofs.Session.Calm
import StreamMux.Proofs.Session.Confined
import StreamMux.Proofs.Session.Dispatch

/-!
# Streams are isolated

On a link that takes everything, nothing that happens to the streams of other numbers matters to
the streams of one number.  Of a run of a session (`Mux.did`) only the deeds that concern the number
have to be kept, together with those that open streams, since these give the numbers out.

* `Mux.Twins` — two sessions that hold the same of one number, while one of them heard of no other
  number from the peer;
* `Mux.Twins.both`, `Mux.Twins.one` — they stay so when both do what concerns the number, and when
  the first one does anything else;
* `Mux.isolated` — what the streams of a number are and were, what their users are answered, which
  frames go out for them and when the handler is called is the same with and without the others.
-/

namespace StreamMux

namespace Mux

/-! ### Runs -/

/-- What happens to a session.  A handle is given by the number of its stream, and by its position
among the handles for that number. -/
inductive Deed where
  | openStream (label : Option String)
  | use (id : UInt64) (nth : Nat) (usage : Usage)
  /-- A frame of the peer is applied. -/
  | receive (frame : Frame) (fits : frame.Fits)

namespace Deed

/-- Whether a deed is done with the streams of a number.  Opening a stream may be. -/
def concerns (s : UInt64) : Deed → Bool
  | openStream _ => true
  | use id _ _ => id == s
  | receive frame _ => frame.id == s

/-- A deed opens a stream, or has nothing to do with some number. -/
theorem opens_or_passes (deed : Deed) :
    (∃ label, deed = openStream label) ∨ ∃ s, deed.concerns s = false := by
  have hother : ∀ id : UInt64, ∃ s, (id == s) = false := by
    intro id
    by_cases hzero : id = 0
    · exact ⟨1, by simp [hzero]⟩
    · exact ⟨0, by simp [hzero]⟩
  cases deed with
  | openStream label => exact Or.inl ⟨label, rfl⟩
  | use id nth usage => exact Or.inr (hother id)
  | receive frame fits => exact Or.inr (hother frame.id)

/-- No stream is refused for the pending ones. -/
def HasRoom (l : Ledger) : Deed → Prop
  | receive frame _ => ¬ l.Crowds frame
  | _ => True

end Deed

def deed (m : Mux) : Deed → Mux × Answer
  | .openStream label => m.perform (.openStream label)
  | .use id nth usage => m.perform (usage.op (m.ledger.place id nth))
  | .receive frame _ => (m.receive frame, .nothing)

/-- A session after some deeds. -/
def did (m : Mux) (deeds : List Deed) : Mux := deeds.foldl (fun m deed => (m.deed deed).1) m

/-- None of the deeds is refused for the pending streams. -/
def Roomy (m : Mux) : List Deed → Prop
  | [] => True
  | deed :: deeds => deed.HasRoom m.ledger ∧ (m.deed deed).1.Roomy deeds

/-- The streams of a number with which the handler was called, by their positions. -/
def called (m : Mux) (s : UInt64) : List Nat :=
  (m.handled.filter fun serial => (m.registry.stream serial).id == s).map (m.ledger.rank s)

end Mux

/-! ### What a deed does to ledgers -/

namespace Ledger

open Mux (Deed)

variable {l l' : Ledger} {s : UInt64}

/-- A deed is done. -/
def after (l : Ledger) : Deed → Ledger × List Frame
  | .openStream label => l.opened label
  | .use id nth usage => l.used (l.place id nth) usage
  | .receive frame _ => l.received frame

theorem fits_after (sound : l.Sound) (up : l.tornDown = false) (deed : Deed) :
    ∀ frame ∈ (l.after deed).2, frame.Fits := by
  cases deed with
  | openStream label => exact fits_opened l label
  | use id nth usage => exact fits_used sound _ usage
  | receive frame fits => exact fits_received sound up fits.id_le

/-- A deed that does not concern a number leaves what is kept of it alone. -/
theorem only_after_of_ne (sound : l.Sound) {deed : Deed} (hother : deed.concerns s = false) :
    restrict s (l.after deed) = (l.only s, []) := by
  cases deed with
  | openStream label => cases hother
  | use id nth usage =>
    have hne : id ≠ s := by simpa [Deed.concerns] using hother
    exact only_used_of_ne sound hne nth usage
  | receive frame fits =>
    have hne : frame.id ≠ s := by simpa [Deed.concerns] using hother
    exact only_received_of_ne sound hne

/-- What opening a stream does is decided by what is kept of any number. -/
theorem only_opened (sound : l.Sound) (s : UInt64) (label : Option String) :
    restrict s (l.opened label) =
      match (l.only s).ids.draw with
      | .error _ => (l.only s, [])
      | .ok (id, ids) =>
        if id = s then
          (((l.only s).register s ids).hold (l.only s).size label, [.ofKind s .newStream []])
        else ({ l.only s with ids }, []) := by
  unfold opened
  change _ = match l.ids.draw with
    | .error _ => (l.only s, [])
    | .ok (id, ids) => _
  rcases l.ids.draw with fault | ⟨id, ids⟩
  · rfl
  · have hnew : ((l.register id ids).stream l.size).id = id := by
      rw [stream_register_self]
      rfl
    simp only [restrict]
    split
    · rename_i hid
      subst hid
      have hof : (l.register id ids).Of id l.size := by
        refine ⟨?_, hnew⟩
        rw [size_register]
        exact Nat.lt_succ_self _
      have hrank : (l.register id ids).rank id l.size = (l.only id).size := rank_create_self l id _
      rw [only_hold hof, only_register sound, hrank]
      simp [Frame.ofKind]
    · rename_i hne
      rw [only_hold_of_ne (hnew.symm ▸ hne), only_register_of_ne sound hne]
      simp [Frame.ofKind, hne]

/-- A deed that concerns a number does the same to all ledgers that hold the same of it. -/
theorem after_alike (sound : l.Sound) (sound' : l'.Sound) (up : l.tornDown = false)
    (up' : l'.tornDown = false) (h : l.only s = l'.only s) {deed : Deed}
    (hconcerns : deed.concerns s = true) :
    restrict s (l.after deed) = restrict s (l'.after deed) := by
  cases deed with
  | openStream label =>
    simp only [after]
    rw [only_opened sound, only_opened sound', h]
  | use id nth usage =>
    obtain rfl : id = s := by simpa [Deed.concerns] using hconcerns
    simp only [after]
    rw [only_used sound, only_used sound', h]
  | receive frame fits =>
    obtain rfl : frame.id = s := by simpa [Deed.concerns] using hconcerns
    simp only [after]
    rw [only_received sound up fits.id_le, only_received sound' up' fits.id_le, h]

theorem tornDown_after (sound : l.Sound) (deed : Deed) :
    (l.after deed).1.tornDown = l.tornDown := by
  rcases deed.opens_or_passes with ⟨label, rfl⟩ | ⟨s, hother⟩
  · simp only [after, opened]
    split <;> rfl
  · exact congrArg (·.1.tornDown) (only_after_of_ne sound hother)

/-- A number that is pending after a deed was pending before, or is the only one concerned. -/
theorem mem_pending_after (sound : l.Sound) {deed : Deed} {id : UInt64}
    (hmem : id ∈ (l.after deed).1.registry.pending) :
    id ∈ l.registry.pending ∨ ∀ s, deed.concerns s = true → id = s := by
  by_cases hother : deed.concerns id = false
  · have hkept : ((l.after deed).1.only id).registry.pending = (l.only id).registry.pending :=
      congrArg (·.1.registry.pending) (only_after_of_ne sound hother)
    have hsome : id ∈ ((l.after deed).1.only id).registry.pending := by simp [only, hmem]
    rw [hkept] at hsome
    exact Or.inl (List.mem_of_mem_filter hsome)
  · cases deed with
    | openStream label =>
      have hsame : (l.opened label).1.registry.pending = l.registry.pending := by
        rw [opened]
        split <;> rfl
      exact Or.inl (hsame ▸ hmem)
    | use number nth usage =>
      obtain rfl : number = id := by simpa [Deed.concerns] using hother
      exact Or.inr fun s hconcerns => by simpa [Deed.concerns] using hconcerns
    | receive frame fits =>
      obtain rfl : frame.id = id := by simpa [Deed.concerns] using hother
      exact Or.inr fun s hconcerns => by simpa [Deed.concerns] using hconcerns

end Ledger

namespace Mux

variable {m m' : Mux} {s : UInt64} {deed : Deed} {deeds : List Deed}

/-! ### Sessions that can be reached -/

/-- A session on a link that takes everything, as it can be reached.  No handler failed to start. -/
structure Steady (m : Mux) : Prop where
  calm : m.Calm
  sound : m.ledger.Sound
  greeted : m.Greeted
  handled : m.handled = m.adopted

theorem steady_start (side : Side) (settings : Settings) : (start side settings).Steady :=
  ⟨calm_start side settings, sound_run side settings [], greeted_run side settings [], rfl⟩

theorem step_receive (sound : m.ledger.Sound) {frame : Frame} (hid : frame.id ≤ Header.maxId) :
    m.Step .turn (m.receive frame) := by
  obtain ⟨out, l, hreceiving, hleads⟩ := receives m frame
  exact .of_passes hleads.passes (fun _ => hleads.heeds)
    (Or.inl (hleads.ledger ▸ hreceiving.moves sound hid))

namespace Steady

theorem receive (h : m.Steady) {frame : Frame} (hid : frame.id ≤ Header.maxId) :
    (m.receive frame).Greeted ∧ (m.receive frame).handled = (m.receive frame).adopted := by
  have hstep := step_receive h.sound hid
  obtain ⟨out, l, hreceiving, hleads⟩ := receives m frame
  obtain ⟨made, hgreets⟩ := greets_receive m frame
  rw [h.calm.conditions] at hreceiving
  generalize m.receive frame = after at hstep hleads hgreets ⊢
  have hledger := hleads.ledger
  rcases hreceiving.handles h.sound with ⟨serial, -, hhandles, -, hrole, -⟩ | ⟨-, hhandles⟩
  · rw [← hledger] at hhandles hrole
    obtain rfl := List.append_cancel_left (hgreets.handles.symm.trans hhandles)
    obtain ⟨hadopted, hhandled⟩ := h.greeted.of_accepted h.sound hstep hgreets hrole
    exact ⟨h.greeted.accepted h.sound hstep hgreets hrole, by
      rw [hadopted, hhandled, h.handled]
      rfl⟩
  · rw [← hledger] at hhandles
    obtain rfl : made = [] := List.append_cancel_left
      ((hgreets.handles.symm.trans hhandles).trans (List.append_nil _).symm)
    have hhandled : after.handled = m.handled := by simpa using h.greeted.handled_of_greets hgreets
    have hadopted : after.adopted = m.adopted := by
      have hserials : after.ledger.serials = m.ledger.serials ++ [] :=
        hgreets.serials_eq.trans (List.append_nil _).symm
      simpa using adopted_of_serials h.sound hstep hserials
    exact ⟨h.greeted.unchanged hstep hgreets.silent hadopted hhandled,
      by rw [hadopted, hhandled, h.handled]⟩

theorem perform (h : m.Steady) {op : Op} (hop : op ≠ .turn) :
    (m.perform op).1.Greeted ∧ (m.perform op).1.handled = (m.perform op).1.adopted := by
  obtain ⟨-, hadopted, hhandled⟩ := h.greeted.of_silent h.sound fun _ _ hann => hop hann.turn
  exact ⟨h.greeted.perform h.sound op, by rw [hadopted, hhandled, h.handled]⟩

theorem greets_deed (h : m.Steady) (deed : Deed) :
    (m.deed deed).1.Greeted ∧ (m.deed deed).1.handled = (m.deed deed).1.adopted := by
  cases deed with
  | openStream label =>
    have hlocal : Op.openStream label ≠ .turn := by simp
    exact h.perform hlocal
  | use id nth usage =>
    have hlocal : usage.op (m.ledger.place id nth) ≠ .turn := by cases usage <;> simp [Usage.op]
    exact h.perform hlocal
  | receive frame fits => exact h.receive fits.id_le

theorem leads (h : m.Steady) (room : deed.HasRoom m.ledger) :
    m.Leads (m.ledger.after deed).2 (m.ledger.after deed).1 (m.deed deed).1 := by
  cases deed with
  | openStream label => exact h.calm.openStream label
  | use id nth usage => exact (h.calm.use h.sound _ usage).1
  | receive frame fits => exact h.calm.receive h.sound fits.id_le room

theorem step (h : m.Steady) (room : deed.HasRoom m.ledger) :
    (m.deed deed).1.Steady where
  calm := h.calm.of_leads (h.leads room) ((Ledger.tornDown_after h.sound deed).trans h.calm.up)
  sound := by
    cases deed with
    | openStream label => exact (Mux.step h.sound _).sound h.sound
    | use id nth usage => exact (Mux.step h.sound _).sound h.sound
    | receive frame fits => exact (step_receive h.sound fits.id_le).sound h.sound
  greeted := (h.greets_deed deed).1
  handled := (h.greets_deed deed).2

theorem sent_deed (h : m.Steady) (room : deed.HasRoom m.ledger) :
    (m.deed deed).1.sent = m.sent ++ (m.ledger.after deed).2 := by
  have hfits := Ledger.fits_after h.sound h.calm.up deed
  rw [sent, (h.leads room).passes.written, List.filterMap_append, ← sent]
  congr 1
  rw [List.filterMap_map]
  refine (List.filterMap_congr fun frame hmem => ?_).trans (List.filterMap_some)
  simp only [Function.comp_apply, Frame.decode_wire (hfits frame hmem)]
  rfl

/-- The calls of the handler can be told from what is kept of a number. -/
theorem called_eq (h : m.Steady) (s : UInt64) : m.called s =
    ((m.ledger.only s).handles.map Handle.serial).filter fun serial =>
      ((m.ledger.only s).stream serial).role = .acceptor := by
  have hkept : (m.ledger.only s).handles.map Handle.serial =
      (m.ledger.serials.filter fun serial => (m.registry.stream serial).id == s).map
        (m.ledger.rank s) := by
    rw [Ledger.serials, List.filter_map, List.map_map]
    exact List.map_map
  rw [hkept, called, h.handled, adopted, List.filter_comm, List.filter_map (f := m.ledger.rank s)]
  congr 1
  refine List.filter_congr fun serial hmem => ?_
  obtain ⟨hmem, hid⟩ := List.mem_filter.mp hmem
  have hof : m.ledger.Of s serial :=
    ⟨Ledger.lt_of_mem_serials h.sound hmem, eq_of_beq hid⟩
  simp only [Function.comp_apply, hof.stream_only]
  rfl

theorem answer_eq (h : m.Steady) (s : UInt64) (nth : Nat) (usage : Usage) :
    (m.deed (.use s nth usage)).2 = (m.ledger.only s).replies nth usage := by
  rw [Ledger.replies_only h.sound]
  exact (h.calm.use h.sound _ usage).2

end Steady

/-! ### Two sessions side by side -/

/-- Two sessions hold the same of a number, and the second one has heard of no other number from the
peer. -/
structure Twins (s : UInt64) (m m' : Mux) : Prop where
  steady : m.Steady
  steady' : m'.Steady
  same : m.ledger.only s = m'.ledger.only s
  sent : m.sent.filter (·.id == s) = m'.sent.filter (·.id == s)
  bare : ∀ id ∈ m'.registry.pending, id = s

namespace Twins

theorem hasRoom (h : Twins s m m') (hconcerns : deed.concerns s = true)
    (room : deed.HasRoom m.ledger) : deed.HasRoom m'.ledger := by
  cases deed with
  | openStream label => trivial
  | use id nth usage => trivial
  | receive frame fits =>
    obtain rfl : frame.id = s := by simpa [Deed.concerns] using hconcerns
    rintro ⟨message, -, hnone, hforeign, hfull⟩
    -- a pending number would be this one, which has no current stream
    have hempty : m'.ledger.registry.pending = [] := by
      refine List.eq_nil_iff_forall_not_mem.mpr fun id hmem => ?_
      obtain ⟨serial, hfind, -⟩ := h.steady'.sound.waiting hmem
      rw [h.bare id hmem, hnone] at hfind
      cases hfind
    have hfind : m.ledger.find? frame.id = none := by
      have hkept : (m.ledger.only frame.id).find? frame.id = none := by
        rw [h.same, Ledger.find?_only, hnone]
        rfl
      rw [Ledger.find?_only] at hkept
      exact Option.map_eq_none_iff.mp hkept
    have hids : m.ledger.ids = m'.ledger.ids := congrArg (·.ids) h.same
    have hsettings : m.ledger.settings = m'.ledger.settings := congrArg (·.settings) h.same
    refine room ⟨message, h.steady.calm.up, hfind, hids ▸ hforeign, ?_⟩
    rw [hempty, List.length_nil, ← hsettings] at hfull
    exact hfull.trans (Nat.zero_le _)

theorem both (h : Twins s m m') (hconcerns : deed.concerns s = true)
    (room : deed.HasRoom m.ledger) : Twins s (m.deed deed).1 (m'.deed deed).1 := by
  have room' := h.hasRoom hconcerns room
  have halike := Ledger.after_alike h.steady.sound h.steady'.sound h.steady.calm.up
    h.steady'.calm.up h.same hconcerns
  refine ⟨h.steady.step room, h.steady'.step room', ?_, ?_, ?_⟩
  · rw [(h.steady.leads room).ledger, (h.steady'.leads room').ledger]
    exact congrArg Prod.fst halike
  · rw [h.steady.sent_deed room, h.steady'.sent_deed room', List.filter_append,
      List.filter_append, h.sent]
    exact congrArg (m'.sent.filter _ ++ ·.2) halike
  · intro id hmem
    have hmem : id ∈ (m'.ledger.after deed).1.registry.pending := by
      rw [← (h.steady'.leads room').ledger]
      exact hmem
    rcases Ledger.mem_pending_after h.steady'.sound hmem with hold | honly
    · exact h.bare id hold
    · exact honly s hconcerns

theorem one (h : Twins s m m') (hother : deed.concerns s = false)
    (room : deed.HasRoom m.ledger) : Twins s (m.deed deed).1 m' := by
  have hkept := Ledger.only_after_of_ne h.steady.sound hother
  refine ⟨h.steady.step room, h.steady', ?_, ?_, h.bare⟩
  · rw [(h.steady.leads room).ledger, ← h.same]
    exact congrArg Prod.fst hkept
  · rw [h.steady.sent_deed room, List.filter_append, h.sent]
    have hnone : (m.ledger.after deed).2.filter (·.id == s) = [] := congrArg Prod.snd hkept
    rw [hnone, List.append_nil]

theorem did (h : Twins s m m') (room : m.Roomy deeds) :
    Twins s (m.did deeds) (m'.did (deeds.filter (·.concerns s))) := by
  induction deeds generalizing m m' with
  | nil => exact h
  | cons deed others ih =>
    obtain ⟨hroom, hothers⟩ := room
    by_cases hconcerns : deed.concerns s = true
    · rw [List.filter_cons_of_pos hconcerns]
      exact ih (h.both hconcerns hroom) hothers
    · rw [List.filter_cons_of_neg hconcerns]
      exact ih (h.one (by simpa using hconcerns) hroom) hothers

end Twins

/-! ### With and without the others -/

theorem Roomy.of_append {before after : List Deed} (h : m.Roomy (before ++ after)) :
    m.Roomy before := by
  induction before generalizing m with
  | nil => trivial
  | cons deed others ih => exact ⟨h.1, ih h.2⟩

/-- **Isolation.**  In a run from the beginning, on a link that takes everything, no stream is
refused for the pending ones.  Then at each of its points the run has the same streams of a number
as the run of those deeds alone that concern the number, with the same queues, the same current and
pending one and the same handles; the handler was called for the same of them, the same frames went
out for them, and whatever their users do next is answered the same. -/
theorem isolated {side : Side} {settings : Settings} (room : (start side settings).Roomy deeds)
    (s : UInt64) {before : List Deed} (hbefore : before <+: deeds) :
    let full := (start side settings).did before
    let alone := (start side settings).did (before.filter (·.concerns s))
    full.ledger.only s = alone.ledger.only s ∧ full.called s = alone.called s ∧
      full.sent.filter (·.id == s) = alone.sent.filter (·.id == s) ∧
      ∀ nth usage, (full.deed (.use s nth usage)).2 = (alone.deed (.use s nth usage)).2 := by
  intro full alone
  obtain ⟨after, rfl⟩ := hbefore
  have hstart : Twins s (start side settings) (start side settings) :=
    ⟨steady_start side settings, steady_start side settings, rfl, rfl,
      fun id (hmem : id ∈ []) => by cases hmem⟩
  have htwins : Twins s full alone := hstart.did room.of_append
  refine ⟨htwins.same, ?_, htwins.sent, fun nth usage => ?_⟩
  · rw [htwins.steady.called_eq, htwins.steady'.called_eq, htwins.same]
  · rw [htwins.steady.answer_eq, htwins.steady'.answer_eq, htwins.same]

/-- Room for one chunk in each queue, and for one pending stream. -/
def tight : Settings := { queueLimit := 1, pendingLimit := 1 }

/-- The peer announces two streams and overruns the first one, and begins a third. -/
def overrun : List Deed :=
  [.receive ⟨0, 0, []⟩ ⟨by decide, by decide, by decide⟩,
    .receive ⟨2, 0, [7]⟩ ⟨by decide, by decide, by decide⟩,
    .receive ⟨0, 2, [8]⟩ ⟨by decide, by decide, by decide⟩,
    .receive ⟨0, 2, [9]⟩ ⟨by decide, by decide, by decide⟩,
    .use 0 0 .drop,
    .receive ⟨4, 2, [1]⟩ ⟨by decide, by decide, by decide⟩,
    .use 2 0 (.write ⟨[5], by decide⟩)]

/-- The first stream is reset, and the second one has its chunk with or without it. -/
theorem isolated_beside_reset :
    (start .listener tight).Roomy overrun ∧
      ((start .listener tight).did overrun).ledger.overflows = [0] ∧
      (overrun.filter (·.concerns 2)).length = 2 ∧
      ((start .listener tight).did overrun).ledger.only 2 =
        ((start .listener tight).did (overrun.filter (·.concerns 2))).ledger.only 2 ∧
      ((start .listener tight).did overrun).called 2 = [0] ∧
      ((start .listener tight).did (overrun.filter (·.concerns 2))).called 2 = [0] := by
  have hroom : (start .listener tight).Roomy overrun := by
    refine ⟨fun h => absurd h.1 (by decide), fun h => absurd h.1 (by decide),
      fun h => absurd h.2.2.1 (by decide +kernel), fun h => absurd h.2.2.1 (by decide +kernel),
      trivial, fun h => absurd h.2.2.2.2 (by decide +kernel), trivial, trivial⟩
  have hcalled : ((start .listener tight).did overrun).called 2 = [0] := by decide +kernel
  obtain ⟨hsame, hcalls, -, -⟩ := isolated hroom 2 (List.prefix_refl overrun)
  exact ⟨hroom, by decide +kernel, by decide, hsame, hcalled, hcalls.symm.trans hcalled⟩

end Mux

end StreamMux
