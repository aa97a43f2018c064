import StreamMux.Proofs.Session.Acceptance
import StreamMux.Proofs.Session.Queues

/-!
# Frames that find nothing to do

A frame of the peer is disregarded when it finds nothing to do.  An announcement with a payload has
two things to do, and each of them counts on its own: the stream may be accepted already, and it may
be over when the payload is to be queued, be it that no handler could be started for it just before.
So such a frame may count twice, or count although one of the two was done.

* `Ledger.disregards` — how often a frame counts;
* `Ledger.Straddles` — it is an announcement of which only one half could be done, or none;
* `Ledger.Receiving.eq_self` — any other frame that counts changes nothing;
* `Ledger.Receiving.ne` — one that straddles and counts once changes something.
-/

namespace StreamMux

namespace Ledger

variable {l l' : Ledger} {fails : Bool} {frame : Frame} {kind : Kind}

/-! ### What counts -/

/-- The current stream with a number is open. -/
def isLive (l : Ledger) (id : UInt64) : Bool :=
  (l.find? id).any fun serial => !(l.stream serial).isOver

/-- The current stream with a number is over. -/
def isDone (l : Ledger) (id : UInt64) : Bool :=
  (l.find? id).any fun serial => (l.stream serial).isOver

/-- A frame that would begin or feed the stream with a number is turned away. -/
def refuses (l : Ledger) (kind : Kind) (id : UInt64) : Bool :=
  l.tornDown || (l.find? id).isNone && (l.ids.owns id ||
    kind != .newStream && l.settings.pendingLimit ≤ l.registry.pending.length)

/-- Whoever is announced with a number is not accepted yet: no stream is current, or it waits. -/
def isAwaited (l : Ledger) (id : UInt64) : Bool :=
  (l.find? id).isNone || decide (id ∈ l.registry.pending)

/-- How often a frame of the peer counts as ignored; `fails` tells whether no handler can be
started. -/
def disregards (l : Ledger) (fails : Bool) (frame : Frame) : Nat :=
  match frame.kind? with
  | none => 1
  | some kind =>
    if kind.ending?.isSome then if l.isLive frame.id then 0 else 1
    else if l.refuses kind frame.id then 1
    else
      (if kind = .newStream ∧ l.isAwaited frame.id = false then 1 else 0) +
      (if frame.payload ≠ [] ∧ (l.isDone frame.id = true ∨
        kind = .newStream ∧ fails = true ∧ l.isAwaited frame.id = true) then 1 else 0)

/-- The frame announces a stream that is accepted already or over, or for which no handler can be
started, and brings a payload for it. -/
def Straddles (l : Ledger) (fails : Bool) (frame : Frame) : Prop :=
  frame.kind? = some .newStream ∧ frame.payload ≠ [] ∧ l.refuses .newStream frame.id = false ∧
    (l.isAwaited frame.id = false ∨ l.isDone frame.id = true ∨ fails = true)

/-- The frame would begin one pending stream too many. -/
def Crowds (l : Ledger) (frame : Frame) : Prop :=
  frame.isMessage = true ∧ l.tornDown = false ∧ l.find? frame.id = none ∧
    l.ids.owns frame.id = false ∧ l.settings.pendingLimit ≤ l.registry.pending.length

theorem isAwaited_of_none {id : UInt64} (new : l.find? id = none) : l.isAwaited id = true := by
  simp [isAwaited, new]

theorem isAwaited_of_mem {id : UInt64} (pending : id ∈ l.registry.pending) :
    l.isAwaited id = true := by
  simp [isAwaited, pending]

theorem isAwaited_of_not_mem {id : UInt64} {serial : Nat} (current : l.find? id = some serial)
    (accepted : id ∉ l.registry.pending) : l.isAwaited id = false := by
  simp [isAwaited, current, accepted]

theorem isDone_of_none {id : UInt64} (new : l.find? id = none) : l.isDone id = false := by
  simp [isDone, new]

theorem isDone_of_current {id : UInt64} {serial : Nat} (current : l.find? id = some serial) :
    l.isDone id = (l.stream serial).isOver := by
  simp [isDone, current]

theorem disregards_reserved (reserved : frame.kind? = none) : l.disregards fails frame = 1 := by
  simp only [disregards, reserved]

theorem disregards_ending {ending : Ending} (is : frame.kind? = some kind)
    (ends : kind.ending? = some ending) :
    l.disregards fails frame = if l.isLive frame.id then 0 else 1 := by
  simp only [disregards, is, ends, Option.isSome_some, if_true]

theorem disregards_refused (is : frame.kind? = some kind) (opens : kind.ending? = none)
    (h : l.refuses kind frame.id = true) : l.disregards fails frame = 1 := by
  simp [disregards, is, opens, h]

theorem disregards_newStream (is : frame.kind? = some .newStream)
    (h : l.refuses .newStream frame.id = false) : l.disregards fails frame =
      (if l.isAwaited frame.id = false then 1 else 0) +
      (if frame.payload ≠ [] ∧ (l.isDone frame.id = true ∨
        fails = true ∧ l.isAwaited frame.id = true) then 1 else 0) := by
  simp [disregards, is, h, Kind.ending?]

theorem disregards_message (is : frame.kind? = some kind) (message : kind.isMessage = true)
    (h : l.refuses kind frame.id = false) : l.disregards fails frame =
      if frame.payload ≠ [] ∧ l.isDone frame.id = true then 1 else 0 := by
  obtain ⟨hopens, hlate⟩ := Kind.ending?_of_isMessage message
  simp [disregards, is, h, hopens, hlate]

theorem refuses_eq_false (up : l.tornDown = false) (foreign : l.ids.owns frame.id = false)
    (room : kind ≠ .newStream → l.registry.pending.length < l.settings.pendingLimit) :
    l.refuses kind frame.id = false := by
  by_cases hnew : kind = .newStream
  · simp [refuses, up, foreign, hnew]
  · have hroom := Nat.not_le.mpr (room hnew)
    simp [refuses, up, foreign, hroom]

theorem refuses_of_current {serial : Nat} (up : l.tornDown = false)
    (current : l.find? frame.id = some serial) : l.refuses kind frame.id = false := by
  simp [refuses, up, current]

theorem disregards_le_two (l : Ledger) (fails : Bool) (frame : Frame) :
    l.disregards fails frame ≤ 2 := by
  unfold disregards
  repeat' split
  all_goals omega

/-- An announcement that counts and does not straddle repeats another one, without a payload. -/
theorem repeated_of_counts (is : frame.kind? = some .newStream)
    (admitted : l.refuses .newStream frame.id = false) (counts : l.disregards fails frame ≠ 0)
    (whole : ¬ l.Straddles fails frame) : l.isAwaited frame.id = false ∧ frame.payload = [] := by
  rw [disregards_newStream is admitted] at counts
  by_cases hpayload : frame.payload = []
  · refine ⟨?_, hpayload⟩
    by_contra hawaited
    exact counts (by simp [hpayload, hawaited])
  · refine absurd ⟨is, hpayload, admitted, ?_⟩ whole
    by_contra hnot
    obtain ⟨hawaited, hopen, hstarts⟩ : l.isAwaited frame.id = true ∧
        l.isDone frame.id = false ∧ fails = false := by simpa [not_or] using hnot
    exact counts (by simp [hawaited, hopen, hstarts])

theorem Straddles.counts (h : l.Straddles fails frame) : l.disregards fails frame ≠ 0 := by
  obtain ⟨is, data, admitted, hhalf⟩ := h
  rw [disregards_newStream is admitted]
  cases hawaited : l.isAwaited frame.id
  · simp
  · have hlost : l.isDone frame.id = true ∨ fails = true := by simpa [hawaited] using hhalf
    simp [data, hlost]

/-- Only a frame that straddles counts twice. -/
theorem disregards_le_one (h : ¬ l.Straddles fails frame) : l.disregards fails frame ≤ 1 := by
  rcases hkind : frame.kind? with _ | kind
  · rw [disregards_reserved hkind]
  rcases hends : kind.ending? with _ | ending
  · by_cases hrefuses : l.refuses kind frame.id = true
    · rw [disregards_refused hkind hends hrefuses]
    have hadmitted : l.refuses kind frame.id = false := by simpa using hrefuses
    cases hmessage : kind.isMessage
    · obtain rfl := Kind.eq_newStream hends hmessage
      by_contra hmany
      obtain ⟨-, hempty⟩ := repeated_of_counts hkind hadmitted (by omega) h
      rw [disregards_newStream hkind hadmitted] at hmany
      simp only [hempty, ne_eq, not_true_eq_false, false_and, if_false] at hmany
      split at hmany <;> omega
    · rw [disregards_message hkind hmessage hadmitted]
      split <;> omega
  · rw [disregards_ending hkind hends]
    split <;> omega

/-! ### What changes nothing -/

/-- A payload for an open stream changes the stream. -/
theorem Queueing.ne {gone : Bool} {serial : Nat} {out : List Frame} {payload : Bytes}
    (h : l.Queueing gone serial payload out l') (data : payload ≠ [])
    (live : (l.stream serial).isOver = false) : l' ≠ l := by
  intro heq
  cases h with
  | idle why => simp [data, live] at why
  | queued data live room =>
    have hqueue := congrArg (fun after => (Ledger.stream after serial).queue) heq
    simp only [push] at hqueue
    rw [stream_put_self (Registry.lt_of_not_isOver live)] at hqueue
    simp at hqueue
  | full data live' full cutting =>
    have hover := cutting.isOver
    rw [heq, live] at hover
    cases hover

section Receiving

variable {gone : Bool} {out : List Frame}

/-- A frame that counts and does not straddle changes nothing, and tells the peer at most that there
was no room. -/
theorem Receiving.eq_self (h : l.Receiving gone fails frame out l')
    (counts : l.disregards fails frame ≠ 0) (whole : ¬ l.Straddles fails frame)
    (torn : l'.tornDown = l.tornDown) :
    l' = l ∧ (out = [] ∨ out = [.ofKind frame.id .resetAcceptor []] ∧ l.Crowds frame) := by
  cases h with
  | reserved kind => exact ⟨rfl, Or.inl rfl⟩
  | refused is opens why => exact ⟨rfl, Or.inl rfl⟩
  | lost is ends isOver => exact ⟨rfl, Or.inl rfl⟩
  | crowded is message up new foreign sending full =>
    cases sending with
    | refused why => exact ⟨rfl, Or.inl rfl⟩
    | sent up' => exact ⟨rfl, Or.inr ⟨rfl, (frame.isMessage_eq is).trans message, up, new, foreign,
        full⟩⟩
    | torn up' =>
      rw [up] at torn
      cases torn
  | began is up new foreign dispatching =>
    have hadmitted : l.refuses .newStream frame.id = false :=
      refuses_eq_false up foreign fun hne => absurd rfl hne
    obtain ⟨haccepted, -⟩ := repeated_of_counts is hadmitted counts whole
    cases (isAwaited_of_none new).symm.trans haccepted
  | announced is up current pending dispatching =>
    obtain ⟨haccepted, -⟩ := repeated_of_counts is (refuses_of_current up current) counts whole
    cases (isAwaited_of_mem pending).symm.trans haccepted
  | repeated is up current accepted queueing =>
    obtain ⟨-, hempty⟩ := repeated_of_counts is (refuses_of_current up current) counts whole
    obtain ⟨heq, hout⟩ := queueing.eq_self (Or.inl hempty)
    exact ⟨heq, Or.inl hout⟩
  | early is message up new foreign queueing room =>
    refine absurd ?_ counts
    rw [disregards_message is message (refuses_eq_false up foreign fun _ => room),
      isDone_of_none new]
    simp
  | @data kind serial _ _ is message up current queueing =>
    rw [disregards_message is message (refuses_of_current up current),
      isDone_of_current current] at counts
    have hlost : frame.payload ≠ [] ∧ (l.stream serial).isOver = true := by
      by_contra hnot
      exact counts (if_neg hnot)
    obtain ⟨heq, hout⟩ := queueing.eq_self (Or.inr hlost.2)
    exact ⟨heq, Or.inl hout⟩
  | ended is ends current live =>
    refine absurd ?_ counts
    rw [disregards_ending is ends, isLive, current, Option.any_some, live]
    rfl

/-- A frame that straddles and counts once has done the other half. -/
theorem Receiving.ne (h : l.Receiving gone fails frame out l')
    (straddles : l.Straddles fails frame) (once : l.disregards fails frame ≤ 1) : l' ≠ l := by
  obtain ⟨hkind, data, hadmitted, hhalf⟩ := straddles
  have hsame : ∀ {kind : Kind}, frame.kind? = some kind → kind = .newStream := fun is =>
    Option.some.inj (is.symm.trans hkind)
  -- an announcement that is taken up leaves a handle, whatever becomes of its payload
  have hhandles : ∀ {before : Ledger} {serial : Nat}, before.handles = l.handles →
      before.Dispatching gone fails frame.id serial frame.payload out l' → l' ≠ l := by
    rintro before serial hbefore dispatching rfl
    simpa [hbefore] using dispatching.handles.1
  cases h with
  | reserved kind => cases kind.symm.trans hkind
  | refused is opens why =>
    obtain rfl := hsame is
    rcases why with htorn | ⟨hnone, hown⟩ <;> simp_all [refuses]
  | crowded is message => exact absurd (hsame is) (Kind.ending?_of_isMessage message).2
  | early is message => exact absurd (hsame is) (Kind.ending?_of_isMessage message).2
  | data is message => exact absurd (hsame is) (Kind.ending?_of_isMessage message).2
  | lost is ends => exact absurd (hsame is) (Kind.isMessage_of_ending? ends).2
  | ended is ends => exact absurd (hsame is) (Kind.isMessage_of_ending? ends).2
  | began is up new foreign dispatching =>
    have hbefore : (l.welcome frame.id).handles = l.handles := rfl
    exact hhandles hbefore dispatching
  | announced is up current pending dispatching => exact hhandles rfl dispatching
  | repeated is up current accepted queueing =>
    refine queueing.ne data ?_
    by_contra hover
    rw [disregards_newStream is hadmitted, if_pos (isAwaited_of_not_mem current accepted),
      if_pos ⟨data, Or.inl ((isDone_of_current current).trans (by simpa using hover))⟩] at once
    omega

end Receiving

end Ledger

end StreamMux
