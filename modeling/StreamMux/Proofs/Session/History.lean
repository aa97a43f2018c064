import StreamMux.Proofs.Session.Receiving

/-!
# What a session has sent and applied

A `History` is what happened at one side of a connection: the frames applied and sent, the data
written and read through each handle, and the handles whose stream was ended here, be it through the
handle or for want of a handler.  No session
keeps it; it is what the order of chunks and the numbers of streams are said in.

`Follows side before frame` says that `frame` may come after `before` on the way from `side`: a
stream is announced once and before anything else is sent for it, and carries no data after its end.
Sessions send nothing else, and rely on it for what they apply.
-/

namespace StreamMux

/-! ### Numbers of a side -/

/-- Whether a number is one of those that a side gives out. -/
def Side.owns (side : Side) (id : UInt64) : Bool := (Ids.ofSide side).owns id

theorem Side.owns_iff {side : Side} {id : UInt64} :
    side.owns id = true ↔ id.toNat % 2 = (Ids.ofSide side).next.toNat % 2 :=
  Ledger.owns_iff

theorem Side.owns_other (side : Side) (id : UInt64) : side.other.owns id = !side.owns id := by
  have hmod := Nat.mod_two_eq_zero_or_one id.toNat
  rw [Bool.eq_iff_iff, Bool.not_eq_true', ← Bool.not_eq_true, owns_iff, owns_iff]
  cases side <;> simp only [Side.other, Ids.ofSide, UInt64.reduceToNat] <;> omega

theorem Ledger.Sound.owns_eq {l : Ledger} (h : l.Sound) (id : UInt64) :
    l.ids.owns id = l.side.owns id := by
  rw [Side.owns, Bool.eq_iff_iff, Ledger.owns_iff, Ledger.owns_iff, h.parity]

/-! ### Frames for a stream -/

namespace Frame

def Announces (frame : Frame) (id : UInt64) : Prop :=
  frame.id = id ∧ frame.kind? = some .newStream

def Ends (frame : Frame) (id : UInt64) : Prop :=
  frame.id = id ∧ ∃ kind ending, frame.kind? = some kind ∧ kind.ending? = some ending

/-- A frame carries data, or could. -/
def isMessage (frame : Frame) : Bool := frame.kind?.any (·.isMessage)

/-- The data that a frame carries for a stream.  An empty payload is none. -/
def data? (frame : Frame) (id : UInt64) : Option Bytes :=
  if frame.id = id ∧ frame.isMessage = true ∧ frame.payload ≠ [] then some frame.payload else none

variable {frame : Frame} {id : UInt64}

theorem isMessage_eq {kind : Kind} (is : frame.kind? = some kind) :
    frame.isMessage = kind.isMessage := by
  simp [isMessage, is]

theorem data?_of_ne_none (h : frame.data? id ≠ none) :
    frame.id = id ∧ frame.isMessage = true ∧ frame.payload ≠ [] := by
  unfold data? at h
  split at h
  · rename_i hdata
    exact hdata
  · exact absurd rfl h

theorem data?_self (message : frame.isMessage = true) (data : frame.payload ≠ []) :
    frame.data? frame.id = some frame.payload := by
  rw [data?, if_pos ⟨rfl, message, data⟩]

/-- What announces a stream neither carries data nor ends one. -/
theorem Announces.not_ends (h : frame.Announces id) (other : UInt64) : ¬ frame.Ends other := by
  rintro ⟨-, kind, ending, is, ends⟩
  cases h.2.symm.trans is
  cases ends

theorem Ends.not_message (h : frame.Ends id) : frame.isMessage = false := by
  obtain ⟨-, kind, ending, is, ends⟩ := h
  rw [isMessage_eq is]
  exact (Kind.isMessage_of_ending? ends).1

theorem Ends.ending?_ne_none (h : frame.Ends id) {kind : Kind} (is : frame.kind? = some kind) :
    kind.ending? ≠ none := by
  obtain ⟨-, other, ending, is', ends⟩ := h
  cases is.symm.trans is'
  simp [ends]

theorem ne_newStream_of_isMessage (h : frame.isMessage = true) :
    frame.kind? ≠ some .newStream := by
  intro hnew
  rw [isMessage_eq hnew] at h
  cases h

end Frame

section OfStream

variable (stream : Stream)

theorem Stream.isMessage_parcel (data : Bytes) : (stream.parcel data).isMessage = true := by
  unfold Stream.parcel
  rw [Frame.isMessage_eq (Frame.kind?_ofKind ..)]
  cases stream.role <;> rfl

theorem Stream.data?_parcel {data : Bytes} (h : data ≠ []) :
    (stream.parcel data).data? stream.id = some data :=
  Frame.data?_self (stream.isMessage_parcel data) h

theorem Stream.farewell_ends (ending : Ending) : (stream.farewell ending).Ends stream.id := by
  refine ⟨rfl, stream.role.endingKind ending, ending, Frame.kind?_ofKind .., ?_⟩
  cases stream.role <;> cases ending <;> rfl

end OfStream

/-! ### Rows of frames -/

/-- A stream was announced by one of some frames. -/
def Announced (frames : List Frame) (id : UInt64) : Prop := ∃ frame ∈ frames, frame.Announces id

/-- A stream was ended by one of some frames. -/
def EndedBy (frames : List Frame) (id : UInt64) : Prop := ∃ frame ∈ frames, frame.Ends id

/-- The data that some frames carry for a stream. -/
def dataFor (id : UInt64) (frames : List Frame) : List Bytes := frames.filterMap (·.data? id)

section Rows

variable {frames more : List Frame} {frame : Frame} {id : UInt64} {side : Side}

theorem announced_append :
    Announced (frames ++ more) id ↔ Announced frames id ∨ Announced more id := by
  simp [Announced, or_and_right, exists_or]

theorem announced_concat :
    Announced (frames ++ [frame]) id ↔ Announced frames id ∨ frame.Announces id := by
  simp [Announced, or_and_right, exists_or]

theorem endedBy_concat : EndedBy (frames ++ [frame]) id ↔ EndedBy frames id ∨ frame.Ends id := by
  simp [EndedBy, or_and_right, exists_or]

theorem dataFor_append (id : UInt64) (frames more : List Frame) :
    dataFor id (frames ++ more) = dataFor id frames ++ dataFor id more :=
  List.filterMap_append

theorem dataFor_concat_of_none (h : frame.data? id = none) :
    dataFor id (frames ++ [frame]) = dataFor id frames := by
  simp [dataFor, h]

theorem dataFor_concat_of_some {chunk : Bytes} (h : frame.data? id = some chunk) :
    dataFor id (frames ++ [frame]) = dataFor id frames ++ [chunk] := by
  simp [dataFor, h]

theorem dataFor_eq_nil (h : ∀ frame ∈ frames, frame.id ≠ id) : dataFor id frames = [] := by
  apply List.filterMap_eq_nil_iff.mpr
  intro frame hmem
  by_contra hdata
  exact h frame hmem (Frame.data?_of_ne_none hdata).1

/-- A frame that may follow others on the way from a side. -/
structure Follows (side : Side) (before : List Frame) (frame : Frame) : Prop where
  fits : frame.Fits
  /-- A side announces streams of its own, each once and without data. -/
  opening : frame.kind? = some .newStream →
    side.owns frame.id = true ∧ ¬ Announced before frame.id ∧ frame.payload = []
  /-- Anything else for a stream of its own comes later. -/
  opened : frame.kind? ≠ some .newStream → side.owns frame.id = true → Announced before frame.id
  /-- There is no data after the end. -/
  going : frame.isMessage = true → ¬ EndedBy before frame.id

/-- Each frame may follow those before it. -/
def Sequenced (side : Side) (frames : List Frame) : Prop :=
  ∀ before frame after, frames = before ++ frame :: after → Follows side before frame

theorem Sequenced.nil : Sequenced side [] := by
  intro before frame after h
  simp at h

theorem Sequenced.concat (h : Sequenced side frames) (hfollows : Follows side frames frame) :
    Sequenced side (frames ++ [frame]) := by
  intro before other after heq
  rcases List.eq_nil_or_concat after with rfl | ⟨init, last, rfl⟩
  · obtain ⟨rfl, hlast⟩ := List.append_inj' heq rfl
    cases hlast
    exact hfollows
  · rw [List.concat_eq_append, ← List.cons_append, ← List.append_assoc] at heq
    exact h before other init (List.append_inj' heq rfl).1

end Rows

/-! ### Histories -/

/-- What happened at one side. -/
structure History where
  got : List Frame := []
  sent : List Frame := []
  /-- What was written through each handle. -/
  wrote : Nat → List Bytes := fun _ => []
  /-- What was read through each handle. -/
  took : Nat → List Bytes := fun _ => []
  /-- The stream behind a handle was ended through it, or for want of a handler. -/
  ended : Nat → Prop := fun _ => False

namespace History

def get (h : History) (frame : Frame) : History := { h with got := h.got ++ [frame] }

def emit (h : History) (frames : List Frame) : History := { h with sent := h.sent ++ frames }

def write (h : History) (place : Nat) (data : Bytes) : History :=
  { h with wrote := Function.update h.wrote place (h.wrote place ++ [data]) }

def take (h : History) (place : Nat) (chunk : Bytes) : History :=
  { h with took := Function.update h.took place (h.took place ++ [chunk]) }

def finish (h : History) (place : Nat) : History :=
  { h with ended := fun other => other = place ∨ h.ended other }

@[simp] theorem emit_nil (h : History) : h.emit [] = h := by simp [emit]

/-- What was applied before was applied, and streams that were ended were ended. -/
structure Grows (h h' : History) : Prop where
  got : ∀ frame ∈ h.got, frame ∈ h'.got
  ended : ∀ place, h.ended place → h'.ended place

variable {h h' : History}

theorem Grows.refl (h : History) : h.Grows h := ⟨fun _ hmem => hmem, fun _ hended => hended⟩

theorem Grows.get (h : History) (frame : Frame) : h.Grows (h.get frame) :=
  ⟨fun _ => List.mem_append_left _, fun _ hended => hended⟩

theorem Grows.announced (g : h.Grows h') {id : UInt64} (ha : Announced h.got id) :
    Announced h'.got id := by
  obtain ⟨frame, hmem, hframe⟩ := ha
  exact ⟨frame, g.got frame hmem, hframe⟩

theorem Grows.endedBy (g : h.Grows h') {id : UInt64} (he : EndedBy h.got id) :
    EndedBy h'.got id := by
  obtain ⟨frame, hmem, hframe⟩ := he
  exact ⟨frame, g.got frame hmem, hframe⟩

end History

end StreamMux
