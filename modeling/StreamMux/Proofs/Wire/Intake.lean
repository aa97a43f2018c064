import Mathlib.Data.List.Induction
import Mathlib.Data.List.TakeWhile
import StreamMux.Proofs.Wire.Reading

/-!
# An assembler at one end of a link

An assembler draws frames off one end of a link while the other end writes, in any order of calls
and writes and with any size of a read.  What it gives is decided by the bytes that were written,
and not by the chunks that they came in.

* `Intake` — an assembler, the link, and the answers that the assembler gave so far;
* `Intake.Sound`, `Intake.sound_run` — the frames that were given and the bytes that wait are the
  bytes that were offered, at any time;
* `Intake.spent_of_calls` — calls alone work off all that waits;
* `Intake.faithful` — the answers are the pieces of the bytes written, in their order, none is held
  back, and bytes that are no frame stay where they are.
-/

namespace StreamMux

/-! ### Calls and writes -/

/-- What happens around an assembler: the other end of the link writes or closes, or the assembler
is asked for the next frame. -/
inductive Assembler.Event where
  | write (chunk : Bytes)
  | close
  | next
  deriving DecidableEq, Repr

/-- An assembler, the link that it reads, and the answers that it gave, oldest first. -/
structure Intake where
  assembler : Assembler := {}
  link : Link := {}
  answers : List (Except Fault (Option Frame)) := []

namespace Intake

/-- What is on its way to the assembler. -/
def pending (intake : Intake) (side : Side) : Bytes :=
  (intake.link.ends.get side).pending

/-- The frames among the answers. -/
def frames (intake : Intake) : List Frame :=
  intake.answers.filterMap fun
    | .ok frame => frame
    | .error _ => none

/-- One event.  A write that the link refuses changes nothing. -/
def step (limit readSize : Nat) (side : Side) (intake : Intake) : Assembler.Event → Intake
  | .write chunk =>
    match intake.link.write side.other chunk with
    | .ok link => { intake with link }
    | .error _ => intake
  | .close => { intake with link := intake.link.close side.other }
  | .next =>
    let called := intake.assembler.next limit readSize intake.link side
    ⟨called.1.1, called.1.2, intake.answers ++ [called.2]⟩

/-- Events one after the other, from an empty assembler on a new link. -/
def run (limit readSize : Nat) (side : Side) (events : List Assembler.Event) : Intake :=
  events.foldl (step limit readSize side) {}

/-- The bytes of an event. -/
def chunkOf : Assembler.Event → Bytes
  | .write chunk => chunk
  | _ => []

/-- All bytes that were written before the other end closed. -/
def offered (events : List Assembler.Event) : Bytes :=
  (events.takeWhile (· != .close)).flatMap chunkOf

theorem offered_concat (events : List Assembler.Event) (event : Assembler.Event) :
    offered (events ++ [event]) =
      offered events ++ if .close ∈ events then [] else chunkOf event := by
  unfold offered
  by_cases hclosed : .close ∈ events
  · rw [if_pos hclosed, List.append_nil, List.takeWhile_append, if_neg]
    intro hall
    have hopen := List.takeWhile_eq_self_iff.mp
      ((List.takeWhile_prefix _).eq_of_length hall)
    exact absurd rfl (bne_iff_ne.mp (hopen _ hclosed))
  · have hopen : ∀ other ∈ events, (other != Assembler.Event.close) = true :=
      fun other hother => bne_iff_ne.mpr fun h => hclosed (h ▸ hother)
    rw [if_neg hclosed, List.takeWhile_append_of_pos hopen,
      List.takeWhile_eq_self_iff.mpr hopen, List.flatMap_append]
    cases event <;> simp [chunkOf]

/-! ### What a run keeps -/

section Run

variable {limit readSize : Nat} {side : Side} {events later : List Assembler.Event}
  {intake : Intake} {bytes : Bytes}

theorem run_append (events later : List Assembler.Event) :
    run limit readSize side (events ++ later) =
      later.foldl (step limit readSize side) (run limit readSize side events) :=
  List.foldl_append ..

theorem run_concat (events : List Assembler.Event) (event : Assembler.Event) :
    run limit readSize side (events ++ [event]) =
      step limit readSize side (run limit readSize side events) event :=
  run_append events [event]

/-- The frames that were given and the bytes that wait are the bytes that were offered. -/
structure Sound (limit : Nat) (side : Side) (bytes : Bytes) (intake : Intake) : Prop where
  receptive : intake.link.Receptive side
  pieces : ∃ taken : List (Frame.Piece limit), intake.frames = taken.map Frame.Piece.frame ∧
    bytes = taken.flatMap Frame.Piece.bytes ++ (intake.assembler.buffer ++ intake.pending side)

theorem frames_concat (assembler : Assembler) (link : Link)
    (answers : List (Except Fault (Option Frame))) (answer : Except Fault (Option Frame)) :
    frames ⟨assembler, link, answers ++ [answer]⟩ =
      frames ⟨assembler, link, answers⟩ ++ (match answer with
        | .ok frame => frame.toList
        | .error _ => []) := by
  rcases answer with _ | _ | frame <;> simp [frames]

theorem Sound.next (h : intake.Sound limit side bytes) (readSize : Nat) :
    (step limit readSize side intake .next).Sound limit side bytes := by
  obtain ⟨taken, hframes, hbytes⟩ := h.pieces
  obtain ⟨hafter, -, hdraws⟩ := intake.assembler.draws limit readSize h.receptive
  refine ⟨hafter, ?_⟩
  simp only [step, pending, frames_concat] at hbytes ⊢
  have hsame : ∀ assembler link, frames ⟨assembler, link, intake.answers⟩ = intake.frames :=
    fun _ _ => rfl
  rw [hsame, hframes]
  generalize intake.assembler.next limit readSize intake.link side = called at hdraws ⊢
  rcases called with ⟨⟨⟨buffer⟩, link⟩, answer⟩
  simp only at hdraws ⊢
  generalize (link.ends.get side).pending = left at hdraws ⊢
  cases hdraws with
  | frame piece hread hfront =>
    refine ⟨taken ++ [piece], by simp, ?_⟩
    rw [hbytes, hread, ← List.append_assoc intake.assembler.buffer, hfront]
    simp
  | unfinished hread _ _ => exact ⟨taken, by simp, by rw [hbytes, hread, List.append_assoc]⟩
  | malformed hread _ => exact ⟨taken, by simp, by rw [hbytes, hread, List.append_assoc]⟩
  | ended _ hdry _ => exact ⟨taken, by simp, by rw [hbytes, hdry]⟩

/-- The invariant of a run, with the other end's standing beside it. -/
theorem sound_run (limit readSize : Nat) (side : Side) (events : List Assembler.Event) :
    (run limit readSize side events).Sound limit side (offered events) ∧
      ((run limit readSize side events).link.isClosed side.other = true ↔ .close ∈ events) := by
  induction events using List.reverseRecOn with
  | nil =>
    refine ⟨⟨Link.receptive_new side, [], rfl, ?_⟩, ?_⟩
    · cases side <;> rfl
    · cases side <;> simp [run, Link.isClosed, Both.get, Side.other]
  | append_singleton events event ih =>
    obtain ⟨hsound, hclosed⟩ := ih
    rw [run_concat, offered_concat]
    generalize run limit readSize side events = before at hsound hclosed ⊢
    cases event with
    | write chunk =>
      obtain ⟨taken, hframes, hbytes⟩ := hsound.pieces
      simp only [step, List.mem_append, List.mem_singleton, reduceCtorEq, or_false, ← hclosed,
        chunkOf]
      rcases hsound.receptive.write_eq chunk with ⟨hfar, hwrite⟩ | ⟨hfar, after, hwrite⟩
      · -- the write came after the close, and counts for nothing
        rw [hwrite, if_pos hfar, List.append_nil]
        exact ⟨hsound, Iff.rfl⟩
      · obtain ⟨hafter, hsame⟩ := hsound.receptive.write hwrite
        have hpending := Link.pending_write hwrite
        rw [Side.other_other] at hpending
        rw [hwrite, if_neg (by simp [hfar])]
        refine ⟨⟨hafter, taken, hframes, ?_⟩, by simp only [hsame]⟩
        simp only [pending, hpending] at hbytes ⊢
        rw [hbytes]
        simp only [List.append_assoc]
    | close =>
      obtain ⟨taken, hframes, hbytes⟩ := hsound.pieces
      have hpending : ((before.link.close side.other).ends.get side).pending =
          (before.link.ends.get side).pending := by simp [Link.close]
      refine ⟨⟨hsound.receptive.close, taken, hframes, ?_⟩, ?_⟩
      · simpa [step, pending, hpending, chunkOf] using hbytes
      · simp [step]
    | next =>
      obtain ⟨-, hsame, -⟩ := before.assembler.draws limit readSize hsound.receptive
      have hnext := hsound.next readSize
      refine ⟨by simpa [chunkOf] using hnext, ?_⟩
      simpa [step, hsame] using hclosed

/-- What was given comes in front of the pieces of what waits. -/
theorem Sound.pieces_eq (h : intake.Sound limit side bytes) :
    ∃ taken, intake.frames = taken.map Frame.Piece.frame ∧
      bytes = taken.flatMap Frame.Piece.bytes ++ intake.assembler.buffer ++ intake.pending side ∧
      Frame.pieces limit bytes =
        (taken ++ (Frame.pieces limit (intake.assembler.buffer ++ intake.pending side)).1,
          (Frame.pieces limit (intake.assembler.buffer ++ intake.pending side)).2) := by
  obtain ⟨taken, hframes, hbytes⟩ := h.pieces
  refine ⟨taken, hframes, by rw [hbytes, List.append_assoc], ?_⟩
  rw [hbytes, Frame.pieces_flatMap_append]

/-! ### Calls alone -/

/-- No call gives a frame any more: what came in is no frame, or the link is empty and no frame is
all there. -/
def Spent (limit : Nat) (side : Side) (intake : Intake) : Prop :=
  (∃ fault, Frame.cut intake.assembler.buffer limit = .error fault) ∨
    (Frame.cut intake.assembler.buffer limit = .ok none ∧ intake.pending side = [])

/-- What the calls have to work off: a byte on the link takes a read and a cut. -/
def load (side : Side) (intake : Intake) : Nat :=
  2 * (intake.pending side).length + intake.assembler.buffered

theorem Spent.pieces_eq (h : intake.Spent limit side) :
    Frame.pieces limit (intake.assembler.buffer ++ intake.pending side) =
      ([], intake.assembler.buffer ++ intake.pending side) := by
  rcases h with ⟨fault, hcut⟩ | ⟨hcut, hdry⟩
  · exact Frame.pieces_of_error (Frame.cut_error_append hcut _)
  · rw [hdry, List.append_nil]
    exact Frame.pieces_of_none hcut

/-- Once a malformed front is there, calls are answered by its fault and nothing else happens. -/
theorem step_next_of_malformed {fault : FrameFault}
    (h : Frame.cut intake.assembler.buffer limit = .error fault) :
    step limit readSize side intake .next =
      { intake with answers := intake.answers ++ [.error (.frame fault)] } := by
  simp only [step, Assembler.next_of_malformed h]

/-- A call works something off, or no later one gives a frame. -/
theorem next_cases (limit readSize : Nat) (h : intake.link.Receptive side) :
    (step limit readSize side intake .next).Spent limit side ∨
      load side (step limit readSize side intake .next) < load side intake := by
  obtain ⟨-, -, hdraws⟩ := intake.assembler.draws limit readSize h
  simp only [Spent, load, step, pending, Assembler.buffered]
  generalize intake.assembler.next limit readSize intake.link side = called at hdraws ⊢
  rcases called with ⟨⟨⟨buffer⟩, link⟩, answer⟩
  simp only at hdraws ⊢
  generalize (link.ends.get side).pending = left at hdraws ⊢
  cases hdraws with
  | frame piece hread hfront =>
    have hpos := piece.length_pos
    have hlengths := congrArg List.length hfront
    simp only [hread, List.length_append] at hlengths ⊢
    exact Or.inr (by omega)
  | @unfinished chunk _ hread hcut hdry =>
    rcases chunk with _ | ⟨byte, chunk⟩
    · exact Or.inl (Or.inr ⟨hcut, hdry rfl⟩)
    · simp only [hread, List.length_append, List.length_cons]
      exact Or.inr (by omega)
  | malformed _ hcut => exact Or.inl (Or.inl ⟨_, hcut⟩)
  | ended _ _ hcut => exact Or.inl (Or.inr ⟨hcut, rfl⟩)

theorem Spent.next (h : intake.Spent limit side) (hopen : intake.link.Receptive side)
    (readSize : Nat) : (step limit readSize side intake .next).Spent limit side := by
  rcases h with ⟨fault, hcut⟩ | ⟨hcut, hempty⟩
  · rw [step_next_of_malformed hcut]
    exact Or.inl ⟨fault, hcut⟩
  · obtain ⟨-, -, hdraws⟩ := intake.assembler.draws limit readSize hopen
    simp only [Spent, step, pending] at hempty ⊢
    generalize intake.assembler.next limit readSize intake.link side = called at hdraws ⊢
    rcases called with ⟨⟨⟨buffer⟩, link⟩, answer⟩
    simp only at hdraws ⊢
    generalize (link.ends.get side).pending = left at hdraws ⊢
    rw [hempty] at hdraws
    cases hdraws with
    | frame piece hread hfront =>
      obtain ⟨rfl, rfl⟩ := List.append_eq_nil_iff.mp hread.symm
      rw [List.append_nil] at hfront
      rw [hfront, piece.cut_append] at hcut
      cases hcut
    | unfinished hread hcut' _ =>
      obtain ⟨rfl, rfl⟩ := List.append_eq_nil_iff.mp hread.symm
      exact Or.inr ⟨hcut', rfl⟩
    | malformed _ hcut' => exact Or.inl ⟨_, hcut'⟩
    | ended _ _ hcut' => exact Or.inr ⟨hcut', rfl⟩

/-- Calls alone keep what is offered, and as many of them as there is to work off leave nothing. -/
theorem spent_of_calls (readSize : Nat) {count : Nat} (h : intake.Sound limit side bytes)
    (hcount : intake.Spent limit side ∨ load side intake ≤ count) :
    ((List.replicate count Assembler.Event.next).foldl (step limit readSize side) intake).Sound
        limit side bytes ∧
      ((List.replicate count Assembler.Event.next).foldl (step limit readSize side) intake).Spent
        limit side := by
  induction count generalizing intake with
  | zero =>
    refine ⟨h, ?_⟩
    rcases hcount with hspent | hload
    · exact hspent
    · have hpending : intake.pending side = [] := List.length_eq_zero_iff.mp (by
        simp only [load] at hload
        omega)
      have hbuffer : intake.assembler.buffer = [] := List.length_eq_zero_iff.mp (by
        simp only [load, Assembler.buffered] at hload
        omega)
      exact Or.inr ⟨by rw [List.replicate_zero, List.foldl_nil, hbuffer]; rfl, hpending⟩
  | succ count ih =>
    rw [List.replicate_succ, List.foldl_cons]
    refine ih (h.next readSize) ?_
    rcases hcount with hspent | hload
    · exact Or.inl (hspent.next h.receptive readSize)
    · rcases next_cases limit readSize h.receptive with hspent | hless
      · exact Or.inl hspent
      · exact Or.inr (by omega)

/-! ### After a fault -/

/-- A malformed front stays, whatever happens around the assembler, and no frame is given. -/
theorem malformed_stays (readSize : Nat) (side : Side) {fault : FrameFault}
    (h : Frame.cut intake.assembler.buffer limit = .error fault)
    (later : List Assembler.Event) :
    (later.foldl (step limit readSize side) intake).assembler = intake.assembler ∧
      (later.foldl (step limit readSize side) intake).frames = intake.frames := by
  induction later using List.reverseRecOn with
  | nil => exact ⟨rfl, rfl⟩
  | append_singleton later event ih =>
    obtain ⟨hassembler, hframes⟩ := ih
    rw [List.foldl_append, List.foldl_cons, List.foldl_nil]
    generalize later.foldl (step limit readSize side) intake = before at hassembler hframes ⊢
    cases event with
    | write chunk =>
      simp only [step]
      split <;> exact ⟨hassembler, hframes⟩
    | close => exact ⟨hassembler, hframes⟩
    | next =>
      rw [← hassembler] at h
      rw [step_next_of_malformed h]
      exact ⟨hassembler, (frames_concat ..).trans (by rw [← hframes, List.append_nil])⟩

/-- No call will ever give a frame any more. -/
def Finished (limit : Nat) (side : Side) (intake : Intake) : Prop :=
  intake.Spent limit side ∧ (intake.link.isClosed side.other = true ∨
    ∃ fault, Frame.cut intake.assembler.buffer limit = .error fault)

theorem Finished.step (h : intake.Finished limit side) (hopen : intake.link.Receptive side)
    (readSize : Nat) (event : Assembler.Event) :
    (Intake.step limit readSize side intake event).Finished limit side := by
  obtain ⟨hspent, hend⟩ := h
  cases event with
  | write chunk =>
    simp only [Intake.step]
    rcases hopen.write_eq chunk with ⟨-, hwrite⟩ | ⟨hfar, after, hwrite⟩
    · rw [hwrite]
      exact ⟨hspent, hend⟩
    · rw [hwrite]
      rcases hend with hclosed | hmalformed
      · rw [hfar] at hclosed
        cases hclosed
      · exact ⟨Or.inl hmalformed, Or.inr hmalformed⟩
  | close =>
    refine ⟨?_, Or.inl (Link.isClosed_close_self ..)⟩
    simpa [Spent, Intake.step, pending, Link.close] using hspent
  | next =>
    refine ⟨hspent.next hopen readSize, ?_⟩
    rcases hend with hclosed | ⟨fault, hcut⟩
    · obtain ⟨-, hsame, -⟩ := intake.assembler.draws limit readSize hopen
      exact Or.inl (hsame.trans hclosed)
    · rw [step_next_of_malformed hcut]
      exact Or.inr ⟨fault, hcut⟩

/-- A call that is answered by a fault leaves an assembler that is finished. -/
theorem finished_of_fault (hopen : intake.link.Receptive side) {fault : Fault}
    (h : (intake.assembler.next limit readSize intake.link side).2 = .error fault) :
    (step limit readSize side intake .next).Finished limit side := by
  obtain ⟨-, hsame, hdraws⟩ := intake.assembler.draws limit readSize hopen
  simp only [Finished, Spent, step, pending] at hsame ⊢
  rw [hsame]
  generalize intake.assembler.next limit readSize intake.link side = called at h hdraws ⊢
  rcases called with ⟨⟨⟨buffer⟩, link⟩, answer⟩
  simp only at h hdraws ⊢
  generalize (link.ends.get side).pending = left at hdraws ⊢
  cases hdraws with
  | frame => cases h
  | unfinished => cases h
  | malformed _ hcut => exact ⟨Or.inl ⟨_, hcut⟩, Or.inr ⟨_, hcut⟩⟩
  | ended hgone _ hcut => exact ⟨Or.inr ⟨hcut, rfl⟩, Or.inl hgone⟩

theorem finished_run {fault : Fault}
    (h : .error fault ∈ (run limit readSize side events).answers) :
    (run limit readSize side events).Finished limit side := by
  induction events using List.reverseRecOn with
  | nil => cases h
  | append_singleton events event ih =>
    have hopen := (sound_run limit readSize side events).1.receptive
    rw [run_concat] at h ⊢
    generalize run limit readSize side events = before at ih hopen h ⊢
    by_cases hbefore : .error fault ∈ before.answers
    · exact (ih hbefore).step hopen readSize event
    · cases event with
      | write chunk =>
        simp only [step] at h
        split at h <;> exact absurd h hbefore
      | close => exact absurd h hbefore
      | next =>
        rcases List.mem_append.mp h with hold | hnew
        · exact absurd hold hbefore
        · exact finished_of_fault hopen (List.mem_singleton.mp hnew).symm

end Run

/-! ### Whatever the chunks -/

/-- What can be said of an assembler at any time, by the bytes that were offered to it alone. -/
structure Faithful (limit readSize : Nat) (side : Side) (events : List Assembler.Event)
    (now : Intake) (all : List (Frame.Piece limit) × Bytes) : Prop where
  /-- What was given are the first pieces, and the bytes of the others wait in the assembler and on
  the link. -/
  given : ∃ taken others, all.1 = taken ++ others ∧ now.frames = taken.map Frame.Piece.frame ∧
    offered events =
      taken.flatMap Frame.Piece.bytes ++ now.assembler.buffer ++ now.pending side
  /-- Each of the pieces is read as its frame by itself. -/
  decoded : ∀ piece ∈ all.1, Frame.decode piece.bytes = .ok piece.frame
  /-- No call waits while a frame is all there. -/
  prompt : (step limit readSize side now .next).answers = now.answers ++ [.ok none] →
    Frame.cut (step limit readSize side now .next).assembler.buffer limit = .ok none
  /-- Calls alone give all other pieces, and come to the bytes that are no frame, if there are. -/
  complete : ∀ count, 2 * (offered events).length ≤ count →
    (run limit readSize side (events ++ List.replicate count .next)).frames =
        all.1.map Frame.Piece.frame ∧
      ∀ fault, Frame.cut all.2 limit = .error fault →
        Frame.cut (run limit readSize side
          (events ++ List.replicate count .next)).assembler.buffer limit = .error fault
  /-- With a malformed front, every later call is answered by the same fault, and takes nothing. -/
  stuck : ∀ fault, Frame.cut now.assembler.buffer limit = .error fault → ∀ later,
    let after := run limit readSize side (events ++ later)
    after.assembler = now.assembler ∧ after.frames = now.frames ∧
      step limit readSize side after .next =
        { after with answers := after.answers ++ [.error (.frame fault)] }
  /-- A fault comes behind all pieces. -/
  last : ∀ fault, .error fault ∈ now.answers → now.frames = all.1.map Frame.Piece.frame

/-- **What an assembler gives does not depend on the chunks.**  Whatever the limit and the size of a
read, and in whatever order the other end writes, closes and the assembler is called: the frames are
the pieces of the bytes that were written, in their order. -/
theorem faithful (limit readSize : Nat) (side : Side) (events : List Assembler.Event) :
    Faithful limit readSize side events (run limit readSize side events)
      (Frame.pieces limit (offered events)) := by
  obtain ⟨hsound, -⟩ := sound_run limit readSize side events
  obtain ⟨taken, hframes, hbytes, hpieces⟩ := hsound.pieces_eq
  refine ⟨⟨taken, _, by rw [hpieces], hframes, hbytes⟩, fun piece _ => piece.decode_bytes,
    fun hnone => ?_, fun count hcount => ?_, fun fault hcut later => ?_, fun fault hfault => ?_⟩
  · -- a call that gives nothing found no frame in front
    obtain ⟨-, -, hdraws⟩ :=
      (run limit readSize side events).assembler.draws limit readSize hsound.receptive
    have hanswer := List.append_cancel_left hnone
    simp only [step] at hanswer ⊢
    rw [List.singleton_inj.mp hanswer] at hdraws
    generalize ((run limit readSize side events).assembler.next limit readSize
      (run limit readSize side events).link side).1 = held at hdraws ⊢
    rcases held with ⟨⟨buffer⟩, link⟩
    simp only at hdraws ⊢
    generalize (link.ends.get side).pending = left at hdraws
    cases hdraws with
    | unfinished _ hcut _ => exact hcut
  · -- as many calls as there is to work off leave nothing
    have hload : load side (run limit readSize side events) ≤ count := by
      have hlength := congrArg List.length hbytes
      simp only [List.length_append] at hlength
      simp only [load, Assembler.buffered]
      omega
    obtain ⟨hlate, hspent⟩ := spent_of_calls readSize hsound (Or.inr hload)
    rw [← run_append] at hlate hspent
    obtain ⟨given, hgiven, -, hall⟩ := hlate.pieces_eq
    rw [hspent.pieces_eq, List.append_nil] at hall
    rw [hall]
    refine ⟨hgiven, fun fault hcut => ?_⟩
    rcases hspent with ⟨other, hother⟩ | ⟨hnone, hdry⟩
    · rw [Frame.cut_error_append hother] at hcut
      rw [hother, hcut]
    · rw [hdry, List.append_nil, hnone] at hcut
      cases hcut
  · -- a malformed front stays
    have hstays := malformed_stays readSize side hcut later
    rw [← run_append] at hstays
    obtain ⟨hassembler, hsame⟩ := hstays
    refine ⟨hassembler, hsame, step_next_of_malformed ?_⟩
    rw [hassembler]
    exact hcut
  · rw [hpieces, (finished_run hfault).1.pieces_eq, List.append_nil, hframes]

/-- One byte at a time, with a frame in three chunks and a length behind it that is too long. -/
example : (run 1 0 .listener [.write [0x00], .next, .write [0x01], .next, .write [0x61, 0x02],
    .next, .write [0x02, 0x61], .close, .next, .next, .next]).answers =
    [.ok none, .ok none, .ok (some ⟨0, 0, [0x61]⟩), .ok none, .error (.frame (.tooLarge 2 1)),
      .error (.frame (.tooLarge 2 1))] := by
  decide +kernel

end Intake

end StreamMux
