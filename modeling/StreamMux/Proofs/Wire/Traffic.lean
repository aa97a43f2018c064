import Mathlib.Data.List.Induction
import StreamMux.Proofs.Wire.Reading
import StreamMux.Proofs.Wire.Unfinished

/-!
# What goes over a link

A link is used through calls at its two ends, which come in any order.  `Link.play` makes them on a
new link and keeps the record of what was called and answered; what an end wrote, and what it took
off the link, are read off that record.

* `Link.Traffic.Kept` — what every call keeps: what an end took, and then what is still on its way
  to it, is what the other end wrote;
* `Link.ReadAnswer`, `Link.WriteAnswer` — what a read and a write answer, by what was called before;
* `Link.reliable` — a link is a reliable row of bytes in each direction, with an orderly close.
-/

namespace StreamMux.Link

/-! ### Calls -/

/-- What is asked of an end. -/
inductive Call where
  | write (chunk : Bytes)
  | read (size : Nat)
  | close
  | reset
  deriving DecidableEq, Repr

/-- What the end answers. -/
inductive Reply where
  | written (result : Except LinkFault Unit)
  | read (result : Except LinkFault (Option Bytes))
  | done

/-- Makes a call at an end. -/
def serve (link : Link) (side : Side) : Call → Link × Reply
  | .write chunk =>
    match link.write side chunk with
    | .ok after => (after, .written (.ok ()))
    | .error fault => (link, .written (.error fault))
  | .read size => ((link.read side size).1, .read (link.read side size).2)
  | .close => (link.close side, .done)
  | .reset => (link.reset, .done)

/-- A call at an end, and its answer. -/
structure Exchange where
  side : Side
  call : Call
  reply : Reply

/-- What an exchange put on the link at an end: the chunk of a write there that went through. -/
def Exchange.written (side : Side) : Exchange → Bytes
  | ⟨s, .write chunk, .written (.ok ())⟩ => if s = side then chunk else []
  | _ => []

/-- What an exchange took off the link at an end: the chunk that a read there gave. -/
def Exchange.taken (side : Side) : Exchange → Bytes
  | ⟨s, .read _, .read (.ok (some chunk))⟩ => if s = side then chunk else []
  | _ => []

/-- A link, and all exchanges on it, oldest first. -/
structure Traffic where
  link : Link := {}
  record : List Exchange := []

namespace Traffic

def call (traffic : Traffic) (side : Side) (call : Call) : Traffic :=
  { link := (traffic.link.serve side call).1
    record := traffic.record ++ [⟨side, call, (traffic.link.serve side call).2⟩] }

/-- All that was written at an end. -/
def written (traffic : Traffic) (side : Side) : Bytes :=
  traffic.record.flatMap (Exchange.written side)

/-- All that was read at an end. -/
def taken (traffic : Traffic) (side : Side) : Bytes :=
  traffic.record.flatMap (Exchange.taken side)

theorem written_call (traffic : Traffic) (s : Side) (call : Call) (side : Side) :
    (traffic.call s call).written side =
      traffic.written side ++ Exchange.written side ⟨s, call, (traffic.link.serve s call).2⟩ := by
  simp [written, Traffic.call]

theorem taken_call (traffic : Traffic) (s : Side) (call : Call) (side : Side) :
    (traffic.call s call).taken side =
      traffic.taken side ++ Exchange.taken side ⟨s, call, (traffic.link.serve s call).2⟩ := by
  simp [taken, Traffic.call]

end Traffic

/-- A new link, after calls at its ends. -/
def play (calls : List (Side × Call)) : Traffic :=
  calls.foldl (fun traffic step => traffic.call step.1 step.2) {}

theorem play_concat (calls : List (Side × Call)) (side : Side) (call : Call) :
    play (calls ++ [(side, call)]) = (play calls).call side call := by
  simp [play]

/-! ### What a call does to the ends -/

variable {link after : Link} {side : Side}

/-- What stands in an inbox after a write stood there before, or is the chunk. -/
theorem mem_inbox_write {chunk other : Bytes} (h : link.write side chunk = .ok after)
    (hother : other ∈ (after.ends.get side.other).inbox) :
    other ∈ (link.ends.get side.other).inbox ∨ (other = chunk ∧ chunk ≠ []) := by
  unfold Link.write at h
  split at h
  · cases h
  · split at h
    · cases h
      exact Or.inl hother
    · rename_i hchunk
      cases h
      rw [Both.get_set_self, List.mem_append, List.mem_singleton] at hother
      exact hother.imp_right fun heq => ⟨heq, by simpa using hchunk⟩

theorem mem_inbox_read {size : Nat} {chunk : Bytes}
    (h : chunk ∈ ((link.read side size).1.ends.get side).inbox) :
    chunk ∈ (link.ends.get side).inbox := by
  unfold Link.read at h
  simp only at h
  split at h
  · exact h
  · split at h
    · exact h
    · split at h
      · rwa [Both.get_set_self] at h
      · split at h
        · rename_i hinbox
          rw [Both.get_set_self] at h
          rw [hinbox]
          exact List.mem_cons_of_mem _ h
        · exact h

theorem read_flags (link : Link) (side : Side) (size : Nat) :
    (link.read side size).1.wasReset = link.wasReset ∧
      ∀ s, (link.read side size).1.isClosed s = link.isClosed s := by
  rcases hread : link.read side size with ⟨after, fault | _ | chunk⟩
  · rw [read_eq hread (by simp)]
    exact ⟨rfl, fun _ => rfl⟩
  · rw [read_eq hread (by simp)]
    exact ⟨rfl, fun _ => rfl⟩
  · obtain ⟨hreset, hnear, hfar⟩ := read_keeps hread
    exact ⟨hreset, Side.both side hnear hfar⟩

theorem pending_close (link : Link) (s side : Side) :
    ((link.close s).ends.get side).pending = (link.ends.get side).pending ∧
      ((link.close s).ends.get side).inbox = (link.ends.get side).inbox := by
  revert side
  refine Side.both s ?_ ?_ <;> simp [close, LinkEnd.pending]

/-! ### What every call keeps -/

/-- The books of a link agree with the calls that were made on it. -/
structure Traffic.Kept (traffic : Traffic) (calls : List (Side × Call)) : Prop where
  /-- What an end took, and then what is on its way to it, is what the other end wrote. -/
  order : ∀ side, traffic.taken side ++ (traffic.link.ends.get side).pending =
    traffic.written side.other
  full : ∀ side, ∀ chunk ∈ (traffic.link.ends.get side).inbox, chunk ≠ []
  closed : ∀ side, traffic.link.isClosed side = true ↔ (side, .close) ∈ calls
  reset : traffic.link.wasReset = true ↔ ∃ side, (side, .reset) ∈ calls

section Step

variable {traffic : Traffic} {calls : List (Side × Call)}

/-- A call that changes no flag leaves what is said about the flags. -/
theorem Traffic.Kept.of_flags (h : traffic.Kept calls) {s : Side} {call : Call}
    (hclose : call ≠ .close) (hreset : call ≠ .reset)
    (hflag : (traffic.link.serve s call).1.wasReset = traffic.link.wasReset)
    (hclosed : ∀ side, (traffic.link.serve s call).1.isClosed side = traffic.link.isClosed side)
    (horder : ∀ side, (traffic.call s call).taken side ++
      ((traffic.link.serve s call).1.ends.get side).pending =
        (traffic.call s call).written side.other)
    (hfull : ∀ side, ∀ chunk ∈ ((traffic.link.serve s call).1.ends.get side).inbox, chunk ≠ []) :
    (traffic.call s call).Kept (calls ++ [(s, call)]) where
  order := horder
  full := hfull
  closed side := by
    change (traffic.link.serve s call).1.isClosed side = true ↔ _
    rw [hclosed, h.closed]
    simp [hclose.symm]
  reset := by
    change (traffic.link.serve s call).1.wasReset = true ↔ _
    rw [hflag, h.reset]
    simp [hreset.symm]

theorem Traffic.Kept.write (h : traffic.Kept calls) (s : Side) (chunk : Bytes) :
    (traffic.call s (.write chunk)).Kept (calls ++ [(s, .write chunk)]) := by
  rcases hwrite : traffic.link.write s chunk with fault | after
  · have hserve : traffic.link.serve s (.write chunk) =
        (traffic.link, .written (.error fault)) := by
      simp [serve, hwrite]
    refine h.of_flags (by simp) (by simp) (by rw [hserve]) (fun _ => by rw [hserve])
      (fun side => ?_) (by rw [hserve]; exact h.full)
    rw [taken_call, written_call, hserve]
    simpa [Exchange.taken, Exchange.written] using h.order side
  · have hserve : traffic.link.serve s (.write chunk) = (after, .written (.ok ())) := by
      simp [serve, hwrite]
    obtain ⟨hnear, hfar, hreset⟩ := write_keeps hwrite
    refine h.of_flags (by simp) (by simp) (by rw [hserve]; exact hreset)
      (by rw [hserve]; exact Side.both s hnear hfar) ?_ ?_
    · simp only [taken_call, written_call, hserve, Exchange.taken, Exchange.written,
        List.append_nil]
      refine Side.both s ?_ ?_
      · rw [get_write_self hwrite, if_neg s.ne_other, List.append_nil]
        exact h.order s
      · rw [pending_write hwrite, Side.other_other, if_pos rfl, ← List.append_assoc, h.order,
          Side.other_other]
    · rw [hserve]
      refine Side.both s ?_ fun other hother => ?_
      · rw [get_write_self hwrite]
        exact h.full s
      · rcases mem_inbox_write hwrite hother with hold | ⟨rfl, hnew⟩
        · exact h.full _ other hold
        · exact hnew

theorem Traffic.Kept.read (h : traffic.Kept calls) (s : Side) (size : Nat) :
    (traffic.call s (.read size)).Kept (calls ++ [(s, .read size)]) := by
  obtain ⟨hreset, hclosed⟩ := traffic.link.read_flags s size
  have hfar := traffic.link.get_read_other s size
  refine h.of_flags (by simp) (by simp) hreset hclosed ?_ ?_
  · simp only [taken_call, written_call, serve, Exchange.written, List.append_nil]
    refine Side.both s ?_ ?_
    · rcases hread : traffic.link.read s size with ⟨after, fault | _ | chunk⟩
      · simpa [Exchange.taken, read_eq hread] using h.order s
      · simpa [Exchange.taken, read_eq hread] using h.order s
      · simp only [Exchange.taken, if_true]
        rw [List.append_assoc, ← pending_read hread]
        exact h.order s
    · rw [hfar, ← h.order s.other]
      rcases (traffic.link.read s size).2 with fault | _ | chunk <;>
        simp [Exchange.taken, s.ne_other]
  · refine Side.both s (fun chunk hchunk => h.full s chunk (mem_inbox_read hchunk)) ?_
    simp only [serve]
    rw [hfar]
    exact h.full s.other

theorem Traffic.Kept.close (h : traffic.Kept calls) (s : Side) :
    (traffic.call s .close).Kept (calls ++ [(s, .close)]) where
  order side := by
    rw [taken_call, written_call]
    simp only [Traffic.call, serve, Exchange.taken, Exchange.written, List.append_nil]
    rw [(pending_close _ s side).1]
    exact h.order side
  full side := by
    simp only [Traffic.call, serve]
    rw [(pending_close _ s side).2]
    exact h.full side
  closed := by
    simp only [Traffic.call, serve, List.mem_append, List.mem_singleton, Prod.mk.injEq, and_true]
    refine Side.both s ?_ ?_
    · simp
    · rw [isClosed_close_other, h.closed]
      simp [s.ne_other.symm]
  reset := by
    change traffic.link.wasReset = true ↔ _
    rw [h.reset]
    simp

theorem Traffic.Kept.broken (h : traffic.Kept calls) (s : Side) :
    (traffic.call s .reset).Kept (calls ++ [(s, .reset)]) where
  order side := by
    rw [taken_call, written_call]
    simp only [Exchange.taken, Exchange.written, List.append_nil]
    exact h.order side
  full := h.full
  closed side := by
    change traffic.link.isClosed side = true ↔ _
    rw [h.closed]
    simp
  reset := by simp [Traffic.call, serve, Link.reset]

theorem Traffic.Kept.call (h : traffic.Kept calls) (s : Side) (call : Call) :
    (traffic.call s call).Kept (calls ++ [(s, call)]) := by
  cases call with
  | write chunk => exact h.write s chunk
  | read size => exact h.read s size
  | close => exact h.close s
  | reset => exact h.broken s

end Step

theorem kept_play (calls : List (Side × Call)) : (play calls).Kept calls := by
  induction calls using List.reverseRecOn with
  | nil =>
    refine ⟨fun side => ?_, fun side => ?_, fun side => ?_, by simp [play]⟩ <;>
      cases side <;>
      simp [play, Traffic.taken, Traffic.written, LinkEnd.pending, isClosed, Both.get]
  | append_singleton calls step ih =>
    rw [play_concat]
    exact ih.call step.1 step.2

/-! ### What an end answers -/

/-- An end was not closed, and the link not reset. -/
def Usable (calls : List (Side × Call)) (side : Side) : Prop :=
  (side, Call.close) ∉ calls ∧ ∀ s, (s, Call.reset) ∉ calls

/-- What a read at an end answers, after calls on a new link. -/
inductive ReadAnswer (calls : List (Side × Call)) (side : Side) (size : Nat) :
    Except LinkFault (Option Bytes) → Prop where
  | closed (own : (side, .close) ∈ calls) : ReadAnswer calls side size (.error .closed)
  | reset (own : (side, .close) ∉ calls) (some : ∃ s, (s, .reset) ∈ calls) :
      ReadAnswer calls side size (.error .reset)
  /-- The bytes that come next of what the other end wrote. -/
  | chunk {chunk : Bytes} (usable : Usable calls side) (nonempty : chunk ≠ [])
      (fits : chunk.length ≤ max size 1)
      (next : (play calls).taken side ++ chunk <+: (play calls).written side.other) :
      ReadAnswer calls side size (.ok (some chunk))
  /-- All that was written was read, and more may come. -/
  | nothing (usable : Usable calls side) (far : (side.other, .close) ∉ calls)
      (all : (play calls).taken side = (play calls).written side.other) :
      ReadAnswer calls side size (.ok none)
  /-- All that was written was read, and nothing more comes. -/
  | ended (usable : Usable calls side) (far : (side.other, .close) ∈ calls)
      (all : (play calls).taken side = (play calls).written side.other) :
      ReadAnswer calls side size (.error .closed)

/-- What a write at an end answers, after calls on a new link. -/
inductive WriteAnswer (calls : List (Side × Call)) (side : Side) :
    Except LinkFault Unit → Prop where
  | closed (own : (side, .close) ∈ calls) : WriteAnswer calls side (.error .closed)
  | reset (own : (side, .close) ∉ calls)
      (gone : (∃ s, (s, .reset) ∈ calls) ∨ (side.other, .close) ∈ calls) :
      WriteAnswer calls side (.error .reset)
  | written (usable : Usable calls side) (far : (side.other, .close) ∉ calls) :
      WriteAnswer calls side (.ok ())

section Answers

variable (calls : List (Side × Call)) (side : Side)

theorem closed_or_reset_or_usable :
    (side, Call.close) ∈ calls ∨
      ((side, Call.close) ∉ calls ∧ ∃ s, (s, Call.reset) ∈ calls) ∨ Usable calls side := by
  by_cases hown : (side, Call.close) ∈ calls
  · exact Or.inl hown
  · by_cases hreset : ∃ s, (s, Call.reset) ∈ calls
    · exact Or.inr (Or.inl ⟨hown, hreset⟩)
    · exact Or.inr (Or.inr ⟨hown, not_exists.mp hreset⟩)

theorem Usable.receptive {calls : List (Side × Call)} {side : Side} (h : Usable calls side) :
    (play calls).link.Receptive side := by
  have hkept := kept_play calls
  refine ⟨?_, ?_, hkept.full side⟩
  · exact Bool.eq_false_iff.mpr fun hclosed => h.1 ((hkept.closed side).mp hclosed)
  · refine Bool.eq_false_iff.mpr fun hreset => ?_
    obtain ⟨s, hs⟩ := hkept.reset.mp hreset
    exact h.2 s hs

theorem readAnswer (size : Nat) :
    ReadAnswer calls side size ((play calls).link.read side size).2 := by
  have hkept := kept_play calls
  rcases closed_or_reset_or_usable calls side with hown | ⟨hown, hreset⟩ | husable
  · have hclosed : ((play calls).link.ends.get side).closed = true := (hkept.closed side).mpr hown
    simp only [Link.read, hclosed, if_true]
    exact .closed hown
  · have hopen : ((play calls).link.ends.get side).closed ≠ true :=
      fun hclosed => hown ((hkept.closed side).mp hclosed)
    simp only [Link.read, if_neg hopen, hkept.reset.mpr hreset, if_true]
    exact .reset hown hreset
  · rcases husable.receptive.read size with ⟨after, chunk, hread, hchunk, -, -⟩ | ⟨hread, hdry⟩
    · rw [hread]
      refine .chunk husable hchunk (length_le_of_read hread) ?_
      rw [← hkept.order side, pending_read hread, ← List.append_assoc]
      exact List.prefix_append ..
    · have hall := hkept.order side
      rw [hdry, List.append_nil] at hall
      rw [hread]
      by_cases hfar : (side.other, Call.close) ∈ calls
      · rw [(hkept.closed side.other).mpr hfar]
        exact .ended husable hfar hall
      · rw [if_neg fun hclosed => hfar ((hkept.closed side.other).mp hclosed)]
        exact .nothing husable hfar hall

theorem writeAnswer (chunk : Bytes) :
    WriteAnswer calls side (((play calls).link.write side chunk).map fun _ => ()) := by
  have hkept := kept_play calls
  have hfault : ∀ fault, (play calls).link.writeFault? side = some fault →
      ((play calls).link.write side chunk).map (fun _ => ()) = .error fault := by
    intro fault h
    simp only [Link.write, h]
    rfl
  rcases closed_or_reset_or_usable calls side with hown | ⟨hown, hreset⟩ | husable
  · rw [hfault .closed (by rw [writeFault?, if_pos ((hkept.closed side).mpr hown)])]
    exact .closed hown
  · have hopen := mt (hkept.closed side).mp hown
    rw [hfault .reset (by rw [writeFault?, if_neg hopen, hkept.reset.mpr hreset]; rfl)]
    exact .reset hown (Or.inl hreset)
  · have hthere := husable.receptive
    by_cases hfar : (side.other, Call.close) ∈ calls
    · have hclosed := (hkept.closed side.other).mpr hfar
      rw [hfault .reset (by simp [writeFault?, hthere.near, hclosed])]
      exact .reset husable.1 (Or.inr hfar)
    · have hopen := Bool.eq_false_iff.mpr (mt (hkept.closed side.other).mp hfar)
      have hnone : (play calls).link.writeFault? side = none := by
        simp [writeFault?, hthere.near, hthere.reset, hopen]
      have hok : ((play calls).link.write side chunk).map (fun _ => ()) = .ok () := by
        simp only [Link.write, hnone]
        split <;> rfl
      rw [hok]
      exact .written husable hfar

end Answers

/-! ### Reading to the end -/

section Drain

variable {calls : List (Side × Call)}

theorem Usable.read (h : Usable calls side) (size : Nat) :
    Usable (calls ++ [(side, .read size)]) side := by
  simpa [Usable] using h

theorem written_read (calls : List (Side × Call)) (s side : Side) (size : Nat) :
    (play (calls ++ [(s, .read size)])).written side = (play calls).written side := by
  rw [play_concat, Traffic.written_call]
  simp [Exchange.written]

theorem taken_read (h : Usable calls side) (size : Nat) :
    ((play calls).written side.other).length ≤
        ((play (calls ++ [(side, .read size)])).taken side).length ∨
      ((play calls).taken side).length <
        ((play (calls ++ [(side, .read size)])).taken side).length := by
  rw [play_concat, Traffic.taken_call, List.length_append]
  have hall : (play calls).taken side = (play calls).written side.other →
      ((play calls).written side.other).length ≤ ((play calls).taken side).length +
        (Exchange.taken side ⟨side, .read size,
          ((play calls).link.serve side (.read size)).2⟩).length := by
    intro hall
    rw [hall]
    omega
  have hanswer := readAnswer calls side size
  generalize hresult : ((play calls).link.read side size).2 = result at hanswer
  cases hanswer with
  | closed own => exact absurd own h.1
  | reset own some => exact absurd some (not_exists.mpr h.2)
  | nothing usable far all => exact Or.inl (hall all)
  | ended usable far all => exact Or.inl (hall all)
  | chunk usable nonempty fits next =>
    right
    simp only [serve, hresult, Exchange.taken, if_true]
    -- a chunk that is read is not empty
    have hpos := List.length_pos_iff.mpr nonempty
    omega

theorem order (calls : List (Side × Call)) (side : Side) :
    (play calls).taken side <+: (play calls).written side.other := by
  rw [← (kept_play calls).order side]
  exact List.prefix_append ..

/-- Reads that are as many as the bytes that are left take them all. -/
theorem taken_reads (h : Usable calls side) (sizes : List Nat)
    (henough : ((play calls).written side.other).length ≤
      ((play calls).taken side).length + sizes.length) :
    (play (calls ++ sizes.map fun size => (side, .read size))).taken side =
      (play calls).written side.other := by
  induction sizes generalizing calls with
  | nil =>
    rw [List.map_nil, List.append_nil]
    exact (order calls side).eq_of_length_le henough
  | cons size sizes ih =>
    have hwritten := written_read calls side side.other size
    rw [List.map_cons, List.append_cons, ← hwritten]
    refine ih (h.read size) ?_
    rw [hwritten]
    rw [List.length_cons] at henough
    rcases taken_read h size with hall | hmore <;> omega

end Drain

/-! ### The two directions -/

/-- Whether a call has to do with the bytes on their way to an end: a write at the other end, a
read there, and whatever closes or resets. -/
def Call.towards (side s : Side) : Call → Bool
  | .write _ => s = side.other
  | .read _ => s = side
  | .close | .reset => true

/-- Two links that are alike in one direction. -/
structure Agrees (side : Side) (link link' : Link) : Prop where
  near : link.ends.get side = link'.ends.get side
  far : link.isClosed side.other = link'.isClosed side.other
  reset : link.wasReset = link'.wasReset

section Agrees

variable {link' : Link}

theorem Agrees.set (h : link.Agrees side link') (near : LinkEnd) (wasReset : Bool) :
    Agrees side ⟨link.ends.set side near, wasReset⟩ ⟨link'.ends.set side near, wasReset⟩ :=
  ⟨by simp, by simpa [isClosed] using h.far, rfl⟩

theorem Agrees.write (h : link.Agrees side link') (chunk : Bytes) :
    (link.serve side.other (.write chunk)).2 = (link'.serve side.other (.write chunk)).2 ∧
      (link.serve side.other (.write chunk)).1.Agrees side
        (link'.serve side.other (.write chunk)).1 := by
  have hnear : link.isClosed side = link'.isClosed side := congrArg LinkEnd.closed h.near
  have hfault : link.writeFault? side.other = link'.writeFault? side.other := by
    simp only [writeFault?, side.other_other, h.far, h.reset, hnear]
  simp only [serve, Link.write, hfault, side.other_other]
  cases link'.writeFault? side.other with
  | some fault => exact ⟨rfl, h⟩
  | none =>
    by_cases hempty : chunk.isEmpty = true
    · simp only [if_pos hempty]
      exact ⟨trivial, h⟩
    · simp only [if_neg hempty, h.near, h.reset]
      exact ⟨trivial, h.set _ _⟩

theorem Agrees.read (h : link.Agrees side link') (size : Nat) :
    (link.serve side (.read size)).2 = (link'.serve side (.read size)).2 ∧
      (link.serve side (.read size)).1.Agrees side (link'.serve side (.read size)).1 := by
  simp only [serve, Link.read, h.near, h.far, h.reset]
  split
  · exact ⟨rfl, h⟩
  · split
    · exact ⟨rfl, h⟩
    · split
      · exact ⟨rfl, h.set _ _⟩
      · split
        · exact ⟨rfl, h.set _ _⟩
        · exact ⟨rfl, h⟩

theorem Agrees.close (h : link.Agrees side link') (s : Side) :
    (link.close s).Agrees side (link'.close s) := by
  revert s
  refine Side.both side ⟨?_, ?_, h.reset⟩ ⟨?_, ?_, h.reset⟩
  · simp [Link.close, h.near]
  · simpa using h.far
  · simpa [Link.close] using h.near
  · simp

/-- Alike links answer a call of the direction alike, and stay alike. -/
theorem Agrees.serve (h : link.Agrees side link') {s : Side} {call : Call}
    (hcall : call.towards side s = true) :
    (link.serve s call).2 = (link'.serve s call).2 ∧
      (link.serve s call).1.Agrees side (link'.serve s call).1 := by
  cases call with
  | write chunk =>
    obtain rfl : s = side.other := by simpa [Call.towards] using hcall
    exact h.write chunk
  | read size =>
    obtain rfl : s = side := by simpa [Call.towards] using hcall
    exact h.read size
  | close => exact ⟨rfl, h.close s⟩
  | reset => exact ⟨rfl, h.near, h.far, rfl⟩

theorem Agrees.past (h : link.Agrees side link') {s : Side} {call : Call}
    (hcall : call.towards side s = false) : (link.serve s call).1.Agrees side link' := by
  cases call with
  | write chunk =>
    obtain rfl : s = side := by
      cases s <;> cases side <;> simp_all [Call.towards, Side.other]
    simp only [Link.serve]
    rcases hwrite : link.write s chunk with fault | after
    · exact h
    · obtain ⟨-, hfar, hreset⟩ := write_keeps hwrite
      exact ⟨(get_write_self hwrite).trans h.near, hfar.trans h.far, hreset.trans h.reset⟩
  | read size =>
    obtain rfl : s = side.other := by
      cases s <;> cases side <;> simp_all [Call.towards, Side.other]
    obtain ⟨hreset, hclosed⟩ := link.read_flags side.other size
    have hnear := link.get_read_other side.other size
    rw [side.other_other] at hnear
    exact ⟨hnear.trans h.near, (hclosed _).trans h.far, hreset.trans h.reset⟩
  | close => cases hcall
  | reset => cases hcall

end Agrees

/-- The calls that have to do with the bytes on their way to an end. -/
def callsTowards (side : Side) (calls : List (Side × Call)) : List (Side × Call) :=
  calls.filter fun step => step.2.towards side step.1

/-- The exchanges that have to do with the bytes on their way to an end. -/
def Traffic.recordTowards (side : Side) (traffic : Traffic) : List Exchange :=
  traffic.record.filter fun exchange => exchange.call.towards side exchange.side

/-- **The directions never mix**: what is answered in one direction does not depend on the writes
and reads of the other. -/
theorem recordTowards_play (side : Side) (calls : List (Side × Call)) :
    (play calls).recordTowards side = (play (callsTowards side calls)).record ∧
      (play calls).link.Agrees side (play (callsTowards side calls)).link := by
  induction calls using List.reverseRecOn with
  | nil => exact ⟨rfl, rfl, rfl, rfl⟩
  | append_singleton calls step ih =>
    obtain ⟨s, call⟩ := step
    obtain ⟨hrecord, hagrees⟩ := ih
    by_cases hcall : call.towards side s = true
    · obtain ⟨hreply, hafter⟩ := hagrees.serve hcall
      have hcalls : callsTowards side (calls ++ [(s, call)]) =
          callsTowards side calls ++ [(s, call)] := by simp [callsTowards, hcall]
      have hadded : ((play calls).call s call).recordTowards side =
          (play calls).recordTowards side ++
            [⟨s, call, ((play calls).link.serve s call).2⟩] := by
        simp [Traffic.recordTowards, Traffic.call, hcall]
      rw [play_concat, hadded, hcalls, play_concat, hrecord, hreply]
      exact ⟨rfl, hafter⟩
    · have hskipped : callsTowards side (calls ++ [(s, call)]) = callsTowards side calls := by
        simp [callsTowards, hcall]
      have hsame : ((play calls).call s call).recordTowards side =
          (play calls).recordTowards side := by
        simp [Traffic.recordTowards, Traffic.call, hcall]
      rw [play_concat, hsame, hskipped]
      exact ⟨hrecord, hagrees.past (Bool.eq_false_iff.mpr hcall)⟩

/-! ### Reliability -/

/-- What can be relied on at an end of a link, after calls at both. -/
structure Reliable (calls : List (Side × Call)) (side : Side) : Prop where
  /-- An end reads what the other end wrote, in that order. -/
  order : (play calls).taken side <+: (play calls).written side.other
  reads : ∀ size, ReadAnswer calls side size ((play calls).link.read side size).2
  writes : ∀ chunk,
    WriteAnswer calls side (((play calls).link.write side chunk).map fun _ => ())
  /-- A write that fails adds nothing: the link stays as it was. -/
  refused : ∀ chunk fault, (play calls).link.write side chunk = .error fault →
    (play (calls ++ [(side, .write chunk)])).link = (play calls).link
  /-- All that was written is read in the end, also when the other end was closed since. -/
  drains : Usable calls side → ∀ sizes : List Nat,
    ((play calls).written side.other).length ≤
      ((play calls).taken side).length + sizes.length →
    (play (calls ++ sizes.map fun size => (side, .read size))).taken side =
      (play calls).written side.other
  /-- Without the writes and the reads of the other direction, all answers are the same. -/
  apart : (play calls).recordTowards side = (play (callsTowards side calls)).record

/-- **A link is reliable**, whatever is called at its ends and in whatever order. -/
theorem reliable (calls : List (Side × Call)) (side : Side) : Reliable calls side where
  order := order calls side
  reads := readAnswer calls side
  writes := writeAnswer calls side
  refused chunk fault h := by
    rw [play_concat]
    simp only [Traffic.call, serve, h]
  drains h := taken_reads h
  apart := (recordTowards_play side calls).1

/-- What a short read leaves is read after the other end was closed, and only then the end comes. -/
example : ((play [(.dialer, .write [1, 2, 3]), (.dialer, .close), (.listener, .read 2),
    (.listener, .read 2), (.listener, .read 2)]).record.map Exchange.reply).drop 2 =
      [.read (.ok (some [1, 2])), .read (.ok (some [3])), .read (.error .closed)] := rfl

end StreamMux.Link
