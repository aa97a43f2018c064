import Mathlib.Data.List.Induction
import StreamMux.Proofs.Session.Registry

/-!
# A stream as a bounded queue

A stream is used through calls, which come in any order: chunks are pushed and read, with or without
waiting, and the stream is finished or severed.

* `Dialogue.play` — makes calls on a state, and keeps the record of what was called and answered;
* `Stream.Kept` — what every call keeps: chunks come out as they went in, few of them wait, and the
  state is that of the first call that ended the stream;
* `Stream.serve_channel` — a stream whose state and whose sending half are two fields answers alike;
* `Stream.bounded_queue` — a stream is a bounded queue that ends once.
-/

namespace StreamMux

/-! ### Calls and their answers -/

/-- A state after some calls, and all calls with their answers, oldest first. -/
structure Dialogue (σ ι ο : Type) where
  state : σ
  record : List (ι × ο) := []

namespace Dialogue

variable {σ τ ι ο : Type} (serve : σ → ι → σ × ο)

def call (dialogue : Dialogue σ ι ο) (call : ι) : Dialogue σ ι ο :=
  { state := (serve dialogue.state call).1
    record := dialogue.record ++ [(call, (serve dialogue.state call).2)] }

/-- Makes calls, from a state on. -/
def play (start : σ) (calls : List ι) : Dialogue σ ι ο :=
  calls.foldl (call serve) { state := start }

theorem play_concat (start : σ) (calls : List ι) (last : ι) :
    play serve start (calls ++ [last]) = call serve (play serve start calls) last := by
  simp [play]

/-- If one state stands for another and each call shows it, then so does every row of calls. -/
theorem play_map {serve : σ → ι → σ × ο} {serve' : τ → ι → τ × ο} (view : σ → τ)
    (hserve : ∀ state call,
      serve' (view state) call = (view (serve state call).1, (serve state call).2))
    (start : σ) (calls : List ι) :
    play serve' (view start) calls =
      { state := view (play serve start calls).state,
        record := (play serve start calls).record } := by
  induction calls using List.reverseRecOn with
  | nil => rfl
  | append_singleton calls last ih =>
    rw [play_concat, play_concat, ih]
    simp [call, hserve]

end Dialogue

theorem Ending.state_ne_live (ending : Ending) : ending.state ≠ .live := by
  cases ending <;> simp [state]

namespace Stream

variable {stream : Stream}

/-! ### What each operation comes to -/

theorem push_cases (stream : Stream) (chunk : Bytes) :
    (stream.state ≠ .live ∧ stream.push chunk = (stream, .over)) ∨
    (stream.state = .live ∧ stream.capacity ≤ stream.queue.length ∧
      stream.push chunk = (stream, .full)) ∨
    (stream.state = .live ∧ stream.queue.length < stream.capacity ∧
      stream.push chunk = ({ stream with queue := stream.queue ++ [chunk] }, .queued)) := by
  unfold push
  by_cases hover : stream.isOver = true
  · left
    rw [if_pos hover]
    exact ⟨by simpa [isOver] using hover, rfl⟩
  right
  have hlive := state_eq_live_iff.mpr (Bool.eq_false_iff.mpr hover)
  rw [if_neg hover]
  by_cases hfull : stream.queue.length ≥ stream.capacity
  · left
    rw [if_pos hfull]
    exact ⟨hlive, hfull, rfl⟩
  · right
    rw [if_neg hfull]
    exact ⟨hlive, Nat.lt_of_not_le hfull, rfl⟩

theorem pop_cases (stream : Stream) :
    (∃ chunk queue, stream.queue = chunk :: queue ∧
      stream.pop = ({ stream with queue }, .chunk chunk)) ∨
    (stream.state ≠ .live ∧ stream.queue = [] ∧ stream.pop = (stream, .over)) ∨
    (stream.state = .live ∧ stream.queue = [] ∧ stream.pop = (stream, .empty)) := by
  unfold pop
  rcases hqueue : stream.queue with _ | ⟨chunk, queue⟩
  · right
    by_cases hover : stream.isOver = true
    · left
      rw [if_pos hover]
      exact ⟨by simpa [isOver] using hover, rfl, rfl⟩
    · right
      rw [if_neg hover]
      exact ⟨state_eq_live_iff.mpr (Bool.eq_false_iff.mpr hover), rfl, rfl⟩
  · left
    exact ⟨chunk, queue, rfl, rfl⟩

theorem terminate_cases (stream : Stream) (ending : Ending) :
    (stream.state ≠ .live ∧ stream.terminate ending = (stream, false)) ∨
    (stream.state = .live ∧
      stream.terminate ending = ({ stream with ending := some ending }, true)) := by
  by_cases hover : stream.isOver = true
  · left
    exact ⟨by simpa [isOver] using hover, terminate_of_isOver hover ending⟩
  · right
    have hlive := Bool.eq_false_iff.mpr hover
    exact ⟨state_eq_live_iff.mpr hlive, terminate_eq hlive ending⟩

/-! ### Calls on a stream -/

/-- What is asked of a stream. -/
inductive Call where
  | push (chunk : Bytes)
  /-- A read that waits for a chunk. -/
  | recv
  /-- A read that does not wait. -/
  | tryRecv
  | finish (ending : Ending)
  | sever
  deriving DecidableEq, Repr

/-- What the stream answers. -/
inductive Reply where
  | pushed (admission : Admission)
  /-- A read that waits got a chunk, or learned that there will be none. -/
  | received (chunk : Option Bytes)
  /-- A read that waits has to. -/
  | waits
  | tried (delivery : Delivery)
  /-- Whether the stream was open before. -/
  | finished (first : Bool)
  | severed
  deriving DecidableEq, Repr

/-- What a read that waits makes of what it gets at once. -/
def Delivery.awaited : Delivery → Reply
  | .chunk data => .received (some data)
  | .empty => .waits
  | .over => .received none

/-- The operations of a stream, on whatever stands for it. -/
structure Operations (σ : Type) where
  push : σ → Bytes → σ × Admission
  pop : σ → σ × Delivery
  finish : σ → Ending → σ × Bool
  sever : σ → σ

/-- Makes a call. -/
def Operations.serve {σ : Type} (ops : Operations σ) (state : σ) : Call → σ × Reply
  | .push chunk => ((ops.push state chunk).1, .pushed (ops.push state chunk).2)
  | .recv => ((ops.pop state).1, (ops.pop state).2.awaited)
  | .tryRecv => ((ops.pop state).1, .tried (ops.pop state).2)
  | .finish ending => ((ops.finish state ending).1, .finished (ops.finish state ending).2)
  | .sever => (ops.sever state, .severed)

def operations : Operations Stream := ⟨push, pop, terminate, sever⟩

/-- Makes a call on a stream. -/
def serve (stream : Stream) (call : Call) : Stream × Reply := operations.serve stream call

/-- The chunk that a call put into the queue. -/
def admitted : Call × Reply → List Bytes
  | (.push chunk, .pushed .queued) => [chunk]
  | _ => []

/-- The chunk that a call took off the queue. -/
def handedOut : Call × Reply → List Bytes
  | (_, .received (some chunk)) => [chunk]
  | (_, .tried (.chunk chunk)) => [chunk]
  | _ => []

/-- The state that a call leads an open stream to, if it ends it. -/
def Call.leadsTo : Call → Option StreamState
  | .finish ending => some ending.state
  | .sever => some .reset
  | _ => none

/-- The state of a stream after calls: the first that ended it has decided. -/
def decided (calls : List Call) : StreamState := (calls.findSome? Call.leadsTo).getD .live

/-! ### One call -/

/-- What a call makes of a stream, with its answer. -/
structure Served (stream : Stream) (call : Call) (after : Stream) (reply : Reply) : Prop where
  id : after.id = stream.id
  capacity : after.capacity = stream.capacity
  /-- Chunks are taken from the front and put behind. -/
  order : handedOut (call, reply) ++ after.queue = stream.queue ++ admitted (call, reply)
  /-- More chunks wait only where there is room. -/
  bound : after.queue.length ≤ stream.queue.length ∨ after.queue.length ≤ stream.capacity
  /-- Only an open stream changes its state. -/
  state : after.state =
    if stream.state = .live then call.leadsTo.getD .live else stream.state
  /-- Only the call that ends the stream is told that it does. -/
  first : reply = .finished true → stream.state = .live ∧ after.state ≠ .live

theorem Served.of_queue {call : Call} {reply : Reply} {queue : List Bytes}
    (hcall : call.leadsTo = none) (hreply : reply ≠ .finished true)
    (horder : handedOut (call, reply) ++ queue = stream.queue ++ admitted (call, reply))
    (hbound : queue.length ≤ stream.queue.length ∨ queue.length ≤ stream.capacity) :
    Served stream call { stream with queue } reply where
  id := rfl
  capacity := rfl
  order := horder
  bound := hbound
  state := by
    change stream.state = _
    rw [hcall, Option.getD_none]
    split
    · assumption
    · rfl
  first h := absurd h hreply

theorem Served.of_same {call : Call} {reply : Reply} (hcall : call.leadsTo = none)
    (hreply : reply ≠ .finished true) (hhanded : handedOut (call, reply) = [])
    (hadmitted : admitted (call, reply) = []) : Served stream call stream reply :=
  .of_queue hcall hreply (by rw [hhanded, hadmitted, List.append_nil, List.nil_append])
    (Or.inl (Nat.le_refl _))

theorem Served.of_front {call : Call} {reply : Reply} {chunk : Bytes} {queue : List Bytes}
    (hqueue : stream.queue = chunk :: queue) (hcall : call.leadsTo = none)
    (hreply : reply ≠ .finished true) (hhanded : handedOut (call, reply) = [chunk])
    (hadmitted : admitted (call, reply) = []) : Served stream call { stream with queue } reply := by
  refine .of_queue hcall hreply ?_ (Or.inl ?_)
  · rw [hhanded, hadmitted, hqueue, List.append_nil, List.singleton_append]
  · rw [hqueue, List.length_cons]
    exact Nat.le_succ _

theorem served_push (stream : Stream) (chunk : Bytes) :
    Served stream (.push chunk) (stream.push chunk).1 (.pushed (stream.push chunk).2) := by
  rcases stream.push_cases chunk with ⟨-, heq⟩ | ⟨-, -, heq⟩ | ⟨-, hroom, heq⟩ <;> rw [heq]
  · exact .of_same rfl (by simp) rfl rfl
  · exact .of_same rfl (by simp) rfl rfl
  · refine .of_queue rfl (by simp) rfl (Or.inr ?_)
    rw [List.length_append, List.length_singleton]
    exact hroom

theorem served_recv (stream : Stream) :
    Served stream .recv stream.pop.1 stream.pop.2.awaited := by
  rcases stream.pop_cases with ⟨chunk, queue, hqueue, heq⟩ | ⟨-, -, heq⟩ | ⟨-, -, heq⟩ <;> rw [heq]
  · exact .of_front hqueue rfl (by simp [Delivery.awaited]) rfl rfl
  · exact .of_same rfl (by simp [Delivery.awaited]) rfl rfl
  · exact .of_same rfl (by simp [Delivery.awaited]) rfl rfl

theorem served_tryRecv (stream : Stream) :
    Served stream .tryRecv stream.pop.1 (.tried stream.pop.2) := by
  rcases stream.pop_cases with ⟨chunk, queue, hqueue, heq⟩ | ⟨-, -, heq⟩ | ⟨-, -, heq⟩ <;> rw [heq]
  · exact .of_front hqueue rfl (by simp) rfl rfl
  · exact .of_same rfl (by simp) rfl rfl
  · exact .of_same rfl (by simp) rfl rfl

theorem served_finish (stream : Stream) (ending : Ending) :
    Served stream (.finish ending) (stream.terminate ending).1
      (.finished (stream.terminate ending).2) := by
  rcases stream.terminate_cases ending with ⟨hover, heq⟩ | ⟨hlive, heq⟩ <;> rw [heq]
  · exact ⟨rfl, rfl, (List.append_nil _).symm, Or.inl (Nat.le_refl _), by rw [if_neg hover],
      by simp⟩
  · have hstate : { stream with ending := some ending }.state = ending.state := rfl
    exact ⟨rfl, rfl, (List.append_nil _).symm, Or.inl (Nat.le_refl _), by rw [if_pos hlive]; rfl,
      fun _ => ⟨hlive, hstate ▸ ending.state_ne_live⟩⟩

theorem served_sever (stream : Stream) : Served stream .sever stream.sever .severed where
  id := rfl
  capacity := rfl
  order := (List.append_nil _).symm
  bound := Or.inl (Nat.le_refl _)
  state := by
    rw [state_sever]
    by_cases hover : stream.isOver = true
    · have hnot : stream.state ≠ .live := by simpa [isOver] using hover
      rw [if_pos hover, if_neg hnot]
    · rw [if_neg hover, if_pos (state_eq_live_iff.mpr (Bool.eq_false_iff.mpr hover))]
      rfl
  first h := by cases h

theorem served (stream : Stream) (call : Call) :
    Served stream call (stream.serve call).1 (stream.serve call).2 := by
  cases call with
  | push chunk => exact served_push stream chunk
  | recv => exact served_recv stream
  | tryRecv => exact served_tryRecv stream
  | finish ending => exact served_finish stream ending
  | sever => exact served_sever stream

/-! ### What every call keeps -/

/-- A stream that began with a capacity agrees with the calls that were made on it. -/
structure Kept (capacity : Nat) (calls : List Call) (dialogue : Dialogue Stream Call Reply) :
    Prop where
  room : dialogue.state.capacity = max capacity 1
  /-- What was read, and then what waits, is what was queued. -/
  order : dialogue.record.flatMap handedOut ++ dialogue.state.queue =
    dialogue.record.flatMap admitted
  bound : dialogue.state.queue.length ≤ max capacity 1
  state : dialogue.state.state = decided calls
  /-- No `finish` has ended the stream while it is open, and one at most has after that. -/
  once : dialogue.record.countP (·.2 = .finished true) ≤
    if dialogue.state.state = .live then 0 else 1

theorem decided_concat (calls : List Call) (last : Call) :
    decided (calls ++ [last]) =
      if decided calls = .live then last.leadsTo.getD .live else decided calls := by
  have hends : ∀ call state, Call.leadsTo call = some state → state ≠ .live := by
    rintro (_ | _ | _ | ending | _) state h <;> cases h
    · exact ending.state_ne_live
    · simp
  unfold decided
  rw [List.findSome?_append]
  rcases hfirst : calls.findSome? Call.leadsTo with _ | state
  · simp
  · obtain ⟨call, -, hcall⟩ := List.exists_of_findSome?_eq_some hfirst
    simp [hends call state hcall]

theorem Kept.call {capacity : Nat} {calls : List Call} {dialogue : Dialogue Stream Call Reply}
    (h : Kept capacity calls dialogue) (call : Call) :
    Kept capacity (calls ++ [call]) (dialogue.call serve call) := by
  have hserved := served dialogue.state call
  unfold Dialogue.call
  generalize dialogue.state.serve call = result at hserved
  obtain ⟨after, reply⟩ := result
  refine ⟨hserved.capacity.trans h.room, ?_, ?_, ?_, ?_⟩
  · simp only [List.flatMap_append, List.flatMap_singleton]
    rw [List.append_assoc, hserved.order, ← List.append_assoc, h.order]
  · rcases hserved.bound with hfewer | hroom
    · exact Nat.le_trans hfewer h.bound
    · exact h.room ▸ hroom
  · rw [hserved.state, h.state, decided_concat]
  · have honce := h.once
    rw [List.countP_append, List.countP_singleton]
    by_cases hreply : reply = .finished true
    · obtain ⟨hlive, hover⟩ := hserved.first hreply
      rw [if_pos hlive] at honce
      rw [if_neg hover]
      split <;> omega
    · rw [if_neg (by simpa using hreply), Nat.add_zero]
      refine Nat.le_trans honce ?_
      by_cases hlive : dialogue.state.state = .live
      · rw [if_pos hlive]
        exact Nat.zero_le _
      · have hover : after.state ≠ .live := by
          rw [hserved.state, if_neg hlive]
          exact hlive
        exact Nat.le_of_eq ((if_neg hlive).trans (if_neg hover).symm)

theorem kept_play (id : UInt64) (role : Role) (capacity : Nat) (calls : List Call) :
    Kept capacity calls (.play serve (start id role capacity) calls) := by
  induction calls using List.reverseRecOn with
  | nil => exact ⟨rfl, rfl, Nat.zero_le _, rfl, Nat.le_refl 0⟩
  | append_singleton calls call ih =>
    rw [Dialogue.play_concat]
    exact ih.call call

/-! ### State and sending half apart -/

end Stream

/-- A stream beside its channel: what its state is, and whether the sending half of the channel is
still there, are kept apart. -/
structure Channel where
  capacity : Nat
  state : StreamState := .live
  sender : Bool := true
  severed : Bool := false
  queue : List Bytes := []

namespace Channel

/-- Only the sending half is asked whether a chunk may come in. -/
def push (channel : Channel) (chunk : Bytes) : Channel × Stream.Admission :=
  if channel.sender = false then (channel, .over)
  else if channel.queue.length ≥ channel.capacity then (channel, .full)
  else ({ channel with queue := channel.queue ++ [chunk] }, .queued)

/-- Only the sending half is asked whether a chunk may still come. -/
def pop (channel : Channel) : Channel × Stream.Delivery :=
  match channel.queue with
  | chunk :: queue => ({ channel with queue }, .chunk chunk)
  | [] => (channel, if channel.sender then .empty else .over)

/-- Only the state is asked whether the stream is open. -/
def finish (channel : Channel) (ending : Ending) : Channel × Bool :=
  if channel.state = .live then ({ channel with state := ending.state, sender := false }, true)
  else (channel, false)

def sever (channel : Channel) : Channel :=
  { channel with
    severed := true
    state := if channel.state = .live then .reset else channel.state
    sender := false }

def operations : Stream.Operations Channel := ⟨push, pop, finish, sever⟩

def serve (channel : Channel) (call : Stream.Call) : Channel × Stream.Reply :=
  operations.serve channel call

end Channel

namespace Stream

/-- The sending half is there exactly as long as the stream is open. -/
def channel (stream : Stream) : Channel where
  capacity := stream.capacity
  state := stream.state
  sender := decide (stream.state = .live)
  severed := stream.severed
  queue := stream.queue

theorem push_channel (stream : Stream) (chunk : Bytes) :
    stream.channel.push chunk = ((stream.push chunk).1.channel, (stream.push chunk).2) := by
  rcases stream.push_cases chunk with ⟨hover, heq⟩ | ⟨hlive, hfull, heq⟩ | ⟨hlive, hroom, heq⟩
  · rw [heq]
    exact if_pos (decide_eq_false hover)
  · rw [heq]
    have hsender : ¬ stream.channel.sender = false := by simp [channel, hlive]
    exact (if_neg hsender).trans (if_pos hfull)
  · rw [heq]
    have hsender : ¬ stream.channel.sender = false := by simp [channel, hlive]
    exact (if_neg hsender).trans (if_neg (Nat.not_le.mpr hroom))

theorem pop_channel (stream : Stream) :
    stream.channel.pop = (stream.pop.1.channel, stream.pop.2) := by
  rcases stream.pop_cases with ⟨chunk, queue, hqueue, heq⟩ | ⟨hover, hqueue, heq⟩ |
    ⟨hlive, hqueue, heq⟩
  · simp only [Channel.pop, channel, heq, hqueue]
    rfl
  · simp [Channel.pop, channel, heq, hqueue, hover]
  · simp [Channel.pop, channel, heq, hqueue, hlive]

theorem finish_channel (stream : Stream) (ending : Ending) :
    stream.channel.finish ending =
      ((stream.terminate ending).1.channel, (stream.terminate ending).2) := by
  rcases stream.terminate_cases ending with ⟨hover, heq⟩ | ⟨hlive, heq⟩
  · rw [heq]
    exact if_neg hover
  · rw [heq]
    refine (if_pos hlive).trans ?_
    simp [channel, state, ending.state_ne_live]

theorem sever_channel (stream : Stream) : stream.channel.sever = stream.sever.channel := by
  have hstate := (served_sever stream).state
  have hover : stream.sever.state ≠ .live := by simp [state_eq_live_iff]
  simp only [channel, Channel.sever, decide_eq_false hover]
  rw [hstate]
  rfl

/-- A stream whose state and whose sending half are two fields answers every call alike. -/
theorem serve_channel (stream : Stream) (call : Call) :
    stream.channel.serve call = ((stream.serve call).1.channel, (stream.serve call).2) := by
  cases call <;>
    simp only [Channel.serve, Channel.operations, Operations.serve, push_channel, pop_channel,
      finish_channel, sever_channel] <;>
    rfl

/-! ### The next answer -/

section Answers

variable (stream : Stream)

theorem pushed_full_iff (chunk : Bytes) : (stream.serve (.push chunk)).2 = .pushed .full ↔
    stream.state = .live ∧ stream.capacity ≤ stream.queue.length := by
  change Reply.pushed (stream.push chunk).2 = .pushed .full ↔ _
  rcases stream.push_cases chunk with ⟨hover, heq⟩ | ⟨hlive, hfull, heq⟩ | ⟨hlive, hroom, heq⟩
  · simp [heq, hover]
  · simp [heq, hlive, hfull]
  · simp [heq, Nat.not_le.mpr hroom]

theorem pushed_over_iff (chunk : Bytes) :
    (stream.serve (.push chunk)).2 = .pushed .over ↔ stream.state ≠ .live := by
  change Reply.pushed (stream.push chunk).2 = .pushed .over ↔ _
  rcases stream.push_cases chunk with ⟨hover, heq⟩ | ⟨hlive, hfull, heq⟩ | ⟨hlive, hroom, heq⟩
  · simp [heq, hover]
  · simp [heq, hlive]
  · simp [heq, hlive]

theorem finished_first_iff (ending : Ending) :
    (stream.serve (.finish ending)).2 = .finished true ↔ stream.state = .live := by
  change Reply.finished (stream.terminate ending).2 = .finished true ↔ _
  rcases stream.terminate_cases ending with ⟨hover, heq⟩ | ⟨hlive, heq⟩
  · simp [heq, hover]
  · simp [heq, hlive]

theorem pop_over_iff : stream.pop.2 = .over ↔ stream.state ≠ .live ∧ stream.queue = [] := by
  rcases stream.pop_cases with ⟨chunk, queue, hqueue, heq⟩ | ⟨hover, hqueue, heq⟩ |
    ⟨hlive, hqueue, heq⟩
  · simp [heq, hqueue]
  · simp [heq, hqueue, hover]
  · simp [heq, hlive]

theorem pop_empty_iff : stream.pop.2 = .empty ↔ stream.state = .live ∧ stream.queue = [] := by
  rcases stream.pop_cases with ⟨chunk, queue, hqueue, heq⟩ | ⟨hover, hqueue, heq⟩ |
    ⟨hlive, hqueue, heq⟩
  · simp [heq, hqueue]
  · simp [heq, hover]
  · simp [heq, hqueue, hlive]

theorem awaited_none_iff (delivery : Delivery) :
    delivery.awaited = .received none ↔ delivery = .over := by
  cases delivery <;> simp [Delivery.awaited]

theorem awaited_waits_iff (delivery : Delivery) :
    delivery.awaited = .waits ↔ delivery = .empty := by
  cases delivery <;> simp [Delivery.awaited]

end Answers

/-! ### A bounded queue that ends once -/

section Queue

variable (id : UInt64) (role : Role) (capacity : Nat) (calls : List Call)

/-- A new stream, after calls on it. -/
def used : Dialogue Stream Call Reply := .play serve (start id role capacity) calls

/-- What can be relied on of a stream, after calls on it. -/
structure BoundedQueue (after : Dialogue Stream Call Reply) : Prop where
  /-- What was read, and then what waits, is what was queued. -/
  order : after.record.flatMap handedOut ++ after.state.queue = after.record.flatMap admitted
  bound : after.state.queue.length ≤ max capacity 1
  full_iff : ∀ chunk, (after.state.serve (.push chunk)).2 = .pushed .full ↔
    after.state.state = .live ∧ after.state.queue.length = max capacity 1
  over_iff : ∀ chunk, (after.state.serve (.push chunk)).2 = .pushed .over ↔
    after.state.state ≠ .live
  /-- At most one `finish` ended the stream. -/
  once : after.record.countP (·.2 = .finished true) ≤ 1
  first_iff : ∀ ending, (after.state.serve (.finish ending)).2 = .finished true ↔
    after.state.state = .live
  /-- The first call that ended the stream has decided its state. -/
  decided : after.state.state = decided calls
  /-- After that no call changes it. -/
  steady : (∃ call ∈ calls, call.leadsTo ≠ none) → ∀ more,
    (used id role capacity (calls ++ more)).state.state = after.state.state
  severed_state : (after.state.serve .sever).1.state =
    if after.state.state = .live then .reset else after.state.state
  severed_queue : (after.state.serve .sever).1.queue = after.state.queue
  tried_over_iff : (after.state.serve .tryRecv).2 = .tried .over ↔
    after.state.state ≠ .live ∧ after.state.queue = []
  tried_empty_iff : (after.state.serve .tryRecv).2 = .tried .empty ↔
    after.state.state = .live ∧ after.state.queue = []
  received_none_iff : (after.state.serve .recv).2 = .received none ↔
    after.state.state ≠ .live ∧ after.state.queue = []
  /-- A read has to wait only where there is nothing yet. -/
  waits_iff : (after.state.serve .recv).2 = .waits ↔
    after.state.state = .live ∧ after.state.queue = []
  /-- With the state and the sending half kept apart all answers are the same, and in the end the
  sending half is there exactly if the state is open. -/
  apart : (Dialogue.play Channel.serve { capacity := max capacity 1 } calls).state =
      after.state.channel ∧
    (Dialogue.play Channel.serve { capacity := max capacity 1 } calls).record = after.record

theorem decided_append {calls : List Call} (h : ∃ call ∈ calls, call.leadsTo ≠ none)
    (more : List Call) : Stream.decided (calls ++ more) = Stream.decided calls := by
  obtain ⟨call, hmem, hends⟩ := h
  unfold Stream.decided
  rw [List.findSome?_append]
  rcases hfirst : calls.findSome? Call.leadsTo with _ | state
  · exact absurd (List.findSome?_eq_none_iff.mp hfirst call hmem) hends
  · rfl

/-- **A stream is a bounded queue that ends once**, whatever is called on it and in whatever
order. -/
theorem bounded_queue : BoundedQueue id role capacity calls (used id role capacity calls) where
  order := (kept_play id role capacity calls).order
  bound := (kept_play id role capacity calls).bound
  full_iff chunk := by
    have hkept := kept_play id role capacity calls
    change Kept capacity calls (used id role capacity calls) at hkept
    have hbound := hkept.bound
    rw [pushed_full_iff, hkept.room]
    constructor
    · rintro ⟨hlive, hfull⟩
      exact ⟨hlive, Nat.le_antisymm hbound hfull⟩
    · rintro ⟨hlive, hfull⟩
      exact ⟨hlive, Nat.le_of_eq hfull.symm⟩
  over_iff := pushed_over_iff _
  once := by
    refine Nat.le_trans (kept_play id role capacity calls).once ?_
    split <;> omega
  first_iff := finished_first_iff _
  decided := (kept_play id role capacity calls).state
  steady hended more := by
    refine (kept_play id role capacity (calls ++ more)).state.trans ?_
    rw [decided_append hended more]
    exact (kept_play id role capacity calls).state.symm
  severed_state := (served_sever _).state
  severed_queue := rfl
  tried_over_iff := by
    rw [← pop_over_iff]
    exact Reply.tried.injEq .. ▸ Iff.rfl
  tried_empty_iff := by
    rw [← pop_empty_iff]
    exact Reply.tried.injEq .. ▸ Iff.rfl
  received_none_iff := by
    rw [← pop_over_iff]
    exact awaited_none_iff _
  waits_iff := by
    rw [← pop_empty_iff]
    exact awaited_waits_iff _
  apart := by
    have hview := Dialogue.play_map channel serve_channel (start id role capacity) calls
    constructor
    · exact congrArg Dialogue.state hview
    · exact congrArg Dialogue.record hview

/-- A stream without room has room for one chunk, which outlives the end of the stream. -/
example : (used 0 .acceptor 0 [.push [1], .push [2], .sever, .finish .closed, .push [3], .recv,
    .recv, .tryRecv]).record.map (·.2) =
      [.pushed .queued, .pushed .full, .severed, .finished false, .pushed .over,
        .received (some [1]), .received none, .tried .over] := rfl

end Queue

end Stream

end StreamMux
