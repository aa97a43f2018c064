import StreamMux.Network
import StreamMux.Proofs.Session.Acceptance

/-!
# Runs of two sessions

Two sessions at the ends of one link, each used through its own handles only: `Network.Use` is what
is done at one side, `Network.play` a run of any number of such steps in any order, with all answers
on record.

* `Network.written`, `Network.taken` — what was written and read through a handle, on the record;
* `Network.EndedThrough` — an open stream was ended through a handle, and `Network.Unstarted` — it
  was reset because no handler could be started for it.
-/

namespace StreamMux.Network

/-! ### Steps -/

/-- What is done at one side. -/
inductive Use where
  | openStream (label : Option String)
  | write (place : Nat) (payload : Payload)
  | finish (place : Nat) (ending : Ending)
  | read (place : Nat)
  | drop (place : Nat)
  /-- The loop takes a turn: it reads a chunk off the link, or applies one frame. -/
  | turn
  | close
  /-- The next handler at this side cannot be started. -/
  | failStart (text : String)

def Use.op : Use → Mux.Op
  | openStream label => .openStream label
  | write place payload => .write place payload
  | finish place ending => .finish place ending
  | read place => .read place
  | drop place => .drop place
  | turn => .turn
  | close => .close
  | failStart text => .adjust { failStart := some text }

/-- A step that was done, and its answer. -/
structure Event where
  side : Side
  use : Use
  answer : Mux.Answer

/-- Two sessions at the beginning. -/
def start (settings : Both Settings) : Network :=
  { sessions := ⟨some (Session.start .dialer settings.dialer),
      some (Session.start .listener settings.listener)⟩ }

def extend (run : Network × List Event) (step : Side × Use) : Network × List Event :=
  match run.1.act step.1 (·.perform step.2.op) with
  | (net, none) => (net, run.2)
  | (net, some answer) => (net, run.2 ++ [⟨step.1, step.2, answer⟩])

/-- Two sessions after some steps, and the record. -/
def play (settings : Both Settings) (steps : List (Side × Use)) : Network × List Event :=
  steps.foldl extend (start settings, [])

/-! ### What the record says -/

/-- The data that a step wrote through a handle. -/
def Event.written? (event : Event) (side : Side) (place : Nat) : Option Bytes :=
  match event with
  | ⟨actor, .write p payload, .size (.ok _)⟩ =>
    if actor = side ∧ p = place then some payload.data else none
  | _ => none

/-- The chunk that a step read through a handle. -/
def Event.taken? (event : Event) (side : Side) (place : Nat) : Option Bytes :=
  match event with
  | ⟨actor, .read p, .reading (.chunk chunk)⟩ =>
    if actor = side ∧ p = place then some chunk else none
  | _ => none

/-- What was written through a handle, as far as it went out, in this order. -/
def written (events : List Event) (side : Side) (place : Nat) : List Bytes :=
  events.filterMap (·.written? side place)

/-- What was read through a handle, in this order. -/
def taken (events : List Event) (side : Side) (place : Nat) : List Bytes :=
  events.filterMap (·.taken? side place)

/-- An open stream was closed or reset through a handle. -/
def EndedThrough (settings : Both Settings) (steps : List (Side × Use)) (side : Side)
    (place : Nat) : Prop :=
  ∃ before ending after, steps = before ++ (side, .finish place ending) :: after ∧
    ∃ m handle, (play settings before).1.mux? side = some m ∧
      m.handles[place]? = some handle ∧ handle.live = true ∧
      (m.registry.stream handle.serial).isOver = false

/-- A stream came in for which no handler could be started, so that it was reset and its handle
dropped. -/
def Unstarted (settings : Both Settings) (steps : List (Side × Use)) (side : Side) (place : Nat) :
    Prop :=
  ∃ before after, steps = before ++ (side, .turn) :: after ∧
    ∃ m serial, (play settings before).1.mux? side = some m ∧ m.handles.length = place ∧
      m.Misstarts .turn serial

variable {settings : Both Settings} {steps : List (Side × Use)} {side : Side} {place : Nat}

theorem play_concat (steps : List (Side × Use)) (step : Side × Use) :
    play settings (steps ++ [step]) = extend (play settings steps) step := by
  simp [play]

theorem EndedThrough.concat (h : EndedThrough settings steps side place) (step : Side × Use) :
    EndedThrough settings (steps ++ [step]) side place := by
  obtain ⟨before, ending, after, rfl, hrest⟩ := h
  exact ⟨before, ending, after ++ [step], by simp, hrest⟩

theorem Unstarted.concat (h : Unstarted settings steps side place) (step : Side × Use) :
    Unstarted settings (steps ++ [step]) side place := by
  obtain ⟨before, after, rfl, hrest⟩ := h
  exact ⟨before, after ++ [step], by simp, hrest⟩

/-! ### The sessions of a network -/

theorem mux?_start (settings : Both Settings) (side : Side) :
    (start settings).mux? side = some (Mux.start side (settings.get side)) := by
  cases side <;> rfl

theorem mux?_put_self (net : Network) (side : Side) (m : Mux) :
    (net.put side m).mux? side = some m := by
  simp [mux?, put]

/-- The other session sees the link change, and nothing else. -/
theorem mux?_put_other {net : Network} {n : Mux} (m : Mux)
    (h : net.mux? side.other = some n) :
    (net.put side m).mux? side.other = some { n with link := m.link } := by
  simp only [mux?, put, Both.get_set_other] at h ⊢
  obtain ⟨session, hsession, rfl⟩ := Option.map_eq_some_iff.mp h
  rw [hsession]
  rfl

theorem link_of_mux? {net : Network} {m : Mux} (h : net.mux? side = some m) :
    m.link = net.link := by
  obtain ⟨session, -, rfl⟩ := Option.map_eq_some_iff.mp h
  rfl

theorem extend_eq {run : Network × List Event} {use : Use} {m : Mux}
    (h : run.1.mux? side = some m) :
    extend run (side, use) = (run.1.put side (m.perform use.op).1,
      run.2 ++ [⟨side, use, (m.perform use.op).2⟩]) := by
  simp [extend, act, h]

end StreamMux.Network
