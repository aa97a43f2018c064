import StreamMux.Session.Incoming

/-!
# The loop of a session

The loop is the only reader of the link.  `Mux.turn` is one turn of it: it applies the frame at the
front of what came in, or reads the link once, and stops when the connection is gone, when the link
fails, or when what came in is no frame.  After a read it looks for a frame whether or not the
connection is still there.  There is no turn while the loop waits for a link that has nothing for
it, and none after its end.

`Mux.pump` takes turns until there is none.  Handlers run between turns.
-/

namespace StreamMux

namespace Mux

/-- The loop ends.  Unless the connection is gone already, the fault that ends it tears it down. -/
def stop (m : Mux) (fault : Option Fault) : Mux :=
  let m := match fault with
    | none => m
    | some fault =>
      if m.isClosed then m.note (.loopStoppedAfterClose fault)
      else
        let entry := match fault with
          | .frame _ => Note.malformed fault
          | _ => Note.transportFailed fault
        (m.note entry).tearDown (.readFailed fault)
  { m with loop := .ended }.note .loopStopped

/-- Applies the frame at the front of what came in; without one, the loop goes on as `next`. -/
def proceed (m : Mux) (next : LoopState) : Mux :=
  match m.assembler.take m.settings.frameLimit with
  | (_, .error fault) => m.stop (some (.frame fault))
  | (_, .ok none) => { m with loop := next }
  | (assembler, .ok (some frame)) => { m with assembler, loop := .ready }.receive frame

/-- One turn of the loop, if there is one. -/
def turn (m : Mux) : Option Mux :=
  match m.loop with
  | .ended => none
  | .ready => some (if m.isClosed then m.stop none else m.proceed .waiting)
  | .waiting =>
    match m.poll with
    | (_, none) => none
    | (m, some (.error fault)) => some (m.stop (some (.link fault)))
    | (m, some (.ok none)) => some { m with loop := .ready }
    | (m, some (.ok (some chunk))) =>
      some { m with assembler := m.assembler.feed chunk, loop := .fed }
  | .fed => some (m.proceed .ready)

/-! ### Handlers -/

/-- What a handler does with the handle of an accepted stream. -/
inductive Policy where
  | keep
  | drop
  /-- It writes a greeting, closes the stream and drops the handle. -/
  | greet
  | reset
  deriving DecidableEq, Repr

def greeting : Bytes := [0x68, 0x69]

/-- The handler runs for one handle. -/
def handle (m : Mux) (policy : Policy) (place : Nat) : Mux :=
  match m.handles[place]?, policy with
  | none, _ | _, .keep => m
  | some _, .drop => m.drop place
  | some { serial, .. }, .greet =>
    let (m, _) := m.write serial greeting
    let (m, _) := m.terminate serial .closed
    m.drop place
  | some { serial, .. }, .reset =>
    let (m, _) := m.terminate serial .reset
    m.drop place

/-- The handler runs for every stream accepted since it ran last.  A handler that keeps its handles
leaves them among the arrivals; what any other writes into the journal is its own. -/
def handleAll (m : Mux) (policy : Policy) : Mux :=
  match policy with
  | .keep => m
  | _ =>
    let served := m.arrivals.foldl (fun m place => m.handle policy place) { m with arrivals := [] }
    { served with notes := m.notes }

/-! ### Running -/

/-- Takes up to `turns` turns, with the handler after each. -/
def pumpFor (policy : Policy) : Nat → Mux → Mux
  | 0, m => m
  | turns + 1, m =>
    match m.turn with
    | none => m
    | some m => pumpFor policy turns (m.handleAll policy)

/-- A number of turns that is enough: each one takes a byte off the link or out of the assembler, or
a timeout, or only moves the loop between looking, waiting and looking again, or ends it. -/
def turnBound (m : Mux) : Nat :=
  4 * (m.link.ends.get m.side).pending.length + m.assembler.buffered + 2 * m.conditions.timeouts + 4

def pump (m : Mux) (policy : Policy) : Mux :=
  pumpFor policy m.turnBound m

end Mux

end StreamMux
