import StreamMux.Bench.Action

/-!
# The bench

A bench holds a network and drives it step by step.  After each step, and after everything fed into
the bare end, all loops run until none of them has anything to do; handles of streams accepted on
the way get the next numbers, those of the dialing side first, each side in the order of stream
numbers.

`Bench.step` does one step and reports what became visible during it.
-/

namespace StreamMux

/-- A handle that appeared on a bench. -/
structure Bench.Held where
  side : Side
  /-- Its place among the handles of its side. -/
  place : Nat
  /-- Whether it was not dropped yet. -/
  live : Bool := true

/-- An accepted stream: the number of its handle, its own number and its side. -/
structure Bench.Accepted where
  handle : Nat
  id : UInt64
  side : Side

/-- A network under test. -/
structure Bench where
  net : Network
  policy : Mux.Policy
  handles : List Bench.Held := []
  /-- The sides whose session was given up. -/
  abandoned : List Side := []
  /-- Streams accepted since the last report. -/
  accepted : List Bench.Accepted := []
  /-- The journal of whoever does the steps, since the last report. -/
  notes : List Note := []

namespace Bench

/-! ### Running loops -/

/-- Gives numbers to the handles of one side that arrived. -/
def adoptAt (bench : Bench) (side : Side) : Bench :=
  match bench.net.sessions.get side with
  | none => bench
  | some session =>
    let id (place : Nat) : UInt64 :=
      match session.handles[place]? with
      | none => 0
      | some handle => (session.registry.stream handle.serial).id
    let adopt (bench : Bench) (place : Nat) : Bench :=
      { bench with
        handles := bench.handles ++ [{ side, place }]
        accepted := bench.accepted ++ [{ handle := bench.handles.length, id := id place, side }] }
    let sessions := bench.net.sessions.set side (some { session with arrivals := [] })
    (session.arrivals.mergeSort fun p q => id p ≤ id q).foldl adopt
      { bench with net := { bench.net with sessions } }

/-- Lets all loops run, and numbers what arrived. -/
def settle (bench : Bench) : Bench :=
  (({ bench with net := bench.net.settle bench.policy }.adoptAt .dialer).adoptAt .listener)

/-! ### Doing things -/

/-- Runs an operation of a session on behalf of whoever does the steps. -/
def act {α : Type} (bench : Bench) (side : Side) (f : Mux → Mux × α) : Bench × Option α :=
  let run (m : Mux) : Mux × α × List Note :=
    let (after, a) := f { m with notes := [] }
    ({ after with notes := m.notes }, a, after.notes)
  match bench.net.act side run with
  | (net, none) => ({ bench with net }, none)
  | (net, some (a, notes)) => ({ bench with net, notes := bench.notes ++ notes }, some a)

/-- An operation of a session, whose answer is missing where there is no session. -/
def bySession {α : Type} (bench : Bench) (side : Side) (f : Mux → Mux × α) (answer : α → Answer) :
    Bench × Answer :=
  match bench.act side f with
  | (bench, none) => (bench, .noSession)
  | (bench, some a) => (bench, answer a)

/-- An operation of a session that was not given up. -/
def bySessionHeld {α : Type} (bench : Bench) (side : Side) (f : Mux → Mux × α)
    (answer : α → Answer) : Bench × Answer :=
  if bench.abandoned.contains side then (bench, .noSession) else bench.bySession side f answer

/-- The handle with a number, unless it was dropped. -/
def held? (bench : Bench) (handle : Nat) : Option Held :=
  (bench.handles[handle]?).filter (·.live)

/-- An operation with the stream of a handle, given by its serial number. -/
def byHandle {α : Type} (bench : Bench) (handle : Nat) (f : Nat → Mux → Mux × α)
    (answer : α → Answer) : Bench × Answer :=
  match bench.held? handle with
  | none => (bench, .noHandle)
  | some held =>
    let run (m : Mux) : Mux × Option α :=
      match m.handles[held.place]? with
      | none => (m, none)
      | some { serial, .. } =>
        let (m, a) := f serial m
        (m, some a)
    bench.bySession held.side run fun result => (result.map answer).getD .noHandle

/-- An operation that has no answer of its own. -/
def silently (f : Mux → Mux) (m : Mux) : Mux × Unit :=
  (f m, ())

/-- Changes the conditions under which a session uses the link. -/
def adjust (bench : Bench) (side : Side) (f : Conditions → Conditions) : Bench × Answer :=
  bench.bySession side (silently fun m => { m with conditions := f m.conditions }) fun () => .done

/-- The answer to an operation that gives a number of bytes. -/
def sizeAnswer : Except Fault Nat → Answer
  | .ok size => .size size
  | .error fault => .fault fault

/-- The answer to an operation that gives nothing. -/
def doneAnswer : Except Fault Unit → Answer
  | .ok () => .done
  | .error fault => .fault fault

/-! ### The bare end -/

def bareSide (bench : Bench) : Side :=
  if bench.net.sessions.dialer.isNone then .dialer else .listener

def feed (bench : Bench) (chunk : Bytes) : Bench × Feed :=
  match bench.net.link.write bench.bareSide chunk with
  | .error fault => (bench, .link fault)
  | .ok link => ({ bench with net := { bench.net with link } }.settle, .done)

def feedFrame (bench : Bench) (frame : Frame) : Bench × Feed :=
  match frame.encode with
  | .error fault => (bench, .frame fault)
  | .ok bytes => bench.feed bytes

/-- Feeds one thing after the other. -/
def feedAll {α : Type} (feed : Bench → α → Bench × Feed) : Bench → List α → Bench × List Feed
  | bench, [] => (bench, [])
  | bench, a :: rest =>
    let (bench, first) := feed bench a
    let (bench, others) := feedAll feed bench rest
    (bench, first :: others)

/-! ### Steps -/

def perform (bench : Bench) : Action → Bench × Answer
  | .idle => (bench, .nothing)
  | .write handle data => bench.byHandle handle (fun serial m => m.write serial data) sizeAnswer
  | .finish handle ending =>
    bench.byHandle handle (fun serial m => m.terminate serial ending) doneAnswer
  | .readNow handle => bench.byHandle handle (fun serial m => m.read serial) .readingNow
  | .readAll handle =>
    bench.byHandle handle (fun serial m => m.readAll serial) fun (chunks, last) =>
      .readings chunks last
  | .read handle => bench.byHandle handle (fun serial m => m.read serial) .reading
  | .readDuring handle step =>
    if (bench.held? handle).isNone then (bench, .noHandle)
    else
      let (bench, answer) := bench.perform step
      let (bench, reading) :=
        bench.settle.byHandle handle (fun serial m => m.read serial) .reading
      (bench, .during answer reading)
  | .inspect handle =>
    match bench.held? handle with
    | none => (bench, .noHandle)
    | some held =>
      let inspect (m : Mux) : Option Inspection :=
        (m.handles[held.place]?).map fun h =>
          let stream := m.registry.stream h.serial
          { stream, label := h.label, text := h.text stream }
      bench.bySession held.side (fun m => (m, inspect m)) fun inspection =>
        (inspection.map .inspection).getD .noHandle
  | .drop handle =>
    match bench.held? handle with
    | none => (bench, .noHandle)
    | some held =>
      let bench := { bench with handles := bench.handles.set handle { held with live := false } }
      bench.bySession held.side (silently fun m => m.drop held.place) fun () => .done
  | .openStream side label =>
    let open? (m : Mux) : Mux × Except Fault (Nat × UInt64) :=
      match m.openStream label with
      | (m, .ok place) =>
        let id := match m.handles[place]? with
          | none => 0
          | some handle => (m.registry.stream handle.serial).id
        (m, .ok (place, id))
      | (m, .error fault) => (m, .error fault)
    if bench.abandoned.contains side then (bench, .noSession)
    else
      match bench.act side open? with
      | (bench, none) => (bench, .noSession)
      | (bench, some (.error fault)) => (bench, .fault fault)
      | (bench, some (.ok (place, id))) =>
        ({ bench with handles := bench.handles ++ [{ side, place }] },
          .opened bench.handles.length id)
  | .send side frame => bench.bySessionHeld side (fun m => m.send frame) sizeAnswer
  | .readById side id => bench.bySessionHeld side (fun m => m.readById id) .reading
  | .readByIdNow side id => bench.bySessionHeld side (fun m => m.readById id) .readingNow
  | .close side =>
    bench.bySessionHeld side (silently fun m => m.tearDown .closedHere) fun () => .done
  | .abandon side =>
    let (bench, answer) :=
      bench.bySessionHeld side (silently fun m => m.tearDown .closedHere) fun () => .done
    ({ bench with abandoned := side :: bench.abandoned }, answer)
  | .status side =>
    bench.bySessionHeld side (fun m => (m, m.settings, decide m.counters.Sane)) fun result =>
      .status side result.1 result.2
  | .feedFrames frames =>
    let (bench, feeds) := feedAll feedFrame bench frames
    (bench, .feeds feeds)
  | .feedChunks chunks =>
    let (bench, feeds) := feedAll feed bench chunks
    (bench, .feeds feeds)
  | .closeBare =>
    let side := bench.bareSide
    let notes := if bench.net.link.isClosed side then [] else [Note.linkClosed side]
    let net := { bench.net with link := bench.net.link.close side }
    ({ bench with net, notes := bench.notes ++ notes }, .done)
  | .resetBare =>
    let net := { bench.net with link := bench.net.link.reset }
    ({ bench with net, notes := bench.notes ++ [.linkReset bench.bareSide] }, .done)
  | .readBare size =>
    let (link, result) := bench.net.link.read bench.bareSide size
    ({ bench with net := { bench.net with link } }, .bare result)
  | .resetLink side =>
    let reset (m : Mux) : Mux := { m with link := m.link.reset }.note (.linkReset side)
    bench.bySession side (silently reset) fun () => .done
  | .closeLink side => bench.bySession side (fun m => m.shut) .link
  | .pause side => bench.adjust side fun c => { c with paused := true }
  | .resume side => bench.adjust side fun c => { c with paused := false }
  | .timeout side => bench.adjust side fun c => { c with timeouts := c.timeouts + 1 }
  | .failRead side fault => bench.adjust side fun c => { c with failRead := some fault }
  | .failWrite side fault => bench.adjust side fun c => { c with failWrite := some fault }
  | .failClose side fault => bench.adjust side fun c => { c with failClose := some fault }

/-! ### Reports -/

/-- The state of a session in short. -/
structure Status where
  closed : Bool
  streams : Nat
  counters : Counters

/-- What became visible at one side. -/
structure SideReport where
  side : Side
  written : List Bytes
  /-- The session's state, unless it was given up. -/
  status : Option Status
  notes : List Note

/-- What became visible during a step. -/
structure Report where
  answer : Answer
  accepted : List Accepted
  sides : List SideReport
  /-- The journal of whoever did the step. -/
  notes : List Note

def reportAt? (bench : Bench) (side : Side) : Option SideReport :=
  (bench.net.mux? side).map fun m =>
    let status : Status := ⟨m.isClosed, m.registry.size, m.counters⟩
    let status := if bench.abandoned.contains side then none else some status
    { side, written := m.written, status, notes := m.notes }

def clearAt (bench : Bench) (side : Side) : Bench :=
  match bench.net.sessions.get side with
  | none => bench
  | some session =>
    let sessions := bench.net.sessions.set side (some { session with written := [], notes := [] })
    { bench with net := { bench.net with sessions } }

/-- Reports, and clears all journals. -/
def report (bench : Bench) (answer : Answer) : Bench × Report :=
  let sides := [Side.dialer, .listener].filterMap bench.reportAt?
  let cleared := (bench.clearAt .dialer).clearAt .listener
  ({ cleared with accepted := [], notes := [] },
    { answer, accepted := bench.accepted, sides, notes := bench.notes })

/-- Does a step, lets all loops run, and reports. -/
def step (bench : Bench) (action : Action) : Bench × Report :=
  let (bench, answer) := bench.perform action
  bench.settle.report answer

/-- Puts a session at an end of the link, if its settings are in bounds. -/
def seat (bench : Bench) (side : Side) (settings : Settings) : Except Fault Bench :=
  match settings.fault? with
  | some fault => .error (.settings fault)
  | none =>
    let session := { Session.start side settings with notes := [.loopStarted] }
    let sessions := bench.net.sessions.set side (some session)
    .ok { bench with
      net := { bench.net with sessions }
      notes := bench.notes ++ [.started side] }

/-- A bench with sessions at some ends. -/
def start (policy : Mux.Policy) (seats : List (Side × Settings)) : Except Fault Bench :=
  let empty : Bench := { net := {}, policy }
  (seats.foldlM (fun (bench : Bench) (side, settings) => bench.seat side settings) empty).map settle

/-- All reports of a run: one at the start and one for each step. -/
def run (policy : Mux.Policy) (seats : List (Side × Settings)) (actions : List Action) :
    Except Fault (List Report) :=
  (start policy seats).map fun bench =>
    let (bench, first) := bench.report .nothing
    first :: go bench actions
where
  go (bench : Bench) : List Action → List Report
    | [] => []
    | action :: actions =>
      let (bench, report) := bench.step action
      report :: go bench actions

end Bench

end StreamMux
