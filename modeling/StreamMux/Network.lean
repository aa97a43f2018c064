import StreamMux.Session.Loop

/-!
# Sessions at the ends of one link

A network is a link with a session at one of its ends or at both; an end without a session is *bare*
and is used by hand.  `Network.act` runs an operation of one session on the shared link, and
`Network.settle` lets the loops run until none of them has anything to do.
-/

namespace StreamMux

/-- A link and the sessions at its ends. -/
structure Network where
  link : Link := {}
  sessions : Both (Option Session) := ⟨none, none⟩
  deriving DecidableEq, Repr

namespace Network

/-- The session at an end, together with the link. -/
def mux? (net : Network) (side : Side) : Option Mux :=
  (net.sessions.get side).map fun session => { session with link := net.link }

/-- Puts a session and the link back. -/
def put (net : Network) (side : Side) (m : Mux) : Network :=
  { link := m.link, sessions := net.sessions.set side (some m.toSession) }

/-- Runs an operation of the session at an end; without a session nothing happens. -/
def act {α : Type} (net : Network) (side : Side) (f : Mux → Mux × α) : Network × Option α :=
  match net.mux? side with
  | none => (net, none)
  | some m =>
    let (m, a) := f m
    (net.put side m, some a)

/-- Runs the loop of the session at an end. -/
def pump (net : Network) (policy : Mux.Policy) (side : Side) : Network :=
  (net.act side fun m => (m.pump policy, ())).1

/-- How often the two loops take their turns.  A session answers a frame at most by frames of a
later kind in the order announcement, data, end, and an end by nothing, so that a few rounds are
enough. -/
def rounds : Nat := 8

/-- Lets all loops run until none of them has anything to do. -/
def settle (net : Network) (policy : Mux.Policy) : Network :=
  (List.range rounds).foldl (fun net _ => (net.pump policy .dialer).pump policy .listener) net

end Network

end StreamMux
