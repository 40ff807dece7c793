/-
SongSheet/Mixer.lean

Sessions and the buses they share.

A mixer numbers its buses.  A session owns a bus, and a bus can be handed out
more than once; every handle is the number of the bus behind it, so a volume set
through one handle is heard through all handles of the same bus, and through no
other.  The last volume set is the one that counts.
-/
import SongSheet.MasterBus

namespace SongSheet

/-- Buses, and who holds them. -/
structure Mixer where
  buses : List MasterBus
  /-- The bus of each session. -/
  sessions : List Nat
  /-- The buses handed out besides. -/
  handles : List Nat
  deriving DecidableEq

namespace Mixer

/-- Something that refers to a bus. -/
inductive Handle where
  | session (i : Nat)
  | bus (i : Nat)
  deriving DecidableEq, Repr

/-- What can be done with a mixer. -/
inductive Action where
  | openSession
  | newBus
  /-- Hands out the bus of a session. -/
  | share (session : Nat)
  | set (handle : Handle) (volume : Single)
  deriving DecidableEq

/-- A mixer with one session. -/
def initial : Mixer := ⟨[MasterBus.initial], [0], []⟩

/-- The number of the bus behind a handle. -/
def busOf? (m : Mixer) : Handle → Option Nat
  | .session i => m.sessions[i]?
  | .bus i => m.handles[i]?

/-- The bus behind a handle. -/
def bus? (m : Mixer) (h : Handle) : Option MasterBus := (m.busOf? h).bind (m.buses[·]?)

/-- Carries out an action; what refers to no bus changes nothing. -/
def step (m : Mixer) : Action → Mixer
  | .openSession =>
      { m with buses := m.buses ++ [.initial], sessions := m.sessions ++ [m.buses.length] }
  | .newBus =>
      { m with buses := m.buses ++ [.initial], handles := m.handles ++ [m.buses.length] }
  | .share i => { m with handles := m.handles ++ (m.sessions[i]?).toList }
  | .set h x =>
      match m.busOf? h with
      | some b => { m with buses := m.buses.set b (.withVolume x) }
      | none => m

/-- Carries out actions, the first one first. -/
def run (m : Mixer) (actions : List Action) : Mixer := actions.foldl step m

/-- The buses of all sessions. -/
def sessionBuses (m : Mixer) : List MasterBus := m.sessions.filterMap (m.buses[·]?)

/-- The buses of all handles. -/
def handleBuses (m : Mixer) : List MasterBus := m.handles.filterMap (m.buses[·]?)

end Mixer

end SongSheet
