import CounterWatch.Listener
import CounterWatch.Monitor

/-!
# Sessions

A session is the life of a monitor behind its listener, from the first datagram to the end. What
the session does to the world is the list of its effects.
-/

namespace CounterWatch

/-- The outcome of a session. -/
structure Session where
  monitor : Monitor
  effects : List Effect

namespace Session

/-- What a session says before its first event. -/
def opening (m : Monitor) : List JournalEntry :=
  [.recordSize Sample.wireSize, .learningEntered m.target]

/-- What a session says at its end. -/
def closing (m : Monitor) : List JournalEntry := [.shutdownComplete m.samples m.anomalies]

/-- The events of some datagrams, each cut to what is received of it, and of some idle spells after
them. The session is stopped while it waits for a datagram, and ends when that last wait is over,
which is one more idle spell. -/
def eventsOf (datagrams : List (List UInt8)) (idle : Nat) : List Event :=
  datagrams.map (fun bytes => .datagram (Listener.receive bytes))
    ++ List.replicate (idle + 1) .tick

/-- The session of some events at one moment. What made it stop is said just before its end. -/
def run (m : Monitor) (now : Moment) (events : List Event) (stop : List JournalEntry) : Session :=
  let reactions := m.reactions now events
  let last := m.after reactions
  { monitor := last
    effects := (opening m).map .journal ++ reactions.flatMap Reaction.effects
      ++ (stop ++ closing last).map .journal }

/-- A session ends in the state that its events lead to. -/
theorem monitor_run (m : Monitor) (now : Moment) (events : List Event) (stop : List JournalEntry) :
    (run m now events stop).monitor = m.run now events :=
  m.after_reactions now events

end Session

end CounterWatch
