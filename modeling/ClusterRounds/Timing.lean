/-
  ClusterRounds.Timing

  Time as the program sees it: a clock that is read, a stretch between two readings,
  and the totals of a run.
-/

namespace ClusterRounds

/-- A clock: the readings to come, then steps of one size from zero. -/
structure Clock where
  pending : List Float
  now : Float
  step : Float
deriving Inhabited

namespace Clock

/-- A clock that starts at zero and goes on by a step at each reading. -/
def stepping (step : Float) : Clock := ⟨[], 0, step⟩

def read (c : Clock) : Float × Clock :=
  match c.pending with
  | t :: rest => (t, { c with pending := rest })
  | [] => (c.now + c.step, { c with now := c.now + c.step })

end Clock

structure Stretch where
  start : Float
  stop : Float
deriving Inhabited

def Stretch.elapsed (s : Stretch) : Float := s.stop - s.start

/-- The time that the rounds of a run have taken. -/
structure Timings where
  assign : Float
  update : Float
  total : Float
  rounds : Nat
deriving Inhabited

namespace Timings

def zero : Timings := ⟨0, 0, 0, 0⟩

def addRound (t : Timings) (assign update : Float) : Timings :=
  ⟨t.assign + assign, t.update + update, t.total + (assign + update), t.rounds + 1⟩

end Timings

end ClusterRounds
