/-
  ClusterRounds.Barrier

  The barrier of a round. It is opened for one round at a time, every party arrives
  once with its result, and when all have arrived the results are handed out in the
  order of the parties and the barrier is closed. A call that fails changes nothing.

  A wait is no single step. It begins by comparing its round with that of the barrier
  (`enter`), and from then on it only looks whether all have arrived (`look`); other
  calls may come between. `wait` is the wait between whose steps nothing happens.
-/

import ClusterRounds.Failure.Basic

namespace ClusterRounds

structure Barrier (β : Type) where
  parties : Nat
  epoch : Option Int
  /-- The results so far, by party, in the order of arrival. -/
  arrived : List (Int × β)

namespace Barrier

variable {β : Type}

def ofParties (n : Int) : Outcome (Barrier β) :=
  if n < 1 then .error (.argument .noParties) else .ok ⟨n.toNat, none, []⟩

/-- Opens the barrier for a round; the one before has to be over. -/
def openFor (b : Barrier β) (epoch : Option Int) : Outcome (Barrier β) :=
  match b.epoch with
  | some current => .error (.protocol (.roundInFlight epoch current))
  | none => .ok { b with epoch, arrived := [] }

def arrive (b : Barrier β) (party : Int) (epoch : Option Int) (result : β) :
    Outcome (Barrier β) :=
  match b.epoch with
  | none => .error (.protocol (.wrongArrival party epoch none))
  | some current =>
    if epoch ≠ some current then .error (.protocol (.wrongArrival party epoch current))
    else if party < 0 || b.parties ≤ party then .error (.protocol (.unknownPartition party))
    else if b.arrived.any (·.1 = party) then .error (.protocol (.arrivedTwice party current))
    else .ok { b with arrived := b.arrived ++ [(party, result)] }

/-- The parties that have not arrived, ascending. -/
def missing (b : Barrier β) : List Int :=
  ((List.range b.parties).map fun (p : Nat) => (p : Int)).filter fun p => !b.arrived.any (·.1 = p)

/-- A wait begins. Its round has to be the one that the barrier is open for. -/
def enter (b : Barrier β) (epoch : Option Int) : Outcome Unit :=
  if epoch ≠ b.epoch then .error (.protocol (.wrongWait epoch b.epoch)) else .ok ()

/-- The results in the order of the parties, if all have arrived; this closes the barrier. -/
def handOut? (b : Barrier β) : Option (List β × Barrier β) :=
  if b.arrived.length ≠ b.parties then none
  else
    -- as many have arrived as there are parties, and none of them twice
    some ((List.range b.parties).filterMap fun (p : Nat) => b.arrived.lookup (p : Int),
      { b with epoch := none, arrived := [] })

/-- A wait that has begun looks whether all have arrived. While somebody is missing it goes on
    waiting, until its time is up. Its round only tells what is missing: it is not compared again. -/
def look (b : Barrier β) (epoch : Option Int) (timeUp : Bool) :
    Outcome (Option (List β) × Barrier β) :=
  match b.handOut? with
  | some (results, b) => .ok (some results, b)
  | none => if timeUp then .error (.protocol (.missing epoch b.missing)) else .ok (none, b)

/-- A wait that begins and looks at the same moment, with no more time to wait. -/
def wait (b : Barrier β) (epoch : Option Int) : Outcome (List β × Barrier β) := do
  b.enter epoch
  match b.handOut? with
  | some out => return out
  | none => throw (.protocol (.missing epoch b.missing))

theorem wait_of_all_arrived {b : Barrier β} (hall : b.arrived.length = b.parties) :
    b.wait b.epoch =
      .ok ((List.range b.parties).filterMap fun (p : Nat) => b.arrived.lookup (p : Int),
        { b with epoch := none, arrived := [] }) := by
  have henter : b.enter b.epoch = .ok () := if_neg fun h => h rfl
  have hout : b.handOut? = some (_, _) := if_neg fun h => h hall
  rw [wait, henter, hout]
  rfl

/-- A wait is a look that follows its beginning at once. -/
theorem wait_eq (b : Barrier β) (epoch : Option Int) :
    b.wait epoch = (do
      b.enter epoch
      let (results, b) ← b.look epoch true
      return (results.getD [], b)) := by
  unfold wait look
  cases b.handOut? <;> rfl

end Barrier

end ClusterRounds
