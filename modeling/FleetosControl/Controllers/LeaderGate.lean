import Mathlib.Data.List.Induction

/-! The gate that runs the controllers on the leader only. It takes one change after the other, of
the Raft metrics or of the shutdown signal. -/
namespace FleetosControl

inductive ServerState where
  | learner | follower | candidate | leader | shutdown
  deriving DecidableEq

inductive GateEvent where
  -- with the value that the channel holds by then
  | shutdownChanged (signal : Bool)
  -- with the state in the metrics, or nothing once the channel is closed
  | metricsChanged (state : Option ServerState)

structure LeaderGate where
  isLeader : Bool
  -- how many sets were started and not shut down
  activeControllers : Nat
  returned : Bool

namespace LeaderGate

def new : LeaderGate := ⟨false,0,false⟩

def shutdown (gate : LeaderGate) : LeaderGate := { gate with activeControllers := 0 }

def startControllers (gate : LeaderGate) : LeaderGate := { gate with activeControllers := gate.activeControllers + 1 }

def run (gate : LeaderGate) (event : GateEvent) : LeaderGate :=
  if gate.returned then gate
  else
    match event with
    | .shutdownChanged signal => if signal then { gate.shutdown with returned := true } else gate
    | .metricsChanged none => { gate.shutdown with returned := true }
    | .metricsChanged (some state) =>
      if state = .leader && !gate.isLeader then { gate with isLeader := true }.startControllers
      else if state ≠ .leader && gate.isLeader then { gate with isLeader := false }.shutdown
      else gate

end LeaderGate

def GateEvent.ends : GateEvent → Bool
  | .shutdownChanged signal => signal
  | .metricsChanged state => state.isNone

def GateEvent.observed : GateEvent → Option ServerState
  | .shutdownChanged _ => none
  | .metricsChanged state => state

def lastObserved (events : List GateEvent) : Option ServerState := (events.filterMap (·.observed)).getLast?

/-- What the loop knows after the events: whether it goes on, whether it leads, and one set of controllers if it does. -/
structure Gates (events : List GateEvent) (gate : LeaderGate) : Prop where
  ended : gate.returned = events.any (·.ends)
  leads : gate.returned = false → (gate.isLeader = true ↔ lastObserved events = some .leader)
  active : gate.activeControllers = if gate.returned = false ∧ gate.isLeader = true then 1 else 0

theorem lastObserved_append (events : List GateEvent) (event : GateEvent) :
    lastObserved (events ++ [event]) = event.observed.or (lastObserved events) := by
  cases seen : event.observed <;> simp [lastObserved,seen]

theorem Gates.step (gates : Gates events gate) (event : GateEvent) : Gates (events ++ [event]) (gate.run event) := by
  obtain ⟨isLeader,activeControllers,returned⟩ := gate
  obtain ⟨ended,leads,active⟩ := gates
  simp only at ended leads active
  cases returned with
  | true => exact ⟨by simp [LeaderGate.run,← ended],by simp [LeaderGate.run],by simp [LeaderGate.run,active]⟩
  | false =>
    have ends : (events ++ [event]).any (·.ends) = event.ends := by
      rw [List.any_append,← ended]
      simp
    rcases event with (_ | _) | (_ | state)
    · exact ⟨ends.symm,fun _ => by simpa [LeaderGate.run,lastObserved_append,GateEvent.observed] using leads rfl,active⟩
    · exact ⟨ends.symm,nofun,rfl⟩
    · exact ⟨ends.symm,nofun,rfl⟩
    · refine ⟨Eq.trans ?_ ends.symm,fun _ => ?_,?_⟩ <;>
        simp only [LeaderGate.run,LeaderGate.shutdown,LeaderGate.startControllers,lastObserved_append,active] <;>
        by_cases leader : state = .leader <;> cases isLeader <;> simp [leader,GateEvent.ends,GateEvent.observed]

theorem gates_run (events : List GateEvent) : Gates events (events.foldl LeaderGate.run .new) := by
  induction events using List.reverseRecOn with
  | nil => exact ⟨rfl,fun _ => by simp [LeaderGate.new,lastObserved],rfl⟩
  | append_singleton events event ih =>
    rw [List.foldl_append]
    exact ih.step event

/-- One set, exactly while the gate has met neither end and was last told that the node leads. -/
theorem leader_gate_exact (events : List GateEvent) : (events.foldl LeaderGate.run .new).activeControllers =
    if (∀ event ∈ events, event.ends = false) ∧ lastObserved events = some .leader then 1 else 0 := by
  have gates := gates_run events
  rw [gates.active,gates.ended]
  have going : events.any (·.ends) = false ↔ ∀ event ∈ events, event.ends = false := by simp
  refine if_congr ?_ rfl rfl
  rw [← going]
  exact and_congr_right fun unended => gates.leads (gates.ended.trans unended)

end FleetosControl
