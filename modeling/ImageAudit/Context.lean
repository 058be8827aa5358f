import ImageAudit.Failure

/-! # Stopping a run

A run is stopped by cancellation or by its deadline. Both are asked for at checkpoints; when both
apply, cancellation is what is reported.
-/

namespace ImageAudit

inductive Deadline where
  | unlimited
  | ahead
  | passed
  deriving DecidableEq, Repr

structure Context where
  isCancelled : Bool
  deadline : Deadline
  deriving DecidableEq, Repr

namespace Context

/-- Nothing stops the run. -/
def free : Context := ⟨false, .unlimited⟩

def cancel (context : Context) : Context := { context with isCancelled := true }

/-- Fails when the run must stop. -/
def checkpoint (context : Context) (stage : String) : Except Failure Unit :=
  if context.isCancelled then .error .cancelled
  else if context.deadline = .passed then .error (.timeout ("deadline exceeded at " ++ stage))
  else .ok ()

end Context

end ImageAudit
