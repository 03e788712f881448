import Interception.Call

/-! The join points bound on one thread. They form a stack: code that is handed no invocation finds the
innermost one on top. A guard remembers only the slot that its binding took, so releasing it removes
whatever stands in that slot and everything above. -/

namespace Interception

/-- The join points bound on a thread, the outermost first. -/
structure Bindings where
  points : List JoinPoint := []
  deriving Inhabited

/-- Stands for one binding, by the slot that it took. -/
structure Guard where
  slot : Nat
  deriving DecidableEq, Inhabited

namespace Bindings

/-- No join point is bound. -/
def empty : Bindings := {}

def depth (b : Bindings) : Nat := b.points.length

/-- Binds a join point on top. -/
def bind (point : JoinPoint) (b : Bindings) : Guard × Bindings :=
  (⟨b.depth⟩, ⟨b.points ++ [point]⟩)

/-- Removes the guard's slot and every slot above it. -/
def release (guard : Guard) (b : Bindings) : Bindings :=
  ⟨b.points.take guard.slot⟩

/-- Puts another join point into a slot, if the slot is in use. -/
def rebind (slot : Nat) (point : JoinPoint) (b : Bindings) : Bindings :=
  ⟨b.points.set slot point⟩

/-- The innermost join point. -/
def current (b : Bindings) : Except Failure JoinPoint :=
  match b.points.getLast? with
  | some point => .ok point
  | none => .error .noJoinPoint

@[simp] theorem depth_bind (point : JoinPoint) (b : Bindings) :
    (b.bind point).2.depth = b.depth + 1 := by
  simp [bind, depth]

@[simp] theorem release_bind (point : JoinPoint) (b : Bindings) :
    (b.bind point).2.release (b.bind point).1 = b := by
  simp [bind, release, depth]

@[simp] theorem depth_rebind (slot : Nat) (point : JoinPoint) (b : Bindings) :
    (b.rebind slot point).depth = b.depth := by
  simp [rebind, depth]

end Bindings

end Interception
