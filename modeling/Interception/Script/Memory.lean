import Interception.Program

/-! The memory of scripts: the state that all callbacks of a session share. It holds the registers of the
scripts that are running, what scripts keep under names, and how often each target was run. -/

namespace Interception.Script

/-- Values kept under names, each name at most once. -/
structure Shelf (α : Type) where
  items : List (String × α) := []

namespace Shelf

variable {α : Type}

def find? (s : Shelf α) (name : String) : Option α := s.items.lookup name

def erase (s : Shelf α) (name : String) : Shelf α := ⟨s.items.filter fun (n, _) => n != name⟩

/-- Puts an item under a name, in place of the one that was there. -/
def insert (s : Shelf α) (name : String) (item : α) : Shelf α := ⟨(name, item) :: (s.erase name).items⟩

end Shelf

/-- The state that scripts share. -/
structure Memory where
  /-- The last result of each script that was started. -/
  registers : Array Outcome := #[]
  kept : Shelf Ref := {}
  /-- The guards that scripts of the running thread hold. -/
  guards : Shelf Guard := {}
  joinPoints : Shelf JoinPoint := {}
  targetRuns : Array Nat := #[]

abbrev Action (α : Type) := Program Memory α

structure Register where
  index : Nat

namespace Register

/-- A register of its own for a script that is started. -/
def allocate (first : Outcome) : Action Register :=
  Program.modifyGet fun m => (⟨m.registers.size⟩, { m with registers := m.registers.push first })

def read (r : Register) : Action Outcome := do
  pure ((← Program.get).registers.getD r.index (.ok .unit))

def write (r : Register) (last : Outcome) : Action Unit :=
  Program.modify fun m => { m with registers := m.registers.setIfInBounds r.index last }

end Register

/-- Counts the runs of one scripted target. -/
structure Counter where
  index : Nat

namespace Counter

def allocate : Action Counter :=
  Program.modifyGet fun m => (⟨m.targetRuns.size⟩, { m with targetRuns := m.targetRuns.push 0 })

/-- The number of runs before this one. -/
def next (c : Counter) : Action Nat :=
  Program.modifyGet fun m =>
    (m.targetRuns.getD c.index 0, { m with targetRuns := m.targetRuns.modify c.index (· + 1) })

end Counter

end Interception.Script
