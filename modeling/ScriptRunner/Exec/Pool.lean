/-!
# Worker pools

Workers take the items of a list one after another from a shared cursor and put each result into the slot of its item.
The steps of one worker are `claim`, `start`, `finish` and `store`; `lose` ends a worker in the middle of an item.
Steps of different workers may come in any order.  A slot is written at most once (`putSlot_of_some`).
-/

namespace ScriptRunner

/-- What a worker is at. -/
inductive Worker (ρ : Type u) where
  /-- Between two items. -/
  | ready
  /-- An item is claimed. -/
  | claimed (item : Nat)
  /-- The work on an item goes on. -/
  | working (item : Nat)
  /-- A result waits to be stored. -/
  | holding (item : Nat) (result : ρ)
  /-- No item was left. -/
  | ended
  /-- Lost in the middle of an item. -/
  | lost
  deriving DecidableEq, Repr

/-- A worker that will do nothing more. -/
def Worker.isOver {ρ : Type u} : Worker ρ → Bool
  | .ended => true
  | .lost => true
  | _ => false

/-- Workers, the shared cursor, and a slot for each item. -/
structure Pool (ρ : Type u) where
  cursor : Nat
  workers : List (Worker ρ)
  slots : List (Option ρ)
  deriving DecidableEq, Repr

namespace Pool

variable {ρ : Type u}

/-- The start: so many workers, and so many items. -/
def start (workers items : Nat) : Pool ρ := ⟨0, List.replicate workers .ready, List.replicate items none⟩

def setWorker (p : Pool ρ) (k : Nat) (w : Worker ρ) : Pool ρ := { p with workers := p.workers.set k w }

/-- The slots with a result in a slot that was empty. -/
def putSlot (slots : List (Option ρ)) (i : Nat) (r : ρ) : List (Option ρ) :=
  match slots[i]? with
  | some none => slots.set i (some r)
  | _ => slots

/-- Worker `k` takes the next item, or ends. -/
def claim? (p : Pool ρ) (k : Nat) : Option (Pool ρ) :=
  match p.workers[k]? with
  | some .ready =>
    let w := if p.cursor < p.slots.length then Worker.claimed p.cursor else .ended
    some { p.setWorker k w with cursor := p.cursor + 1 }
  | _ => none

/-- Worker `k` begins the work on its item. -/
def start? (p : Pool ρ) (k : Nat) : Option (Pool ρ) :=
  match p.workers[k]? with
  | some (.claimed i) => some (p.setWorker k (.working i))
  | _ => none

/-- Worker `k` has its result. -/
def finish? (p : Pool ρ) (k : Nat) (r : ρ) : Option (Pool ρ) :=
  match p.workers[k]? with
  | some (.claimed i) => some (p.setWorker k (.holding i r))
  | some (.working i) => some (p.setWorker k (.holding i r))
  | _ => none

/-- Worker `k` is lost, and its item with it. -/
def lose? (p : Pool ρ) (k : Nat) : Option (Pool ρ) :=
  match p.workers[k]? with
  | some (.claimed _) => some (p.setWorker k .lost)
  | some (.working _) => some (p.setWorker k .lost)
  | _ => none

/-- Worker `k` stores its result. -/
def store? (p : Pool ρ) (k : Nat) : Option (Pool ρ) :=
  match p.workers[k]? with
  | some (.holding i r) => some { p.setWorker k .ready with slots := putSlot p.slots i r }
  | _ => none

/-- Every worker is done. -/
def isOver (p : Pool ρ) : Bool := p.workers.all Worker.isOver

theorem putSlot_of_some {slots : List (Option ρ)} {i : Nat} {r s : ρ} (h : slots[i]? = some (some r)) :
    putSlot slots i s = slots := by
  simp [putSlot, h]

/-! ### Running a pool -/

/-- One turn of every worker from `k` on: claim, work, store.  `work` gives nothing for an item that loses its
worker. -/
def turn (work : Nat → Option ρ) (p : Pool ρ) (k : Nat) : Pool ρ :=
  match p.claim? k with
  | none => p
  | some p =>
    match p.workers[k]? with
    | some (.claimed i) =>
      match work i with
      | none => (p.lose? k).getD p
      | some r => (((p.start? k).bind (·.finish? k r)).bind (·.store? k)).getD p
    | _ => p

/-- Turns of all workers, until `fuel` rounds are over or every worker is done. -/
def run (work : Nat → Option ρ) : Nat → Pool ρ → Pool ρ
  | 0, p => p
  | fuel + 1, p => if p.isOver then p else run work fuel ((List.range p.workers.length).foldl (turn work) p)

end Pool

/-- The largest size of a pool whose size nobody chose. -/
def maxDefaultWorkers : Nat := 32

/-- At least one worker. -/
def poolSize (jobs : Nat) : Nat := max jobs 1

/-- The size of a pool on a machine that runs so many programs side by side. -/
def defaultPoolSize (parallelism : Nat) : Nat := poolSize (min parallelism maxDefaultWorkers)

/-- No worker of a pool could be started. -/
structure PoolError where
  workers : Nat
  deriving DecidableEq, Repr

def PoolError.message (e : PoolError) : String :=
  s!"failed to start worker threads: none of {max e.workers 1} worker(s) could be started"

namespace Pool

/-- The results of `work` on a list, with `size` workers of which `startable` can be started at most.  A slot stays
empty when its item lost a worker or was never claimed. -/
def map {α : Type v} {ρ : Type u} (size startable : Nat) (items : List α) (work : α → Option ρ) :
    Except PoolError (List (Option ρ)) :=
  if items.isEmpty then .ok []
  else
    let wanted := min size items.length
    let started := min wanted startable
    if started = 0 then .error ⟨wanted⟩
    else .ok (run (fun i => items[i]?.bind work) (items.length + 2) (start started items.length)).slots

end Pool

end ScriptRunner
