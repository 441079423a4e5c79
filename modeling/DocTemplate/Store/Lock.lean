/-!
# Document locks

Which lock serializes the work on a document. A lock is good only for the event loop that it was
made on, so each document has the lock that was made for it last, and a document that is asked for
on another loop gets a new one.
-/

namespace DocTemplate

/-- The lock of a document, and the loop that it was made on. -/
structure DocumentLock where
  loop : Nat
  lock : Nat
  deriving DecidableEq, Repr

/-- The lock of each document. Locks are numbered in the order in which they were made. -/
structure LockRegistry (Id : Type) where
  entries : List (Id × DocumentLock) := []
  made : Nat := 0

namespace LockRegistry

variable {Id : Type} [DecidableEq Id]

/-- The registry with a new lock for a document. -/
def renew (r : LockRegistry Id) (loop : Nat) (documentId : Id) : LockRegistry Id where
  entries := (documentId, ⟨loop, r.made⟩) :: r.entries.filter (·.1 ≠ documentId)
  made := r.made + 1

/-- The lock for work on a document on a loop, and the registry afterwards. -/
def lockFor (r : LockRegistry Id) (loop : Nat) (documentId : Id) : Nat × LockRegistry Id :=
  match r.entries.lookup documentId with
  | some entry => if entry.loop = loop then (entry.lock, r) else (r.made, r.renew loop documentId)
  | none => (r.made, r.renew loop documentId)

end LockRegistry

end DocTemplate
