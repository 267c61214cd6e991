import ItalyTrip.ApiClient

namespace ItalyTrip

/-- What the camera hands to the uploader. -/
structure Capture where
  clientId : String
  blob : Blob
  takenAt : String
  deriving DecidableEq, Repr

namespace PhotoQueue

def enqueue (item : Capture) : Script PendingPhoto := do
  let bytes ← resolved (← await (.arrayBuffer item.blob))
  let pending : PendingPhoto :=
    ⟨item.clientId, bytes, if item.blob.type = "" then "image/jpeg" else item.blob.type, item.takenAt,
      0, 0, false, none⟩
  resolved (← await (.idbPut pending))
  return pending

def toBlob (item : PendingPhoto) : Blob := ⟨item.bytes, item.contentType⟩

def all : Script (List PendingPhoto) := do resolved (← await .idbGetAll)

/-- Items still worth trying: not permanently failed, and past their backoff. `localeLE` is the order
of `localeCompare`. -/
def due (localeLE : String → String → Bool) (now : Int) : Script (List PendingPhoto) := do
  let items ← all
  return (items.filter fun item => !item.failed && item.nextAttemptAt ≤ now).insertionSort
    fun a b => localeLE a.takenAt b.takenAt

def put (item : PendingPhoto) : Script Unit := do resolved (← await (.idbPut item))

def remove (clientId : String) : Script Unit := do resolved (← await (.idbDelete clientId))

/-- Still trying, versus given up on. -/
def counts : Script (Nat × Nat) := do
  let items ← all
  return ((items.filter fun item => !item.failed).length, (items.filter (·.failed)).length)

end PhotoQueue

end ItalyTrip
