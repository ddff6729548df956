import RollCall.Vault.Storage

/-!
# Keeping an index up to date

A worker takes the reported changes of documents one after the other, reads what has changed, and
tells its subscribers that they should ask the index again. A subscriber that is slow loses the oldest
of its messages.
-/

namespace RollCall

/-- A reported change. -/
inductive DocumentEvent where
  /-- The document is new, or its text, tags or links have changed. -/
  | changed (path : String)
  /-- The document has moved. -/
  | renamed (old new : String)
  /-- The document is gone. -/
  | deleted (path : String)
deriving DecidableEq, Repr

/-- What was done to the index. -/
inductive UpdateReason where
  /-- A document was read. -/
  | reload
  /-- A document was moved. -/
  | rename
  /-- A document was forgotten. -/
  | delete
deriving DecidableEq, Repr

/-- The word for what was done. -/
def UpdateReason.name : UpdateReason → String
  | reload => "reload"
  | rename => "rename"
  | delete => "delete"

/-- The index after a reported change, and what was done. A document that cannot be read leaves the
index as it was. -/
def VaultIndex.apply {σ μ : Type} [Storage σ] [Annotations μ] (vault : σ) (annotations : μ)
    (index : VaultIndex) : DocumentEvent → Option UpdateReason × VaultIndex
  | .changed path =>
    match readFacts vault annotations path with
    | .error _ => (none, index)
    | .ok facts => (some .reload, index.upsert path facts)
  | .renamed old new => (some .rename, (index.rename old new).2)
  | .deleted path => (some .delete, (index.remove path).2)

/-- Number of messages that are kept for a subscriber. -/
def subscriberCapacity : Nat := 64

/-- Messages with one more at the end, the oldest of too many left out. -/
def deliver (messages : List UpdateReason) (reason : UpdateReason) : List UpdateReason :=
  let messages := messages ++ [reason]
  messages.drop (messages.length - subscriberCapacity)

/-- A worker with one subscriber. -/
structure IndexWorker where
  /-- The index that is kept up to date. -/
  index : VaultIndex
  /-- What the subscriber has not yet received, the oldest first. -/
  messages : List UpdateReason

namespace IndexWorker

/-- A worker over an index, before its first event. -/
def start (index : VaultIndex) : IndexWorker := ⟨index, []⟩

variable {σ μ : Type} [Storage σ] [Annotations μ]

/-- Applies one event; gives what was done. -/
def apply (vault : σ) (annotations : μ) (worker : IndexWorker) (event : DocumentEvent) :
    Option UpdateReason × IndexWorker :=
  match worker.index.apply vault annotations event with
  | (none, index) => (none, { worker with index := index })
  | (some reason, index) => (some reason, ⟨index, deliver worker.messages reason⟩)

/-- Applies events in the order in which they were reported. -/
def run (vault : σ) (annotations : μ) (worker : IndexWorker) (events : List DocumentEvent) :
    IndexWorker :=
  events.foldl (fun worker event => (worker.apply vault annotations event).2) worker

end IndexWorker

/-! ## Reporting changes -/

/-- Why a change cannot be reported. -/
inductive WorkerError where
  /-- The worker has stopped. -/
  | stopped
deriving DecidableEq, Repr

/-- The wording of the reason. -/
def WorkerError.message : WorkerError → String
  | stopped => "index worker has stopped"

/-- The changes on their way to a worker. -/
structure EventQueue where
  /-- The changes that were reported and not yet taken, the oldest first. -/
  events : List DocumentEvent
  /-- Whether there is still a worker to take them. -/
  hasWorker : Bool

namespace EventQueue

/-- The queue of a worker that begins. -/
def empty : EventQueue := ⟨[], true⟩

/-- Reports one more change. -/
def report (queue : EventQueue) (event : DocumentEvent) : Except WorkerError EventQueue :=
  if queue.hasWorker then .ok { queue with events := queue.events ++ [event] }
  else .error .stopped

/-- The queue once its worker has stopped. -/
def stop (queue : EventQueue) : EventQueue :=
  { queue with hasWorker := false }

end EventQueue

/-! ## The first filling of an index -/

/-- The pace at which all documents are reported when a worker begins. -/
structure Pace where
  /-- Milliseconds before the first document. -/
  initialDelay : Nat
  /-- Milliseconds between two documents. -/
  stagger : Nat

/-- The pace unless another one is chosen. -/
def Pace.standard : Pace := ⟨1000, 50⟩

/-- The documents with the time at which each is reported as changed. -/
def Pace.schedule (pace : Pace) (paths : List String) : List (String × Nat) :=
  paths.zipIdx.map fun (path, i) => (path, pace.initialDelay + i * pace.stagger)

end RollCall
