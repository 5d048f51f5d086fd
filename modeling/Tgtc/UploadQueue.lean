import Mathlib.Data.Rat.Floor
import Mathlib.Algebra.BigOperators.Group.List.Basic
import Tgtc.Maps
import Tgtc.UploadEntries

/-!
The upload queue of a page: the list of its entries, the counts that are kept beside it, and the workers
that take the entries in turn. Entries are objects, known by their number, which a worker keeps when the
list has been emptied.
-/
namespace Tgtc.UploadQueue
open Maps
open UploadEntries (QueueStatus)
universe u

def isTerminal : QueueStatus → Bool
  | .success | .error | .cancelled => true
  | _ => false

structure QueueEntry (File : Type u) where
  file : Option File
  status : QueueStatus
  totalBytes : Nat
  loadedBytes : Nat

/-- Where a worker is in `processEntry`. -/
inductive Task where
  | uploading | backingOff | tagging
deriving DecidableEq

structure Worker where
  uid : Nat
  task : Task
deriving DecidableEq

structure Start where
  uid : Nat
  processing : Nat
  fileConcurrency : Int
deriving DecidableEq

structure State (File : Type u) where
  object : Nat → QueueEntry File
  created : Nat
  entries : List Nat
  entryByUid : List Nat
  /-- from `pendingCursor` on -/
  pendingQueue : List Nat
  pendingProgress : OrderedMap Nat Int
  aborted : List Nat
  workers : List Worker
  activeWorkers : Int
  /-- `queuedCount`, `activeCount`, `successCount`, `errorCount` and `cancelledCount` -/
  count : QueueStatus → Int
  totalBytes : Int
  loadedBytes : Int
  fileConcurrency : Int
  preferredFileConcurrency : Int
  strictSerialUpload : Bool
  starts : List Start

structure Files (File : Type u) where
  name : File → String
  size : File → Nat

structure FolderItem (File : Type u) where
  file : File
  folderId : Option String

section
variable {File : Type u}

def init : State File where
  object := fun _ => ⟨none,.cancelled,0,0⟩
  created := 0
  entries := []
  entryByUid := []
  pendingQueue := []
  pendingProgress := .empty
  aborted := []
  workers := []
  activeWorkers := 0
  count := fun _ => 0
  totalBytes := 0
  loadedBytes := 0
  fileConcurrency := 2
  preferredFileConcurrency := 2
  strictSerialUpload := false
  starts := []

def State.alter (s : State File) (uid : Nat) (entry : QueueEntry File) : State File :=
  { s with object := Function.update s.object uid entry }

def setLoaded (s : State File) (uid : Nat) (nextLoaded : Int) : State File :=
  let entry := s.object uid
  let normalized := min entry.totalBytes nextLoaded.toNat
  { s.alter uid { entry with loadedBytes := normalized } with loadedBytes := s.loadedBytes + (normalized - entry.loadedBytes) }

/-- The loop of `flushProgress` -/
def flushOne (s : State File) (snapshot : Nat × Int) : State File :=
  if snapshot.1 ∉ s.entryByUid ∨ isTerminal (s.object snapshot.1).status = true then s else setLoaded s snapshot.1 snapshot.2

def flushProgress (s : State File) : State File := { s.pendingProgress.entries.foldl flushOne s with pendingProgress := .empty }

def changeStatus (s : State File) (uid : Nat) (next : QueueStatus) : State File :=
  let entry := s.object uid
  if entry.status = next then s
  else { s.alter uid { entry with status := next } with
    count := fun status => s.count status - (if entry.status = status then 1 else 0) + if next = status then 1 else 0 }

def finalizeEntry (s : State File) (uid : Nat) : State File :=
  let entry := s.object uid
  if isTerminal entry.status then { s.alter uid { entry with file := none } with pendingProgress := s.pendingProgress.delete uid } else s

def takePending (object : Nat → QueueEntry File) : List Nat → Option Nat × List Nat
  | [] => (none,[])
  | uid :: rest => if (object uid).status = .pending then (some uid,rest) else takePending object rest

def process (s : State File) (uid : Nat) : State File :=
  let s := changeStatus s uid .processing
  { s with
    workers := s.workers ++ [⟨uid,.uploading⟩]
    starts := s.starts ++ [⟨uid,s.workers.length + 1,s.fileConcurrency⟩] }

def leave (ensurePump : State File → State File) (s : State File) : State File :=
  let s := { s with activeWorkers := s.activeWorkers - 1 }
  if 0 < s.count .pending then ensurePump s
  else if s.activeWorkers = 0 then flushProgress s
  else s

/-- The head of the loop of `worker`, which is none of `workers` then. -/
def loop (ensurePump : State File → State File) (s : State File) : State File :=
  match takePending s.object s.pendingQueue with
  | (some uid,rest) => process { s with pendingQueue := rest } uid
  | (none,rest) => leave ensurePump { s with pendingQueue := rest }

def startWorker (ensurePump : State File → State File) (s : State File) : State File :=
  loop ensurePump { s with activeWorkers := s.activeWorkers + 1 }

def spawn (s : State File) : Nat := (min s.fileConcurrency (s.count .pending) - s.activeWorkers).toNat

/-- `ensurePump`, where workers that find nothing go no deeper than the fuel. -/
def pump : Nat → State File → State File
  | 0, s => s
  | fuel + 1, s => if s.count .pending = 0 then s else (startWorker (pump fuel))^[spawn s] s

def ensurePump (s : State File) : State File := pump ((s.count .pending).toNat + 1) s

/-- `processEntry` returns to its worker. -/
def finish (s : State File) (uid : Nat) : State File := loop ensurePump (finalizeEntry s uid)

def State.dismiss (s : State File) (w : Nat) : State File := { s with workers := s.workers.eraseIdx w }

def State.employ (s : State File) (uid : Nat) (task : Task) : State File := { s with workers := s.workers ++ [⟨uid,task⟩] }

def succeed (s : State File) (w uid : Nat) : State File :=
  let s := (flushProgress s).dismiss w
  (changeStatus (setLoaded s uid (s.object uid).totalBytes) uid .success).employ uid .tagging

/-- The error path of `processEntry`, with whether another attempt is to be made. -/
def fail (s : State File) (w uid : Nat) (again : Bool) : State File :=
  let s := s.dismiss w
  if uid ∈ s.aborted then finish (changeStatus s uid .cancelled) uid
  else if again then (setLoaded { s with pendingProgress := s.pendingProgress.delete uid } uid 0).employ uid .backingOff
  else finish (changeStatus s uid .error) uid

/-- One round of the loop of `appendEntries`, for an entry made by `createEntry`. -/
def appendEntry (files : Files File) (s : State File) (file : File) : State File :=
  { s.alter s.created ⟨some file,.pending,files.size file,0⟩ with
    created := s.created + 1
    entryByUid := s.entryByUid ++ [s.created]
    pendingQueue := s.pendingQueue ++ [s.created]
    count := fun status => s.count status + if QueueStatus.pending = status then 1 else 0
    totalBytes := s.totalBytes + files.size file
    entries := s.entries ++ [s.created] }

def appendEntries (files : Files File) (s : State File) (new : List File) : State File :=
  if new = [] then s else ensurePump (new.foldl (appendEntry files) s)

section
variable [DecidableEq File]

def hasActiveFile (s : State File) (file : File) : Bool :=
  s.entries.any fun uid => decide ((s.object uid).file = some file) && !isTerminal (s.object uid).status

def enqueue (files : Files File) (s : State File) (new : List File) : State File :=
  appendEntries files s (new.filter fun file => !hasActiveFile s file)

def batchKey (files : Files File) (item : FolderItem File) : String := item.folderId.getD "root" ++ ":" ++ files.name item.file

/-- The loop of `enqueueFolderFiles` -/
def newInBatch (files : Files File) (s : State File) : List String → List (FolderItem File) → List File
  | _, [] => []
  | seenInBatch, item :: rest =>
    if hasActiveFile s item.file = true ∨ batchKey files item ∈ seenInBatch then newInBatch files s seenInBatch rest
    else item.file :: newInBatch files s (batchKey files item :: seenInBatch) rest

def enqueueFolderFiles (files : Files File) (s : State File) (items : List (FolderItem File)) : State File :=
  appendEntries files s (newInBatch files s [] items)

end

def cancelOne (s : State File) (uid : Nat) : State File :=
  if uid ∉ s.entryByUid ∨ isTerminal (s.object uid).status = true then s
  else if (s.object uid).status = .pending then finalizeEntry (changeStatus s uid .cancelled) uid
  else { s with aborted := uid :: s.aborted }

def cancelAll (s : State File) : State File := s.entries.foldl cancelOne s

def clearFinished (s : State File) : State File :=
  let finished := s.entries.filter fun uid => isTerminal (s.object uid).status
  { s with
    entryByUid := s.entryByUid.filter fun uid => uid ∉ finished
    totalBytes := s.totalBytes - (finished.map fun uid => (s.object uid).totalBytes).sum
    loadedBytes := s.loadedBytes - (finished.map fun uid => (s.object uid).loadedBytes).sum
    count := fun status => s.count status - ((finished.map fun uid => if (s.object uid).status = status then 1 else 0).sum : Nat)
    entries := s.entries.filter fun uid => !isTerminal (s.object uid).status }

def repump (s : State File) : State File := if 0 < s.count .pending then ensurePump s else s

def setFileConcurrency (s : State File) (n : ℚ) : State File :=
  let preferredFileConcurrency := min 4 (max 1 ⌊n⌋)
  repump { s with preferredFileConcurrency, fileConcurrency := if s.strictSerialUpload then 1 else preferredFileConcurrency }

def setStrictSerialUpload (s : State File) (enabled : Bool) : State File :=
  repump { s with strictSerialUpload := enabled, fileConcurrency := if enabled then 1 else s.preferredFileConcurrency }

/-- The workers that run go on. -/
def reset (s : State File) : State File :=
  let s := cancelAll s
  { s with
    aborted := s.workers.map Worker.uid ++ s.aborted
    entryByUid := []
    pendingProgress := .empty
    pendingQueue := []
    activeWorkers := 0
    entries := []
    count := fun _ => 0
    totalBytes := 0
    loadedBytes := 0
    strictSerialUpload := false
    preferredFileConcurrency := 2
    fileConcurrency := 2 }

inductive Label (File : Type u) where
  | enqueue (new : List File)
  | enqueueFolderFiles (items : List (FolderItem File))
  | cancelOne (uid : Nat)
  | cancelAll
  | clearFinished
  | reset
  | setFileConcurrency (n : ℚ)
  | setStrictSerialUpload (enabled : Bool)
  /-- `scheduleProgress`, and its timer -/
  | progress (w : Nat) (loadedBytes : Int)
  | flush
  | succeed (w : Nat)
  | tagged (w : Nat)
  | fail (w : Nat) (again : Bool)
  | wake (w : Nat)
  | cancelWait (w : Nat)

def step [DecidableEq File] (files : Files File) (s : State File) : Label File → State File
  | .enqueue new => enqueue files s new
  | .enqueueFolderFiles items => enqueueFolderFiles files s items
  | .cancelOne uid => cancelOne s uid
  | .cancelAll => cancelAll s
  | .clearFinished => clearFinished s
  | .reset => reset s
  | .setFileConcurrency n => setFileConcurrency s n
  | .setStrictSerialUpload enabled => setStrictSerialUpload s enabled
  | .progress w loadedBytes => match s.workers[w]? with
    | some ⟨uid,.uploading⟩ => { s with pendingProgress := s.pendingProgress.set uid loadedBytes }
    | _ => s
  | .flush => flushProgress s
  | .succeed w => match s.workers[w]? with
    | some ⟨uid,.uploading⟩ => succeed s w uid
    | _ => s
  | .tagged w => match s.workers[w]? with
    | some ⟨uid,.tagging⟩ => finish (s.dismiss w) uid
    | _ => s
  | .fail w again => match s.workers[w]? with
    | some ⟨uid,.uploading⟩ => fail s w uid again
    | _ => s
  | .wake w => match s.workers[w]? with
    | some ⟨uid,.backingOff⟩ => (s.dismiss w).employ uid .uploading
    | _ => s
  | .cancelWait w => match s.workers[w]? with
    | some ⟨uid,.backingOff⟩ => if uid ∈ s.aborted then finish (changeStatus (s.dismiss w) uid .cancelled) uid else s
    | _ => s

end

end Tgtc.UploadQueue
