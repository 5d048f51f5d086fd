import Mathlib.Data.List.Basic
import Tgtc.Runs

/-!
Backfilling the mirrors. An administrator starts a scan of the files that are there already, newest first and in
pages, and may pause, resume or cancel it.
-/
namespace Tgtc.Backfill
open Runs

def BACKFILL_BATCH_SIZE : Nat := 20
def BACKFILL_MAX_LIMIT : Int := 5000

structure File where
  id : String
  createdAt : Nat
deriving DecidableEq

def File.before (f g : File) : Prop := g.createdAt < f.createdAt ∨ g.createdAt = f.createdAt ∧ g.id < f.id

instance (f g : File) : Decidable (f.before g) := inferInstanceAs (Decidable (_ ∨ _))

structure Library where
  files : List File
  sorted : files.Pairwise File.before

structure Cursor where
  createdAt : Nat
  id : String
deriving DecidableEq

/-- Where a page ends. A `Date` keeps milliseconds. -/
def File.cursor (f : File) : Cursor := ⟨f.createdAt / 1000 * 1000,f.id⟩

def Cursor.admits (k : Cursor) (f : File) : Bool := f.createdAt < k.createdAt || (f.createdAt = k.createdAt && f.id < k.id)

def remaining (files : List File) : Option Cursor → List File
  | none => files
  | some k => files.filter k.admits

inductive Mode where
  | dryRun | apply
deriving DecidableEq

inductive Status where
  | idle | running | paused | completed | cancelled | failed
deriving DecidableEq

inductive Category where
  | executable | missingAnchor | covered | staleVersion
deriving DecidableEq

structure Classification where
  executable : Nat
  missingAnchor : Nat
  covered : Nat
  staleVersion : Nat

def Classification.count (k : Classification) : Category → Classification
  | .executable => { k with executable := k.executable + 1 }
  | .missingAnchor => { k with missingAnchor := k.missingAnchor + 1 }
  | .covered => { k with covered := k.covered + 1 }
  | .staleVersion => { k with staleVersion := k.staleVersion + 1 }

/-- `BackfillJobState` -/
structure Job where
  status : Status
  mode : Mode
  limit : Nat
  scanned : Nat
  queued : Nat
  skipped : Nat
  sample : List String
  classification : Classification
  missingAnchorSample : List String
  cursor : Option Cursor
  visited : List File

def createIdleState : Job := ⟨.idle,.dryRun,0,0,0,0,[],⟨0,0,0,0⟩,[],none,[]⟩

/-- `Number(input.limit) || 200`, within its bounds -/
def limitOf (limit : Option Int) : Nat :=
  let asked := limit.getD 200
  (min (max (if asked = 0 then 200 else asked) 1) BACKFILL_MAX_LIMIT).toNat

structure Evidence where
  currentVersionTasks : Nat
  anyVersionTasks : Nat
  mainAnchorComplete : Bool
  anchorCopy : Bool
deriving DecidableEq

def categoryOf (rules : Nat) (e : Evidence) : Category :=
  if rules ≤ e.currentVersionTasks then .covered
  else if 0 < e.anyVersionTasks then .staleVersion
  else if e.mainAnchorComplete || e.anchorCopy then .executable
  else .missingAnchor

def queues (category : Category) : Bool := category = .executable || category = .staleVersion

def Job.visit (job : Job) (f last : File) (category : Category) : Job :=
  { job with
    scanned := job.scanned + 1
    cursor := some last.cursor
    classification := job.classification.count category
    missingAnchorSample := if category = .missingAnchor ∧ job.missingAnchorSample.length < 20 then
      job.missingAnchorSample ++ [f.id] else job.missingAnchorSample
    visited := job.visited ++ [f] }

def Job.queue (job : Job) (f : File) : Job :=
  { job with queued := job.queued + 1, sample := if job.sample.length < 20 then job.sample ++ [f.id] else job.sample }

def Job.skip (job : Job) : Job := { job with skipped := job.skipped + 1 }

def scan (rules : Nat) (last : File) : Job → List (File × Evidence) → Job × Option (File × List (File × Evidence))
  | job, [] => (job,none)
  | job, (f,e) :: rest =>
    let category := categoryOf rules e
    let job := job.visit f last category
    if job.mode = .dryRun then scan rules last (if queues category then job.queue f else job.skip) rest
    else if queues category then (job,some (f,rest))
    else scan rules last job.skip rest

/-- `start` before its next access. -/
inductive Start where
  /-- `isMirrorEnabled` -/
  | asking (mode : Mode) (limit : Option Int)
  /-- `listEnabledRules` -/
  | listing (mode : Mode) (limit : Option Int)
  | answered
deriving DecidableEq

/-- `run` before its next access. -/
inductive Stage where
  /-- `listEnabledRules` -/
  | entering
  | fetching (rules : Nat) (cursor : Option Cursor) (batchSize : Nat)
  /-- `listReadyByOwnerIds` and `loadBatchTaskCoverage` -/
  | loading (rules : Nat) (batch : List File)
  /-- `onFileCommitted` for a file of the page that ends with `last` -/
  | creating (rules : Nat) (last f : File) (rest : List (File × Evidence))
  | sleeping (rules : Nat) (cursor : Option Cursor)
  | ended
deriving DecidableEq

structure State where
  job : Job
  pauseRequested : Bool
  cancelRequested : Bool
  starts : List Start
  loops : List Stage

def State.start : State := ⟨createIdleState,false,false,[],[]⟩

structure Reply where
  rules : Nat
  evidence : File → Evidence
  created : Bool

inductive Label where
  | start (mode : Mode) (limit : Option Int)
  /-- `isMirrorEnabled` answers a start, or throws -/
  | feature (n : Nat) (enabled : Option Bool)
  /-- `listEnabledRules` answers a start, or throws -/
  | rules (n : Nat) (count : Option Nat)
  | pause
  | resume
  | cancel
  | go (n : Nat) (reply : Option Reply)

def State.goes (s : State) (n : Nat) (stage : Stage) : State := { s with loops := s.loops.set n stage }

def State.ends (s : State) (n : Nat) (status : Status) : State :=
  { s with job := { s.job with status }, loops := s.loops.set n .ended }

def State.check (s : State) (n rules : Nat) (cursor : Option Cursor) : State :=
  if s.job.scanned < s.job.limit then
    if s.cancelRequested then s.ends n .cancelled
    else if s.pauseRequested then s.ends n .paused
    else s.goes n (.fetching rules cursor (min BACKFILL_BATCH_SIZE (s.job.limit - s.job.scanned)))
  else s.ends n .completed

def State.scans (s : State) (n rules : Nat) (last : File) (job : Job) (rest : List (File × Evidence)) : State :=
  match scan rules last job rest with
  | (job,none) => { s with job, loops := s.loops.set n (.sleeping rules (some last.cursor)) }
  | (job,some (f,rest)) => { s with job, loops := s.loops.set n (.creating rules last f rest) }

def State.advance (library : Library) (s : State) (n : Nat) (stage : Stage) (reply : Option Reply) : State := match stage, reply with
  | .entering, some reply => if reply.rules = 0 then s.ends n .completed else s.check n reply.rules none
  | .fetching rules cursor batchSize, some _ => match (remaining library.files cursor).take batchSize with
    | [] => s.ends n .completed
    | f :: rest => s.goes n (.loading rules (f :: rest))
  | .loading rules batch, some reply => match batch.getLast? with
    | some last => s.scans n rules last s.job (batch.map fun f => (f,reply.evidence f))
    | none => s
  | .creating rules last f rest, some reply =>
    s.scans n rules last (if reply.created then s.job.queue f else s.job.skip) rest
  | .sleeping rules cursor, some _ => s.check n rules cursor
  | .entering, none | .fetching _ _ _, none | .loading _ _, none => s.ends n .failed
  -- neither creating a task nor sleeping throws
  | .creating _ _ _ _, none | .sleeping _ _, none | .ended, _ => s

def begin (mode : Mode) (limit : Option Int) : Job := ⟨.running,mode,limitOf limit,0,0,0,[],⟨0,0,0,0⟩,[],none,[]⟩

def step (library : Library) (s : State) : Label → State
  | .start mode limit => if s.job.status = .running then s else { s with starts := s.starts ++ [.asking mode limit] }
  | .feature n enabled => match s.starts[n]? with
    | some (.asking mode limit) =>
      { s with starts := s.starts.set n (if enabled = some true then .listing mode limit else .answered) }
    | _ => s
  | .rules n count => match s.starts[n]? with
    | some (.listing mode limit) =>
      if 0 < count.getD 0 then
        ⟨begin mode limit,false,false,s.starts.set n .answered,s.loops ++ [.entering]⟩
      else { s with starts := s.starts.set n .answered }
    | _ => s
  | .pause => if s.job.status = .running then { s with pauseRequested := true } else s
  | .resume => if s.job.status = .paused then
      { s with job := { s.job with status := .running }, pauseRequested := false, loops := s.loops ++ [.entering] }
    else s
  | .cancel => if s.job.status = .running ∨ s.job.status = .paused then
      { s with job := { s.job with status := .cancelled }, cancelRequested := true }
    else s
  | .go n reply => match s.loops[n]? with
    | some stage => s.advance library n stage reply
    | none => s

end Tgtc.Backfill
