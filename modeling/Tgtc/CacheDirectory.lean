import Tgtc.Maps
import Tgtc.Runs
import Mathlib.Data.List.Sort

/-!
The directory of published cache files and everything that looks at it or changes it: publications, evictions, the
cleanup of expired files, reads that find a file expired or of the wrong size, invalidations, and the scan that starts
the size counter.
-/
namespace Tgtc.CacheDirectory
open Maps Runs

structure CacheFile where
  size : Nat
  mtimeMs : Nat
  atimeMs : Nat
deriving DecidableEq

/-- What `evictLRU` collects of a file. -/
structure Entry where
  name : String
  accessTime : Nat
  size : Nat
deriving DecidableEq

/-- The callers of `evictLRU`. -/
inductive Caller where
  /-- `evictForWaitingTasks`, `prepareCacheCapacity` of the disk manager, and `evictLRU` of the cache service -/
  | waitingTasks | capacity | service
deriving DecidableEq

/-- Whether the caller passes `isPinned` on. -/
def Caller.guarded : Caller → Bool
  | .waitingTasks => false
  | .capacity => false
  | .service => true

inductive Op where
  | readdir
  | stat (name : String)
  | unlink (name : String)
  | rename (name : String) (file : CacheFile)

inductive Answer where
  | names (names : Option (List String))
  | stat (file : Option CacheFile)
  | done (ok : Bool)
deriving DecidableEq

inductive Cont where
  | evictListed (caller : Caller) (target : Nat)
  | evictStatted (caller : Caller) (target : Nat) (name : String) (todo : List String) (entries : List Entry)
  | evictUnlinked (caller : Caller) (target freed evicted : Nat) (entry : Entry) (rest : List Entry)
  | cleanupListed (now : Nat)
  | cleanupStatted (now : Nat) (name : String) (todo surviving : List String)
  | cleanupUnlinked (now : Nat) (name : String) (size : Nat) (todo surviving : List String)
  | invalidateStatted (fileId : String)
  | invalidateUnlinked (fileId : String) (size : Option Nat)
  | invalidateSwept (fileId : String) (size : Option Nat)
  | readUnlinked (fileId : String)
  | published (fileId : String) (size : Nat)
  | scanListed
  | scanStatted (todo : List String) (total : Nat)
deriving DecidableEq

structure Task where
  op : Op
  answer : Option Answer
  cont : Cont

structure Cache where
  files : OrderedMap String CacheFile
  cachedSizeBytes : Option Nat
  fileAccessMap : OrderedMap String Nat
  pinnedCacheRefs : OrderedMap String Nat
  buildSessions : List String
  noCacheMode : Bool
  /-- a task that has come to its end is `none` -/
  tasks : List (Option Task)

def initial (files : OrderedMap String CacheFile) : Cache := ⟨files,none,.empty,.empty,[],false,[]⟩

def registerCache (s : Cache) (size : Nat) : Cache :=
  { s with cachedSizeBytes := some (s.cachedSizeBytes.getD 0 + size) }

/-- `Math.max(0, …)` is what subtraction of natural numbers does. -/
def unregisterCache (s : Cache) (size : Nat) : Cache :=
  { s with cachedSizeBytes := s.cachedSizeBytes.map (· - size) }

def pinCache (s : Cache) (fileId : String) : Cache :=
  { s with pinnedCacheRefs := s.pinnedCacheRefs.set fileId ((s.pinnedCacheRefs.get fileId).getD 0 + 1) }

def unpinCache (s : Cache) (fileId : String) : Cache :=
  let next := (s.pinnedCacheRefs.get fileId).getD 0 - 1
  { s with
    pinnedCacheRefs :=
      if next = 0 then s.pinnedCacheRefs.delete fileId else s.pinnedCacheRefs.set fileId next }

def isPinnedCache (s : Cache) (fileId : String) : Bool :=
  (s.pinnedCacheRefs.get fileId).isSome || s.buildSessions.contains fileId

def perform (s : Cache) (ok : Bool) : Op → Cache × Answer
  | .readdir => (s,.names (if ok then some (s.files.entries.map Prod.fst) else none))
  | .stat name => (s,.stat (if ok then s.files.get name else none))
  | .unlink name =>
    if ok ∧ (s.files.get name).isSome then ({ s with files := s.files.delete name },.done true)
    else (s,.done false)
  | .rename name file => if ok then ({ s with files := s.files.set name file },.done true) else (s,.done false)

def issue (op : Op) (cont : Cont) : Option Task := some ⟨op,none,cont⟩

def sortedEntries (entries : List Entry) : List Entry := entries.insertionSort (fun a b => a.accessTime ≤ b.accessTime)

def nextEvict (caller : Caller) (target freed evicted : Nat) : List Entry → Option Task
  | [] => none
  | entry :: rest =>
    if freed ≥ target then none
    else issue (.unlink entry.name) (.evictUnlinked caller target freed evicted entry rest)

/-- The next stat of an eviction, past the files that are pinned; after the last the collected ones are unlinked. -/
def nextEvictStat (s : Cache) (caller : Caller) (target : Nat) (entries : List Entry) : List String → Option Task
  | [] => nextEvict caller target 0 0 (sortedEntries entries)
  | name :: todo =>
    if caller.guarded && isPinnedCache s name then nextEvictStat s caller target entries todo
    else issue (.stat name) (.evictStatted caller target name todo entries)

/-- `fileAccessMap.get(f) || stat.atimeMs`. -/
def accessTime (s : Cache) (name : String) (file : CacheFile) : Nat :=
  match s.fileAccessMap.get name with
  | some 0 => file.atimeMs
  | some time => time
  | none => file.atimeMs

def pruneAccess (s : Cache) (surviving : List String) : Cache :=
  { s with
    fileAccessMap :=
      (s.fileAccessMap.entries.filter (fun e => e.1 ∉ surviving)).foldl (fun m e => m.delete e.1) s.fileAccessMap }

def nextCleanup (s : Cache) (now : Nat) (surviving : List String) : List String → Cache × Option Task
  | [] => (pruneAccess s surviving,none)
  | name :: todo => (s,issue (.stat name) (.cleanupStatted now name todo surviving))

def cleanupFile (ttl : Nat) (s : Cache) (now : Nat) (name : String) (file : CacheFile) (todo surviving : List String) :
    Cache × Option Task :=
  if isPinnedCache s name then nextCleanup s now (name :: surviving) todo
  else if now - file.mtimeMs > ttl then
    -- checked again right before the unlink
    if isPinnedCache s name then nextCleanup s now (name :: surviving) todo
    else (s,issue (.unlink name) (.cleanupUnlinked now name file.size todo surviving))
  else nextCleanup s now (name :: surviving) todo

def nextScan (s : Cache) (total : Nat) : List String → Cache × Option Task
  | [] => ({ s with cachedSizeBytes := some total },none)
  | name :: todo => (s,issue (.stat name) (.scanStatted todo total))

/-- What a task does with the answer to its call. -/
def goOn (ttl : Nat) (s : Cache) : Cont → Answer → Cache × Option Task
  | .evictListed caller target, .names (some names) => (s,nextEvictStat s caller target [] names)
  | .evictStatted caller target name todo entries, .stat (some file) =>
    (s,nextEvictStat s caller target (entries ++ [⟨name,accessTime s name file,file.size⟩]) todo)
  | .evictStatted caller target _ todo entries, .stat none => (s,nextEvictStat s caller target entries todo)
  | .evictUnlinked caller target freed evicted entry rest, .done true =>
    (unregisterCache { s with fileAccessMap := s.fileAccessMap.delete entry.name } entry.size,
      nextEvict caller target (freed + entry.size) (evicted + 1) rest)
  | .evictUnlinked caller target freed evicted _ rest, .done false => (s,nextEvict caller target freed evicted rest)
  | .cleanupListed now, .names (some names) => nextCleanup s now [] names
  | .cleanupStatted now name todo surviving, .stat (some file) => cleanupFile ttl s now name file todo surviving
  | .cleanupStatted now _ todo surviving, .stat none => nextCleanup s now surviving todo
  | .cleanupUnlinked now name size todo surviving, .done true =>
    nextCleanup (unregisterCache { s with fileAccessMap := s.fileAccessMap.delete name } size) now surviving todo
  | .cleanupUnlinked now _ _ todo surviving, .done false => nextCleanup s now surviving todo
  | .invalidateStatted fileId, .stat file => (s,issue (.unlink fileId) (.invalidateUnlinked fileId (file.map (·.size))))
  | .invalidateUnlinked fileId size, .done _ => (s,issue .readdir (.invalidateSwept fileId size))
  | .invalidateSwept _ (some size), .names _ => (unregisterCache s size,none)
  | .published _ size, .done true => (registerCache s size,none)
  | .scanListed, .names (some names) => nextScan s 0 names
  | .scanListed, .names none => ({ s with cachedSizeBytes := some 0 },none)
  | .scanStatted todo total, .stat (some file) => nextScan s (total + file.size) todo
  | .scanStatted todo total, .stat none => nextScan s total todo
  | _, _ => (s,none)

theorem goOn_tasks {ttl : Nat} {s : Cache} (cont : Cont) (answer : Answer) : (goOn ttl s cont answer).1.tasks = s.tasks := by
  have cleanup : ∀ (s : Cache) now surviving todo, (nextCleanup s now surviving todo).1.tasks = s.tasks := by
    intro s now surviving todo
    cases todo <;> rfl
  have scan : ∀ total todo, (nextScan s total todo).1.tasks = s.tasks := by
    intro total todo
    cases todo <;> rfl
  unfold goOn
  split
  all_goals first | rfl | exact cleanup _ _ _ _ | exact scan _ _ | skip
  unfold cleanupFile
  split_ifs <;> first | rfl | exact cleanup _ _ _ _

def spawn (s : Cache) (op : Op) (cont : Cont) : Cache := { s with tasks := s.tasks ++ [issue op cont] }

def discard (s : Cache) (fileId : String) (file : CacheFile) : Cache :=
  spawn (unregisterCache s file.size) (.unlink fileId) (.readUnlinked fileId)

def getCachedReadStream (ttl : Nat) (s : Cache) (fileId : String) (expectedSize now : Nat) : Cache :=
  if s.noCacheMode then s
  else match s.files.get fileId with
    | none => s
    | some file =>
      if file.size ≠ expectedSize ∨ file.size = 0 then discard s fileId file
      else if now - file.mtimeMs > ttl then discard s fileId file
      else pinCache { s with fileAccessMap := s.fileAccessMap.set fileId now } fileId

def getCachedPath (ttl : Nat) (s : Cache) (fileId : String) (now : Nat) : Cache × Bool :=
  if s.noCacheMode then (s,false)
  else match s.files.get fileId with
    | none => (s,false)
    | some file =>
      if file.size = 0 then (s,false)
      else if now - file.mtimeMs > ttl then (discard s fileId file,false)
      else ({ s with fileAccessMap := s.fileAccessMap.set fileId now },true)

theorem getCachedPath_found {ttl : Nat} {s s' : Cache} {fileId : String} {now : Nat}
    (found : getCachedPath ttl s fileId now = (s',true)) :
    s' = { s with fileAccessMap := s.fileAccessMap.set fileId now } := by
  unfold getCachedPath at found
  split_ifs at found
  · cases found
  · cases known : s.files.get fileId with
    | none => simp [known] at found
    | some file =>
      rw [known] at found
      dsimp only at found
      split_ifs at found
      · cases found
      · cases found
      · cases found
        rfl

def readRange (ttl : Nat) (s : Cache) (fileId : String) (now : Nat) : Cache :=
  match getCachedPath ttl s fileId now with
  | (s',true) => pinCache s' fileId
  | (s',false) => s'

inductive Label where
  | read (fileId : String) (expectedSize now : Nat) | lookUp (fileId : String) (now : Nat)
  | readRange (fileId : String) (now : Nat) | closeReader (fileId : String)
  | startBuild (fileId : String) | endBuild (fileId : String)
  | setNoCacheMode (value : Bool)
  | publish (fileId : String) (file : CacheFile)
  | evict (caller : Caller) (target : Nat) | cleanup (now : Nat) | invalidate (fileId : String)
  /-- `getTotalCacheSize` finds the counter missing -/
  | scan
  | effect (t : Nat) (ok : Bool)
  | resume (t : Nat)

def effectTask (s : Cache) (t : Nat) (task : Task) (ok : Bool) : Cache :=
  let performed := perform s ok task.op
  { performed.1 with tasks := performed.1.tasks.set t (some { task with answer := some performed.2 }) }

def resumeTask (ttl : Nat) (s : Cache) (t : Nat) (task : Task) (answer : Answer) : Cache :=
  let went := goOn ttl s task.cont answer
  { went.1 with tasks := went.1.tasks.set t went.2 }

def step (ttl : Nat) (s : Cache) : Label → Cache
  | .read fileId expectedSize now => getCachedReadStream ttl s fileId expectedSize now
  | .lookUp fileId now => (getCachedPath ttl s fileId now).1
  | .readRange fileId now => readRange ttl s fileId now
  | .closeReader fileId => unpinCache s fileId
  | .startBuild fileId => { s with buildSessions := fileId :: s.buildSessions }
  | .endBuild fileId => { s with buildSessions := s.buildSessions.erase fileId }
  | .setNoCacheMode value => { s with noCacheMode := value }
  | .publish fileId file => spawn s (.rename fileId file) (.published fileId file.size)
  | .evict caller target => spawn s .readdir (.evictListed caller target)
  | .cleanup now => spawn s .readdir (.cleanupListed now)
  | .invalidate fileId => spawn s (.stat fileId) (.invalidateStatted fileId)
  | .scan => spawn s .readdir .scanListed
  | .effect t ok => match s.tasks[t]? with
    | some (some task) => effectTask s t task ok
    | _ => s
  | .resume t => match s.tasks[t]? with
    | some (some task) => match task.answer with
      | some answer => resumeTask ttl s t task answer
      | none => s
    | _ => s

def Waiting (task : Option Task) : Bool := task.any (fun task => task.answer.isNone)

def Answered (task : Option Task) : Bool := task.any (fun task => task.answer.isSome)

/-- Builds and warm-ups look the counter up before they publish, and it never goes missing again. -/
def Allowed (s : Cache) : Label → Prop
  | .closeReader fileId => (s.pinnedCacheRefs.get fileId).isSome
  | .startBuild fileId => fileId ∉ s.buildSessions
  | .endBuild fileId => fileId ∈ s.buildSessions
  | .publish _ _ => s.cachedSizeBytes.isSome
  | .scan => s.cachedSizeBytes = none
  | .effect t _ => ∃ task ∈ s.tasks[t]?, Waiting task = true
  | .resume t => ∃ task ∈ s.tasks[t]?, Answered task = true
  | _ => True

instance (s : Cache) (l : Label) : Decidable (Allowed s l) := by
  cases l <;> unfold Allowed <;> infer_instance

end Tgtc.CacheDirectory
