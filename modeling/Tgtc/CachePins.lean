import Mathlib
import Tgtc.CacheDirectory

/-!
Evictions and readers. An eviction looks whether a file is pinned, and unlinks it some calls later.
-/
namespace Tgtc.CachePins
open Maps Runs CacheDirectory

def evicts (task : Task) : Option String :=
  match task.cont with
  | .evictUnlinked _ _ _ _ entry _ => some entry.name
  | .cleanupUnlinked _ name _ _ _ => some name
  | _ => none

def passed (task : Task) : List String :=
  match task.cont with
  | .evictStatted _ _ name _ entries => name :: entries.map (·.name)
  | .evictUnlinked _ _ _ _ entry rest => (if task.answer.isNone then [entry.name] else []) ++ rest.map (·.name)
  | .cleanupUnlinked _ name _ _ _ => if task.answer.isNone then [name] else []
  | _ => []

/-- Some eviction has passed the file and not unlinked it yet. -/
def Passed (s : Cache) (fileId : String) : Prop := ∃ task ∈ s.tasks, ∃ t ∈ task, fileId ∈ passed t

instance (s : Cache) (fileId : String) : Decidable (Passed s fileId) := by
  unfold Passed
  infer_instance

def guardedTask (task : Task) : Bool :=
  match task.cont with
  | .evictListed caller _ => caller.guarded
  | .evictStatted caller _ _ _ _ => caller.guarded
  | .evictUnlinked caller _ _ _ _ _ => caller.guarded
  | _ => true

/-- Evictions look at the pins, and no reader or build comes for a file between the look and the unlink. -/
def Orderly (s : Cache) : Label → Prop
  | .evict caller _ => caller.guarded = true
  | .read fileId _ _ => ¬Passed s fileId
  | .readRange fileId _ => ¬Passed s fileId
  | .startBuild fileId => ¬Passed s fileId
  | _ => True

instance (s : Cache) (l : Label) : Decidable (Orderly s l) := by
  induction l using Label.casesOn <;> unfold Orderly <;> infer_instance

structure Kept (s : Cache) (task : Task) : Prop where
  guarded : guardedTask task = true
  unpinned : ∀ name ∈ passed task, isPinnedCache s name = false

def Inv (s : Cache) : Prop := ∀ task ∈ s.tasks, ∀ t ∈ task, Kept s t

section
variable {s s' : Cache} {ttl : Nat} {fileId : String}

variable {task : Task} {name : String} {t : Nat}

theorem kept_pins (kept : Kept s task)
    (fewer : ∀ name ∈ passed task, isPinnedCache s' name = true → isPinnedCache s name = true) : Kept s' task := by
  refine ⟨kept.guarded,fun name member => ?_⟩
  by_contra pinned
  have before := fewer name member (by simpa using pinned)
  rw [kept.unpinned name member] at before
  cases before

theorem inv_pins (inv : Inv s) (tasks : s'.tasks = s.tasks)
    (fewer : ∀ name, Passed s name → isPinnedCache s' name = true → isPinnedCache s name = true) : Inv s' := by
  intro task member t found
  rw [tasks] at member
  exact kept_pins (inv task member t found) fun name inside => fewer name ⟨task,member,t,found,inside⟩

theorem inv_spawn (inv : Inv s) (op : Op) (cont : Cont) (fresh : passed ⟨op,none,cont⟩ = [])
    (guarded : guardedTask ⟨op,none,cont⟩ = true) : Inv (spawn s op cont) := by
  intro task member t found
  simp only [spawn,List.mem_append,List.mem_singleton] at member
  rcases member with old | rfl
  · exact ⟨(inv task old t found).guarded,(inv task old t found).unpinned⟩
  · simp only [issue,Option.mem_some_iff] at found
    subst found
    refine ⟨guarded,fun name inside => ?_⟩
    rw [fresh] at inside
    cases inside

theorem pinCache_other (other : name ≠ fileId) (pinned : isPinnedCache (pinCache s fileId) name = true) :
    isPinnedCache s name = true := by
  simpa [isPinnedCache,pinCache,get_set_other _ _ other] using pinned

theorem unpinCache_pinned (pinned : isPinnedCache (unpinCache s fileId) name = true) :
    isPinnedCache s name = true := by
  simp only [isPinnedCache,unpinCache,Bool.or_eq_true] at pinned ⊢
  refine pinned.imp_left fun some_ref => ?_
  by_cases same : name = fileId
  · subst same
    split_ifs at some_ref with last
    · rw [get_delete_same] at some_ref
      cases some_ref
    · cases refs : s.pinnedCacheRefs.get name with
      | none => simp [refs] at last
      | some n => rfl
  · split_ifs at some_ref
    · rwa [get_delete_other _ same] at some_ref
    · rwa [get_set_other _ _ same] at some_ref

theorem inv_pinCache (inv : Inv s) (free : ¬Passed s fileId) : Inv (pinCache s fileId) := by
  refine inv_pins inv rfl fun name inside pinned => pinCache_other ?_ pinned
  rintro rfl
  exact free inside

theorem inv_discard (inv : Inv s) (file : CacheFile) : Inv (discard s fileId file) :=
  inv_spawn (inv_pins inv rfl fun _ _ pinned => pinned : Inv (unregisterCache s file.size)) _ _ rfl rfl

theorem inv_read (inv : Inv s) (free : ¬Passed s fileId) (expectedSize now : Nat) :
    Inv (getCachedReadStream ttl s fileId expectedSize now) := by
  unfold getCachedReadStream
  split_ifs
  · exact inv
  · cases s.files.get fileId with
    | none => exact inv
    | some file =>
      dsimp only
      split_ifs
      · exact inv_discard inv file
      · exact inv_discard inv file
      · exact inv_pinCache (inv_pins inv rfl fun _ _ pinned => pinned) free

theorem inv_getCachedPath (ttl : Nat) (fileId : String) (now : Nat) (inv : Inv s) :
    Inv (getCachedPath ttl s fileId now).1 := by
  unfold getCachedPath
  split_ifs
  · exact inv
  · cases s.files.get fileId with
    | none => exact inv
    | some file =>
      dsimp only
      split_ifs
      · exact inv
      · exact inv_discard inv file
      · exact inv_pins inv rfl fun _ _ pinned => pinned

theorem inv_readRange (inv : Inv s) (free : ¬Passed s fileId) (now : Nat) : Inv (readRange ttl s fileId now) := by
  unfold readRange
  rcases looked : getCachedPath ttl s fileId now with ⟨s',found⟩
  cases found with
  | false =>
    have kept := inv_getCachedPath ttl fileId now inv
    rwa [looked] at kept
  | true =>
    rw [getCachedPath_found looked]
    exact inv_pinCache (inv_pins inv rfl fun _ _ pinned => pinned) free

def KeptNext (s : Cache) (next : Option Task) : Prop := ∀ t ∈ next, Kept s t

theorem kept_nextEvict {caller : Caller} (guarded : caller.guarded = true) (target freed evicted : Nat) {entries : List Entry}
    (unpinned : ∀ e ∈ entries, isPinnedCache s e.name = false) : KeptNext s (nextEvict caller target freed evicted entries) := by
  intro t found
  cases entries with
  | nil => cases found
  | cons entry rest =>
    simp only [nextEvict] at found
    split_ifs at found
    · cases found
    · simp only [issue,Option.mem_some_iff] at found
      subst found
      refine ⟨guarded,fun name inside => ?_⟩
      simp only [passed,Option.isNone_none,if_true,List.mem_append,List.mem_singleton,List.mem_map] at inside
      rcases inside with rfl | ⟨e,member,rfl⟩
      · exact unpinned entry (by simp)
      · exact unpinned e (List.mem_cons_of_mem _ member)

theorem kept_nextEvictStat {caller : Caller} (guarded : caller.guarded = true) (target : Nat) {entries : List Entry}
    (unpinned : ∀ e ∈ entries, isPinnedCache s e.name = false) (todo : List String) :
    KeptNext s (nextEvictStat s caller target entries todo) := by
  induction todo with
  | nil =>
    refine kept_nextEvict guarded target 0 0 fun e member => unpinned e ?_
    exact (List.mem_insertionSort _).mp member
  | cons name todo ih =>
    simp only [nextEvictStat]
    split_ifs with pinned
    · exact ih
    · intro t found
      simp only [issue,Option.mem_some_iff] at found
      subst found
      refine ⟨guarded,fun other inside => ?_⟩
      simp only [passed,List.mem_cons,List.mem_map] at inside
      rcases inside with rfl | ⟨e,member,rfl⟩
      · simpa [guarded] using pinned
      · exact unpinned e member

theorem kept_nothing (guarded : guardedTask task = true) (nothing : passed task = []) : Kept s task :=
  ⟨guarded,fun name inside => by simp [nothing] at inside⟩

theorem kept_nextCleanup (now : Nat) (surviving todo : List String) : KeptNext s' (nextCleanup s now surviving todo).2 := by
  intro t found
  cases todo with
  | nil => cases found
  | cons name todo =>
    simp only [nextCleanup,issue,Option.mem_some_iff] at found
    subst found
    exact kept_nothing rfl rfl

theorem kept_nextScan (total : Nat) (todo : List String) : KeptNext s' (nextScan s total todo).2 := by
  intro t found
  cases todo with
  | nil => cases found
  | cons name todo =>
    simp only [nextScan,issue,Option.mem_some_iff] at found
    subst found
    exact kept_nothing rfl rfl

theorem nextCleanup_pins (now : Nat) (surviving todo : List String) (name : String) :
    isPinnedCache (nextCleanup s now surviving todo).1 name = isPinnedCache s name := by
  cases todo <;> rfl

theorem nextScan_pins (total : Nat) (todo : List String) (name : String) :
    isPinnedCache (nextScan s total todo).1 name = isPinnedCache s name := by
  cases todo <;> rfl

theorem cleanupFile_pins (now : Nat) (file : CacheFile) (todo surviving : List String) (name other : String) :
    isPinnedCache (cleanupFile ttl s now name file todo surviving).1 other = isPinnedCache s other := by
  unfold cleanupFile
  split_ifs
  · exact nextCleanup_pins _ _ _ _
  · rfl
  · exact nextCleanup_pins _ _ _ _

theorem goOn_pins (cont : Cont) (answer : Answer) (name : String) :
    isPinnedCache (goOn ttl s cont answer).1 name = isPinnedCache s name := by
  unfold goOn
  split
  all_goals try simp only [nextCleanup_pins,nextScan_pins,cleanupFile_pins]
  all_goals rfl

theorem kept_cleanupFile (now : Nat) (name : String) (file : CacheFile) (todo surviving : List String) :
    KeptNext s (cleanupFile ttl s now name file todo surviving).2 := by
  unfold cleanupFile
  split_ifs with pinned
  · exact kept_nextCleanup _ _ _
  · intro t found
    simp only [issue,Option.mem_some_iff] at found
    subst found
    refine ⟨rfl,fun other inside => ?_⟩
    simp only [passed,Option.isNone_none,if_true,List.mem_singleton] at inside
    subst inside
    simpa using pinned
  · exact kept_nextCleanup _ _ _

theorem kept_goOn {answer : Answer} (answered : task.answer = some answer) (kept : Kept s task) :
    KeptNext s (goOn ttl s task.cont answer).2 := by
  obtain ⟨op,state,cont⟩ := task
  have guarded := kept.guarded
  have unpinned := kept.unpinned
  subst answered
  have finished : KeptNext s none := fun _ found => (by cases found)
  simp only [goOn]
  split
  · exact kept_nextEvictStat guarded _ (by simp) _
  · refine kept_nextEvictStat guarded _ (fun e member => ?_) _
    rcases List.mem_append.mp member with old | new
    · exact unpinned e.name (by exact List.mem_cons_of_mem _ (List.mem_map_of_mem old))
    · cases List.mem_singleton.mp new
      exact unpinned _ (by simp [passed])
  · refine kept_nextEvictStat guarded _ (fun e member => ?_) _
    exact unpinned e.name (by exact List.mem_cons_of_mem _ (List.mem_map_of_mem member))
  · refine kept_nextEvict guarded _ _ _ fun e member => unpinned e.name ?_
    simpa [passed] using ⟨e,member,rfl⟩
  · refine kept_nextEvict guarded _ _ _ fun e member => unpinned e.name ?_
    simpa [passed] using ⟨e,member,rfl⟩
  · exact kept_nextCleanup _ _ _
  · exact kept_cleanupFile _ _ _ _ _
  · exact kept_nextCleanup _ _ _
  · exact kept_nextCleanup _ _ _
  · exact kept_nextCleanup _ _ _
  · intro t found
    simp only [issue,Option.mem_some_iff] at found
    subst found
    exact kept_nothing rfl rfl
  · intro t found
    simp only [issue,Option.mem_some_iff] at found
    subst found
    exact kept_nothing rfl rfl
  · exact finished
  · exact finished
  · exact kept_nextScan _ _
  · exact finished
  · exact kept_nextScan _ _
  · exact kept_nextScan _ _
  · exact finished

theorem inv_replace (inv : Inv s) {next : Option Task} (kept : KeptNext s next) :
    ∀ task ∈ s.tasks.set t next, ∀ u ∈ task, Kept s u := by
  intro task member u found
  rcases List.mem_or_eq_of_mem_set member with old | rfl
  · exact inv task old u found
  · exact kept u found

theorem passed_answered (task : Task) (answer : Answer)
    (inside : name ∈ passed { task with answer := some answer }) : name ∈ passed task := by
  obtain ⟨op,state,cont⟩ := task
  cases cont with
  | evictUnlinked caller target freed evicted entry rest =>
    exact List.mem_append_right _ inside
  | cleanupUnlinked now other size todo surviving => simp [passed] at inside
  | _ => exact inside

theorem inv_effect (inv : Inv s) (found : s.tasks[t]? = some (some task)) (ok : Bool) :
    Inv (effectTask s t task ok) := by
  have pins : ∀ name, isPinnedCache (perform s ok task.op).1 name = isPinnedCache s name := by
    intro name
    unfold perform
    split
    · rfl
    · rfl
    · split_ifs <;> rfl
    · split_ifs <;> rfl
  have tasks : (perform s ok task.op).1.tasks = s.tasks := by
    unfold perform
    split
    · rfl
    · rfl
    · split_ifs <;> rfl
    · split_ifs <;> rfl
  have kept := inv _ (List.mem_of_getElem? found) task rfl
  have answered : KeptNext s (some { task with answer := some (perform s ok task.op).2 }) := by
    intro u here
    simp only [Option.mem_some_iff] at here
    subst here
    exact ⟨kept.guarded,fun name inside => kept.unpinned name (passed_answered task _ inside)⟩
  intro u member v here
  simp only [effectTask,tasks] at member
  have replaced := inv_replace inv answered u member v here
  exact kept_pins replaced fun name _ pinned => (pins name).symm.trans pinned

theorem inv_resume (inv : Inv s) {answer : Answer} (found : s.tasks[t]? = some (some task))
    (answered : task.answer = some answer) : Inv (resumeTask ttl s t task answer) := by
  have kept := inv _ (List.mem_of_getElem? found) task rfl
  intro u member v here
  simp only [resumeTask,goOn_tasks] at member
  have replaced := inv_replace inv (kept_goOn answered kept) u member v here
  exact kept_pins replaced fun name _ pinned => (goOn_pins task.cont answer name).symm.trans pinned

theorem step_inv (ttl : Nat) (inv : Inv s) (l : Label) (orderly : Orderly s l) : Inv (step ttl s l) := by
  cases l with
  | read fileId expectedSize now => exact inv_read inv orderly expectedSize now
  | lookUp fileId now => exact inv_getCachedPath ttl fileId now inv
  | readRange fileId now => exact inv_readRange inv orderly now
  | closeReader fileId => exact inv_pins inv rfl fun name _ pinned => unpinCache_pinned pinned
  | startBuild fileId =>
    refine inv_pins inv rfl fun name inside pinned => ?_
    have other : name ≠ fileId := by
      rintro rfl
      exact orderly inside
    simpa [step,isPinnedCache,other] using pinned
  | endBuild fileId =>
    refine inv_pins inv rfl fun name _ pinned => ?_
    simp only [isPinnedCache,Bool.or_eq_true,List.contains_iff_mem] at pinned ⊢
    exact pinned.imp_right List.mem_of_mem_erase
  | setNoCacheMode value => exact inv_pins inv rfl fun _ _ pinned => pinned
  | publish fileId file => exact inv_spawn inv _ _ rfl rfl
  | evict caller target => exact inv_spawn inv _ _ rfl orderly
  | cleanup now | invalidate fileId | scan => exact inv_spawn inv _ _ rfl rfl
  | effect t ok =>
    simp only [step]
    split
    · next task found => exact inv_effect inv found ok
    · exact inv
  | resume t =>
    simp only [step]
    split
    · next task found =>
      split
      · next answer answered => exact inv_resume inv found answered
      · exact inv
    · exact inv

theorem reachable_inv {files : OrderedMap String CacheFile}
    (reach : Reachable (step ttl) (fun s l => Allowed s l ∧ Orderly s l) (initial files) s) : Inv s := by
  have base : Inv (initial files) := by simp [Inv,initial]
  exact reachable_invariant base (fun _ l inv ok => step_inv ttl inv l ok.2) reach

end

/-- The next unlink of an eviction, if it takes effect, does not remove a pinned file. -/
def EvictsUnpinned (s : Cache) : Prop :=
  ∀ (t : Nat) (task : Task) (fileId : String), s.tasks[t]? = some (some task) → task.answer = none →
    evicts task = some fileId → isPinnedCache s fileId = false

/-- Where evictions look at the pins and nobody comes between the look and the unlink, no file that is
read or built is removed. -/
theorem evictions_spare_pinned {ttl : Nat} {files : OrderedMap String CacheFile} {s : Cache}
    (reach : Reachable (step ttl) (fun s l => Allowed s l ∧ Orderly s l) (initial files) s) : EvictsUnpinned s := by
  intro t task fileId found waiting evicting
  have kept := reachable_inv reach _ (List.mem_of_getElem? found) task rfl
  apply kept.unpinned fileId
  obtain ⟨op,answer,cont⟩ := task
  cases cont <;> simp_all [evicts,passed]

def twoFiles : OrderedMap String CacheFile := (OrderedMap.empty.set "a" ⟨8,0,0⟩).set "b" ⟨8,0,50⟩

/-- The service evicts while the first file is read: it passes the first by and is about to unlink the second. -/
def guardedEviction : List Label :=
  [.read "a" 8 1,.evict .service 4,.effect 0 true,.resume 0,.effect 0 true,.resume 0]

theorem evictions_spare_pinned_reader :
    let s := guardedEviction.foldl (step 100) (initial twoFiles)
    isPinnedCache s "a" = true ∧ (s.tasks[0]?.join).bind evicts = some "b" ∧ EvictsUnpinned s := by
  have legal : Legal (step 100) (fun s l => Allowed s l ∧ Orderly s l) (initial twoFiles) guardedEviction := by
    decide +kernel
  exact ⟨by decide +kernel,by decide +kernel,evictions_spare_pinned (reachable_run .start guardedEviction legal)⟩

def unguardedEviction : List Label :=
  [.read "a" 8 1,.evict .waitingTasks 4,.effect 0 true,.resume 0,.effect 0 true,.resume 0,.effect 0 true,.resume 0]

def lateReader : List Label :=
  [.evict .service 4,.effect 0 true,.resume 0,.read "a" 8 1,.effect 0 true,.resume 0,.effect 0 true,.resume 0]

/-- Without the look at the pins, or with a reader after it, an eviction removes the file under its reader. -/
theorem pinned_files_evicted :
    let s := unguardedEviction.foldl (step 100) (initial twoFiles)
    let late := lateReader.foldl (step 100) (initial twoFiles)
    (Reachable (step 100) Allowed (initial twoFiles) s ∧ isPinnedCache s "a" = true ∧
      (s.tasks[0]?.join).bind evicts = some "a" ∧ (step 100 s (.effect 0 true)).files.get "a" = none) ∧
    Reachable (step 100) Allowed (initial twoFiles) late ∧ isPinnedCache late "a" = true ∧
      (late.tasks[0]?.join).bind evicts = some "a" ∧ (step 100 late (.effect 0 true)).files.get "a" = none := by
  have legal : Legal (step 100) Allowed (initial twoFiles) unguardedEviction := by decide +kernel
  have legalLate : Legal (step 100) Allowed (initial twoFiles) lateReader := by decide +kernel
  exact ⟨⟨reachable_run .start unguardedEviction legal,by decide +kernel,by decide +kernel,by decide +kernel⟩,
    reachable_run .start lateReader legalLate,by decide +kernel,by decide +kernel,by decide +kernel⟩

end Tgtc.CachePins
