import Tgtc.UploadQueue

/-!
The books of the upload queue: each count and sum is that of the list, and each file is waiting or being
uploaded once. A reset that finds workers running forgets them, and a file that comes twice in one batch
is uploaded twice.
-/
namespace Tgtc.QueueBooks
open Maps Runs UploadQueue
open UploadEntries (QueueStatus)
open List (map_append map_cons map_nil mem_append mem_cons mem_map mem_singleton nodup_cons nodup_nil sum)
open Function (update update_of_ne update_self)
universe u

variable {File : Type u}

def tally (s : State File) (amount : QueueEntry File → Nat) : Nat := (s.entries.map fun uid => amount (s.object uid)).sum

def one (status : QueueStatus) (entry : QueueEntry File) : Nat := if entry.status = status then 1 else 0

def Unshared (s : State File) : Prop :=
  ∀ uid ∈ s.entries,∀ uid' ∈ s.entries,∀ file,(s.object uid).file = some file → (s.object uid').file = some file →
    isTerminal (s.object uid).status = false → isTerminal (s.object uid').status = false → uid = uid'

structure Books (s : State File) : Prop where
  count : ∀ status,s.count status = s.entries.countP fun uid => (s.object uid).status = status
  totalBytes : s.totalBytes = ((s.entries.map fun uid => (s.object uid).totalBytes).sum : Nat)
  loadedBytes : s.loadedBytes = ((s.entries.map fun uid => (s.object uid).loadedBytes).sum : Nat)
  activeWorkers : s.activeWorkers = s.workers.length
  positive : (∀ status,0 ≤ s.count status) ∧ 0 ≤ s.totalBytes ∧ 0 ≤ s.loadedBytes ∧ 0 ≤ s.activeWorkers
  unshared : Unshared s

/-- What the books rest on, while some workers are between two entries, and the files come once or not. -/
structure Inv (sole : Prop) (spare : Nat) (s : State File) : Prop where
  count : ∀ status,s.count status = tally s (one status)
  totalBytes : s.totalBytes = tally s QueueEntry.totalBytes
  loadedBytes : s.loadedBytes = tally s QueueEntry.loadedBytes
  activeWorkers : s.activeWorkers = s.workers.length + spare
  unshared : sole → Unshared s
  nodup : s.entries.Nodup
  known : s.entryByUid = s.entries
  created : ∀ uid,uid ∈ s.entries ∨ uid ∈ s.pendingQueue ∨ uid ∈ s.workers.map Worker.uid → uid < s.created
  queued : ∀ uid,(s.object uid).status = .pending → (uid ∈ s.entries ↔ uid ∈ s.pendingQueue)
  busy : ∀ worker ∈ s.workers,if worker.task = .tagging then isTerminal (s.object worker.uid).status = true
    else worker.uid ∈ s.entries ∧ (s.object worker.uid).status = .processing
  apart : (s.workers.map Worker.uid).Nodup

variable {object : Nat → QueueEntry File} {task : Task}

theorem sum_update {uids : List Nat} {uid : Nat} (nodup : uids.Nodup) (member : uid ∈ uids)
    (entry : QueueEntry File) (amount : QueueEntry File → Nat) :
    (uids.map fun u => amount (update object uid entry u)).sum + amount (object uid) =
      (uids.map fun u => amount (object u)).sum + amount entry := by
  induction uids with
  | nil => cases member
  | cons first rest ih =>
    obtain ⟨out,nodup⟩ := nodup_cons.mp nodup
    by_cases here : first = uid
    · subst here
      have same : (rest.map fun u => amount (update object first entry u)) = rest.map fun u => amount (object u) :=
        List.map_congr_left fun u old => by rw [update_of_ne (ne_of_mem_of_not_mem old out)]
      simp [same]
      omega
    · have := ih nodup ((mem_cons.mp member).resolve_left (Ne.symm here))
      simp [update_of_ne here]
      omega

theorem count_tally (s : State File) (status : QueueStatus) :
    (s.entries.countP fun uid => (s.object uid).status = status) = tally s (one status) := by
  unfold tally one
  induction s.entries with
  | nil => rfl
  | cons uid rest ih =>
    simp only [List.countP_cons,decide_eq_true_eq,map_cons,List.sum_cons]
    omega

theorem Inv.books {s : State File} (inv : Inv True 0 s) : Books s := by
  have count : ∀ status,s.count status = s.entries.countP fun uid => (s.object uid).status = status := fun status => by
    rw [inv.count,count_tally]
  have running : s.activeWorkers = s.workers.length := by simpa using inv.activeWorkers
  refine ⟨count,inv.totalBytes,inv.loadedBytes,running,⟨fun status => ?_,?_,?_,?_⟩,inv.unshared trivial⟩
  · rw [count]; omega
  · rw [inv.totalBytes]; omega
  · rw [inv.loadedBytes]; omega
  · omega

variable {sole : Prop} {s : State File} {spare uid w : Nat}

section
variable (inv : Inv sole spare s)
include inv

/-- An entry is altered, and the books with it. Its status changes only while no worker has it. -/
theorem inv_alter {entry : QueueEntry File} (member : uid ∈ s.entries ∨ entry = { s.object uid with file := entry.file })
    {count : QueueStatus → Int} {totalBytes loadedBytes : Int} (pendingProgress : OrderedMap Nat Int)
    (counts : ∀ status,count status = s.count status - one status (s.object uid) + one status entry)
    (total : totalBytes = s.totalBytes - (s.object uid).totalBytes + entry.totalBytes)
    (loaded : loadedBytes = s.loadedBytes - (s.object uid).loadedBytes + entry.loadedBytes)
    (file : ∀ file,entry.file = some file → (s.object uid).file = some file)
    (status : entry.status = (s.object uid).status ∨ entry.status ≠ .pending ∧ uid ∉ s.workers.map Worker.uid ∧
      (isTerminal entry.status = false → isTerminal (s.object uid).status = false)) :
    Inv sole spare { s.alter uid entry with count, totalBytes, loadedBytes, pendingProgress } := by
  have other : ∀ {u},u ≠ uid → (s.alter uid entry).object u = s.object u := fun apart => update_of_ne apart _ _
  have itself : (s.alter uid entry).object uid = entry := update_self ..
  have sums : ∀ amount : QueueEntry File → Nat,(∀ file,amount { s.object uid with file } = amount (s.object uid)) →
      tally (s.alter uid entry) amount + amount (s.object uid) = tally s amount + amount entry := by
    intro amount blind
    by_cases here : uid ∈ s.entries
    · exact sum_update inv.nodup here entry amount
    · have same : tally (s.alter uid entry) amount = tally s amount :=
        congrArg sum (List.map_congr_left fun u old => by rw [other (ne_of_mem_of_not_mem old here)])
      rw [same,(congrArg amount (member.resolve_left here)).trans (blind _)]
  exact {
    count := fun x => by
      have := sums (one x) fun _ => rfl
      have := inv.count x
      change count x = (tally (s.alter uid entry) (one x) : Nat)
      rw [counts]
      omega
    totalBytes := by
      have := sums QueueEntry.totalBytes fun _ => rfl
      have := inv.totalBytes
      change totalBytes = (tally (s.alter uid entry) QueueEntry.totalBytes : Nat)
      omega
    loadedBytes := by
      have := sums QueueEntry.loadedBytes fun _ => rfl
      have := inv.loadedBytes
      change loadedBytes = (tally (s.alter uid entry) QueueEntry.loadedBytes : Nat)
      omega
    activeWorkers := inv.activeWorkers
    unshared := by
      have before : ∀ u file,((s.alter uid entry).object u).file = some file → isTerminal ((s.alter uid entry).object u).status = false →
          (s.object u).file = some file ∧ isTerminal (s.object u).status = false := by
        intro u name has going
        by_cases here : u = uid
        · subst here
          rw [itself] at has going
          exact ⟨file _ has,status.elim (fun same => same ▸ going) fun change => change.2.2 going⟩
        · rw [other here] at has going
          exact ⟨has,going⟩
      intro once u listed u' listed' name has has' going going'
      obtain ⟨has,going⟩ := before u name has going
      obtain ⟨has',going'⟩ := before u' name has' going'
      exact inv.unshared once u listed u' listed' name has has' going going'
    nodup := inv.nodup
    known := inv.known
    created := inv.created
    queued := by
      intro u waits
      by_cases here : u = uid
      · subst here
        have waits : entry.status = .pending := itself ▸ waits
        exact inv.queued u (status.elim (fun same => same ▸ waits) fun change => absurd waits change.1)
      · exact inv.queued u (other here ▸ waits)
    busy := by
      intro worker runs
      have same : ((s.alter uid entry).object worker.uid).status = (s.object worker.uid).status := by
        by_cases here : worker.uid = uid
        · rw [here,itself]
          exact status.resolve_right fun change => change.2.1 (here ▸ List.mem_map_of_mem runs)
        · rw [other here]
      have := inv.busy worker runs
      rw [← same] at this
      exact this
    apart := inv.apart }

theorem inv_setLoaded (member : uid ∈ s.entries) (nextLoaded : Int) : Inv sole spare (setLoaded s uid nextLoaded) :=
  inv_alter inv (.inl member) _ (fun _ => by simp [one,State.alter]) (by simp [State.alter]) (by simp only; omega) (fun _ has => has) (.inl rfl)

theorem inv_flush : Inv sole spare (flushProgress s) := by
  have all : ∀ (snapshots : List (Nat × Int)) {s : State File},Inv sole spare s → Inv sole spare (snapshots.foldl flushOne s) := by
    intro snapshots
    induction snapshots with
    | nil => exact fun inv => inv
    | cons snapshot rest ih =>
      intro s inv
      refine ih ?_
      unfold flushOne
      split_ifs with skipped
      · exact inv
      · exact inv_setLoaded inv (by rw [← inv.known]; tauto) _
  exact { all s.pendingProgress.entries inv with }

theorem inv_changeStatus (member : uid ∈ s.entries) (next : QueueStatus) (leaves : next ≠ .pending)
    (free : uid ∉ s.workers.map Worker.uid) (going : isTerminal next = false → isTerminal (s.object uid).status = false) :
    Inv sole spare (changeStatus s uid next) := by
  unfold changeStatus
  dsimp only
  split
  · exact inv
  · exact inv_alter inv (.inl member) _ (fun _ => by simp [one]) (by simp [State.alter]) (by simp [State.alter]) (fun _ has => has) (.inr ⟨leaves,free,going⟩)

theorem inv_finalizeEntry (uid : Nat) : Inv sole spare (finalizeEntry s uid) := by
  unfold finalizeEntry
  dsimp only
  split
  · exact inv_alter inv (.inr rfl) _ (fun _ => by simp [one,State.alter]) (by simp [State.alter]) (by simp [State.alter]) nofun (.inl rfl)
  · exact inv

end

theorem inv_dismiss (inv : Inv sole spare s) (found : s.workers[w]? = some ⟨uid,task⟩) :
    Inv sole (spare + 1) (s.dismiss w) ∧ uid ∉ (s.dismiss w).workers.map Worker.uid := by
  have order : s.workers.Perm (⟨uid,task⟩ :: s.workers.eraseIdx w) := (perm_replace (y := ⟨uid,task⟩) found).1
  have apart := ((order.map Worker.uid).nodup_iff.mp inv.apart)
  obtain ⟨free,apart⟩ := nodup_cons.mp apart
  have old : ∀ worker ∈ s.workers.eraseIdx w,worker ∈ s.workers := fun worker runs => order.symm.subset (.tail _ runs)
  refine ⟨{ inv with activeWorkers := ?_, created := fun u => ?_, busy := fun worker runs => inv.busy worker (old worker runs), apart },free⟩
  · have := inv.activeWorkers
    have := order.length_eq
    simp only [State.dismiss,List.length_cons] at this ⊢
    omega
  · rintro (listed | waits | runs)
    · exact inv.created u (.inl listed)
    · exact inv.created u (.inr (.inl waits))
    · obtain ⟨worker,member,rfl⟩ := mem_map.mp runs
      exact inv.created _ (.inr (.inr (List.mem_map_of_mem (old worker member))))

theorem inv_employ (inv : Inv sole (spare + 1) s) (task : Task) (free : uid ∉ s.workers.map Worker.uid) (made : uid < s.created)
    (busy : if task = .tagging then isTerminal (s.object uid).status = true
      else uid ∈ s.entries ∧ (s.object uid).status = .processing) : Inv sole spare (s.employ uid task) :=
  { inv with
    activeWorkers := by
      have := inv.activeWorkers
      simp only [State.employ,List.length_append,List.length_singleton]
      omega
    created := by
      simp only [State.employ,map_append,map_cons,map_nil,mem_append,mem_singleton]
      rintro u (listed | waits | runs | rfl)
      · exact inv.created u (.inl listed)
      · exact inv.created u (.inr (.inl waits))
      · exact inv.created u (.inr (.inr runs))
      · exact made
    busy := by
      intro worker runs
      rcases mem_append.mp runs with old | new
      · exact inv.busy worker old
      · cases mem_singleton.mp new
        exact busy
    apart := by
      simp only [State.employ,map_append]
      exact inv.apart.append (List.nodup_singleton _) (List.disjoint_singleton.mpr free) }

theorem inv_requeue (inv : Inv sole spare s) (rest : List Nat) (fewer : ∀ u ∈ rest,u ∈ s.pendingQueue)
    (keeps : ∀ u ∈ s.pendingQueue,(s.object u).status = .pending → u ∈ rest) : Inv sole spare { s with pendingQueue := rest } :=
  { inv with
    created := fun u => fun
      | .inl listed => inv.created u (.inl listed)
      | .inr (.inl waits) => inv.created u (.inr (.inl (fewer u waits)))
      | .inr (.inr runs) => inv.created u (.inr (.inr runs))
    queued := fun u waits => (inv.queued u waits).trans ⟨fun old => keeps u old waits,fewer u⟩ }

theorem takePending_some {queue rest : List Nat} (taken : takePending object queue = (some uid,rest)) :
    (object uid).status = .pending ∧ ∃ skipped,queue = skipped ++ uid :: rest ∧ ∀ u ∈ skipped,(object u).status ≠ .pending := by
  induction queue with
  | nil => cases taken
  | cons u queue ih =>
    simp only [takePending] at taken
    split_ifs at taken with waits
    · cases taken
      exact ⟨waits,[],rfl,nofun⟩
    · obtain ⟨pending,skipped,rfl,others⟩ := ih taken
      exact ⟨pending,u :: skipped,rfl,List.forall_mem_cons.mpr ⟨waits,others⟩⟩

theorem takePending_none {queue rest : List Nat} (taken : takePending object queue = (none,rest)) :
    rest = [] ∧ ∀ u ∈ queue,(object u).status ≠ .pending := by
  induction queue with
  | nil => cases taken; exact ⟨rfl,nofun⟩
  | cons u queue ih =>
    simp only [takePending] at taken
    split_ifs at taken with waits
    · cases taken
    · obtain ⟨nil,others⟩ := ih taken
      exact ⟨nil,List.forall_mem_cons.mpr ⟨waits,others⟩⟩

/-- An entry that waits has no worker. -/
theorem waits_free (inv : Inv sole spare s) (waits : (s.object uid).status = .pending) : uid ∉ s.workers.map Worker.uid := by
  intro runs
  obtain ⟨worker,member,rfl⟩ := mem_map.mp runs
  have busy := inv.busy worker member
  rw [waits] at busy
  split at busy
  · cases busy
  · cases busy.2

theorem object_changeStatus (next : QueueStatus) : ((changeStatus s uid next).object uid).status = next := by
  unfold changeStatus
  dsimp only
  split
  · assumption
  · simp [State.alter]

theorem inv_loop {ensurePump : State File → State File} (pumps : ∀ s,Inv sole 0 s → Inv sole 0 (ensurePump s)) (inv : Inv sole 1 s) :
    Inv sole 0 (loop ensurePump s) := by
  unfold loop
  split
  · next uid rest taken =>
    obtain ⟨waits,skipped,queue,others⟩ := takePending_some taken
    have listed : uid ∈ s.entries := (inv.queued uid waits).mpr (by simp [queue])
    have free := waits_free inv waits
    have changed := inv_changeStatus inv listed .processing nofun free fun _ => by rw [waits]; rfl
    have employed := inv_employ changed .uploading (by simpa [changeStatus,waits,State.alter] using free)
      (by simpa [changeStatus,waits,State.alter] using inv.created uid (.inl listed))
      ⟨by simpa [changeStatus,waits,State.alter] using listed,object_changeStatus _⟩
    have same : process { s with pendingQueue := rest } uid = { { (changeStatus s uid .processing).employ uid .uploading with
        pendingQueue := rest } with starts := s.starts ++ [⟨uid,s.workers.length + 1,s.fileConcurrency⟩] } := by
      simp [process,changeStatus,State.employ,State.alter,waits]
    rw [same]
    refine { inv_requeue employed rest (fun u old => ?_) (fun u old pending => ?_) with }
    · simp [State.employ,changeStatus,waits,State.alter,queue,old]
    · simp only [State.employ,changeStatus,waits,State.alter,reduceCtorEq,if_false,queue] at old pending
      have apart : u ≠ uid := fun same => by simp [same] at pending
      simp only [update_of_ne apart] at pending
      rcases mem_append.mp old with early | late
      · exact absurd pending (others u early)
      · exact (mem_cons.mp late).resolve_left apart
  · next rest taken =>
    obtain ⟨rfl,others⟩ := takePending_none taken
    have left : Inv sole 0 { s with pendingQueue := [], activeWorkers := s.activeWorkers - 1 } :=
      { inv_requeue inv [] nofun fun u old waits => absurd waits (others u old) with
        activeWorkers := by have := inv.activeWorkers; simp only; omega }
    unfold leave
    dsimp only
    split_ifs
    · exact pumps _ left
    · exact inv_flush left
    · exact left

theorem inv_pump (fuel : Nat) : ∀ {s : State File},Inv sole 0 s → Inv sole 0 (pump fuel s) := by
  induction fuel with
  | zero => exact fun inv => inv
  | succ fuel ih =>
    intro s inv
    unfold pump
    split_ifs
    · exact inv
    · have start : ∀ s : State File,Inv sole 0 s → Inv sole 0 (startWorker (pump fuel) s) := fun s inv =>
        inv_loop (fun _ => ih) { inv with activeWorkers := by have := inv.activeWorkers; simp only; omega }
      exact Function.Iterate.rec (Inv sole 0) inv start _

theorem inv_ensurePump (inv : Inv sole 0 s) : Inv sole 0 (ensurePump s) := inv_pump _ inv

theorem inv_finish (inv : Inv sole 1 s) (uid : Nat) : Inv sole 0 (finish s uid) :=
  inv_loop (fun _ => inv_ensurePump) (inv_finalizeEntry inv uid)

@[simp] theorem changeStatus_workers (next : QueueStatus) : (changeStatus s uid next).workers = s.workers := by
  unfold changeStatus
  dsimp only
  split <;> rfl

@[simp] theorem changeStatus_created (next : QueueStatus) : (changeStatus s uid next).created = s.created := by
  unfold changeStatus
  dsimp only
  split <;> rfl

theorem flush_workers : (flushProgress s).workers = s.workers := by
  have all : ∀ (snapshots : List (Nat × Int)) (s : State File),(snapshots.foldl flushOne s).workers = s.workers := by
    intro snapshots
    induction snapshots with
    | nil => exact fun _ => rfl
    | cons snapshot rest ih =>
      intro s
      rw [List.foldl_cons,ih,flushOne]
      split <;> rfl
  exact all ..

section
variable (inv : Inv sole 0 s) (found : s.workers[w]? = some ⟨uid,task⟩) (works : task ≠ .tagging)
include inv found works

/-- What a worker that is not tagging leaves behind. -/
theorem dismissed :
    Inv sole 1 (s.dismiss w) ∧ uid ∉ (s.dismiss w).workers.map Worker.uid ∧ uid ∈ s.entries ∧ (s.object uid).status = .processing ∧
      uid < s.created := by
  have busy := inv.busy _ (List.mem_of_getElem? found)
  simp only [works] at busy
  exact ⟨(inv_dismiss inv found).1,(inv_dismiss inv found).2,busy.1,busy.2,inv.created uid (.inl busy.1)⟩

theorem inv_end {next : QueueStatus}
    (ends : isTerminal next = true) : Inv sole 0 (finish (changeStatus (s.dismiss w) uid next) uid) := by
  obtain ⟨inv,free,listed,processing,_⟩ := dismissed inv found works
  refine inv_finish (inv_changeStatus inv listed next ?_ free fun going => ?_) uid
  · rintro rfl; cases ends
  · rw [ends] at going; cases going

end

theorem inv_succeed (inv : Inv sole 0 s) (found : s.workers[w]? = some ⟨uid,.uploading⟩) : Inv sole 0 (succeed s w uid) := by
  rw [← flush_workers] at found
  obtain ⟨inv,free,listed,_,made⟩ := dismissed (inv_flush inv) found nofun
  refine inv_employ (inv_changeStatus (inv_setLoaded inv listed _) listed .success nofun free nofun) .tagging ?_ ?_ ?_
  · simpa [setLoaded,State.alter] using free
  · simpa [setLoaded,State.alter,State.dismiss] using made
  · simp [object_changeStatus,isTerminal]

theorem inv_fail (inv : Inv sole 0 s) (found : s.workers[w]? = some ⟨uid,.uploading⟩) (again : Bool) : Inv sole 0 (fail s w uid again) := by
  unfold fail
  dsimp only
  split_ifs
  · exact inv_end inv found nofun rfl
  · obtain ⟨inv,free,listed,processing,made⟩ := dismissed inv found nofun
    have forgotten : Inv sole 1 { s.dismiss w with pendingProgress := s.pendingProgress.delete uid } := { inv with }
    refine inv_employ (inv_setLoaded forgotten listed 0) .backingOff free made ⟨listed,?_⟩
    simpa [setLoaded,State.alter,State.dismiss] using processing
  · exact inv_end inv found nofun rfl

theorem inv_wake (inv : Inv sole 0 s) (found : s.workers[w]? = some ⟨uid,.backingOff⟩) :
    Inv sole 0 ((s.dismiss w).employ uid .uploading) := by
  obtain ⟨inv,free,listed,processing,made⟩ := dismissed inv found nofun
  exact inv_employ inv .uploading free made ⟨listed,processing⟩

theorem inv_cancelOne (inv : Inv sole spare s) (uid : Nat) : Inv sole spare (cancelOne s uid) := by
  unfold cancelOne
  split_ifs with skipped waits
  · exact inv
  · have listed : uid ∈ s.entries := by rw [← inv.known]; tauto
    exact inv_finalizeEntry (inv_changeStatus inv listed .cancelled nofun (waits_free inv waits) nofun) uid
  · exact { inv with }

theorem inv_cancelAll (inv : Inv sole spare s) : Inv sole spare (cancelAll s) := by
  unfold cancelAll
  generalize s.entries = uids
  induction uids generalizing s with
  | nil => exact inv
  | cons uid rest ih => exact ih (inv_cancelOne inv uid)

theorem cancelOne_workers (uid : Nat) : (cancelOne s uid).workers = s.workers := by
  unfold cancelOne finalizeEntry
  dsimp only
  split_ifs <;> simp [State.alter]

theorem cancelAll_workers : (cancelAll s).workers = s.workers := by
  unfold cancelAll
  generalize s.entries = uids
  induction uids generalizing s with
  | nil => rfl
  | cons uid rest ih => rw [List.foldl_cons,ih,cancelOne_workers]

theorem inv_reset (nobody : s.workers = []) : Inv sole 0 (reset s) := by
  have nobody : (reset s).workers = [] := cancelAll_workers.trans nobody
  exact {
    count := fun _ => rfl
    totalBytes := rfl
    loadedBytes := rfl
    activeWorkers := by rw [nobody]; rfl
    unshared := nofun
    nodup := nodup_nil
    known := rfl
    created := fun uid old => by
      rw [nobody] at old
      rcases old with listed | waits | runs
      · cases listed
      · cases waits
      · cases runs
    queued := fun _ _ => ⟨nofun,nofun⟩
    busy := by rw [nobody]; exact nofun
    apart := by rw [nobody]; exact nodup_nil }

theorem sum_split (uids : List Nat) (done : Nat → Bool) (amount : Nat → Nat) :
    ((uids.filter done).map amount).sum + ((uids.filter fun uid => !done uid).map amount).sum = (uids.map amount).sum := by
  induction uids with
  | nil => rfl
  | cons uid rest ih =>
    cases here : done uid
    all_goals
      simp [here]
      omega

theorem inv_clearFinished (inv : Inv sole spare s) : Inv sole spare (clearFinished s) := by
  have split : ∀ amount : QueueEntry File → Nat,tally s amount = tally (clearFinished s) amount +
      ((s.entries.filter fun uid => isTerminal (s.object uid).status).map fun uid => amount (s.object uid)).sum := fun amount => by
    have := sum_split s.entries (fun uid => isTerminal (s.object uid).status) fun uid => amount (s.object uid)
    simp only [tally,clearFinished] at this ⊢
    omega
  have retained : ∀ {uid},uid ∈ (clearFinished s).entries ↔ uid ∈ s.entries ∧ isTerminal (s.object uid).status = false := by
    simp [clearFinished]
  exact { inv with
    count := fun status => by
      have := split (one status)
      have := inv.count status
      change s.count status - (((s.entries.filter fun uid => isTerminal (s.object uid).status).map fun uid =>
        one status (s.object uid)).sum : Nat) = (tally (clearFinished s) (one status) : Nat)
      omega
    totalBytes := by
      have := split QueueEntry.totalBytes
      have := inv.totalBytes
      change s.totalBytes - _ = (tally (clearFinished s) QueueEntry.totalBytes : Nat)
      omega
    loadedBytes := by
      have := split QueueEntry.loadedBytes
      have := inv.loadedBytes
      change s.loadedBytes - _ = (tally (clearFinished s) QueueEntry.loadedBytes : Nat)
      omega
    unshared := fun once uid listed uid' listed' => inv.unshared once uid (retained.mp listed).1 uid' (retained.mp listed').1
    nodup := inv.nodup.filter _
    known := by
      simp only [clearFinished,inv.known]
      refine List.filter_congr fun uid listed => ?_
      simp [listed]
    created := fun uid old => inv.created uid (old.imp_left fun listed => (retained.mp listed).1)
    queued := fun uid waits => by
      have waits : (s.object uid).status = .pending := waits
      rw [retained,inv.queued uid waits,waits]
      exact ⟨And.left,fun old => ⟨old,rfl⟩⟩
    busy := fun worker runs => by
      have busy := inv.busy worker runs
      split at busy
      · rwa [if_pos ‹_›]
      · rw [if_neg ‹_›,retained]
        exact ⟨⟨busy.1,by rw [busy.2]; rfl⟩,busy.2⟩ }

theorem inv_repump (inv : Inv sole 0 s) : Inv sole 0 (repump s) := by
  unfold repump
  split
  · exact inv_ensurePump inv
  · exact inv

section
variable [DecidableEq File] {files : Files File} {file : File}

theorem inactive_iff : hasActiveFile s file = false ↔
    ∀ uid ∈ s.entries,(s.object uid).file = some file → isTerminal (s.object uid).status = true := by
  simp [hasActiveFile]

/-- An entry is made, of a file that has none which is not finished. -/
theorem inv_appendEntry (inv : Inv sole spare s) (inactive : sole → hasActiveFile s file = false) : Inv sole spare (appendEntry files s file) := by
  have older : ∀ {uid},uid ∈ s.entries ∨ uid ∈ s.pendingQueue ∨ uid ∈ s.workers.map Worker.uid →
      (appendEntry files s file).object uid = s.object uid := fun old => update_of_ne (inv.created _ old).ne _ _
  have itself : (appendEntry files s file).object s.created = ⟨some file,.pending,files.size file,0⟩ := update_self ..
  have sums : ∀ amount : QueueEntry File → Nat,tally (appendEntry files s file) amount =
      tally s amount + amount ⟨some file,.pending,files.size file,0⟩ := by
    intro amount
    have same : s.entries.map (fun uid => amount ((appendEntry files s file).object uid)) =
        s.entries.map fun uid => amount (s.object uid) := List.map_congr_left fun uid old => by rw [older (.inl old)]
    have listed : (appendEntry files s file).entries = s.entries ++ [s.created] := rfl
    rw [tally,listed,map_append,same]
    simp [tally,itself]
  exact {
    count := fun status => by
      have := inv.count status
      rw [sums]
      simp only [appendEntry,one]
      split <;> omega
    totalBytes := by
      have := inv.totalBytes
      rw [sums]
      simp only [appendEntry]
      omega
    loadedBytes := by
      have := inv.loadedBytes
      rw [sums]
      exact this
    activeWorkers := inv.activeWorkers
    unshared := by
      intro once uid listed uid' listed' name has has' going going'
      rcases mem_append.mp listed with old | new
      all_goals rcases mem_append.mp listed' with old' | new'
      · rw [older (.inl old)] at has going
        rw [older (.inl old')] at has' going'
        exact inv.unshared once uid old uid' old' name has has' going going'
      · cases mem_singleton.mp new'
        rw [itself] at has'
        cases has'
        rw [older (.inl old)] at has going
        rw [inactive_iff.mp (inactive once) uid old has] at going
        cases going
      · cases mem_singleton.mp new
        rw [itself] at has
        cases has
        rw [older (.inl old')] at has' going'
        rw [inactive_iff.mp (inactive once) uid' old' has'] at going'
        cases going'
      · rw [mem_singleton.mp new,mem_singleton.mp new']
    nodup := inv.nodup.append (List.nodup_singleton _) (List.disjoint_singleton.mpr fun old => (inv.created _ (.inl old)).false)
    known := by simp only [appendEntry,inv.known]
    created := by
      have before : ∀ uid,uid ∈ s.entries ∨ uid ∈ s.pendingQueue ∨ uid ∈ s.workers.map Worker.uid → uid < s.created + 1 :=
        fun uid old => (inv.created uid old).trans (Nat.lt_succ_self _)
      simp only [appendEntry,mem_append,mem_singleton]
      rintro uid ((old | rfl) | (old | rfl) | old)
      · exact before uid (.inl old)
      · exact Nat.lt_succ_self _
      · exact before uid (.inr (.inl old))
      · exact Nat.lt_succ_self _
      · exact before uid (.inr (.inr old))
    queued := by
      intro uid waits
      by_cases new : uid = s.created
      · simp [appendEntry,new]
      · have same : (appendEntry files s file).object uid = s.object uid := update_of_ne new _ _
        rw [same] at waits
        simp [appendEntry,inv.queued uid waits]
    busy := fun worker runs => by
      have busy := inv.busy worker runs
      rw [older (.inr (.inr (List.mem_map_of_mem runs)))]
      split at busy
      · rwa [if_pos ‹_›]
      · rw [if_neg ‹_›]
        exact ⟨List.mem_append_left _ busy.1,busy.2⟩
    apart := inv.apart }

theorem inactive_appendEntry (inv : Inv sole spare s) {other : File} (apart : other ≠ file) (inactive : hasActiveFile s other = false) :
    hasActiveFile (appendEntry files s file) other = false := by
  refine inactive_iff.mpr fun uid listed has => ?_
  rcases mem_append.mp listed with old | new
  · have same : (appendEntry files s file).object uid = s.object uid := update_of_ne (inv.created _ (.inl old)).ne _ _
    rw [same] at has ⊢
    exact inactive_iff.mp inactive uid old has
  · cases mem_singleton.mp new
    have itself : (appendEntry files s file).object s.created = ⟨some file,.pending,files.size file,0⟩ := update_self ..
    rw [itself] at has
    cases has
    exact absurd rfl apart

theorem inv_appendEntries_fold {new : List File} : ∀ {s : State File},(sole → new.Nodup) →
    (sole → ∀ file ∈ new,hasActiveFile s file = false) → Inv sole 0 s → Inv sole 0 (new.foldl (appendEntry files) s) := by
  induction new with
  | nil => exact fun _ _ inv => inv
  | cons file rest ih =>
    intro s apart inactive inv
    refine ih (fun once => (nodup_cons.mp (apart once)).2) (fun once other later => ?_)
      (inv_appendEntry inv fun once => inactive once file (.head _))
    have out := (nodup_cons.mp (apart once)).1
    exact inactive_appendEntry inv (ne_of_mem_of_not_mem later out) (inactive once other (.tail _ later))

theorem inv_appendEntries {new : List File} (inv : Inv sole 0 s) (apart : sole → new.Nodup)
    (inactive : sole → ∀ file ∈ new,hasActiveFile s file = false) : Inv sole 0 (appendEntries files s new) := by
  unfold appendEntries
  split
  · exact inv
  · exact inv_ensurePump (inv_appendEntries_fold apart inactive inv)

/-- A file comes under one key in a batch, unless it is waiting or being uploaded already. -/
def OneKey (files : Files File) (s : State File) (items : List (FolderItem File)) : Prop :=
  ∀ item ∈ items,∀ item' ∈ items,item.file = item'.file → hasActiveFile s item.file = false → batchKey files item = batchKey files item'

theorem newInBatch_mem {items : List (FolderItem File)} : ∀ {seen : List String} {file : File},file ∈ newInBatch files s seen items →
    hasActiveFile s file = false ∧ ∃ item ∈ items,item.file = file ∧ batchKey files item ∉ seen := by
  induction items with
  | nil => exact nofun
  | cons item rest ih =>
    intro seen file chosen
    unfold newInBatch at chosen
    split_ifs at chosen with skipped
    · obtain ⟨inactive,item,later,same,unseen⟩ := ih chosen
      exact ⟨inactive,item,.tail _ later,same,unseen⟩
    · simp only [not_or,Bool.not_eq_true] at skipped
      rcases mem_cons.mp chosen with rfl | chosen
      · exact ⟨skipped.1,item,.head _,rfl,skipped.2⟩
      · obtain ⟨inactive,item,later,same,unseen⟩ := ih chosen
        exact ⟨inactive,item,.tail _ later,same,fun old => unseen (.tail _ old)⟩

theorem newInBatch_nodup {items : List (FolderItem File)} : ∀ (seen : List String),OneKey files s items →
    (newInBatch files s seen items).Nodup := by
  induction items with
  | nil => exact fun _ _ => nodup_nil
  | cons item rest ih =>
    intro seen one
    have later : OneKey files s rest := fun item old item' old' => one item (.tail _ old) item' (.tail _ old')
    unfold newInBatch
    split
    · exact ih seen later
    · refine nodup_cons.mpr ⟨fun again => ?_,ih _ later⟩
      obtain ⟨inactive,item',old,same,unseen⟩ := newInBatch_mem again
      have key := one item' (.tail _ old) item (.head _) same (same ▸ inactive)
      exact unseen (key ▸ .head _)

/-- A reset finds no worker running, and no file comes twice in one batch. -/
def Fits (files : Files File) (s : State File) : Label File → Prop
  | .reset => s.workers = []
  | .enqueue new => (new.filter fun file => !hasActiveFile s file).Nodup
  | .enqueueFolderFiles items => OneKey files s items
  | _ => True

theorem inv_step {label : Label File} (inv : Inv sole 0 s) (fits : sole → Fits files s label)
    (nobody : label = .reset → s.workers = []) : Inv sole 0 (step files s label) := by
  cases label with
  | enqueue new => exact inv_appendEntries inv fits fun _ file chosen => by simpa using (List.mem_filter.mp chosen).2
  | enqueueFolderFiles items =>
    exact inv_appendEntries inv (fun once => newInBatch_nodup [] (fits once)) fun _ file chosen => (newInBatch_mem chosen).1
  | cancelOne uid => exact inv_cancelOne inv uid
  | cancelAll => exact inv_cancelAll inv
  | clearFinished => exact inv_clearFinished inv
  | reset => exact inv_reset (nobody rfl)
  | setFileConcurrency n | setStrictSerialUpload enabled => exact inv_repump { inv with }
  | progress w loadedBytes =>
    simp only [step]
    split
    · exact { inv with }
    · exact inv
  | flush => exact inv_flush inv
  | succeed w =>
    simp only [step]
    split
    · next found => exact inv_succeed inv found
    · exact inv
  | tagged w =>
    simp only [step]
    split
    · next found => exact inv_finish (inv_dismiss inv found).1 _
    · exact inv
  | fail w again =>
    simp only [step]
    split
    · next found => exact inv_fail inv found again
    · exact inv
  | wake w =>
    simp only [step]
    split
    · next found => exact inv_wake inv found
    · exact inv
  | cancelWait w =>
    simp only [step]
    split
    · next found =>
      split
      · exact inv_end inv found nofun rfl
      · exact inv
    · exact inv

omit [DecidableEq File] in
theorem inv_init : Inv sole 0 (init : State File) where
  count := fun _ => rfl
  totalBytes := rfl
  loadedBytes := rfl
  activeWorkers := rfl
  unshared := nofun
  nodup := nodup_nil
  known := rfl
  created := by simp [init]
  queued := fun _ _ => ⟨nofun,nofun⟩
  busy := nofun
  apart := nodup_nil

/-- Where a reset finds no worker running, and no file comes twice in one batch, the books are right in every state. -/
theorem books_kept (files : Files File) {labels : List (Label File)} (fit : Legal (step files) (Fits files) init labels) :
    Throughout (step files) Books (fun _ _ => True) init labels :=
  throughout_of_fits (fun _ inv => inv.books) (fun _ _ inv _ fits => ⟨inv_step inv (fun _ => fits) fun same => by rw [same] at fits; exact fits,trivial⟩) inv_init fit fit

end

def numbered : Files Nat := ⟨fun n => n.repr,id⟩

theorem books_kept_cleared :
    Throughout (step numbered) Books (fun _ _ => True) init
      [.enqueue [3,4,5],.progress 0 2,.cancelOne 2,.succeed 0,.tagged 1,.fail 0 false,.clearFinished,.reset] :=
  books_kept numbered ⟨by unfold Fits; decide,trivial,trivial,trivial,trivial,trivial,trivial,by unfold Fits; decide,trivial⟩

theorem books_lost :
    ¬Throughout (step numbered) Books (fun _ _ => True) init [.enqueue [3],.reset] ∧
      ¬Throughout (step numbered) Books (fun _ _ => True) init [.enqueue [3,3]] := by
  constructor
  · rintro ⟨_,_,_,_,books⟩
    exact absurd books.activeWorkers (by decide)
  · rintro ⟨_,_,books⟩
    exact absurd (books.unshared 0 (by decide) 1 (by decide) 3 rfl rfl rfl rfl) (by decide)

end Tgtc.QueueBooks
