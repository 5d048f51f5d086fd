import Tgtc.QueueBooks

/-!
How many entries of the upload queue are processed at a time. Workers are started for the entries that
wait, less those that run, and a worker that is done with an entry goes on to the next whatever the limit
is by then.
-/
namespace Tgtc.QueueWorkers
open Runs UploadQueue QueueBooks Maps
open UploadEntries (QueueStatus)
universe u

variable {File : Type u}

/-- An entry that is taken up is among those that may be processed. -/
def Within (s : State File) : Prop := ∀ start ∈ s.starts,(start.processing : Int) ≤ start.fileConcurrency

/-- Nothing waits while fewer entries are processed than may be. -/
def Busy (s : State File) : Prop :=
  (∃ uid ∈ s.entries,(s.object uid).status = .pending) → s.fileConcurrency ≤ s.workers.length

/-- What is processed that was not processed before is one entry at most. -/
def OneNew (s s' : State File) : Prop :=
  ∀ uid ∈ s'.workers.map Worker.uid,∀ uid' ∈ s'.workers.map Worker.uid,
    uid ∉ s.workers.map Worker.uid → uid' ∉ s.workers.map Worker.uid → uid = uid'

/-- Workers are started for all of the entries that wait, or up to the limit. -/
def Roomy (s : State File) (fileConcurrency waiting : Int) : Prop :=
  waiting = 0 ∨ s.workers = [] ∨ fileConcurrency ≤ s.workers.length ∨ fileConcurrency ≤ waiting

def limits (s : State File) : Int × Int × Bool := (s.fileConcurrency,s.preferredFileConcurrency,s.strictSerialUpload)

structure Quiet (s s' : State File) : Prop where
  starts : s'.starts = s.starts
  limits : limits s' = limits s
  pending : s'.count .pending ≤ s.count .pending

theorem Quiet.trans {s s' s'' : State File} (first : Quiet s s') (second : Quiet s' s'') : Quiet s s'' :=
  ⟨second.starts.trans first.starts,second.limits.trans first.limits,second.pending.trans first.pending⟩

variable {sole : Prop} {s : State File} {uid w : Nat}

theorem quiet_changeStatus (uid : Nat) (next : QueueStatus) (leaves : next ≠ .pending) : Quiet s (changeStatus s uid next) := by
  unfold changeStatus
  dsimp only
  split
  · exact ⟨rfl,rfl,le_rfl⟩
  · refine ⟨rfl,rfl,?_⟩
    dsimp only
    split <;> omega

theorem quiet_finalizeEntry (uid : Nat) : Quiet s (finalizeEntry s uid) ∧ (finalizeEntry s uid).workers = s.workers := by
  unfold finalizeEntry
  dsimp only
  split <;> exact ⟨⟨rfl,rfl,le_rfl⟩,rfl⟩

theorem quiet_flush : Quiet s (flushProgress s) := by
  have all : ∀ (snapshots : List (Nat × Int)) (s : State File),Quiet s (snapshots.foldl flushOne s) := by
    intro snapshots
    induction snapshots with
    | nil => exact fun _ => ⟨rfl,rfl,le_rfl⟩
    | cons snapshot rest ih =>
      intro s
      refine Quiet.trans ?_ (ih _)
      unfold flushOne
      split <;> exact ⟨rfl,rfl,le_rfl⟩
  obtain ⟨starts,limits,pending⟩ := all s.pendingProgress.entries s
  exact ⟨starts,limits,pending⟩

theorem quiet_cancelOne : Quiet s (cancelOne s uid) := by
  unfold cancelOne
  split_ifs
  · exact ⟨rfl,rfl,le_rfl⟩
  · exact (quiet_changeStatus uid .cancelled nofun).trans (quiet_finalizeEntry uid).1
  · exact ⟨rfl,rfl,le_rfl⟩

theorem quiet_cancelAll : Quiet s (cancelAll s) := by
  unfold cancelAll
  generalize s.entries = uids
  induction uids generalizing s with
  | nil => exact ⟨rfl,rfl,le_rfl⟩
  | cons uid rest ih => exact quiet_cancelOne.trans ih

theorem pending_iff (inv : Inv sole 0 s) : 0 < s.count .pending ↔ ∃ uid ∈ s.entries,(s.object uid).status = .pending := by
  rw [inv.count,← count_tally]
  simp [List.countP_pos_iff]

/-- A worker that looks for an entry takes one if any waits. -/
theorem loop_spec (ensurePump : State File → State File) (inv : Inv sole 1 s) :
    (s.count .pending = 0 ∧ Quiet s (loop ensurePump s) ∧ (loop ensurePump s).workers = s.workers) ∨
      0 < s.count .pending ∧ (loop ensurePump s).count .pending = s.count .pending - 1 ∧
        limits (loop ensurePump s) = limits s ∧ ∃ uid,(loop ensurePump s).workers = s.workers ++ [⟨uid,.uploading⟩] ∧
          (loop ensurePump s).starts = s.starts ++ [⟨uid,s.workers.length + 1,s.fileConcurrency⟩] := by
  have counted := inv.count .pending
  rw [← count_tally] at counted
  unfold loop
  split
  · next uid rest taken =>
    obtain ⟨waits,skipped,queue,_⟩ := takePending_some taken
    have listed : uid ∈ s.entries := (inv.queued uid waits).mpr (by simp [queue])
    have some : 0 < s.entries.countP fun uid => (s.object uid).status = .pending :=
      List.countP_pos_iff.mpr ⟨uid,listed,by simp [waits]⟩
    refine .inr ⟨by omega,?_,?_,uid,?_,?_⟩
    · simp [process,changeStatus,waits]
    · simp [process,changeStatus,waits,State.alter,limits]
    · simp [process]
    · simp [process,changeStatus,waits,State.alter]
  · next rest taken =>
    obtain ⟨_,others⟩ := takePending_none taken
    have none : s.entries.countP (fun uid => (s.object uid).status = .pending) = 0 :=
      List.countP_eq_zero.mpr fun uid listed waits => by
        have waits := of_decide_eq_true waits
        exact others uid ((inv.queued uid waits).mp listed) waits
    have empty : s.count .pending = 0 := by omega
    refine .inl ⟨empty,?_⟩
    unfold leave
    simp only [empty,lt_irrefl,if_false]
    split
    · have left : Quiet s { s with pendingQueue := rest, activeWorkers := s.activeWorkers - 1 } := ⟨rfl,rfl,le_rfl⟩
      exact ⟨left.trans quiet_flush,flush_workers⟩
    · exact ⟨⟨rfl,rfl,le_rfl⟩,rfl⟩

/-- Where nothing waits while there is room, and what is taken up has been within the limit. -/
structure Full (s : State File) : Prop where
  inv : Inv False 0 s
  within : Within s
  busy : 0 < s.count .pending → s.fileConcurrency ≤ s.workers.length
  strict : s.strictSerialUpload = true → s.fileConcurrency = 1

def Bounded (s s' : State File) : Prop :=
  (∀ uid ∈ s'.workers.map Worker.uid,uid ∈ s.workers.map Worker.uid) ∨ s'.workers.length ≤ s'.fileConcurrency

theorem start_spec (ensurePump : State File → State File) (inv : Inv sole 0 s) (waits : 0 < s.count .pending) :
    (startWorker ensurePump s).count .pending = s.count .pending - 1 ∧ limits (startWorker ensurePump s) = limits s ∧
      (startWorker ensurePump s).workers.length = s.workers.length + 1 ∧
      ∃ uid,(startWorker ensurePump s).starts = s.starts ++ [⟨uid,s.workers.length + 1,s.fileConcurrency⟩] := by
  have spare : Inv sole 1 { s with activeWorkers := s.activeWorkers + 1 } :=
    { inv with activeWorkers := by have := inv.activeWorkers; simp only; omega }
  rcases loop_spec ensurePump spare with ⟨empty,_⟩ | ⟨_,pending,limits,uid,workers,starts⟩
  · exact absurd empty (by simp only; omega)
  · exact ⟨pending,limits,by simp [startWorker,workers],uid,starts⟩

theorem iterate_spec (ensurePump : State File → State File) (pumps : ∀ s,Inv sole 0 s → Inv sole 0 (ensurePump s)) (n : Nat) :
    ∀ {s : State File},Inv sole 0 s → Within s → n ≤ s.count .pending → s.workers.length + n ≤ s.fileConcurrency →
      Within ((startWorker ensurePump)^[n] s) ∧ ((startWorker ensurePump)^[n] s).count .pending = s.count .pending - n ∧
        limits ((startWorker ensurePump)^[n] s) = limits s ∧
        ((startWorker ensurePump)^[n] s).workers.length = s.workers.length + n := by
  induction n with
  | zero => intro s _ within _ _; simp [within]
  | succ n ih =>
    intro s inv within waits room
    obtain ⟨pending,same,length,uid,starts⟩ := start_spec ensurePump inv (by omega)
    have next : Inv sole 0 (startWorker ensurePump s) :=
      inv_loop pumps { inv with activeWorkers := by have := inv.activeWorkers; simp only; omega }
    have conc : (startWorker ensurePump s).fileConcurrency = s.fileConcurrency := congrArg Prod.fst same
    have within' : Within (startWorker ensurePump s) := by
      intro start member
      rw [starts] at member
      rcases List.mem_append.mp member with old | new
      · exact within start old
      · cases List.mem_singleton.mp new
        simp only
        omega
    obtain ⟨within'',pending',same',length'⟩ := ih next within' (by omega) (by omega)
    exact ⟨within'',by rw [Function.iterate_succ_apply]; omega,same'.trans same,by
      rw [Function.iterate_succ_apply]; omega⟩

theorem full_pump (inv : Inv False 0 s) (within : Within s) (strict : s.strictSerialUpload = true → s.fileConcurrency = 1)
    (roomy : Roomy s s.fileConcurrency (s.count .pending)) : Full (ensurePump s) ∧ Bounded s (ensurePump s) ∧
      limits (ensurePump s) = limits s := by
  have running := inv.activeWorkers
  have pumped := inv_ensurePump inv
  have nobody : s.workers = [] → s.workers.length = 0 := fun none => by rw [none]; rfl
  unfold ensurePump pump at pumped ⊢
  split_ifs at pumped ⊢ with empty
  · exact ⟨⟨inv,within,by omega,strict⟩,.inl fun _ old => old,rfl⟩
  · by_cases none : spawn s = 0
    · simp only [none,Function.iterate_zero,id_eq] at pumped ⊢
      refine ⟨⟨inv,within,fun _ => ?_,strict⟩,.inl fun _ old => old,trivial⟩
      unfold spawn at none
      rcases roomy with zero | nil | full | many
      · exact absurd zero empty
      · have := nobody nil
        omega
      · exact full
      · omega
    · have some : (spawn s : Int) = min s.fileConcurrency (s.count .pending) - s.activeWorkers := by
        unfold spawn at none ⊢
        omega
      obtain ⟨within',pending,same,length⟩ := iterate_spec (pump (s.count .pending).toNat) (fun _ => inv_pump _) (spawn s) inv within (by omega) (by omega)
      have conc : ((startWorker (pump (s.count .pending).toNat))^[spawn s] s).fileConcurrency = s.fileConcurrency := congrArg Prod.fst same
      refine ⟨⟨pumped,within',fun waits => ?_,fun on => ?_⟩,.inr (by omega),same⟩
      · rcases roomy with zero | nil | full | many
        · exact absurd zero empty
        · have := nobody nil
          omega
        · omega
        · omega
      · rw [conc]
        exact strict ((congrArg (fun limits => limits.2.2) same).symm.trans on)

theorem full_loop (full : Full s) {s' : State File} (inv : Inv False 1 s') (quiet : Quiet s s')
    (pending : s'.count .pending = s.count .pending) (fewer : s'.workers.length + 1 = s.workers.length)
    (old : ∀ uid ∈ s'.workers.map Worker.uid,uid ∈ s.workers.map Worker.uid)
    (fits : s.count .pending = 0 ∨ s.workers.length ≤ s.fileConcurrency) :
    Full (loop ensurePump s') ∧ Bounded s (loop ensurePump s') ∧ limits (loop ensurePump s') = limits s := by
  have after : Inv False 0 (loop ensurePump s') := inv_loop (fun _ => inv_ensurePump) inv
  have conc : s'.fileConcurrency = s.fileConcurrency := congrArg Prod.fst quiet.limits
  rcases loop_spec ensurePump inv with ⟨empty,still,workers⟩ | ⟨waits,less,same,uid,workers,starts⟩
  · have both := quiet.trans still
    refine ⟨⟨after,?_,fun waits => ?_,fun on => ?_⟩,.inl fun uid runs => old uid (workers ▸ runs),both.limits⟩
    · rw [Within,both.starts]; exact full.within
    · have := still.pending
      omega
    · rw [show (loop ensurePump s').fileConcurrency = s.fileConcurrency from congrArg Prod.fst both.limits]
      exact full.strict ((congrArg (fun limits => limits.2.2) both.limits).symm.trans on)
  · have limit : (loop ensurePump s').fileConcurrency = s.fileConcurrency := (congrArg Prod.fst same).trans conc
    have length : (loop ensurePump s').workers.length = s.workers.length := by rw [workers]; simp; omega
    refine ⟨⟨after,?_,fun _ => ?_,fun on => ?_⟩,.inr (by omega),same.trans quiet.limits⟩
    · intro start member
      rw [starts,quiet.starts] at member
      rcases List.mem_append.mp member with early | new
      · exact full.within start early
      · cases List.mem_singleton.mp new
        simp only
        omega
    · have := full.busy (by omega)
      omega
    · rw [limit]
      exact full.strict ((congrArg (fun limits => limits.2.2) (same.trans quiet.limits)).symm.trans on)

theorem full_quiet (full : Full s) {s' : State File} (inv : Inv False 0 s') (quiet : Quiet s s')
    (length : s'.workers.length = s.workers.length) (old : ∀ uid ∈ s'.workers.map Worker.uid,uid ∈ s.workers.map Worker.uid) :
    Full s' ∧ Bounded s s' ∧ limits s' = limits s := by
  have conc : s'.fileConcurrency = s.fileConcurrency := congrArg Prod.fst quiet.limits
  refine ⟨⟨inv,?_,fun waits => ?_,fun on => ?_⟩,.inl old,quiet.limits⟩
  · rw [Within,quiet.starts]; exact full.within
  · have := quiet.pending
    have := full.busy (by omega)
    omega
  · rw [conc]
    exact full.strict ((congrArg (fun limits => limits.2.2) quiet.limits).symm.trans on)

/-- A worker keeps its entry. -/
theorem full_kept (full : Full s) {s' : State File} (inv : Inv False 0 s') (quiet : Quiet s s') {task task' : Task}
    (found : s.workers[w]? = some ⟨uid,task⟩) (workers : s'.workers = s.workers.eraseIdx w ++ [⟨uid,task'⟩]) :
    Full s' ∧ Bounded s s' ∧ limits s' = limits s := by
  have within : w < s.workers.length := at_lt found
  refine full_quiet full inv quiet ?_ ?_
  · rw [workers]
    simp [List.length_eraseIdx_of_lt within]
    omega
  · rw [workers]
    simp only [List.map_append,List.mem_append]
    rintro u (old | new)
    · obtain ⟨worker,member,rfl⟩ := List.mem_map.mp old
      exact List.mem_map_of_mem (List.mem_of_mem_eraseIdx member)
    · cases List.mem_singleton.mp new
      have member : Worker.uid ⟨uid,task⟩ ∈ s.workers.map Worker.uid := List.mem_map_of_mem (List.mem_of_getElem? found)
      exact member

/-- A worker is done with its entry, and its loop goes on from a state where it is dismissed. -/
theorem full_end (full : Full s) {task : Task} (found : s.workers[w]? = some ⟨uid,task⟩) {s' : State File} (inv : Inv False 1 s')
    (quiet : Quiet s s') (pending : s'.count .pending = s.count .pending) (workers : s'.workers = s.workers.eraseIdx w)
    (fits : s.count .pending = 0 ∨ s.workers.length ≤ s.fileConcurrency) :
    Full (loop ensurePump s') ∧ Bounded s (loop ensurePump s') ∧ limits (loop ensurePump s') = limits s := by
  have within : w < s.workers.length := at_lt found
  refine full_loop full inv quiet pending ?_ ?_ fits
  · rw [workers,List.length_eraseIdx_of_lt within]
    omega
  · rw [workers]
    intro u old
    obtain ⟨worker,member,rfl⟩ := List.mem_map.mp old
    exact List.mem_map_of_mem (List.mem_of_mem_eraseIdx member)

theorem full_finish (full : Full s) {task : Task} (found : s.workers[w]? = some ⟨uid,task⟩) (works : task ≠ .tagging)
    (next : QueueStatus) (ends : isTerminal next = true) (fits : s.count .pending = 0 ∨ s.workers.length ≤ s.fileConcurrency) :
    Full (finish (changeStatus (s.dismiss w) uid next) uid) ∧ Bounded s (finish (changeStatus (s.dismiss w) uid next) uid) ∧
      limits (finish (changeStatus (s.dismiss w) uid next) uid) = limits s := by
  obtain ⟨inv,free,listed,processing,_⟩ := dismissed full.inv found works
  have leaves : next ≠ .pending := by rintro rfl; cases ends
  have changed := inv_changeStatus inv listed next leaves free fun going => by rw [ends] at going; cases going
  have away : Quiet s (s.dismiss w) := ⟨rfl,rfl,le_rfl⟩
  have quiet := away.trans ((quiet_changeStatus uid next leaves).trans (quiet_finalizeEntry uid).1)
  refine full_end full found (inv_finalizeEntry changed uid) quiet ?_ ?_ fits
  · unfold finalizeEntry changeStatus
    dsimp only
    split_ifs <;> simp [State.alter,State.dismiss,processing,leaves]
  · rw [(quiet_finalizeEntry uid).2,changeStatus_workers]
    rfl

theorem full_repump (inv : Inv False 0 s) (within : Within s) (strict : s.strictSerialUpload = true → s.fileConcurrency = 1)
    (roomy : Roomy s s.fileConcurrency (s.count .pending)) :
    Full (repump s) ∧ Bounded s (repump s) ∧ limits (repump s) = limits s := by
  unfold repump
  split
  · exact full_pump inv within strict roomy
  · exact ⟨⟨inv,within,fun waits => absurd waits ‹_›,strict⟩,.inl fun _ old => old,rfl⟩

section
variable [DecidableEq File] {files : Files File}

omit [DecidableEq File] in
theorem appended (new : List File) : ∀ s : State File,(new.foldl (appendEntry files) s).workers = s.workers ∧
    (new.foldl (appendEntry files) s).starts = s.starts ∧ limits (new.foldl (appendEntry files) s) = limits s ∧
    (new.foldl (appendEntry files) s).count .pending = s.count .pending + new.length := by
  induction new with
  | nil => intro s; simp
  | cons file rest ih =>
    intro s
    obtain ⟨workers,starts,limits,count⟩ := ih (appendEntry files s file)
    refine ⟨workers,starts,limits,?_⟩
    rw [List.foldl_cons,count,List.length_cons]
    simp only [appendEntry,if_true]
    omega

omit [DecidableEq File] in
theorem full_append (full : Full s) (new : List File) (inv : Inv False 0 (new.foldl (appendEntry files) s))
    (roomy : Roomy s s.fileConcurrency (s.count .pending + new.length)) :
    Full (appendEntries files s new) ∧ Bounded s (appendEntries files s new) ∧ limits (appendEntries files s new) = limits s := by
  unfold appendEntries
  split
  · exact ⟨full,.inl fun _ old => old,rfl⟩
  obtain ⟨workers,starts,same,count⟩ := @appended _ files new s
  have conc : (new.foldl (appendEntry files) s).fileConcurrency = s.fileConcurrency := congrArg Prod.fst same
  obtain ⟨after,bounded,kept⟩ := full_pump inv (by rw [Within,starts]; exact full.within)
    (fun on => by rw [conc]; exact full.strict ((congrArg (fun limits => limits.2.2) same).symm.trans on))
    (by rwa [Roomy,workers,conc,count])
  rw [Bounded,workers] at bounded
  exact ⟨after,bounded,kept.trans same⟩

def ends (s : State File) : Label File → Bool
  | .tagged w => s.workers[w]?.any fun worker => worker.task = .tagging
  | .fail w again => s.workers[w]?.any fun worker => worker.task = .uploading && (worker.uid ∈ s.aborted || !again)
  | .cancelWait w => s.workers[w]?.any fun worker => worker.task = .backingOff && worker.uid ∈ s.aborted
  | _ => false

/-- Where workers are started they are for all that wait or up to the limit, and they go on while no
more run than may. -/
def Fits (files : Files File) (s : State File) : Label File → Prop
  | .enqueue new => Roomy s s.fileConcurrency (s.count .pending + (new.filter fun file => !hasActiveFile s file).length)
  | .enqueueFolderFiles items => Roomy s s.fileConcurrency (s.count .pending + (newInBatch files s [] items).length)
  | .setFileConcurrency n => Roomy s (if s.strictSerialUpload then 1 else min 4 (max 1 ⌊n⌋)) (s.count .pending)
  | .setStrictSerialUpload enabled => Roomy s (if enabled then 1 else s.preferredFileConcurrency) (s.count .pending)
  | .reset => False
  | label => ends s label = true → s.count .pending = 0 ∨ s.workers.length ≤ s.fileConcurrency

theorem full_step {label : Label File} (full : Full s) (fits : Fits files s label) : Full (step files s label) ∧
    Bounded s (step files s label) ∧
    (label ≠ .setStrictSerialUpload false → s.strictSerialUpload = true → (step files s label).strictSerialUpload = true) := by
  have still : ∀ {s' : State File},Full s' ∧ Bounded s s' ∧ limits s' = limits s → Full s' ∧ Bounded s s' ∧
      (label ≠ .setStrictSerialUpload false → s.strictSerialUpload = true → s'.strictSerialUpload = true) := fun all =>
    ⟨all.1,all.2.1,fun _ on => (congrArg (fun limits => limits.2.2) all.2.2).trans on⟩
  have same : Full s ∧ Bounded s s ∧ limits s = limits s := ⟨full,.inl fun _ old => old,rfl⟩
  have inv : Inv False 0 (step files s label) := inv_step full.inv False.elim fun here => by rw [here] at fits; exact fits.elim
  cases label with
  | enqueue new => exact still (full_append full _ (inv_appendEntries_fold False.elim False.elim full.inv) fits)
  | enqueueFolderFiles items => exact still (full_append full _ (inv_appendEntries_fold False.elim False.elim full.inv) fits)
  | cancelOne uid =>
    exact still (full_quiet full inv quiet_cancelOne (by rw [step,cancelOne_workers]) fun _ old => by
      rwa [step,cancelOne_workers] at old)
  | cancelAll =>
    exact still (full_quiet full inv quiet_cancelAll (by rw [step,cancelAll_workers]) fun _ old => by
      rwa [step,cancelAll_workers] at old)
  | clearFinished =>
    refine still (full_quiet full inv ⟨rfl,rfl,?_⟩ rfl fun _ old => old)
    simp only [step,clearFinished]
    omega
  | reset => exact fits.elim
  | setFileConcurrency n =>
    have limited : Inv False 0 { s with
      preferredFileConcurrency := min 4 (max 1 ⌊n⌋)
      fileConcurrency := if s.strictSerialUpload then 1 else min 4 (max 1 ⌊n⌋) } := { full.inv with }
    obtain ⟨after,bounded,kept⟩ := full_repump limited full.within (fun on => if_pos on) fits
    exact ⟨after,bounded,fun _ on => (congrArg (fun limits => limits.2.2) kept).trans on⟩
  | setStrictSerialUpload enabled =>
    have limited : Inv False 0 { s with
      strictSerialUpload := enabled
      fileConcurrency := if enabled then 1 else s.preferredFileConcurrency } := { full.inv with }
    obtain ⟨after,bounded,kept⟩ := full_repump limited full.within (fun on => if_pos on) fits
    refine ⟨after,bounded,fun other _ => (congrArg (fun limits => limits.2.2) kept).trans ?_⟩
    cases enabled
    · exact absurd rfl other
    · rfl
  | progress w loadedBytes =>
    simp only [step]
    split
    · exact still (full_quiet full { full.inv with } ⟨rfl,rfl,le_rfl⟩ rfl fun _ old => old)
    · exact still same
  | flush =>
    exact still (full_quiet full inv quiet_flush (by rw [step,flush_workers]) fun _ old => by rwa [step,flush_workers] at old)
  | succeed w =>
    simp only [step]
    split
    · next uid found =>
      have flushed : Quiet s ((flushProgress s).dismiss w) := Quiet.trans quiet_flush ⟨rfl,rfl,le_rfl⟩
      have loaded : Quiet ((flushProgress s).dismiss w) (setLoaded ((flushProgress s).dismiss w) uid
        (((flushProgress s).dismiss w).object uid).totalBytes) := ⟨rfl,rfl,le_rfl⟩
      have changed := flushed.trans (loaded.trans (quiet_changeStatus uid .success (by simp)))
      have workers : (succeed s w uid).workers = s.workers.eraseIdx w ++ [⟨uid,.tagging⟩] := by
        simp [succeed,State.employ,State.dismiss,setLoaded,State.alter,flush_workers]
      exact still (full_kept full (inv_succeed full.inv found) { changed with } found workers)
    · exact still same
  | tagged w =>
    simp only [step]
    split
    · next uid found =>
      have dismissed := (inv_dismiss full.inv found).1
      have away : Quiet s (s.dismiss w) := ⟨rfl,rfl,le_rfl⟩
      refine still (full_end full found (inv_finalizeEntry dismissed uid) (away.trans (quiet_finalizeEntry uid).1) ?_
        (quiet_finalizeEntry uid).2 (fits (by simp [ends,found])))
      unfold finalizeEntry
      dsimp only
      split <;> rfl
    · exact still same
  | fail w again =>
    simp only [step]
    split
    · next uid found =>
      have kept := inv_fail full.inv found again
      unfold fail at kept ⊢
      dsimp only at kept ⊢
      split_ifs at kept ⊢ with signalled retried
      · exact still (full_finish full found (by simp) .cancelled rfl (fits (by simp [ends,found,show uid ∈ s.aborted from signalled])))
      · exact still (full_kept full kept ⟨rfl,rfl,le_rfl⟩ found rfl)
      · exact still (full_finish full found (by simp) .error rfl (fits (by simp [ends,found,retried])))
    · exact still same
  | wake w =>
    simp only [step]
    split
    · next uid found => exact still (full_kept full (inv_wake full.inv found) ⟨rfl,rfl,le_rfl⟩ found rfl)
    · exact still same
  | cancelWait w =>
    simp only [step]
    split
    · next uid found =>
      split
      · next signalled => exact still (full_finish full found (by simp) .cancelled rfl (fits (by simp [ends,found,signalled])))
      · exact still same
    · exact still same

omit [DecidableEq File] in
theorem full_init : Full (init : State File) := ⟨inv_init,nofun,nofun,nofun⟩

omit [DecidableEq File] in
/-- After an operation at most one entry is processed that was not, where the limit is one. -/
theorem oneNew_step {s' s'' : State File} (one : OneNew s s') (bounded : Bounded s' s'') (limit : s''.fileConcurrency = 1) :
    OneNew s s'' := by
  intro uid runs uid' runs' new new'
  rcases bounded with old | few
  · exact one uid (old uid runs) uid' (old uid' runs') new new'
  · have few : (s''.workers.map Worker.uid).length ≤ 1 := by rw [List.length_map]; omega
    match s''.workers.map Worker.uid,few,runs,runs' with
    | [only],_,here,here' => rw [List.mem_singleton.mp here,List.mem_singleton.mp here']

theorem legal_append {before after : List (Label File)} : ∀ {s : State File},Full s → Legal (step files) (Fits files) s (before ++ after) →
    Full (before.foldl (step files) s) ∧ Legal (step files) (Fits files) (before.foldl (step files) s) after := by
  induction before with
  | nil => exact fun full legal => ⟨full,legal⟩
  | cons label rest ih => exact fun full legal => ih (full_step full legal.1).1 legal.2

theorem serial_run {after : List (Label File)} : ∀ {s' : State File},Full s' → Legal (step files) (Fits files) s' after →
    s'.strictSerialUpload = true → .setStrictSerialUpload false ∉ after → OneNew s s' → OneNew s (after.foldl (step files) s') := by
  induction after with
  | nil => exact fun _ _ _ _ one => one
  | cons label rest ih =>
    intro s' full legal on kept one
    obtain ⟨full,bounded,still⟩ := full_step full legal.1
    have on := still (fun off => kept (off ▸ .head _)) on
    exact ih full legal.2 on (fun later => kept (.tail _ later)) (oneNew_step one bounded (full.strict on))

/-- Where workers are started for all that wait or up to the limit, no entry waits while there is room,
none is taken up beyond it, and in strict mode one at a time. -/
theorem workers_kept (files : Files File) {labels : List (Label File)} (fit : Legal (step files) (Fits files) init labels) :
    Throughout (step files) (fun s => Within s ∧ Busy s) (fun _ _ => True) init labels ∧
      ∀ before after,labels = before ++ after → (before.foldl (step files) init).strictSerialUpload = true →
        .setStrictSerialUpload false ∉ after → OneNew (before.foldl (step files) init) (labels.foldl (step files) init) := by
  have sound : ∀ s : State File,Full s → Within s ∧ Busy s := fun s full =>
    ⟨full.within,fun waits => full.busy ((pending_iff full.inv).mpr waits)⟩
  refine ⟨throughout_of_fits sound (fun _ _ full _ fits => ⟨(full_step full fits).1,trivial⟩) full_init fit fit,?_⟩
  rintro before after rfl on kept
  obtain ⟨full,legal⟩ := legal_append full_init fit
  rw [List.foldl_append]
  exact serial_run full legal on kept fun uid runs _ _ new _ => absurd runs new

end

def lowered : List (Label Nat) :=
  [.enqueue [3,4,5],.succeed 0,.tagged 1,.fail 0 false,.setStrictSerialUpload true,.fail 0 false,.enqueue [6,7]]

theorem workers_kept_lowered :
    Throughout (step numbered) (fun s => Within s ∧ Busy s) (fun _ _ => True) init lowered ∧
      ∀ before after,lowered = before ++ after → (before.foldl (step numbered) init).strictSerialUpload = true →
        .setStrictSerialUpload false ∉ after → OneNew (before.foldl (step numbered) init) (lowered.foldl (step numbered) init) :=
  workers_kept numbered (by
    simp only [lowered,Legal,Fits,Roomy]
    decide)

/-- A second file comes while the first is uploaded, and the limit is lowered while two are. -/
theorem workers_idle_or_many :
    ¬Throughout (step numbered) (fun s => Within s ∧ Busy s) (fun _ _ => True) init [.enqueue [3],.enqueue [4]] ∧
      ¬Throughout (step numbered) (fun s => Within s ∧ Busy s) (fun _ _ => True) init
        [.enqueue [3,4,5],.setFileConcurrency 1,.fail 0 false] := by
  constructor
  · rintro ⟨_,_,_,_,_,busy⟩
    exact absurd (busy ⟨1,by decide,by decide⟩) (by decide)
  · rintro ⟨_,_,_,_,_,_,within,_⟩
    exact absurd (within ⟨2,2,1⟩ (by decide)) (by decide)

end Tgtc.QueueWorkers
