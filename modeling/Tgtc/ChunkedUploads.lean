import Mathlib.Algebra.Order.BigOperators.Group.List
import Mathlib.Data.List.Dedup
import Mathlib.Tactic.Positivity
import Tgtc.ChunkTokens
import Tgtc.ChunkWork

/-!
Runs of an upload in chunks, whatever is answered to its requests and whenever the user cancels it. The
merge is asked for when the server has every chunk, an upload that has asked for it does not take it
back, and every token is returned.
-/
namespace Tgtc.ChunkedUploads
open Runs ChunkedUpload ChunkTokens ChunkWork
open UploadErrors (Thrown classifyUploadError getUploadBudgetRetryAfterMs)
open UploadScheduler (grants settled releases outstanding)
open Maps (perm_replace)
open List (eq_of_mem_replicate mem_append mem_filter mem_range mem_singleton not_mem_nil range)
universe u v

/-! ### Requests -/

section
variable {Signal : Type u} {Byte : Type v}

def inits (log : List (Event Byte)) : Nat := log.countP fun | .init => true | _ => false

def completes (log : List (Event Byte)) : Nat := log.countP fun | .complete => true | _ => false

/-- The merge is asked for when every chunk has been reported or acknowledged. -/
def Justified (cfg : Config Signal Byte) (log : List (Event Byte)) : Prop :=
  ∀ before after,log = before ++ Event.complete :: after → ∀ i < cfg.totalChunks,Done cfg before i

def Requests (log : List (Event Byte)) : Phase → Prop
  | .initiating attempt diskBudgetAttempts =>
    inits log = attempt + diskBudgetAttempts + 1 ∧ attempt ≤ MAX_RETRIES ∧ diskBudgetAttempts ≤ MAX_DISK_BUDGET_RETRIES
  | .initWaiting attempt diskBudgetAttempts _ =>
    inits log = attempt + diskBudgetAttempts ∧ attempt ≤ MAX_RETRIES ∧ diskBudgetAttempts ≤ MAX_DISK_BUDGET_RETRIES
  | .completing retry => completes log = retry + 1 ∧ retry < MAX_RETRIES
  | .completeWaiting retry => completes log = retry ∧ retry < MAX_RETRIES
  | _ => True

def isEarly : Phase → Bool
  | .initiating .. | .initWaiting .. | .reading _ | .readWaiting _ => true
  | _ => false

def isLate : Phase → Bool
  | .completing _ | .completeWaiting _ | .pollWaiting .. | .polling .. | .pollBackoff .. => true
  | _ => false

def isFinal : Phase → Bool
  | .aborting _ | .settled _ => true
  | _ => false

structure Posted (cfg : Config Signal Byte) (phase : Phase) (merged : Bool) (workers : List Stage) (log : List (Event Byte)) : Prop where
  early : isEarly phase = true → merged = false ∧ workers = [] ∧ ∀ i,sent i log = 0
  chunks : phase = .chunking → merged = false
  late : isLate phase = true → merged = true ∧ ∀ i < cfg.totalChunks,Done cfg log i
  idle : phase ≠ .chunking → ∀ stage ∈ workers,stage.over = true
  unmerged : merged = false → .complete ∉ log
  merged : merged = true → .abort ∉ log
  unfinished : isFinal phase = false → .abort ∉ log
  requests : Requests log phase
  fewInits : inits log ≤ MOST
  fewCompletes : completes log ≤ MAX_RETRIES
  most : ∀ i,sent i log ≤ MOST
  exact : Exact cfg log
  justified : Justified cfg log

def Progressed (cfg : Config Signal Byte) (progress : ChunkUploadProgress) (reports : List ChunkUploadProgress) : Prop :=
  progress.loadedBytes ≤ cfg.size ∧ ∀ report ∈ reports,report.loadedBytes ≤ cfg.size

structure Inv [DecidableEq Signal] (cfg : Config Signal Byte) (s : State Signal Byte) : Prop where
  tokens : Tokens s.scheduler s.mine s.workers
  posted : Posted cfg s.phase s.mergeTriggered s.workers s.log
  work : s.phase = .chunking →
    Work cfg (aborted cfg s = true) s.pendingIndices s.nextIdx s.workerFailed s.workers s.log ∧
      s.workers.length = min cfg.concurrency s.pendingIndices.length
  progress : Progressed cfg s.progress s.reports

variable {cfg : Config Signal Byte} {s : State Signal Byte} {log : List (Event Byte)} {phase phase' : Phase} {merged : Bool} {workers : List Stage}

variable {w retryCount budgetRetryCount : Nat} {event : Event Byte} {index : Nat} {progress : ChunkUploadProgress} {retry : Nat} {reports : List ChunkUploadProgress} {call : Nat}

theorem justified_append (justified : Justified cfg log)
    (next : event = .complete → ∀ i < cfg.totalChunks,Done cfg log i) : Justified cfg (log ++ [event]) := by
  intro before after split
  rcases List.eq_nil_or_concat after with rfl | ⟨after',last,rfl⟩
  · obtain ⟨rfl,same⟩ := List.append_inj' split rfl
    exact next (List.singleton_inj.mp same)
  · have split' : log ++ [event] = (before ++ Event.complete :: after') ++ [last] := by simpa using split
    obtain ⟨rfl,_⟩ := List.append_inj' split' rfl
    exact justified before after' rfl

theorem exact_append (exact : Exact cfg log) (other : ∀ i body,event ≠ .chunk i body ∧ event ≠ .acknowledged i body) :
    Exact cfg (log ++ [event]) := by
  intro i body member
  simp only [mem_append,mem_singleton] at member
  rcases member with (earlier | now) | (earlier | now)
  · exact exact i body (.inl earlier)
  · exact absurd now.symm (other i body).1
  · exact exact i body (.inr earlier)
  · exact absurd now.symm (other i body).2

theorem report_progressed (kept : Progressed cfg s.progress s.reports) (within : progress.loadedBytes ≤ cfg.size) :
    Progressed cfg progress (s.reports ++ [progress]) := by
  refine ⟨within,fun report member => ?_⟩
  rcases mem_append.mp member with earlier | now
  · exact kept.2 report earlier
  · cases mem_singleton.mp now; exact within

theorem reportWaiting_eq (cfg : Config Signal Byte) (s : State Signal Byte) (waiting : Bool) :
    ∃ progress reports,reportWaiting s waiting = { s with progress, reports } ∧
      (Progressed cfg s.progress s.reports → Progressed cfg progress reports) := by
  simp only [reportWaiting]
  split
  · exact ⟨s.progress,s.reports,rfl,id⟩
  · exact ⟨_,_,rfl,fun kept => report_progressed kept kept.1⟩

theorem registerChunk_eq (cfg : Config Signal Byte) (s : State Signal Byte) (index elapsed : Nat) :
    ∃ uploadedIndices loadedBytes progress reports,registerChunk cfg s index elapsed = { s with uploadedIndices, loadedBytes, progress, reports } ∧
      (Progressed cfg s.progress s.reports → Progressed cfg progress reports) := by
  simp only [registerChunk]
  split
  · exact ⟨_,_,_,_,rfl,fun kept => report_progressed kept (Nat.min_le_right _ _)⟩
  · exact ⟨_,_,_,_,rfl,id⟩

theorem range_loaded (cfg : Config Signal Byte) (n : Nat) :
    ((range n).map fun i => cfg.ends i - cfg.begins i).sum = min (n * cfg.chunkSize) cfg.size := by
  induction n with
  | zero => simp
  | succ n ih =>
    rw [List.range_succ,List.map_append,List.sum_append,ih]
    simp only [List.map_cons,List.map_nil,List.sum_singleton,Config.ends,Config.begins,Nat.succ_mul]
    omega

theorem loaded_le {indices : List Nat} (separate : indices.Nodup) (known : ∀ i ∈ indices,i < cfg.totalChunks) :
    (indices.map fun i => cfg.ends i - cfg.begins i).sum ≤ cfg.size := by
  have among : indices.Subperm (range cfg.totalChunks) :=
    List.subperm_of_subset separate fun i member => mem_range.mpr (known i member)
  obtain ⟨indices',same,sub⟩ := among
  calc (indices.map fun i => cfg.ends i - cfg.begins i).sum
    _ = (indices'.map fun i => cfg.ends i - cfg.begins i).sum := (same.map _).sum_eq.symm
    _ ≤ ((range cfg.totalChunks).map fun i => cfg.ends i - cfg.begins i).sum := (sub.map _).sum_le_sum fun _ _ => Nat.zero_le _
    _ = min (cfg.totalChunks * cfg.chunkSize) cfg.size := range_loaded cfg _
    _ ≤ cfg.size := Nat.min_le_right _ _

/-! ### Posted requests -/

theorem inits_append (log : List (Event Byte)) (event : Event Byte) : inits (log ++ [event]) = inits log + inits [event] := List.countP_append

theorem completes_append (log : List (Event Byte)) (event : Event Byte) :
    completes (log ++ [event]) = completes log + completes [event] := List.countP_append

theorem Posted.goes (posted : Posted cfg phase merged workers log) (early' : isEarly phase' = true → isEarly phase = true)
    (chunks' : phase' = .chunking → merged = false) (late' : isLate phase' = true → isLate phase = true)
    (idle' : phase' ≠ .chunking → ∀ stage ∈ workers,stage.over = true) (final' : isFinal phase' = false → isFinal phase = false)
    (requests' : Requests log phase') : Posted cfg phase' merged workers log :=
  { posted with
    early := fun is => posted.early (early' is)
    chunks := chunks'
    late := fun is => posted.late (late' is)
    idle := idle'
    unfinished := fun is => posted.unfinished (final' is)
    requests := requests' }

theorem Posted.chunk {workers' : List Stage} (posted : Posted cfg .chunking merged workers log)
    (event' : (∃ i body,event = .chunk i body) ∨ ∃ i body,event = .acknowledged i body) (most : ∀ i,sent i (log ++ [event]) ≤ MOST)
    (exact : Exact cfg (log ++ [event])) : Posted cfg .chunking merged workers' (log ++ [event]) := by
  have kind : event ≠ .complete ∧ event ≠ .abort ∧ inits [event] = 0 ∧ completes [event] = 0 := by
    rcases event' with ⟨i,body,rfl⟩ | ⟨i,body,rfl⟩ <;> exact ⟨nofun,nofun,rfl,rfl⟩
  obtain ⟨noComplete,noAbort,noInit,noCompletes⟩ := kind
  constructor
  · exact nofun
  · exact posted.chunks
  · exact nofun
  · exact fun is => absurd rfl is
  · intro not member
    rcases mem_append.mp member with earlier | now
    · exact posted.unmerged not earlier
    · exact noComplete (mem_singleton.mp now).symm
  · intro is member
    rw [posted.chunks rfl] at is
    cases is
  · intro _ member
    rcases mem_append.mp member with earlier | now
    · exact posted.unfinished rfl earlier
    · exact noAbort (mem_singleton.mp now).symm
  · trivial
  · rw [inits_append,noInit]; exact posted.fewInits
  · rw [completes_append,noCompletes]; exact posted.fewCompletes
  · exact most
  · exact exact
  · exact justified_append posted.justified fun is => absurd is noComplete

theorem Posted.works {workers' : List Stage} (posted : Posted cfg .chunking merged workers log) : Posted cfg .chunking merged workers' log :=
  { posted with
    early := nofun
    idle := fun is => absurd rfl is }

theorem Posted.send (posted : Posted cfg phase merged workers log)
    (event' : event = .init ∨ event = .status ∨ event = .abort) (idle : ∀ stage ∈ workers,stage.over = true)
    (early' : isEarly phase' = true → isEarly phase = true) (chunks' : phase' ≠ .chunking)
    (late' : isLate phase' = true → isLate phase = true) (final' : event = .abort ∧ merged = false ∧ isFinal phase' = true ∨ event ≠ .abort ∧ isFinal phase = false)
    (inits' : inits (log ++ [event]) ≤ MOST) (requests' : Requests (log ++ [event]) phase') :
    Posted cfg phase' merged workers (log ++ [event]) := by
  have kind : event ≠ .complete ∧ completes [event] = 0 ∧ (∀ i,sent i [event] = 0) ∧ ∀ i body,event ≠ .chunk i body ∧ event ≠ .acknowledged i body := by
    rcases event' with rfl | rfl | rfl <;> exact ⟨nofun,rfl,fun _ => rfl,fun _ _ => ⟨nofun,nofun⟩⟩
  obtain ⟨noComplete,noCompletes,notSent,other⟩ := kind
  constructor
  · intro is
    obtain ⟨merged',workers',sent'⟩ := posted.early (early' is)
    exact ⟨merged',workers',fun i => by rw [sent_append,notSent,sent' i]⟩
  · exact fun is => absurd is chunks'
  · intro is
    obtain ⟨merged',done⟩ := posted.late (late' is)
    exact ⟨merged',fun i within => done_append (done i within) event⟩
  · exact fun _ => idle
  · intro not member
    rcases mem_append.mp member with earlier | now
    · exact posted.unmerged not earlier
    · exact noComplete (mem_singleton.mp now).symm
  · intro is member
    rcases mem_append.mp member with earlier | now
    · exact posted.merged is earlier
    · rcases final' with ⟨_,not,_⟩ | ⟨noAbort,_⟩
      · rw [not] at is; cases is
      · exact noAbort (mem_singleton.mp now).symm
  · intro is member
    rcases final' with ⟨_,_,past⟩ | ⟨noAbort,open'⟩
    · rw [past] at is; cases is
    · rcases mem_append.mp member with earlier | now
      · exact posted.unfinished open' earlier
      · exact noAbort (mem_singleton.mp now).symm
  · exact requests'
  · exact inits'
  · rw [completes_append,noCompletes]; exact posted.fewCompletes
  · intro i
    rw [sent_append,notSent]
    exact posted.most i
  · exact exact_append posted.exact other
  · exact justified_append posted.justified fun is => absurd is noComplete

theorem Posted.complete (posted : Posted cfg phase merged workers log) (idle : ∀ stage ∈ workers,stage.over = true)
    (open' : isFinal phase = false) (done : ∀ i < cfg.totalChunks,Done cfg log i) (count : completes log = retry)
    (few : retry < MAX_RETRIES) : Posted cfg (.completing retry) true workers (log ++ [.complete]) := by
  have counts : completes (log ++ [.complete]) = retry + 1 := by rw [completes_append,count]; rfl
  constructor
  · exact nofun
  · exact nofun
  · exact fun _ => ⟨rfl,fun i within => done_append (done i within) _⟩
  · exact fun _ => idle
  · exact nofun
  · intro _ member
    rcases mem_append.mp member with earlier | now
    · exact posted.unfinished open' earlier
    · cases mem_singleton.mp now
  · intro _ member
    rcases mem_append.mp member with earlier | now
    · exact posted.unfinished open' earlier
    · cases mem_singleton.mp now
  · exact ⟨counts,few⟩
  · rw [inits_append]; exact posted.fewInits
  · rw [counts]; exact few
  · intro i
    rw [sent_append]
    exact posted.most i
  · exact exact_append posted.exact fun _ _ => ⟨nofun,nofun⟩
  · exact justified_append posted.justified fun _ => done

/-! ### The calls before and after the chunks -/

variable [DecidableEq Signal]

section
variable (inv : Inv cfg s)
include inv

theorem Inv.goes {uploadId : Option String} (notEarly : isEarly phase' = true → isEarly s.phase = true) (notChunks : phase' ≠ .chunking)
    (notLate : isLate phase' = true → isLate s.phase = true) (idle : ∀ stage ∈ s.workers,stage.over = true)
    (notFinal : isFinal phase' = false → isFinal s.phase = false) (requests : Requests s.log phase')
    (kept : Progressed cfg progress reports) : Inv cfg { s with phase := phase', uploadId, progress, reports } where
  tokens := inv.tokens
  posted := inv.posted.goes notEarly (fun is => absurd is notChunks) notLate (fun _ => idle) notFinal requests
  work is := absurd is notChunks
  progress := kept

theorem Inv.sends {uploadId : Option String} (event' : event = .init ∨ event = .status) (idle : ∀ stage ∈ s.workers,stage.over = true)
    (notEarly : isEarly phase' = true → isEarly s.phase = true) (notChunks : phase' ≠ .chunking)
    (notLate : isLate phase' = true → isLate s.phase = true) (open' : isFinal s.phase = false)
    (inits' : inits (s.log ++ [event]) ≤ MOST) (requests : Requests (s.log ++ [event]) phase') (kept : Progressed cfg progress reports) :
    Inv cfg { s with phase := phase', uploadId, progress, reports, log := s.log ++ [event] } where
  tokens := inv.tokens
  posted := by
    apply inv.posted.send _ idle notEarly notChunks notLate (.inr ⟨_,open'⟩) inits' requests
    · exact event'.imp_right .inl
    · rcases event' with rfl | rfl <;> exact nofun
  work is := absurd is notChunks
  progress := kept

theorem throw_inv (idle : ∀ stage ∈ s.workers,stage.over = true) (err : Thrown) : Inv cfg (throw s err) := by
  simp only [ChunkedUpload.throw]
  split
  · rename_i aborts
    have few : inits (s.log ++ [.abort]) ≤ MOST := by rw [inits_append]; exact inv.posted.fewInits
    have posted : Posted cfg (.aborting err) s.mergeTriggered s.workers (s.log ++ [.abort]) :=
      inv.posted.send (.inr (.inr rfl)) idle (nofun) nofun (nofun) (.inl ⟨rfl,aborts.2,rfl⟩) few trivial
    exact ⟨inv.tokens,posted,(nofun),inv.progress⟩
  · exact inv.goes (nofun) nofun (nofun) idle (nofun) trivial inv.progress

theorem reportWaiting_inv (waiting : Bool) : Inv cfg (reportWaiting s waiting) ∧ (reportWaiting s waiting).workers = s.workers := by
  obtain ⟨progress,reports,eq,kept⟩ := reportWaiting_eq cfg s waiting
  rw [eq]
  exact ⟨⟨inv.tokens,inv.posted,inv.work,kept inv.progress⟩,rfl⟩

theorem initReply_inv {attempt diskBudgetAttempts : Nat} (at' : s.phase = .initiating attempt diskBudgetAttempts)
    (reply : Except Thrown String) : Inv cfg (initReply cfg s attempt diskBudgetAttempts reply) := by
  have idle := inv.posted.idle (by rw [at']; nofun)
  have requests := inv.posted.requests
  rw [at'] at requests
  obtain ⟨count,attempts,budget⟩ := requests
  cases reply with
  | ok uploadId =>
    obtain ⟨progress,reports,eq,kept⟩ := reportWaiting_eq cfg s false
    simp only [initReply,eq]
    refine inv.sends (.inr rfl) idle (fun _ => by rw [at']; rfl) nofun (nofun) (by rw [at']; rfl) ?_ trivial (kept inv.progress)
    rw [inits_append]
    exact inv.posted.fewInits
  | error err =>
    simp only [initReply]
    split
    · exact throw_inv inv idle err
    split
    · split
      · obtain ⟨inv',workers⟩ := reportWaiting_inv inv false
        exact throw_inv inv' (by rw [workers]; exact idle) _
      · obtain ⟨progress,reports,eq,kept⟩ := reportWaiting_eq cfg s true
        rw [eq]
        exact inv.goes (fun _ => by rw [at']; rfl) nofun (nofun) idle (fun _ => by rw [at']; rfl)
          ⟨by omega,attempts,by omega⟩ (kept inv.progress)
    · split
      · exact throw_inv inv idle err
      · rename_i again
        have few : attempt < MAX_RETRIES := Nat.lt_of_not_le fun is => again (.inr is)
        exact inv.goes (fun _ => by rw [at']; rfl) nofun (nofun) idle (fun _ => by rw [at']; rfl)
          ⟨by omega,few,budget⟩ inv.progress

theorem startWorkers_inv {attempt : Nat} (at' : s.phase = .reading attempt) {uploaded : List Nat}
    (faithful : ∀ i ∈ uploaded,i < cfg.totalChunks) : Inv cfg (startWorkers cfg s uploaded) := by
  obtain ⟨unmerged,none,unsent⟩ := inv.posted.early (by rw [at']; rfl)
  have open' : isFinal s.phase = false := by rw [at']; rfl
  have sent' : ∀ i,sent i (s.log ++ [.reported uploaded]) = 0 := by
    intro i
    rw [sent_append,unsent]
    rfl
  have exact : Exact cfg (s.log ++ [.reported uploaded]) := exact_append inv.posted.exact fun _ _ => ⟨(by intro h; cases h),(by intro h; cases h)⟩
  have pool : ∀ n,List.filterMap callOf (List.replicate n .next) = [] := fun n => by simp [callOf]
  have tokens := inv.tokens
  rw [none] at tokens
  refine ⟨⟨tokens.sound,tokens.full,tokens.called,?_,?_,?_,?_⟩,?_,fun _ => ⟨?_,?_⟩,?_⟩
  · rw [startWorkers,pool]
    exact List.nodup_nil
  · intro stage member
    rw [eq_of_mem_replicate member]
    exact fun call is => by cases is
  · intro stage member
    rw [eq_of_mem_replicate member]
    exact fun call is => by cases is
  · intro call member
    rcases tokens.spent call member with ⟨stage,works,_⟩ | past
    · exact absurd works not_mem_nil
    · exact .inr past
  · constructor
    · intros; contradiction
    · exact fun _ => unmerged
    · intros; contradiction
    · exact fun is => absurd rfl is
    · intro not member
      rcases mem_append.mp member with earlier | now
      · exact inv.posted.unmerged not earlier
      · cases mem_singleton.mp now
    · intro is
      rw [startWorkers,State.send,unmerged] at is
      cases is
    · intro _ member
      rcases mem_append.mp member with earlier | now
      · exact inv.posted.unfinished open' earlier
      · cases mem_singleton.mp now
    · trivial
    · rw [startWorkers,State.send,inits_append]; exact inv.posted.fewInits
    · rw [startWorkers,State.send,completes_append]; exact inv.posted.fewCompletes
    · intro i
      rw [startWorkers,State.send,sent']
      exact Nat.zero_le _
    · exact exact
    · exact justified_append inv.posted.justified (by intros; contradiction)
  · constructor
    · exact fun i member => mem_range.mp (mem_filter.mp member).1
    · have stages : ∀ n,List.filterMap indexOf (List.replicate n .next) = [] := fun n => by simp [indexOf]
      rw [startWorkers,stages]
      exact List.nodup_range.filter _
    · exact fun i _ => sent' i
    · intro stage member
      rw [eq_of_mem_replicate member]
      trivial
    · intro i
      rw [startWorkers,State.send,sent']
      exact Nat.zero_le _
    · exact exact
    · intro _ _ i within
      by_cases has : i ∈ uploaded
      · exact .inl (.inl ⟨uploaded,List.mem_append_right _ (by simp),has⟩)
      · refine .inr (.inl (mem_filter.mpr ⟨mem_range.mpr within,decide_eq_true ?_⟩))
        rw [List.mem_dedup]
        exact has
    · exact fun member => by cases eq_of_mem_replicate member
    · constructor
      · intros; contradiction
      · rintro ⟨err,member⟩
        cases eq_of_mem_replicate member
  · exact List.length_replicate
  · exact ⟨loaded_le (List.nodup_dedup uploaded) fun i member => faithful i (List.mem_dedup.mp member),inv.progress.2⟩

theorem statusReply_inv {attempt : Nat} (at' : s.phase = .reading attempt) (reply : Except Thrown (List Nat))
    (faithful : ∀ uploaded,reply = .ok uploaded → ∀ i ∈ uploaded,i < cfg.totalChunks) : Inv cfg (statusReply cfg s attempt reply) := by
  cases reply with
  | ok uploaded => exact startWorkers_inv inv at' (faithful uploaded rfl)
  | error err =>
    have idle := inv.posted.idle (by rw [at']; nofun)
    simp only [statusReply]
    split
    · exact throw_inv inv idle err
    · exact inv.goes (fun _ => by rw [at']; rfl) nofun (nofun) idle (fun _ => by rw [at']; rfl) trivial inv.progress

theorem postComplete_inv (idle : ∀ stage ∈ s.workers,stage.over = true) (open' : isFinal s.phase = false)
    (done : ∀ i < cfg.totalChunks,Done cfg s.log i) (count : completes s.log = retry) (few : retry < MAX_RETRIES) :
    Inv cfg (postComplete s retry) :=
  ⟨inv.tokens,inv.posted.complete idle open' done count few,(nofun),inv.progress⟩

end

theorem indexOf_over {stage : Stage} (past : stage.over = true) : indexOf stage = none := by
  cases stage <;> first | rfl | cases past

section
variable (inv : Inv cfg s) (some : 1 ≤ cfg.concurrency) (chunking : s.phase = .chunking)
  (past : ∀ stage ∈ s.workers,stage.over = true)
include inv some chunking past

theorem gather_done (fine : ∀ err,.rejected err ∉ s.workers) (here : ¬aborted cfg s = true) :
    ∀ i < cfg.totalChunks,Done cfg s.log i := by
  obtain ⟨work,crew⟩ := inv.work chunking
  have succeeded : s.workerFailed = false := by
    by_contra failed
    obtain ⟨err,member⟩ := work.rejected.mp (by simpa using failed)
    exact fine err member
  have none : s.pendingIndices.drop s.nextIdx = [] := by
    apply List.drop_eq_nil_of_le
    cases workers : s.workers with
    | nil =>
      rw [workers,List.length_nil] at crew
      omega
    | cons stage rest =>
      have member : stage ∈ s.workers := by rw [workers]; exact List.mem_cons_self
      cases stage with
      | returned => exact (work.returned member).resolve_left (by rw [succeeded]; nofun)
      | rejected err => exact absurd member (fine err)
      | _ => cases past _ member
  intro i within
  rcases work.covered here succeeded i within with done | left | works
  · exact done
  · rw [none] at left; cases left
  · obtain ⟨stage,member,has⟩ := List.mem_filterMap.mp works
    rw [indexOf_over (past stage member)] at has
    cases has

theorem gather_inv : Inv cfg (gather cfg s) := by
  simp only [gather]
  split
  · exact throw_inv inv past _
  rename_i none
  have fine : ∀ err,Stage.rejected err ∉ s.workers := by
    intro err member
    have := List.findSome?_eq_none_iff.mp none _ member
    cases this
  split
  · exact throw_inv inv past _
  rename_i here
  have unmerged := inv.posted.unmerged (inv.posted.chunks chunking)
  have count : completes s.log = 0 := by
    rw [completes,List.countP_eq_zero]
    intro event member
    cases event with
    | complete => exact absurd member unmerged
    | _ => simp
  exact postComplete_inv inv past (by rw [chunking]; rfl) (gather_done inv some chunking past fine here) count (by decide)

end

section
variable (inv : Inv cfg s)
include inv

theorem pollFrom_inv (late : isLate s.phase = true) (idle : ∀ stage ∈ s.workers,stage.over = true)
    (open' : isFinal s.phase = false) (attempt consecutiveFailures : Nat) : Inv cfg (pollFrom cfg s attempt consecutiveFailures) := by
  simp only [pollFrom]
  split
  · exact throw_inv inv idle _
  · split
    · exact throw_inv inv idle _
    · exact inv.goes (nofun) nofun (fun _ => late) idle (fun _ => open') trivial inv.progress

theorem completeReply_inv (at' : s.phase = .completing retry) (reply : Except Thrown Unit) :
    Inv cfg (completeReply cfg s retry reply) := by
  have idle := inv.posted.idle (by rw [at']; nofun)
  have late : isLate s.phase = true := by rw [at']; rfl
  have open' : isFinal s.phase = false := by rw [at']; rfl
  have requests := inv.posted.requests
  rw [at'] at requests
  obtain ⟨count,few⟩ := requests
  cases reply with
  | ok _ =>
    simp only [completeReply]
    split
    · exact throw_inv inv idle _
    · exact pollFrom_inv inv late idle open' 0 0
  | error err =>
    simp only [completeReply]
    split
    · exact throw_inv inv idle _
    · split
      · exact throw_inv inv idle _
      · split
        · exact throw_inv inv idle _
        · exact inv.goes (nofun) nofun (fun _ => late) idle (fun _ => open') ⟨count,by omega⟩ inv.progress

theorem pollReply_inv {attempt consecutiveFailures : Nat} (at' : s.phase = .polling attempt consecutiveFailures)
    (reply : Except Thrown MergeStatus) : Inv cfg (pollReply cfg s attempt consecutiveFailures reply) := by
  have idle := inv.posted.idle (by rw [at']; nofun)
  have late : isLate s.phase = true := by rw [at']; rfl
  have open' : isFinal s.phase = false := by rw [at']; rfl
  cases reply with
  | ok status =>
    cases status with
    | done result => exact inv.goes (nofun) nofun (nofun) idle (nofun) trivial inv.progress
    | error mergeError => exact throw_inv inv idle _
    | other => exact pollFrom_inv inv late idle open' _ _
  | error err =>
    simp only [pollReply]
    split
    · exact throw_inv inv idle _
    · split
      · exact throw_inv inv idle _
      · exact inv.goes (nofun) nofun (fun _ => late) idle (fun _ => open') trivial inv.progress

theorem wake_inv : Inv cfg (wake cfg s) := by
  cases at' : s.phase with
  | initWaiting attempt diskBudgetAttempts queued =>
    have idle := inv.posted.idle (by rw [at']; intro h; cases h)
    have requests := inv.posted.requests
    rw [at'] at requests
    obtain ⟨count,attempts,budget⟩ := requests
    have count' : inits (s.log ++ [.init]) = attempt + diskBudgetAttempts + 1 := by rw [inits_append,count]; rfl
    have posts (progress : ChunkUploadProgress) (reports : List ChunkUploadProgress) (kept : Progressed cfg progress reports) :
        Inv cfg { s with progress, reports, log := s.log ++ [.init], phase := .initiating attempt diskBudgetAttempts } :=
      inv.sends (.inl rfl) idle (fun _ => by rw [at']; rfl) (by intro h; cases h) (by intro h; cases h) (by rw [at']; rfl)
        (by rw [MOST]; omega) ⟨count',attempts,budget⟩ kept
    obtain ⟨progress,reports,eq,kept⟩ := reportWaiting_eq cfg s false
    cases queued with
    | true =>
      simp only [wake,at',eq]
      exact posts progress reports (kept inv.progress)
    | false =>
      simp only [wake,at']
      exact posts s.progress s.reports inv.progress
  | readWaiting attempt =>
    have few : inits (s.log ++ [.status]) ≤ MOST := by rw [inits_append]; exact inv.posted.fewInits
    simp only [wake,at']
    exact inv.sends (.inr rfl) (inv.posted.idle (by rw [at']; intro h; cases h)) (fun _ => by rw [at']; rfl) (by intro h; cases h) (by intro h; cases h)
      (by rw [at']; rfl) few trivial inv.progress
  | completeWaiting retry =>
    have requests := inv.posted.requests
    rw [at'] at requests
    simp only [wake,at']
    exact postComplete_inv inv (inv.posted.idle (by rw [at']; intro h; cases h)) (by rw [at']; rfl) (inv.posted.late (by rw [at']; rfl)).2
      requests.1 requests.2
  | pollWaiting attempt consecutiveFailures =>
    have few : inits (s.log ++ [.status]) ≤ MOST := by rw [inits_append]; exact inv.posted.fewInits
    simp only [wake,at']
    exact inv.sends (.inr rfl) (inv.posted.idle (by rw [at']; intro h; cases h)) (by intro h; cases h) (by intro h; cases h) (fun _ => by rw [at']; rfl)
      (by rw [at']; rfl) few trivial inv.progress
  | pollBackoff attempt consecutiveFailures =>
    simp only [wake,at']
    exact pollFrom_inv inv (by rw [at']; rfl) (inv.posted.idle (by rw [at']; intro h; cases h)) (by rw [at']; rfl) _ _
  | _ => simp only [wake,at']; exact inv

theorem cancelWait_inv : Inv cfg (cancelWait s) := by
  cases at' : s.phase with
  | initWaiting attempt diskBudgetAttempts queued =>
    have idle := inv.posted.idle (by rw [at']; nofun)
    obtain ⟨inv',workers⟩ := reportWaiting_inv inv false
    simp only [cancelWait,at']
    split
    · exact throw_inv inv' (by rw [workers]; exact idle) _
    · exact throw_inv inv idle _
  | readWaiting | completeWaiting => simp only [cancelWait,at']; exact throw_inv inv (inv.posted.idle (by rw [at']; nofun)) _
  | pollWaiting | pollBackoff => simp only [cancelWait,at']; exact throw_inv inv (inv.posted.idle (by rw [at']; nofun)) _
  | _ => simp only [cancelWait,at']; exact inv

end

/-! ### Workers -/

theorem Inv.chunking (inv : Inv cfg s) {stage : Stage} (found : s.workers[w]? = some stage) (works : stage.over = false) :
    s.phase = .chunking := by
  by_contra other
  rw [inv.posted.idle other stage (List.mem_of_getElem? found)] at works
  cases works

theorem aborted_grows {s' : State Signal Byte} (grows : ∀ signal ∈ s.scheduler.aborted,signal ∈ s'.scheduler.aborted)
    (gone : aborted cfg s = true) : aborted cfg s' = true := by
  simp only [aborted] at gone ⊢
  cases signal : cfg.signal with
  | none => rw [signal] at gone; cases gone
  | some signal' =>
    rw [signal] at gone
    simp only [Option.any_some,decide_eq_true_eq] at gone ⊢
    exact grows signal' gone

theorem release_aborted (gone : aborted cfg s = true) : aborted cfg (release s call) = true := by
  apply aborted_grows _ gone
  exact (UploadScheduler.grows_release s.scheduler call).aborted

theorem Inv.put (inv : Inv cfg s) {s' : State Signal Byte} {w : Nat} {old new : Stage} (found : s.workers[w]? = some old)
    (works : old.over = false) (phase' : s'.phase = s.phase) (merged' : s'.mergeTriggered = s.mergeTriggered)
    (pending' : s'.pendingIndices = s.pendingIndices) (workers' : s'.workers = s.workers.set w new)
    (log' : s'.log = s.log ∨ ∃ event,s'.log = s.log ++ [event] ∧
      ((∃ i body,event = .chunk i body) ∨ ∃ i body,event = .acknowledged i body))
    (tokens : ∀ {rest},Tokens s.scheduler s.mine (old :: rest) → Tokens s'.scheduler s'.mine (new :: rest))
    (work : ∀ {rest},Work cfg (aborted cfg s = true) s.pendingIndices s.nextIdx s.workerFailed (old :: rest) s.log →
      Work cfg (aborted cfg s' = true) s'.pendingIndices s'.nextIdx s'.workerFailed (new :: rest) s'.log)
    (kept : Progressed cfg s.progress s.reports → Progressed cfg s'.progress s'.reports) : Inv cfg s' := by
  have chunking := inv.chunking found works
  obtain ⟨before,crew⟩ := inv.work chunking
  obtain ⟨out,into⟩ := perm_replace (y := new) found
  have after := (work (before.perm out)).perm into.symm
  rw [← workers'] at after
  have posted := inv.posted
  rw [chunking] at posted
  refine ⟨?_,?_,fun _ => ⟨after,?_⟩,kept inv.progress⟩
  · rw [workers']
    exact (tokens (inv.tokens.perm out)).perm into.symm
  · rw [phase',chunking,merged']
    rcases log' with same | ⟨event,more,kind⟩
    · rw [same]; exact posted.works
    · rw [more]
      exact posted.chunk kind (more ▸ after.most) (more ▸ after.exact)
  · rw [workers',List.length_set,pending',crew]

theorem tryChunk_inv (inv : Inv cfg s) {old : Stage} (found : s.workers[w]? = some old) (works : old.over = false)
    (idle : callOf old = none) {nextIdx : Nat}
    (work : ∀ {rest new},Work cfg (aborted cfg s = true) s.pendingIndices s.nextIdx s.workerFailed (old :: rest) s.log →
      ((∃ call,new = .waiting index retryCount budgetRetryCount call) ∨ aborted cfg s = true ∧ new = .next) →
      Work cfg (aborted cfg s = true) s.pendingIndices nextIdx s.workerFailed (new :: rest) s.log)
    (kept : Progressed cfg s.progress s.reports → Progressed cfg progress reports) :
    Inv cfg (tryChunk cfg { s with nextIdx, progress, reports } w index retryCount budgetRetryCount) := by
  simp only [tryChunk]
  by_cases past : aborted cfg { s with nextIdx, progress, reports } = true
  · rw [if_pos past]
    refine inv.put found works rfl rfl rfl rfl (.inl rfl) ?_ ?_ kept
    · intro rest tokens
      exact tokens.idle rfl fun call has => by rw [idle] at has; cases has
    · intro rest before
      exact work before (.inr ⟨past,rfl⟩)
  · obtain ⟨grows,_⟩ := UploadScheduler.grows_acquire s.scheduler cfg.signal
    rw [if_neg past]
    refine inv.put found works rfl rfl rfl rfl (.inl rfl) ?_ ?_ kept
    · intro rest tokens
      exact tokens.acquire cfg.signal idle rfl rfl
    · intro rest before
      exact (work before (.inl ⟨s.scheduler.calls,rfl⟩)).later fun is => aborted_grows grows.aborted is

theorem runWorker_inv (inv : Inv cfg s) (found : s.workers[w]? = some .next) : Inv cfg (runWorker cfg s w) := by
  simp only [runWorker]
  by_cases failed : s.workerFailed = true
  · rw [if_pos failed]
    refine inv.put found rfl rfl rfl rfl rfl (.inl rfl) ?_ ?_ id
    · intro rest tokens
      exact tokens.idle rfl fun call has => by cases has
    · intro rest before
      exact before.finish (Nat.le_refl _) (.inl failed)
  · rw [if_neg failed]
    cases taken : s.pendingIndices[s.nextIdx]? with
    | none =>
      refine inv.put found rfl rfl rfl rfl rfl (.inl rfl) ?_ ?_ id
      · intro rest tokens
        exact tokens.idle rfl fun call has => by cases has
      · intro rest before
        exact before.finish (Nat.le_succ _) (.inr (List.getElem?_eq_none_iff.mp taken))
    | some index => exact tryChunk_inv inv found rfl rfl (fun before stage => before.take taken stage) id

theorem resume_inv (inv : Inv cfg s)
    (found : s.workers[w]? = some (.waiting index retryCount budgetRetryCount call)) (settled' : call ∈ settled s.scheduler.log) :
    Inv cfg (resume cfg s w index retryCount budgetRetryCount call) := by
  simp only [resume]
  by_cases granted : call ∈ grants s.scheduler.log
  · rw [if_pos granted]
    by_cases past : aborted cfg s = true
    · rw [if_pos past]
      refine inv.put found rfl rfl rfl rfl rfl (.inl rfl) ?_ ?_ id
      · intro rest tokens
        exact tokens.release rfl granted rfl
      · intro rest before
        exact (before.next rfl fun _ _ => .inl past).later release_aborted
    · rw [if_neg past]
      refine inv.put found rfl rfl rfl rfl rfl (.inr ⟨_,rfl,.inl ⟨_,_,rfl⟩⟩) ?_ ?_ id
      · intro rest tokens
        exact tokens.send rfl fun other has => by cases has; exact granted
      · intro rest before
        exact before.post rfl
  · rw [if_neg granted]
    refine inv.put found rfl rfl rfl rfl rfl (.inl rfl) ?_ ?_ id
    · intro rest tokens
      exact tokens.idle rfl fun other has => by cases has; exact ⟨settled',granted⟩
    · intro rest before
      exact before.fail cancelled

theorem retryChunk_some {err : Thrown} {timedOut : Bool} {jitter : Nat} {retryDelay : ℚ}
    {retryCount' budgetRetryCount' : Nat}
    (again : retryChunk err timedOut jitter retryCount budgetRetryCount = some (retryDelay,retryCount',budgetRetryCount'))
    (retries : retryCount ≤ MAX_RETRIES) (budget : budgetRetryCount ≤ MAX_DISK_BUDGET_RETRIES) :
    0 < retryDelay ∧ retryCount + budgetRetryCount + 1 = retryCount' + budgetRetryCount' ∧ retryCount' ≤ MAX_RETRIES ∧
      budgetRetryCount' ≤ MAX_DISK_BUDGET_RETRIES := by
  simp only [retryChunk] at again
  split at again
  · rename_i busy
    cases again
    refine ⟨?_,by omega,retries,busy.2⟩
    cases given : getUploadBudgetRetryAfterMs err with
    | none => norm_num
    | some ms => exact UploadErrors.getUploadBudgetRetryAfterMs_pos given
  · split at again
    · rename_i few
      cases again
      refine ⟨?_,by omega,few.2.2,budget⟩
      have grows : (0 : ℚ) < RETRY_BASE_DELAY * 2 ^ retryCount := mul_pos (by norm_num [RETRY_BASE_DELAY]) (by positivity)
      linarith
    · cases again

theorem chunkReply_inv (inv : Inv cfg s)
    (found : s.workers[w]? = some (.sending index retryCount budgetRetryCount call)) (jitter elapsed : Nat)
    (reply : Except (Thrown × Bool) Unit) : Inv cfg (chunkReply cfg s w index retryCount budgetRetryCount call jitter elapsed reply) := by
  have member := List.mem_of_getElem? found
  have granted : call ∈ grants s.scheduler.log := inv.tokens.given _ member call rfl
  obtain ⟨within,count,retries,budget⟩ := (inv.work (inv.chunking found rfl)).1.retried _ member
  cases reply with
  | ok _ =>
    obtain ⟨uploadedIndices,loadedBytes,progress,reports,eq,kept⟩ :=
      registerChunk_eq cfg ((release (s.send (.acknowledged index (cfg.blob index))) call).put w .next) index elapsed
    simp only [chunkReply,eq]
    refine inv.put found rfl rfl rfl rfl rfl (.inr ⟨_,rfl,.inr ⟨_,_,rfl⟩⟩) ?_ ?_ kept
    · intro rest tokens
      exact tokens.release rfl granted rfl
    · intro rest before
      have done : Done cfg (s.log ++ [.acknowledged index (cfg.blob index)]) index := .inr (List.mem_append_right _ (by simp))
      exact ((before.acknowledge within).next rfl fun i has => by cases has; exact .inr done).later release_aborted
  | error failure =>
    obtain ⟨err,timedOut⟩ := failure
    simp only [chunkReply]
    split
    · rename_i past
      refine inv.put found rfl rfl rfl rfl rfl (.inl rfl) ?_ ?_ id
      · intro rest tokens
        exact tokens.release rfl granted rfl
      · intro rest before
        exact (before.next rfl fun _ _ => .inl past.2).later release_aborted
    · cases again : retryChunk err timedOut jitter retryCount budgetRetryCount with
      | none =>
        refine inv.put found rfl rfl rfl rfl rfl (.inl rfl) ?_ ?_ id
        · intro rest tokens
          exact tokens.release rfl granted rfl
        · intro rest before
          exact (before.fail err).later release_aborted
      | some retry =>
        obtain ⟨retryDelay,retryCount',budgetRetryCount'⟩ := retry
        obtain ⟨pos,more,retries',budget'⟩ := retryChunk_some again retries budget
        simp only [if_neg pos.ne']
        have backs (progress : ChunkUploadProgress) (reports : List ChunkUploadProgress)
            (kept : Progressed cfg s.progress s.reports → Progressed cfg progress reports) (busy : Bool) :
            Inv cfg { (release s call).put w (.backing index retryCount' budgetRetryCount' busy) with progress, reports } := by
          refine inv.put found rfl rfl rfl rfl rfl (.inl rfl) ?_ ?_ kept
          · intro rest tokens
            exact tokens.release rfl granted rfl
          · intro rest before
            exact (before.back ⟨within,count.trans more,retries',budget'⟩).later release_aborted
        have reported : Progressed cfg s.progress s.reports →
            Progressed cfg { s.progress with retrying := some true } (s.reports ++ [{ s.progress with retrying := some true }]) :=
          fun kept => report_progressed kept kept.1
        obtain ⟨progress,reports,eq,kept⟩ :=
          reportWaiting_eq cfg (release (s.report { s.progress with retrying := some true }) call) true
        split
        · rw [eq]
          exact backs progress reports (fun before => kept (reported before)) _
        · exact backs _ _ reported _

section
variable (inv : Inv cfg s) (found : s.workers[w]? = some (.backing index retryCount budgetRetryCount budgetBusy))
include inv found

theorem wakeWorker_inv {budgetBusy : Bool} :
    Inv cfg (wakeWorker cfg s w index retryCount budgetRetryCount budgetBusy) := by
  have tries (progress : ChunkUploadProgress) (reports : List ChunkUploadProgress)
      (kept : Progressed cfg s.progress s.reports → Progressed cfg progress reports) :
      Inv cfg (tryChunk cfg { s with progress, reports } w index retryCount budgetRetryCount) := by
    apply tryChunk_inv inv found rfl rfl _ kept
    intro rest new before stage
    rcases stage with ⟨call,rfl⟩ | ⟨past,rfl⟩
    · exact before.retry
    · exact before.next rfl fun _ _ => .inl past
  obtain ⟨progress,reports,eq,kept⟩ := reportWaiting_eq cfg s false
  simp only [wakeWorker]
  split
  · rw [eq]
    exact tries _ _ fun before => report_progressed (s := { s with progress, reports }) (kept before) (kept before).1
  · exact tries _ _ fun before => report_progressed before before.1

theorem cancelWorker_inv {budgetBusy : Bool} : Inv cfg (cancelWorker s w budgetBusy) := by
  have fails (progress : ChunkUploadProgress) (reports : List ChunkUploadProgress)
      (kept : Progressed cfg s.progress s.reports → Progressed cfg progress reports) :
      Inv cfg (reject { s with progress, reports } w cancelled) := by
    refine inv.put found rfl rfl rfl rfl rfl (.inl rfl) ?_ ?_ kept
    · intro rest tokens
      exact tokens.idle rfl fun call has => by cases has
    · intro rest before
      exact before.fail cancelled
  obtain ⟨progress,reports,eq,kept⟩ := reportWaiting_eq cfg s false
  simp only [cancelWorker]
  split
  · rw [eq]
    exact fails progress reports kept
  · exact fails s.progress s.reports id

end

/-! ### Runs -/

theorem foreign_inv (inv : Inv cfg s) {label : UploadScheduler.Label Signal} (ok : UploadScheduler.Allowed s.scheduler label)
    (others : ∀ call ∈ s.mine,label ≠ .release call) : Inv cfg { s with scheduler := UploadScheduler.step s.scheduler label } := by
  obtain ⟨sound,full⟩ := UploadScheduler.step_sound ⟨inv.tokens.sound,inv.tokens.full⟩ ok
  by_cases back : ∃ call,label = .release call
  · obtain ⟨call,rfl⟩ := back
    have still : aborted cfg s = true → aborted cfg { s with scheduler := UploadScheduler.release s.scheduler call } = true := release_aborted
    exact ⟨inv.tokens.foreign (fun member => others call member rfl) ok,inv.posted,
      fun is => ⟨(inv.work is).1.later still,(inv.work is).2⟩,inv.progress⟩
  · have grows := UploadScheduler.grows_step s.scheduler fun call same => back ⟨call,same⟩
    exact ⟨inv.tokens.grow sound full grows,inv.posted,
      fun is => ⟨(inv.work is).1.later (aborted_grows grows.aborted),(inv.work is).2⟩,inv.progress⟩

theorem step_inv (some : 1 ≤ cfg.concurrency) (inv : Inv cfg s) {label : Label Signal} (ok : Allowed cfg s label) :
    Inv cfg (step cfg s label) := by
  cases label with
  | foreign label => exact foreign_inv inv ok.1 ok.2
  | initReply reply =>
    obtain ⟨attempt,diskBudgetAttempts,at'⟩ := ok
    simp only [step,at']
    exact initReply_inv inv at' reply
  | statusReply reply =>
    obtain ⟨⟨attempt,at'⟩,faithful⟩ := ok
    simp only [step,at']
    exact statusReply_inv inv at' reply fun uploaded same => by subst same; exact faithful
  | gather => exact gather_inv inv some ok.1 ok.2
  | completeReply reply =>
    obtain ⟨retry,at'⟩ := ok
    simp only [step,at']
    exact completeReply_inv inv at' reply
  | pollReply reply =>
    obtain ⟨attempt,consecutiveFailures,at'⟩ := ok
    simp only [step,at']
    exact pollReply_inv inv at' reply
  | abortReply =>
    obtain ⟨err,at'⟩ := ok
    simp only [step,at']
    exact inv.goes (nofun) nofun (nofun) (inv.posted.idle (by rw [at']; nofun)) (nofun)
      trivial inv.progress
  | wake => exact wake_inv inv
  | cancelWait => exact cancelWait_inv inv
  | run w => exact runWorker_inv inv ok
  | resume w =>
    obtain ⟨index,retryCount,budgetRetryCount,call,found,settled'⟩ := ok
    simp only [step,found]
    exact resume_inv inv found settled'
  | chunkReply w reply jitter elapsed =>
    obtain ⟨index,retryCount,budgetRetryCount,call,found⟩ := ok
    simp only [step,found]
    exact chunkReply_inv inv found jitter elapsed reply
  | wakeWorker w =>
    obtain ⟨index,retryCount,budgetRetryCount,budgetBusy,found⟩ := ok
    simp only [step,found]
    exact wakeWorker_inv inv found
  | cancelWorker w =>
    obtain ⟨⟨index,retryCount,budgetRetryCount,budgetBusy,found⟩,_⟩ := ok
    simp only [step,found]
    exact cancelWorker_inv inv found

theorem start_inv {scheduler : UploadScheduler.State Signal} (sound : UploadScheduler.Sound scheduler) (full : UploadScheduler.Full scheduler) :
    Inv cfg (start scheduler : State Signal Byte) where
  tokens := tokens_start sound full
  posted := {
    early := fun _ => ⟨rfl,rfl,fun _ => rfl⟩
    chunks := nofun
    late := nofun
    idle := nofun
    unmerged := fun _ => by simp [start]
    merged := nofun
    unfinished := fun _ => by simp [start]
    requests := ⟨rfl,Nat.zero_le _,Nat.zero_le _⟩
    fewInits := (by decide : 1 ≤ MOST)
    fewCompletes := Nat.zero_le _
    most := fun _ => Nat.zero_le _
    exact := fun i body member => by simp [start] at member
    justified := fun before after split => by
      have member : Event.complete ∈ (start scheduler : State Signal Byte).log := by rw [split]; simp
      simp [start] at member }
  work := nofun
  progress := ⟨Nat.zero_le _,nofun⟩

/-- The merge is asked for when the server has every chunk; a token is held for each chunk sent and
returned in the end; requests and reported bytes are bounded. -/
theorem chunks_merged {scheduler : UploadScheduler.State Signal} (some : 1 ≤ cfg.concurrency)
    (shared : Reachable UploadScheduler.step UploadScheduler.Allowed (UploadScheduler.constructor Signal) scheduler)
    (reach : Reachable (step cfg) (Allowed cfg) (start scheduler) s) :
    Justified cfg s.log ∧ (∀ i body,Event.chunk i body ∈ s.log ∨ Event.acknowledged i body ∈ s.log → i < cfg.totalChunks ∧
        body = (cfg.file.take (min ((i + 1) * cfg.chunkSize) cfg.file.length)).drop (i * cfg.chunkSize)) ∧
      (.abort ∈ s.log → .complete ∉ s.log) ∧
      (∀ call ∈ s.mine,call ∈ outstanding s.scheduler.log → ∃ stage ∈ s.workers,callOf stage = call) ∧
      (∀ result,s.phase = .settled result → ∀ call ∈ s.mine,call ∉ outstanding s.scheduler.log) ∧
      (inits s.log ≤ MOST ∧ (∀ i,sent i s.log ≤ MOST) ∧ completes s.log ≤ MAX_RETRIES) ∧
      s.progress.loadedBytes ≤ cfg.file.length ∧ ∀ report ∈ s.reports,report.loadedBytes ≤ cfg.file.length := by
  obtain ⟨sound,full⟩ := @reachable_invariant _ _ UploadScheduler.step UploadScheduler.Allowed _
    (fun s : UploadScheduler.State Signal => UploadScheduler.Sound s ∧ UploadScheduler.Full s) UploadScheduler.constructor_sound
    (fun _ _ inv ok => UploadScheduler.step_sound inv ok) scheduler shared
  have inv : Inv cfg s := reachable_invariant (start_inv sound full) (fun _ _ inv ok => step_inv some inv ok) reach
  have held : ∀ call ∈ s.mine,call ∈ outstanding s.scheduler.log → ∃ stage ∈ s.workers,callOf stage = call := by
    intro call member out
    obtain ⟨granted,still⟩ := mem_filter.mp out
    rcases inv.tokens.spent call member with has | ⟨_,back⟩
    · exact has
    · exact absurd (back granted) (of_decide_eq_true still)
  refine ⟨inv.posted.justified,fun i body member => ?_,fun abort complete => ?_,held,fun result at' call member out => ?_,
    ⟨inv.posted.fewInits,inv.posted.most,inv.posted.fewCompletes⟩,inv.progress⟩
  · obtain ⟨within,rfl⟩ := inv.posted.exact i body member
    refine ⟨within,?_⟩
    rw [Nat.succ_mul]
    rfl
  · cases merged : s.mergeTriggered with
    | true => exact inv.posted.merged merged abort
    | false => exact inv.posted.unmerged merged complete
  · obtain ⟨stage,works,has⟩ := held call member out
    have past := inv.posted.idle (by rw [at']; nofun) stage works
    have none : callOf stage = none := by cases stage <;> first | rfl | cases past
    rw [none] at has
    cases has

end

def exampleConfig : Config Nat Nat := ⟨2,[1,2,3],some 0,some 2⟩

def exampleRun : List (Label Nat) :=
  [Label.initReply (.ok "u"),.statusReply (.ok []),.run 0,.run 1,.resume 0,.resume 1,.chunkReply 0 (.ok ()) 0 0,
    .chunkReply 1 (.error ([⟨none,none,none,some ⟨some 500,none,none,none,none,none⟩,false⟩],false)) 7 0,.wakeWorker 1,.resume 1,
    .chunkReply 1 (.ok ()) 0 900,.run 0,.run 1,.gather,.completeReply (.ok ()),.wake,.pollReply (.ok (.done ⟨"f","name"⟩))]

theorem chunks_merged_run :
    Event.chunk 1 [3] ∈ (exampleRun.foldl (step exampleConfig) (start (UploadScheduler.constructor Nat))).log ∧
      Justified exampleConfig (exampleRun.foldl (step exampleConfig) (start (UploadScheduler.constructor Nat))).log := by
  have legal : Legal (step exampleConfig) (Allowed exampleConfig) (start (UploadScheduler.constructor Nat)) exampleRun := by
    refine ⟨⟨0,0,rfl⟩,⟨⟨0,rfl⟩,nofun⟩,rfl,rfl,⟨0,0,0,0,rfl,?_⟩,⟨1,0,0,1,rfl,?_⟩,⟨0,0,0,0,rfl⟩,
      ⟨1,0,0,1,rfl⟩,⟨1,1,0,false,?_⟩,⟨1,1,0,2,?_,?_⟩,⟨1,1,0,2,?_⟩,?_,?_,⟨?_,?_⟩,⟨0,?_⟩,?_,⟨0,0,?_⟩,trivial⟩ <;>
      first | decide +kernel | (unfold Allowed; decide +kernel)
  exact ⟨by decide +kernel,(chunks_merged (by decide) .start (reachable_run .start exampleRun legal)).1⟩

end Tgtc.ChunkedUploads
