import Tgtc.ByteRange
import Tgtc.Runs

/-!
Tasks that verify files. A job of three attempts runs the task: it takes files, asks for each
whether it is still there, and writes the counts after every batch. What goes wrong in an attempt is
written to the task as its end.
-/
namespace Tgtc.FileVerification
open Runs

inductive Mode where
  | dryRun | apply
deriving DecidableEq

structure File where
  id : String
  size : Int
  telegramFileId : Option String
  telegramFilePath : Option String
  uploadVersion : Nat
  storageBackend : Option String
  storageAccountId : Option String
  storageObjectRef : Option String
deriving DecidableEq

structure FileVerifyStats where
  totalCandidates : Nat
  checked : Nat
  valid : Nat
  invalid : Nat
  emptyFileId : Nat
  temporaryFailure : Nat
  sizeMismatch : Nat
  backfilled : Nat
  markedError : Nat
deriving DecidableEq

def noStats : FileVerifyStats := ⟨0,0,0,0,0,0,0,0,0⟩

inductive FileUpdate where
  | error (id : String) (version : Nat) (reason : String)
  | path (id : String) (version : Nat) (telegramFilePath : String)

structure Progress where
  stats : FileVerifyStats
  updates : List FileUpdate

/-- `headObject` -/
inductive Head where
  | found (size : Option Int)
  | missing
  | failed

/-- `verifyFileExists` -/
inductive Probe where
  | found (size : Int) (path : String)
  | missing
  | failed

structure Calls where
  head : Head
  probe : Probe
  update : Except String Unit

def isRemoteStorageBackend (backend : Option String) : Bool := backend = some "s3" || backend = some "webdav" || backend = some "gdrive"

structure Config where
  hasRouter : Bool
  /-- The database driver answers a `bigint`, here the size of a file, as a number rather than as text. -/
  bigintAsNumber : Bool
  sanitizeSummary : String → String

def blank (text : Option String) : Bool := text.all fun t => ByteRange.trim t.toList = []

/-- The file is marked in mode `apply`. -/
def markError (mode : Mode) (file : File) (calls : Calls) (reason : String) (p : Progress) : Except String Progress :=
  match mode with
  | .dryRun => .ok p
  | .apply => do
    calls.update
    return {
      stats := { p.stats with markedError := p.stats.markedError + 1 }
      updates := p.updates ++ [.error file.id file.uploadVersion reason]
    }

def verifyNonTelegramFile (hasRouter : Bool) (mode : Mode) (file : File) (calls : Calls) (p : Progress) : Except String Progress :=
  let later : Progress := { p with stats := { p.stats with temporaryFailure := p.stats.temporaryFailure + 1 } }
  if !hasRouter || file.storageAccountId.getD "" = "" || file.storageObjectRef.getD "" = "" then .ok later
  else match calls.head with
    | .failed => .ok later
    | .found size =>
      let differs := size.any fun size => 0 < size && file.size ≠ size
      .ok { p with stats := { p.stats with
        sizeMismatch := p.stats.sizeMismatch + differs.toNat
        valid := p.stats.valid + 1
      } }
    | .missing => do
      let p ← markError mode file calls "存储对象不存在，已标记上传失败" p
      return { p with stats := { p.stats with invalid := p.stats.invalid + 1 } }

/-- One file of a batch. An update that throws after the file has been found is counted as a temporary failure. -/
def verifyFile (cfg : Config) (mode : Mode) (file : File) (calls : Calls) (p : Progress) : Except String Progress :=
  let p : Progress := { p with stats := { p.stats with checked := p.stats.checked + 1 } }
  if isRemoteStorageBackend file.storageBackend then verifyNonTelegramFile cfg.hasRouter mode file calls p
  else if blank file.telegramFileId then do
    let p ← markError mode file calls "Telegram 文件引用缺失，已标记上传失败" p
    return { p with stats := { p.stats with emptyFileId := p.stats.emptyFileId + 1 } }
  else match calls.probe with
    | .failed => .ok { p with stats := { p.stats with temporaryFailure := p.stats.temporaryFailure + 1 } }
    | .missing => do
      let p ← markError mode file calls "Telegram 文件不存在或已失效，已标记上传失败" p
      return { p with stats := { p.stats with invalid := p.stats.invalid + 1 } }
    | .found size path =>
      let differs := 0 < size && !(cfg.bigintAsNumber && file.size = size)
      let seen : FileVerifyStats := { p.stats with sizeMismatch := p.stats.sizeMismatch + differs.toNat }
      if mode = .apply ∧ blank file.telegramFilePath ∧ path ≠ "" then
        match calls.update with
        | .error _ => .ok { p with stats := { seen with temporaryFailure := seen.temporaryFailure + 1 } }
        | .ok _ => .ok {
            stats := { seen with backfilled := seen.backfilled + 1, valid := seen.valid + 1 }
            updates := p.updates ++ [.path file.id file.uploadVersion path]
          }
      else .ok { p with stats := { seen with valid := seen.valid + 1 } }

inductive Status where
  | queued | running | completed | failed
deriving DecidableEq

/-- `FILE_VERIFY_ACTIVE_STATUSES` -/
def Status.active : Status → Bool
  | .queued | .running => true
  | .completed | .failed => false

/-- A row; `checked` is its column `processed`. -/
structure FileVerifyTask where
  createdBy : String
  mode : Mode
  allReady : Bool
  limit : Nat
  concurrency : Nat
  isActive : Bool
  status : Status
  stats : FileVerifyStats
  errorSummary : Option String

structure CreateTask where
  mode : Option Mode
  allReady : Option Bool
  limit : Option Int
  concurrency : Option Int

def createTask (user : String) (dto : CreateTask) : FileVerifyTask where
  createdBy := user
  mode := if dto.mode = some .apply then .apply else .dryRun
  allReady := dto.allReady.getD false
  limit := (max 1 (min 2000 (dto.limit.getD 500))).toNat
  concurrency := (max 1 (min 8 (dto.concurrency.getD 4))).toNat
  isActive := true
  status := .queued
  stats := noStats
  errorSummary := none

def FileVerifyTask.write (row row' : FileVerifyTask) : FileVerifyTask := if row.status.active then row' else row

def FileVerifyTask.markStarted (row : FileVerifyTask) : FileVerifyTask := row.write { row with status := .running }

def FileVerifyTask.updateProgress (row : FileVerifyTask) (stats : FileVerifyStats) : FileVerifyTask := row.write { row with stats }

def FileVerifyTask.markCompleted (row : FileVerifyTask) (stats : FileVerifyStats) : FileVerifyTask :=
  row.write { row with status := .completed, isActive := false, stats }

def FileVerifyTask.markFailed (row : FileVerifyTask) (errorSummary : String) : FileVerifyTask :=
  row.write { row with status := .failed, isActive := false, errorSummary := some errorSummary }

/-- `attempts` of the job -/
def ATTEMPTS : Nat := 3

inductive Stage where
  /-- `markStarted` -/
  | starting
  | loading
  | selecting
  /-- The files of a batch that are not checked yet, the files after them, and what the batch has thrown. -/
  | checking (stats : FileVerifyStats) (batch rest : List File) (thrown : Option String)
  /-- `updateProgress` -/
  | saving (stats : FileVerifyStats) (rest : List File)
  /-- `markCompleted` -/
  | completing (stats : FileVerifyStats)
  /-- `markFailed`, of the processor -/
  | failing (message : String)
deriving DecidableEq

inductive Outcome where
  | ended | threw | crashed
deriving DecidableEq

structure State where
  row : FileVerifyTask
  stage : Option Stage
  outcomes : List Outcome
  updates : List FileUpdate
  audits : List FileVerifyStats

inductive Label where
  | deliver
  | go
  | select (candidates : List File)
  | check (calls : Calls)
  | fail (message : String) (written : Bool)
  | crash (written : Bool)

def Stage.write (cfg : Config) (row : FileVerifyTask) : Stage → FileVerifyTask
  | .starting => row.markStarted
  | .saving stats _ => row.updateProgress stats
  | .completing stats => row.markCompleted stats
  | .failing message => row.markFailed (cfg.sanitizeSummary message)
  | .loading | .selecting | .checking .. => row

def State.put (cfg : Config) (s : State) (stage : Stage) (written : Bool) : State :=
  { s with row := if written then stage.write cfg s.row else s.row }

def State.ends (s : State) (outcome : Outcome) : State := { s with stage := none, outcomes := s.outcomes ++ [outcome] }

def nextBatch (s : State) (stats : FileVerifyStats) (rest : List File) : State :=
  if rest = [] then { s with stage := some (.completing stats), audits := s.audits ++ [stats] }
  else { s with stage := some (.checking stats (rest.take s.row.concurrency) (rest.drop s.row.concurrency) none) }

def go (cfg : Config) (s : State) (stage : Stage) : State :=
  let s' := s.put cfg stage true
  match stage with
  | .starting => if s.row.status.active then { s' with stage := some .loading } else s'.ends .ended
  | .loading => { s' with stage := some .selecting }
  | .saving stats rest => nextBatch s' stats rest
  | .completing _ => s'.ends .ended
  | .failing _ => s'.ends .threw
  | .selecting | .checking .. => s

def select (s : State) (candidates : List File) : State :=
  let stats := { noStats with totalCandidates := candidates.length }
  if candidates = [] then { s with stage := some (.completing stats) } else nextBatch s stats candidates

def settle (s : State) (stats : FileVerifyStats) (batch rest : List File) (thrown : Option String) : State :=
  { s with stage := some (match batch,thrown with
    | [],none => .saving stats rest
    | [],some message => .failing message
    | _ :: _,_ => .checking stats batch rest thrown) }

def check (cfg : Config) (s : State) (stats : FileVerifyStats) (batch rest : List File) (thrown : Option String) (calls : Calls) : State :=
  match batch with
  | [] => s
  | file :: batch => match verifyFile cfg s.row.mode file calls ⟨stats,s.updates⟩ with
    | .ok p => settle { s with updates := p.updates } p.stats batch rest thrown
    | .error message => settle s stats batch rest (thrown.or (some message))

def fail (cfg : Config) (s : State) (stage : Stage) (message : String) (written : Bool) : State :=
  let s := s.put cfg stage written
  match stage with
  | .failing _ => s.ends .threw
  | _ => { s with stage := some (.failing message) }

def step (cfg : Config) (s : State) : Label → State
  | .deliver => { s with stage := some .starting }
  | .go => match s.stage with
    | some stage => go cfg s stage
    | none => s
  | .select candidates => select s candidates
  | .check calls => match s.stage with
    | some (.checking stats batch rest thrown) => check cfg s stats batch rest thrown calls
    | _ => s
  | .fail message written => match s.stage with
    | some stage => fail cfg s stage message written
    | none => s
  | .crash written => match s.stage with
    | some stage => (s.put cfg stage written).ends .crashed
    | none => s

def Stage.plain : Stage → Bool
  | .selecting | .checking .. => false
  | _ => true

def Stage.isChecking : Stage → Bool
  | .checking .. => true
  | _ => false

/-- At most `ATTEMPTS` deliveries, one after the other; a batch throws through the calls for its files. -/
def Allowed (s : State) : Label → Prop
  | .deliver => s.stage = none ∧ s.outcomes.length < ATTEMPTS
  | .go => ∃ stage ∈ s.stage,stage.plain = true
  | .select candidates => s.stage = some .selecting ∧ candidates.length ≤ s.row.limit ∧
      (s.row.allReady = false → ∀ file ∈ candidates,file.telegramFilePath.getD "" = "")
  | .check _ => ∃ stage ∈ s.stage,stage.isChecking = true
  | .fail _ _ => ∃ stage ∈ s.stage,stage.isChecking = false
  | .crash _ => s.stage.isSome = true

instance decidableAllowed (s : State) : ∀ l, Decidable (Allowed s l) := fun l => by
  cases l <;> unfold Allowed <;> infer_instance

def start (row : FileVerifyTask) : State := ⟨row,none,[],[],[]⟩

def Counted (stats : FileVerifyStats) : Prop :=
  stats.valid + stats.invalid + stats.emptyFileId + stats.temporaryFailure = stats.checked

def Counts (stats stats' : FileVerifyStats) : Prop :=
  stats'.totalCandidates = stats.totalCandidates ∧ stats'.checked = stats.checked + 1 ∧ (Counted stats → Counted stats')

variable {s : State} {cfg : Config} {stage : Stage} {row : FileVerifyTask} {calls : Calls} {mode : Mode} {file : File} {p p' : Progress} {l : Label} {updates : List FileUpdate} {stats : FileVerifyStats}

theorem markError_marks {reason : String}
    (marked : markError mode file calls reason p = .ok p') :
    ∃ n, p'.stats = { p.stats with markedError := n } := by
  cases mode with
  | dryRun => exact ⟨p.stats.markedError,by cases marked; rfl⟩
  | apply =>
    cases written : calls.update with
    | error message => simp [markError,written] at marked
    | ok _ =>
      simp [markError,written,bind,Except.bind,pure,Except.pure] at marked
      exact ⟨p.stats.markedError + 1,by rw [← marked]⟩

theorem markError_bind {reason : String} {count : Progress → Progress}
    (done : (do let p ← markError mode file calls reason p; return count p : Except String Progress) = .ok p') :
    ∃ q, (∃ n, q.stats = { p.stats with markedError := n }) ∧ p' = count q := by
  cases marked : markError mode file calls reason p with
  | error message => simp [marked] at done
  | ok q =>
    simp [marked,bind,Except.bind,pure,Except.pure] at done
    exact ⟨q,markError_marks marked,done.symm⟩

theorem verifyNonTelegramFile_counts {hasRouter : Bool}
    (done : verifyNonTelegramFile hasRouter mode file calls p = .ok p') :
    p'.stats.totalCandidates = p.stats.totalCandidates ∧ p'.stats.checked = p.stats.checked ∧
      p'.stats.valid + p'.stats.invalid + p'.stats.emptyFileId + p'.stats.temporaryFailure =
        p.stats.valid + p.stats.invalid + p.stats.emptyFileId + p.stats.temporaryFailure + 1 := by
  simp only [verifyNonTelegramFile] at done
  split at done
  · cases done; exact ⟨rfl,rfl,by simp only; omega⟩
  cases found : calls.head with
  | failed | found size => simp only [found] at done; cases done; exact ⟨rfl,rfl,by simp only; omega⟩
  | missing =>
    simp only [found] at done
    obtain ⟨q,⟨n,same⟩,rfl⟩ := markError_bind done
    exact ⟨by simp [same],by simp [same],by simp [same]; omega⟩

theorem verifyFile_counts
    (done : verifyFile cfg mode file calls p = .ok p') : Counts p.stats p'.stats := by
  simp only [verifyFile] at done
  split at done
  · obtain ⟨total,checked,sum⟩ := verifyNonTelegramFile_counts done
    dsimp only at checked sum
    exact ⟨total,checked,fun counted => by simp only [Counted] at counted ⊢; omega⟩
  · split at done
    · obtain ⟨q,⟨n,same⟩,rfl⟩ := markError_bind done
      exact ⟨by simp [same],by simp [same],fun counted => by simp only [Counted,same] at counted ⊢; omega⟩
    cases seen : calls.probe with
    | failed =>
      simp only [seen] at done
      cases done
      exact ⟨rfl,rfl,fun counted => by simp only [Counted] at counted ⊢; omega⟩
    | missing =>
      simp only [seen] at done
      obtain ⟨q,⟨n,same⟩,rfl⟩ := markError_bind done
      exact ⟨by simp [same],by simp [same],fun counted => by simp only [Counted,same] at counted ⊢; omega⟩
    | found size path =>
      simp only [seen] at done
      split at done
      · cases written : calls.update <;>
          (simp only [written] at done
           cases done
           exact ⟨rfl,rfl,fun counted => by simp only [Counted] at counted ⊢; omega⟩)
      · cases done
        exact ⟨rfl,rfl,fun counted => by simp only [Counted] at counted ⊢; omega⟩

structure FileVerifyTask.Sound (row : FileVerifyTask) : Prop where
  active : row.isActive = row.status.active
  counted : Counted row.stats
  bounded : row.stats.checked ≤ row.stats.totalCandidates

def Stage.Sound : Stage → Prop
  | .checking stats batch rest thrown =>
    thrown = none → Counted stats ∧ stats.checked + batch.length + rest.length = stats.totalCandidates
  | .saving stats rest => Counted stats ∧ stats.checked + rest.length = stats.totalCandidates
  | .completing stats => Counted stats ∧ stats.checked ≤ stats.totalCandidates
  | _ => True

theorem createTask_sound (user : String) (dto : CreateTask) : (createTask user dto).Sound := ⟨rfl,rfl,Nat.le_refl _⟩

theorem write_cases (cfg : Config) (row : FileVerifyTask) (stage : Stage) :
    stage.write cfg row = row ∨ (row.status.active = true ∧ match stage with
      | .starting => stage.write cfg row = { row with status := .running }
      | .saving stats _ => stage.write cfg row = { row with stats }
      | .completing stats => stage.write cfg row = { row with status := .completed, isActive := false, stats }
      | .failing message => stage.write cfg row =
        { row with status := .failed, isActive := false, errorSummary := some (cfg.sanitizeSummary message) }
      | _ => False) := by
  cases active : row.status.active with
  | false =>
    cases stage <;> simp [Stage.write,FileVerifyTask.markStarted,FileVerifyTask.updateProgress,FileVerifyTask.markCompleted,
      FileVerifyTask.markFailed,FileVerifyTask.write,active]
  | true =>
    cases stage <;> simp [Stage.write,FileVerifyTask.markStarted,FileVerifyTask.updateProgress,FileVerifyTask.markCompleted,
      FileVerifyTask.markFailed,FileVerifyTask.write,active]

theorem write_sound (sound : row.Sound) (carried : stage.Sound) :
    (stage.write cfg row).Sound := by
  rcases write_cases cfg row stage with same | ⟨active,written⟩
  · rw [same]; exact sound
  cases stage with
  | starting => rw [written]; exact ⟨by rw [sound.active,active]; rfl,sound.counted,sound.bounded⟩
  | saving stats rest => rw [written]; exact ⟨sound.active,carried.1,by have := carried.2; simp only; omega⟩
  | completing stats => rw [written]; exact ⟨rfl,carried.1,carried.2⟩
  | failing message => rw [written]; exact ⟨rfl,sound.counted,sound.bounded⟩
  | loading | selecting | checking => exact written.elim

theorem write_terminal (past : row.status.active = false) :
    stage.write cfg row = row := by
  rcases write_cases cfg row stage with same | ⟨active,_⟩
  · exact same
  · rw [past] at active; cases active

structure Sound (s : State) : Prop where
  row : s.row.Sound
  stage : ∀ stage ∈ s.stage,stage.Sound
  left : s.stage.isSome = true → s.outcomes.length < ATTEMPTS
  ended : Outcome.ended ∈ s.outcomes → s.row.status.active = false

theorem sound_start (sound : row.Sound) : Sound (start row) :=
  ⟨sound,fun _ none => by simp [start] at none,fun some => by simp [start] at some,fun ended => by simp [start] at ended⟩

theorem Sound.goes (sound : Sound s) {stage' : Stage} (at' : s.stage = some stage)
    {audits : List FileVerifyStats} (kept : row.Sound) (carried : stage'.Sound)
    (past : s.row.status.active = false → row.status.active = false) :
    Sound ⟨row,some stage',s.outcomes,updates,audits⟩ where
  row := kept
  stage other same := by cases same; exact carried
  left _ := sound.left (by rw [at']; rfl)
  ended ended := past (sound.ended ended)

theorem Sound.ends (sound : Sound s) {outcome : Outcome}
    {audits : List FileVerifyStats} {stage : Option Stage} (kept : row.Sound) (past : s.row.status.active = false → row.status.active = false)
    (ended : outcome = .ended → row.status.active = false) :
    Sound (State.ends ⟨row,stage,s.outcomes,updates,audits⟩ outcome) where
  row := kept
  stage other none := by simp [State.ends] at none
  left some := by simp [State.ends] at some
  ended member := by
    simp only [State.ends,List.mem_append,List.mem_singleton] at member
    rcases member with before | now
    · exact past (sound.ended before)
    · exact ended now.symm

theorem write_over (past : row.status.active = false) :
    (stage.write cfg row).status.active = false := by rw [write_terminal past]; exact past

theorem put_sound (cfg : Config) (written : Bool) (sound : Sound s) (at' : s.stage = some stage) :
    (s.put cfg stage written).row.Sound ∧ (s.row.status.active = false → (s.put cfg stage written).row.status.active = false) := by
  cases written with
  | false => exact ⟨sound.row,id⟩
  | true => exact ⟨write_sound sound.row (sound.stage stage at'),write_over⟩

section
variable (sound : Sound s) (at' : s.stage = some stage)
include sound at'

theorem nextBatch_sound {rest : List File} (kept : row.Sound) (past : s.row.status.active = false → row.status.active = false)
    (counted : Counted stats) (total : stats.checked + rest.length = stats.totalCandidates) : Sound (nextBatch { s with row } stats rest) := by
  simp only [nextBatch]
  by_cases none : rest = []
  · rw [if_pos none]
    exact sound.goes at' kept ⟨counted,by omega⟩ past
  rw [if_neg none]
  apply sound.goes at' kept _ past
  intro _
  have split : (rest.take row.concurrency).length + (rest.drop row.concurrency).length = rest.length := by
    rw [← List.length_append,List.take_append_drop]
  exact ⟨counted,by omega⟩

theorem go_sound (plain : stage.plain = true) : Sound (go cfg s stage) := by
  obtain ⟨kept,past⟩ := put_sound cfg true sound at'
  have carried := sound.stage stage at'
  cases stage with
  | starting =>
    simp only [go]
    split
    · exact sound.goes at' kept trivial past
    · rename_i inactive
      exact sound.ends kept past fun _ => past (by simpa using inactive)
  | loading => exact sound.goes at' kept trivial past
  | selecting | checking => cases plain
  | saving stats rest => exact nextBatch_sound sound at' kept past carried.1 carried.2
  | completing stats =>
    apply sound.ends kept past
    intro _
    rcases write_cases cfg s.row (.completing stats) with same | ⟨_,written⟩
    · cases active : s.row.status.active with
      | false => exact past active
      | true => simp [Stage.write,FileVerifyTask.markCompleted,FileVerifyTask.write,active] at same; rw [← same] at active; cases active
    · simp only [State.put,written]
      rfl
  | failing message => exact sound.ends kept past nofun

theorem settle_sound {batch rest : List File} {thrown : Option String}
    (carried : thrown = none → Counted stats ∧ stats.checked + batch.length + rest.length = stats.totalCandidates) :
    Sound (settle { s with updates } stats batch rest thrown) := by
  apply sound.goes at' sound.row _ id
  cases batch with
  | cons file batch => exact carried
  | nil => cases thrown with
    | none => exact ⟨(carried rfl).1,by have := (carried rfl).2; omega⟩
    | some message => trivial

end

theorem check_sound {batch rest : List File} {thrown : Option String}
    (sound : Sound s) (at' : s.stage = some (.checking stats batch rest thrown)) : Sound (check cfg s stats batch rest thrown calls) := by
  have carried := sound.stage _ at'
  cases batch with
  | nil => exact sound
  | cons file batch =>
    simp only [check]
    cases done : verifyFile cfg s.row.mode file calls ⟨stats,s.updates⟩ with
    | error message =>
      have thrown' : thrown.or (some message) ≠ none := by cases thrown <;> simp
      exact settle_sound sound at' fun none => absurd none thrown'
    | ok p =>
      apply settle_sound sound at'
      intro none
      obtain ⟨total,checked,counts⟩ := verifyFile_counts done
      obtain ⟨counted,all⟩ := carried none
      simp only [List.length_cons] at all checked total
      exact ⟨counts counted,by omega⟩

theorem step_sound (sound : Sound s) (ok : Allowed s l) : Sound (step cfg s l) := by
  cases l with
  | deliver =>
    refine ⟨sound.row,?_,fun _ => ok.2,sound.ended⟩
    intro stage same
    cases same
    trivial
  | go =>
    obtain ⟨stage,at',plain⟩ := ok
    simp only [step,Option.mem_def.mp at']
    exact go_sound sound at' plain
  | select candidates =>
    obtain ⟨at',_,_⟩ := ok
    simp only [step,select]
    split
    · exact sound.goes at' sound.row ⟨rfl,by simp [noStats]⟩ id
    · exact nextBatch_sound sound at' sound.row id rfl (by simp [noStats])
  | check calls =>
    obtain ⟨stage,at',checking⟩ := ok
    cases stage with
    | checking stats batch rest thrown => simp only [step,Option.mem_def.mp at']; exact check_sound sound at'
    | _ => cases checking
  | fail message written =>
    obtain ⟨stage,at',_⟩ := ok
    obtain ⟨kept,past⟩ := put_sound cfg written sound at'
    simp only [step,Option.mem_def.mp at']
    cases stage with
    | failing => exact sound.ends kept past nofun
    | _ => exact sound.goes at' kept trivial past
  | crash written =>
    obtain ⟨stage,at'⟩ := Option.isSome_iff_exists.mp ok
    obtain ⟨kept,past⟩ := put_sound cfg written sound at'
    simp only [step,at']
    exact sound.ends kept past nofun

/-- What a task is promised: it is failed by a delivery only if none is left and none has run to its end. -/
structure Survives (s : State) : Prop where
  row : s.row.Sound
  failed : s.row.status = .failed → .ended ∉ s.outcomes
  resumable : s.stage = none → s.outcomes.length < ATTEMPTS → s.row.status ≠ .failed

/-- The status in which a task has come to its end stays. -/
def Kept (s s' : State) : Prop := s.row.status.active = false → s'.row.status = s.row.status

def Label.written : Label → Bool
  | .go => true
  | .fail _ written | .crash written => written
  | _ => false

/-- `markFailed` goes through only for a task that has ended, or in the last delivery. -/
def Fit (s : State) (l : Label) : Prop :=
  ∀ message, s.stage = some (.failing message) → l.written = true → s.row.status.active = true → s.outcomes.length + 1 = ATTEMPTS

theorem nextBatch_row (s : State) (stats : FileVerifyStats) (rest : List File) : (nextBatch s stats rest).row = s.row := by
  simp only [nextBatch]
  split <;> rfl

theorem go_row (cfg : Config) (s : State) (stage : Stage) : (go cfg s stage).row = stage.write cfg s.row := by
  cases stage with
  | starting => simp only [go]; split <;> rfl
  | saving stats rest => exact nextBatch_row _ _ _
  | _ => rfl

theorem check_row (cfg : Config) (s : State) (stats : FileVerifyStats) (batch rest : List File) (thrown : Option String) (calls : Calls) :
    (check cfg s stats batch rest thrown calls).row = s.row := by
  cases batch with
  | nil => rfl
  | cons file batch => simp only [check]; split <;> rfl

theorem select_row (s : State) (candidates : List File) : (select s candidates).row = s.row := by
  simp only [select]
  split
  · rfl
  · exact nextBatch_row _ _ _

theorem step_row (at' : s.stage = some stage) (l : Label) :
    (step cfg s l).row = if l.written then stage.write cfg s.row else s.row := by
  cases l with
  | deliver => rfl
  | select candidates => exact select_row s candidates
  | check calls => simp only [step]; split; exact check_row ..; rfl
  | go => simp only [step,at']; exact go_row cfg s stage
  | fail message written => simp only [step,at']; cases stage <;> rfl
  | crash written => simp only [step,at']; rfl

theorem step_idle (at' : s.stage = none) (l : Label) : (step cfg s l).row = s.row := by
  cases l with
  | deliver => rfl
  | select candidates => exact select_row s candidates
  | _ => simp only [step,at']

theorem step_kept (cfg : Config) (s : State) (l : Label) : Kept s (step cfg s l) := by
  intro past
  cases at' : s.stage with
  | none => rw [step_idle at']
  | some stage => rw [step_row at',write_terminal past,ite_self]

theorem failing_ends (cfg : Config) {message : String} (at' : s.stage = some (.failing message))
    (ok : Allowed s l) :
    (step cfg s l).stage = none ∧ ∃ outcome,outcome ≠ .ended ∧ (step cfg s l).outcomes = s.outcomes ++ [outcome] := by
  cases l with
  | deliver => have idle := ok.1; rw [at'] at idle; cases idle
  | select => have selecting := ok.1; rw [at'] at selecting; cases selecting
  | check =>
    obtain ⟨stage,same,checking⟩ := ok
    rw [at'] at same
    cases same
    cases checking
  | go | fail => simp only [step,at']; exact ⟨rfl,.threw,by simp,rfl⟩
  | crash => simp only [step,at']; exact ⟨rfl,.crashed,by simp,rfl⟩

theorem write_failed (failed : (stage.write cfg row).status = .failed)
    (before : row.status ≠ .failed) : ∃ message,stage = .failing message ∧ row.status.active = true := by
  rcases write_cases cfg row stage with same | ⟨active,written⟩
  · rw [same] at failed; exact absurd failed before
  cases stage with
  | failing message => exact ⟨message,rfl,active⟩
  | starting => rw [written] at failed; cases failed
  | saving => rw [written] at failed; exact absurd failed before
  | completing => rw [written] at failed; cases failed
  | loading | selecting | checking => exact written.elim

/-- A task that has failed has used up its deliveries, none of which has run to its end. -/
def Last (s : State) : Prop := s.row.status = .failed → s.outcomes.length = ATTEMPTS ∧ .ended ∉ s.outcomes

theorem step_last (sound : Sound s) (last : Last s) (ok : Allowed s l) (fit : Fit s l) :
    Last (step cfg s l) := by
  intro failed
  cases at' : s.stage with
  | none =>
    rw [step_idle at'] at failed
    obtain ⟨used,_⟩ := last failed
    cases l with
    | deliver => have := ok.2; omega
    | select => have selecting := ok.1; rw [at'] at selecting; cases selecting
    | crash => rw [Allowed,at'] at ok; cases ok
    | _ => obtain ⟨_,some,_⟩ := ok; rw [at'] at some; cases some
  | some stage =>
    have left := sound.left (by rw [at']; rfl)
    have before : s.row.status ≠ .failed := fun failed => by have := (last failed).1; omega
    rw [step_row at'] at failed
    by_cases writes : l.written = true
    · rw [if_pos writes] at failed
      obtain ⟨message,rfl,active⟩ := write_failed failed before
      obtain ⟨_,outcome,other,outcomes⟩ := failing_ends cfg at' ok
      rw [outcomes]
      refine ⟨by simpa using fit message at' writes active,fun ended => ?_⟩
      rcases List.mem_append.mp ended with earlier | now
      · have := sound.ended earlier; rw [active] at this; cases this
      · exact other (List.mem_singleton.mp now).symm
    · rw [if_neg writes] at failed
      exact absurd failed before

theorem survives_of_last (sound : Sound s) (last : Last s) : Survives s :=
  ⟨sound.row,fun failed => (last failed).2,fun _ left failed => by have := (last failed).1; omega⟩

theorem fit_of_survives (sound : Sound s) (ok : Allowed s l) (survives : Survives (step cfg s l)) :
    Fit s l := by
  intro message at' writes active
  by_contra other
  obtain ⟨ended,outcome,_,outcomes⟩ := failing_ends cfg at' ok
  have left : s.outcomes.length < ATTEMPTS := sound.left (by rw [at']; rfl)
  apply survives.resumable ended
  · rw [outcomes,List.length_append,List.length_singleton]
    omega
  · rw [step_row at',if_pos writes]
    simp [Stage.write,FileVerifyTask.markFailed,FileVerifyTask.write,active]

/-- Over its deliveries a task is as promised exactly if no delivery before the last, when it throws, gets its task marked as failed. -/
theorem deliveries_survive (cfg : Config) (user : String) (dto : CreateTask) (labels : List Label)
    (legal : Legal (step cfg) Allowed (start (createTask user dto)) labels) :
    Throughout (step cfg) Survives Kept (start (createTask user dto)) labels ↔
      Legal (step cfg) Fit (start (createTask user dto)) labels := by
  have sound := sound_start (createTask_sound user dto)
  constructor
  · intro all
    exact fits_of_throughout (fun s l sound ok => step_sound sound ok)
      (fun s l sound ok survives => fit_of_survives sound ok survives) sound legal all
  · intro fit
    have base : Last (start (createTask user dto)) := nofun
    have survives : ∀ s,Sound s ∧ Last s → Survives s := fun s inv => survives_of_last inv.1 inv.2
    have keep : ∀ s l,Sound s ∧ Last s → Allowed s l → Fit s l → (Sound (step cfg s l) ∧ Last (step cfg s l)) ∧ Kept s (step cfg s l) :=
      fun s l inv ok fit => ⟨⟨step_sound inv.1 ok,step_last inv.1 inv.2 ok fit⟩,step_kept cfg s l⟩
    exact throughout_of_fits survives keep ⟨sound,base⟩ legal fit

def exampleConfig : Config := ⟨false,false,id⟩

def exampleTask : FileVerifyTask := createTask "admin" ⟨none,none,none,none⟩

def exampleResumed : List Label :=
  [Label.deliver,.go,.go,.fail "connection reset" false,.crash false,.deliver,.go,.go,
    .select [⟨"f",3,some "file",none,1,none,none,none⟩],.check ⟨.failed,.found 3 "documents/file",.ok ()⟩,.go,.go]

theorem deliveries_survive_resumed :
    Legal (step exampleConfig) Allowed (start exampleTask) exampleResumed ∧
      (exampleResumed.foldl (step exampleConfig) (start exampleTask)).row.status = .completed ∧
      Throughout (step exampleConfig) Survives Kept (start exampleTask) exampleResumed := by
  have legal : Legal (step exampleConfig) Allowed (start exampleTask) exampleResumed := by decide +kernel
  refine ⟨legal,by decide +kernel,(deliveries_survive exampleConfig "admin" ⟨none,none,none,none⟩ exampleResumed legal).mpr ?_⟩
  refine ⟨?_,?_,?_,?_,?_,?_,?_,?_,?_,?_,?_,?_,trivial⟩ <;> intro message failing written
  all_goals first | exact absurd written (by decide) | exact nomatch failing

def exampleJitter : List Label := [Label.deliver,.go,.go,.fail "connection reset" false,.go,.deliver,.go]

theorem deliveries_not_survived_jitter :
    Legal (step exampleConfig) Allowed (start exampleTask) exampleJitter ∧
      (exampleJitter.foldl (step exampleConfig) (start exampleTask)).row.status = .failed ∧
      (exampleJitter.foldl (step exampleConfig) (start exampleTask)).outcomes = [.threw,.ended] ∧
      ¬Throughout (step exampleConfig) Survives Kept (start exampleTask) exampleJitter := by
  refine ⟨by decide +kernel,by decide +kernel,by decide +kernel,fun all => ?_⟩
  obtain ⟨_,_,_,_,_,_,_,_,_,_,survives,_⟩ := all
  exact survives.resumable (by decide +kernel) (by decide +kernel) (by decide +kernel)

end Tgtc.FileVerification
