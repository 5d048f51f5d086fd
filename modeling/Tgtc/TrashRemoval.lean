import Tgtc.Directory
import Tgtc.Maps
import Tgtc.RowLocks
import Tgtc.Runs

/-!
One file on its way into the trash, back out of it, and out of the table for good. Every statement of a request is a
step of its own; a transaction writes the row under its lock and is seen when it commits.
-/
namespace Tgtc.TrashRemoval
open Runs Maps RowLocks
open Directory (File Folder User Refusal check demand assertFileWritable assertForceDeletable seconds within
  FILE_DELETE_GRACE_MS FILE_DELETE_COOLDOWN_MS FILE_FORCE_DELETE_WAIT_MS)

inductive Call where
  | delete (user : User)
  /-- `deleteFile` of the administration -/
  | adminDelete (user : User)
  | restoreDelete (user : User)
  | softDeleteFolder (folderIds : List Nat) (byAdmin : Bool)
  | restoreFolder (folder : Folder) (folderIds : List Nat)
  | forceDelete (user : User)
  | sweepPendingDeletions

inductive Remover where
  | forceDelete (user : User)
  | sweep (now : Nat)

inductive Answer where
  | succeeded
  | refused (refusal : Refusal)
  | failed

/-- How far a request is. `basis` counts the restorations before the row was read that a removal relies on. -/
inductive Request where
  | delete (user : User)
  | adminDelete (user : User)
  /-- the transaction of `save`, which looks for the row first -/
  | saving (file : File)
  | updating (file found : File)
  | inserting (file : File)
  | restoreDelete (user : User)
  | restoreLocking
  | restoreUpdating
  | softDeleteFolder (folderIds : List Nat) (byAdmin : Bool) (now : Nat)
  | restoreFolder (folder : Folder) (folderIds : List Nat)
  | committing
  | restored
  | forceDelete (user : User)
  | forceLocking (user : User) (basis : Nat)
  | sweep (now : Nat)
  | stillPending (now : Nat)
  | sweepLocking (now : Nat)
  | removing (remover : Remover) (basis : Nat)
  | removed (remover : Remover) (basis : Nat)
  | closed (answer : Answer)

structure Removal where
  remover : Remover
  basis : Nat
  file : File
  time : Nat
  restored : Nat

structure State where
  file : Record File
  requests : List Request
  restored : Nat
  removals : List Removal
  now : Nat

def State.start (file : Option File) : State := ⟨⟨file,none⟩,[],0,[],0⟩

def State.call (s : State) : Call → Request
  | .delete user => .delete user
  | .adminDelete user => .adminDelete user
  | .restoreDelete user => .restoreDelete user
  | .softDeleteFolder folderIds byAdmin => .softDeleteFolder folderIds byAdmin s.now
  | .restoreFolder folder folderIds => .restoreFolder folder folderIds
  | .forceDelete user => .forceDelete user
  | .sweepPendingDeletions => .sweep s.now

def clock (now : Nat) : Directory.State := { Directory.State.start with now }

def Request.checked : Except Refusal Request → Request
  | .ok next => next
  | .error refusal => .closed (.refused refusal)

def delete (now : Nat) (row : Option File) (user : User) : Except Refusal Request := do
  let file ← demand row (.notFound "文件不存在")
  assertFileWritable file user
  if file.isDeleted && file.deletedByAdmin then
    check user.isAdmin (.forbidden "该文件由管理员删除，请联系管理员处理")
    return .forceDelete user
  else if file.isDeleted then return .closed .succeeded
  else
    let remaining := (file.deleteCooldownUntil.map fun t => t - now).getD 0
    check (remaining = 0) (.badRequest ("删除请求过于频繁，请 " ++ (seconds remaining).repr ++ " 秒后再试"))
    return .saving { file.trash now false with deleteCooldownUntil := some (now + FILE_DELETE_COOLDOWN_MS) }

def adminDelete (now : Nat) (row : Option File) (user : User) : Except Refusal Request := do
  let file ← demand row (.notFound "文件不存在")
  if file.isDeleted && file.deletedByAdmin then return .forceDelete user
  else return .saving { file.trash now true with deleteCooldownUntil := some (now + FILE_DELETE_COOLDOWN_MS) }

def restoreDelete (now : Nat) (row : Option File) (user : User) : Except Refusal Request := do
  let file ← demand (row.filter fun f => f.isDeleted) (.notFound "文件不存在或未被标记为删除")
  check file.deleteRequestedAt.isSome (.badRequest "该文件未处于待删除状态")
  check (!file.deletedByAdmin || user.isAdmin) (.forbidden "该文件由管理员删除，普通用户不可恢复。请联系管理员处理")
  assertFileWritable file user
  check (file.deleteScheduledAt.all fun t => now < t) (.badRequest "删除等待期已过，文件已永久删除")
  return .restoreLocking

def forceDelete (now : Nat) (row : Option File) (user : User) (basis : Nat) : Except Refusal Request := do
  let file ← demand row (.notFound "文件不存在")
  assertForceDeletable (clock now) file user
  assertFileWritable file user
  return .forceLocking user basis

/-- What a sweep that started at `now` may remove. -/
def pending (now : Nat) (file : File) : Bool :=
  file.isDeleted && file.deleteRequestedAt.isSome && file.deleteScheduledAt.any fun t => t ≤ now

/-- What `save` writes: the columns in which the entity is not like the row it has found. -/
def saved (mine found current : File) : File where
  id := current.id
  uploaderId := column mine.uploaderId found.uploaderId current.uploaderId
  folderId := column mine.folderId found.folderId current.folderId
  originalName := column mine.originalName found.originalName current.originalName
  status := column mine.status found.status current.status
  uploadVersion := column mine.uploadVersion found.uploadVersion current.uploadVersion
  isDeleted := column mine.isDeleted found.isDeleted current.isDeleted
  deletedByAdmin := column mine.deletedByAdmin found.deletedByAdmin current.deletedByAdmin
  deleteRequestedAt := column mine.deleteRequestedAt found.deleteRequestedAt current.deleteRequestedAt
  deleteScheduledAt := column mine.deleteScheduledAt found.deleteScheduledAt current.deleteScheduledAt
  deleteCooldownUntil := column mine.deleteCooldownUntil found.deleteCooldownUntil current.deleteCooldownUntil

structure Turn where
  file : Record File
  next : Request

section
variable (file : Record File) (n : Nat) (r : Request)

def abandoned (answer : Answer) : Turn := ⟨file.rollback n,.closed answer⟩

/-- An update of the rows that fit waits for the lock of one and sees the committed row, as no
transaction writes it twice. -/
def update (fits : File → Bool) (change : File → File) (next : Request) (otherwise : Turn) : Turn :=
  match file.committed.filter fits with
  | none => otherwise
  | some f => if file.blocked n then ⟨file,r⟩ else ⟨file.write n (some (change f)),next⟩

def select (fits : File → Bool) (next : File → Except Answer Request) (missing : Answer) : Turn :=
  match file.committed.filter fits with
  | none => abandoned file n missing
  | some f =>
    if file.blocked n then ⟨file,r⟩
    else match next f with
      | .ok r' => ⟨file.lock n,r'⟩
      | .error answer => abandoned file n answer

end

def everExpired : Answer := .refused (.badRequest "删除等待期已过，文件已永久删除")

def State.turn (s : State) (n : Nat) (r : Request) : Turn := match r with
  | .delete user => ⟨s.file,.checked (delete s.now s.file.committed user)⟩
  | .adminDelete user => ⟨s.file,.checked (adminDelete s.now s.file.committed user)⟩
  | .saving file => match s.file.committed with
    | some found => ⟨s.file,.updating file found⟩
    | none => ⟨s.file,.inserting file⟩
  | .updating file found =>
    if file = found then ⟨s.file,.committing⟩
    else update s.file n r (fun _ => true) (saved file found) .committing ⟨s.file,.committing⟩
  | .inserting file =>
    if s.file.blocked n then ⟨s.file,r⟩
    else match s.file.committed with
      | none => ⟨s.file.write n (some file),.committing⟩
      | some _ => abandoned s.file n .failed
  | .restoreDelete user => ⟨s.file,.checked (restoreDelete s.now s.file.committed user)⟩
  | .restoreLocking => select s.file n r File.isDeleted (fun _ => .ok .restoreUpdating) everExpired
  | .restoreUpdating =>
    update s.file n r File.isDeleted (fun f => { f.bringBack with deleteCooldownUntil := none }) .restored
      (abandoned s.file n everExpired)
  | .softDeleteFolder folderIds byAdmin now =>
    update s.file n r (fun f => within folderIds f.folderId && !f.isDeleted) (File.trash now byAdmin) .committing ⟨s.file,.committing⟩
  | .restoreFolder folder folderIds =>
    update s.file n r (fun f => within folderIds f.folderId && folder.batch f.deleteRequestedAt f.deleteScheduledAt)
      File.bringBack .restored ⟨s.file,.committing⟩
  | .committing | .restored => ⟨s.file.commit n,.closed .succeeded⟩
  | .forceDelete user => ⟨s.file,.checked (forceDelete s.now s.file.committed user s.restored)⟩
  | .forceLocking user basis =>
    select s.file n r (fun _ => true) (fun f => match assertFileWritable f user with
      | .ok _ => .ok (.removing (.forceDelete user) basis)
      | .error refusal => .error (.refused refusal)) (.refused (.notFound "文件不存在"))
  | .sweep now => ⟨s.file,if s.file.committed.any (pending now) then .stillPending now else .closed .succeeded⟩
  | .stillPending now => ⟨s.file,if s.file.committed.any (pending now) then .sweepLocking now else .closed .succeeded⟩
  | .sweepLocking now =>
    select s.file n r (fun _ => true)
      (fun f => if pending now f then .ok (.removing (.sweep now) s.restored) else .error .succeeded) .succeeded
  | .removing remover basis => if s.file.blocked n then ⟨s.file,r⟩ else ⟨s.file.write n none,.removed remover basis⟩
  | .removed _ _ => ⟨s.file.commit n,.closed .succeeded⟩
  | .closed answer => ⟨s.file,.closed answer⟩

def State.restores (s : State) (n : Nat) : Request → Bool
  | .restored => s.file.Holds n && s.file.committed.any File.isDeleted
  | _ => false

def State.removal (s : State) : Request → Option Removal
  | .removed remover basis => s.file.committed.map fun f => ⟨remover,basis,f,s.now,s.restored⟩
  | _ => none

inductive Label where
  | tick (ms : Nat)
  | call (c : Call)
  | run (n : Nat)
  | fail (n : Nat)

def State.run (s : State) (n : Nat) (r : Request) : State :=
  { s with
    file := (s.turn n r).file, requests := s.requests.set n (s.turn n r).next
    restored := if s.restores n r then s.restored + 1 else s.restored
    removals := s.removals ++ (s.removal r).toList }

def step (s : State) : Label → State
  | .tick ms => { s with now := s.now + ms }
  | .call c => { s with requests := s.requests ++ [s.call c] }
  | .run n => match s.requests[n]? with
    | some r => s.run n r
    | none => s
  | .fail n => match s.requests[n]? with
    | some (.closed _) | none => s
    | some _ => { s with file := s.file.rollback n, requests := s.requests.set n (.closed .failed) }

/-- The removal takes out what is in the trash and has not been brought back; what was deleted without
privileges has waited there. -/
def Sound (r : Removal) : Prop :=
  r.file.isDeleted = true ∧ r.basis = r.restored ∧ match r.remover with
    | .forceDelete user => user.isAdmin = false → r.file.deletedByAdmin = false ∧
        r.file.deleteRequestedAt.any (fun t => t + FILE_FORCE_DELETE_WAIT_MS ≤ r.time) = true
    | .sweep now => now ≤ r.time ∧ r.file.deleteScheduledAt.any (fun t => t ≤ now) = true

instance (r : Removal) : Decidable (Sound r) := by
  unfold Sound
  split <;> infer_instance

/-- The row still passes the checks of a forced deletion, and nothing has been brought back. -/
def Passes (s : State) (user : User) (basis : Nat) (file : File) : Prop :=
  assertForceDeletable (clock s.now) file user = .ok () ∧ (user.isAdmin = false → file.deleteRequestedAt ≠ none) ∧
    basis = s.restored

instance (s : State) (user : User) (basis : Nat) (file : File) : Decidable (Passes s user basis file) :=
  inferInstanceAs (Decidable (_ ∧ _ ∧ _))

/-- A forced deletion gets the lock only of a row that still passes its checks. -/
def Rechecked (s : State) : Label → Prop
  | .run n => ∀ r ∈ s.requests[n]?, ∀ f ∈ s.file.committed, match r with
    | .forceLocking user basis =>
      s.file.blocked n = false → assertFileWritable f user = .ok () → Passes s user basis f
    | _ => True
  | _ => True

instance (s : State) (l : Label) : Decidable (Rechecked s l) := by
  cases l with
  | run n =>
    unfold Rechecked
    refine @Option.decidableForallMem _ _ (fun r => @Option.decidableForallMem _ _ (fun f => ?_) _) _
    cases r <;> dsimp only <;> infer_instance
  | tick ms | call c | fail n => exact isTrue trivial

abbrev Reached (file : Option File) : State → Prop := Reachable step Rechecked (.start file)

section
variable {s t : State} {n m : Nat} {r : Request}

theorem check_iff {holds : Bool} {refusal : Refusal} {u : Unit} : check holds refusal = .ok u ↔ holds = true := by
  cases holds <;> simp [check]

theorem check_bind {A : Type} {holds : Bool} {refusal : Refusal} {next : Unit → Except Refusal A} {a : A} :
    (check holds refusal >>= next) = .ok a ↔ holds = true ∧ next () = .ok a := by
  cases holds with
  | true => exact ⟨fun taken => ⟨rfl,taken⟩,fun both => both.2⟩
  | false => exact ⟨nofun,fun both => nomatch both.1⟩

variable {user : User} {basis : Nat} {file : Record File} {fits : File → Bool} {row : Option File} {change : File → File} {otherwise : Turn} {f : File}

theorem forceDeletable_iff {file : File} {now : Nat} :
    assertForceDeletable (clock now) file user = .ok () ↔ file.isDeleted = true ∧ (user.isAdmin = false →
      file.deletedByAdmin = false ∧ ∀ t ∈ file.deleteRequestedAt, t + FILE_FORCE_DELETE_WAIT_MS ≤ now) := by
  unfold assertForceDeletable
  by_cases admin : user.isAdmin = true
  · simp [admin,check_iff]
  rw [if_neg admin,check_bind,check_bind,check_iff]
  cases requested : file.deleteRequestedAt with
  | none => simp [admin]
  | some t =>
    have waits : FILE_FORCE_DELETE_WAIT_MS ≤ now - t ↔ t + FILE_FORCE_DELETE_WAIT_MS ≤ now := by
      have positive : 0 < FILE_FORCE_DELETE_WAIT_MS := by decide
      omega
    simp [admin,clock,waits]

theorem sound_forceDelete {restored now : Nat} {file : File} :
    Sound ⟨.forceDelete user,basis,file,now,restored⟩ ↔ file.isDeleted = true ∧ basis = restored ∧ (user.isAdmin = false →
      file.deletedByAdmin = false ∧ file.deleteRequestedAt.any (fun t => t + FILE_FORCE_DELETE_WAIT_MS ≤ now) = true) :=
  Iff.rfl

theorem any_waited {requested : Option Nat} {wait now : Nat} :
    requested.any (fun t => t + wait ≤ now) = true ↔ requested ≠ none ∧ ∀ t ∈ requested, t + wait ≤ now := by
  cases requested <;> simp

theorem passes_sound {file : File} :
    Passes s user basis file ↔ Sound ⟨.forceDelete user,basis,file,s.now,s.restored⟩ := by
  rw [Passes,sound_forceDelete,forceDeletable_iff,any_waited]
  tauto

theorem sound_later {remover : Remover} {restored now later : Nat} {file : File} (after : now ≤ later)
    (sound : Sound ⟨remover,basis,file,now,restored⟩) : Sound ⟨remover,basis,file,later,restored⟩ := by
  cases remover with
  | forceDelete user =>
    obtain ⟨deleted,same,due⟩ := sound
    refine ⟨deleted,same,fun common => ⟨(due common).1,?_⟩⟩
    obtain ⟨known,waited⟩ := any_waited.mp (due common).2
    exact any_waited.mpr ⟨known,fun t requested => Nat.le_trans (waited t requested) after⟩
  | sweep started => exact ⟨sound.1,sound.2.1,Nat.le_trans sound.2.2.1 after,sound.2.2.2⟩

theorem update_moved {next : Request}
    (skips : file.Moved n otherwise.file) : file.Moved n (update file n r fits change next otherwise).file := by
  unfold update
  split
  · exact skips
  · by_cases blocked : file.blocked n = true
    · simpa [blocked] using .stays
    · simpa [blocked] using .writes _ (by simpa using blocked)

theorem select_moved {next : File → Except Answer Request} {missing : Answer} :
    file.Moved n (select file n r fits next missing).file := by
  unfold select
  split
  · exact .rollsBack
  next f _ =>
  by_cases blocked : file.blocked n = true
  · simpa [blocked] using .stays
  · cases given : next f with
    | ok r' => simpa [blocked] using .writes _ (by simpa using blocked)
    | error answer => simpa [blocked] using .rollsBack

theorem turn_moved (s : State) (n : Nat) (r : Request) : s.file.Moved n (s.turn n r).file := by
  cases r with
  | saving file => unfold State.turn; dsimp only; split <;> exact .stays
  | updating file found =>
    by_cases same : file = found
    · simpa [State.turn,same] using .stays
    · simpa [State.turn,same] using update_moved (r := .updating file found) (show s.file.Moved n s.file from .stays)
  | inserting file =>
    by_cases blocked : s.file.blocked n = true
    · simpa [State.turn,blocked] using .stays
    · cases row : s.file.committed with
      | none => simpa [State.turn,blocked,row] using .writes _ (by simpa using blocked)
      | some f => simpa [State.turn,blocked,row] using .rollsBack
  | restoreLocking => exact select_moved
  | restoreUpdating => exact update_moved .rollsBack
  | softDeleteFolder folderIds byAdmin now | restoreFolder folder folderIds => exact update_moved .stays
  | forceLocking user basis | sweepLocking now => exact select_moved
  | removing remover basis =>
    by_cases blocked : s.file.blocked n = true
    · simpa [State.turn,blocked] using .stays
    · simpa [State.turn,blocked] using .writes _ (by simpa using blocked)
  | committing | restored | removed remover basis => exact .commits
  | delete user | adminDelete user | restoreDelete user | forceDelete user | sweep now | stillPending now => exact .stays
  | closed answer => exact .stays

theorem turn_frame (s : State) (r : Request) (other : n ≠ m) (held : (s.turn n r).file.Holds m) :
    s.file.Holds m ∧ (s.turn n r).file = s.file := by
  have before := moved_held (turn_moved s n r) other held
  exact ⟨before,moved_other (turn_moved s n r) before other⟩

def Request.Fits (s : State) (n : Nat) : Request → Prop
  | .sweep now | .stillPending now | .sweepLocking now => now ≤ s.now
  | .restored => s.file.Holds n → s.file.committed ≠ none
  | .removing remover basis | .removed remover basis =>
    s.file.Holds n ∧ ∃ f, s.file.committed = some f ∧ Sound ⟨remover,basis,f,s.now,s.restored⟩
  | _ => True

/-- The restorations, up to the one that brings the row back. -/
def Request.Restoring : Request → Prop
  | .restoreDelete _ | .restoreLocking | .restoreUpdating | .restoreFolder _ _ | .restored => True
  | _ => False

structure Inv (s : State) : Prop where
  requests : ∀ (n : Nat) (r : Request), s.requests[n]? = some r → r.Fits s n
  removals : ∀ removal ∈ s.removals, Sound removal

theorem inv_start (file : Option File) : Inv (.start file) :=
  ⟨fun n r found => by simp [State.start] at found,fun r member => nomatch member⟩

theorem fits_later {later : Nat} (after : s.now ≤ later) (fits : r.Fits s n) : r.Fits { s with now := later } n := by
  cases r with
  | sweep now | stillPending now | sweepLocking now => exact Nat.le_trans fits after
  | restored => exact fits
  | removing remover basis | removed remover basis =>
    obtain ⟨held,f,row,sound⟩ := fits
    exact ⟨held,f,row,sound_later after sound⟩
  | _ => trivial

theorem fits_frame (time : t.now = s.now) (fits : r.Fits s n)
    (frame : t.file.Holds n → s.file.Holds n ∧ t.file.committed = s.file.committed)
    (locked : s.file.Holds n → t.file = s.file ∧ t.restored = s.restored) : r.Fits t n := by
  cases r with
  | sweep now | stillPending now | sweepLocking now => exact Nat.le_trans fits (Nat.le_of_eq time.symm)
  | restored =>
    intro held
    obtain ⟨before,row⟩ := frame held
    rw [row]
    exact fits before
  | removing remover basis | removed remover basis =>
    obtain ⟨held,f,row,sound⟩ := fits
    obtain ⟨same,count⟩ := locked held
    rw [Request.Fits,same,time,count]
    exact ⟨held,f,row,sound⟩
  | _ => trivial

theorem restores_holds (restores : s.restores n r = true) : r = .restored ∧ s.file.Holds n := by
  cases r with
  | restored => exact ⟨rfl,by simpa using (Bool.and_eq_true_iff.mp restores).1⟩
  | _ => cases restores

theorem run_others {r' : Request} (other : n ≠ m) (fits : r'.Fits s m) : r'.Fits (s.run n r) m := by
  refine fits_frame (s := s) (t := s.run n r) rfl fits (fun held => ?_) fun held => ⟨moved_other (turn_moved s n r) held other,?_⟩
  · obtain ⟨before,same⟩ := turn_frame s r other held
    exact ⟨before,congrArg Record.committed same⟩
  · refine if_neg fun restores => other ?_
    exact holds_unique (restores_holds restores).2 held

theorem checked_fits {result : Except Refusal Request} (each : ∀ next, result = .ok next → next.Fits t n) :
    (Request.checked result).Fits t n := by
  cases found : result with
  | ok next => exact each next found
  | error refusal => trivial

theorem update_fits {next : Request}
    (waits : (update file n r fits change next otherwise).file = file → r.Fits t n)
    (skips : file.committed.filter fits = none → otherwise.next.Fits t n)
    (takes : ∀ f, file.committed = some f → next.Fits t n) :
    (update file n r fits change next otherwise).next.Fits t n := by
  cases row : file.committed.filter fits with
  | none => simpa [update,row] using skips row
  | some f =>
    by_cases blocked : file.blocked n = true
    · simpa [update,row,blocked] using waits (by simp [update,row,blocked])
    · simpa [update,row,blocked] using takes f (Option.filter_eq_some_iff.mp row).1

theorem update_committed {next : Request}
    (skips : otherwise.file.committed = file.committed) :
    (update file n r fits change next otherwise).file.committed = file.committed := by
  unfold update
  split
  · exact skips
  · split <;> rfl

theorem select_fits {next : File → Except Answer Request} {missing : Answer}
    (waits : (select file n r fits next missing).file = file → r.Fits t n)
    (takes : ∀ f r', file.committed = some f → file.blocked n = false → next f = .ok r' →
      (select file n r fits next missing).file = file.lock n → r'.Fits t n) :
    (select file n r fits next missing).next.Fits t n := by
  cases row : file.committed.filter fits with
  | none => simp [select,row,abandoned,Request.Fits]
  | some f =>
    by_cases blocked : file.blocked n = true
    · simpa [select,row,blocked] using waits (by simp [select,row,blocked])
    cases given : next f with
    | error answer => simp [select,row,blocked,given,abandoned,Request.Fits]
    | ok r' =>
      have result : select file n r fits next missing = ⟨file.lock n,r'⟩ := by simp [select,row,blocked,given]
      rw [result]
      exact takes f r' (Option.filter_eq_some_iff.mp row).1 (by simpa using blocked) given (by rw [result])

theorem delete_fits {now : Nat} {next : Request} (taken : delete now row user = .ok next) :
    next.Fits t n := by
  obtain ⟨file,_,taken⟩ := Directory.bind_ok taken
  obtain ⟨_,_,taken⟩ := Directory.bind_ok taken
  split at taken
  · obtain ⟨_,_,taken⟩ := Directory.bind_ok taken
    cases taken
    trivial
  · split at taken
    · cases taken
      trivial
    · obtain ⟨_,_,taken⟩ := Directory.bind_ok taken
      cases taken
      trivial

theorem adminDelete_fits {now : Nat} {next : Request}
    (taken : adminDelete now row user = .ok next) : next.Fits t n := by
  obtain ⟨file,_,taken⟩ := Directory.bind_ok taken
  split at taken <;> cases taken <;> trivial

theorem restoreDelete_fits {now : Nat} {next : Request}
    (taken : restoreDelete now row user = .ok next) : next.Fits t n := by
  obtain ⟨file,_,taken⟩ := Directory.bind_ok taken
  obtain ⟨_,_,taken⟩ := Directory.bind_ok taken
  obtain ⟨_,_,taken⟩ := Directory.bind_ok taken
  obtain ⟨_,_,taken⟩ := Directory.bind_ok taken
  obtain ⟨_,_,taken⟩ := Directory.bind_ok taken
  cases taken
  trivial

theorem forceDelete_fits {now : Nat} {next : Request}
    (taken : forceDelete now row user basis = .ok next) : next.Fits t n := by
  obtain ⟨file,_,taken⟩ := Directory.bind_ok taken
  obtain ⟨_,_,taken⟩ := Directory.bind_ok taken
  obtain ⟨_,_,taken⟩ := Directory.bind_ok taken
  cases taken
  trivial

theorem pending_sound {now : Nat} (before : now ≤ s.now) (due : pending now f = true) :
    Sound ⟨.sweep now,s.restored,f,s.now,s.restored⟩ := by
  simp only [pending,Bool.and_eq_true] at due
  exact ⟨due.1.1,rfl,before,due.2⟩

theorem removing_fits {remover : Remover} (locks : t.file = s.file.lock n)
    (row : s.file.committed = some f) (sound : Sound ⟨remover,basis,f,t.now,t.restored⟩) :
    (Request.removing remover basis).Fits t n := by
  refine ⟨?_,f,?_,sound⟩
  · rw [locks]
    exact holds_lock.mpr rfl
  · rw [locks]
    exact row

theorem turn_fits (rechecked : Rechecked s (.run n)) (there : s.requests[n]? = some r) (fits : r.Fits s n) :
    (s.turn n r).next.Fits (s.run n r) n := by
  have counts : r ≠ .restored → (s.run n r).restored = s.restored :=
    fun other => if_neg fun restores => other (restores_holds restores).1
  have waits : (s.run n r).file = s.file → r ≠ .restored → r.Fits (s.run n r) n := fun same other =>
    fits_frame (s := s) (t := s.run n r) rfl fits (fun held => ⟨same ▸ held,congrArg Record.committed same⟩)
      fun held => ⟨same,counts other⟩
  cases r with
  | delete user => exact checked_fits fun next taken => delete_fits taken
  | adminDelete user => exact checked_fits fun next taken => adminDelete_fits taken
  | restoreDelete user => exact checked_fits fun next taken => restoreDelete_fits taken
  | forceDelete user => exact checked_fits fun next taken => forceDelete_fits taken
  | saving file => unfold State.turn; dsimp only; split <;> trivial
  | updating file found =>
    unfold State.turn
    dsimp only
    split
    · trivial
    · exact update_fits (fun _ => trivial) (fun _ => trivial) fun _ _ => trivial
  | inserting file =>
    unfold State.turn
    dsimp only
    split
    · trivial
    · split <;> trivial
  | restoreLocking => exact select_fits (fun _ => trivial) fun f r' _ _ given _ => by cases given; trivial
  | restoreUpdating =>
    refine update_fits (fun _ => trivial) (fun _ => trivial) fun f row held absent => ?_
    have same : (s.run n .restoreUpdating).file.committed = s.file.committed := update_committed (by simp [abandoned])
    rw [same,row] at absent
    cases absent
  | softDeleteFolder folderIds byAdmin now => exact update_fits (fun _ => trivial) (fun _ => trivial) fun _ _ => trivial
  | restoreFolder folder folderIds =>
    refine update_fits (fun _ => trivial) (fun _ => trivial) fun f row held absent => ?_
    have same : (s.run n (.restoreFolder folder folderIds)).file.committed = s.file.committed := update_committed rfl
    rw [same,row] at absent
    cases absent
  | committing | restored => trivial
  | forceLocking user basis =>
    refine select_fits (fun _ => trivial) fun f r' row unblocked given locks => ?_
    cases writable : assertFileWritable f user with
    | error refusal => simp [writable] at given
    | ok u =>
      simp only [writable,Except.ok.injEq] at given
      subst given
      have passes : Passes s user basis f := rechecked _ there f row unblocked writable
      refine removing_fits (s := s) (t := s.run n _) locks row ?_
      exact passes_sound.mp passes
  | sweep now | stillPending now => unfold State.turn; dsimp only; split <;> [exact fits; trivial]
  | sweepLocking now =>
    refine select_fits (fun same => waits same nofun) fun f r' row unblocked given locks => ?_
    split at given
    · next due =>
      cases given
      refine removing_fits (s := s) (t := s.run n _) locks row ?_
      exact pending_sound fits due
    · cases given
  | removing remover basis =>
    obtain ⟨held,f,row,sound⟩ := fits
    have result : s.turn n (.removing remover basis) = ⟨s.file.write n none,.removed remover basis⟩ := by
      simp [State.turn,not_blocked_of_holds held]
    have written : (s.run n (.removing remover basis)).file = s.file.write n none := congrArg Turn.file result
    rw [result]
    refine ⟨?_,f,?_,?_⟩
    · rw [written]; exact holds_write.mpr rfl
    · rw [written]; exact row
    · exact sound
  | removed remover basis | closed answer => trivial

theorem inv_step (inv : Inv s) (l : Label) (rechecked : Rechecked s l) : Inv (step s l) := by
  cases l with
  | tick ms =>
    exact ⟨fun n r found => fits_later (Nat.le_add_right _ _) (inv.requests n r found),inv.removals⟩
  | call c =>
    refine ⟨fun n r found => ?_,inv.removals⟩
    rcases at_of_append found with before | ⟨_,rfl⟩
    · exact fits_frame (s := s) (t := step s (.call c)) rfl (inv.requests n r before) (fun held => ⟨held,rfl⟩) fun _ => ⟨rfl,rfl⟩
    · cases c with
      | sweepPendingDeletions => exact Nat.le_refl _
      | _ => trivial
  | run n =>
    cases there : s.requests[n]? with
    | none => simpa [step,there] using inv
    | some r =>
      have taken : step s (.run n) = s.run n r := by simp [step,there]
      rw [taken]
      refine ⟨fun m r' found => ?_,fun removal member => ?_⟩
      · rcases at_of_set found with ⟨rfl,rfl⟩ | ⟨other,before⟩
        · exact turn_fits rechecked there (inv.requests m r there)
        · exact run_others (Ne.symm other) (inv.requests m r' before)
      · rcases List.mem_append.mp member with before | new
        · exact inv.removals removal before
        cases r with
        | removed remover basis =>
          obtain ⟨held,f,row,sound⟩ := inv.requests n _ there
          simp only [State.removal,row,Option.map_some,Option.toList_some,List.mem_singleton] at new
          rw [new]
          exact sound
        | _ => simp [State.removal] at new
  | fail n =>
    unfold step
    dsimp only
    split
    · exact inv
    · exact inv
    · refine ⟨fun m r' found => ?_,inv.removals⟩
      rcases at_of_set found with ⟨_,rfl⟩ | ⟨other,before⟩
      · trivial
      · refine fits_frame (s := s) rfl (inv.requests m r' before) (fun held => ?_) fun held => ⟨?_,rfl⟩
        · exact ⟨moved_held .rollsBack (Ne.symm other) held,committed_rollback⟩
        · exact moved_other .rollsBack held (Ne.symm other)

theorem reached_inv {file : Option File} (reach : Reached file s) : Inv s := reachable_invariant (inv_start file) (fun _ l inv ok => inv_step inv l ok) reach

theorem restoring_keeps_absent (fits : r.Fits s n) (restoring : r.Restoring) (absent : s.file.committed = none) :
    (s.run n r).file.committed = none := by
  cases r with
  | restoreDelete user => exact absent
  | restoreLocking => simp [State.run,State.turn,select,absent,abandoned]
  | restoreUpdating => exact (update_committed (by simp [abandoned])).trans absent
  | restoreFolder folder folderIds =>
    have same : (s.run n (.restoreFolder folder folderIds)).file.committed = s.file.committed := update_committed rfl
    exact same.trans absent
  | restored =>
    by_cases held : s.file.Holds n
    · exact absurd absent (fits held)
    · show (s.file.commit n).committed = none
      rw [commit_free held]
      exact absent
  | _ => exact restoring.elim

theorem step_run (there : s.requests[n]? = some r) : step s (.run n) = s.run n r := by simp [step,there]

theorem run_next (there : s.requests[n]? = some r) : (s.run n r).requests[n]? = some (s.turn n r).next := at_set there

theorem forceDelete_run (there : s.requests[n]? = some (.forceLocking user basis))
    (row : s.file.committed = some f) (unblocked : s.file.blocked n = false) (writable : assertFileWritable f user = .ok ()) :
    ([Label.run n,.run n,.run n].foldl step s).removals =
      s.removals ++ [⟨.forceDelete user,basis,f,s.now,s.restored⟩] := by
  have locks : s.turn n (.forceLocking user basis) = ⟨s.file.lock n,.removing (.forceDelete user) basis⟩ := by
    simp [State.turn,select,row,unblocked,writable,Option.filter_some]
  have first := run_next there
  have locked : (s.run n (.forceLocking user basis)).file = s.file.lock n := congrArg Turn.file locks
  rw [locks] at first
  have removes : (s.run n (.forceLocking user basis)).turn n (.removing (.forceDelete user) basis) =
      ⟨(s.file.lock n).write n none,.removed (.forceDelete user) basis⟩ := by
    have mine : (s.file.lock n).blocked n = false := not_blocked_of_holds (holds_lock.mpr rfl)
    simp [State.turn,locked,mine]
  have second := run_next first
  rw [removes] at second
  have written := congrArg Turn.file removes
  have kept : ((s.run n (.forceLocking user basis)).run n (.removing (.forceDelete user) basis)).file.committed = some f := by
    show ((s.run n (.forceLocking user basis)).turn n (.removing (.forceDelete user) basis)).file.committed = some f
    rw [written]
    exact row
  have taken : ((s.run n (.forceLocking user basis)).run n (.removing (.forceDelete user) basis)).removal
      (.removed (.forceDelete user) basis) = some ⟨.forceDelete user,basis,f,s.now,s.restored⟩ := by
    rw [State.removal,kept]
    rfl
  rw [List.foldl_cons,List.foldl_cons,List.foldl_cons,step_run there,step_run first,step_run second]
  show ((s.removals ++ []) ++ []) ++ Option.toList _ = _
  rw [taken,List.append_nil,List.append_nil]
  rfl

/-- What has been taken out for good was in the trash and its deletion not undone, a restoration makes
no row, and a forced deletion is sound exactly when the row still passes its checks. -/
theorem removed_only_from_trash {file : Option File} (reach : Reached file s) :
    (∀ removal ∈ s.removals, Sound removal) ∧
    (∀ n r, s.requests[n]? = some r → r.Restoring → s.file.committed = none → (step s (.run n)).file.committed = none) ∧
    ∀ n user basis f, s.requests[n]? = some (.forceLocking user basis) → s.file.committed = some f →
      s.file.blocked n = false → assertFileWritable f user = .ok () →
      ((∀ removal ∈ ([Label.run n,.run n,.run n].foldl step s).removals, Sound removal) ↔ Passes s user basis f) := by
  have inv := reached_inv reach
  refine ⟨inv.removals,fun n r there restoring absent => ?_,fun n user basis f there row unblocked writable => ?_⟩
  · rw [step_run there]
    exact restoring_keeps_absent (inv.requests n r there) restoring absent
  · rw [forceDelete_run there row unblocked writable,passes_sound]
    constructor
    · intro sound
      exact sound _ (List.mem_append_right _ (List.mem_singleton_self _))
    · intro sound removal member
      rcases List.mem_append.mp member with before | new
      · exact inv.removals removal before
      · rw [List.mem_singleton.mp new]
        exact sound

def ownFile : File := ⟨1,1,none,"a.txt",.ready,1,false,false,none,none,none⟩

def forcedDeletion : List Label :=
  [.call (.delete ⟨1,false⟩),.run 0,.run 0,.run 0,.run 0,.tick 60000,.call (.forceDelete ⟨1,false⟩),.run 1,.run 1,.run 1,.run 1]

theorem forced_deletion_from_trash : ∃ s, Reached (some ownFile) s ∧ s.removals.length = 1 ∧ ∀ removal ∈ s.removals, Sound removal :=
  have reach := reachable_run .start forcedDeletion (by decide +kernel)
  ⟨_,reach,by decide +kernel,(removed_only_from_trash reach).1⟩

def restoredMeanwhile : List Label :=
  [.call (.delete ⟨1,false⟩),.run 0,.run 0,.run 0,.run 0,.tick 60000,.call (.forceDelete ⟨1,false⟩),.run 1,
    .call (.restoreDelete ⟨1,false⟩),.run 2,.run 2,.run 2,.run 2,.run 1,.run 1,.run 1]

theorem restored_file_removed : ¬ ∀ s, Reachable step (fun _ _ => True) (.start (some ownFile)) s →
    ∀ removal ∈ s.removals, Sound removal := by
  intro holds
  have legal : Legal step (fun _ _ => True) (.start (some ownFile)) restoredMeanwhile := by decide +kernel
  exact absurd (holds _ (reachable_run .start restoredMeanwhile legal)) (by decide +kernel)

end
end Tgtc.TrashRemoval
