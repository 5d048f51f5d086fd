import Tgtc.Directory
import Tgtc.Maps
import Tgtc.MirrorRules
import Tgtc.Runs
import Tgtc.TrashRemoval

/-!
Remote objects that several files may refer to. A copy of a file refers to the same object; an overwritten file refers
to a new one; what has been taken out refers to none.
-/
namespace Tgtc.SharedObjects
open Runs Maps
open Directory (File User Refusal Status check demand assertFileWritable assertForceDeletable)
open TrashRemoval (clock pending)
open MirrorRules (trim)

inductive Backend where
  | telegram | s3 | webdav | gdrive

def Backend.isRemote : Backend → Bool
  | .telegram => false
  | _ => true

structure Storage where
  storageBackend : Backend
  storageAccountId : Option String
  storageObjectRef : Option String

abbrev Pair := String × String

def Storage.pair (t : Storage) : Option Pair := match t.storageAccountId, t.storageObjectRef with
  | some accountId, some objectRef => some (accountId,objectRef)
  | _, _ => none

structure Row extends File where
  storage : Storage

def marks (p : Pair) : List Pair := [p,(trim p.1,trim p.2)]

inductive Effect where
  | insert (copy : Row)
  | update (row : Row)
  | remove (id : Nat)

/-- What `applyOverwrite` is called with. -/
structure Overwrite where
  id : Nat
  user : User
  folderId : Option Nat
  originalName : String
  storage : Storage

inductive Task where
  | copyFile (ownerId fileId : Nat) (folderId : Option Nat) (copyName : String)
  | copyLocking (source copy : Row)
  | copyInserting (source copy : Row)
  | overwrite (params : Overwrite)
  | overwriteUpdating (params : Overwrite) (locked : Row)
  | forceDelete (id : Nat) (user : User)
  | forceLocking (file : Row) (user : User)
  | sweep (id now : Nat)
  | stillPending (file : Row) (now : Nat)
  | sweepLocking (file : Row) (now : Nat)
  | removing (file : Row)
  | committing (effect : Effect) (cleanup : Option Storage)
  /-- `cleanupNonTelegramObject` -/
  | cleanup (ref : Storage)
  | deleteRemoteObject (object : Pair)
  | closed

structure State where
  rows : Nat → Option Row
  locks : Nat → Option Nat
  nextId : Nat
  tasks : List Task
  deleted : List Pair
  used : List Pair
  known : List Pair
  now : Nat

def State.start : State := ⟨fun _ => none,fun _ => none,0,[],[],[],[],0⟩

def State.set (s : State) (n : Nat) (t : Task) : State := { s with tasks := s.tasks.set n t }

def State.put (s : State) (id : Nat) (row : Option Row) : State := { s with rows := fun i => if i = id then row else s.rows i }

def State.release (s : State) (n : Nat) : State := { s with locks := fun i => if s.locks i = some n then none else s.locks i }

def State.take (s : State) (n id : Nat) : State := { s with locks := fun i => if i = id then some n else s.locks i }

def State.know (s : State) (p : Option Pair) : State := { s with known := s.known ++ p.toList.flatMap marks }

def State.count (s : State) (p : Pair) : Nat :=
  (List.range s.nextId).countP fun id => (s.rows id).any fun row => row.storage.pair = some p

def copyOf (source : Row) (folderId : Option Nat) (copyName : String) : Row :=
  { source with
    folderId, originalName := copyName, status := .ready, uploadVersion := 1, isDeleted := false, deletedByAdmin := false
    deleteRequestedAt := none, deleteScheduledAt := none, deleteCooldownUntil := none }

def readySource (ownerId : Nat) (row : Row) : Bool := row.uploaderId = ownerId && !row.isDeleted

def copyFile (s : State) (ownerId fileId : Nat) (folderId : Option Nat) (copyName : String) : Task :=
  match (s.rows fileId).filter (readySource ownerId) with
  | none => .closed
  | some source => if source.status = .ready then .copyLocking source (copyOf source folderId copyName) else .closed

def unchanged (source current : Row) : Bool :=
  readySource source.uploaderId current && current.status = .ready && current.uploadVersion = source.uploadVersion

def overwritable (params : Overwrite) (locked : Row) : Bool :=
  !locked.isDeleted && locked.uploaderId = params.user.id && locked.folderId = params.folderId && locked.status ≠ .processing

def nextVersion (locked : Row) : Nat := (if locked.uploadVersion = 0 then 1 else locked.uploadVersion) + 1

def overwritten (params : Overwrite) (locked : Row) : Row :=
  { locked with originalName := params.originalName, uploadVersion := nextVersion locked, storage := params.storage }

def oldObject (params : Overwrite) (locked : Row) : Option Storage :=
  if locked.storage.storageBackend.isRemote && (locked.storage.storageObjectRef ≠ params.storage.storageObjectRef ||
      locked.storage.storageAccountId ≠ params.storage.storageAccountId) then some locked.storage
  else none

def Storage.object (ref : Storage) : Option Pair :=
  let accountId := trim (ref.storageAccountId.getD "")
  let objectRef := trim (ref.storageObjectRef.getD "")
  if ref.storageBackend.isRemote && accountId ≠ "" && objectRef ≠ "" then some (accountId,objectRef) else none

/-! ### Steps -/

def State.lock (s : State) (n id : Nat) (fits : Row → Bool) (next : Row → Task) : State := match s.rows id with
  | none => s.set n .closed
  | some row =>
    if s.locks id ≠ none then s
    else if fits row then (s.take n id).set n (next row)
    else s.set n .closed

def forceDeletable (s : State) (user : User) (row : Row) : Bool :=
  (assertForceDeletable (clock s.now) row.toFile user).toBool && (assertFileWritable row.toFile user).toBool

def afterwards : Option Storage → Task
  | some ref => .cleanup ref
  | none => .closed

def State.commit (s : State) (n : Nat) (effect : Effect) (ref : Option Storage) : State :=
  let ended := (s.set n (afterwards ref)).release n
  match effect with
  | .insert copy => { ended.put s.nextId (some { copy with id := s.nextId }) with nextId := s.nextId + 1 }
  | .update row => (ended.know row.storage.pair).put row.id (some row)
  | .remove id => ended.put id none

/-- The next statement of a task. -/
def State.run (s : State) (n : Nat) : Task → State
  | .copyFile ownerId fileId folderId copyName => s.set n (copyFile s ownerId fileId folderId copyName)
  | .copyLocking source copy => s.lock n source.id (unchanged source) fun _ => .copyInserting source copy
  | .copyInserting _ copy => s.set n (.committing (.insert copy) none)
  | .overwrite params => s.lock n params.id (overwritable params) (.overwriteUpdating params)
  | .overwriteUpdating params locked => s.set n (.committing (.update (overwritten params locked)) (oldObject params locked))
  | .forceDelete id user => match (s.rows id).filter (forceDeletable s user) with
    | some file => s.set n (.forceLocking file user)
    | none => s.set n .closed
  | .forceLocking file user => s.lock n file.id (fun row => (assertFileWritable row.toFile user).toBool) fun _ => .removing file
  | .sweep id now => match (s.rows id).filter (fun row => pending now row.toFile) with
    | some file => s.set n (.stillPending file now)
    | none => s.set n .closed
  | .stillPending file now =>
    s.set n (if (s.rows file.id).any (fun row => pending now row.toFile) then .sweepLocking file now else .closed)
  | .sweepLocking file now => s.lock n file.id (fun row => pending now row.toFile) fun _ => .removing file
  | .removing file => s.set n (.committing (.remove file.id) (some file.storage))
  | .committing effect cleanup => s.commit n effect cleanup
  | .cleanup ref => match ref.object with
    | some p => s.set n (if s.count p = 0 then .deleteRemoteObject p else .closed)
    | none => s.set n .closed
  | .deleteRemoteObject p => { s.set n .closed with deleted := s.deleted ++ [p] }
  | .closed => s

inductive Label where
  | tick (ms : Nat)
  | upload (row : Row)
  /-- another request writes a row: all of it but what it refers to and the version of that -/
  | touch (row : Row)
  | copyFile (ownerId fileId : Nat) (folderId : Option Nat) (copyName : String)
  | overwrite (params : Overwrite)
  | forceDelete (id : Nat) (user : User)
  | sweep (id : Nat)
  | run (n : Nat)
  | fail (n : Nat)

def State.call (s : State) (t : Task) : State := { s with tasks := s.tasks ++ [t] }

def State.use (s : State) (p : Option Pair) : State := { s with used := s.used ++ p.toList.flatMap marks }

def step (s : State) : Label → State
  | .tick ms => { s with now := s.now + ms }
  | .upload row => { ((s.use row.storage.pair).know row.storage.pair).put s.nextId (some { row with id := s.nextId }) with
      nextId := s.nextId + 1 }
  | .touch row => match s.rows row.id with
    | some current =>
      if s.locks row.id = none then
        s.put row.id (some { row with storage := current.storage, uploadVersion := current.uploadVersion })
      else s
    | none => s
  | .copyFile ownerId fileId folderId copyName => s.call (.copyFile ownerId fileId folderId copyName)
  | .overwrite params => (s.use params.storage.pair).call (.overwrite params)
  | .forceDelete id user => s.call (.forceDelete id user)
  | .sweep id => s.call (.sweep id s.now)
  | .run n => match s.tasks[n]? with
    | some t => s.run n t
    | none => s
  | .fail n => match s.tasks[n]? with
    | some _ => (s.set n .closed).release n
    | none => s

/-- Every upload yields what no upload has yielded before. -/
def Fresh (s : State) : Label → Prop
  | .upload row => ∀ p ∈ row.storage.pair, ∀ q ∈ marks p, q ∉ s.used
  | .overwrite params => ∀ p ∈ params.storage.pair, ∀ q ∈ marks p, q ∉ s.used
  | _ => True

instance (s : State) (l : Label) : Decidable (Fresh s l) := by
  cases l <;> unfold Fresh <;> infer_instance

abbrev Reached : State → Prop := Reachable step Fresh .start

section
variable {s s' : State} {n m id : Nat} {t t' : Task} {p q : Pair}

theorem mem_marks : p ∈ marks p := List.mem_cons_self

theorem object_marks {ref : Storage} (object : ref.object = some p) : ∃ q, ref.pair = some q ∧ p ∈ marks q := by
  obtain ⟨backend,accountId,objectRef⟩ := ref
  have blank : trim "" = "" := by decide
  cases accountId with
  | none => simp [Storage.object,blank] at object
  | some accountId =>
    cases objectRef with
    | none => simp [Storage.object,blank] at object
    | some objectRef =>
      refine ⟨(accountId,objectRef),rfl,?_⟩
      simp only [Storage.object,Option.ite_none_right_eq_some,Option.some.injEq] at object
      rw [← object.2]
      simp [marks]

theorem count_zero (ids : ∀ id row, s.rows id = some row → id < s.nextId) (none' : s.count p = 0) {row : Row}
    (there : s.rows id = some row) : row.storage.pair ≠ some p := by
  intro refers
  have absent := List.countP_eq_zero.mp none' id (List.mem_range.mpr (ids id row there))
  simp [there,refers] at absent

/-! ### What a task relies on -/

def Task.reserved : Task → Option Pair
  | .overwrite params | .overwriteUpdating params _ => params.storage.pair
  | .committing (.update row) _ => row.storage.pair
  | _ => none

def Task.cleans : Task → Option Storage
  | .forceLocking file _ | .stillPending file _ | .sweepLocking file _ | .removing file => some file.storage
  | .committing _ ref => ref
  | .cleanup ref => some ref
  | _ => none

def Sourced (s : State) (n : Nat) (copy : Row) : Prop :=
  ∃ id row, s.locks id = some n ∧ s.rows id = some row ∧ row.storage = copy.storage

def Known (s : State) (source : Row) : Prop :=
  source.id < s.nextId ∧ ∀ row, s.rows source.id = some row → source.uploadVersion ≤ row.uploadVersion ∧
    (source.uploadVersion = row.uploadVersion → row.storage = source.storage)

def Task.Fits (s : State) (n : Nat) : Task → Prop
  | .copyLocking source copy => copy.storage = source.storage ∧ Known s source
  | .copyInserting _ copy | .committing (.insert copy) _ => Sourced s n copy
  | .overwriteUpdating _ locked => s.locks locked.id = some n ∧ s.rows locked.id = some locked
  | .committing (.update row) _ =>
    s.locks row.id = some n ∧ ∃ old, s.rows row.id = some old ∧ old.uploadVersion < row.uploadVersion
  | .removing file => s.locks file.id = some n
  | .committing (.remove id) _ => s.locks id = some n
  | _ => True

/-- What somebody else does to the rows: a version belongs to one pair, and what is locked stays. -/
structure Keeps (s s' : State) (m : Nat) : Prop where
  next : s.nextId ≤ s'.nextId
  rows : ∀ id < s.nextId, ∀ row', s'.rows id = some row' → ∃ row, s.rows id = some row ∧
    row.uploadVersion ≤ row'.uploadVersion ∧ (row.uploadVersion = row'.uploadVersion → row'.storage = row.storage)
  locked : ∀ id, s.locks id = some m → s'.locks id = some m ∧ s'.rows id = s.rows id

theorem keeps_rows (next : s'.nextId = s.nextId) (rows : s'.rows = s.rows)
    (locks : ∀ id, s.locks id = some m → s'.locks id = some m) : Keeps s s' m :=
  ⟨next.ge,fun id _ row found => ⟨row,rows ▸ found,Nat.le_refl _,fun _ => rfl⟩,fun id held => ⟨locks id held,by rw [rows]⟩⟩

theorem fits_keeps (keeps : Keeps s s' m) (fits : t.Fits s m) : t.Fits s' m := by
  have sourced : ∀ copy, Sourced s m copy → Sourced s' m copy := by
    intro copy ⟨id,row,held,there,same⟩
    obtain ⟨held',there'⟩ := keeps.locked id held
    exact ⟨id,row,held',there'.trans there,same⟩
  cases t with
  | copyLocking source copy =>
    obtain ⟨same,old,known⟩ := fits
    refine ⟨same,Nat.lt_of_lt_of_le old keeps.next,fun row' found => ?_⟩
    obtain ⟨row,there,grown,kept⟩ := keeps.rows source.id old row' found
    obtain ⟨before,alike⟩ := known row there
    refine ⟨Nat.le_trans before grown,fun equal => ?_⟩
    rw [kept (by omega)]
    exact alike (by omega)
  | copyInserting source copy => exact sourced copy fits
  | overwriteUpdating params locked =>
    obtain ⟨held,there⟩ := keeps.locked locked.id fits.1
    exact ⟨held,there.trans fits.2⟩
  | removing file => exact (keeps.locked file.id fits).1
  | committing effect ref =>
    cases effect with
    | insert copy => exact sourced copy fits
    | update row =>
      obtain ⟨held,there⟩ := keeps.locked row.id fits.1
      exact ⟨held,fits.2.imp fun old both => ⟨there.trans both.1,both.2⟩⟩
    | remove id => exact (keeps.locked id fits).1
  | _ => trivial

def Doomed (s : State) (p : Pair) : Prop := p ∈ s.deleted ∨ ∃ n : Nat, s.tasks[n]? = some (Task.deleteRemoteObject p)

structure Unreferred (s : State) (p : Pair) : Prop where
  known : p ∈ s.known
  rows : ∀ id row, s.rows id = some row → row.storage.pair ≠ some p
  copies : ∀ (n : Nat) (copy : Row) (ref : Option Storage), s.tasks[n]? = some (Task.committing (.insert copy) ref) → copy.storage.pair ≠ some p

structure Inv (s : State) : Prop where
  ids : ∀ id row, s.rows id = some row → row.id = id ∧ id < s.nextId
  locks : ∀ id n, s.locks id = some n → id < s.nextId
  fits : ∀ (n : Nat) (t : Task), s.tasks[n]? = some t → t.Fits s n
  rowsKnown : ∀ id row, s.rows id = some row → ∀ p ∈ row.storage.pair, marks p ⊆ s.known
  cleansKnown : ∀ (n : Nat) (t : Task), s.tasks[n]? = some t → ∀ ref ∈ t.cleans, ∀ p ∈ ref.pair, marks p ⊆ s.known
  knownUsed : s.known ⊆ s.used
  reserved : ∀ (n : Nat) (t : Task), s.tasks[n]? = some t → ∀ p ∈ t.reserved, marks p ⊆ s.used ∧ p ∉ s.known
  apart : ∀ (n m : Nat) (t u : Task), n ≠ m → s.tasks[n]? = some t → s.tasks[m]? = some u → ∀ p ∈ t.reserved, ∀ q ∈ u.reserved, q ∉ marks p
  doomed : ∀ p, Doomed s p → Unreferred s p

theorem inv_start : Inv .start where
  ids _ _ there := nomatch there
  locks _ _ held := nomatch held
  fits _ _ there := nomatch there
  rowsKnown _ _ there := nomatch there
  cleansKnown _ _ there := nomatch there
  knownUsed _ member := nomatch member
  reserved _ _ there := nomatch there
  apart _ _ _ _ _ there := nomatch there
  doomed _ gone := gone.elim (nofun) fun ⟨_,there⟩ => nomatch there

theorem inv_rows (inv : Inv s) (tasks : s'.tasks = s.tasks) (deleted : s'.deleted = s.deleted) (used : s'.used = s.used)
    (known : s'.known = s.known) (keeps : ∀ m, Keeps s s' m)
    (ids : ∀ id row, s'.rows id = some row → row.id = id ∧ id < s'.nextId)
    (locks : ∀ id n, s'.locks id = some n → id < s'.nextId)
    (rowsKnown : ∀ id row, s'.rows id = some row → ∀ p ∈ row.storage.pair, marks p ⊆ s.known)
    (unreferred : ∀ p, Doomed s p → ∀ id row, s'.rows id = some row → row.storage.pair ≠ some p) : Inv s' where
  ids := ids
  locks := locks
  fits n t there := fits_keeps (keeps n) (inv.fits n t (tasks ▸ there))
  rowsKnown id row there p refers := known ▸ rowsKnown id row there p refers
  cleansKnown n t there := known ▸ inv.cleansKnown n t (tasks ▸ there)
  knownUsed := by rw [known,used]; exact inv.knownUsed
  reserved n t there p mine := by rw [known,used]; exact inv.reserved n t (tasks ▸ there) p mine
  apart n m t u other there there' := inv.apart n m t u other (tasks ▸ there) (tasks ▸ there')
  doomed p gone := by
    have before : Doomed s p := by simpa [Doomed,deleted,tasks] using gone
    exact ⟨known ▸ (inv.doomed p before).known,unreferred p before,fun n copy ref there =>
      (inv.doomed p before).copies n copy ref (tasks ▸ there)⟩

section
variable (inv : Inv s) (there : s.tasks[n]? = some t) (fits : t'.Fits s n) (reserved : ∀ p ∈ t'.reserved, p ∈ t.reserved)
include inv there fits reserved

theorem inv_set (cleans : ∀ ref ∈ t'.cleans, ∀ p ∈ ref.pair, marks p ⊆ s.known)
    (copies : ∀ copy ref, t' = .committing (.insert copy) ref → ∀ p, Doomed s p → copy.storage.pair ≠ some p)
    (deletes : ∀ p, t' = .deleteRemoteObject p → Unreferred s p) : Inv (s.set n t') where
  ids := inv.ids
  locks := inv.locks
  fits m u found := by
    have keeps : ∀ k, Keeps s (s.set n t') k := fun k => keeps_rows rfl rfl fun _ held => held
    rcases at_of_set found with ⟨rfl,rfl⟩ | ⟨_,before⟩
    · exact fits_keeps (keeps _) fits
    · exact fits_keeps (keeps _) (inv.fits m u before)
  rowsKnown := inv.rowsKnown
  cleansKnown m u found := by
    rcases at_of_set found with ⟨_,rfl⟩ | ⟨_,before⟩
    · exact cleans
    · exact inv.cleansKnown m u before
  knownUsed := inv.knownUsed
  reserved m u found p mine := by
    rcases at_of_set found with ⟨_,rfl⟩ | ⟨_,before⟩
    · exact inv.reserved n t there p (reserved p mine)
    · exact inv.reserved m u before p mine
  apart k m u v other found found' p mine q yours := by
    rcases at_of_set found with ⟨rfl,rfl⟩ | ⟨_,before⟩ <;> rcases at_of_set found' with ⟨rfl,rfl⟩ | ⟨_,before'⟩
    · exact absurd rfl other
    · exact inv.apart _ _ _ _ other there before' p (reserved p mine) q yours
    · exact inv.apart _ _ _ _ other before there p mine q (reserved q yours)
    · exact inv.apart _ _ _ _ other before before' p mine q yours
  doomed p gone := by
    have unreferred : Unreferred s p ∧ ∀ copy ref, t' = .committing (.insert copy) ref → copy.storage.pair ≠ some p := by
      rcases gone with member | ⟨m,found⟩
      · exact ⟨inv.doomed p (.inl member),fun copy ref same => copies copy ref same p (.inl member)⟩
      · rcases at_of_set found with ⟨_,rfl⟩ | ⟨_,before⟩
        · exact ⟨deletes p rfl,fun copy ref same => nomatch same⟩
        · exact ⟨inv.doomed p (.inr ⟨m,before⟩),fun copy ref same => copies copy ref same p (.inr ⟨m,before⟩)⟩
    refine ⟨unreferred.1.known,unreferred.1.rows,fun m copy ref found => ?_⟩
    rcases at_of_set found with ⟨_,same⟩ | ⟨_,before⟩
    · exact unreferred.2 copy ref same.symm
    · exact unreferred.1.copies m copy ref before

theorem inv_idle (cleans : ∀ ref ∈ t'.cleans, ref ∈ t.cleans) (copies : ∀ copy ref, t' ≠ .committing (.insert copy) ref)
    (deletes : ∀ p, t' ≠ .deleteRemoteObject p) : Inv (s.set n t') :=
  inv_set inv there fits reserved (fun ref member => inv.cleansKnown n t there ref (cleans ref member))
    (fun copy ref same => absurd same (copies copy ref)) fun p same => absurd same (deletes p)

end

theorem inv_closed (inv : Inv s) (there : s.tasks[n]? = some t) : Inv (s.set n .closed) :=
  inv_idle inv there trivial (by simp [Task.reserved]) (by simp [Task.cleans]) (by simp) (by simp)

theorem inv_call (inv : Inv s) (fits : t.Fits s s.tasks.length) (cleans : t.cleans = none)
    (copies : ∀ copy ref, t ≠ .committing (.insert copy) ref) (deletes : ∀ p, t ≠ .deleteRemoteObject p)
    (reserved : ∀ p ∈ t.reserved, marks p ⊆ s.used ∧ p ∉ s.known ∧ ∀ (m : Nat) (u : Task), s.tasks[m]? = some u →
      ∀ q ∈ u.reserved, q ∉ marks p ∧ p ∉ marks q) : Inv (s.call t) where
  ids := inv.ids
  locks := inv.locks
  fits m u found := by
    have keeps : ∀ k, Keeps s (s.call t) k := fun k => keeps_rows rfl rfl fun _ held => held
    rcases at_of_append found with before | ⟨rfl,rfl⟩
    · exact fits_keeps (keeps _) (inv.fits m u before)
    · exact fits_keeps (keeps _) fits
  rowsKnown := inv.rowsKnown
  cleansKnown m u found := by
    rcases at_of_append found with before | ⟨_,rfl⟩
    · exact inv.cleansKnown m u before
    · simp [cleans]
  knownUsed := inv.knownUsed
  reserved m u found p mine := by
    rcases at_of_append found with before | ⟨_,rfl⟩
    · exact inv.reserved m u before p mine
    · exact ⟨(reserved p mine).1,(reserved p mine).2.1⟩
  apart k m u v other found found' p mine q yours := by
    rcases at_of_append found with before | ⟨rfl,rfl⟩ <;> rcases at_of_append found' with before' | ⟨rfl,rfl⟩
    · exact inv.apart _ _ _ _ other before before' p mine q yours
    · exact ((reserved q yours).2.2 k u before p mine).2
    · exact ((reserved p mine).2.2 m v before' q yours).1
    · exact absurd rfl other
  doomed p gone := by
    have before : Doomed s p := by
      rcases gone with member | ⟨m,found⟩
      · exact .inl member
      · rcases at_of_append found with before | ⟨_,same⟩
        · exact .inr ⟨m,before⟩
        · exact absurd same.symm (deletes p)
    refine ⟨(inv.doomed p before).known,(inv.doomed p before).rows,fun m copy ref found => ?_⟩
    rcases at_of_append found with old | ⟨_,same⟩
    · exact (inv.doomed p before).copies m copy ref old
    · exact absurd same.symm (copies copy ref)

/-! ### What a statement does to the rows -/

theorem inv_take (inv : Inv s) {row : Row} (there : s.rows id = some row) (free : s.locks id = none) : Inv (s.take n id) := by
  refine inv_rows inv rfl rfl rfl rfl (fun m => keeps_rows rfl rfl fun i held => ?_) inv.ids (fun i m held => ?_) inv.rowsKnown
    fun p gone => (inv.doomed p gone).rows
  · by_cases here : i = id
    · rw [here,free] at held
      cases held
    · simpa [State.take,here] using held
  · by_cases here : i = id
    · rw [here]
      exact (inv.ids id row there).2
    · exact inv.locks i m (by simpa [State.take,here] using held)

theorem inv_release (inv : Inv s) (idle : ∀ t, s.tasks[n]? = some t → ∀ a : State, t.Fits a n) : Inv (s.release n) where
  ids := inv.ids
  locks i m held := by
    by_cases mine : s.locks i = some n
    · simp [State.release,mine] at held
    · exact inv.locks i m (by simpa [State.release,mine] using held)
  fits m u found := by
    by_cases here : m = n
    · subst here
      exact idle u found _
    · refine fits_keeps (keeps_rows (s := s) rfl rfl fun i held => ?_) (inv.fits m u found)
      have other : s.locks i ≠ some n := by rw [held]; simpa using here
      simpa [State.release,other] using held
  rowsKnown := inv.rowsKnown
  cleansKnown := inv.cleansKnown
  knownUsed := inv.knownUsed
  reserved := inv.reserved
  apart := inv.apart
  doomed p gone := ⟨(inv.doomed p gone).known,(inv.doomed p gone).rows,(inv.doomed p gone).copies⟩

theorem inv_update (inv : Inv s) (row : Row) {old : Row} (there : s.rows row.id = some old) (free : s.locks row.id = none)
    (grown : old.uploadVersion ≤ row.uploadVersion) (kept : old.uploadVersion = row.uploadVersion → row.storage = old.storage)
    (known : ∀ p ∈ row.storage.pair, marks p ⊆ s.known) (unreferred : ∀ p, Doomed s p → row.storage.pair ≠ some p) :
    Inv (s.put row.id (some row)) := by
  have bound := (inv.ids _ _ there).2
  refine inv_rows inv rfl rfl rfl rfl (fun m => ⟨Nat.le_refl _,fun i _ row' found => ?_,fun i held => ⟨held,?_⟩⟩)
    (fun i row' found => ?_) inv.locks (fun i row' found => ?_) (fun p gone i row' found => ?_)
  · by_cases here : i = row.id
    · subst here
      simp only [State.put,if_true,Option.some.injEq] at found
      subst found
      exact ⟨old,there,grown,kept⟩
    · exact ⟨row',by simpa [State.put,here] using found,Nat.le_refl _,fun _ => rfl⟩
  · refine if_neg fun here => ?_
    rw [here,free] at held
    cases held
  · by_cases here : i = row.id
    · simp only [State.put,here,if_true,Option.some.injEq] at found
      rw [← found,here]
      exact ⟨rfl,bound⟩
    · exact inv.ids i row' (by simpa [State.put,here] using found)
  · by_cases here : i = row.id
    · simp only [State.put,here,if_true,Option.some.injEq] at found
      rw [← found]
      exact known
    · exact inv.rowsKnown i row' (by simpa [State.put,here] using found)
  · by_cases here : i = row.id
    · simp only [State.put,here,if_true,Option.some.injEq] at found
      rw [← found]
      exact unreferred p gone
    · exact (inv.doomed p gone).rows i row' (by simpa [State.put,here] using found)

theorem inv_remove (inv : Inv s) (free : s.locks id = none) : Inv (s.put id none) := by
  have before : ∀ i row, (s.put id none).rows i = some row → s.rows i = some row := by
    intro i row found
    by_cases here : i = id
    · simp [State.put,here] at found
    · simpa [State.put,here] using found
  refine inv_rows inv rfl rfl rfl rfl (fun m => ⟨Nat.le_refl _,fun i _ row found => ?_,fun i held => ⟨held,?_⟩⟩)
    (fun i row found => inv.ids i row (before i row found)) inv.locks (fun i row found => inv.rowsKnown i row (before i row found))
    fun p gone i row found => (inv.doomed p gone).rows i row (before i row found)
  · exact ⟨row,before i row found,Nat.le_refl _,fun _ => rfl⟩
  · refine if_neg fun here => ?_
    rw [here,free] at held
    cases held

theorem inv_insert (inv : Inv s) (row : Row) (known : ∀ p ∈ row.storage.pair, marks p ⊆ s.known)
    (unreferred : ∀ p, Doomed s p → row.storage.pair ≠ some p) :
    Inv { s.put s.nextId (some { row with id := s.nextId }) with nextId := s.nextId + 1 } := by
  refine inv_rows inv rfl rfl rfl rfl
    (fun m => ⟨Nat.le_succ _,fun i below row' found => ⟨row',?_,Nat.le_refl _,fun _ => rfl⟩,fun i held => ⟨held,?_⟩⟩)
    (fun i row' found => ?_) (fun i m held => Nat.lt_succ_of_lt (inv.locks i m held)) (fun i row' found => ?_)
    (fun p gone i row' found => ?_)
  · simpa [State.put,Nat.ne_of_lt below] using found
  · exact if_neg (Nat.ne_of_lt (inv.locks i m held))
  · by_cases here : i = s.nextId
    · simp only [State.put,here,if_true,Option.some.injEq] at found
      rw [← found,here]
      exact ⟨rfl,Nat.lt_succ_self _⟩
    · obtain ⟨own,below⟩ := inv.ids i row' (by simpa [State.put,here] using found)
      exact ⟨own,Nat.lt_succ_of_lt below⟩
  · by_cases here : i = s.nextId
    · simp only [State.put,here,if_true,Option.some.injEq] at found
      rw [← found]
      exact known
    · exact inv.rowsKnown i row' (by simpa [State.put,here] using found)
  · by_cases here : i = s.nextId
    · simp only [State.put,here,if_true,Option.some.injEq] at found
      rw [← found]
      exact unreferred p gone
    · exact (inv.doomed p gone).rows i row' (by simpa [State.put,here] using found)

theorem inv_know (inv : Inv s) (o : Option Pair) (used : ∀ q ∈ o, marks q ⊆ s.used)
    (apart : ∀ (n : Nat) (t : Task), s.tasks[n]? = some t → ∀ p ∈ t.reserved, ∀ q ∈ o, p ∉ marks q) : Inv (s.know o) where
  ids := inv.ids
  locks := inv.locks
  fits n t there := fits_keeps (keeps_rows rfl rfl fun _ held => held) (inv.fits n t there)
  rowsKnown id row there p refers := List.subset_append_of_subset_left _ (inv.rowsKnown id row there p refers)
  cleansKnown n t there ref member p refers := List.subset_append_of_subset_left _ (inv.cleansKnown n t there ref member p refers)
  knownUsed p member := by
    rcases List.mem_append.mp member with before | new
    · exact inv.knownUsed before
    · obtain ⟨q,given,marked⟩ := List.mem_flatMap.mp new
      exact used q (by simpa using given) marked
  reserved n t there p mine := by
    obtain ⟨known,fresh⟩ := inv.reserved n t there p mine
    refine ⟨known,fun member => ?_⟩
    rcases List.mem_append.mp member with before | new
    · exact fresh before
    · obtain ⟨q,given,marked⟩ := List.mem_flatMap.mp new
      exact apart n t there p mine q (by simpa using given) marked
  apart := inv.apart
  doomed p gone := ⟨List.mem_append_left _ (inv.doomed p gone).known,(inv.doomed p gone).rows,(inv.doomed p gone).copies⟩

theorem inv_use (inv : Inv s) (o : Option Pair) : Inv (s.use o) where
  ids := inv.ids
  locks := inv.locks
  fits n t there := fits_keeps (keeps_rows rfl rfl fun _ held => held) (inv.fits n t there)
  rowsKnown := inv.rowsKnown
  cleansKnown := inv.cleansKnown
  knownUsed := List.subset_append_of_subset_left _ inv.knownUsed
  reserved n t there p mine :=
    ⟨List.subset_append_of_subset_left _ (inv.reserved n t there p mine).1,(inv.reserved n t there p mine).2⟩
  apart := inv.apart
  doomed p gone := ⟨(inv.doomed p gone).known,(inv.doomed p gone).rows,(inv.doomed p gone).copies⟩

theorem mem_know {o : Option Pair} (q : Pair) (given : q ∈ o) : marks q ⊆ (s.know o).known := by
  intro p marked
  exact List.mem_append_right _ (List.mem_flatMap.mpr ⟨q,by simpa using given,marked⟩)

theorem mem_use {o : Option Pair} (q : Pair) (given : q ∈ o) : marks q ⊆ (s.use o).used := by
  intro p marked
  exact List.mem_append_right _ (List.mem_flatMap.mpr ⟨q,by simpa using given,marked⟩)

theorem inv_delete (inv : Inv s) (there : s.tasks[n]? = some (.deleteRemoteObject p)) :
    Inv { s.set n .closed with deleted := s.deleted ++ [p] } := by
  have closed := inv_closed inv there
  have unreferred : Unreferred (s.set n .closed) p := by
    have before := inv.doomed p (.inr ⟨n,there⟩)
    refine ⟨before.known,before.rows,fun m copy ref found => ?_⟩
    rcases at_of_set found with ⟨_,same⟩ | ⟨_,old⟩
    · cases same
    · exact before.copies m copy ref old
  exact {
    ids := closed.ids
    locks := closed.locks
    fits := fun m t found => fits_keeps (keeps_rows rfl rfl fun _ held => held) (closed.fits m t found)
    rowsKnown := closed.rowsKnown
    cleansKnown := closed.cleansKnown
    knownUsed := closed.knownUsed
    reserved := closed.reserved
    apart := closed.apart
    doomed := fun q gone => by
      have held : Unreferred (s.set n .closed) q := by
        rcases gone with member | pending
        · rcases List.mem_append.mp member with before | new
          · exact closed.doomed q (.inl before)
          · exact List.mem_singleton.mp new ▸ unreferred
        · exact closed.doomed q (.inr pending)
      exact { held with } }

/-! ### One step -/

theorem inv_lock (inv : Inv s) (there : s.tasks[n]? = some t) {fits : Row → Bool} {next : Row → Task}
    (goes : ∀ row, s.rows id = some row → fits row = true → s.locks id = none → Inv ((s.take n id).set n (next row))) :
    Inv (s.lock n id fits next) := by
  unfold State.lock
  split
  · exact inv_closed inv there
  next row found =>
  split
  · exact inv
  · next free =>
    split
    · next good => exact goes row found good (by simpa using free)
    · exact inv_closed inv there

theorem take_held : (s.take n id).locks id = some n := by simp [State.take]

theorem copyFile_known (inv : Inv s) {ownerId fileId : Nat} {folderId : Option Nat} {copyName : String} {source copy : Row}
    (taken : copyFile s ownerId fileId folderId copyName = .copyLocking source copy) :
    copy.storage = source.storage ∧ Known s source := by
  unfold copyFile at taken
  split at taken
  · cases taken
  next row found =>
  split at taken
  · cases taken
    have there := (Option.filter_eq_some_iff.mp found).1
    obtain ⟨here,below⟩ := inv.ids fileId source there
    refine ⟨rfl,here ▸ below,fun row again => ?_⟩
    rw [here,there] at again
    cases again
    exact ⟨Nat.le_refl _,fun _ => rfl⟩
  · cases taken

theorem inv_copyFile (inv : Inv s) {ownerId fileId : Nat} {folderId : Option Nat} {copyName : String}
    (there : s.tasks[n]? = some (.copyFile ownerId fileId folderId copyName)) :
    Inv (s.set n (copyFile s ownerId fileId folderId copyName)) := by
  cases taken : copyFile s ownerId fileId folderId copyName with
  | copyLocking source copy =>
    exact inv_idle inv there (copyFile_known inv taken) (by simp [Task.reserved]) (by simp [Task.cleans]) (by simp) (by simp)
  | closed => exact inv_closed inv there
  | _ => unfold copyFile at taken; split at taken <;> [cases taken; (split at taken <;> cases taken)]

theorem inv_commit (inv : Inv s) {effect : Effect} {ref : Option Storage}
    (there : s.tasks[n]? = some (.committing effect ref)) : Inv (s.commit n effect ref) := by
  have fits := inv.fits n _ there
  -- the task first, while its transaction still has its locks
  have at' : (s.set n (afterwards ref)).tasks[n]? = some (afterwards ref) := at_set there
  have set : Inv (s.set n (afterwards ref)) := by
    cases ref with
    | none => exact inv_closed inv there
    | some r =>
      show Inv (s.set n (.cleanup r))
      exact inv_idle inv there trivial (by simp [Task.reserved]) (by simp [Task.cleans]) (by simp) (by simp)
  have inv' : Inv ((s.set n (afterwards ref)).release n) := inv_release set fun t found a => by
    rw [at'] at found
    cases found
    cases ref <;> trivial
  have freed : ∀ id, s.locks id = some n → (s.release n).locks id = none := fun id held => by simp [State.release,held]
  cases effect with
  | insert copy =>
    obtain ⟨id,row,_,found,alike⟩ := fits
    refine inv_insert inv' copy (fun p refers => ?_) fun p gone => ?_
    · exact inv.rowsKnown id row found p (alike ▸ refers)
    · rw [← alike]
      exact (inv'.doomed p gone).rows id row found
  | update row =>
    obtain ⟨held,old,found,grown⟩ := fits
    have mine := inv.reserved n _ there
    have know := inv_know inv' row.storage.pair (fun q given => (mine q given).1) fun m u other p yours q given => ?_
    · refine inv_update know row found (freed row.id held) (Nat.le_of_lt grown) (fun same => absurd same (Nat.ne_of_lt grown))
        mem_know fun p gone refers => ?_
      exact (mine p refers).2 (inv'.doomed p gone).known
    · by_cases here : m = n
      · subst here
        cases Option.mem_unique other at'
        cases ref <;> simp [afterwards,Task.reserved] at yours
      · have before : s.tasks[m]? = some u := by
          rcases at_of_set other with ⟨same,_⟩ | ⟨_,before⟩
          · exact absurd same here
          · exact before
        exact inv.apart n m _ u (Ne.symm here) there before q given p yours
  | remove id => exact inv_remove inv' (freed id fits)

theorem inv_run (inv : Inv s) (there : s.tasks[n]? = some t) : Inv (s.run n t) := by
  have fits := inv.fits n t there
  cases t with
  | copyFile ownerId fileId folderId copyName => exact inv_copyFile inv there
  | copyLocking source copy =>
    refine inv_lock inv there fun row found same free => ?_
    have known : row.storage = copy.storage := by
      rw [fits.1]
      refine (fits.2.2 row found).2 ?_
      simp only [unchanged,Bool.and_eq_true,decide_eq_true_eq] at same
      exact same.2.symm
    exact inv_idle (inv_take inv found free) there ⟨source.id,row,take_held,found,known⟩ (by simp [Task.reserved])
      (by simp [Task.cleans]) (by simp) (by simp)
  | copyInserting source copy =>
    refine inv_set inv there fits (by simp [Task.reserved]) (by simp [Task.cleans]) (fun copy' ref same p gone => ?_) (by simp)
    cases same
    obtain ⟨id,row,_,found,alike⟩ := fits
    rw [← alike]
    exact (inv.doomed p gone).rows id row found
  | overwrite params =>
    refine inv_lock inv there fun row found good free => ?_
    have here := (inv.ids params.id row found).1
    refine inv_idle (inv_take inv found free) there ⟨?_,?_⟩ (by simp [Task.reserved]) (by simp [Task.cleans]) (by simp) (by simp)
    · rw [here]; exact take_held
    · rw [here]; exact found
  | overwriteUpdating params locked =>
    refine inv_set inv there ⟨fits.1,locked,fits.2,?_⟩ (by simp [Task.reserved,overwritten]) (fun ref member => ?_) (by simp) (by simp)
    · show locked.uploadVersion < nextVersion locked
      unfold nextVersion
      split <;> omega
    · have own : ref = locked.storage := by
        simp only [oldObject] at member
        split at member
        · exact (Option.some.inj member).symm
        · cases member
      rw [own]
      exact inv.rowsKnown _ _ fits.2
  | forceDelete id user =>
    unfold State.run
    dsimp only
    split
    · next file found =>
      have known := inv.rowsKnown _ _ (Option.filter_eq_some_iff.mp found).1
      exact inv_set inv there trivial (by simp [Task.reserved]) (by simpa [Task.cleans] using known) (by simp) (by simp)
    · exact inv_closed inv there
  | forceLocking file user =>
    refine inv_lock inv there fun row found good free => ?_
    exact inv_idle (inv_take inv found free) there take_held (by simp [Task.reserved]) (by simp [Task.cleans]) (by simp) (by simp)
  | sweep id now =>
    unfold State.run
    dsimp only
    split
    · next file found =>
      have known := inv.rowsKnown _ _ (Option.filter_eq_some_iff.mp found).1
      exact inv_set inv there trivial (by simp [Task.reserved]) (by simpa [Task.cleans] using known) (by simp) (by simp)
    · exact inv_closed inv there
  | stillPending file now =>
    unfold State.run
    dsimp only
    split
    · exact inv_idle inv there trivial (by simp [Task.reserved]) (by simp [Task.cleans]) (by simp) (by simp)
    · exact inv_closed inv there
  | sweepLocking file now =>
    refine inv_lock inv there fun row found good free => ?_
    exact inv_idle (inv_take inv found free) there take_held (by simp [Task.reserved]) (by simp [Task.cleans]) (by simp) (by simp)
  | removing file => exact inv_idle inv there fits (by simp [Task.reserved]) (by simp [Task.cleans]) (by simp) (by simp)
  | committing effect ref => exact inv_commit inv there
  | cleanup ref =>
    unfold State.run
    dsimp only
    split
    · next p object =>
      split
      · next zero =>
        refine inv_set inv there trivial (by simp [Task.reserved]) (by simp [Task.cleans]) (by simp) fun q same => ?_
        cases same
        obtain ⟨q,refers,marked⟩ := object_marks object
        have unreferred : ∀ id row, s.rows id = some row → row.storage.pair ≠ some p :=
          fun id row found => count_zero (fun i r there => (inv.ids i r there).2) zero found
        refine ⟨inv.cleansKnown n _ there ref rfl q refers marked,unreferred,fun m copy cleans found => ?_⟩
        obtain ⟨id,row,_,source,alike⟩ := inv.fits m _ found
        rw [← alike]
        exact unreferred id row source
      · exact inv_closed inv there
    · exact inv_closed inv there
  | deleteRemoteObject p => exact inv_delete inv there
  | closed => exact inv

theorem inv_step (inv : Inv s) (l : Label) (fresh : Fresh s l) : Inv (step s l) := by
  cases l with
  | tick ms =>
    exact inv_rows inv rfl rfl rfl rfl (fun m => keeps_rows rfl rfl fun _ held => held) inv.ids inv.locks inv.rowsKnown
      fun p gone => (inv.doomed p gone).rows
  | upload row =>
    have unused : ∀ p ∈ row.storage.pair, p ∉ s.known := fun p refers member => fresh p refers p mem_marks (inv.knownUsed member)
    refine inv_insert (inv_know (inv_use inv row.storage.pair) row.storage.pair mem_use fun m u there p yours q refers marked => ?_)
      row mem_know fun p gone refers => ?_
    · exact fresh q refers p marked ((inv.reserved m u there p yours).1 mem_marks)
    · exact unused p refers (inv.doomed p gone).known
  | touch row =>
    unfold step
    dsimp only
    split
    · next current found =>
      split
      · next free =>
        refine inv_update inv { row with storage := current.storage, uploadVersion := current.uploadVersion } found free
          (Nat.le_refl _) (fun _ => rfl) (inv.rowsKnown row.id current found) fun p gone => ?_
        exact (inv.doomed p gone).rows row.id current found
      · exact inv
    · exact inv
  | copyFile ownerId fileId folderId copyName => exact inv_call inv trivial rfl (by simp) (by simp) (by simp [Task.reserved])
  | overwrite params =>
    refine inv_call (inv_use inv params.storage.pair) trivial rfl (by simp) (by simp) fun p mine => ⟨mem_use p mine,?_,?_⟩
    · exact fun member => fresh p mine p mem_marks (inv.knownUsed member)
    · intro m u there q yours
      have old := (inv.reserved m u there q yours).1
      exact ⟨fun marked => fresh p mine q marked (old mem_marks),fun marked => fresh p mine p mem_marks (old marked)⟩
  | forceDelete id user | sweep id => exact inv_call inv trivial rfl (by simp) (by simp) (by simp [Task.reserved])
  | run n =>
    cases there : s.tasks[n]? with
    | none => simpa [step,there] using inv
    | some t => simpa [step,there] using inv_run inv there
  | fail n =>
    unfold step
    dsimp only
    split
    · next t there =>
      refine inv_release (inv_closed inv there) fun u found a => ?_
      have closed : (s.set n .closed).tasks[n]? = some .closed := at_set there
      cases Option.mem_unique found closed
      trivial
    · exact inv

/-- An object that is gone, or is about to be deleted, is one that no row refers to, then and from then on. -/
theorem deleted_unreferred (reach : Reached s) (gone : p ∈ s.deleted ∨ ∃ n : Nat, s.tasks[n]? = some (Task.deleteRemoteObject p)) :
    ∀ id row, s.rows id = some row → row.storage.pair ≠ some p :=
  have inv : Inv s := reachable_invariant inv_start (fun _ l inv ok => inv_step inv l ok) reach
  (inv.doomed p gone).rows

def ownRow (objectRef : String) : Row :=
  { Directory.File.mk 0 1 none "a.txt" .ready 1 false false none none none with storage := ⟨.s3,some "b",some objectRef⟩ }

def overwrittenTwice : List Label :=
  [.upload (ownRow "o1"),.copyFile 1 0 none "a - 副本.txt",.run 0,.run 0,
    .overwrite ⟨0,⟨1,false⟩,none,"a.txt",⟨.s3,some "b",some "o2"⟩⟩,.run 0,.run 0,.run 1,.run 1,.run 1,.run 1,
    .overwrite ⟨1,⟨1,false⟩,none,"b.txt",⟨.s3,some "b",some "o3"⟩⟩,.run 2,.run 2,.run 2,.run 2,.run 2]

theorem first_object_unreferred : ∃ s, Reached s ∧ s.deleted = [("b","o1")] ∧ s.nextId = 2 ∧
    ∀ id row, s.rows id = some row → row.storage.pair ≠ some ("b","o1") :=
  have reach := reachable_run .start overwrittenTwice (by decide +kernel)
  ⟨_,reach,by decide +kernel,by decide +kernel,deleted_unreferred reach (.inl (by decide +kernel))⟩

end
end Tgtc.SharedObjects
