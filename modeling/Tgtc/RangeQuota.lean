import Mathlib.Order.Nat
import Tgtc.ByteRange
import Tgtc.Maps
import Tgtc.Runs

/-!
The count of accesses to a file. A player asks for many ranges of one file, and is charged for one of them in a while:
what has been charged is remembered in a map of the process, which is read before the database is asked and written
after.
-/
namespace Tgtc.RangeQuota
open Runs Maps

/-- An id that the database has given: there is no bar in it. -/
@[ext] structure Uuid where
  text : String
  plain : '|' ∉ text.toList
deriving DecidableEq

structure User where
  id : Uuid
  /-- `hasAdminPrivileges` -/
  admin : Bool
deriving DecidableEq

inductive FileStatus where
  | processing | ready | error
deriving DecidableEq

structure File where
  uploaderId : Uuid
  size : Nat
  status : FileStatus
  uploadVersion : Nat
  maxAccessCount : Int
  currentAccessCount : Nat
  expiresIn : Option Nat
  expiresStartAt : Option Nat
deriving DecidableEq

abbrev Files := OrderedMap Uuid File

def increment (files : Files) (id : Uuid) (orUnlimited : Bool) : Files × Bool := match files.get id with
  | some file =>
    if (orUnlimited && decide (file.maxAccessCount ≤ 0)) || decide (file.currentAccessCount < file.maxAccessCount) then
      (files.set id { file with currentAccessCount := file.currentAccessCount + 1 },true)
    else (files,false)
  | none => (files,false)

structure RangeRequest where
  id : Uuid
  user : User
  rangeHeader : String
  ip : Option String
  ifRange : Option String
deriving DecidableEq

def RANGE_QUOTA_DEDUP_MS : Nat := 30 * 1000

def dedupKey (id user : Uuid) (ip : Option String) : String := id.text ++ "|" ++ user.text ++ "|" ++ ip.getD ""

def RangeRequest.key (request : RangeRequest) : String := dedupKey request.id request.user.id request.ip

def assertFileReadable (file : File) (user : User) : Except String Unit :=
  if file.uploaderId ≠ user.id && !user.admin then .error "无权访问此文件" else .ok ()

def assertFileUsable (file : File) : Except String Unit := if file.status = .error then .error "文件已不可用" else .ok ()

def checkRange (sha1 : String → String) (files : Files) (request : RangeRequest) : Except String (Option ByteRange.ParsedByteRange) := do
  match files.get request.id with
  | none => throw "文件不存在"
  | some file =>
    let etag := ByteRange.buildFileVersionETag sha1 request.id.text file.uploadVersion file.size
    if request.ifRange.any (· ≠ "") && !ByteRange.matchesIfRange request.ifRange etag then return none
    assertFileReadable file request.user
    assertFileUsable file
    if file.status = .processing then throw "文件正在处理中，请稍后刷新重试"
    match ByteRange.parseByteRange request.rangeHeader file.size with
    | .error _ => throw "Range 范围无效"
    | .ok range => return some range

inductive RangeStage where
  | opening (range : ByteRange.ParsedByteRange)
  | consuming (range : ByteRange.ParsedByteRange) (now : Nat)
  | charged (range : ByteRange.ParsedByteRange) (now : Nat)
  | served (range : ByteRange.ParsedByteRange) (now : Nat) (charged : Bool)
  | wholeFile
  | refused (message : String)
  | failed
deriving DecidableEq

def arrive (sha1 : String → String) (files : Files) (request : RangeRequest) : RangeStage := match checkRange sha1 files request with
  | .error message => .refused message
  | .ok none => .wholeFile
  | .ok (some range) => .opening range

structure Ranged where
  request : RangeRequest
  stage : RangeStage
deriving DecidableEq

def Ranged.chargedAt (r : Ranged) : Option Nat := match r.stage with
  | .charged _ now | .served _ now true => some now
  | _ => none

def Ranged.servedAt (r : Ranged) : Option Nat := match r.stage with
  | .served _ now _ => some now
  | _ => none

def Ranged.inFlight (r : Ranged) : Option Nat := match r.stage with
  | .consuming _ now | .charged _ now => some now
  | _ => none

inductive AccessStage where
  | counting
  | allowed (counted : Bool)
  | denied (reason : String)
  | failed
deriving DecidableEq

structure Access where
  id : Uuid
  stage : AccessStage

/-- What `checkAndIncrementAccess` does with the row it has read. -/
def checkAccess (file : Option File) (now : Nat) : AccessStage := match file with
  | none => .denied "文件不存在"
  | some file =>
    let expiresAt := file.expiresIn.bind fun hours => file.expiresStartAt.map (· + hours * 3600 * 1000)
    if expiresAt.any (· < now) then .denied "文件分享已过期"
    else if 0 < file.maxAccessCount then .counting
    else .allowed false

/-! ### The system -/

structure State where
  files : Files
  rangeQuotaDedup : OrderedMap String Nat
  requests : List Ranged
  accesses : List Access
  now : Nat

def State.start (files : Files) (now : Nat) : State := ⟨files,.empty,[],[],now⟩

inductive Label where
  | tick (ms : Nat)
  | edit (id : Uuid) (file : Option File)
  | range (request : RangeRequest)
  | look (i : Nat) (opened : Bool)
  | charge (i : Nat)
  | failCharge (i : Nat)
  | record (i : Nat)
  | access (id : Uuid)
  | count (i : Nat)
  | failCount (i : Nat)

def State.goes (s : State) (i : Nat) (r : Ranged) (stage : RangeStage) : State :=
  { s with requests := s.requests.set i { r with stage } }

def State.answers (s : State) (i : Nat) (a : Access) (stage : AccessStage) : State :=
  { s with accesses := s.accesses.set i { a with stage } }

/-- `!lastDedup || now - lastDedup >= RANGE_QUOTA_DEDUP_MS` -/
def shouldConsume (lastDedup : Option Nat) (now : Nat) : Bool := match lastDedup with
  | none => true
  | some last => last = 0 || RANGE_QUOTA_DEDUP_MS ≤ now - last

def noteCharge (rangeQuotaDedup : OrderedMap String Nat) (key : String) (now : Nat) : OrderedMap String Nat :=
  (if 10000 < rangeQuotaDedup.entries.length then .empty else rangeQuotaDedup).set key now

def step (sha1 : String → String) (s : State) : Label → State
  | .tick ms => { s with now := s.now + ms }
  | .edit id file => { s with files := match file with
      | some file => s.files.set id file
      | none => s.files.delete id }
  | .range request => { s with requests := s.requests ++ [⟨request,arrive sha1 s.files request⟩] }
  | .look i opened => match s.requests[i]? with
    | some r => match r.stage with
      | .opening range =>
        if !opened then s.goes i r (.refused "文件暂不可提供范围下载")
        else if shouldConsume (s.rangeQuotaDedup.get r.request.key) s.now then s.goes i r (.consuming range s.now)
        else s.goes i r (.served range s.now false)
      | _ => s
    | none => s
  | .charge i => match s.requests[i]? with
    | some r => match r.stage with
      | .consuming range now => match increment s.files r.request.id true with
        | (files,true) => { s.goes i r (.charged range now) with files }
        | (_,false) => s.goes i r (.refused "访问次数已用尽或文件不存在")
      | _ => s
    | none => s
  | .failCharge i => match s.requests[i]? with
    | some r => match r.stage with
      | .consuming _ _ => s.goes i r .failed
      | _ => s
    | none => s
  | .record i => match s.requests[i]? with
    | some r => match r.stage with
      | .charged range now => { s.goes i r (.served range now true) with
          rangeQuotaDedup := noteCharge s.rangeQuotaDedup r.request.key now }
      | _ => s
    | none => s
  | .access id => { s with accesses := s.accesses ++ [⟨id,checkAccess (s.files.get id) s.now⟩] }
  | .count i => match s.accesses[i]? with
    | some a => if a.stage = .counting then match increment s.files a.id false with
        | (files,true) => { s.answers i a (.allowed true) with files }
        | (_,false) => s.answers i a (.denied "文件访问次数已用尽")
      else s
    | none => s
  | .failCount i => match s.accesses[i]? with
    | some a => if a.stage = .counting then s.answers i a .failed else s
    | none => s

/-- No request reads the map while another of its key has not written it back, and a map that is emptied
holds nothing recent of another key. -/
def Orderly (s : State) : Label → Prop
  | .look i opened => opened = true → ∀ r ∈ s.requests[i]?, ∀ r' ∈ s.requests, r'.request.key = r.request.key → r'.inFlight = none
  | .record i => 10000 < s.rangeQuotaDedup.entries.length → ∀ r ∈ s.requests[i]?, ∀ e ∈ s.rangeQuotaDedup.entries,
      e.1 = r.request.key ∨ e.2 + RANGE_QUOTA_DEDUP_MS ≤ s.now
  | _ => True

instance (s : State) (l : Label) : Decidable (Orderly s l) := by
  cases l <;> unfold Orderly <;> infer_instance

def Unedited (id : Uuid) : Label → Prop
  | .edit id' _ => id' ≠ id
  | _ => True

instance (id : Uuid) (l : Label) : Decidable (Unedited id l) := by
  cases l <;> unfold Unedited <;> infer_instance

def SamePlayer (r r' : Ranged) : Prop := r.request.id = r'.request.id ∧ r.request.user.id = r'.request.user.id ∧
  r.request.ip.getD "" = r'.request.ip.getD ""

/-- Requests of a player that are charged are some time apart. -/
def Spaced (s : State) : Prop := ∀ (i j : Nat) (r r' : Ranged), s.requests[i]? = some r → s.requests[j]? = some r' → i ≠ j → SamePlayer r r' →
  ∀ t ∈ r.chargedAt, ∀ t' ∈ r'.chargedAt, t + RANGE_QUOTA_DEDUP_MS ≤ t' ∨ t' + RANGE_QUOTA_DEDUP_MS ≤ t

/-- Whatever is served has been charged, or another request of the player has been not long before. -/
def Covered (s : State) : Prop := ∀ r ∈ s.requests, ∀ t ∈ r.servedAt, ∃ r' ∈ s.requests, SamePlayer r' r ∧
  ∃ t' ∈ r'.chargedAt, t' ≤ t ∧ t < t' + RANGE_QUOTA_DEDUP_MS

def Ranged.charges (id : Uuid) (r : Ranged) : Bool := r.request.id = id && r.chargedAt.isSome

def Access.counts (id : Uuid) (a : Access) : Bool := a.id = id && a.stage = .allowed true

def State.units (s : State) (id : Uuid) : Nat := s.requests.countP (Ranged.charges id) + s.accesses.countP (Access.counts id)

/-- The row counts what has been paid for, and does not go beyond its bound. -/
def Metered (id : Uuid) (file : File) (s : State) : Prop := ∃ row, s.files.get id = some row ∧
  row = { file with currentAccessCount := file.currentAccessCount + s.units id } ∧ row.currentAccessCount ≤ row.maxAccessCount

def RangeStage.Quiet : RangeStage → Prop
  | .opening _ | .wholeFile | .refused _ | .failed => True
  | _ => False

inductive Move (s : State) : Label → State → Prop
  | tick {ms} : Move s (.tick ms) { s with now := s.now + ms }
  | edit {id file files} (others : ∀ id', id' ≠ id → files.get id' = s.files.get id') : Move s (.edit id file) { s with files }
  | arrive {request stage} (quiet : stage.Quiet) : Move s (.range request) { s with requests := s.requests ++ [⟨request,stage⟩] }
  | drop {l i r stage} (there : s.requests[i]? = some r) (uncharged : r.chargedAt = none) (unserved : r.servedAt = none)
      (quiet : stage.Quiet) : Move s l (s.goes i r stage)
  | consume {i r range} (there : s.requests[i]? = some r) (opening : r.stage = .opening range)
      (old : shouldConsume (s.rangeQuotaDedup.get r.request.key) s.now = true) : Move s (.look i true) (s.goes i r (.consuming range s.now))
  | ride {i r range} (there : s.requests[i]? = some r) (opening : r.stage = .opening range)
      (recent : shouldConsume (s.rangeQuotaDedup.get r.request.key) s.now = false) : Move s (.look i true) (s.goes i r (.served range s.now false))
  | charge {i r range t file} (there : s.requests[i]? = some r) (consuming : r.stage = .consuming range t)
      (found : s.files.get r.request.id = some file) (left : file.maxAccessCount ≤ 0 ∨ file.currentAccessCount < file.maxAccessCount) :
      Move s (.charge i) { s.goes i r (.charged range t) with
        files := s.files.set r.request.id { file with currentAccessCount := file.currentAccessCount + 1 } }
  | record {i r range t} (there : s.requests[i]? = some r) (charged : r.stage = .charged range t) :
      Move s (.record i) { s.goes i r (.served range t true) with rangeQuotaDedup := noteCharge s.rangeQuotaDedup r.request.key t }
  | access {id stage} (uncounted : stage ≠ .allowed true) : Move s (.access id) { s with accesses := s.accesses ++ [⟨id,stage⟩] }
  | count {i a file} (there : s.accesses[i]? = some a) (counting : a.stage = .counting)
      (found : s.files.get a.id = some file) (left : file.currentAccessCount < file.maxAccessCount) :
      Move s (.count i) { s.answers i a (.allowed true) with
        files := s.files.set a.id { file with currentAccessCount := file.currentAccessCount + 1 } }
  | deny {l i a stage} (there : s.accesses[i]? = some a) (counting : a.stage = .counting) (uncounted : stage ≠ .allowed true) :
      Move s l (s.answers i a stage)
  | stay {l} : Move s l s

section
variable {s s' : State} {i j : Nat} {r r' : Ranged} {a : Access} {range : ByteRange.ParsedByteRange} {t t' : Nat} {id : Uuid} {file : File}
  {requests : List Ranged} {now : Nat} {sha1 : String → String}

theorem cut_at {x x' y y' : List Char} (plain : '|' ∉ x) (plain' : '|' ∉ x') (same : x ++ '|' :: y = x' ++ '|' :: y') : x = x' ∧ y = y' := by
  induction x generalizing x' with
  | nil =>
    cases x' with
    | nil => exact ⟨rfl,(List.cons.inj same).2⟩
    | cons c rest => exact absurd (List.mem_cons.mpr (.inl (List.cons.inj same).1)) plain'
  | cons c rest ih =>
    cases x' with
    | nil => exact absurd (List.mem_cons.mpr (.inl (List.cons.inj same).1.symm)) plain
    | cons c' rest' =>
      obtain ⟨rfl,rests⟩ := List.cons.inj same
      obtain ⟨rfl,tails⟩ := ih (fun member => plain (.tail _ member)) (fun member => plain' (.tail _ member)) rests
      exact ⟨rfl,tails⟩

theorem key_eq_iff : r.request.key = r'.request.key ↔ SamePlayer r r' := by
  constructor
  · intro same
    have same := congrArg String.toList same
    simp only [RangeRequest.key,dedupKey,String.toList_append,List.append_assoc] at same
    obtain ⟨ids,rest⟩ := cut_at r.request.id.plain r'.request.id.plain same
    obtain ⟨users,ips⟩ := cut_at r.request.user.id.plain r'.request.user.id.plain rest
    exact ⟨Uuid.ext (String.toList_inj.mp ids),Uuid.ext (String.toList_inj.mp users),String.toList_inj.mp ips⟩
  · rintro ⟨ids,users,ips⟩
    simp [RangeRequest.key,dedupKey,ids,users,ips]

/-! ### Moves -/

variable {row : File} {files : Files}

theorem increment_true {files' : Files} {orUnlimited : Bool} (done : increment files id orUnlimited = (files',true)) :
    ∃ file, files.get id = some file ∧ (orUnlimited = true ∧ file.maxAccessCount ≤ 0 ∨ file.currentAccessCount < file.maxAccessCount) ∧
      files' = files.set id { file with currentAccessCount := file.currentAccessCount + 1 } := by
  unfold increment at done
  split at done
  · next file found =>
    split at done
    · next left =>
      cases done
      exact ⟨file,found,by simpa using left,rfl⟩
    · simp at done
  · simp at done

theorem quiet_arrive (files : Files) (request : RangeRequest) : (arrive sha1 files request).Quiet := by
  unfold arrive
  split <;> trivial

theorem checkAccess_uncounted (file : Option File) (now : Nat) : checkAccess file now ≠ .allowed true := by
  unfold checkAccess
  split
  · simp
  · dsimp only
    split
    · simp
    · split <;> simp

theorem step_moves (sha1 : String → String) (s : State) (l : Label) : Move s l (step sha1 s l) := by
  cases l with
  | tick ms => exact .tick
  | edit id file =>
    refine .edit fun id' other => ?_
    cases file with
    | none => exact get_delete_other _ other
    | some file => exact get_set_other _ _ other
  | range request => exact .arrive (quiet_arrive _ _)
  | look i opened =>
    unfold step
    dsimp only
    split
    · next r there =>
      split
      · next range opening =>
        cases opened with
        | false => exact .drop there (by simp [Ranged.chargedAt,opening]) (by simp [Ranged.servedAt,opening]) trivial
        | true =>
          simp only [Bool.not_true,Bool.false_eq_true,if_false]
          split
          · next old => exact .consume there opening old
          · next recent => exact .ride there opening (by simpa using recent)
      · exact .stay
    · exact .stay
  | charge i =>
    unfold step
    dsimp only
    split
    · next r there =>
      split
      · next range t consuming =>
        split
        · next done =>
          obtain ⟨file,found,left,rfl⟩ := increment_true done
          exact .charge there consuming found (by simpa using left)
        · exact .drop there (by simp [Ranged.chargedAt,consuming]) (by simp [Ranged.servedAt,consuming]) trivial
      · exact .stay
    · exact .stay
  | failCharge i =>
    unfold step
    dsimp only
    split
    · next r there =>
      split
      · next range t consuming => exact .drop there (by simp [Ranged.chargedAt,consuming]) (by simp [Ranged.servedAt,consuming]) trivial
      · exact .stay
    · exact .stay
  | record i =>
    unfold step
    dsimp only
    split
    · next r there =>
      split
      · next range t charged => exact .record there charged
      · exact .stay
    · exact .stay
  | access id => exact .access (checkAccess_uncounted _ _)
  | count i =>
    unfold step
    dsimp only
    split
    · next a there =>
      split
      · next counting =>
        split
        · next done =>
          obtain ⟨file,found,left,rfl⟩ := increment_true done
          exact .count there counting found (by simpa using left)
        · exact .deny there counting (by simp)
      · exact .stay
    · exact .stay
  | failCount i =>
    unfold step
    dsimp only
    split
    · next a there =>
      split
      · next counting => exact .deny there counting (by simp)
      · exact .stay
    · exact .stay

/-! ### Who is charged -/

def Ranged.recordedAt (r : Ranged) : Option Nat := match r.stage with
  | .served _ now true => some now
  | _ => none

/-- Requests of one key take turns between reading the map and writing it, and are charged some time apart. -/
structure Course (requests : List Ranged) (now : Nat) : Prop where
  timed : ∀ r ∈ requests, ∀ t ∈ r.inFlight, 0 < t ∧ t ≤ now
  alone : ∀ (i j : Nat) (r r' : Ranged), requests[i]? = some r → requests[j]? = some r' → i ≠ j → r.request.key = r'.request.key →
    r.inFlight = none ∨ r'.inFlight = none
  ready : ∀ (i j : Nat) (r r' : Ranged), requests[i]? = some r → requests[j]? = some r' → i ≠ j → r.request.key = r'.request.key →
    ∀ t ∈ r.inFlight, ∀ t' ∈ r'.recordedAt, t' + RANGE_QUOTA_DEDUP_MS ≤ t
  spaced : ∀ (i j : Nat) (r r' : Ranged), requests[i]? = some r → requests[j]? = some r' → i ≠ j → r.request.key = r'.request.key →
    ∀ t ∈ r.chargedAt, ∀ t' ∈ r'.chargedAt, t + RANGE_QUOTA_DEDUP_MS ≤ t' ∨ t' + RANGE_QUOTA_DEDUP_MS ≤ t
  covered : ∀ r ∈ requests, ∀ t ∈ r.servedAt, ∃ r' ∈ requests, r'.request.key = r.request.key ∧
    ∃ t' ∈ r'.chargedAt, t' ≤ t ∧ t < t' + RANGE_QUOTA_DEDUP_MS

structure Noted (requests : List Ranged) (rangeQuotaDedup : OrderedMap String Nat) (now : Nat) : Prop where
  known : ∀ key t, rangeQuotaDedup.get key = some t → 0 < t ∧ t ≤ now ∧ ∃ r ∈ requests, r.request.key = key ∧ t ∈ r.chargedAt
  noted : ∀ r ∈ requests, ∀ t ∈ r.recordedAt, now < t + RANGE_QUOTA_DEDUP_MS → ∃ t', rangeQuotaDedup.get r.request.key = some t' ∧ t ≤ t'

theorem quiet_views (quiet : r.stage.Quiet) : r.chargedAt = none ∧ r.servedAt = none ∧ r.inFlight = none ∧ r.recordedAt = none := by
  obtain ⟨request,stage⟩ := r
  cases stage with
  | opening _ | wholeFile | refused _ | failed => exact ⟨rfl,rfl,rfl,rfl⟩
  | consuming _ _ | charged _ _ | served _ _ _ => exact quiet.elim

theorem chargedAt_cases (charged : t ∈ r.chargedAt) : t ∈ r.inFlight ∨ t ∈ r.recordedAt := by
  obtain ⟨request,stage⟩ := r
  cases stage with
  | charged _ _ => exact .inl charged
  | served _ _ charged' =>
    cases charged' with
    | false => cases charged
    | true => exact .inr charged
  | opening _ | wholeFile | refused _ | failed | consuming _ _ => cases charged

theorem charged_of_recorded (recorded : t ∈ r.recordedAt) : t ∈ r.chargedAt := by
  obtain ⟨request,stage⟩ := r
  cases stage with
  | served _ _ charged =>
    cases charged with
    | false => cases recorded
    | true => exact recorded
  | opening _ | wholeFile | refused _ | failed | consuming _ _ | charged _ _ => cases recorded

/-- A request goes on: it keeps what it has been charged, and is charged for what it has in flight only. -/
structure Goes (requests : List Ranged) (now : Nat) (i : Nat) (r r' : Ranged) : Prop where
  there : requests[i]? = some r
  key : r'.request.key = r.request.key
  keeps : ∀ t ∈ r.chargedAt, t ∈ r'.chargedAt
  charged : ∀ t ∈ r'.chargedAt, t ∈ r.chargedAt ∨ t ∈ r.inFlight
  recorded : ∀ t ∈ r'.recordedAt, t ∈ r.inFlight
  served : ∀ t ∈ r'.servedAt, t ∈ r'.chargedAt ∨ ∃ r'' ∈ requests, r''.request.key = r.request.key ∧
    ∃ t' ∈ r''.chargedAt, t' ≤ t ∧ t < t' + RANGE_QUOTA_DEDUP_MS
  flies : ∀ t ∈ r'.inFlight, t ∈ r.inFlight ∨ t = now ∧ 0 < now ∧ ∀ j q, requests[j]? = some q → j ≠ i → q.request.key = r.request.key →
    q.inFlight = none ∧ ∀ t' ∈ q.recordedAt, t' + RANGE_QUOTA_DEDUP_MS ≤ now

theorem mem_set_of_mem {q : Ranged} (there : requests[i]? = some r) (member : q ∈ requests) : q = r ∨ q ∈ requests.set i r' := by
  obtain ⟨j,found⟩ := List.mem_iff_getElem?.mp member
  by_cases here : j = i
  · subst here
    exact .inl (Option.mem_unique found there)
  · exact .inr (List.mem_iff_getElem?.mpr ⟨j,by rw [List.getElem?_set_ne (Ne.symm here)]; exact found⟩)

theorem charged_goes (goes : Goes requests now i r r') {q : Ranged} (member : q ∈ requests) (charged : t ∈ q.chargedAt) :
    ∃ q' ∈ requests.set i r', q'.request.key = q.request.key ∧ t ∈ q'.chargedAt := by
  rcases mem_set_of_mem goes.there member with rfl | still
  · exact ⟨r',List.mem_of_getElem? (at_set goes.there),goes.key,goes.keeps t charged⟩
  · exact ⟨q,still,rfl,charged⟩

theorem course_goes (course : Course requests now) (goes : Goes requests now i r r') : Course (requests.set i r') now := by
  have key := goes.key
  have mine := List.mem_of_getElem? goes.there
  constructor
  · intro q member t flies
    rcases List.mem_or_eq_of_mem_set member with old | rfl
    · exact course.timed q old t flies
    · rcases goes.flies t flies with before | ⟨rfl,positive,_⟩
      · exact course.timed r mine t before
      · exact ⟨positive,le_rfl⟩
  · have alone : ∀ j q, requests[j]? = some q → j ≠ i → q.request.key = r.request.key → r'.inFlight = none ∨ q.inFlight = none := by
      intro j q there other same
      cases flying : r'.inFlight with
      | none => exact .inl rfl
      | some t =>
        rcases goes.flies t flying with before | ⟨_,_,free⟩
        · refine (course.alone i j r q goes.there there (Ne.symm other) same.symm).imp (fun none => ?_) id
          rw [none] at before
          cases before
        · exact .inr (free j q there other same).1
    intro j k q q' there there' other same
    rcases at_of_set there with ⟨rfl,rfl⟩ | ⟨notMine,old⟩
    · rcases at_of_set there' with ⟨rfl,_⟩ | ⟨notMine',old'⟩
      · exact absurd rfl other
      · exact alone k q' old' notMine' (same.symm.trans key)
    · rcases at_of_set there' with ⟨rfl,rfl⟩ | ⟨_,old'⟩
      · exact (alone j q old notMine (same.trans key)).symm
      · exact course.alone j k q q' old old' other same
  · intro j k q q' there there' other same t flies t' recorded
    rcases at_of_set there with ⟨rfl,rfl⟩ | ⟨notMine,old⟩
    · rcases at_of_set there' with ⟨rfl,_⟩ | ⟨notMine',old'⟩
      · exact absurd rfl other
      · rcases goes.flies t flies with before | ⟨rfl,_,free⟩
        · exact course.ready j k r q' goes.there old' other (key.symm.trans same) t before t' recorded
        · exact (free k q' old' notMine' (same.symm.trans key)).2 t' recorded
    · rcases at_of_set there' with ⟨rfl,rfl⟩ | ⟨_,old'⟩
      · -- the one that is noted now was in flight, so the other was not
        have before := goes.recorded t' recorded
        rcases course.alone j k q r old goes.there other (same.trans key) with none | none
        · rw [none] at flies
          cases flies
        · rw [none] at before
          cases before
      · exact course.ready j k q q' old old' other same t flies t' recorded
  · have spaced : ∀ j q, requests[j]? = some q → j ≠ i → q.request.key = r.request.key → ∀ t ∈ r'.chargedAt, ∀ t' ∈ q.chargedAt,
        t + RANGE_QUOTA_DEDUP_MS ≤ t' ∨ t' + RANGE_QUOTA_DEDUP_MS ≤ t := by
      intro j q there other same t charged t' charged'
      rcases goes.charged t charged with before | flying
      · exact course.spaced i j r q goes.there there (Ne.symm other) same.symm t before t' charged'
      rcases chargedAt_cases charged' with flying' | recorded
      · rcases course.alone i j r q goes.there there (Ne.symm other) same.symm with none | none
        · rw [none] at flying
          cases flying
        · rw [none] at flying'
          cases flying'
      · exact .inr (course.ready i j r q goes.there there (Ne.symm other) same.symm t flying t' recorded)
    intro j k q q' there there' other same t charged t' charged'
    rcases at_of_set there with ⟨rfl,rfl⟩ | ⟨notMine,old⟩
    · rcases at_of_set there' with ⟨rfl,_⟩ | ⟨notMine',old'⟩
      · exact absurd rfl other
      · exact spaced k q' old' notMine' (same.symm.trans key) t charged t' charged'
    · rcases at_of_set there' with ⟨rfl,rfl⟩ | ⟨_,old'⟩
      · exact (spaced j q old notMine (same.trans key) t' charged' t charged).symm
      · exact course.spaced j k q q' old old' other same t charged t' charged'
  · intro q member t served
    rcases List.mem_or_eq_of_mem_set member with old | rfl
    · obtain ⟨q',payer,same,t',charged,le,recent⟩ := course.covered q old t served
      obtain ⟨q'',payer,same',charged⟩ := charged_goes goes payer charged
      exact ⟨q'',payer,same'.trans same,t',charged,le,recent⟩
    · rcases goes.served t served with charged | ⟨q',payer,same,t',charged,le,recent⟩
      · exact ⟨q,member,rfl,t,charged,le_rfl,Nat.lt_add_of_pos_right (by decide)⟩
      · obtain ⟨q'',payer,same',charged⟩ := charged_goes goes payer charged
        exact ⟨q'',payer,same'.trans (same.trans key.symm),t',charged,le,recent⟩

variable {rangeQuotaDedup : OrderedMap String Nat}

theorem noted_goes (noted : Noted requests rangeQuotaDedup now) (goes : Goes requests now i r r') (unrecorded : r'.recordedAt = none) :
    Noted (requests.set i r') rangeQuotaDedup now := by
  constructor
  · intro key t found
    obtain ⟨positive,le,q,member,same,charged⟩ := noted.known key t found
    obtain ⟨q',member',same',charged'⟩ := charged_goes goes member charged
    exact ⟨positive,le,q',member',same'.trans same,charged'⟩
  · intro q member t recorded recent
    rcases List.mem_or_eq_of_mem_set member with old | rfl
    · exact noted.noted q old t recorded recent
    · rw [unrecorded] at recorded
      cases recorded

theorem get_noteCharge {key other : String} (known : (noteCharge rangeQuotaDedup key t).get other = some t') :
    other = key ∧ t' = t ∨ rangeQuotaDedup.get other = some t' := by
  rcases get_of_set known with ⟨here,value⟩ | ⟨_,old⟩
  · exact .inl ⟨here,value⟩
  · split at old
    · cases old
    · exact .inr old

theorem noted_record (noted : Noted requests rangeQuotaDedup now) (course : Course requests now) (goes : Goes requests now i r r')
    (flying : t ∈ r.inFlight) (recorded : r'.recordedAt = some t)
    (orderly : 10000 < rangeQuotaDedup.entries.length → ∀ e ∈ rangeQuotaDedup.entries,
      e.1 = r.request.key ∨ e.2 + RANGE_QUOTA_DEDUP_MS ≤ now) :
    Noted (requests.set i r') (noteCharge rangeQuotaDedup r.request.key t) now := by
  constructor
  · intro key t' found
    rcases get_noteCharge found with ⟨rfl,rfl⟩ | old
    · obtain ⟨positive,le⟩ := course.timed r (List.mem_of_getElem? goes.there) t' flying
      exact ⟨positive,le,r',List.mem_of_getElem? (at_set goes.there),goes.key,charged_of_recorded recorded⟩
    · obtain ⟨positive,le,q,member,same,charged⟩ := noted.known key t' old
      obtain ⟨q',member',same',charged'⟩ := charged_goes goes member charged
      exact ⟨positive,le,q',member',same'.trans same,charged'⟩
  · intro q member t' recorded' recent
    obtain ⟨j,there⟩ := List.mem_iff_getElem?.mp member
    by_cases same : q.request.key = r.request.key
    · refine ⟨t,by rw [same]; exact get_set_same _ _ _,?_⟩
      rcases at_of_set there with ⟨rfl,rfl⟩ | ⟨notMine,old⟩
      · rw [recorded] at recorded'
        cases recorded'
        exact le_rfl
      · have := course.ready i j r q goes.there old (Ne.symm notMine) same.symm t flying t' recorded'
        omega
    · rcases List.mem_or_eq_of_mem_set member with old | rfl
      · obtain ⟨t'',found,le⟩ := noted.noted q old t' recorded' recent
        refine ⟨t'',?_,le⟩
        unfold noteCharge
        rw [get_set_other _ _ same]
        split
        · next large =>
          rcases orderly large _ ((get_eq_some_iff _ _ _).mp found) with here | tooOld
          · exact absurd here same
          · omega
        · exact found
      · exact absurd goes.key same

theorem goes_drop (there : requests[i]? = some r) {stage : RangeStage} (uncharged : r.chargedAt = none) (quiet : stage.Quiet) :
    Goes requests now i r { r with stage } := by
  obtain ⟨charged,served,flying,recorded⟩ := quiet_views (r := { r with stage }) quiet
  constructor
  · exact there
  all_goals simp [charged,served,flying,recorded,uncharged]

section
variable (noted : Noted requests rangeQuotaDedup now) (there : requests[i]? = some r) (opening : r.stage = .opening range)
include noted there opening

theorem goes_consume (old : shouldConsume (rangeQuotaDedup.get r.request.key) now = true) (positive : 0 < now)
    (free : ∀ q ∈ requests, q.request.key = r.request.key → q.inFlight = none) :
    Goes requests now i r { r with stage := .consuming range now } := by
  have uncharged : r.chargedAt = none := by simp [Ranged.chargedAt,opening]
  refine ⟨there,rfl,by simp [uncharged],nofun,nofun,nofun,fun t flies => ?_⟩
  cases flies
  refine .inr ⟨rfl,positive,fun j q there' _ same => ?_⟩
  have member := List.mem_of_getElem? there'
  refine ⟨free q member same,fun t' recorded => ?_⟩
  by_contra recent
  obtain ⟨t'',found,le⟩ := noted.noted q member t' recorded (by omega)
  obtain ⟨nonzero,past,_⟩ := noted.known _ _ found
  rw [same] at found
  simp only [found,shouldConsume,Bool.or_eq_true,decide_eq_true_eq] at old
  omega

theorem goes_ride (recent : shouldConsume (rangeQuotaDedup.get r.request.key) now = false) :
    Goes requests now i r { r with stage := .served range now false } := by
  have uncharged : r.chargedAt = none := by simp [Ranged.chargedAt,opening]
  refine ⟨there,rfl,by simp [uncharged],nofun,nofun,fun t served => ?_,nofun⟩
  cases served
  cases found : rangeQuotaDedup.get r.request.key with
  | none => simp [found,shouldConsume] at recent
  | some last =>
    obtain ⟨_,le,payer,member,same,charged⟩ := noted.known _ _ found
    simp only [found,shouldConsume,Bool.or_eq_false_iff,decide_eq_false_iff_not] at recent
    exact .inr ⟨payer,member,same,last,charged,le,by omega⟩

end

theorem goes_charge (there : requests[i]? = some r) (consuming : r.stage = .consuming range t) :
    Goes requests now i r { r with stage := .charged range t } := by
  have uncharged : r.chargedAt = none := by simp [Ranged.chargedAt,consuming]
  have flying : r.inFlight = some t := by simp [Ranged.inFlight,consuming]
  exact ⟨there,rfl,by simp [uncharged],fun t' charged => .inr (flying ▸ charged),nofun,nofun,fun t' flies => .inl (flying ▸ flies)⟩

theorem goes_record (there : requests[i]? = some r) (charged : r.stage = .charged range t) :
    Goes requests now i r { r with stage := .served range t true } := by
  have was : r.chargedAt = some t := by simp [Ranged.chargedAt,charged]
  have flying : r.inFlight = some t := by simp [Ranged.inFlight,charged]
  refine ⟨there,rfl,fun t' before => ?_,fun t' after => .inl ?_,fun t' recorded => flying ▸ recorded,fun t' served => .inl served,nofun⟩
  · rw [was] at before
    exact before
  · rw [was]
    exact after

theorem course_arrive (course : Course requests now) (quiet : r.stage.Quiet) : Course (requests ++ [r]) now := by
  obtain ⟨charged,served,flying,recorded⟩ := quiet_views quiet
  constructor
  · intro q member t flies
    rcases List.mem_append.mp member with old | new
    · exact course.timed q old t flies
    · rw [List.mem_singleton.mp new,flying] at flies
      cases flies
  · intro j k q q' there there' other same
    rcases at_of_append there with old | ⟨_,rfl⟩
    · rcases at_of_append there' with old' | ⟨_,rfl⟩
      · exact course.alone j k q q' old old' other same
      · exact .inr flying
    · exact .inl flying
  · intro j k q q' there there' other same t flies t' recorded'
    rcases at_of_append there with old | ⟨_,rfl⟩
    · rcases at_of_append there' with old' | ⟨_,rfl⟩
      · exact course.ready j k q q' old old' other same t flies t' recorded'
      · rw [recorded] at recorded'
        cases recorded'
    · rw [flying] at flies
      cases flies
  · intro j k q q' there there' other same t charged' t' charged''
    rcases at_of_append there with old | ⟨_,rfl⟩
    · rcases at_of_append there' with old' | ⟨_,rfl⟩
      · exact course.spaced j k q q' old old' other same t charged' t' charged''
      · rw [charged] at charged''
        cases charged''
    · rw [charged] at charged'
      cases charged'
  · intro q member t served'
    rcases List.mem_append.mp member with old | new
    · obtain ⟨q',payer,rest⟩ := course.covered q old t served'
      exact ⟨q',List.mem_append_left _ payer,rest⟩
    · rw [List.mem_singleton.mp new,served] at served'
      cases served'

theorem noted_arrive (noted : Noted requests rangeQuotaDedup now) (quiet : r.stage.Quiet) : Noted (requests ++ [r]) rangeQuotaDedup now := by
  obtain ⟨_,_,_,recorded⟩ := quiet_views quiet
  constructor
  · intro key t found
    obtain ⟨positive,le,q,member,rest⟩ := noted.known key t found
    exact ⟨positive,le,q,List.mem_append_left _ member,rest⟩
  · intro q member t recorded' recent
    rcases List.mem_append.mp member with old | new
    · exact noted.noted q old t recorded' recent
    · rw [List.mem_singleton.mp new,recorded] at recorded'
      cases recorded'

theorem course_tick {ms : Nat} (course : Course requests now) : Course requests (now + ms) :=
  ⟨fun r member t flies => ⟨(course.timed r member t flies).1,Nat.le_add_right_of_le (course.timed r member t flies).2⟩,
    course.alone,course.ready,course.spaced,course.covered⟩

theorem noted_tick {ms : Nat} (noted : Noted requests rangeQuotaDedup now) : Noted requests rangeQuotaDedup (now + ms) := by
  refine ⟨fun key t found => ?_,fun r member t recorded recent => noted.noted r member t recorded (by omega)⟩
  obtain ⟨positive,le,rest⟩ := noted.known key t found
  exact ⟨positive,Nat.le_add_right_of_le le,rest⟩

structure Inv (s : State) : Prop where
  course : Course s.requests s.now
  noted : Noted s.requests s.rangeQuotaDedup s.now
  positive : 0 < s.now

theorem inv_start (positive : 0 < now) : Inv (.start files now) := by
  refine ⟨⟨?_,?_,?_,?_,?_⟩,⟨?_,?_⟩,positive⟩
  all_goals simp [State.start,OrderedMap.get,OrderedMap.empty]

theorem inv_step {l : Label} (inv : Inv s) (orderly : Orderly s l) : Inv (step sha1 s l) := by
  obtain ⟨course,noted,positive⟩ := inv
  have move := step_moves sha1 s l
  generalize step sha1 s l = s' at move ⊢
  cases move with
  | tick => exact ⟨course_tick course,noted_tick noted,Nat.add_pos_left positive _⟩
  | edit _ | access _ | count _ _ _ _ | deny _ _ _ | stay => exact ⟨course,noted,positive⟩
  | arrive quiet => exact ⟨course_arrive course quiet,noted_arrive noted quiet,positive⟩
  | drop there uncharged _ quiet =>
    have goes : Goes s.requests s.now _ _ _ := goes_drop there uncharged quiet
    exact ⟨course_goes course goes,noted_goes noted goes (quiet_views quiet).2.2.2,positive⟩
  | consume there opening old =>
    have goes : Goes s.requests s.now _ _ _ := goes_consume noted there opening old positive (orderly rfl _ there)
    exact ⟨course_goes course goes,noted_goes noted goes rfl,positive⟩
  | ride there opening recent =>
    have goes : Goes s.requests s.now _ _ _ := goes_ride noted there opening recent
    exact ⟨course_goes course goes,noted_goes noted goes rfl,positive⟩
  | charge there consuming _ _ =>
    have goes : Goes s.requests s.now _ _ _ := goes_charge there consuming
    exact ⟨course_goes course goes,noted_goes noted goes rfl,positive⟩
  | record there charged =>
    have goes : Goes s.requests s.now _ _ _ := goes_record there charged
    exact ⟨course_goes course goes,
      noted_record noted course goes (by simp [Ranged.inFlight,charged]) rfl (fun large => orderly large _ there),positive⟩

/-! ### What is counted -/

theorem charges_of_uncharged (uncharged : r.chargedAt = none) : r.charges id = false := by simp [Ranged.charges,uncharged]

theorem units_goes (id : Uuid) (there : s.requests[i]? = some r) (stage : RangeStage) :
    (s.goes i r stage).units id + (if r.charges id then 1 else 0) = s.units id + (if Ranged.charges id { r with stage } then 1 else 0) := by
  have replaced := countP_replace (y := { r with stage }) (Ranged.charges id) there
  simp only [State.units,State.goes]
  omega

theorem units_answers (id : Uuid) (there : s.accesses[i]? = some a) (stage : AccessStage) :
    (s.answers i a stage).units id + (if a.counts id then 1 else 0) = s.units id + (if Access.counts id { a with stage } then 1 else 0) := by
  have replaced := countP_replace (y := { a with stage }) (Access.counts id) there
  simp only [State.units,State.answers]
  omega

theorem units_goes_same (there : s.requests[i]? = some r) (stage : RangeStage)
    (same : Ranged.chargedAt { r with stage } = r.chargedAt) : (s.goes i r stage).units id = s.units id := by
  have both := units_goes id there stage
  have same : Ranged.charges id { r with stage } = r.charges id := by simp only [Ranged.charges,same]
  rw [same] at both
  omega

theorem metered_same (metered : Metered id file s) (files : s'.files.get id = s.files.get id) (units : s'.units id = s.units id) :
    Metered id file s' := by
  unfold Metered
  rw [files,units]
  exact metered

theorem metered_more (metered : Metered id file s) (found : s.files.get id = some row)
    (left : row.currentAccessCount < row.maxAccessCount)
    (files : s'.files.get id = some { row with currentAccessCount := row.currentAccessCount + 1 })
    (units : s'.units id = s.units id + 1) : Metered id file s' := by
  obtain ⟨row',found',rfl,_⟩ := metered
  cases found'.symm.trans found
  refine ⟨_,files,?_,?_⟩
  · rw [units,Nat.add_assoc]
  · push_cast at left ⊢
    omega

theorem metered_other {other : Uuid} (metered : Metered id file s) (notMine : id ≠ other)
    (files : s'.files = s.files.set other row) (units : s'.units id = s.units id) : Metered id file s' :=
  metered_same metered (by rw [files,get_set_other _ _ notMine]) units

theorem metered_charge (metered : Metered id file s) (bounded : 0 < file.maxAccessCount) (there : s.requests[i]? = some r)
    (consuming : r.stage = .consuming range t) (found : s.files.get r.request.id = some row)
    (left : row.maxAccessCount ≤ 0 ∨ row.currentAccessCount < row.maxAccessCount) :
    Metered id file { s.goes i r (.charged range t) with
      files := s.files.set r.request.id { row with currentAccessCount := row.currentAccessCount + 1 } } := by
  have units := units_goes id there (.charged range t)
  rw [charges_of_uncharged (by simp [Ranged.chargedAt,consuming])] at units
  by_cases mine : id = r.request.id
  · subst mine
    obtain ⟨row',found',same,_⟩ := id metered
    cases found'.symm.trans found
    have left : row.currentAccessCount < row.maxAccessCount := left.resolve_left (by rw [same]; exact Int.not_le.mpr bounded)
    refine metered_more metered found left (get_set_same _ _ _) ?_
    have charged : Ranged.charges r.request.id { r with stage := .charged range t } = true := by simp [Ranged.charges,Ranged.chargedAt]
    rw [charged] at units
    exact units
  · have uncharged : Ranged.charges id { r with stage := .charged range t } = false := by simp [Ranged.charges,Ne.symm mine]
    rw [uncharged] at units
    exact metered_other metered mine rfl units

theorem metered_count (metered : Metered id file s) (there : s.accesses[i]? = some a) (counting : a.stage = .counting)
    (found : s.files.get a.id = some row) (left : row.currentAccessCount < row.maxAccessCount) :
    Metered id file { s.answers i a (.allowed true) with
      files := s.files.set a.id { row with currentAccessCount := row.currentAccessCount + 1 } } := by
  have units := units_answers id there (.allowed true)
  have before : a.counts id = false := by simp [Access.counts,counting]
  rw [before] at units
  by_cases mine : id = a.id
  · subst mine
    have counted : Access.counts a.id { a with stage := .allowed true } = true := by simp [Access.counts]
    rw [counted] at units
    exact metered_more metered found left (get_set_same _ _ _) units
  · have uncounted : Access.counts id { a with stage := .allowed true } = false := by simp [Access.counts,Ne.symm mine]
    rw [uncounted] at units
    exact metered_other metered mine rfl units

theorem metered_deny {stage : AccessStage} (metered : Metered id file s) (there : s.accesses[i]? = some a) (counting : a.stage = .counting)
    (uncounted : stage ≠ .allowed true) : Metered id file (s.answers i a stage) := by
  refine metered_same metered rfl ?_
  have units := units_answers id there stage
  simpa [Access.counts,counting,uncounted] using units

theorem metered_step {l : Label} (metered : Metered id file s) (bounded : 0 < file.maxAccessCount) (unedited : Unedited id l) :
    Metered id file (step sha1 s l) := by
  have move := step_moves sha1 s l
  generalize step sha1 s l = s' at move ⊢
  cases move with
  | tick | stay => exact metered
  | edit others => exact metered_same metered (others id (Ne.symm unedited)) rfl
  | arrive quiet =>
    refine metered_same metered rfl ?_
    simp [State.units,charges_of_uncharged (quiet_views (r := ⟨_,_⟩) quiet).1]
  | drop there uncharged _ quiet =>
    exact metered_same metered rfl (units_goes_same there _ ((quiet_views quiet).1.trans uncharged.symm))
  | consume there opening _ | ride there opening _ =>
    exact metered_same metered rfl (units_goes_same there _ (by simp [Ranged.chargedAt,opening]))
  | charge there consuming found left => exact metered_charge metered bounded there consuming found left
  | record there charged => exact metered_same metered rfl (units_goes_same there _ (by simp [Ranged.chargedAt,charged]))
  | access uncounted =>
    refine metered_same metered rfl ?_
    simp [State.units,Access.counts,uncounted]
  | count there counting found left => exact metered_count metered there counting found left
  | deny there counting uncounted => exact metered_deny metered there counting uncounted

/-- A player pays for its ranges once in a while, and the bound is kept. -/
theorem charged_once {files : Files} (positive : 0 < now) (found : files.get id = some file) (bounded : 0 < file.maxAccessCount)
    (within : file.currentAccessCount ≤ file.maxAccessCount)
    (reach : Reachable (step sha1) (fun s l => Unedited id l ∧ Orderly s l) (.start files now) s) :
    Metered id file s ∧ Spaced s ∧ Covered s := by
  have inv : Inv s := reachable_invariant (inv_start positive) (fun _ _ inv ok => inv_step inv ok.2) reach
  refine ⟨reachable_invariant ⟨file,found,rfl,within⟩ (fun _ _ metered ok => metered_step metered bounded ok.1) reach,?_,?_⟩
  · intro i j r r' there there' other same
    exact inv.course.spaced i j r r' there there' other (key_eq_iff.mpr same)
  · intro r member t served
    obtain ⟨payer,member',same,rest⟩ := inv.course.covered r member t served
    exact ⟨payer,member',key_eq_iff.mp same,rest⟩

def film : Uuid := ⟨"film",by decide⟩
def viewer : User := ⟨⟨"viewer",by decide⟩,false⟩
def filmRow : File := ⟨viewer.id,100,.ready,1,2,0,none,none⟩
def films : Files := OrderedMap.empty.set film filmRow

def filmDigest : String → String
  | "film:1:100" => "b5e4dc3a91ef5ec03be4e48450c5f7d4d65724c4"
  | _ => ""

def part (rangeHeader : String) : RangeRequest :=
  ⟨film,viewer,rangeHeader,some "10.0.0.1",some "\"b5e4dc3a91ef5ec03be4e48450c5f7d4d65724c4\""⟩

def twoParts : List Label := [.range (part "bytes=0-49"),.look 0 true,.charge 0,.record 0,.tick 9000,.range (part "bytes=50-"),.look 1 true,.access film,.count 0]

theorem parts_paid_once : ∃ s, Reachable (step filmDigest) (fun s l => Unedited film l ∧ Orderly s l) (.start films 1) s ∧
    s.requests.map Ranged.servedAt = [some 1,some 9001] ∧ s.units film = 2 ∧ Metered film filmRow s ∧ Spaced s ∧ Covered s :=
  have reach := reachable_run .start twoParts (by decide +kernel)
  ⟨_,reach,by decide +kernel,by decide +kernel,charged_once (by decide) (by decide +kernel) (by decide) (by decide) reach⟩

def bothAtOnce : List Label := [.range (part "bytes=0-49"),.range (part "bytes=50-"),.look 0 true,.look 1 true,.charge 0,.record 0,.charge 1,.record 1]

theorem both_charged : ¬ ∀ s, Reachable (step filmDigest) (fun _ l => Unedited film l) (.start films 1) s → Spaced s := by
  intro always
  have legal : Legal (step filmDigest) (fun _ l => Unedited film l) (.start films 1) bothAtOnce := by decide +kernel
  have spaced := always _ (reachable_run .start bothAtOnce legal)
  have apart := spaced 0 1 ⟨part "bytes=0-49",.served ⟨0,49,false⟩ 1 true⟩ ⟨part "bytes=50-",.served ⟨50,99,false⟩ 1 true⟩
    (by decide +kernel) (by decide +kernel) (by decide) ⟨rfl,rfl,rfl⟩ 1 rfl 1 rfl
  exact absurd apart (by decide)

end
end Tgtc.RangeQuota
