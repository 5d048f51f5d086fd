import Mathlib.Order.Nat
import Tgtc.AccountPool
import Tgtc.FileCopies

/-!
Where the file behind a link of the Bot is read from. An id of a file is good for the account that has it only, so the
copies of the other accounts are tried with their own ids, and then the account that has received the file.
-/
namespace Tgtc.BotDownloads
open AccountPool (Config trim orElse)
open FileCopies (Key Copy OwnerType CopyStatus)
open List (mem_singleton not_mem_nil)

/-- What the download reads of a `TelegramBotFileGrant`. -/
structure Grant where
  telegramFileId : String
  fileUniqueId : Option String
  chatId : String
  messageId : String
  sourceAccountId : Option String

abbrev Row := Key × Copy

/-- A request for a file: by an account of the pool, or by the Bot of `TELEGRAM_BOT_TOKEN`. -/
inductive Upstream where
  | account (accountId fileId : String)
  | standard (fileId : String)
deriving DecidableEq

inductive Admission where
  | granted
  | denied (coolingDown : Bool) (retryAfterMs : Option Nat)

/-- What the calls of one download are answered. The rounds of a loop are numbered downwards. -/
structure World where
  /-- `isActive`, as the controller asks -/
  active : Bool
  fileCopies : Bool
  /-- `isActive`, as the pool asks -/
  poolActive : Bool
  isStreamingEnabled : Bool
  anchors : Option (List Row)
  copies : Option (List Row)
  select : Nat → List String → Option String
  getConfig : Nat → String → Option Config
  admission : Nat → String → Admission
  failure : Nat → Upstream → Option Nat
  describe : List String → Nat
  hasAccount : String → Bool
  sourceConfig : String → Option Config
  sourceAdmission : String → Admission
  sourceFailure : Upstream → Option Nat
  standard : Bool
  TELEGRAM_BOT_TOKEN : String
  select_mem : ∀ n candidates id, select n candidates = some id → id ∈ candidates
  config_id : ∀ n id config, getConfig n id = some config → config.id = id
  source_id : ∀ id config, sourceConfig id = some config → config.id = id

inductive Reason where
  | poolInactive | noReadyCopies | copyLookupFailed | allCandidatesBusy | upstreamAttemptsFailed
  | sourceAccountUnknown | sourceAccountDisabled | sourceCoolingDown | sourceCapacityBusy | sourceStreamFailed
deriving DecidableEq

/-- `AccountAwareDownloadFailure`; what is counted is told in the log only. -/
structure Failure where
  reason : Reason
  retryAfterMs : Nat

structure Tried (ε : Type) where
  requests : List Upstream
  outcome : Except ε Upstream

def MAX_ACCOUNT_ATTEMPTS : Nat := 8

def CAPACITY_RETRY_AFTER_MS : Nat := 5000

def ANCHOR_RESOLVE_MAX_ROWS : Nat := 200

def listReady (rows : List Row) (ownerType : OwnerType) (ownerId : String) : List Row :=
  rows.filter fun row => row.1.ownerType = ownerType && row.1.ownerId = ownerId && row.2.status = .ready

def order : OwnerType → Nat
  | .fileUnique => 0
  | .file => 1
  | .grant => 2

def precedes (left right : Row) : Bool :=
  if order left.1.ownerType ≠ order right.1.ownerType then order left.1.ownerType < order right.1.ownerType
  else if left.1.ownerId ≠ right.1.ownerId then left.1.ownerId < right.1.ownerId
  else left.1.accountId < right.1.accountId

def findByAnchor (rows : List Row) (chatId messageId : String) : Option Row :=
  match (rows.filter fun row => row.2.chatId = some chatId && row.2.messageId = some messageId).take ANCHOR_RESOLVE_MAX_ROWS with
  | [] => none
  | first :: rest => some (rest.foldl (fun winner row => if precedes row winner then row else winner) first)

def resolveCopyOwner (w : World) (grant : Grant) : Except Unit (Option (OwnerType × String)) :=
  let fileUniqueId := trim (grant.fileUniqueId.getD "")
  if fileUniqueId ≠ "" then .ok (some (.fileUnique,fileUniqueId))
  else
    let chatId := trim grant.chatId
    let messageId := trim grant.messageId
    if chatId = "" || messageId = "" then .ok none
    else match w.anchors with
      | some rows => .ok ((findByAnchor rows chatId messageId).map fun row => (row.1.ownerType,row.1.ownerId))
      | none => .error ()

/-- The accounts that have a copy, one after the other; none is tried twice. -/
def openFrom (w : World) (ready : List Row) (maxAttempts : Nat) : Nat → List String → Nat → Failure → Tried Failure
  | 0, _, _, last => ⟨[],.error last⟩
  | round + 1, candidates, attempts, last =>
    if maxAttempts ≤ attempts || candidates = [] then ⟨[],.error last⟩
    else match w.select round candidates with
      | none => ⟨[],.error ⟨.allCandidatesBusy,w.describe candidates⟩⟩
      | some id =>
        let others := candidates.filter (· ≠ id)
        match w.getConfig round id, ready.find? (·.1.accountId = id) with
        | some account, some copy => match w.admission round account.id with
          | .denied _ retryAfterMs =>
            openFrom w ready maxAttempts round others (attempts + 1) ⟨.allCandidatesBusy,retryAfterMs.getD CAPACITY_RETRY_AFTER_MS⟩
          | .granted =>
            let upstream := Upstream.account account.id copy.2.telegramFileId
            match w.failure round upstream with
            | none => ⟨[upstream],.ok upstream⟩
            | some retryAfterMs =>
              let rest := openFrom w ready maxAttempts round others (attempts + 1) ⟨.upstreamAttemptsFailed,retryAfterMs⟩
              ⟨upstream :: rest.requests,rest.outcome⟩
        | _, _ => openFrom w ready maxAttempts round others attempts ⟨.allCandidatesBusy,5000⟩

def openStream (w : World) (ownerType : OwnerType) (ownerId : String) : Except Unit (Tried Failure) :=
  if !w.poolActive then .ok ⟨[],.error ⟨.poolInactive,5000⟩⟩
  else if !w.isStreamingEnabled then .ok ⟨[],.error ⟨.upstreamAttemptsFailed,5000⟩⟩
  else match w.copies with
    | none => .error ()
    | some rows =>
      let ready := listReady rows ownerType ownerId
      let readyAccountIds := (ready.map (·.1.accountId)).dedup
      if readyAccountIds = [] then .ok ⟨[],.error ⟨.noReadyCopies,5000⟩⟩
      else .ok (openFrom w ready (min MAX_ACCOUNT_ATTEMPTS readyAccountIds.length) readyAccountIds.length readyAccountIds 0
        ⟨.allCandidatesBusy,5000⟩)

def openSourceStream (w : World) (accountId fileId : String) : Tried Failure := match w.sourceConfig accountId with
  | none => ⟨[],.error ⟨.sourceAccountUnknown,5000⟩⟩
  | some account =>
    if !account.enabled then ⟨[],.error ⟨.sourceAccountDisabled,5000⟩⟩
    else match w.sourceAdmission account.id with
      | .denied true retryAfterMs => ⟨[],.error ⟨.sourceCoolingDown,max 5000 (retryAfterMs.getD 0)⟩⟩
      | .denied false retryAfterMs => ⟨[],.error ⟨.sourceCapacityBusy,max CAPACITY_RETRY_AFTER_MS (retryAfterMs.getD 0)⟩⟩
      | .granted =>
        -- no request is made where streams are not configured
        if !w.isStreamingEnabled then ⟨[],.error ⟨.sourceStreamFailed,CAPACITY_RETRY_AFTER_MS⟩⟩
        else
          let upstream := Upstream.account account.id fileId
          match w.sourceFailure upstream with
          | none => ⟨[upstream],.ok upstream⟩
          | some retryAfterMs => ⟨[upstream],.error ⟨.sourceStreamFailed,retryAfterMs⟩⟩

inductive ErrorCode where
  | SOURCE_ACCOUNT_UNAVAILABLE | ACCOUNT_POOL_BUSY

inductive Error where
  | unavailable (errorCode : ErrorCode) (message : String) (retryAfterMs : Nat)
  | standard

def Grant.source (grant : Grant) : String := trim (grant.sourceAccountId.getD "")

def defaultBotId (w : World) : Option String :=
  let botId := trim (String.ofList ((trim w.TELEGRAM_BOT_TOKEN).toList.takeWhile (· ≠ ':')))
  if botId ≠ "" && botId.toList.all Char.isDigit then some botId else none

def singleAccountStream (w : World) (grant : Grant) : Tried Error :=
  ⟨[.standard grant.telegramFileId],if w.standard then .ok (.standard grant.telegramFileId) else .error .standard⟩

def tryPooledStream (w : World) (grant : Grant) : Tried Failure :=
  if !w.fileCopies then ⟨[],.error ⟨.copyLookupFailed,5000⟩⟩
  else match resolveCopyOwner w grant with
    | .error _ => ⟨[],.error ⟨.copyLookupFailed,5000⟩⟩
    | .ok none => ⟨[],.error ⟨.noReadyCopies,5000⟩⟩
    | .ok (some (ownerType,ownerId)) => match openStream w ownerType ownerId with
      | .error _ => ⟨[],.error ⟨.copyLookupFailed,5000⟩⟩
      | .ok tried => tried

def trySourceAccountStream (w : World) (grant : Grant) : Tried (Failure ⊕ Error) :=
  if grant.source = "" then ⟨[],.error (.inl ⟨.sourceAccountUnknown,5000⟩)⟩
  else if w.hasAccount grant.source then
    let tried := openSourceStream w grant.source grant.telegramFileId
    ⟨tried.requests,tried.outcome.mapError .inl⟩
  else if some grant.source = defaultBotId w then
    let tried := singleAccountStream w grant
    ⟨tried.requests,tried.outcome.mapError .inr⟩
  else ⟨[],.error (.inl ⟨.sourceAccountUnknown,5000⟩)⟩

def unavailable (grant : Grant) (failure : Failure) : Error :=
  let identityUnknown := grant.source = ""
  let capacityBusy := failure.reason = .sourceCoolingDown || failure.reason = .sourceCapacityBusy || failure.reason = .allCandidatesBusy
  .unavailable (if identityUnknown then .SOURCE_ACCOUNT_UNAVAILABLE else if capacityBusy then .ACCOUNT_POOL_BUSY else .SOURCE_ACCOUNT_UNAVAILABLE)
    (if identityUnknown then "文件来源账号无法确认；为避免跨账号误用 file_id，暂不提供下载"
      else if capacityBusy then "文件来源账号当前繁忙或正在限流，请稍后重试"
      else "文件来源账号暂不可用，请稍后重试")
    (max 5000 failure.retryAfterMs)

def acquireUpstreamStream (w : World) (grant : Grant) : Tried Error :=
  if w.active then
    let pooled := tryPooledStream w grant
    match pooled.outcome with
    | .ok upstream => ⟨pooled.requests,.ok upstream⟩
    | .error _ =>
      let fallback := trySourceAccountStream w grant
      match fallback.outcome with
      | .ok upstream => ⟨pooled.requests ++ fallback.requests,.ok upstream⟩
      | .error (.inl failure) => ⟨pooled.requests ++ fallback.requests,.error (unavailable grant failure)⟩
      | .error (.inr error) => ⟨pooled.requests ++ fallback.requests,.error error⟩
  else singleAccountStream w grant

/-- A ready row of an account; where the grant tells its content, one of that content. -/
def ReadyCopy (w : World) (grant : Grant) : Upstream → Prop
  | .account accountId fileId => ∃ rows ∈ w.copies, ∃ row ∈ rows, row.2.status = .ready ∧ row.1.accountId = accountId ∧
      row.2.telegramFileId = fileId ∧ (trim (grant.fileUniqueId.getD "") ≠ "" →
        row.1.ownerType = .fileUnique ∧ row.1.ownerId = trim (grant.fileUniqueId.getD ""))
  | .standard _ => False

/-- The account that has received the file, with its own id of it. -/
def FromSource (w : World) (grant : Grant) : Upstream → Prop
  | .account accountId fileId => accountId = grant.source ∧ fileId = grant.telegramFileId
  | .standard fileId => defaultBotId w = some grant.source ∧ fileId = grant.telegramFileId

def SourceUnknown (w : World) (grant : Grant) : Prop :=
  grant.source = "" ∨ w.hasAccount grant.source = false ∧ defaultBotId w ≠ some grant.source

/-- No id of a file goes to another account, and a source that is not known is not replaced. -/
structure FailsClosed (w : World) (grant : Grant) : Prop where
  owned : ∀ upstream ∈ (acquireUpstreamStream w grant).requests, ReadyCopy w grant upstream ∨ FromSource w grant upstream
  closed : SourceUnknown w grant → (∀ upstream ∈ (acquireUpstreamStream w grant).requests, ReadyCopy w grant upstream) ∧
    ∀ upstream, (acquireUpstreamStream w grant).outcome = .ok upstream → ReadyCopy w grant upstream

section
variable {w : World} {grant : Grant} {rows ready : List Row} {ownerType : OwnerType} {ownerId : String} {upstream : Upstream}

def OfRow (rows : List Row) (upstream : Upstream) : Prop := ∃ row ∈ rows, upstream = .account row.1.accountId row.2.telegramFileId

theorem openFrom_rows (w : World) (ready : List Row) (maxAttempts round : Nat) : ∀ (candidates : List String) (attempts : Nat) (last : Failure),
    (∀ upstream ∈ (openFrom w ready maxAttempts round candidates attempts last).requests, OfRow ready upstream) ∧
    ∀ upstream, (openFrom w ready maxAttempts round candidates attempts last).outcome = .ok upstream → OfRow ready upstream := by
  induction round with
  | zero => exact fun _ _ _ => ⟨nofun,nofun⟩
  | succ round ih =>
    intro candidates attempts last
    unfold openFrom
    split
    · exact ⟨nofun,nofun⟩
    split
    · exact ⟨nofun,nofun⟩
    next id selected =>
    dsimp only
    split
    · next account copy config found =>
      have own : OfRow ready (.account account.id copy.2.telegramFileId) := by
        have name : copy.1.accountId = id := by simpa using List.find?_some found
        exact ⟨copy,List.mem_of_find?_eq_some found,by rw [name,w.config_id _ _ _ config]⟩
      split
      · exact ih _ _ _
      split
      · refine ⟨fun upstream member => ?_,fun upstream opened => ?_⟩
        · rw [mem_singleton.mp member]
          exact own
        · cases opened
          exact own
      · refine ⟨fun upstream member => ?_,(ih _ _ _).2⟩
        rcases List.mem_cons.mp member with rfl | later
        · exact own
        · exact (ih _ _ _).1 upstream later
    · exact ih _ _ _

theorem openStream_rows {tried : Tried Failure} (opened : openStream w ownerType ownerId = .ok tried) :
    (∀ upstream ∈ tried.requests, ∃ rows ∈ w.copies, OfRow (listReady rows ownerType ownerId) upstream) ∧
    ∀ upstream, tried.outcome = .ok upstream → ∃ rows ∈ w.copies, OfRow (listReady rows ownerType ownerId) upstream := by
  unfold openStream at opened
  split at opened
  · cases opened
    exact ⟨nofun,nofun⟩
  split at opened
  · cases opened
    exact ⟨nofun,nofun⟩
  split at opened
  · cases opened
  next rows listed =>
  dsimp only at opened
  split at opened
  · cases opened
    exact ⟨nofun,nofun⟩
  cases opened
  have each := openFrom_rows w (listReady rows ownerType ownerId)
    (min MAX_ACCOUNT_ATTEMPTS ((listReady rows ownerType ownerId).map (·.1.accountId)).dedup.length)
    ((listReady rows ownerType ownerId).map (·.1.accountId)).dedup.length
    ((listReady rows ownerType ownerId).map (·.1.accountId)).dedup 0 ⟨.allCandidatesBusy,5000⟩
  exact ⟨fun upstream member => ⟨rows,listed,each.1 upstream member⟩,fun upstream done => ⟨rows,listed,each.2 upstream done⟩⟩

section
variable (resolved : resolveCopyOwner w grant = .ok (some (ownerType,ownerId)))
include resolved

theorem resolveCopyOwner_some (tells : trim (grant.fileUniqueId.getD "") ≠ "") : ownerType = .fileUnique ∧ ownerId = trim (grant.fileUniqueId.getD "") := by
  simp only [resolveCopyOwner,tells,ne_eq,not_false_eq_true,if_true,Except.ok.injEq,Option.some.injEq,Prod.mk.injEq] at resolved
  exact ⟨resolved.1.symm,resolved.2.symm⟩

theorem readyCopy_of_row (own : ∃ rows ∈ w.copies, OfRow (listReady rows ownerType ownerId) upstream) : ReadyCopy w grant upstream := by
  obtain ⟨rows,listed,row,member,rfl⟩ := own
  obtain ⟨there,ready⟩ := List.mem_filter.mp member
  simp only [Bool.and_eq_true,decide_eq_true_eq] at ready
  obtain ⟨⟨type,owner⟩,status⟩ := ready
  refine ⟨rows,listed,row,there,status,rfl,rfl,fun tells => ?_⟩
  obtain ⟨fileUnique,own⟩ := resolveCopyOwner_some resolved tells
  exact ⟨type.trans fileUnique,owner.trans own⟩

end

theorem tryPooledStream_ready :
    (∀ upstream ∈ (tryPooledStream w grant).requests, ReadyCopy w grant upstream) ∧
    ∀ upstream, (tryPooledStream w grant).outcome = .ok upstream → ReadyCopy w grant upstream := by
  unfold tryPooledStream
  split
  · exact ⟨nofun,nofun⟩
  split
  · exact ⟨nofun,nofun⟩
  · exact ⟨nofun,nofun⟩
  · next ownerType ownerId resolved =>
    split
    · exact ⟨nofun,nofun⟩
    · next tried opened =>
      obtain ⟨asked,done⟩ := openStream_rows opened
      exact ⟨fun upstream member => readyCopy_of_row resolved (asked upstream member),
        fun upstream ok => readyCopy_of_row resolved (done upstream ok)⟩

theorem openSourceStream_source : ∀ upstream ∈ (openSourceStream w grant.source grant.telegramFileId).requests,
    FromSource w grant upstream := by
  intro upstream member
  unfold openSourceStream at member
  split at member
  · exact absurd member not_mem_nil
  next account config =>
  split at member
  · exact absurd member not_mem_nil
  split at member
  · exact absurd member not_mem_nil
  · exact absurd member not_mem_nil
  · split at member
    · exact absurd member not_mem_nil
    have own : FromSource w grant (.account account.id grant.telegramFileId) := ⟨w.source_id _ _ config,rfl⟩
    dsimp only at member
    split at member
    · rw [mem_singleton.mp member]
      exact own
    · rw [mem_singleton.mp member]
      exact own

theorem trySourceAccountStream_source : ∀ upstream ∈ (trySourceAccountStream w grant).requests, FromSource w grant upstream := by
  intro upstream member
  unfold trySourceAccountStream at member
  split at member
  · exact absurd member not_mem_nil
  split at member
  · exact openSourceStream_source upstream member
  · split at member
    · next same =>
      rw [mem_singleton.mp member]
      exact ⟨same.symm,rfl⟩
    · exact absurd member not_mem_nil

theorem trySourceAccountStream_unknown (unknown : SourceUnknown w grant) :
    trySourceAccountStream w grant = ⟨[],.error (.inl ⟨.sourceAccountUnknown,5000⟩)⟩ := by
  unfold trySourceAccountStream
  rcases unknown with empty | ⟨gone,other⟩
  · rw [if_pos empty]
  · simp only [gone,Ne.symm other]
    split <;> rfl

/-- While the pool is active every id is used with its own account; while it is not, the default Bot is
asked once, with the id of the grant. -/
theorem links_fail_closed (w : World) (grant : Grant) : (w.active = true → FailsClosed w grant) ∧
    (w.active = false → (acquireUpstreamStream w grant).requests = [.standard grant.telegramFileId]) := by
  refine ⟨fun active => ⟨fun upstream member => ?_,fun unknown => ?_⟩,fun inactive => ?_⟩
  · simp only [acquireUpstreamStream,active,if_true] at member
    split at member
    · exact .inl (tryPooledStream_ready.1 upstream member)
    · have asked : upstream ∈ (tryPooledStream w grant).requests ++ (trySourceAccountStream w grant).requests := by
        split at member <;> exact member
      rcases List.mem_append.mp asked with pooled | source
      · exact .inl (tryPooledStream_ready.1 upstream pooled)
      · exact .inr (trySourceAccountStream_source upstream source)
  · simp only [acquireUpstreamStream,active,if_true,trySourceAccountStream_unknown unknown,List.append_nil]
    split
    · next upstream opened =>
      refine ⟨tryPooledStream_ready.1,fun upstream' done => ?_⟩
      cases done
      exact tryPooledStream_ready.2 upstream opened
    · exact ⟨tryPooledStream_ready.1,nofun⟩
  · simp [acquireUpstreamStream,inactive,singleAccountStream]

end

/-- The pool has been switched off, and the default Bot is another one than that of the grant. -/
def switchedOff : World where
  active := false
  fileCopies := true
  poolActive := false
  isStreamingEnabled := true
  anchors := some []
  copies := some []
  select _ _ := none
  getConfig _ _ := none
  admission _ _ := .granted
  failure _ _ := none
  describe _ := 0
  hasAccount _ := false
  sourceConfig _ := none
  sourceAdmission _ := .granted
  sourceFailure _ := none
  standard := true
  TELEGRAM_BOT_TOKEN := "100:aa"
  select_mem := nofun
  config_id := nofun
  source_id := nofun

def foreign : Grant := ⟨"file",some "content","42","7",some "200"⟩

theorem links_fail_closed_foreign : FailsClosed { switchedOff with active := true } foreign ∧
    (acquireUpstreamStream switchedOff foreign).requests = [.standard "file"] :=
  ⟨(links_fail_closed { switchedOff with active := true } foreign).1 rfl,(links_fail_closed switchedOff foreign).2 rfl⟩

/-- The default Bot is asked for a file by the id that another Bot has of it. -/
theorem fetched_foreign : ¬ ∀ w grant, FailsClosed w grant := by
  intro always
  have asked : Upstream.standard "file" ∈ (acquireUpstreamStream switchedOff foreign).requests := by decide +kernel
  rcases (always switchedOff foreign).owned _ asked with copy | source
  · exact copy
  · exact absurd source.1 (by decide +kernel)

end Tgtc.BotDownloads
