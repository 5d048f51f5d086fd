import Mathlib
import Tgtc.Maps

/-!
Rounds of replication. A round is a row: it is opened, or an older one is opened again, by a trigger, its relay starts
and succeeds, accounts claim the file, and it ends with success, a failure that may be tried again or one that may
not.
-/
namespace Tgtc.ReplicationRounds
open Maps

inductive Status where
  | planned | relayRunning | waitingClaims
  | succeeded | partialSuccess | claimTimeout | retryableFailed
  | blockedManual | blockedNotConfigured | blockedUserClient | blockedNoUserAccount | blockedSourceAnchor
  | blockedTargetChat
deriving DecidableEq

/-- `ATTEMPT_ACTIVE_STATUSES`; the others are `ATTEMPT_TERMINAL_STATUSES`. -/
def Status.active : Status → Bool
  | .planned | .relayRunning | .waitingClaims => true
  | _ => false

/-- `ATTEMPT_RETRYABLE_STATUSES`. -/
def Status.retryable : Status → Bool
  | .retryableFailed | .claimTimeout => true
  | _ => false

inductive FailureReason where
  | notConfigured | clientUnavailable | noAccount | sourceMissing | targetMissing | permissionDenied | authInvalid
  | rateLimited | network | unknown
deriving DecidableEq

def attemptStatusForRelayFailure : FailureReason → Status
  | .notConfigured => .blockedNotConfigured
  | .clientUnavailable => .blockedUserClient
  | .noAccount => .blockedNoUserAccount
  | .sourceMissing => .blockedSourceAnchor
  | .targetMissing => .blockedTargetChat
  | .permissionDenied | .authInvalid => .blockedManual
  | .rateLimited | .network | .unknown => .retryableFailed

inductive Trigger where
  | eager | lazy | manual
deriving DecidableEq

/-- `TelegramReplicationAttempt`; the texts of failures and what is only shown are left out. -/
structure Row where
  targetChatId : Option String
  desiredCount : Nat
  baselineReadyCount : Nat
  missingCount : Nat
  claimedAccountIds : Option (List String)
  status : Status
  failureReason : Option FailureReason
  retryCount : Nat
  relayAccountId : Option String
  relayMessageId : Option String
  triggeredBy : Trigger
  operatorUserId : Option String
  relayCompletedAt : Option Int
  claimDeadlineAt : Option Int
  completedAt : Option Int
  nextRetryAt : Option Int
  createdAt : Int
  updatedAt : Int
deriving DecidableEq

def Row.claimed (row : Row) : List String := row.claimedAccountIds.getD []

abbrev Table := List (Option Row)

/-- The newest of the first `n` rows that a query is for. -/
def newestBelow (rows : Table) (wanted : Row → Bool) : Nat → Option (Nat × Row)
  | 0 => none
  | n + 1 => match rows[n]? with
    | some (some row) => if wanted row then some (n,row) else newestBelow rows wanted n
    | _ => newestBelow rows wanted n

/-- `findOne` with the newest first. -/
def findOne (rows : Table) (wanted : Row → Bool) : Option (Nat × Row) := newestBelow rows wanted rows.length

/-- `update` of the row with an id, if it is there. -/
def update (rows : Table) (id : Nat) (patch : Row → Row) : Table := rows.modify id (Option.map patch)

def attemptMergeWindowMs : Int := 15 * 60 * 1000
def retryCountInheritWindowMs : Int := 24 * 60 * 60 * 1000
def retryBackoffBaseMs : Int := 30000
def retryBackoffFactor : Int := 2
def retryBackoffMaxMs : Int := 15 * 60 * 1000
def retryMaxAttempts : Nat := 5

/-- The time of the next try; `none` where there is none. -/
def computeRetryBackoff (retryCount : Nat) (now : Int) : Option Int :=
  if retryCount ≥ retryMaxAttempts then none
  else some (now + min retryBackoffMaxMs (retryBackoffBaseMs * retryBackoffFactor ^ retryCount))

structure RoundInput where
  targetChatId : Option String
  desiredCount : Int
  baselineReadyCount : Int
  triggeredBy : Option Trigger
  operatorUserId : Option String
  force : Bool

def scopes (targetChatId : Option String) : List (Row → Bool) :=
  match targetChatId with
  | none => [fun _ => true]
  | some target =>
    if target = "" then [fun _ => true]
    else [fun row => row.targetChatId = some target,fun row => row.targetChatId = none]

def latestScoped (rows : Table) (targetChatId : Option String) : Option (Nat × Row) :=
  (scopes targetChatId).findSome? (findOne rows)

/-- The columns of a round that begins. -/
def roundPatch (input : RoundInput) (now : Int) (row : Row) : Row :=
  { row with
    targetChatId := input.targetChatId
    desiredCount := input.desiredCount.toNat
    baselineReadyCount := input.baselineReadyCount.toNat
    claimedAccountIds := none
    missingCount := input.desiredCount.toNat
    status := .planned
    failureReason := none
    relayAccountId := none
    relayMessageId := none
    relayCompletedAt := none
    claimDeadlineAt := none
    completedAt := none
    nextRetryAt := none
    updatedAt := now }

inductive Decision where
  | reuse
  | skip
  | merge
  | create
deriving DecidableEq

def beginDecision (latest : Option Row) (input : RoundInput) (now : Int) : Decision :=
  match latest with
  | none => .create
  | some row =>
    if row.status.active then .reuse
    else if !input.force && row.nextRetryAt.any (· > now) then .skip
    else if !input.force && row.status = .blockedManual then .skip
    else if !input.force && row.createdAt ≥ now - attemptMergeWindowMs then .merge
    else .create

def mergePatch (latest : Row) (input : RoundInput) (now : Int) (row : Row) : Row :=
  { roundPatch input now row with
    retryCount := latest.retryCount + 1
    triggeredBy := if latest.triggeredBy = .manual && input.triggeredBy ≠ some .manual then .manual
      else input.triggeredBy.getD .eager
    operatorUserId := input.operatorUserId.or latest.operatorUserId }

def inheritRetryCount (latest : Option Row) (now : Int) : Nat :=
  match latest with
  | none => 0
  | some row =>
    if row.status.retryable = false then 0
    else if row.updatedAt < now - retryCountInheritWindowMs then 0
    else row.retryCount

/-- The row that is inserted at `createdAt`. -/
def createRow (latest : Option Row) (input : RoundInput) (now createdAt : Int) : Row :=
  { targetChatId := input.targetChatId
    desiredCount := input.desiredCount.toNat
    baselineReadyCount := input.baselineReadyCount.toNat
    missingCount := input.desiredCount.toNat
    claimedAccountIds := none
    status := .planned
    failureReason := none
    retryCount := inheritRetryCount latest now
    relayAccountId := none
    relayMessageId := none
    triggeredBy := input.triggeredBy.getD .eager
    operatorUserId := input.operatorUserId
    relayCompletedAt := none
    claimDeadlineAt := none
    completedAt := none
    nextRetryAt := none
    createdAt := createdAt
    updatedAt := now }

def relayStartedPatch (now : Int) (row : Row) : Row := { row with status := .relayRunning, updatedAt := now }

structure RelayParams where
  relayAccountId : String
  relayMessageId : Option String
  claimDeadlineAt : Int

def relaySucceededPatch (params : RelayParams) (now : Int) (row : Row) : Row :=
  { row with
    status := .waitingClaims
    relayAccountId := some params.relayAccountId
    relayMessageId := params.relayMessageId
    relayCompletedAt := some now
    claimDeadlineAt := some params.claimDeadlineAt
    updatedAt := now }

structure BlockedInput where
  status : Status
  failureReason : Option FailureReason
  missingCount : Int
  claimedAccountIds : Option (List String)

/-- The status of a round that fails, and the time of the next try; `latest` is the row as far as it could be read. -/
def blockedOutcome (latest : Option Row) (status : Status) (now : Int) : Status × Option Int :=
  if status = .retryableFailed then
    match computeRetryBackoff ((latest.map Row.retryCount).getD 0) now with
    | none => (.blockedManual,none)
    | some nextRetryAt => (.retryableFailed,some nextRetryAt)
  else (status,none)

def finishBlockedPatch (latest : Option Row) (input : BlockedInput) (now : Int) (row : Row) : Row :=
  { row with
    status := (blockedOutcome latest input.status now).1
    failureReason := input.failureReason
    missingCount := input.missingCount.toNat
    claimedAccountIds := input.claimedAccountIds
    completedAt := some now
    nextRetryAt := (blockedOutcome latest input.status now).2
    updatedAt := now }

structure ClaimParams where
  desiredCount : Nat
  readyAccountIds : List String

def ClaimParams.ready (params : ClaimParams) : List String := (params.readyAccountIds.filter (· ≠ "")).eraseDups

def desiredOf (attempt : Row) (params : ClaimParams) : Nat :=
  max 1 (if attempt.desiredCount ≠ 0 then attempt.desiredCount else params.desiredCount)

def gainedNone (attempt : Row) (params : ClaimParams) : Bool := params.ready.length - attempt.baselineReadyCount = 0

def claimsOutcome (attempt : Row) (params : ClaimParams) (now : Int) : Status × Option Int :=
  if gainedNone attempt params then
    match computeRetryBackoff attempt.retryCount now with
    | none => (.blockedManual,none)
    | some nextRetryAt => (.claimTimeout,some nextRetryAt)
  else if params.ready.length ≥ desiredOf attempt params then (.succeeded,none)
  else (.partialSuccess,none)

def settleClaimsPatch (attempt : Row) (params : ClaimParams) (now : Int) (row : Row) : Row :=
  let status := (claimsOutcome attempt params now).1
  { row with
    status
    failureReason := if status = .claimTimeout || status = .blockedManual then some .unknown else none
    claimedAccountIds := some params.ready
    missingCount := desiredOf attempt params - params.ready.length
    completedAt := some now
    nextRetryAt := (claimsOutcome attempt params now).2
    updatedAt := now }

def activeFor (rows : Table) (targetChatId : Option String) : Option (Nat × Row) :=
  (scopes targetChatId).findSome? fun scope => findOne rows fun row => scope row && row.status.active

def claimPatch (active : Row) (account : String) (now : Int) (row : Row) : Row :=
  { row with claimedAccountIds := some (active.claimed ++ [account]), updatedAt := now }

def hanging (activeBefore : Int) (row : Row) : Bool := row.status.active && row.updatedAt < activeBefore

def convergePatch (hanging : Row) (now : Int) (row : Row) : Row :=
  { row with
    status := if hanging.relayCompletedAt.isSome then .claimTimeout else .retryableFailed
    failureReason := some .unknown
    nextRetryAt := none
    missingCount := hanging.desiredCount - hanging.baselineReadyCount
    completedAt := some hanging.updatedAt
    updatedAt := now }

def removable (terminalBefore now : Int) (row : Row) : Bool :=
  !row.status.active && row.updatedAt < terminalBefore && !row.nextRetryAt.any (· > now)

section
variable {rows : Table} {wanted : Row → Bool} {i : Nat} {row : Row}

variable {j : Nat} {r : Row} {n : Nat}

theorem newestBelow_some (found : newestBelow rows wanted n = some (i,row)) :
    i < n ∧ rows[i]? = some (some row) ∧ wanted row = true := by
  induction n with
  | zero => cases found
  | succ n ih =>
    unfold newestBelow at found
    split at found
    · next r there =>
      split_ifs at found with here
      · cases found
        exact ⟨Nat.lt_succ_self _,there,here⟩
      · obtain ⟨below,known,good⟩ := ih found
        exact ⟨Nat.lt_succ_of_lt below,known,good⟩
    · obtain ⟨below,known,good⟩ := ih found
      exact ⟨Nat.lt_succ_of_lt below,known,good⟩

theorem newestBelow_last (found : newestBelow rows wanted n = some (i,row))
    (later : i < j) (below : j < n) (there : rows[j]? = some (some r)) : wanted r = false := by
  induction n with
  | zero => cases found
  | succ n ih =>
    unfold newestBelow at found
    have last : j = n → wanted r = false := by
      rintro rfl
      rw [there] at found
      dsimp only at found
      split_ifs at found with here
      · cases found
        exact absurd later (Nat.lt_irrefl _)
      · simpa using here
    rcases Nat.lt_succ_iff_lt_or_eq.mp below with earlier | same
    · split at found
      · split_ifs at found
        · cases found
          omega
        · exact ih found earlier
      · exact ih found earlier
    · exact last same

theorem newestBelow_none (found : newestBelow rows wanted n = none) (below : j < n)
    (there : rows[j]? = some (some r)) : wanted r = false := by
  induction n with
  | zero => cases below
  | succ n ih =>
    unfold newestBelow at found
    rcases Nat.lt_succ_iff_lt_or_eq.mp below with earlier | rfl
    · split at found
      · split_ifs at found
        exact ih found earlier
      · exact ih found earlier
    · rw [there] at found
      dsimp only at found
      split_ifs at found with here
      simpa using here

theorem findOne_some (found : findOne rows wanted = some (i,row)) :
    rows[i]? = some (some row) ∧ wanted row = true ∧
      ∀ j r, i < j → rows[j]? = some (some r) → wanted r = false := by
  obtain ⟨_,there,good⟩ := newestBelow_some found
  refine ⟨there,good,fun j r later known => newestBelow_last found later ?_ known⟩
  exact at_lt known

theorem findOne_none (found : findOne rows wanted = none) (there : rows[j]? = some (some r)) :
    wanted r = false :=
  newestBelow_none found (at_lt there) there

theorem update_at {id : Nat} {patch : Row → Row} (found : (update rows id patch)[j]? = some (some r)) :
    j ≠ id ∧ rows[j]? = some (some r) ∨ j = id ∧ ∃ old, rows[id]? = some (some old) ∧ r = patch old := by
  simp only [update,List.getElem?_modify,Option.map_eq_map,Option.map_eq_some_iff] at found
  obtain ⟨entry,known,equal⟩ := found
  by_cases here : id = j
  · subst here
    rw [if_pos rfl] at equal
    obtain ⟨old,rfl,rfl⟩ := Option.map_eq_some_iff.mp equal
    exact .inr ⟨rfl,old,known,rfl⟩
  · rw [if_neg here] at equal
    subst equal
    exact .inl ⟨Ne.symm here,known⟩

theorem update_here {id : Nat} {patch : Row → Row} {old : Row} (known : rows[id]? = some (some old)) :
    (update rows id patch)[id]? = some (some (patch old)) := by
  simp [update,known]

theorem update_length (rows : Table) (id : Nat) (patch : Row → Row) : (update rows id patch).length = rows.length := by
  simp [update]

end
end Tgtc.ReplicationRounds
