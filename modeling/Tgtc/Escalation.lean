import Tgtc.ReplicationRounds
import Tgtc.Runs

/-!
Retries of one owner and target, one call after the other. A round that fails may be tried again, and the fifth
failure in a row should be the last: it is to be handed to somebody.
-/
namespace Tgtc.Escalation
open Runs ReplicationRounds Maps

structure State where
  rows : Table
  now : Int
  failures : Nat
  last : Option Nat

def initial : State := ⟨[],0,0,none⟩

def State.statusOf (s : State) (i : Nat) : Option Status := (s.rows[i]?.bind id).map Row.status

def State.beginRound (target : String) (s : State) (input : RoundInput) : State :=
  let given := { input with targetChatId := some target }
  let latest := latestScoped s.rows (some target)
  match beginDecision (latest.map Prod.snd) given s.now, latest with
  | .merge, some (i,row) => { s with rows := update s.rows i (mergePatch row given s.now) }
  | .create, _ => { s with rows := s.rows ++ [some (createRow (latest.map Prod.snd) given s.now s.now)] }
  | _, _ => s

def State.ends (s : State) (i : Nat) (rows : Table) (failed : Bool) : State :=
  let ended := { s with rows, last := some i }
  if failed && ended.statusOf i ≠ some .blockedManual then { ended with failures := s.failures + 1 }
  else { ended with failures := 0 }

def relayFailure (reason : FailureReason) : BlockedInput := ⟨attemptStatusForRelayFailure reason,some reason,0,none⟩

inductive Label where
  | tick (ms : Nat)
  | beginRound (input : RoundInput)
  | markRelayStarted (i : Nat)
  | markRelaySucceeded (i : Nat) (params : RelayParams)
  /-- with the reason that the relay gives; `read`: the row could be read before -/
  | finishBlocked (i : Nat) (reason : FailureReason) (read : Bool)
  | settleClaims (i : Nat) (params : ClaimParams)
  | recordClaim (account : String)
  /-- the two parts of `purgeStale`, for one row each -/
  | converge (i : Nat) (activeBefore : Int)
  | remove (i : Nat) (terminalBefore : Int)

def step (target : String) (s : State) : Label → State
  | .tick ms => { s with now := s.now + ms }
  | .beginRound input => s.beginRound target input
  | .markRelayStarted i => { s with rows := update s.rows i (relayStartedPatch s.now) }
  | .markRelaySucceeded i params => { s with rows := update s.rows i (relaySucceededPatch params s.now) }
  | .finishBlocked i reason read =>
    let latest := if read then s.rows[i]?.bind id else none
    s.ends i (update s.rows i (finishBlockedPatch latest (relayFailure reason) s.now))
      (attemptStatusForRelayFailure reason = .retryableFailed)
  | .settleClaims i params => match s.rows[i]? with
    | some (some row) => s.ends i (update s.rows i (settleClaimsPatch row params s.now)) (gainedNone row params)
    | _ => s
  | .recordClaim account => match activeFor s.rows (some target) with
    | some (i,row) =>
      if account = "" || account ∈ row.claimed then s else { s with rows := update s.rows i (claimPatch row account s.now) }
    | none => s
  | .converge i _ => match s.rows[i]? with
    | some (some row) => s.ends i (update s.rows i (convergePatch row s.now)) true
    | _ => s
  | .remove i _ => { s with rows := s.rows.set i none }

def State.rowIs (s : State) (i : Nat) (p : Row → Bool) : Prop := ∃ row, s.rows[i]? = some (some row) ∧ p row = true

instance (s : State) (i : Nat) (p : Row → Bool) : Decidable (s.rowIs i p) :=
  match there : s.rows[i]? with
  | some (some row) => if good : p row = true then isTrue ⟨row,there,good⟩
    else isFalse fun ⟨r,known,holds⟩ => by
      rw [there] at known
      cases known
      exact good holds
  | some none => isFalse fun ⟨r,known,_⟩ => by rw [there] at known; cases known
  | none => isFalse fun ⟨r,known,_⟩ => by rw [there] at known; cases known

def Allowed (s : State) : Label → Prop
  | .markRelayStarted i | .markRelaySucceeded i _ | .finishBlocked i _ _ | .settleClaims i _ =>
    s.rowIs i (fun row => row.status.active)
  | .converge i activeBefore => s.rowIs i (hanging activeBefore)
  | .remove i terminalBefore => s.rowIs i (removable terminalBefore s.now)
  | _ => True

instance (s : State) (l : Label) : Decidable (Allowed s l) := by
  cases l <;> unfold Allowed <;> infer_instance

def failing (s : State) : Label → Option Nat
  | .finishBlocked i reason _ => if attemptStatusForRelayFailure reason = .retryableFailed then some i else none
  | .settleClaims i params => match s.rows[i]? with
    | some (some row) => if gainedNone row params then some i else none
    | _ => none
  | .converge i _ => some i
  | _ => none

/-- A failure is handed over exactly if it is the fifth in a row. -/
def Escalates (target : String) (s : State) (l : Label) : Prop :=
  ∀ i, failing s l = some i →
    ((step target s l).statusOf i = some .blockedManual ↔ s.failures + 1 = retryMaxAttempts)

/-- A trigger goes by the round that ended last, and opens a round again only after a failure that may be tried again. -/
def Orderly (target : String) (s : State) : Label → Prop
  | .beginRound input => match latestScoped s.rows (some target) with
    | some (i,row) =>
      (row.status.retryable = true → s.last = some i) ∧
      (beginDecision (some row) { input with targetChatId := some target } s.now = .merge → row.status.retryable = true)
    | none => True
  | _ => True

instance (target : String) (s : State) (l : Label) : Decidable (Orderly target s l) := by
  unfold Orderly
  split
  · split <;> infer_instance
  · infer_instance

structure Inv (target : String) (s : State) : Prop where
  targets : ∀ (i : Nat) (row : Row), s.rows[i]? = some (some row) → row.targetChatId = some target
  /-- a round under way has been opened again at most as often as there were failures -/
  counted : ∀ (i : Nat) (row : Row), s.rows[i]? = some (some row) → row.status.active = true → row.retryCount ≤ s.failures
  behind : ∀ (i : Nat) (row : Row), s.last = some i → s.rows[i]? = some (some row) → row.status.retryable = true →
    row.retryCount + 1 ≤ s.failures
  newest : ∀ (i : Nat) (row : Row), s.rows[i]? = some (some row) → row.status.active = true →
    ∀ (j : Nat) (r : Row), i < j → s.rows[j]? ≠ some (some r)

section
variable {target : String} {s : State}

theorem initial_inv (target : String) : Inv target initial := by
  constructor
  · intro i row found
    cases found
  · intro i row found
    cases found
  · intro i row found
    cases found
  · intro i row found
    cases found

variable {i : Nat} {row : Row}

theorem latest_some (inv : Inv target s) (found : latestScoped s.rows (some target) = some (i,row)) :
    s.rows[i]? = some (some row) ∧ ∀ (j : Nat) (r : Row), i < j → s.rows[j]? ≠ some (some r) := by
  unfold latestScoped scopes at found
  dsimp only at found
  split_ifs at found with blank
  · simp only [List.findSome?_cons] at found
    split at found
    · cases found
      next known =>
      obtain ⟨there,_,later⟩ := findOne_some known
      exact ⟨there,fun j r after here => by simpa using later j r after here⟩
    · cases found
  · simp only [List.findSome?_cons] at found
    split at found
    · cases found
      next known =>
      obtain ⟨there,_,later⟩ := findOne_some known
      refine ⟨there,fun j r after here => ?_⟩
      have other := later j r after here
      rw [inv.targets j r here] at other
      simp at other
    · split at found
      · cases found
        next known =>
        obtain ⟨there,free,_⟩ := findOne_some known
        rw [inv.targets i row there] at free
        simp at free
      · cases found

theorem latest_none (inv : Inv target s) (found : latestScoped s.rows (some target) = none) :
    s.rows[i]? ≠ some (some row) := by
  intro there
  unfold latestScoped scopes at found
  dsimp only at found
  split_ifs at found with blank
  · rw [List.findSome?_eq_none_iff] at found
    have missing := findOne_none (found _ (List.mem_cons_self ..)) there
    cases missing
  · rw [List.findSome?_eq_none_iff] at found
    have missing := findOne_none (found _ (List.mem_cons_self ..)) there
    rw [inv.targets i row there] at missing
    simp at missing

theorem active_latest (inv : Inv target s) (there : s.rows[i]? = some (some row))
    (active : row.status.active = true) : latestScoped s.rows (some target) = some (i,row) := by
  cases found : latestScoped s.rows (some target) with
  | none => exact absurd there (latest_none inv found)
  | some place =>
    obtain ⟨j,r⟩ := place
    obtain ⟨known,later⟩ := latest_some inv found
    rcases Nat.lt_trichotomy i j with before | same | after
    · exact absurd known (inv.newest i row there active j r before)
    · subst same
      cases there.symm.trans known
      rfl
    · exact absurd there (later i row after)

theorem inv_progress (inv : Inv target s) {patch : Row → Row} (target_same : ∀ row, (patch row).targetChatId = row.targetChatId)
    (count_same : ∀ row, (patch row).retryCount = row.retryCount) (active : s.rowIs i (fun row => row.status.active))
    (still : ∀ row, row.status.active = true → (patch row).status.active = true) :
    Inv target { s with rows := update s.rows i patch } := by
  obtain ⟨row,there,under_way⟩ := active
  have not_retryable : ∀ status : Status, status.active = true → status.retryable = true → False := by
    intro status
    cases status <;> simp [Status.active,Status.retryable]
  constructor
  · intro j r found
    rcases update_at found with ⟨_,known⟩ | ⟨rfl,old,known,rfl⟩
    · exact inv.targets j r known
    · exact (target_same old).trans (inv.targets _ old known)
  · intro j r found live
    rcases update_at found with ⟨_,known⟩ | ⟨rfl,old,known,rfl⟩
    · exact inv.counted j r known live
    · cases there.symm.trans known
      rw [count_same]
      exact inv.counted _ row there under_way
  · intro j r last found again
    rcases update_at found with ⟨_,known⟩ | ⟨rfl,old,known,rfl⟩
    · exact inv.behind j r last known again
    · cases there.symm.trans known
      exact (not_retryable _ (still row under_way) again).elim
  · intro j r found live k r' later found'
    have before : ∃ old, s.rows[j]? = some (some old) ∧ old.status.active = true := by
      rcases update_at found with ⟨_,known⟩ | ⟨rfl,old,known,rfl⟩
      · exact ⟨r,known,live⟩
      · exact ⟨row,there,under_way⟩
    obtain ⟨old,known,live'⟩ := before
    rcases update_at found' with ⟨_,known'⟩ | ⟨rfl,old',known',_⟩
    · exact inv.newest j old known live' k r' later known'
    · exact inv.newest j old known live' _ old' later known'

theorem inv_ends (inv : Inv target s) {patch : Row → Row} {failed : Bool}
    (target_same : ∀ row, (patch row).targetChatId = row.targetChatId)
    (count_same : ∀ row, (patch row).retryCount = row.retryCount) (active : s.rowIs i (fun row => row.status.active))
    (finished : ∀ row, (patch row).status.active = false)
    (failure : ∀ row, (patch row).status.retryable = true → failed = true) :
    Inv target (s.ends i (update s.rows i patch) failed) := by
  obtain ⟨row,there,under_way⟩ := active
  have rows : (s.ends i (update s.rows i patch) failed).rows = update s.rows i patch := by
    unfold State.ends
    dsimp only
    split_ifs <;> rfl
  have last : (s.ends i (update s.rows i patch) failed).last = some i := by
    unfold State.ends
    dsimp only
    split_ifs <;> rfl
  -- the only round under way was this one
  have none_active : ∀ (j : Nat) (r : Row), (update s.rows i patch)[j]? = some (some r) → r.status.active ≠ true := by
    intro j r found live
    rcases update_at found with ⟨other,known⟩ | ⟨rfl,old,_,rfl⟩
    · have here := active_latest inv there under_way
      rw [active_latest inv known live] at here
      cases here
      exact other rfl
    · rw [finished old] at live
      cases live
  constructor
  · rw [rows]
    intro j r found
    rcases update_at found with ⟨_,known⟩ | ⟨rfl,old,known,rfl⟩
    · exact inv.targets j r known
    · exact (target_same old).trans (inv.targets _ old known)
  · rw [rows]
    exact fun j r found live => absurd live (none_active j r found)
  · rw [rows,last]
    rintro j r ⟨⟩ found again
    have counted := inv.counted i row there under_way
    have value : (update s.rows i patch)[i]? = some (some (patch row)) := update_here there
    cases found.symm.trans value
    have failed_true := failure row again
    have tried : s.ends i (update s.rows i patch) failed =
        { s with rows := update s.rows i patch, last := some i, failures := s.failures + 1 } := by
      unfold State.ends
      rw [if_pos]
      rw [failed_true,Bool.true_and,decide_eq_true_eq]
      simp only [State.statusOf,value]
      intro blocked
      rw [show (patch row).status = .blockedManual from Option.some.inj blocked] at again
      cases again
    rw [tried,count_same]
    exact Nat.succ_le_succ counted
  · rw [rows]
    exact fun j r found live => absurd live (none_active j r found)

theorem blockedOutcome_finished (latest : Option Row) (reason : FailureReason) (now : Int) :
    (blockedOutcome latest (attemptStatusForRelayFailure reason) now).1.active = false ∧
    ((blockedOutcome latest (attemptStatusForRelayFailure reason) now).1.retryable = true →
      attemptStatusForRelayFailure reason = .retryableFailed) := by
  unfold blockedOutcome
  split_ifs with retryable
  · split
    · exact ⟨rfl,fun _ => retryable⟩
    · exact ⟨rfl,fun _ => retryable⟩
  · cases reason <;> first | exact absurd rfl retryable | exact ⟨rfl,nofun⟩

theorem claimsOutcome_finished (attempt : Row) (params : ClaimParams) (now : Int) :
    (claimsOutcome attempt params now).1.active = false ∧
    ((claimsOutcome attempt params now).1.retryable = true → gainedNone attempt params = true) := by
  unfold claimsOutcome
  split_ifs with none_gained
  · split
    · exact ⟨rfl,fun _ => none_gained⟩
    · exact ⟨rfl,fun _ => none_gained⟩
  · exact ⟨rfl,nofun⟩
  · exact ⟨rfl,nofun⟩

theorem decision_merge {input : RoundInput} {now : Int}
    (decided : beginDecision (some row) input now = .merge ∨ beginDecision (some row) input now = .create) :
    row.status.active = false := by
  cases active : row.status.active with
  | false => rfl
  | true =>
    have reuse : beginDecision (some row) input now = .reuse := by simp only [beginDecision,active,if_true]
    rw [reuse] at decided
    rcases decided with other | other <;> cases other

theorem inv_merge (inv : Inv target s) {input : RoundInput}
    (found : latestScoped s.rows (some target) = some (i,row)) (finished : row.status.active = false)
    (again : row.status.retryable = true) (last : s.last = some i) (given : input.targetChatId = some target) :
    Inv target { s with rows := update s.rows i (mergePatch row input s.now) } := by
  obtain ⟨there,later⟩ := latest_some inv found
  have behind := inv.behind i row last there again
  have none_active : ∀ (j : Nat) (r : Row), s.rows[j]? = some (some r) → r.status.active ≠ true := by
    intro j r known live
    rw [active_latest inv known live] at found
    cases found
    rw [finished] at live
    cases live
  constructor
  · intro j r known
    rcases update_at known with ⟨_,known⟩ | ⟨rfl,old,known,rfl⟩
    · exact inv.targets j r known
    · exact given
  · intro j r known live
    rcases update_at known with ⟨_,known⟩ | ⟨rfl,old,known,rfl⟩
    · exact absurd live (none_active j r known)
    · exact behind
  · intro j r last' known retryable
    cases last.symm.trans last'
    rcases update_at known with ⟨other,_⟩ | ⟨_,old,_,rfl⟩
    · exact absurd rfl other
    · cases retryable
  · intro j r known live k r' after known'
    rcases update_at known with ⟨_,known⟩ | ⟨rfl,_,_,_⟩
    · exact absurd live (none_active j r known)
    · rcases update_at known' with ⟨_,known'⟩ | ⟨rfl,old,known',_⟩
      · exact later k r' after known'
      · exact later _ old after known'

theorem inv_create (inv : Inv target s) {new : Row} (given : new.targetChatId = some target)
    (planned : new.status = .planned)
    (counted : new.retryCount ≤ s.failures)
    (none_active : ∀ (j : Nat) (r : Row), s.rows[j]? = some (some r) → r.status.active ≠ true) :
    Inv target { s with rows := s.rows ++ [some new] } := by
  constructor
  · intro j r known
    rcases Maps.at_of_append known with known | ⟨rfl,same⟩
    · exact inv.targets j r known
    · cases same
      exact given
  · intro j r known live
    rcases Maps.at_of_append known with known | ⟨rfl,same⟩
    · exact absurd live (none_active j r known)
    · cases same
      exact counted
  · intro j r last known again
    rcases Maps.at_of_append known with known | ⟨rfl,same⟩
    · exact inv.behind j r last known again
    · cases same
      rw [planned] at again
      cases again
  · intro j r known live k r' after known'
    rcases Maps.at_of_append known with known | ⟨rfl,_⟩
    · exact absurd live (none_active j r known)
    · have bound := at_lt known'
      rw [List.length_append,List.length_singleton] at bound
      omega

theorem inherit_le (inv : Inv target s) (row : Row) (there : s.rows[i]? = some (some row))
    (last : row.status.retryable = true → s.last = some i) : inheritRetryCount (some row) s.now ≤ s.failures := by
  unfold inheritRetryCount
  dsimp only
  split_ifs with no old
  · exact Nat.zero_le _
  · exact Nat.zero_le _
  · have again : row.status.retryable = true := by simpa using no
    exact Nat.le_of_succ_le (inv.behind i row (last again) there again)

theorem inv_beginRound (inv : Inv target s) (input : RoundInput) (orderly : Orderly target s (.beginRound input)) :
    Inv target (s.beginRound target input) := by
  unfold State.beginRound
  dsimp only
  simp only [Orderly] at orderly
  split
  · next i row decided found =>
    rw [found] at orderly decided
    obtain ⟨last,again⟩ := orderly
    have finished := decision_merge (.inl decided)
    exact inv_merge inv found finished (again decided) (last (again decided)) rfl
  · next decided =>
    cases found : latestScoped s.rows (some target) with
    | none =>
      exact inv_create inv rfl rfl (Nat.zero_le _) fun j r known => absurd known (latest_none inv found)
    | some place =>
      obtain ⟨i,row⟩ := place
      rw [found] at orderly decided
      have finished := decision_merge (.inr decided)
      refine inv_create inv rfl rfl (inherit_le inv row (latest_some inv found).1 orderly.1) fun j r known live => ?_
      rw [active_latest inv known live] at found
      cases found
      rw [finished] at live
      cases live
  · exact inv

theorem inv_remove (inv : Inv target s) (i : Nat) : Inv target { s with rows := s.rows.set i none } := by
  have before : ∀ (j : Nat) (r : Row), (s.rows.set i none)[j]? = some (some r) → s.rows[j]? = some (some r) := by
    intro j r known
    rcases Maps.at_of_set known with ⟨_,gone⟩ | ⟨_,known⟩
    · cases gone
    · exact known
  refine ⟨fun j r known => inv.targets j r (before j r known),fun j r known => inv.counted j r (before j r known),
    fun j r last known => inv.behind j r last (before j r known),fun j r known live k r' after known' => ?_⟩
  exact inv.newest j r (before j r known) live k r' after (before k r' known')

theorem activeFor_active (rows : Table) (targetChatId : Option String)
    (found : activeFor rows targetChatId = some (i,row)) : rows[i]? = some (some row) ∧ row.status.active = true := by
  obtain ⟨_,_,known⟩ := List.exists_of_findSome?_eq_some found
  obtain ⟨there,wanted,_⟩ := findOne_some known
  exact ⟨there,(Bool.and_eq_true_iff.mp wanted).2⟩

theorem inv_step (inv : Inv target s) (l : Label) (allowed : Allowed s l) (orderly : Orderly target s l) :
    Inv target (step target s l) := by
  cases l with
  | tick ms => exact { inv with }
  | beginRound input => exact inv_beginRound inv input orderly
  | markRelayStarted i => exact inv_progress inv (fun _ => rfl) (fun _ => rfl) allowed (fun _ _ => rfl)
  | markRelaySucceeded i params => exact inv_progress inv (fun _ => rfl) (fun _ => rfl) allowed (fun _ _ => rfl)
  | finishBlocked i reason read =>
    refine inv_ends inv (fun _ => rfl) (fun _ => rfl) allowed (fun row => ?_) (fun row again => ?_)
    · exact (blockedOutcome_finished _ reason s.now).1
    · exact decide_eq_true ((blockedOutcome_finished _ reason s.now).2 again)
  | settleClaims i params =>
    obtain ⟨row,there,active⟩ := allowed
    simp only [step,there]
    refine inv_ends inv (fun _ => rfl) (fun _ => rfl) ⟨row,there,active⟩ (fun _ => ?_) (fun _ again => ?_)
    · exact (claimsOutcome_finished row params s.now).1
    · exact (claimsOutcome_finished row params s.now).2 again
  | recordClaim account =>
    simp only [step]
    split
    · next i row found =>
      split_ifs
      · exact inv
      · obtain ⟨there,active⟩ := activeFor_active _ _ found
        exact inv_progress inv (fun _ => rfl) (fun _ => rfl) ⟨row,there,active⟩ (fun _ live => live)
    · exact inv
  | converge i activeBefore =>
    obtain ⟨row,there,hangs⟩ := allowed
    have active : row.status.active = true := (Bool.and_eq_true_iff.mp hangs).1
    simp only [step,there]
    refine inv_ends inv (fun _ => rfl) (fun _ => rfl) ⟨row,there,active⟩ (fun _ => ?_) (fun _ _ => rfl)
    simp only [convergePatch]
    split_ifs <;> rfl
  | remove i terminalBefore => exact inv_remove inv i

theorem backoff_below {count : Nat} (below : count < retryMaxAttempts) (now : Int) :
    ∃ at_time, computeRetryBackoff count now = some at_time := by
  unfold computeRetryBackoff
  rw [if_neg (Nat.not_le.mpr below)]
  exact ⟨_,rfl⟩

theorem blocked_below {latest : Option Row} (below : (latest.map Row.retryCount).getD 0 < retryMaxAttempts) (now : Int) :
    (blockedOutcome latest .retryableFailed now).1 = .retryableFailed := by
  obtain ⟨_,later⟩ := backoff_below below now
  unfold blockedOutcome
  rw [if_pos rfl,later]

theorem ends_status (s : State) (i : Nat) (rows : Table) (failed : Bool) :
    (s.ends i rows failed).statusOf i = (rows[i]?.bind id).map Row.status := by
  unfold State.ends
  dsimp only
  split_ifs <;> rfl

theorem not_escalated (inv : Inv target s) {l : Label} (allowed : Allowed s l) (fails : failing s l = some i)
    (first : s.failures < retryMaxAttempts) : (step target s l).statusOf i ≠ some .blockedManual := by
  cases l with
  | finishBlocked j reason read =>
    obtain ⟨row,there,active⟩ := allowed
    simp only [failing] at fails
    split_ifs at fails with retryable
    cases fails
    have below : ((if read then s.rows[i]?.bind id else none).map Row.retryCount).getD 0 < retryMaxAttempts := by
      cases read with
      | false => exact Nat.zero_lt_succ _
      | true =>
        simp only [there]
        exact Nat.lt_of_le_of_lt (inv.counted i row there active) first
    have again := blocked_below below s.now
    simp only [step,ends_status,update_here there]
    show some (blockedOutcome _ (attemptStatusForRelayFailure reason) s.now).1 ≠ some .blockedManual
    rw [retryable,again]
    exact fun same => Status.noConfusion (Option.some.inj same)
  | settleClaims j params =>
    obtain ⟨row,there,active⟩ := allowed
    simp only [failing,there] at fails
    split_ifs at fails with none_gained
    cases fails
    obtain ⟨at_time,later⟩ := backoff_below (Nat.lt_of_le_of_lt (inv.counted i row there active) first) s.now
    simp only [step,there,ends_status,update_here there]
    simp [settleClaimsPatch,claimsOutcome,none_gained,later]
  | converge j activeBefore =>
    obtain ⟨row,there,_⟩ := allowed
    cases fails
    simp only [step,there,ends_status,update_here there]
    simp only [convergePatch]
    split_ifs <;> simp
  | _ => cases fails

/-- Of the failures in a row, all but the fifth are dealt with as they should be, and the fifth is not. -/
theorem fifth_failure_retried
    (reach : Reachable (step target) (fun s l => Allowed s l ∧ Orderly target s l) initial s) {l : Label}
    (allowed : Allowed s l) {i : Nat} (fails : failing s l = some i) (first : s.failures < retryMaxAttempts) :
    Escalates target s l ↔ s.failures + 1 ≠ retryMaxAttempts := by
  have inv : Inv target s := reachable_invariant (initial_inv target) (fun _ l inv ok => inv_step inv l ok.1 ok.2) reach
  have tried := not_escalated inv allowed fails first
  constructor
  · intro escalates fifth
    exact tried ((escalates i fails).mpr fifth)
  · intro other j fails'
    cases fails.symm.trans fails'
    exact ⟨fun blocked => absurd blocked tried,fun fifth => absurd fifth other⟩

end

def roundInput : RoundInput := ⟨none,2,1,none,none,false⟩

def fourFailures : List Label :=
  [.beginRound roundInput,.markRelayStarted 0,.finishBlocked 0 .network true,.tick 30000,
    .beginRound roundInput,.finishBlocked 0 .rateLimited true,.tick 60000,
    .beginRound roundInput,.markRelaySucceeded 0 ⟨"9",none,200000⟩,.settleClaims 0 ⟨2,["1"]⟩,.tick 120000,
    .beginRound roundInput,.finishBlocked 0 .unknown true,.tick 240000,.beginRound roundInput]

theorem fifth_failure_retried_four :
    let s := fourFailures.foldl (step "-100") initial
    s.failures = 4 ∧ (Escalates "-100" s (.finishBlocked 0 .network true) ↔ s.failures + 1 ≠ retryMaxAttempts) := by
  intro s
  have legal : Legal (step "-100") (fun s l => Allowed s l ∧ Orderly "-100" s l) initial fourFailures := by decide +kernel
  have allowed : Allowed s (.finishBlocked 0 .network true) := by decide +kernel
  have fails : failing s (.finishBlocked 0 .network true) = some 0 := rfl
  exact ⟨by decide +kernel,fifth_failure_retried (reachable_run .start _ legal) allowed fails (by decide +kernel)⟩

/-- The fifth failure in a row is tried again. -/
theorem fifth_failure_not_escalated :
    ¬ ∀ (target : String) (s : State), Reachable (step target) Allowed initial s →
      ∀ l, Allowed s l → Escalates target s l := by
  intro always
  have legal : Legal (step "-100") Allowed initial fourFailures := by decide +kernel
  have escalates := always "-100" _ (reachable_run .start _ legal) (.finishBlocked 0 .network true) (by decide +kernel)
  have blocked := (escalates 0 rfl).mpr (by decide +kernel)
  revert blocked
  decide +kernel

end Tgtc.Escalation
