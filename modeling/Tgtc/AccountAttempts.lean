import Tgtc.AccountPool
import Tgtc.Runs

/-!
What is in flight with an account. An admission takes places of the account and gives them back once; an older pair of
calls does so by the id. The two agree as long as no account is registered anew under attempts.
-/
namespace Tgtc.AccountAttempts
open Maps Runs Numbers AccountPool

inductive FailureKind where
  | flood | unavailable | timeout | network | other
deriving DecidableEq

/-- `AccountAttemptSample`, as far as it is about failures. -/
structure Sample where
  ok : Bool
  failureKind : Option FailureKind
  retryAfterSeconds : Option Int

def cooldownBaseMs : FailureKind → Int
  | .flood => 60000
  | .unavailable => 30000
  | .timeout => 15000
  | .network => 10000
  | .other => 10000

def cooldownMaxMs : Int := 10 * 60 * 1000

def failing (now : Int) (kind : FailureKind) (retryAfterMs : Int) (r : Runtime) : Runtime :=
  let escalated := min (cooldownBaseMs kind * 2 ^ r.consecutiveFailures) cooldownMaxMs
  { r with
    consecutiveFailures := r.consecutiveFailures + 1
    cooldownUntilMs := max r.cooldownUntilMs (now + max escalated retryAfterMs) }

def sampled (now : Int) (sample : Sample) (r : Runtime) : Runtime :=
  if sample.ok then { r with consecutiveFailures := 0 }
  else
    let retryAfterMs := match sample.retryAfterSeconds with
      | some seconds => if seconds > 0 then seconds * 1000 else 0
      | none => 0
    failing now (sample.failureKind.getD .other) retryAfterMs r

def probed (now : Int) (ok : Bool) (r : Runtime) : Runtime :=
  if ok then { r with consecutiveFailures := 0 } else failing now .network 0 r

/-! ### Attempts -/

inductive Role where
  | download | upload

structure Request where
  accountId : String
  role : Option Role
  bytes : Option Number
  shuttingDown : Bool

def isLargeFileBytes : Option Number → Bool
  | some (.finite bytes) => bytes > 1024 ^ 3
  | _ => false

inductive Deny where
  | unknownAccount | disabled | coolingDown | inflightFull | largeInflightFull

structure Denial where
  reason : Deny
  retryAfterMs : Option Int

def admissionRetryAfterMs : Int := 5000

/-- `AccountAttemptAdmission`, with the object it was granted on. -/
structure Admission where
  object : Nat
  accountId : String
  role : Role
  largeFile : Bool
  settled : Bool

/-- A `beginAttempt` that was answered with true. -/
structure Attempt where
  accountId : String
  settled : Bool

structure State where
  pool : Pool
  admissions : List Admission
  attempts : List Attempt

def taken (largeFile : Bool) (r : Runtime) : Runtime :=
  { r with
    inflight := r.inflight + 1
    largeInflight := if largeFile then r.largeInflight + 1 else r.largeInflight }

def releaseCounters (largeFile : Bool) (r : Runtime) : Runtime :=
  { r with
    inflight := max 0 (r.inflight - 1)
    largeInflight := if largeFile then max 0 (r.largeInflight - 1) else r.largeInflight }

theorem taken_id (largeFile : Bool) (r : Runtime) : (taken largeFile r).config.id = r.config.id := rfl

theorem released_id (largeFile : Bool) (r : Runtime) : (releaseCounters largeFile r).config.id = r.config.id := rfl

def onAccount (p : Pool) (accountId : String) (f : Runtime → Runtime)
    (keeps : ∀ r, (f r).config.id = r.config.id) : Pool :=
  match p.runtimes.get accountId with
  | some k => p.modify k f keeps
  | none => p

theorem sampled_same (now : Int) (sample : Sample) (r : Runtime) :
    (sampled now sample r).config = r.config ∧ (sampled now sample r).inflight = r.inflight ∧
    (sampled now sample r).largeInflight = r.largeInflight := by
  unfold sampled
  split_ifs <;> exact ⟨rfl,rfl,rfl⟩

theorem probed_same (now : Int) (ok : Bool) (r : Runtime) :
    (probed now ok r).config = r.config ∧ (probed now ok r).inflight = r.inflight ∧
    (probed now ok r).largeInflight = r.largeInflight := by
  unfold probed
  split_ifs <;> exact ⟨rfl,rfl,rfl⟩

def recordSample (p : Pool) (accountId : String) (now : Int) (sample : Sample) : Pool :=
  onAccount p accountId (sampled now sample) fun r => by rw [(sampled_same now sample r).1]

def recordProbe (p : Pool) (accountId : String) (now : Int) (ok : Bool) : Pool :=
  onAccount p accountId (probed now ok) fun r => by rw [(probed_same now ok r).1]

def admitRequest (s : State) (request : Request) (now : Int) : Except Denial State :=
  match s.pool.runtimes.get (trim request.accountId), s.pool.runtime (trim request.accountId) with
  | some k, some runtime =>
    if request.shuttingDown then .error ⟨.unknownAccount,none⟩
    else if runtime.config.enabled = false then .error ⟨.disabled,none⟩
    else if runtime.cooldownUntilMs > now then .error ⟨.coolingDown,some (max 0 (runtime.cooldownUntilMs - now))⟩
    else if runtime.inflight ≥ runtime.config.maxInflight then .error ⟨.inflightFull,some admissionRetryAfterMs⟩
    else
      let largeFile := isLargeFileBytes request.bytes
      if largeFile && runtime.largeInflight ≥ maxLargeInflightOf runtime.config then
        .error ⟨.largeInflightFull,some admissionRetryAfterMs⟩
      else .ok { s with
        pool := s.pool.modify k (taken largeFile) (taken_id largeFile)
        admissions := s.admissions ++ [⟨k,runtime.config.id,request.role.getD .download,largeFile,false⟩] }
  | _, _ => .error ⟨.unknownAccount,none⟩

/-- `finish` with its sample, and `release` without one, of an admission. -/
def settle (s : State) (n : Nat) (sample : Option (Int × Sample)) : State :=
  match s.admissions[n]? with
  | some a =>
    if a.settled then s
    else
      let released := s.pool.modify a.object (releaseCounters a.largeFile) (released_id a.largeFile)
      { s with
        pool := match sample with
          | some (now,sample) => recordSample released a.accountId now sample
          | none => released
        admissions := s.admissions.set n { a with settled := true } }
  | none => s

def beginAttempt (s : State) (accountId : String) : State :=
  match s.pool.runtimes.get accountId with
  | some k => { s with
      pool := s.pool.modify k (taken false) (taken_id false)
      attempts := s.attempts ++ [⟨accountId,false⟩] }
  | none => s

/-- `releaseAttempt`. -/
def releaseAttempt (p : Pool) (accountId : String) : Pool :=
  onAccount p accountId (releaseCounters false) (released_id false)

/-- `finishAttempt` with its sample, and `releaseAttempt` without one, of an attempt that was begun. -/
def endAttempt (s : State) (n : Nat) (sample : Option (Int × Sample)) : State :=
  match s.attempts[n]? with
  | some a => { s with
      pool := match sample with
        | some (now,sample) => recordSample (releaseAttempt s.pool a.accountId) a.accountId now sample
        | none => releaseAttempt s.pool a.accountId
      attempts := s.attempts.set n { a with settled := true } }
  | none => s

inductive Label where
  | admitRequest (request : Request) (now : Int)
  | finish (n : Nat) (now : Int) (sample : Sample)
  | release (n : Nat)
  | beginAttempt (accountId : String)
  | finishAttempt (n : Nat) (now : Int) (sample : Sample)
  | releaseAttempt (n : Nat)
  | probe (accountId : String) (now : Int) (ok : Bool)
  | refresh (configs : List Config)

def step (s : State) : Label → State
  | .admitRequest request now => match admitRequest s request now with
    | .ok s' => s'
    | .error _ => s
  | .finish n now sample => settle s n (some (now,sample))
  | .release n => settle s n none
  | .beginAttempt accountId => beginAttempt s accountId
  | .finishAttempt n now sample => endAttempt s n (some (now,sample))
  | .releaseAttempt n => endAttempt s n none
  | .probe accountId now ok => { s with pool := recordProbe s.pool accountId now ok }
  | .refresh configs => { s with pool := s.pool.refresh configs }

def Allowed (s : State) : Label → Prop
  | .finishAttempt n _ _ | .releaseAttempt n => ∃ a ∈ s.attempts[n]?, a.settled = false
  | _ => True

instance (s : State) (l : Label) : Decidable (Allowed s l) := by
  cases l <;> unfold Allowed <;> infer_instance

def start (env : Environment) : State := ⟨boot env,[],[]⟩

def live (kind : Admission → Bool) (a : Admission) : Bool := !a.settled && kind a

def State.unsettled (s : State) (id : String) : Nat :=
  s.admissions.countP (live (·.accountId = id)) + s.attempts.countP (fun a => !a.settled && a.accountId = id)

def State.unsettledLarge (s : State) (id : String) : Nat :=
  s.admissions.countP (live (fun a => a.accountId = id && a.largeFile))

def Unclamped (largeFile : Bool) (r : Runtime) : Prop :=
  (releaseCounters largeFile r).inflight = r.inflight - 1 ∧
  (releaseCounters largeFile r).largeInflight = if largeFile then r.largeInflight - 1 else r.largeInflight

structure Accounted (s : State) : Prop where
  inflight : ∀ id r, s.pool.runtime id = some r → r.inflight = s.unsettled id
  largeInflight : ∀ id r, s.pool.runtime id = some r → r.largeInflight = s.unsettledLarge id
  admissions : ∀ a ∈ s.admissions, a.settled = false →
    ∃ r, s.pool.objects[a.object]? = some r ∧ Unclamped a.largeFile r
  attempts : ∀ a ∈ s.attempts, a.settled = false → ∀ r, s.pool.runtime a.accountId = some r → Unclamped false r

def Within (s : State) : Label → Prop
  | .admitRequest request now => ∀ s', admitRequest s request now = .ok s' →
    ∃ r, s'.pool.runtime (trim request.accountId) = some r ∧ r.inflight ≤ r.config.maxInflight ∧
      r.largeInflight ≤ maxLargeInflightOf r.config
  | _ => True

/-- No account is registered anew while attempts for it are under way, and no small file is admitted
where a refresh left too many large ones. -/
def Orderly (s : State) : Label → Prop
  | .refresh configs => ∀ e ∈ (incoming s.pool.envTokens configs).entries,
    s.pool.runtimes.get e.1 = none → s.unsettled e.1 = 0
  | .admitRequest request _ => isLargeFileBytes request.bytes = false →
    ∀ r ∈ s.pool.runtime (trim request.accountId), r.largeInflight ≤ maxLargeInflightOf r.config
  | _ => True

instance (s : State) (l : Label) : Decidable (Orderly s l) := by
  cases l <;> unfold Orderly <;> infer_instance

/-! ### The invariant -/

def State.held (s : State) (k : Nat) : Nat := s.admissions.countP (live (·.object = k))
def State.heldLarge (s : State) (k : Nat) : Nat := s.admissions.countP (live (fun a => a.object = k && a.largeFile))

structure Inv (s : State) : Prop where
  /-- an admission is held by the object of its account, unless the account is gone -/
  handles : ∀ a ∈ s.admissions, a.settled = false → ∃ r, s.pool.objects[a.object]? = some r ∧
    r.config.id = a.accountId ∧ ∀ k, s.pool.runtimes.get a.accountId = some k → k = a.object
  registered : ∀ id k r, s.pool.runtimes.get id = some k → s.pool.objects[k]? = some r →
    r.inflight = s.unsettled id ∧ r.largeInflight = s.unsettledLarge id
  objects : ∀ k r, s.pool.objects[k]? = some r → (s.held k : Int) ≤ r.inflight ∧ (s.heldLarge k : Int) ≤ r.largeInflight

def counters (r : Runtime) : String × Int × Int := (r.config.id,r.inflight,r.largeInflight)

structure Calm (p p' : Pool) : Prop where
  objects : ∀ k : Nat, (p'.objects[k]?).map counters = (p.objects[k]?).map counters
  runtimes : ∀ id k, p'.runtimes.get id = some k → p.runtimes.get id = some k

section
variable {s : State} {p p' : Pool}

theorem calm_refl (p : Pool) : Calm p p := ⟨fun _ => rfl,fun _ _ => id⟩

variable {k n : Nat} {f : Runtime → Runtime} {keeps : ∀ r, (f r).config.id = r.config.id} {a : Admission} {t : State}

theorem calm_modify
    (same : ∀ r, counters (f r) = counters r) : Calm p (p.modify k f keeps) := by
  refine ⟨fun n => ?_,fun _ _ => id⟩
  simp only [Pool.modify,List.getElem?_modify]
  cases p.objects[n]? with
  | none => rfl
  | some r =>
    simp only [Option.map_eq_map,Option.map_some]
    split_ifs
    · rw [same]
    · rfl

theorem calm_onAccount {id : String} {keeps : ∀ r, (f r).config.id = r.config.id}
    (same : ∀ r, counters (f r) = counters r) : Calm p (onAccount p id f keeps) := by
  unfold onAccount
  split
  · exact calm_modify same
  · exact calm_refl p

theorem calm_keep (stays : String × Nat → Bool) : Calm p (p.keep stays) := by
  refine ⟨fun _ => rfl,fun id k found => ?_⟩
  simp only [Pool.keep,get_filter,Option.filter_eq_some_iff] at found
  exact found.1

theorem calm_object (calm : Calm p p') {r' : Runtime} (found : p'.objects[k]? = some r') :
    ∃ r, p.objects[k]? = some r ∧ counters r' = counters r := by
  have same := calm.objects k
  rw [found] at same
  obtain ⟨r,known,equal⟩ := Option.map_eq_some_iff.mp same.symm
  exact ⟨r,known,equal.symm⟩

theorem inv_calm (inv : Inv s) (calm : Calm s.pool p') : Inv { s with pool := p' } := by
  constructor
  · intro a member unsettled
    obtain ⟨r,known,name,only⟩ := inv.handles a member unsettled
    have there := calm.objects a.object
    rw [known] at there
    obtain ⟨r',known',equal⟩ := Option.map_eq_some_iff.mp there
    refine ⟨r',known',?_,fun k found => only k (calm.runtimes _ k found)⟩
    exact (congrArg Prod.fst equal).trans name
  · intro id k r' found there
    obtain ⟨r,known,equal⟩ := calm_object calm there
    have before := inv.registered id k r (calm.runtimes id k found) known
    simp only [counters,Prod.mk.injEq] at equal
    exact ⟨equal.2.1.trans before.1,equal.2.2.trans before.2⟩
  · intro k r' there
    obtain ⟨r,known,equal⟩ := calm_object calm there
    simp only [counters,Prod.mk.injEq] at equal
    rw [equal.2.1,equal.2.2]
    exact inv.objects k r known

theorem inv_add (inv : Inv s) {config : Config} (idle : s.unsettled config.id = 0) : Inv { s with pool := s.pool.add config } := by
  have none_live : s.admissions.countP (live (·.accountId = config.id)) = 0 := (Nat.add_eq_zero_iff.mp idle).1
  have other : ∀ a ∈ s.admissions, a.settled = false → a.accountId ≠ config.id := by
    intro a member unsettled same
    have counted := List.countP_eq_zero.mp none_live a member
    simp [live,unsettled,same] at counted
  have old : ∀ a ∈ s.admissions, a.settled = false → a.object < s.pool.objects.length := by
    intro a member unsettled
    obtain ⟨r,known,_⟩ := inv.handles a member unsettled
    exact at_lt known
  constructor
  · intro a member unsettled
    obtain ⟨r,known,name,only⟩ := inv.handles a member unsettled
    refine ⟨r,?_,name,fun k found => only k ?_⟩
    · exact (List.getElem?_append_left (old a member unsettled)).trans known
    · rcases get_of_set found with ⟨same,_⟩ | ⟨_,known⟩
      · exact absurd same (other a member unsettled)
      · exact known
  · intro id k r found there
    rcases get_of_set found with ⟨rfl,rfl⟩ | ⟨_,known⟩
    · have new : r = createRuntime config := by
        simpa using (Option.some.inj (List.getElem?_concat_length.symm.trans there)).symm
      subst new
      have large : s.unsettledLarge config.id = 0 := by
        unfold State.unsettledLarge
        rw [List.countP_eq_zero]
        intro a member counted
        simp only [live,Bool.and_eq_true,Bool.not_eq_true',decide_eq_true_eq] at counted
        exact other a member counted.1 counted.2.1
      exact ⟨(congrArg Int.ofNat idle).symm,(congrArg Int.ofNat large).symm⟩
    · obtain ⟨r',there',_⟩ := s.pool.named id k known
      have bound := at_lt there'
      exact inv.registered id k r known ((List.getElem?_append_left bound).symm.trans there)
  · intro k r there
    rcases at_of_append there with known | ⟨rfl,rfl⟩
    · exact inv.objects k r known
    have none_held : ∀ kind : Admission → Bool, (∀ a, kind a = true → a.object = s.pool.objects.length) →
        s.admissions.countP (live kind) = 0 := by
      intro kind here
      rw [List.countP_eq_zero]
      intro a member counted
      simp only [live,Bool.and_eq_true,Bool.not_eq_true'] at counted
      exact absurd (here a counted.2) (old a member counted.1).ne
    have held : s.held s.pool.objects.length = 0 := none_held _ (by simp)
    have large : s.heldLarge s.pool.objects.length = 0 := none_held _ (by simp +contextual)
    change ((s.held _ : Nat) : Int) ≤ 0 ∧ ((s.heldLarge _ : Nat) : Int) ≤ 0
    rw [held,large]
    exact ⟨le_refl _,le_refl _⟩

theorem inv_sync (inv : Inv s) (config : Config)
    (idle : s.pool.runtimes.get config.id = none → s.unsettled config.id = 0) :
    Inv { s with pool := s.pool.sync config } := by
  unfold Pool.sync
  split
  · split_ifs
    · exact inv
    · exact inv_calm inv (calm_modify fun _ => rfl)
  · next missing =>
    have gone := unregistered missing
    exact inv_add inv (idle gone)

theorem sync_registered {p : Pool} {config : Config} {id : String} (known : p.runtimes.get id = some k) :
    (p.sync config).runtimes.get id = some k := by
  unfold Pool.sync
  split
  · split_ifs
    · exact known
    · exact known
  · next missing =>
    have gone := unregistered missing
    refine (get_set_other _ _ ?_).trans known
    rintro rfl
    rw [gone] at known
    cases known

theorem inv_syncs (entries : List (String × Config)) (names : ∀ e ∈ entries, e.2.id = e.1) {s : State} (inv : Inv s)
    (idle : ∀ e ∈ entries, s.pool.runtimes.get e.1 = none → s.unsettled e.1 = 0) :
    Inv { s with pool := entries.foldl (fun p e => p.sync e.2) s.pool } := by
  induction entries generalizing s with
  | nil => exact inv
  | cons e rest ih =>
    have name := names e (by simp)
    have synced : Inv { s with pool := s.pool.sync e.2 } := by
      refine inv_sync inv e.2 fun gone => ?_
      rw [name] at gone ⊢
      exact idle e (by simp) gone
    refine ih (fun e' member => names e' (List.mem_cons_of_mem _ member)) synced fun e' member gone => ?_
    refine idle e' (List.mem_cons_of_mem _ member) ?_
    -- what is registered stays so
    cases known : s.pool.runtimes.get e'.1 with
    | none => rfl
    | some k =>
      have still : (s.pool.sync e.2).runtimes.get e'.1 = some k := sync_registered known
      rw [show (s.pool.sync e.2).runtimes.get e'.1 = none from gone] at still
      cases still

theorem inv_refresh (inv : Inv s) (configs : List Config) (orderly : Orderly s (.refresh configs)) :
    Inv { s with pool := s.pool.refresh configs } := by
  have names : ∀ e ∈ (incoming s.pool.envTokens configs).entries, e.2.id = e.1 := fun e member =>
    (incoming_panel ((get_eq_some_iff _ _ _).mpr member)).1
  refine inv_syncs _ names (inv_calm inv (calm_keep _)) fun e member gone => ?_
  refine orderly e member ?_
  -- an account that comes in has not been taken out before
  cases known : s.pool.runtimes.get e.1 with
  | none => rfl
  | some k =>
    obtain ⟨r,there,_⟩ := s.pool.named _ k known
    have comes := (get_eq_some_iff _ _ _).mpr member
    simp [Pool.keep,get_filter,known,there,comes] at gone

/-! ### Taking and giving back -/

theorem live_append {admissions : List Admission} (fresh : a.settled = false) (kind : Admission → Bool) :
    (admissions ++ [a]).countP (live kind) = admissions.countP (live kind) + if kind a then 1 else 0 := by
  simp [live,fresh]

theorem live_settled {admissions : List Admission} (found : admissions[n]? = some a)
    (unsettled : a.settled = false) (kind : Admission → Bool) :
    (admissions.set n { a with settled := true }).countP (live kind) + (if kind a then 1 else 0) =
      admissions.countP (live kind) := by
  have out := countP_set_out (y := { a with settled := true }) (live kind) found rfl
  simpa [live,unsettled] using out

theorem at_modify {r' : Runtime}
    (found : (p.modify k f keeps).objects[n]? = some r') :
    n ≠ k ∧ p.objects[n]? = some r' ∨ n = k ∧ ∃ r, p.objects[k]? = some r ∧ r' = f r := by
  simp only [Pool.modify,List.getElem?_modify,Option.map_eq_map,Option.map_eq_some_iff] at found
  obtain ⟨r,known,rfl⟩ := found
  by_cases here : k = n
  · subst here
    exact .inr ⟨rfl,r,known,if_pos rfl⟩
  · refine .inl ⟨Ne.symm here,?_⟩
    rw [known,if_neg here]

theorem objects_id (inv : Inv s) {r : Runtime} (there : s.pool.objects[k]? = some r) :
    ∀ a ∈ s.admissions, a.settled = false → a.object = k → a.accountId = r.config.id := by
  rintro a member unsettled rfl
  obtain ⟨r',there',name,_⟩ := inv.handles a member unsettled
  cases there.symm.trans there'
  exact name.symm

theorem inv_modify (inv : Inv s)
    (pool : t.pool = s.pool.modify k f keeps)
    (handles : ∀ a ∈ t.admissions, a.settled = false → a ∈ s.admissions ∨
      a.object = k ∧ s.pool.runtimes.get a.accountId = some k)
    (registered : ∀ id r, s.pool.runtimes.get id = some k → s.pool.objects[k]? = some r →
      (f r).inflight = t.unsettled id ∧ (f r).largeInflight = t.unsettledLarge id)
    (elsewhere : ∀ id n, s.pool.runtimes.get id = some n → n ≠ k →
      t.unsettled id = s.unsettled id ∧ t.unsettledLarge id = s.unsettledLarge id)
    (object : ∀ r, s.pool.objects[k]? = some r → (t.held k : Int) ≤ (f r).inflight ∧ (t.heldLarge k : Int) ≤ (f r).largeInflight)
    (apart : ∀ n, n ≠ k → t.held n ≤ s.held n ∧ t.heldLarge n ≤ s.heldLarge n) : Inv t := by
  have same : ∀ id, t.pool.runtimes.get id = s.pool.runtimes.get id := fun id => by rw [pool]; rfl
  constructor
  · intro a member unsettled
    rcases handles a member unsettled with old | ⟨here,registered⟩
    · obtain ⟨r,known,name,only⟩ := inv.handles a old unsettled
      refine ⟨if k = a.object then f r else r,?_,?_,fun n found => only n (same _ ▸ found)⟩
      · rw [pool]
        simp only [Pool.modify,List.getElem?_modify,known]
        rfl
      · split_ifs
        · exact (keeps r).trans name
        · exact name
    · obtain ⟨r,known,name⟩ := s.pool.named _ k registered
      refine ⟨f r,?_,(keeps r).trans name,fun n found => ?_⟩
      · rw [pool,here]
        simp [Pool.modify,known]
      · rw [same,registered] at found
        cases found
        exact here.symm
  · intro id n r' found there
    rw [same] at found
    rw [pool] at there
    rcases at_modify there with ⟨other,known⟩ | ⟨rfl,r,known,rfl⟩
    · obtain ⟨inflight,large⟩ := elsewhere id n found other
      rw [inflight,large]
      exact inv.registered id n r' found known
    · exact registered id r found known
  · intro n r' there
    rw [pool] at there
    rcases at_modify there with ⟨other,known⟩ | ⟨rfl,r,known,rfl⟩
    · obtain ⟨held,large⟩ := apart n other
      have before := inv.objects n r' known
      omega
    · exact object r known

def granting (s : State) (k : Nat) (runtime : Runtime) (request : Request) : State :=
  { s with
    pool := s.pool.modify k (taken (isLargeFileBytes request.bytes)) (taken_id _)
    admissions := s.admissions ++
      [⟨k,runtime.config.id,request.role.getD .download,isLargeFileBytes request.bytes,false⟩] }

theorem admitRequest_ok {request : Request} {now : Int} (granted : admitRequest s request now = .ok t) :
    ∃ k runtime, s.pool.runtimes.get (trim request.accountId) = some k ∧ s.pool.objects[k]? = some runtime ∧
      runtime.config.id = trim request.accountId ∧ runtime.inflight < runtime.config.maxInflight ∧
      (isLargeFileBytes request.bytes = true → runtime.largeInflight < maxLargeInflightOf runtime.config) ∧
      t = granting s k runtime request := by
  unfold admitRequest at granted
  split at granted
  · next k runtime known found =>
    obtain ⟨k',known',there⟩ := runtime_some.mp found
    cases known.symm.trans known'
    dsimp only at granted
    split_ifs at granted with _ _ _ room large
    cases granted
    simp only [Bool.and_eq_true,decide_eq_true_eq,not_and,not_le] at large
    exact ⟨k,runtime,known,there,runtime_id found,not_le.mp room,large,rfl⟩
  · cases granted

theorem inv_admitted (inv : Inv s) {request : Request} {now : Int} (granted : admitRequest s request now = .ok t) :
    Inv t := by
  obtain ⟨k,runtime,known,there,name,_,_,rfl⟩ := admitRequest_ok granted
  refine inv_modify inv (show _ = s.pool.modify k _ (taken_id _) from rfl) ?_ ?_ ?_ ?_ ?_
  · intro a member _
    rcases List.mem_append.mp member with old | new
    · exact .inl old
    · rw [List.mem_singleton] at new
      subst new
      refine .inr ⟨rfl,?_⟩
      rw [name]
      exact known
  · intro id r here there'
    cases there.symm.trans there'
    have same : id = trim request.accountId := runtimes_injective here known
    have before := inv.registered id k runtime here there
    simp only [granting,State.unsettled,State.unsettledLarge,live_append] at before ⊢
    simp only [taken,name,same,decide_true,Bool.true_and] at before ⊢
    split_ifs <;> omega
  · intro id n here other
    have different : runtime.config.id ≠ id := by
      rintro rfl
      rw [name,known] at here
      cases here
      exact other rfl
    simp only [granting,State.unsettled,State.unsettledLarge,live_append]
    simp [different]
  · intro r there'
    cases there.symm.trans there'
    have before := inv.objects k runtime there
    simp only [granting,State.held,State.heldLarge,live_append] at before ⊢
    simp only [taken,decide_true,Bool.true_and]
    split_ifs <;> omega
  · intro n other
    simp only [granting,State.held,State.heldLarge,live_append]
    simp [Ne.symm other]

theorem inv_release (inv : Inv s) (found : s.admissions[n]? = some a)
    (unsettled : a.settled = false) :
    Inv { s with
      pool := s.pool.modify a.object (releaseCounters a.largeFile) (released_id _)
      admissions := s.admissions.set n { a with settled := true } } := by
  have member := List.mem_of_getElem? found
  obtain ⟨runtime,there,name,only⟩ := inv.handles a member unsettled
  have fewer := live_settled found unsettled
  refine inv_modify inv (show _ = s.pool.modify a.object _ (released_id _) from rfl) ?_ ?_ ?_ ?_ ?_
  · intro b inside live_b
    rcases List.mem_or_eq_of_mem_set inside with old | rfl
    · exact .inl old
    · cases live_b
  · intro id r here there'
    cases there.symm.trans there'
    have same : a.accountId = id := by
      obtain ⟨r,known,name'⟩ := s.pool.named id _ here
      cases there.symm.trans known
      exact name.symm.trans name'
    have before := inv.registered id _ runtime here there
    have one := fewer (·.accountId = id)
    have oneLarge := fewer (fun a => a.accountId = id && a.largeFile)
    simp only [State.unsettled,State.unsettledLarge] at before ⊢
    simp only [releaseCounters,same,decide_true,Bool.true_and,if_true] at one oneLarge ⊢
    split_ifs at oneLarge ⊢ <;> omega
  · intro id k here other
    have different : a.accountId ≠ id := by
      rintro rfl
      exact other (only k here)
    have one := fewer (·.accountId = id)
    have oneLarge := fewer (fun a => a.accountId = id && a.largeFile)
    simp only [different,decide_false,Bool.false_and,Bool.false_eq_true,if_false] at one oneLarge
    simp only [State.unsettled,State.unsettledLarge]
    omega
  · intro r there'
    cases there.symm.trans there'
    have before := inv.objects _ runtime there
    have one := fewer (·.object = a.object)
    have oneLarge := fewer (fun b => b.object = a.object && b.largeFile)
    simp only [State.held,State.heldLarge] at before ⊢
    simp only [releaseCounters,decide_true,Bool.true_and,if_true] at one oneLarge ⊢
    split_ifs at oneLarge ⊢ <;> omega
  · intro k _
    have one := fewer (·.object = k)
    have oneLarge := fewer (fun b => b.object = k && b.largeFile)
    simp only [State.held,State.heldLarge]
    omega

theorem inv_recordSample (inv : Inv s) (id : String) (now : Int) (sample : Sample) :
    Inv { s with pool := recordSample s.pool id now sample } := by
  refine inv_calm inv (calm_onAccount fun r => ?_)
  obtain ⟨config,inflight,large⟩ := sampled_same now sample r
  simp only [counters,config,inflight,large]

theorem inv_settle (inv : Inv s) (n : Nat) (sample : Option (Int × Sample)) : Inv (settle s n sample) := by
  unfold settle
  split
  · next a found =>
    split_ifs with settled
    · exact inv
    · have released := inv_release inv found (by simpa using settled)
      cases sample with
      | none => exact released
      | some given => exact inv_recordSample released a.accountId given.1 given.2
  · exact inv

/-! ### The pair by id -/

theorem inv_beginAttempt (inv : Inv s) (id : String) : Inv (beginAttempt s id) := by
  unfold beginAttempt
  split
  · next k known =>
    have more : ∀ id', (s.attempts ++ [(⟨id,false⟩ : Attempt)]).countP (fun a => !a.settled && a.accountId = id') =
        s.attempts.countP (fun a => !a.settled && a.accountId = id') + if id = id' then 1 else 0 := by
      intro id'
      simp
    refine inv_modify inv (show _ = s.pool.modify k _ (taken_id _) from rfl) (fun a member _ => .inl member) ?_ ?_ ?_ ?_
    · intro id' r here there
      have same : id = id' := runtimes_injective known here
      have before := inv.registered id' k r here there
      have one := more id'
      rw [if_pos same] at one
      simp only [State.unsettled,taken] at before ⊢
      exact ⟨by omega,before.2⟩
    · intro id' n here other
      have different : id ≠ id' := by
        rintro rfl
        cases here.symm.trans known
        exact other rfl
      simp only [State.unsettled,more,different]
      exact ⟨rfl,rfl⟩
    · intro r there
      have before := inv.objects k r there
      refine ⟨?_,before.2⟩
      have inflight : (taken false r).inflight = r.inflight + 1 := rfl
      change (s.held k : Int) ≤ _
      omega
    · intro n _
      exact ⟨le_refl _,le_refl _⟩
  · exact inv

theorem inv_attempts (inv : Inv s) {attempts : List Attempt}
    (same : ∀ id k, s.pool.runtimes.get id = some k →
      State.unsettled { s with attempts := attempts } id = s.unsettled id) : Inv { s with attempts := attempts } := by
  refine ⟨inv.handles,fun id k r found there => ?_,inv.objects⟩
  have before := inv.registered id k r found there
  exact ⟨before.1.trans (congrArg Int.ofNat (same id k found)).symm,before.2⟩

theorem inv_releaseAttempt (inv : Inv s) {a : Attempt} (found : s.attempts[n]? = some a)
    (unsettled : a.settled = false) :
    Inv { s with
      pool := releaseAttempt s.pool a.accountId
      attempts := s.attempts.set n { a with settled := true } } := by
  have fewer : ∀ id, (s.attempts.set n { a with settled := true }).countP (fun a => !a.settled && a.accountId = id) +
      (if a.accountId = id then 1 else 0) = s.attempts.countP (fun a => !a.settled && a.accountId = id) := by
    intro id
    have out := countP_set_out (y := { a with settled := true })
      (fun a : Attempt => !a.settled && decide (a.accountId = id)) found rfl
    simpa [unsettled] using out
  unfold releaseAttempt onAccount
  split
  · next k known =>
    refine inv_modify inv (show _ = s.pool.modify k _ (released_id _) from rfl) (fun a member _ => .inl member) ?_ ?_ ?_ ?_
    · intro id r here there
      have before := inv.registered id k r here there
      have same : a.accountId = id := runtimes_injective known here
      have one := fewer id
      simp only [State.unsettled,releaseCounters,same,if_true] at before one ⊢
      exact ⟨by omega,before.2⟩
    · intro id m here other
      have different : a.accountId ≠ id := by
        rintro rfl
        cases here.symm.trans known
        exact other rfl
      have one := fewer id
      simp only [different,if_false] at one
      simp only [State.unsettled]
      exact ⟨by omega,rfl⟩
    · intro r there
      have before := inv.objects k r there
      refine ⟨?_,before.2⟩
      obtain ⟨r',there',name⟩ := s.pool.named _ k known
      cases there.symm.trans there'
      have registered := (inv.registered _ k r known there).1
      have admitted : s.held k ≤ s.admissions.countP (live (·.accountId = a.accountId)) := by
        refine List.countP_mono_left fun b member here => ?_
        simp only [live,Bool.and_eq_true,Bool.not_eq_true',decide_eq_true_eq] at here ⊢
        exact ⟨here.1,(objects_id inv there b member here.1 here.2).trans name⟩
      have one := fewer a.accountId
      simp only [State.unsettled,if_true] at registered one
      change (s.held k : Int) ≤ max 0 (r.inflight - 1)
      omega
    · intro m _
      exact ⟨le_refl _,le_refl _⟩
  · next gone =>
    refine inv_attempts inv fun id k known => ?_
    have different : a.accountId ≠ id := by
      rintro rfl
      rw [gone] at known
      cases known
    have one := fewer id
    simp only [different,if_false] at one
    simp only [State.unsettled]
    omega

theorem inv_endAttempt (inv : Inv s) {a : Attempt} (found : s.attempts[n]? = some a)
    (unsettled : a.settled = false) (sample : Option (Int × Sample)) : Inv (endAttempt s n sample) := by
  have released := inv_releaseAttempt inv found unsettled
  unfold endAttempt
  rw [found]
  cases sample with
  | none => exact released
  | some given => exact inv_recordSample released a.accountId given.1 given.2

theorem inv_step (inv : Inv s) (l : Label) (allowed : Allowed s l) (orderly : Orderly s l) : Inv (step s l) := by
  cases l with
  | admitRequest request now =>
    simp only [step]
    split
    · next granted => exact inv_admitted inv granted
    · exact inv
  | finish n now sample => exact inv_settle inv n (some (now,sample))
  | release n => exact inv_settle inv n none
  | beginAttempt id => exact inv_beginAttempt inv id
  | finishAttempt n now sample =>
    obtain ⟨a,found,unsettled⟩ := allowed
    exact inv_endAttempt inv found unsettled (some (now,sample))
  | releaseAttempt n =>
    obtain ⟨a,found,unsettled⟩ := allowed
    exact inv_endAttempt inv found unsettled none
  | probe id now ok =>
    refine inv_calm inv (calm_onAccount fun r => ?_)
    obtain ⟨config,inflight,large⟩ := probed_same now ok r
    simp only [counters,config,inflight,large]
  | refresh configs => exact inv_refresh inv configs orderly

/-! ### The counters -/

theorem unclamped_of {r : Runtime} {largeFile : Bool} (inflight : 0 < r.inflight)
    (large : largeFile = true → 0 < r.largeInflight) : Unclamped largeFile r := by
  refine ⟨max_eq_right (by omega),?_⟩
  cases largeFile with
  | false => rfl
  | true => exact max_eq_right (by have := large rfl; omega)

theorem accounted_of_inv (inv : Inv s) : Accounted s where
  inflight id r found := by
    obtain ⟨k,known,there⟩ := runtime_some.mp found
    exact (inv.registered id k r known there).1
  largeInflight id r found := by
    obtain ⟨k,known,there⟩ := runtime_some.mp found
    exact (inv.registered id k r known there).2
  admissions a member unsettled := by
    obtain ⟨r,there,_⟩ := inv.handles a member unsettled
    have before := inv.objects _ r there
    have one : 0 < s.held a.object := List.countP_pos_iff.mpr ⟨a,member,by simp [live,unsettled]⟩
    refine ⟨r,there,unclamped_of (by omega) fun large => ?_⟩
    have oneLarge : 0 < s.heldLarge a.object := List.countP_pos_iff.mpr ⟨a,member,by simp [live,unsettled,large]⟩
    omega
  attempts a member unsettled r found := by
    obtain ⟨k,known,there⟩ := runtime_some.mp found
    have before := (inv.registered _ k r known there).1
    have one : 0 < s.attempts.countP (fun b => !b.settled && b.accountId = a.accountId) :=
      List.countP_pos_iff.mpr ⟨a,member,by simp [unsettled]⟩
    refine unclamped_of ?_ nofun
    simp only [State.unsettled] at before
    omega

theorem admit_within {l : Label} (orderly : Orderly s l) : Within s l := by
  cases l with
  | admitRequest request now =>
    intro t granted
    obtain ⟨k,runtime,known,there,_,room,large,rfl⟩ := admitRequest_ok granted
    have before := runtime_some.mpr ⟨k,known,there⟩
    refine ⟨taken (isLargeFileBytes request.bytes) runtime,?_,?_,?_⟩
    · simp only [granting,runtime_modify,known,before]
      rfl
    · exact room
    · simp only [taken]
      split_ifs with big
      · exact large big
      · exact orderly (by simpa using big) runtime before
  | _ => trivial

theorem empty_inv : Inv ⟨.empty,[],[]⟩ where
  handles a member := by cases member
  registered id k r known := by cases known
  objects k r known := by cases known

theorem boot_inv (env : Environment) : Inv (start env) := by
  have none_yet : ∀ configs : List Config, ∀ p : Pool, Inv ⟨p,[],[]⟩ → Inv ⟨configs.foldl Pool.add p,[],[]⟩ := by
    intro configs
    induction configs with
    | nil => exact fun _ inv => inv
    | cons config rest ih => exact fun p inv => ih _ (inv_add inv rfl)
  exact none_yet _ _ empty_inv

/-- The counters of every registered account are what is under way, no clamp acts and grants are within
the limits, if no account comes back too early. -/
theorem attempts_accounted {env : Environment}
    (reach : Reachable step (fun s l => Allowed s l ∧ Orderly s l) (start env) s) :
    Accounted s ∧ ∀ l, Allowed s l → Orderly s l → Within s l := by
  have inv : Inv s := reachable_invariant (boot_inv env) (fun _ l inv ok => inv_step inv l ok.1 ok.2) reach
  exact ⟨accounted_of_inv inv,fun _ _ orderly => admit_within orderly⟩

end

def noAccounts : Environment := ⟨.blank,"","",""⟩

def panelAccount : Config := ⟨"7","7:secret","-1",2,none,true,.panel,false⟩

/-- An account that goes while an admission is under way, and comes back afterwards. -/
theorem attempts_accounted_traffic :
    let labels : List Label := [.refresh [panelAccount],.admitRequest ⟨"7",none,some (.whole (2 ^ 31)),false⟩ 0,.beginAttempt "7",
      .releaseAttempt 0,.refresh [],.finish 0 5 ⟨true,none,none⟩,.release 0,.refresh [panelAccount],
      .admitRequest ⟨"7",none,none,false⟩ 9]
    let s := labels.foldl step (start noAccounts)
    (s.pool.runtime "7").map Runtime.inflight = some 1 ∧ s.unsettled "7" = 1 ∧ Accounted s := by
  intro labels s
  have legal : Legal step (fun s l => Allowed s l ∧ Orderly s l) (start noAccounts) labels := by decide +kernel
  exact ⟨by decide +kernel,by decide +kernel,(attempts_accounted (reachable_run .start labels legal)).1⟩

/-- An attempt goes on while its account goes and comes back. -/
theorem attempt_outlives_account :
    ¬ ∀ (env : Environment) (s : State), Reachable step Allowed (start env) s →
      Accounted s ∧ ∀ l, Allowed s l → Within s l := by
  intro always
  let labels : List Label := [.refresh [panelAccount],.beginAttempt "7",.refresh [],.refresh [panelAccount]]
  have legal : Legal step Allowed (start noAccounts) labels := by decide +kernel
  have accounted := (always noAccounts _ (reachable_run .start labels legal)).1
  have none_there : ((labels.foldl step (start noAccounts)).pool.runtime "7") = some (createRuntime panelAccount) := by
    decide +kernel
  have inflight := accounted.inflight "7" _ none_there
  have under_way : (labels.foldl step (start noAccounts)).unsettled "7" = 1 := by decide +kernel
  rw [under_way] at inflight
  cases inflight

end Tgtc.AccountAttempts
