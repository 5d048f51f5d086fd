import Mathlib.Tactic.Linarith
import Tgtc.AccountAttempts

/-!
The policy that moves the budget of the upstreams with the number of Bots that can serve, by one step when enough
evaluations in a row have agreed on where it should go.
-/
namespace Tgtc.CapacityPolicy
open Maps Runs Numbers
open AccountPool (trim)
open AccountAttempts (FailureKind)

def evalIntervalMs : Int := 60000
def upStableCycles : Nat := 2
def downStableCycles : Nat := 10
def stepMax : ℚ := 8
def minBudget : ℚ := 8
def maxBudget : ℚ := 64
def failureFreezeThreshold : Int := 3
def largeFileMinAccounts : Nat := 2
def smallFileUpstreamBudgetPerAccount : ℚ := 16

def targetUpstreamBudget (activeBotCount : Nat) : ℚ :=
  if activeBotCount = 0 then minBudget
  else min maxBudget (max minBudget (activeBotCount * smallFileUpstreamBudgetPerAccount))

def maxConcurrentUpstreamsKey : String := "FILE_DOWNLOAD_MAX_CONCURRENT_UPSTREAMS"
def autoCapacityEnabledKey : String := "FILE_DOWNLOAD_AUTO_CAPACITY_ENABLED"

/-- A text is blank, or it is what `Number` makes of it. -/
abbrev NumberText := Option Number

def normalizeDownloadConfigNumber (fallback least most : ℚ) : NumberText → ℚ
  | some (.finite q) => min most (max least q)
  | _ => fallback

def budgetOf (text : NumberText) : ℚ := normalizeDownloadConfigNumber 8 1 64 text

def normalizeBooleanFlag (raw : String) (fallback : Bool) : Bool :=
  let value := (trim raw).toLower
  if value = "" then fallback
  else if value ∈ ["true","1","yes","on"] then true
  else if value ∈ ["false","0","no","off"] then false
  else fallback

def readConfig {Text : Type} (got : Option Text) (fallback : Text) : Text := got.getD fallback

structure Account where
  id : String
  enabled : Bool
  storageConfigured : Bool
  coolingDown : Bool
  consecutiveFailures : Nat
  lastErrorKind : Option FailureKind

/-- The item of `evaluateEligibility` has no reason to be left out. -/
def Account.eligible (account : Account) : Bool :=
  account.enabled && account.storageConfigured && !account.coolingDown && decide (account.consecutiveFailures < 3)

/-- `largeFileReplicaDistribution`. -/
structure Distribution where
  files : Nat
  truncated : Bool
  readyAccountCounts : List Nat
  minReadyAccounts : Nat

structure Gate where
  files : Nat
  minReadyAccounts : Nat
  requiredAccounts : Nat
  readyAccountCounts : List Nat
  truncated : Bool
  passed : Bool

def evaluateLargeFileGate : Option Distribution → Gate
  | some d => ⟨d.files,d.minReadyAccounts,largeFileMinAccounts,d.readyAccountCounts,d.truncated,
      decide (d.files = 0) || !d.truncated && decide (largeFileMinAccounts ≤ d.minReadyAccounts)⟩
  | none => ⟨0,0,largeFileMinAccounts,[],false,false⟩

structure Change where
  date : Int
  before : ℚ
  after : ℚ
  reason : String
  activeBotCount : Nat
  eligibleCount : Nat

structure Policy where
  currentBudget : ℚ
  autoEnabled : Bool
  lastStreamFailures : Int
  lastFailureSampleAt : Int
  lastEvaluated : Bool
  frozenByFailure : Bool
  lastFailureDelta : Int
  pendingUpCycles : Nat
  pendingDownCycles : Nat
  lastTarget : Option ℚ
  lastChange : Option Change
  suspendedReason : Option String
  frozenReason : Option String
  activeBotIds : List String
  eligibleCount : Nat
  largeFileGate : Option Gate

def Policy.initial : Policy := ⟨8,true,0,0,false,false,0,0,0,none,none,none,none,[],0,none⟩

def Policy.target (p : Policy) : ℚ := targetUpstreamBudget p.activeBotIds.length

def Policy.resetPending (p : Policy) : Policy :=
  { p with pendingUpCycles := 0, pendingDownCycles := 0, lastTarget := some p.target }

/-- The failures since the last sample. Samples are half an interval apart. -/
def Policy.sample (p : Policy) (streamFailures now : Int) : Policy :=
  if !p.lastEvaluated then
    { p with
      lastStreamFailures := streamFailures
      lastFailureSampleAt := now
      frozenByFailure := false
      lastFailureDelta := 0 }
  else if evalIntervalMs / 2 ≤ now - p.lastFailureSampleAt then
    { p with
      lastFailureDelta := streamFailures - p.lastStreamFailures
      lastStreamFailures := streamFailures
      lastFailureSampleAt := now
      frozenByFailure := failureFreezeThreshold ≤ streamFailures - p.lastStreamFailures }
  else p

def flooded (accounts : List Account) : List Account :=
  accounts.filter (fun account => account.coolingDown && account.lastErrorKind = some .flood)

def Policy.freezeReason (p : Policy) (accounts : List Account) : Option String :=
  if p.frozenByFailure then
    let delta := p.lastFailureDelta
    some s!"采样窗口内新增回源失败 {delta} 次（阈值 3）"
  else if flooded accounts ≠ [] then
    let ids := String.intercalate ", " ((flooded accounts).map Account.id)
    some s!"存在限流冷却账号（{ids}）"
  else none

def Policy.evaluateFreezeReason (p : Policy) (streamFailures now : Int) (accounts : List Account) : Policy :=
  let p := p.sample streamFailures now
  { p with frozenReason := p.freezeReason accounts }

def Policy.suspension (p : Policy) (active : Bool) : Option String :=
  if !p.autoEnabled then some "自动扩缩容开关已关闭（FILE_DOWNLOAD_AUTO_CAPACITY_ENABLED=false）"
  else if !active then some "账号池未生效，自动扩缩容挂起"
  else if p.activeBotIds.length = 0 then
    some "没有可实际回源的有效 Bot（需 enabled + 存储 Chat + 健康 + 已有 ready 副本），自动扩缩容挂起"
  else none

def nextCycles (aside stable : Bool) (cycles : Nat) : Nat :=
  if aside then (if stable then cycles + 1 else 1) else 0

def Policy.countCycles (p : Policy) : Policy :=
  let stable := decide (p.lastTarget = some p.target)
  { p with
    suspendedReason := none
    pendingUpCycles := nextCycles (p.currentBudget < p.target) stable p.pendingUpCycles
    pendingDownCycles := nextCycles (p.target < p.currentBudget) stable p.pendingDownCycles
    lastTarget := some p.target }

def Policy.maybeScaleUp (p : Policy) : Option (ℚ × String) :=
  if p.frozenReason.isSome then none
  else if p.pendingUpCycles < upStableCycles then none
  else if p.largeFileGate.any (fun gate => !gate.passed) then none
  else
    let next := min p.target (p.currentBudget + stepMax)
    if next ≤ p.currentBudget then none
    else
      let count := p.activeBotIds.length
      let target := p.target
      let cycles := p.pendingUpCycles
      some (next,s!"有效 Bot 数 {count} → 目标预算 {target}，稳定 {cycles} 个周期后升档（每次 ≤+8）")

def Policy.maybeScaleDown (p : Policy) : Option (ℚ × String) :=
  if p.pendingDownCycles < downStableCycles then none
  else
    let next := max minBudget (max p.target (p.currentBudget - stepMax))
    if p.currentBudget ≤ next then none
    else
      let count := p.activeBotIds.length
      let target := p.target
      let cycles := p.pendingDownCycles
      some (next,s!"有效 Bot 数 {count} → 目标预算 {target}，持续 {cycles} 个周期偏低后降档（每次 ≤-8）")

def Policy.maybeScale (p : Policy) : Option (ℚ × String) :=
  if p.currentBudget < p.target then p.maybeScaleUp
  else if p.target < p.currentBudget then p.maybeScaleDown
  else none

def Policy.applyBudget (p : Policy) (next : ℚ) (reason : String) (now : Int) : Policy :=
  { p.resetPending with
    currentBudget := next
    lastChange := some ⟨now,p.currentBudget,next,reason,p.activeBotIds.length,p.eligibleCount⟩ }

inductive Phase where
  | idle | autoReading | budgetReading
  /-- `countReadyByAccount`, for the eligible accounts -/
  | counting (eligible : List String)
  /-- `largeFileReplicaDistribution` -/
  | gating
  | deciding
  /-- `configCache.set` -/
  | writing (next : ℚ) (reason : String)

structure Verdict where
  read : NumberText
  target : ℚ
  suspended : Bool
  frozen : Bool
  gate : Option Gate
  written : Option ℚ

structure State where
  policy : Policy
  phase : Phase
  read : NumberText
  history : List Verdict

def initial : State := ⟨.initial,.idle,none,[]⟩

def State.evaluate (s : State) : State :=
  match s.phase with
  | .idle => { s with phase := .autoReading }
  | _ => s

def State.onConfigChanged (s : State) (key : String) : State :=
  if key ∈ [maxConcurrentUpstreamsKey,autoCapacityEnabledKey] then s.evaluate else s

def State.finish (s : State) : State := { s with policy := { s.policy with lastEvaluated := true }, phase := .idle }

/-- `refreshActiveBots`, up to its first query. -/
def State.refreshActiveBots (s : State) (accounts : List Account) (active : Bool) : State :=
  let eligible := (accounts.filter Account.eligible).map Account.id
  let p := { s.policy with eligibleCount := eligible.length }
  if active then { s with policy := p, phase := .counting eligible }
  else { s with policy := { p with activeBotIds := [], largeFileGate := none }, phase := .deciding }

def State.verdict (s : State) (active : Bool) : Verdict :=
  ⟨s.read,s.policy.target,(s.policy.suspension active).isSome,s.policy.frozenReason.isSome,s.policy.largeFileGate,none⟩

def State.decide (s : State) (active : Bool) : State :=
  let p := s.policy
  let s := { s with history := s.verdict active :: s.history }
  match p.suspension active with
  | some reason => State.finish { s with policy := { p.resetPending with suspendedReason := some reason } }
  | none =>
    match p.countCycles.maybeScale with
    | some (next,reason) => { s with policy := p.countCycles, phase := .writing next reason }
    | none => State.finish { s with policy := p.countCycles }

def State.freeze (s : State) (streamFailures now : Int) (accounts : List Account) : State :=
  { s with policy := s.policy.evaluateFreezeReason streamFailures now accounts }

def State.store (s : State) (next : ℚ) (reason : String) (now : Int) : State :=
  State.finish { s with
    policy := s.policy.applyBudget next reason now
    history := s.history.modify 0 (fun verdict => { verdict with written := some next }) }

inductive Event where
  | timer
  /-- `config.changed` for a key -/
  | changed (key : String)
  | autoRead (got : Option String)
  | budgetRead (got : Option NumberText) (accounts : List Account) (active : Bool)
  /-- `none` where the query fails, here and below -/
  | counted (got : Option (OrderedMap String Nat))
  | distributed (got : Option Distribution)
  | judged (streamFailures now : Int) (accounts : List Account) (active : Bool)
  | stored (ok : Bool) (now : Int)

def Phase.expects : Phase → Event → Bool
  | _, .timer => true
  | _, .changed _ => true
  | .autoReading, .autoRead _ => true
  | .budgetReading, .budgetRead _ _ _ => true
  | .counting _, .counted _ => true
  | .gating, .distributed _ => true
  | .deciding, .judged _ _ _ _ => true
  | .writing _ _, .stored _ _ => true
  | _, _ => false

def allowed (s : State) (event : Event) : Prop := s.phase.expects event = true

instance (s : State) (event : Event) : Decidable (allowed s event) := inferInstanceAs (Decidable (_ = true))

def step (s : State) : Event → State
  | .timer => s.evaluate
  | .changed key => s.onConfigChanged key
  | .autoRead got =>
    let autoEnabled := normalizeBooleanFlag (readConfig got "true") true
    { s with policy := { s.policy with autoEnabled }, phase := .budgetReading }
  | .budgetRead got accounts active =>
    let read := readConfig got (some (.finite 8))
    State.refreshActiveBots { s with policy := { s.policy with currentBudget := budgetOf read }, read } accounts active
  | .counted none => s.finish
  | .counted (some readyCounts) =>
    match s.phase with
    | .counting eligible =>
      let activeBotIds := eligible.filter (fun id => decide (0 < (readyCounts.get id).getD 0))
      { s with policy := { s.policy with activeBotIds }, phase := .gating }
    | _ => s
  | .distributed got =>
    { s with policy := { s.policy with largeFileGate := some (evaluateLargeFileGate got) }, phase := .deciding }
  | .judged streamFailures now accounts active => (s.freeze streamFailures now accounts).decide active
  | .stored true now =>
    match s.phase with
    | .writing next reason => s.store next reason now
    | _ => s
  | .stored false _ => s.finish

abbrev Reached : State → Prop := Reachable step allowed initial

/-- The latest `n` evaluations were not suspended and agreed on the target. -/
def Agreeing (n : Nat) (target : ℚ) (evaluations : List Verdict) : Prop :=
  n ≤ evaluations.length ∧ ∀ e ∈ evaluations.take n, e.suspended = false ∧ e.target = target

def Streak (n : Nat) (target : Option ℚ) (evaluations : List Verdict) : Prop :=
  n ≤ evaluations.length ∧
    ∀ e ∈ evaluations.take n, e.suspended = false ∧ some e.target = target ∧ e.written = none

theorem streak_zero (target : Option ℚ) (evaluations : List Verdict) : Streak 0 target evaluations := by
  simp [Streak]

variable {e : Verdict} {n : Nat} {evaluations : List Verdict} {s : State} {p : Policy} {reason : String} {target : Option ℚ}

theorem streak_cons (streak : Streak n (some e.target) evaluations)
    (awake : e.suspended = false) (unwritten : e.written = none) :
    Streak (n + 1) (some e.target) (e :: evaluations) := by
  refine ⟨Nat.succ_le_succ streak.1,?_⟩
  intro e' among
  rw [List.take_succ_cons,List.mem_cons] at among
  rcases among with rfl | among
  · exact ⟨awake,rfl,unwritten⟩
  · exact streak.2 e' among

theorem streak_next {last : Option ℚ} {stable : Bool}
    (aside : Bool) (streak : Streak n last evaluations) (same : stable = true → last = some e.target)
    (awake : e.suspended = false) (unwritten : e.written = none) :
    Streak (nextCycles aside stable n) (some e.target) (e :: evaluations) := by
  unfold nextCycles
  split_ifs with isAside isStable
  · rw [same isStable] at streak
    exact streak_cons streak awake unwritten
  · exact streak_cons (streak_zero _ _) awake unwritten
  · exact streak_zero _ _

theorem streak_fewer {m : Nat} (streak : Streak n target evaluations)
    (fewer : m ≤ n) : Streak m target evaluations :=
  ⟨fewer.trans streak.1,fun e among => streak.2 e (List.take_subset_take_left evaluations fewer among)⟩

theorem streak_tail
    (streak : Streak (n + 1) target (e :: evaluations)) : Streak n target evaluations := by
  refine ⟨Nat.le_of_succ_le_succ streak.1,?_⟩
  intro e' among
  refine streak.2 e' ?_
  exact List.mem_cons_of_mem e among

theorem agreeing_of_streak
    (streak : Streak n (some e.target) evaluations) (awake : e.suspended = false) :
    Agreeing (n + 1) e.target (e :: evaluations) := by
  refine ⟨Nat.succ_le_succ streak.1,?_⟩
  intro e' among
  rw [List.take_succ_cons,List.mem_cons] at among
  rcases among with rfl | among
  · exact ⟨awake,rfl⟩
  · obtain ⟨awake',target,_⟩ := streak.2 e' among
    exact ⟨awake',Option.some.inj target⟩

theorem streak_before_write {next : ℚ} {recent : List Verdict}
    (written : e.written = some next) (streak : Streak n target (recent ++ e :: evaluations)) :
    Streak n target recent := by
  have short : n ≤ recent.length := by
    by_contra long
    have among : e ∈ (recent ++ e :: evaluations).take n := by
      rw [List.take_append,List.mem_append]
      right
      obtain ⟨k,isK⟩ : ∃ k, n - recent.length = k + 1 := ⟨n - recent.length - 1,by omega⟩
      rw [isK]
      exact List.mem_cons_self
    obtain ⟨_,_,unwritten⟩ := streak.2 e among
    rw [written] at unwritten
    cases unwritten
  refine ⟨short,?_⟩
  intro e' among
  refine streak.2 e' ?_
  rw [List.take_append_of_le_length short]
  exact among

theorem target_range (p : Policy) : 8 ≤ p.target ∧ p.target ≤ 64 := by
  unfold Policy.target targetUpstreamBudget
  split_ifs
  · norm_num [minBudget]
  · exact ⟨le_min (by norm_num [maxBudget]) (le_max_left _ _),min_le_left _ _⟩

theorem budgetOf_range (text : NumberText) : 1 ≤ budgetOf text ∧ budgetOf text ≤ 64 := by
  unfold budgetOf normalizeDownloadConfigNumber
  split
  · exact ⟨le_min (by norm_num) (le_max_left _ _),min_le_left _ _⟩
  · norm_num

structure Moderate (budget target next : ℚ) : Prop where
  least : 8 ≤ next
  most : next ≤ 64
  near : |next - budget| ≤ 8
  between : budget ≤ next ∧ next ≤ target ∨ target ≤ next ∧ next ≤ budget

theorem maybeScaleUp_some {next : ℚ} (range : 1 ≤ p.currentBudget)
    (proposed : p.maybeScaleUp = some (next,reason)) :
    Moderate p.currentBudget p.target next ∧ p.currentBudget < next ∧ p.frozenReason.isSome = false ∧
      p.largeFileGate.any (fun gate => !gate.passed) = false ∧ upStableCycles ≤ p.pendingUpCycles := by
  unfold Policy.maybeScaleUp at proposed
  dsimp only at proposed
  split_ifs at proposed with frozen few gated same
  obtain ⟨rfl,_⟩ := Prod.mk.inj (Option.some.inj proposed)
  have target := target_range p
  have step : min p.target (p.currentBudget + stepMax) ≤ p.currentBudget + 8 := min_le_right _ _
  have goal : min p.target (p.currentBudget + stepMax) ≤ p.target := min_le_left _ _
  have up := lt_of_not_ge same
  refine ⟨⟨?_,goal.trans target.2,?_,.inl ⟨up.le,goal⟩⟩,up,by simpa using frozen,by simpa using gated,
    Nat.le_of_not_lt few⟩
  · exact le_min target.1 (by norm_num [stepMax]; linarith)
  · rw [abs_of_nonneg (by linarith)]
    linarith

theorem maybeScaleDown_some {next : ℚ} (range : p.currentBudget ≤ 64)
    (proposed : p.maybeScaleDown = some (next,reason)) :
    Moderate p.currentBudget p.target next ∧ next < p.currentBudget ∧ downStableCycles ≤ p.pendingDownCycles := by
  unfold Policy.maybeScaleDown at proposed
  dsimp only at proposed
  split_ifs at proposed with few same
  obtain ⟨rfl,_⟩ := Prod.mk.inj (Option.some.inj proposed)
  have step : p.currentBudget - 8 ≤ max minBudget (max p.target (p.currentBudget - stepMax)) :=
    (le_max_right _ _).trans (le_max_right _ _)
  have goal : p.target ≤ max minBudget (max p.target (p.currentBudget - stepMax)) :=
    (le_max_left _ _).trans (le_max_right _ _)
  have down := lt_of_not_ge same
  refine ⟨⟨le_max_left _ _,?_,?_,.inr ⟨goal,down.le⟩⟩,down,Nat.le_of_not_lt few⟩
  · linarith
  · rw [abs_of_nonpos (by linarith)]
    linarith

structure Permitted (e : Verdict) (next : ℚ) (earlier : List Verdict) : Prop where
  moderate : Moderate (budgetOf e.read) e.target next
  awake : e.suspended = false
  up : budgetOf e.read < next → e.frozen = false ∧ (∃ gate, e.gate = some gate ∧ gate.passed = true) ∧
    Streak 1 (some e.target) earlier
  down : next < budgetOf e.read → Streak 9 (some e.target) earlier

def Chronicle : List Verdict → Prop
  | [] => True
  | e :: earlier => (∀ next, e.written = some next → Permitted e next earlier) ∧ Chronicle earlier

theorem permitted_of_chronicle {earlier : List Verdict} {next : ℚ} (written : e.written = some next) :
    ∀ {later : List Verdict}, Chronicle (later ++ e :: earlier) → Permitted e next earlier := by
  intro later
  induction later with
  | nil => intro chronicle; exact chronicle.1 next written
  | cons _ _ ih => intro chronicle; exact ih chronicle.2

def Phase.informed : Phase → Bool
  | .counting _ | .gating | .deciding => true
  | _ => false

structure Inv (s : State) : Prop where
  chronicle : Chronicle s.history
  up : Streak s.policy.pendingUpCycles s.policy.lastTarget s.history
  down : Streak s.policy.pendingDownCycles s.policy.lastTarget s.history
  read : s.phase.informed = true → s.policy.currentBudget = budgetOf s.read
  gated : s.phase = .deciding → s.policy.activeBotIds ≠ [] → s.policy.largeFileGate.isSome = true
  writing : ∀ next reason, s.phase = .writing next reason →
    ∃ e earlier, s.history = e :: earlier ∧ Permitted e next earlier

theorem inv_initial : Inv initial where
  chronicle := trivial
  up := streak_zero _ _
  down := streak_zero _ _
  read isInformed := by cases isInformed
  gated isDeciding := by cases isDeciding
  writing _ _ isWriting := by cases isWriting

theorem inv_evaluate (inv : Inv s) : Inv s.evaluate := by
  unfold State.evaluate
  split
  · exact ⟨inv.chronicle,inv.up,inv.down,nofun,nofun,nofun⟩
  · exact inv

section
variable (chronicle : Chronicle s.history) (up : Streak s.policy.pendingUpCycles s.policy.lastTarget s.history)
  (down : Streak s.policy.pendingDownCycles s.policy.lastTarget s.history)
include chronicle up down

theorem inv_finish : Inv s.finish :=
  ⟨chronicle,up,down,nofun,nofun,nofun⟩

theorem inv_refresh (read : s.policy.currentBudget = budgetOf s.read) (accounts : List Account) (active : Bool) :
    Inv (s.refreshActiveBots accounts active) := by
  unfold State.refreshActiveBots
  split_ifs
  · exact ⟨chronicle,up,down,fun _ => read,nofun,nofun⟩
  · exact ⟨chronicle,up,down,fun _ => read,fun _ some => absurd rfl some,nofun⟩

end

theorem inv_freeze (inv : Inv s) (streamFailures now : Int) (accounts : List Account) :
    Inv (s.freeze streamFailures now accounts) := by
  unfold State.freeze Policy.evaluateFreezeReason Policy.sample
  split_ifs
  · exact { inv with }
  · exact { inv with }
  · exact { inv with }

theorem permitted_maybeScale {earlier : List Verdict} {next : ℚ}
    (budget : p.currentBudget = budgetOf e.read) (target : e.target = p.target) (awake : e.suspended = false)
    (frozen : e.frozen = p.frozenReason.isSome) (gate : e.gate = p.largeFileGate) (gated : p.largeFileGate.isSome = true)
    (up : Streak p.pendingUpCycles (some e.target) (e :: earlier))
    (down : Streak p.pendingDownCycles (some e.target) (e :: earlier))
    (proposed : p.maybeScale = some (next,reason)) : Permitted e next earlier := by
  have range := budgetOf_range e.read
  rw [← budget] at range
  unfold Policy.maybeScale at proposed
  split_ifs at proposed with below above
  · obtain ⟨moderate,isUp,warm,passed,enough⟩ := maybeScaleUp_some range.1 proposed
    refine ⟨budget ▸ target ▸ moderate,awake,?_,?_⟩
    · intro _
      refine ⟨frozen.trans warm,?_,streak_tail (streak_fewer up enough)⟩
      obtain ⟨found,isGate⟩ := Option.isSome_iff_exists.mp gated
      rw [isGate] at passed gate
      exact ⟨found,gate,by simpa using passed⟩
    · intro isDown
      rw [← budget] at isDown
      exact absurd isUp isDown.le.not_gt
  · obtain ⟨moderate,isDown,enough⟩ := maybeScaleDown_some range.2 proposed
    refine ⟨budget ▸ target ▸ moderate,awake,?_,fun _ => streak_tail (streak_fewer down enough)⟩
    intro isUp
    rw [← budget] at isUp
    exact absurd isDown isUp.le.not_gt

theorem suspension_none {active : Bool} (awake : p.suspension active = none) : p.activeBotIds ≠ [] := by
  intro empty
  unfold Policy.suspension at awake
  split_ifs at awake with _ _ some
  exact some (by rw [empty]; rfl)

theorem inv_decide (inv : Inv s) (deciding : s.phase = .deciding) (active : Bool) :
    Inv (s.decide active) := by
  have read := inv.read (by rw [deciding]; rfl)
  unfold State.decide
  dsimp only
  split
  · exact inv_finish ⟨nofun,inv.chronicle⟩ (streak_zero _ _) (streak_zero _ _)
  next awake =>
  have gated := inv.gated deciding (suspension_none awake)
  have isAwake : (s.policy.suspension active).isSome = false := by rw [awake]; rfl
  have up : Streak s.policy.countCycles.pendingUpCycles (some s.policy.target) (s.verdict active :: s.history) :=
    streak_next _ inv.up of_decide_eq_true isAwake rfl
  have down : Streak s.policy.countCycles.pendingDownCycles (some s.policy.target) (s.verdict active :: s.history) :=
    streak_next _ inv.down of_decide_eq_true isAwake rfl
  split
  · next next' reason proposed =>
    refine ⟨⟨nofun,inv.chronicle⟩,up,down,nofun,nofun,?_⟩
    rintro _ _ ⟨⟩
    exact ⟨_,_,rfl,permitted_maybeScale (p := s.policy.countCycles) read rfl isAwake rfl rfl gated up down proposed⟩
  · exact inv_finish ⟨nofun,inv.chronicle⟩ up down

theorem inv_store (inv : Inv s) {next : ℚ} (writing : s.phase = .writing next reason)
    (now : Int) : Inv (s.store next reason now) := by
  obtain ⟨e,earlier,latest,permitted⟩ := inv.writing next reason writing
  have chronicle := inv.chronicle
  rw [latest] at chronicle
  refine inv_finish ?_ (streak_zero _ _) (streak_zero _ _)
  rw [latest]
  refine ⟨?_,chronicle.2⟩
  rintro _ ⟨⟩
  exact { permitted with }

theorem expects_distributed {phase : Phase} {got : Option Distribution} (may : phase.expects (.distributed got) = true) :
    phase = .gating := by
  cases phase with
  | gating => rfl
  | _ => cases may

theorem expects_judged {phase : Phase} {streamFailures now : Int} {accounts : List Account} {active : Bool}
    (may : phase.expects (.judged streamFailures now accounts active) = true) : phase = .deciding := by
  cases phase with
  | deciding => rfl
  | _ => cases may

theorem inv_step (s : State) (event : Event) (inv : Inv s) (may : allowed s event) : Inv (step s event) := by
  cases event with
  | timer => exact inv_evaluate inv
  | changed key =>
    unfold step State.onConfigChanged
    dsimp only
    split_ifs
    · exact inv_evaluate inv
    · exact inv
  | autoRead got => exact ⟨inv.chronicle,inv.up,inv.down,nofun,nofun,nofun⟩
  | budgetRead got accounts active =>
    apply inv_refresh
    · exact inv.chronicle
    · exact inv.up
    · exact inv.down
    · rfl
  | counted got =>
    cases got with
    | none => exact inv_finish inv.chronicle inv.up inv.down
    | some readyCounts =>
      unfold step
      dsimp only
      split
      · next eligible counting =>
        exact ⟨inv.chronicle,inv.up,inv.down,fun _ => inv.read (by rw [counting]; rfl),nofun,nofun⟩
      · exact inv
  | distributed got =>
    have gating := expects_distributed may
    exact ⟨inv.chronicle,inv.up,inv.down,fun _ => inv.read (by rw [gating]; rfl),fun _ _ => rfl,nofun⟩
  | judged streamFailures now accounts active =>
    exact inv_decide (inv_freeze inv streamFailures now accounts) (expects_judged may) active
  | stored ok now =>
    cases ok with
    | false => exact inv_finish inv.chronicle inv.up inv.down
    | true =>
      unfold step
      dsimp only
      split
      · next next reason writing => exact inv_store inv writing now
      · exact inv

/-- Every budget the policy has written, with `v` for the budget the evaluation read. -/
theorem budget_writes_sound {s : State} (reach : Reached s) :
    (∀ later e earlier next, s.history = later ++ e :: earlier → e.written = some next →
      let v := budgetOf e.read
      8 ≤ next ∧ next ≤ 64 ∧ |next - v| ≤ 8 ∧ (v ≤ next ∧ next ≤ e.target ∨ e.target ≤ next ∧ next ≤ v) ∧
        e.suspended = false ∧
        (v < next → e.frozen = false ∧ (∃ gate, e.gate = some gate ∧ gate.passed = true) ∧
          Agreeing upStableCycles e.target (e :: earlier)) ∧
        (next < v → Agreeing downStableCycles e.target (e :: earlier))) ∧
    ∀ later e recent e' earlier next next', s.history = later ++ e :: (recent ++ e' :: earlier) →
      e.written = some next → budgetOf e.read < next → e'.written = some next' → budgetOf e'.read < next' →
        Agreeing upStableCycles e.target (e :: recent) := by
  have inv : Inv s := reachable_invariant inv_initial inv_step reach
  constructor
  · intro later e earlier next found written v
    have permitted := permitted_of_chronicle written (found ▸ inv.chronicle)
    refine ⟨permitted.moderate.least,permitted.moderate.most,permitted.moderate.near,permitted.moderate.between,
      permitted.awake,?_,?_⟩
    · intro isUp
      obtain ⟨warm,passed,streak⟩ := permitted.up isUp
      exact ⟨warm,passed,agreeing_of_streak streak permitted.awake⟩
    · intro isDown
      exact agreeing_of_streak (permitted.down isDown) permitted.awake
  · intro later e recent e' earlier next next' found written isUp written' _
    have permitted := permitted_of_chronicle written (found ▸ inv.chronicle)
    obtain ⟨_,_,streak⟩ := permitted.up isUp
    exact agreeing_of_streak (streak_before_write written' streak) permitted.awake

def evaluation (budget : ℚ) (now : Int) (writes : Bool) : List Event :=
  let accounts := ["a","b","c","d"].map (fun id => ⟨id,true,true,false,0,none⟩)
  let readyCounts := ["a","b","c","d"].foldl (fun m id => m.set id 1) .empty
  [Event.timer,.autoRead none,.budgetRead (some (some (.finite budget))) accounts true,.counted (some readyCounts),
    .distributed (some ⟨0,false,[],0⟩),.judged 0 now accounts true] ++
    if writes then [Event.changed maxConcurrentUpstreamsKey,.stored true now] else []

/-- From 8 to 24 in four evaluations. -/
theorem budget_writes_sound_rise :
    let s := (evaluation 8 0 false ++ evaluation 8 60000 true ++ evaluation 16 120000 false ++
      evaluation 16 180000 true).foldl step initial
    s.history.map Verdict.written = [some 24,none,some 16,none] ∧
      ∀ e earlier, s.history = e :: earlier → Agreeing upStableCycles e.target (e :: earlier) := by
  intro s
  have legal : Legal step allowed initial (evaluation 8 0 false ++ evaluation 8 60000 true ++
    evaluation 16 120000 false ++ evaluation 16 180000 true) := by decide +kernel
  have written : s.history.map Verdict.written = [some 24,none,some 16,none] := by decide +kernel
  have read : s.history.map (fun e => budgetOf e.read) = [16,16,8,8] := by decide +kernel
  refine ⟨written,?_⟩
  intro e earlier found
  rw [found] at written read
  obtain ⟨isWritten,_⟩ := List.cons.inj written
  obtain ⟨isRead,_⟩ := List.cons.inj read
  have sound := (budget_writes_sound (reachable_run .start _ legal)).1 [] e earlier 24 found isWritten
  exact (sound.2.2.2.2.2.1 (lt_of_eq_of_lt isRead (by norm_num))).2.2

end Tgtc.CapacityPolicy
