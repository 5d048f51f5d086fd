import Mathlib.Order.Nat
import Tgtc.RateLimits
import Tgtc.Runs

/-!
Guessing at the password of one link. Before a password is compared the attempts are counted, by token and by address,
and a third row is probed which is locked when there have been too many failures; the probe counts in that row too.
-/
namespace Tgtc.PasswordLock
open Runs Maps RateLimits

def PRECHECK_WINDOW : Nat := 60 * 1000

def PRECHECK_MAX_ATTEMPTS : Nat := 10

def PRECHECK_LOCK_DURATION : Nat := 60 * 1000

def TOKEN_FAIL_WINDOW : Nat := 3600 * 1000

def TOKEN_FAIL_LOCK_THRESHOLD : Nat := PRECHECK_MAX_ATTEMPTS * 3

def TOKEN_FAIL_LOCK_DURATION_MS : Nat := 24 * 3600 * 1000

/-- `Number.MAX_SAFE_INTEGER` -/
def MAX_SAFE_INTEGER : Nat := 9007199254740991

inductive Key where
  | token
  | ip (ip : String)
  | tokenLock
  | tokenFail
deriving DecidableEq

/-- How far a call of `verifyPassword` is. From the precheck on it has the time at which its probe was let through. -/
inductive Stage where
  /-- with the checks that are under way, and whether those that are done were passed -/
  | prechecking (pending : List Key) (allowed : Bool) (probed : Option Nat)
  | looking (probed : Nat)
  | comparing (probed : Nat)
  /-- `recordFailedAttempt`, which counts for the address in other rows -/
  | recordingIp (probed : Nat)
  | recordingToken (probed asked : Nat)
  | locking (probed asked count : Nat)
  | resetting (count : Nat)
  | closed

structure Call where
  ip : Option String
  started : Nat
  stage : Stage

structure Compared where
  call : Nat
  started : Nat
  probed : Nat

/-- A failure that has been recorded and has come to the threshold, with the number of calls before it was done. -/
structure Finished where
  count : Nat
  started : Nat
  finished : Nat
  calls : Nat

structure State where
  rows : OrderedMap Key RateLimit
  calls : List Call
  compared : List Compared
  finished : List Finished
  now : Nat

def State.start : State := ⟨.empty,[],[],[],0⟩

/-- The keys that `checkPasswordAttemptAllowed` checks. -/
def keys (ip : Option String) : List Key := .token :: (ip.map .ip).toList ++ [.tokenLock]

def maxAttempts (key : Key) : Nat := if key = .tokenLock then MAX_SAFE_INTEGER else PRECHECK_MAX_ATTEMPTS

def prechecked : List Key → Bool → Option Nat → Stage
  | [], true, some probed => .looking probed
  | [], _, _ => .closed
  | pending, allowed, probed => .prechecking pending allowed probed

def State.go (s : State) (n : Nat) (c : Call) (rows : OrderedMap Key RateLimit) (stage : Stage) : State :=
  { s with rows, calls := s.calls.set n { c with stage } }

def State.check (s : State) (n : Nat) (c : Call) (key : Key) (pending : List Key) (allowed : Bool) (probed : Option Nat) : State :=
  match checkAndIncrement c.started s.now s.rows key (maxAttempts key) PRECHECK_LOCK_DURATION PRECHECK_WINDOW with
  | none => s.go n c s.rows (prechecked (pending.erase key) false probed)
  | some (rows,passed) =>
    s.go n c rows (prechecked (pending.erase key) (allowed && passed) (if key = .tokenLock ∧ passed then some s.now else probed))

/-- The next step of a call after the precheck; `good` says that the link is usable and the address
free, then that the password is right. -/
def State.run (s : State) (n : Nat) (c : Call) (good : Bool) : State := match c.stage with
  | .looking probed => s.go n c s.rows (if good then .comparing probed else .closed)
  | .comparing probed => { s.go n c s.rows (if good then .closed else if c.ip.isSome then .recordingIp probed else .recordingToken probed s.now) with
      compared := s.compared ++ [⟨n,c.started,probed⟩] }
  | .recordingIp probed => s.go n c s.rows (.recordingToken probed s.now)
  | .recordingToken probed asked => match incrementCounter asked s.now s.rows .tokenFail 1 TOKEN_FAIL_WINDOW with
    | none => s.go n c s.rows .closed
    | some (rows,count,_) => s.go n c rows (if TOKEN_FAIL_LOCK_THRESHOLD ≤ count then .locking probed s.now count else .closed)
  | .locking _ asked count =>
    match checkAndIncrement asked s.now s.rows .tokenLock 1 TOKEN_FAIL_LOCK_DURATION_MS TOKEN_FAIL_WINDOW with
    | none => s.go n c s.rows .closed
    | some (rows,_) => s.go n c rows (.resetting count)
  | .resetting count => { s.go n c (reset s.rows .tokenFail) .closed with
      finished := s.finished ++ [⟨count,c.started,s.now,s.calls.length⟩] }
  | _ => s

inductive Label where
  | tick (ms : Nat)
  | call (ip : Option String)
  | check (n : Nat) (key : Key)
  | run (n : Nat) (good : Bool)
  | fail (n : Nat)
  | cleanup (ago : Nat)

def step (s : State) : Label → State
  | .tick ms => { s with now := s.now + ms }
  | .call ip => { s with calls := s.calls ++ [⟨ip,s.now,.prechecking (keys ip) true none⟩] }
  | .check n key => match s.calls[n]? with
    | some c => match c.stage with
      | .prechecking pending allowed probed => if key ∈ pending then s.check n c key pending allowed probed else s
      | _ => s
    | none => s
  | .run n good => match s.calls[n]? with
    | some c => s.run n c good
    | none => s
  | .fail n => match s.calls[n]? with
    | some c => s.go n c s.rows .closed
    | none => s
  | .cleanup ago => { s with rows := cleanupExpired (s.now - ago) s.rows }

def Brief (s : State) : Label → Prop
  | .check n _ | .run n _ => ∀ c ∈ s.calls[n]?, 2 * (s.now - c.started) < TOKEN_FAIL_WINDOW
  | _ => True

instance (s : State) : ∀ l, Decidable (Brief s l) := fun l => by
  cases l <;> unfold Brief <;> infer_instance

def lockRow (s : State) : Option RateLimit := s.rows.get .tokenLock

def Stage.probed : Stage → Option Nat
  | .prechecking _ _ probed => probed
  | .looking probed | .comparing probed | .recordingIp probed | .recordingToken probed _ | .locking probed _ _ => some probed
  | _ => none

/-- The lock of a failure is of the time of its call, and nobody who comes after it compares a password while the lock lasts. -/
def Bounded (s : State) : Prop := ∀ f ∈ s.finished, ∃ locked, f.started ≤ locked ∧ locked ≤ f.finished ∧
  ∀ c ∈ s.compared, f.calls ≤ c.call → locked + TOKEN_FAIL_LOCK_DURATION_MS < c.probed

section
variable {s : State} {n : Nat} {c : Call} {lock lock' : Option RateLimit} {now started probed locked asked : Nat} {row : RateLimit} {stage : Stage}

def Standing (lock : Option RateLimit) (now locked : Nat) : Prop := now ≤ locked + TOKEN_FAIL_LOCK_DURATION_MS →
  ∃ row ∈ lock, row.lockedUntil = some (locked + TOKEN_FAIL_LOCK_DURATION_MS)

/-- Who has started then, and has been let through, can still lock the row, or somebody has locked it since. -/
def Covered (lock : Option RateLimit) (started probed : Nat) : Prop := ∀ row ∈ lock,
  2 * started ≤ 2 * row.firstAttemptAt + TOKEN_FAIL_WINDOW ∧
    ∀ till ∈ row.lockedUntil, till < probed ∨ started + TOKEN_FAIL_LOCK_DURATION_MS ≤ till

def Short (lock : Option RateLimit) (now : Nat) : Prop := ∀ row ∈ lock, ∀ till ∈ row.lockedUntil, till ≤ now + TOKEN_FAIL_LOCK_DURATION_MS

structure Keeps (now : Nat) (lock lock' : Option RateLimit) : Prop where
  standing : ∀ locked, Standing lock now locked → Standing lock' now locked
  covered : ∀ started probed, started ≤ now → Covered lock started probed → Covered lock' started probed
  short : Short lock now → Short lock' now

theorem keeps_refl : Keeps now lock lock := ⟨fun _ => id,fun _ _ _ => id,id⟩

theorem locked_of_standing (standing : Standing lock now locked) (lasts : now ≤ locked + TOKEN_FAIL_LOCK_DURATION_MS) :
    ∃ row, lock = some row ∧ row.locked now = true := by
  obtain ⟨row,there,till⟩ := standing lasts
  exact ⟨row,there,by simpa [RateLimit.locked,till] using lasts⟩

theorem keeps_unlocked (unlocked : ∀ row, lock = some row → row.locked now = false)
    (covered : ∀ started probed, started ≤ now → Covered lock started probed → Covered lock' started probed)
    (short : Short lock now → Short lock' now) : Keeps now lock lock' := by
  refine ⟨fun locked standing lasts => ?_,covered,short⟩
  obtain ⟨row,there,held⟩ := locked_of_standing standing lasts
  rw [unlocked row there] at held
  cases held

theorem till_of_unlocked (unlocked : row.locked now = false) : ∀ till ∈ row.lockedUntil, till < now := by
  intro till found
  have found : row.lockedUntil = some till := found
  simpa [RateLimit.locked,found] using unlocked

theorem covered_new {till : Option Nat} (brief : 2 * (now - asked) < TOKEN_FAIL_WINDOW) (le : started ≤ now)
    (lasts : ∀ t ∈ till, now + TOKEN_FAIL_LOCK_DURATION_MS ≤ t) : Covered (some ⟨1,asked,till,now⟩) started probed := by
  intro row same
  obtain rfl := Option.some.inj same
  refine ⟨by dsimp only; omega,fun t found => .inr ?_⟩
  have := lasts t found
  omega

theorem short_of_till {first count : Nat} {till : Option Nat} (short : ∀ t ∈ till, t ≤ now + TOKEN_FAIL_LOCK_DURATION_MS) :
    Short (some ⟨count,first,till,now⟩) now := by
  intro row same
  obtain rfl := Option.some.inj same
  exact short

theorem probe_keeps {rows rows' : OrderedMap Key RateLimit} {passed : Bool} (before : started ≤ now)
    (brief : 2 * (now - started) < TOKEN_FAIL_WINDOW)
    (checked : checkAndIncrement started now rows .tokenLock MAX_SAFE_INTEGER PRECHECK_LOCK_DURATION PRECHECK_WINDOW = some (rows',passed)) :
    Keeps now (rows.get .tokenLock) (rows'.get .tokenLock) ∧ (passed = true → Covered (rows'.get .tokenLock) started now ∧
      ∀ locked, Standing (rows.get .tokenLock) now locked → locked + TOKEN_FAIL_LOCK_DURATION_MS < now) := by
  by_cases unlocked : ∀ row, rows.get .tokenLock = some row → row.locked now = false
  · have ended : ∀ locked, Standing (rows.get .tokenLock) now locked → locked + TOKEN_FAIL_LOCK_DURATION_MS < now := by
      intro locked standing
      by_contra lasts
      obtain ⟨row,there,held⟩ := locked_of_standing standing (by omega)
      rw [unlocked row there] at held
      cases held
    obtain ⟨row',there,_,written⟩ := check_unlocked unlocked checked
    rw [there]
    have fresh : Keeps now (rows.get .tokenLock) (some ⟨1,started,none,now⟩) ∧ (passed = true → Covered (some ⟨1,started,none,now⟩) started now ∧
        ∀ locked, Standing (rows.get .tokenLock) now locked → locked + TOKEN_FAIL_LOCK_DURATION_MS < now) :=
      ⟨keeps_unlocked unlocked (fun _ _ le _ => covered_new brief le (by intros; contradiction)) fun _ => short_of_till (by intros; contradiction),
        fun _ => ⟨covered_new brief before (by intros; contradiction),ended⟩⟩
    rcases written with ⟨absent,rfl⟩ | ⟨row,found,fits,rewritten⟩
    · exact fresh
    cases rewritten with
    | restarts _ => exact fresh
    | locks _ many =>
      have : INT_MAX < MAX_SAFE_INTEGER := by decide
      dsimp only at fits
      omega
    | counts within _ =>
      have window : 2 * PRECHECK_WINDOW ≤ TOKEN_FAIL_WINDOW := by decide
      refine ⟨keeps_unlocked unlocked (fun started' probed _ covered => ?_) fun short => short_of_till (short row found),fun _ => ⟨?_,ended⟩⟩
      · intro row' same
        obtain rfl := Option.some.inj same
        exact covered row found
      · intro row' same
        obtain rfl := Option.some.inj same
        exact ⟨by dsimp only; omega,fun till held => .inl (till_of_unlocked (unlocked row found) till held)⟩
  · simp only [not_forall] at unlocked
    obtain ⟨row,there,held⟩ := unlocked
    obtain ⟨rfl,rfl⟩ := check_locked there (by simpa using held) checked
    exact ⟨keeps_refl,(by intros; contradiction)⟩

theorem lock_locks {rows rows' : OrderedMap Key RateLimit} {passed : Bool} (since : started ≤ asked) (before : asked ≤ now)
    (probe : probed ≤ now) (brief : 2 * (now - started) < TOKEN_FAIL_WINDOW) (covered : Covered (rows.get .tokenLock) started probed)
    (short : Short (rows.get .tokenLock) now)
    (checked : checkAndIncrement asked now rows .tokenLock 1 TOKEN_FAIL_LOCK_DURATION_MS TOKEN_FAIL_WINDOW = some (rows',passed)) :
    Keeps now (rows.get .tokenLock) (rows'.get .tokenLock) ∧
      ∃ locked, started ≤ locked ∧ locked ≤ now ∧ Standing (rows'.get .tokenLock) now locked := by
  by_cases unlocked : ∀ row, rows.get .tokenLock = some row → row.locked now = false
  · obtain ⟨row',there,_,written⟩ := check_unlocked unlocked checked
    rw [there]
    rcases written with ⟨absent,rfl⟩ | ⟨row,found,_,rewritten⟩
    · refine ⟨keeps_unlocked unlocked (fun _ _ le _ => covered_new (by omega) le ?_) fun _ => short_of_till ?_,
        now,by omega,le_refl _,fun _ => ⟨_,rfl,rfl⟩⟩
      · rintro t ⟨⟩
        exact le_refl _
      · rintro t ⟨⟩
        exact le_refl _
    · cases rewritten with
      | restarts ended =>
        -- the row is as old as the window, but the call has found it younger
        have := (covered row found).1
        omega
      | locks within _ =>
        refine ⟨keeps_unlocked unlocked (fun started' probed' le covered' => ?_) fun _ => short_of_till ?_,
          now,by omega,le_refl _,fun _ => ⟨_,rfl,rfl⟩⟩
        · intro row' same
          obtain rfl := Option.some.inj same
          refine ⟨(covered' row found).1,?_⟩
          rintro t ⟨⟩
          exact .inr (Nat.add_le_add_right le _)
        · rintro t ⟨⟩
          exact le_refl _
      | counts _ few => omega
  · simp only [not_forall] at unlocked
    obtain ⟨row,there,held⟩ := unlocked
    have held : row.locked now = true := by simpa using held
    obtain ⟨rfl,rfl⟩ := check_locked there held checked
    obtain ⟨till,found,lasts⟩ := (Option.any_eq_true _ _).mp held
    have lasts : now ≤ till := by simpa using lasts
    have bound := short row there till found
    rcases (covered row there).2 till found with past | late
    · omega
    · refine ⟨keeps_refl,till - TOKEN_FAIL_LOCK_DURATION_MS,by omega,by omega,fun _ => ⟨row,there,?_⟩⟩
      rw [Nat.sub_add_cancel (by omega)]
      exact found

theorem cleanup_keeps {rows : OrderedMap Key RateLimit} (before : asked ≤ now) :
    Keeps now (rows.get .tokenLock) ((cleanupExpired asked rows).get .tokenLock) := by
  rw [get_cleanup]
  refine ⟨fun locked standing lasts => ?_,fun started probed _ covered row there => covered row (Option.mem_filter_iff.mp there).1,
    fun short row there => short row (Option.mem_filter_iff.mp there).1⟩
  obtain ⟨row,there,till⟩ := standing lasts
  refine ⟨row,Option.mem_filter_iff.mpr ⟨there,?_⟩,till⟩
  simp only [RateLimit.stale,till,Bool.not_eq_true',decide_eq_false_iff_not]
  omega

def Stage.Knows (lock : Option RateLimit) (now started : Nat) : Stage → Prop
  | .recordingToken _ asked | .locking _ asked _ => started ≤ asked ∧ asked ≤ now
  | .resetting _ => ∃ locked, started ≤ locked ∧ locked ≤ now ∧ Standing lock now locked
  | _ => True

def Passed (lock : Option RateLimit) (now started : Nat) (stage : Stage) : Prop :=
  ∀ probed ∈ Stage.probed stage, probed ≤ now ∧ Covered lock started probed

structure Lasting (s : State) (f : Finished) (locked : Nat) : Prop where
  since : f.started ≤ locked
  before : locked ≤ f.finished
  known : f.calls ≤ s.calls.length
  standing : Standing (lockRow s) s.now locked
  compared : ∀ c ∈ s.compared, f.calls ≤ c.call → locked + TOKEN_FAIL_LOCK_DURATION_MS < c.probed
  later : ∀ (n : Nat) (c : Call), f.calls ≤ n → s.calls[n]? = some c → ∀ probed ∈ Stage.probed c.stage,
    locked + TOKEN_FAIL_LOCK_DURATION_MS < probed

structure Inv (s : State) : Prop where
  short : Short (lockRow s) s.now
  calls : ∀ (n : Nat) (c : Call), s.calls[n]? = some c →
    c.started ≤ s.now ∧ Stage.Knows (lockRow s) s.now c.started c.stage ∧ Passed (lockRow s) s.now c.started c.stage
  compared : ∀ c ∈ s.compared, c.call < s.calls.length
  finished : ∀ f ∈ s.finished, ∃ locked, Lasting s f locked

theorem inv_start : Inv .start where
  short _ there := nomatch there
  calls _ _ there := nomatch there
  compared _ member := nomatch member
  finished _ member := nomatch member

theorem knows_keeps {later : Nat} (le : now ≤ later) (keeps : Keeps now lock lock') (knows : Stage.Knows lock now started stage) :
    Stage.Knows lock' later started stage := by
  cases stage with
  | recordingToken probed asked | locking probed asked count => exact ⟨knows.1,le_trans knows.2 le⟩
  | resetting count =>
    obtain ⟨locked,since,before,standing⟩ := knows
    exact ⟨locked,since,le_trans before le,fun lasts => keeps.standing locked standing (le_trans le lasts)⟩
  | _ => trivial

theorem passed_keeps {later : Nat} (le : now ≤ later) (keeps : Keeps now lock lock') (before : started ≤ now)
    (passed : Passed lock now started stage) : Passed lock' later started stage := fun probed found =>
  ⟨le_trans (passed probed found).1 le,keeps.covered started probed before (passed probed found).2⟩

/-- A call that is let through now has not been before the end of a lock; otherwise it has been let through before. -/
def Follows (s : State) (stage stage' : Stage) : Prop := ∀ probed ∈ Stage.probed stage', probed ∈ Stage.probed stage ∨
  probed = s.now ∧ ∀ locked, Standing (lockRow s) s.now locked → locked + TOKEN_FAIL_LOCK_DURATION_MS < s.now

theorem lasting_go {rows : OrderedMap Key RateLimit} {f : Finished} (lasting : Lasting s f locked) (there : s.calls[n]? = some c)
    (keeps : Keeps s.now (lockRow s) (rows.get .tokenLock)) (follows : Follows s c.stage stage) : Lasting (s.go n c rows stage) f locked := by
  obtain ⟨since,before,known,standing,compared,later⟩ := lasting
  refine ⟨since,before,by simpa [State.go] using known,keeps.standing locked standing,compared,fun m c' le found probed let_ => ?_⟩
  rcases at_of_set found with ⟨rfl,rfl⟩ | ⟨_,old⟩
  · rcases follows probed let_ with old | ⟨rfl,ended⟩
    · exact later m c le there probed old
    · exact ended locked standing
  · exact later m c' le old probed let_

theorem inv_go {rows : OrderedMap Key RateLimit} (inv : Inv s) (there : s.calls[n]? = some c) (keeps : Keeps s.now (lockRow s) (rows.get .tokenLock))
    (knows : Stage.Knows (rows.get .tokenLock) s.now c.started stage) (passed : Passed (rows.get .tokenLock) s.now c.started stage)
    (follows : Follows s c.stage stage) : Inv (s.go n c rows stage) := by
  refine ⟨keeps.short inv.short,fun m c' found => ?_,by simpa [State.go] using inv.compared,fun f member => ?_⟩
  · rcases at_of_set found with ⟨rfl,rfl⟩ | ⟨_,old⟩
    · exact ⟨(inv.calls m c there).1,knows,passed⟩
    · obtain ⟨before,knew,let_⟩ := inv.calls m c' old
      exact ⟨before,knows_keeps (le_refl _) keeps knew,passed_keeps (le_refl _) keeps before let_⟩
  · obtain ⟨locked,lasting⟩ := inv.finished f member
    exact ⟨locked,lasting_go lasting there keeps follows⟩

theorem knows_prechecked {pending : List Key} {allowed : Bool} {probed : Option Nat} :
    Stage.Knows lock now started (prechecked pending allowed probed) := by
  unfold prechecked
  split <;> trivial

theorem probed_prechecked {pending : List Key} {allowed : Bool} {probed : Option Nat} :
    ∀ p ∈ Stage.probed (prechecked pending allowed probed), p ∈ probed := by
  unfold prechecked
  split
  · exact fun _ => id
  · exact nofun
  · exact fun _ => id

theorem inv_check {key : Key} {pending : List Key} {allowed : Bool} {probed : Option Nat} (inv : Inv s) (there : s.calls[n]? = some c)
    (stage : c.stage = .prechecking pending allowed probed) (brief : 2 * (s.now - c.started) < TOKEN_FAIL_WINDOW) :
    Inv (s.check n c key pending allowed probed) := by
  obtain ⟨before,_,let_⟩ := inv.calls n c there
  rw [stage] at let_
  have same : ∀ p ∈ probed, p ∈ Stage.probed c.stage := fun p found => by rw [stage]; exact found
  unfold State.check
  split
  · refine inv_go inv there keeps_refl knows_prechecked (fun p found => ?_) fun p found => .inl (same p (probed_prechecked p found))
    exact let_ p (probed_prechecked p found)
  next rows passed checked =>
  by_cases probe : key = .tokenLock
  · subst probe
    obtain ⟨keeps,open_⟩ := probe_keeps before brief checked
    cases passed with
    | false =>
      refine inv_go inv there keeps knows_prechecked (fun p found => ?_) fun p found => .inl (same p ?_)
      · have found := probed_prechecked p found
        exact ⟨(let_ p found).1,keeps.covered _ _ before (let_ p found).2⟩
      · simpa using probed_prechecked p found
    | true =>
      obtain ⟨covers,ended⟩ := open_ rfl
      refine inv_go inv there keeps knows_prechecked (fun p found => ?_) fun p found => .inr ⟨?_,ended⟩
      · have found := probed_prechecked p found
        simp only [and_self,if_true,Option.mem_some_iff] at found
        subst found
        exact ⟨le_refl _,covers⟩
      · simpa [eq_comm] using probed_prechecked p found
  · have lock : rows.get .tokenLock = s.rows.get .tokenLock := check_other (Ne.symm probe) checked
    have keeps : Keeps s.now (lockRow s) (rows.get .tokenLock) := lock ▸ keeps_refl
    refine inv_go inv there keeps knows_prechecked (fun p found => ?_) fun p found => .inl (same p ?_)
    · have found := probed_prechecked p found
      simp only [probe] at found
      exact ⟨(let_ p found).1,keeps.covered _ _ before (let_ p found).2⟩
    · simpa [probe] using probed_prechecked p found

theorem inv_on {rows : OrderedMap Key RateLimit} {probed : Nat} (stage : Stage) (inv : Inv s) (there : s.calls[n]? = some c) (known : Stage.probed c.stage = some probed)
    (keeps : Keeps s.now (lockRow s) (rows.get .tokenLock)) (knows : Stage.Knows (rows.get .tokenLock) s.now c.started stage)
    (goes : ∀ p ∈ Stage.probed stage, p = probed) : Inv (s.go n c rows stage) ∧ Follows s c.stage stage := by
  obtain ⟨before,_,passed⟩ := inv.calls n c there
  have follows : Follows s c.stage stage := fun p found => .inl (goes p found ▸ known)
  refine ⟨inv_go inv there keeps knows (fun p found => ?_) follows,follows⟩
  obtain ⟨le,covers⟩ := passed p (goes p found ▸ known)
  exact ⟨le,keeps.covered _ _ before covers⟩

section
variable (inv : Inv s) (there : s.calls[n]? = some c)
include inv there

theorem inv_closed {rows : OrderedMap Key RateLimit} (keeps : Keeps s.now (lockRow s) (rows.get .tokenLock)) :
    Inv (s.go n c rows .closed) := inv_go inv there keeps trivial nofun nofun

theorem inv_compare {good : Bool} (known : c.stage = .comparing probed) : Inv (s.run n c good) := by
  have before := (inv.calls n c there).1
  simp only [State.run,known]
  generalize goes : (if good then Stage.closed else if c.ip.isSome then .recordingIp probed else .recordingToken probed s.now) = next
  have result : Stage.Knows (lockRow s) s.now c.started next ∧ ∀ p ∈ Stage.probed next, p = probed := by
    subst goes
    split
    · exact ⟨trivial,nofun⟩
    · split
      · exact ⟨trivial,by simp [Stage.probed]⟩
      · exact ⟨⟨before,le_refl _⟩,by simp [Stage.probed]⟩
  obtain ⟨after,follows⟩ := inv_on next inv there (by rw [known]; rfl) keeps_refl result.1 result.2
  refine ⟨after.short,after.calls,fun c' member => ?_,fun f member => ?_⟩
  · rcases List.mem_append.mp member with old | new
    · exact after.compared c' old
    · rw [List.mem_singleton.mp new]
      simpa [State.go] using (at_lt there)
  · obtain ⟨locked,lasting⟩ := inv.finished f member
    obtain ⟨since,before,known',standing,compared,later⟩ := lasting_go lasting there keeps_refl follows
    refine ⟨locked,since,before,known',standing,fun c' member le => ?_,later⟩
    rcases List.mem_append.mp member with old | new
    · exact compared c' old le
    · rw [List.mem_singleton.mp new] at le ⊢
      exact lasting.later n c le there probed (by rw [known]; rfl)

theorem inv_reset {count : Nat} {good : Bool} (known : c.stage = .resetting count) : Inv (s.run n c good) := by
  simp only [State.run,known]
  have lock : (reset s.rows .tokenFail).get .tokenLock = s.rows.get .tokenLock := get_delete_other _ nofun
  have after : Inv (s.go n c (reset s.rows .tokenFail) .closed) := inv_closed inv there (lock.symm ▸ keeps_refl)
  refine ⟨after.short,after.calls,after.compared,fun f member => ?_⟩
  rcases List.mem_append.mp member with old | new
  · obtain ⟨locked,lasting⟩ := after.finished f old
    exact ⟨locked,lasting.since,lasting.before,lasting.known,lasting.standing,lasting.compared,lasting.later⟩
  obtain ⟨before,knows,_⟩ := inv.calls n c there
  rw [known] at knows
  obtain ⟨locked,since,past,standing⟩ := knows
  rw [List.mem_singleton.mp new]
  refine ⟨locked,since,past,by simp [State.go],?_,fun c' member le => ?_,fun m c' le found => ?_⟩
  · show Standing ((reset s.rows .tokenFail).get .tokenLock) s.now locked
    rw [lock]
    exact standing
  · exact absurd (inv.compared c' member) (not_lt.mpr le)
  · have bound := at_lt found
    simp only [State.go,List.length_set] at bound
    exact absurd bound (not_lt.mpr le)

theorem inv_run {good : Bool} (brief : 2 * (s.now - c.started) < TOKEN_FAIL_WINDOW) : Inv (s.run n c good) := by
  obtain ⟨before,knows,passed⟩ := inv.calls n c there
  match stage : c.stage with
  | .comparing probed => exact inv_compare inv there stage
  | .resetting count => exact inv_reset inv there stage
  | .prechecking _ _ _ | .closed => simpa only [State.run,stage] using inv
  | .looking probed =>
    simp only [State.run,stage]
    cases good with
    | true => exact (inv_on (.comparing probed) inv there (by rw [stage]; rfl) keeps_refl trivial (by simp [Stage.probed])).1
    | false => exact inv_closed inv there keeps_refl
  | .recordingIp probed =>
    simp only [State.run,stage]
    exact (inv_on (.recordingToken probed s.now) inv there (by rw [stage]; rfl) keeps_refl ⟨before,le_refl _⟩ (by simp [Stage.probed])).1
  | .recordingToken probed asked =>
    simp only [State.run,stage]
    split
    · exact inv_closed inv there keeps_refl
    next rows count _ incremented =>
    have lock : rows.get .tokenLock = s.rows.get .tokenLock := increment_other (by decide) incremented
    have keeps : Keeps s.now (lockRow s) (rows.get .tokenLock) := lock.symm ▸ keeps_refl
    split
    · exact (inv_on (.locking probed s.now count) inv there (by rw [stage]; rfl) keeps ⟨before,le_refl _⟩ (by simp [Stage.probed])).1
    · exact inv_closed inv there keeps
  | .locking probed asked count =>
    rw [stage] at knows passed
    obtain ⟨le,covers⟩ := passed probed rfl
    simp only [State.run,stage]
    split
    · exact inv_closed inv there keeps_refl
    · next rows _ checked =>
      obtain ⟨keeps,locks⟩ := lock_locks knows.1 knows.2 le brief covers inv.short checked
      exact inv_go inv there keeps locks nofun nofun

end

theorem inv_step (inv : Inv s) (l : Label) (brief : Brief s l) : Inv (step s l) := by
  cases l with
  | tick ms =>
    have le : s.now ≤ s.now + ms := Nat.le_add_right _ _
    refine ⟨fun row there till found => le_trans (inv.short row there till found) (by dsimp only [step]; omega),fun m c found => ?_,inv.compared,fun f member => ?_⟩
    · obtain ⟨before,knows,passed⟩ := inv.calls m c found
      exact ⟨le_trans before le,knows_keeps le keeps_refl knows,passed_keeps le keeps_refl before passed⟩
    · obtain ⟨locked,lasting⟩ := inv.finished f member
      exact ⟨locked,lasting.since,lasting.before,lasting.known,fun lasts => lasting.standing (le_trans le lasts),lasting.compared,lasting.later⟩
  | call ip =>
    refine ⟨inv.short,fun m c found => ?_,fun c member => ?_,fun f member => ?_⟩
    · rcases at_of_append found with old | ⟨_,rfl⟩
      · exact inv.calls m c old
      · exact ⟨le_refl _,trivial,nofun⟩
    · simpa [step] using Nat.lt_succ_of_lt (inv.compared c member)
    · obtain ⟨locked,lasting⟩ := inv.finished f member
      refine ⟨locked,lasting.since,lasting.before,?_,lasting.standing,lasting.compared,fun m c le found => ?_⟩
      · simpa [step] using Nat.le_succ_of_le lasting.known
      · rcases at_of_append found with old | ⟨_,rfl⟩
        · exact lasting.later m c le old
        · exact nofun
  | check n key =>
    unfold step
    dsimp only
    split
    · next c found =>
      split
      · next stage =>
        split
        · exact inv_check inv found stage (brief c found)
        · exact inv
      · exact inv
    · exact inv
  | run n good =>
    unfold step
    dsimp only
    split
    · next c found => exact inv_run inv found (brief c found)
    · exact inv
  | fail n =>
    unfold step
    dsimp only
    split
    · next found => exact inv_closed inv found keeps_refl
    · exact inv
  | cleanup ago =>
    have keeps : Keeps s.now (lockRow s) ((cleanupExpired (s.now - ago) s.rows).get .tokenLock) := cleanup_keeps (Nat.sub_le _ _)
    refine ⟨keeps.short inv.short,fun m c found => ?_,inv.compared,fun f member => ?_⟩
    · obtain ⟨before,knows,passed⟩ := inv.calls m c found
      exact ⟨before,knows_keeps (le_refl _) keeps knows,passed_keeps (le_refl _) keeps before passed⟩
    · obtain ⟨locked,lasting⟩ := inv.finished f member
      exact ⟨locked,lasting.since,lasting.before,lasting.known,keeps.standing locked lasting.standing,lasting.compared,lasting.later⟩

/-- A failure that has come to the threshold leaves a lock behind, and who comes later compares no password while it lasts. -/
theorem guessing_bounded (reach : Reachable step Brief .start s) : Bounded s := by
  have inv : Inv s := reachable_invariant inv_start (fun _ l inv ok => inv_step inv l ok) reach
  intro f member
  obtain ⟨locked,lasting⟩ := inv.finished f member
  exact ⟨locked,lasting.since,lasting.before,lasting.compared⟩

def admission (n : Nat) : List Label := [.call none,.check n .token,.check n .tokenLock,.run n true]

def failure (n : Nat) : List Label := [.run n false,.run n false]

def admissions (count : Nat) : List Label := (List.range count).flatMap fun n =>
  (if n % (PRECHECK_MAX_ATTEMPTS - 1) = 0 then [Label.tick (PRECHECK_WINDOW + 1)] else []) ++ admission n

def failures (first : Nat) : List Label := (List.range TOKEN_FAIL_LOCK_THRESHOLD).flatMap (fun n => failure (first + n)) ++
  failure (first + TOKEN_FAIL_LOCK_THRESHOLD - 1)

def triedSoon : List Label := admissions 30 ++ failures 0 ++ [Label.tick (PRECHECK_WINDOW + 1)] ++ admission 30

theorem tried_soon_refused : ∃ s, Reachable step Brief .start s ∧ s.finished.length = 1 ∧ s.calls.length = 31 ∧ s.compared.length = 30 ∧ Bounded s :=
  have reach := reachable_run .start triedSoon (by decide +kernel)
  ⟨_,reach,by decide +kernel,by decide +kernel,by decide +kernel,guessing_bounded reach⟩

/-- Nobody compares a password who comes while a lock would last that began when the failure had been recorded. -/
def Refused (s : State) : Prop := ∀ f ∈ s.finished, f.count = TOKEN_FAIL_LOCK_THRESHOLD → ∀ c ∈ s.compared, f.calls ≤ c.call →
  f.finished + TOKEN_FAIL_LOCK_DURATION_MS < c.started

instance (s : State) : Decidable (Refused s) := by
  unfold Refused
  infer_instance

/-- As many failures again, of calls that had been let through before the lock: they do not make it last longer. -/
def failedTwice : List Label := admissions 60 ++ failures 0 ++ [Label.tick (20 * 60 * 1000)] ++ failures 30 ++
  [Label.tick (TOKEN_FAIL_LOCK_DURATION_MS - 10 * 60 * 1000)] ++ admission 60 ++ [Label.run 60 true]

theorem failed_twice_compared : ¬ ∀ s, Reachable step Brief .start s → Refused s := by
  intro always
  have legal : Legal step Brief .start failedTwice := by decide +kernel
  exact absurd (always _ (reachable_run .start failedTwice legal)) (by decide +kernel)

end
end Tgtc.PasswordLock
