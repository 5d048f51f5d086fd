import Tgtc.IpBans
import Tgtc.RateLimits

/-!
What a login is answered that is turned down. An attempt counts against the lock only where there is no account, and
where a password has been compared.
-/
namespace Tgtc.LoginAnswers
open Maps RateLimits
open IpBans (BannedIP)

structure HttpError where
  status : Nat
  message : String
deriving DecidableEq

def unauthorized (message : String) : HttpError := ⟨401,message⟩

def internalError : HttpError := ⟨500,"服务器内部错误"⟩

def wrong : HttpError := unauthorized "邮箱或密码错误"

def tooFrequent (minutes : Nat) : HttpError := unauthorized ("登录请求过于频繁，请 " ++ toString minutes ++ " 分钟后重试")

def tooManyFailures (minutes : Nat) : HttpError := unauthorized ("登录失败次数过多，请 " ++ toString minutes ++ " 分钟后重试")

inductive Key where
  /-- `login-preflight:ip:` and the address -/
  | preflightIp (ip : String)
  /-- `login-preflight:account:`, the address and the account -/
  | preflightAccount (ip : String)
  /-- `login:`, the address and the account -/
  | failure (ip : String)
deriving DecidableEq

abbrev Rows := OrderedMap Key RateLimit

structure User where
  password : String
  isBanned : Bool
  emailVerified : Bool

structure Moment where
  asked : Nat
  now : Nat

structure Attempt where
  ip : String
  password : String
  time : Nat
  bannedIP : Option BannedIP
  ipChecked : Moment
  accountChecked : Moment
  failureChecked : Moment

structure Config where
  sec_login_max_failures : Nat
  sec_login_lock_duration : Nat
  /-- `EMAIL_VERIFICATION_ENABLED` -/
  emailVerificationEnabled : Bool

def Config.loginMaxFailures (cfg : Config) : Nat := if cfg.sec_login_max_failures = 0 then 5 else cfg.sec_login_max_failures

def Config.loginLockDuration (cfg : Config) : Nat :=
  (if cfg.sec_login_lock_duration = 0 then 15 else cfg.sec_login_lock_duration) * 60 * 1000

def MS_PER_MINUTE : Nat := 60000

def minutes (ms : Nat) : Nat := (ms + (MS_PER_MINUTE - 1)) / MS_PER_MINUTE

def waitMinutes (asked lockDurationMs : Nat) (row : Option RateLimit) : Nat := match row.bind RateLimit.lockedUntil with
  | some till => if asked < till then minutes (till - asked) else minutes lockDurationMs
  | none => minutes lockDurationMs

abbrev Outcome := Except HttpError Unit × Rows

def guarded (rows : Rows) (key : Key) (moment : Moment) (maxAttempts lockDurationMs windowMs : Nat) (refused : Nat → HttpError) : Outcome :=
  match checkAndIncrement moment.asked moment.now rows key maxAttempts lockDurationMs windowMs with
  | none => (.error internalError,rows)
  | some (rows,true) => (.ok (),rows)
  | some (rows,false) => (.error (refused (waitMinutes moment.asked lockDurationMs (rows.get key))),rows)

def goOn (first : Outcome) (next : Rows → Outcome) : Outcome := match first with
  | (.ok _,rows) => next rows
  | (.error e,rows) => (.error e,rows)

def checkLoginPreflight (rows : Rows) (attempt : Attempt) : Outcome :=
  goOn (guarded rows (.preflightIp attempt.ip) attempt.ipChecked 30 60000 60000 tooFrequent) fun rows =>
    guarded rows (.preflightAccount attempt.ip) attempt.accountChecked 10 60000 60000 tooFrequent

def fail (cfg : Config) (rows : Rows) (attempt : Attempt) : Outcome :=
  goOn (guarded rows (.failure attempt.ip) attempt.failureChecked cfg.loginMaxFailures cfg.loginLockDuration cfg.loginLockDuration
    tooManyFailures) fun rows => (.error wrong,rows)

def authenticate (cfg : Config) (compare : String → String → Bool) (user : Option User) (rows : Rows) (attempt : Attempt) : Outcome :=
  match user with
  | none => fail cfg rows attempt
  | some user =>
    if user.isBanned then (.error wrong,rows)
    else if !user.emailVerified && cfg.emailVerificationEnabled then (.error wrong,rows)
    else if compare attempt.password user.password then (.ok (),reset rows (.failure attempt.ip))
    else fail cfg rows attempt

def addressBanned (attempt : Attempt) : Bool := attempt.bannedIP.any fun ban =>
  (ban.isPermanent || ban.expiresAt.any fun expiresAt => attempt.time < expiresAt) && ban.unbannedAt.isNone

def beforehand (rows : Rows) (attempt : Attempt) : Outcome :=
  if addressBanned attempt then (.error wrong,rows) else checkLoginPreflight rows attempt

def login (cfg : Config) (compare : String → String → Bool) (user : Option User) (rows : Rows) (attempt : Attempt) : Outcome :=
  goOn (beforehand rows attempt) fun rows => authenticate cfg compare user rows attempt

def answers (cfg : Config) (compare : String → String → Bool) (user : Option User) : Rows → List Attempt → List (Except HttpError Unit)
  | _, [] => []
  | rows, attempt :: rest =>
    (login cfg compare user rows attempt).1 :: answers cfg compare user (login cfg compare user rows attempt).2 rest

def accepts (cfg : Config) (compare : String → String → Bool) (user : Option User) (password : String) : Bool := user.any fun user =>
  !user.isBanned && !(!user.emailVerified && cfg.emailVerificationEnabled) && compare password user.password

def counts (cfg : Config) (user : Option User) : Bool := user.all fun user =>
  !user.isBanned && !(!user.emailVerified && cfg.emailVerificationEnabled)

def spare (cfg : Config) (moment : Moment) (row : Option RateLimit) : Bool :=
  decide (0 < cfg.loginLockDuration) && decide (cfg.loginLockDuration ≤ MAX_WINDOW_MS) && match row with
  | none => decide (1 < cfg.loginMaxFailures) || decide (moment.now + cfg.loginLockDuration ≤ moment.asked)
  | some row => !row.locked moment.now && (decide (row.firstAttemptAt + cfg.loginLockDuration < moment.asked) ||
      decide (row.attemptCount < INT_MAX) &&
        if cfg.loginMaxFailures ≤ row.attemptCount + 1 then decide (moment.now + cfg.loginLockDuration ≤ moment.asked)
        else row.lockedUntil.all fun till => till ≤ moment.asked)

def spared (cfg : Config) (compare : String → String → Bool) (user : Option User) : Rows → List Attempt → Bool
  | _, [] => true
  | rows, attempt :: rest =>
    (match beforehand rows attempt with
      | (.ok _,rows) => !counts cfg user || spare cfg attempt.failureChecked (rows.get (.failure attempt.ip))
      | _ => true) && spared cfg compare user (login cfg compare user rows attempt).2 rest

section
variable {cfg : Config} {compare : String → String → Bool} {user other : Option User} {rows rows' : Rows} {attempt : Attempt} {attempts : List Attempt}
  {key : Key} {moment : Moment} {maxAttempts lockDurationMs windowMs : Nat} {refused : Nat → HttpError}

theorem guarded_other {apart : Key} (differs : apart ≠ key) :
    (guarded rows key moment maxAttempts lockDurationMs windowMs refused).2.get apart = rows.get apart := by
  unfold guarded
  split
  · rfl
  · next after checked => exact check_other differs checked
  · next after checked => exact check_other differs checked

theorem guarded_same (same : rows.get key = rows'.get key) :
    (guarded rows key moment maxAttempts lockDurationMs windowMs refused).1 =
        (guarded rows' key moment maxAttempts lockDurationMs windowMs refused).1 ∧
      (guarded rows key moment maxAttempts lockDurationMs windowMs refused).2.get key =
        (guarded rows' key moment maxAttempts lockDurationMs windowMs refused).2.get key := by
  unfold guarded checkAndIncrement
  rw [same]
  split_ifs with invalid
  · exact ⟨rfl,same⟩
  · cases upsert moment.asked moment.now maxAttempts lockDurationMs windowMs (rows'.get key) with
    | skipped => simp only [same,and_self]
    | thrown => exact ⟨rfl,same⟩
    | written row =>
      dsimp only
      cases !row.lockedUntil.any fun till => decide (moment.asked < till) <;> simp only [get_set_same,and_self]

theorem tooManyFailures_ne (n : Nat) : tooManyFailures n ≠ wrong := by
  intro same
  have first := congrArg (fun error : HttpError => error.message.toList.head?) same
  simp [tooManyFailures,wrong,unauthorized] at first

theorem check_spare : (checkAndIncrement moment.asked moment.now rows key cfg.loginMaxFailures cfg.loginLockDuration cfg.loginLockDuration).any
    (fun checked => checked.2) = spare cfg moment (rows.get key) := by
  unfold checkAndIncrement spare
  split
  · next invalid =>
    simp only [Bool.or_eq_true,decide_eq_true_eq] at invalid
    rcases invalid with zero | long
    · simp [zero]
    · simp [Nat.not_le.mpr long]
  · next valid =>
    simp only [Bool.or_eq_true,decide_eq_true_eq,not_or] at valid
    have turned (x y : Nat) : decide (x < y) = !decide (y ≤ x) := by
      rw [← decide_not]
      exact decide_eq_decide.mpr Nat.not_le.symm
    rw [decide_eq_true (Nat.pos_of_ne_zero valid.1),decide_eq_true (Nat.not_lt.mp valid.2)]
    cases rows.get key with
    | none =>
      simp only [upsert]
      by_cases once : cfg.loginMaxFailures ≤ 1
      · simp [once,turned moment.asked]
      · simp [once,Nat.not_le.mp once]
    | some row =>
      simp only [upsert]
      by_cases locked : row.locked moment.now = true
      · simp [locked]
      by_cases ended : row.firstAttemptAt + cfg.loginLockDuration < moment.asked
      · simp [locked,ended]
      by_cases full : INT_MAX ≤ row.attemptCount
      · simp [locked,ended,full]
      · by_cases last : cfg.loginMaxFailures ≤ row.attemptCount + 1
        · simp [locked,ended,full,last,Nat.not_le.mp full,turned moment.asked]
        · simp only [locked,ended,full,last,Nat.not_le.mp full]
          cases row.lockedUntil <;> simp [turned moment.asked]

theorem fail_spare : (fail cfg rows attempt).1 = .error wrong ↔ spare cfg attempt.failureChecked (rows.get (.failure attempt.ip)) = true := by
  rw [← check_spare]
  unfold fail goOn guarded
  cases checkAndIncrement attempt.failureChecked.asked attempt.failureChecked.now rows (.failure attempt.ip) cfg.loginMaxFailures
      cfg.loginLockDuration cfg.loginLockDuration with
  | none => simp [internalError,wrong,unauthorized]
  | some checked =>
    obtain ⟨after,allowed⟩ := checked
    cases allowed with
    | true => simp
    | false => simp [tooManyFailures_ne]

def Agree (rows rows' : Rows) : Prop := ∀ key : Key, (∀ ip, key ≠ .failure ip) → rows.get key = rows'.get key

def Alike (outcome outcome' : Outcome) : Prop := outcome.1 = outcome'.1 ∧ Agree outcome.2 outcome'.2

theorem goOn_alike {first first' : Outcome} {next next' : Rows → Outcome} (alike : Alike first first')
    (go : ∀ rows rows', Agree rows rows' → Alike (next rows) (next' rows')) : Alike (goOn first next) (goOn first' next') := by
  obtain ⟨answer,rows⟩ := first
  obtain ⟨answer',rows'⟩ := first'
  obtain ⟨same,agree⟩ := alike
  obtain rfl : answer = answer' := same
  cases answer with
  | ok _ => exact go rows rows' agree
  | error e => exact ⟨rfl,agree⟩

theorem guarded_alike (agree : Agree rows rows') (plain : ∀ ip, key ≠ .failure ip) :
    Alike (guarded rows key moment maxAttempts lockDurationMs windowMs refused)
      (guarded rows' key moment maxAttempts lockDurationMs windowMs refused) := by
  obtain ⟨answer,row⟩ := guarded_same (agree key plain)
  refine ⟨answer,fun apart counted => ?_⟩
  by_cases same : apart = key
  · rw [same]
    exact row
  · rw [guarded_other same,guarded_other same]
    exact agree apart counted

theorem beforehand_alike (agree : Agree rows rows') : Alike (beforehand rows attempt) (beforehand rows' attempt) := by
  unfold beforehand
  split
  · exact ⟨rfl,agree⟩
  · exact goOn_alike (guarded_alike agree nofun) fun _ _ agree => guarded_alike agree nofun

theorem fail_agree (agree : Agree rows rows') : Agree (fail cfg rows attempt).2 rows' := by
  intro key plain
  rw [← agree key plain]
  unfold fail goOn
  generalize result : guarded rows (.failure attempt.ip) attempt.failureChecked cfg.loginMaxFailures cfg.loginLockDuration
    cfg.loginLockDuration tooManyFailures = outcome
  have kept : outcome.2.get key = rows.get key := result ▸ guarded_other (plain attempt.ip)
  split <;> exact kept

theorem authenticate_counts (counted : counts cfg user = true) (rejected : accepts cfg compare user attempt.password = false) :
    authenticate cfg compare user rows attempt = fail cfg rows attempt := by
  cases user with
  | none => rfl
  | some user =>
    simp only [counts,Option.all_some,Bool.and_eq_true,Bool.not_eq_true'] at counted
    simp only [accepts,Option.any_some,counted,Bool.not_false,Bool.true_and] at rejected
    simp [authenticate,counted,rejected]

theorem authenticate_idle (idle : counts cfg user = false) : authenticate cfg compare user rows attempt = (.error wrong,rows) := by
  cases user with
  | none => cases idle
  | some user =>
    unfold authenticate
    by_cases banned : user.isBanned = true
    · simp [banned]
    · simp only [counts,Option.all_some,banned,Bool.not_false,Bool.true_and,Bool.not_eq_false'] at idle
      simp [idle]

theorem login_counts (same : counts cfg user = counts cfg other) (rejected : accepts cfg compare user attempt.password = false)
    (rejected' : accepts cfg compare other attempt.password = false) :
    login cfg compare user rows attempt = login cfg compare other rows attempt := by
  unfold login
  congr 1
  funext rows
  cases counted : counts cfg user with
  | true => rw [authenticate_counts counted rejected,authenticate_counts (same ▸ counted) rejected']
  | false => rw [authenticate_idle counted,authenticate_idle (same ▸ counted)]

theorem answers_counts (same : counts cfg user = counts cfg other) (rejected : ∀ attempt ∈ attempts,
      accepts cfg compare user attempt.password = false ∧ accepts cfg compare other attempt.password = false) :
    answers cfg compare user rows attempts = answers cfg compare other rows attempts := by
  induction attempts generalizing rows with
  | nil => rfl
  | cons attempt rest ih =>
    obtain ⟨mine,yours⟩ := rejected attempt (.head _)
    unfold answers
    rw [login_counts same mine yours,ih fun later member => rejected later (.tail _ member)]

theorem spared_idle (idle : counts cfg user = false) : spared cfg compare user rows attempts = true := by
  induction attempts generalizing rows with
  | nil => rfl
  | cons attempt rest ih =>
    unfold spared
    rw [ih]
    split <;> simp [idle]

theorem answers_spared (counted : counts cfg user = true) (idle : counts cfg other = false) (agree : Agree rows rows')
    (rejected : ∀ attempt ∈ attempts, accepts cfg compare user attempt.password = false) :
    answers cfg compare user rows attempts = answers cfg compare other rows' attempts ↔ spared cfg compare user rows attempts = true := by
  induction attempts generalizing rows rows' with
  | nil => exact ⟨fun _ => rfl,fun _ => rfl⟩
  | cons attempt rest ih =>
    have mine := rejected attempt (.head _)
    have alike : Alike (beforehand rows attempt) (beforehand rows' attempt) := beforehand_alike agree
    unfold answers spared login
    generalize beforehand rows attempt = first at alike ⊢
    generalize beforehand rows' attempt = first' at alike ⊢
    obtain ⟨answer,after⟩ := first
    obtain ⟨answer',after'⟩ := first'
    obtain ⟨same,agree⟩ := alike
    obtain rfl : answer = answer' := same
    have later := fun attempt member => rejected attempt (.tail _ member)
    cases answer with
    | error e =>
      simp only [goOn,List.cons.injEq,true_and]
      exact ih agree later
    | ok _ =>
      simp only [goOn,authenticate_counts counted mine,authenticate_idle idle,List.cons.injEq,fail_spare,counted,Bool.and_eq_true]
      exact and_congr_right fun _ => ih (fail_agree agree) later

/-- Rejected logins are answered alike for two states of an account just where both count attempts alike
or the counter is not used up. -/
theorem logins_alike_iff (rejected : ∀ attempt ∈ attempts,
      accepts cfg compare user attempt.password = false ∧ accepts cfg compare other attempt.password = false) :
    answers cfg compare user rows attempts = answers cfg compare other rows attempts ↔
      counts cfg user = counts cfg other ∨ spared cfg compare user rows attempts = true ∧ spared cfg compare other rows attempts = true := by
  have mine := fun attempt member => (rejected attempt member).1
  have yours := fun attempt member => (rejected attempt member).2
  have agree : Agree rows rows := fun _ _ => rfl
  cases counted : counts cfg user with
  | true =>
    cases counted' : counts cfg other with
    | true => exact ⟨fun _ => .inl rfl,fun _ => answers_counts (counted.trans counted'.symm) rejected⟩
    | false =>
      rw [answers_spared counted counted' agree mine,spared_idle counted']
      simp
  | false =>
    cases counted' : counts cfg other with
    | true =>
      rw [eq_comm,answers_spared counted' counted agree yours,spared_idle counted]
      simp
    | false => exact ⟨fun _ => .inl rfl,fun _ => answers_counts (counted.trans counted'.symm) rejected⟩

end

def tries (n : Nat) : List Attempt := (List.range n).map fun i =>
  ⟨"203.0.113.7","guess",i * 60001,none,⟨i * 60001,i * 60001⟩,⟨i * 60001,i * 60001⟩,⟨i * 60001,i * 60001⟩⟩

theorem logins_alike_four : answers ⟨0,0,false⟩ (fun _ _ => false) none .empty (tries 4) =
    answers ⟨0,0,false⟩ (fun _ _ => false) (some ⟨"hash",true,true⟩) .empty (tries 4) :=
  (logins_alike_iff (by decide +kernel)).mpr (.inr (by decide +kernel))

/-- The fifth attempt is told of the lock where there is no account, and not where there is one that is banned. -/
theorem banned_account_told : ¬ ∀ (cfg : Config) (compare : String → String → Bool) (user other : Option User) (rows : Rows) (attempts : List Attempt),
    (∀ attempt ∈ attempts, accepts cfg compare user attempt.password = false ∧ accepts cfg compare other attempt.password = false) →
      answers cfg compare user rows attempts = answers cfg compare other rows attempts := by
  intro always
  have same := always ⟨0,0,false⟩ (fun _ _ => false) none (some ⟨"hash",true,true⟩) .empty (tries 5) (by decide +kernel)
  exact absurd same (by decide +kernel)

end Tgtc.LoginAnswers
