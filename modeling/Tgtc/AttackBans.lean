import Mathlib.Data.List.Dedup
import Tgtc.Doubles
import Tgtc.IpBans
import Tgtc.IpWhitelist
import Tgtc.Numbers

/-!
Detection of attacks. Four rules look for addresses in the log, each with its thresholds and its
exemptions, and what they report is banned, or only alerted of, in one transaction. The login asks
for the ban in its own words.
-/
namespace Tgtc.AttackBans
open Doubles IpWhitelist Maps Numbers
open Option (any_eq_true bind_eq_bind bind_eq_some_iff map_eq_some_iff pure_def)

inductive ConfigKey where
  | scanRequests | scanPaths | scanWindow | scanBanDuration
  | bruteForceAttempts | bruteForceWindow | bruteForceBanDuration
  | crawlerRequests | crawlerWindow | crawlerGetRatio | crawlerBanDuration
  | downloadCount | downloadWindow | downloadBanDuration

/-- `SEC_CONFIG_DEFAULTS`, as numbers. -/
def defaults : ConfigKey → ℚ
  | .scanRequests => 300
  | .scanPaths => 50
  | .scanWindow => 5
  | .scanBanDuration => 1
  | .bruteForceAttempts => 20
  | .bruteForceWindow => 5
  | .bruteForceBanDuration => 2
  | .crawlerRequests => 50000
  | .crawlerWindow => 24
  | .crawlerGetRatio => rounded (99 / 100)
  | .crawlerBanDuration => 24
  | .downloadCount => 1000
  | .downloadWindow => 24
  | .downloadBanDuration => 6

def getConfigNumber (config : ConfigKey → Option Number) (key : ConfigKey) : ℚ := match config key with
  | some (.finite value) => value
  | _ => defaults key

structure AccessLog where
  ip : String
  method : String
  path : String
  statusCode : Int
  userAgent : Option String
  userId : Option String
  createdAt : ℚ

inductive AttackType where
  | highFrequencyScan | bruteForce | crawler | abnormalDownload

def AttackType.name : AttackType → String
  | .highFrequencyScan => "high_frequency_scan"
  | .bruteForce => "brute_force"
  | .crawler => "crawler"
  | .abnormalDownload => "abnormal_download"

inductive Severity where
  | high | critical
deriving DecidableEq

inductive Value where
  | number (n : Int)
  | flag (b : Bool)
deriving DecidableEq

structure AttackDetectionResult where
  ip : String
  attackType : AttackType
  severity : Severity
  details : List (String × Value)

def AttackDetectionResult.alertOnly (attack : AttackDetectionResult) : Bool :=
  attack.details.lookup "downgradedToAlert" = some (.flag true)

structure BanRow where
  reason : Option String
  ban : IpBans.BannedIP

inductive AlertLevel where
  | warning | critical

structure Alert where
  id : Nat
  ruleId : String
  level : AlertLevel
  title : String
  message : String
  /-- `context` -/
  attack : AttackDetectionResult
  banDuration : String
  expiresAt : Option Nat
  acknowledged : Bool
  createdAt : Nat

structure AuditLog where
  ip : String
  reason : String
  attackType : AttackType
  severity : Severity
  alertId : Nat

structure Tables where
  bans : OrderedMap String BanRow
  alerts : List Alert
  audits : List AuditLog
  fresh : Nat

structure Host where
  order : AttackType → List String → List String
  perm : ∀ rule ips,(order rule ips).Perm ips
  /-- `MAX` of texts -/
  greatest : List String → Option String
  toLowerCase : List Char → List Char
  text : ℚ → String

structure Input where
  host : Host
  log : List AccessLog
  config : ConfigKey → Option Number
  whitelist : Option String
  now : Nat

def detectionResultLimit : Nat := 1000

/-- `LIKE`; the patterns have no escapes. -/
def like : List Char → List Char → Bool
  | [],text => text.isEmpty
  | p :: pattern,text =>
    if p = '%' then text.tails.any (like pattern)
    else match text with
      | [] => false
      | c :: rest => (p = '_' || p = c) && like pattern rest

/-- A `Date`, which drops a fraction and is invalid too far out. -/
def date (time : ℚ) : Option Int := if |time| ≤ 8640000000000000 then some (time.num.tdiv time.den) else none

/-- A threshold is read as a `bigint`, which a fraction is not. -/
def bigint (threshold : ℚ) : Option Int :=
  if threshold.den = 1 ∧ -2 ^ 63 ≤ threshold.num ∧ threshold.num < 2 ^ 63 then some threshold.num else none

def grouped (input : Input) (rule : AttackType) (cutoff : Int) (row : AccessLog → Bool) (having : List AccessLog → Bool) :
    List (String × List AccessLog) :=
  let rows := input.log.filter fun a => (cutoff : ℚ) ≤ a.createdAt && row a
  let groups := (input.host.order rule (rows.map AccessLog.ip).dedup).map fun ip => (ip,rows.filter fun a => a.ip = ip)
  (groups.filter fun group => having group.2).take detectionResultLimit

def uniquePaths (rows : List AccessLog) : Nat := (rows.map AccessLog.path).dedup.length

def detectHighFrequencyScanners (input : Input) : Option (List AttackDetectionResult) := do
  let windowMin := getConfigNumber input.config .scanWindow
  let reqThreshold ← bigint (getConfigNumber input.config .scanRequests)
  let pathThreshold ← bigint (getConfigNumber input.config .scanPaths)
  let cutoff ← date (input.now - windowMin * 60 * 1000)
  let rows := grouped input .highFrequencyScan cutoff (fun _ => true) fun rows =>
    reqThreshold < rows.length && pathThreshold < uniquePaths rows
  return rows.map fun (ip,rows) => {
    ip
    attackType := .highFrequencyScan
    severity := .high
    details := [("requestCount",.number rows.length),("uniquePaths",.number (uniquePaths rows))]
  }

def detectBruteForce (input : Input) : Option (List AttackDetectionResult) := do
  let windowMin := getConfigNumber input.config .bruteForceWindow
  let threshold ← bigint (getConfigNumber input.config .bruteForceAttempts)
  let cutoff ← date (input.now - windowMin * 60 * 1000)
  let rows := grouped input .bruteForce cutoff
    (fun a => like "/api/auth/login%".toList a.path.toList && a.statusCode = 401) fun rows => threshold ≤ rows.length
  return (rows.filter fun (ip,_) => !isIpWhitelisted input.whitelist ip).map fun (ip,rows) => {
    ip
    attackType := .bruteForce
    severity := .critical
    details := [("loginAttempts",.number rows.length)]
  }

def MONITOR_UA_PATTERNS : List String :=
  ["googlebot","bingbot","yandexbot","duckduckbot","baiduspider","sogou","slurp","pingdom","uptimerobot","newrelic","datadog",
    "statuscake","monitoring"]

def isMonitorUserAgent (host : Host) : Option String → Bool
  | none => false
  | some userAgent => userAgent ≠ "" &&
      MONITOR_UA_PATTERNS.any fun p => (host.toLowerCase userAgent.toList).tails.any p.toList.isPrefixOf

/-- `getCount / totalRequests` -/
def getShare (rows : List AccessLog) : ℚ := rounded ((rows.countP fun a => a.method = "GET") / rows.length)

def detectCrawlers (input : Input) : Option (List AttackDetectionResult) := do
  let windowHours := getConfigNumber input.config .crawlerWindow
  let threshold ← bigint (getConfigNumber input.config .crawlerRequests)
  let getRatio := getConfigNumber input.config .crawlerGetRatio
  let cutoff ← date (input.now - windowHours * 60 * 60 * 1000)
  let rows := grouped input .crawler cutoff (fun _ => true) fun rows => threshold < rows.length
  return (rows.filter fun (ip,rows) =>
      !(rows.length = 0 || getShare rows ≤ getRatio) && !isIpWhitelisted input.whitelist ip &&
        !isMonitorUserAgent input.host (input.host.greatest (rows.filterMap AccessLog.userAgent))).map fun (ip,rows) => {
    ip
    attackType := .crawler
    severity := .high
    details := [("totalRequests",.number rows.length),("getRatio",.number ⌊rounded (getShare rows * 100) + 1 / 2⌋),
      ("uniquePaths",.number (uniquePaths rows)),("downgradedToAlert",.flag (uniquePaths rows ≤ 3))]
  }

def detectAbnormalDownloads (input : Input) : Option (List AttackDetectionResult) := do
  let windowHours := getConfigNumber input.config .downloadWindow
  let threshold ← bigint (getConfigNumber input.config .downloadCount)
  let cutoff ← date (input.now - windowHours * 60 * 60 * 1000)
  let rows := grouped input .abnormalDownload cutoff
    (fun a => like "/api/files/%/download%".toList a.path.toList || like "/files/public/%/download%".toList a.path.toList)
    fun rows => threshold < rows.length
  return (rows.filter fun (ip,_) => !isIpWhitelisted input.whitelist ip).map fun (ip,rows) =>
    let distinctUsers := (rows.filterMap AccessLog.userId).dedup.length
    {
      ip
      attackType := .abnormalDownload
      severity := .high
      details := [("downloadCount",.number rows.length),("distinctUsers",.number distinctUsers),
        ("downgradedToAlert",.flag (1 < distinctUsers))]
    }

def MIN_BAN_SECONDS : Nat := 60

/-- `/^(\d+)([hms])$/`, in seconds. -/
def parseDuration (duration : String) : Nat := match duration.toList.reverse with
  | unit :: digits =>
    if digits = [] ∨ digits.all Char.isDigit = false then 3600
    else
      let num := ByteRange.number digits.reverse
      if unit = 'h' then (if num = 0 then MIN_BAN_SECONDS else num * 3600)
      else if unit = 'm' then (if num = 0 then MIN_BAN_SECONDS else num * 60)
      else if unit = 's' then (if num = 0 then MIN_BAN_SECONDS else num)
      else 3600
  | [] => 3600

def AttackType.reason : AttackType → String
  | .highFrequencyScan => "高频扫描攻击"
  | .bruteForce => "登录爆破行为"
  | .crawler => "爬虫行为"
  | .abnormalDownload => "异常下载行为"

def AttackType.banHours : AttackType → ConfigKey
  | .highFrequencyScan => .scanBanDuration
  | .bruteForce => .bruteForceBanDuration
  | .crawler => .crawlerBanDuration
  | .abnormalDownload => .downloadBanDuration

def Value.json : Value → String
  | .number n => toString n
  | .flag b => toString b

def json (details : List (String × Value)) : String :=
  "\x7b" ++ ",".intercalate (details.map fun (key,value) => "\"" ++ key ++ "\":" ++ value.json) ++ "\x7d"

def active (now : Nat) (row : BanRow) : Bool :=
  row.ban.isPermanent || (!row.ban.isPermanent && row.ban.expiresAt.any (now < ·))

/-- `upsert`: what is not given stays as it is in a row that is there. -/
def upsert (bans : OrderedMap String BanRow) (ip reason : String) (expiresAt : Nat) : OrderedMap String BanRow :=
  bans.set ip ⟨some reason,⟨false,some expiresAt,(bans.get ip).bind fun row => row.ban.unbannedAt,rfl⟩⟩

structure Broadcast where
  id : Nat
  ruleId : String
  level : AlertLevel
  title : String
  message : String
  createdAt : Nat

/-- Nothing if the database refuses a statement, after which the transaction does not commit. -/
def banAndAlertInTx (now : Nat) (tables : Tables) (toBroadcast : List Broadcast) (attack : AttackDetectionResult)
    (reason duration : String) (expiresAt : Option Nat) (alertOnly : Bool) : Option (Tables × List Broadcast) :=
  if (tables.bans.get attack.ip).any (active now) then some (tables,toBroadcast)
  else
    let told := reason ++ ": " ++ json attack.details
    (if alertOnly then some tables.bans else expiresAt.map (upsert tables.bans attack.ip told)).map fun bans =>
      let ruleId := "ATTACK_" ++ attack.attackType.name.toUpper
      if tables.alerts.any fun alert => alert.ruleId = ruleId && !alert.acknowledged && alert.attack.ip = attack.ip then
        ({ tables with bans },toBroadcast)
      else
        let alert : Alert := {
          id := tables.fresh
          ruleId
          level := if attack.severity = .critical then .critical else .warning
          title := if alertOnly then reason ++ "（仅告警）" else reason
          message := "IP " ++ attack.ip ++ " 触发 " ++ told
          attack
          banDuration := if alertOnly then "none" else duration
          expiresAt := if alertOnly then none else expiresAt
          acknowledged := false
          createdAt := now
        }
        ({
          bans
          alerts := tables.alerts ++ [alert]
          audits := tables.audits ++ [⟨attack.ip,reason,attack.attackType,attack.severity,alert.id⟩]
          fresh := tables.fresh + 1
        },toBroadcast ++ [⟨alert.id,alert.ruleId,alert.level,alert.title,alert.message,alert.createdAt⟩])

def handleAttack (input : Input) (done : Tables × List Broadcast) (attack : AttackDetectionResult) :
    Option (Tables × List Broadcast) :=
  let duration := input.host.text (getConfigNumber input.config attack.attackType.banHours) ++ "h"
  let expiresAt := (date (input.now + parseDuration duration * 1000)).map Int.toNat
  banAndAlertInTx input.now done.1 done.2 attack attack.attackType.reason duration expiresAt attack.alertOnly

def detect (input : Input) : Option (List AttackDetectionResult) := do
  let scanners ← detectHighFrequencyScanners input
  let bruteForce ← detectBruteForce input
  let crawlers ← detectCrawlers input
  let abnormalDownloads ← detectAbnormalDownloads input
  return scanners ++ bruteForce ++ crawlers ++ abnormalDownloads

def detectAttacks (input : Input) (tables : Tables) : Option (Tables × List Broadcast) := do
  let attacks ← detect input
  attacks.foldlM (handleAttack input) (tables,[])

def refused (now : Nat) (row : BanRow) : Bool :=
  (row.ban.isPermanent || (!row.ban.isPermanent && row.ban.expiresAt.any (now < ·))) && row.ban.unbannedAt.isNone

theorem refused_eq (now : Nat) (row : BanRow) : refused now row = (active now row && row.ban.unbannedAt.isNone) := rfl

section
variable {input : Input} {attack : AttackDetectionResult} {attacks : List AttackDetectionResult}
  {done done' : Tables × List Broadcast} {ip : String}

theorem parseDuration_pos (duration : String) : 0 < parseDuration duration := by
  unfold parseDuration
  split
  · have : 0 < MIN_BAN_SECONDS := by decide
    dsimp only
    split_ifs <;> omega
  · omega

theorem expires_later {seconds e : Nat} (positive : 0 < seconds)
    (valid : (date (input.now + seconds * 1000)).map Int.toNat = some e) : input.now < e := by
  obtain ⟨time,known,rfl⟩ := map_eq_some_iff.mp valid
  have whole : ((input.now : ℚ) + seconds * 1000) = ((input.now + seconds * 1000 : ℕ) : ℚ) := by push_cast; ring
  rw [date,whole,Option.ite_none_right_eq_some] at known
  obtain ⟨_,known⟩ := known
  have read : ((input.now + seconds * 1000 : ℕ) : ℤ) = time := by
    simpa only [Rat.num_natCast,Rat.den_natCast,Nat.cast_one,Int.tdiv_one,Option.some.injEq] using known
  omega

section
variable (ran : handleAttack input done attack = some done')
include ran

theorem handleAttack_bans : done'.1.bans = done.1.bans ∧ ((done.1.bans.get attack.ip).any (active input.now) ∨ attack.alertOnly) ∨
      attack.alertOnly = false ∧ ∃ reason e,input.now < e ∧ done'.1.bans = upsert done.1.bans attack.ip reason e := by
  unfold handleAttack banAndAlertInTx at ran
  dsimp only at ran
  split at ran
  · rename_i there
    cases ran
    exact .inl ⟨rfl,.inl there⟩
  · obtain ⟨bans,written,rest⟩ := map_eq_some_iff.mp ran
    have same : done'.1.bans = bans := by
      split at rest <;> (rw [← rest])
    rw [same]
    cases only : attack.alertOnly with
    | true =>
      rw [only,if_pos rfl,Option.some.injEq] at written
      exact .inl ⟨written.symm,.inr rfl⟩
    | false =>
      rw [only] at written
      obtain ⟨e,valid,rfl⟩ := map_eq_some_iff.mp written
      exact .inr ⟨rfl,_,e,expires_later (parseDuration_pos _) valid,rfl⟩

theorem handleAttack_lifted (ip : String) :
    ((done'.1.bans.get ip).bind fun row => row.ban.unbannedAt) = (done.1.bans.get ip).bind fun row => row.ban.unbannedAt := by
  rcases handleAttack_bans ran with ⟨same,_⟩ | ⟨_,reason,e,_,written⟩
  · rw [same]
  · rw [written,upsert]
    by_cases here : ip = attack.ip
    · rw [here,get_set_same]
      rfl
    · rw [get_set_other _ _ here]

theorem handleAttack_other (other : attack.alertOnly ∨ ip ≠ attack.ip) : done'.1.bans.get ip = done.1.bans.get ip := by
  rcases handleAttack_bans ran with ⟨same,_⟩ | ⟨banning,reason,e,_,written⟩
  · rw [same]
  · rw [written,upsert,get_set_other]
    rcases other with only | other
    · rw [only] at banning
      cases banning
    · exact other

theorem handleAttack_active (there : (done.1.bans.get ip).any (active input.now)) : done'.1.bans.get ip = done.1.bans.get ip := by
  by_cases here : ip = attack.ip
  · subst here
    unfold handleAttack banAndAlertInTx at ran
    rw [if_pos there] at ran
    cases ran
    rfl
  · exact handleAttack_other ran (.inr here)

theorem handleAttack_banned (banning : attack.alertOnly = false) : (done'.1.bans.get attack.ip).any (active input.now) := by
  rcases handleAttack_bans ran with ⟨same,there | only⟩ | ⟨_,reason,e,later,written⟩
  · rw [same]
    exact there
  · rw [only] at banning
    cases banning
  · rw [written,upsert,get_set_same]
    simp [active,later]

end

section
variable (ran : attacks.foldlM (handleAttack input) done = some done')
include ran

theorem handle_lifted (ip : String) :
    ((done'.1.bans.get ip).bind fun row => row.ban.unbannedAt) = (done.1.bans.get ip).bind fun row => row.ban.unbannedAt := by
  induction attacks generalizing done with
  | nil =>
    cases ran
    rfl
  | cons attack attacks ih =>
    obtain ⟨between,first,rest⟩ := bind_eq_some_iff.mp ran
    exact (ih rest).trans (handleAttack_lifted first ip)

theorem handle_active (there : (done.1.bans.get ip).any (active input.now)) : done'.1.bans.get ip = done.1.bans.get ip := by
  induction attacks generalizing done with
  | nil =>
    cases ran
    rfl
  | cons attack attacks ih =>
    obtain ⟨between,first,rest⟩ := bind_eq_some_iff.mp ran
    have same := handleAttack_active first there
    exact (ih rest (same ▸ there)).trans same

theorem handle_banned (member : attack ∈ attacks)
    (banning : attack.alertOnly = false) : (done'.1.bans.get attack.ip).any (active input.now) := by
  induction attacks generalizing done with
  | nil => cases member
  | cons first attacks ih =>
    obtain ⟨between,handled,rest⟩ := bind_eq_some_iff.mp ran
    rcases List.mem_cons.mp member with rfl | later
    · have there := handleAttack_banned handled banning
      rw [handle_active rest there]
      exact there
    · exact ih rest later

theorem handle_other (other : ∀ attack ∈ attacks,attack.alertOnly ∨ ip ≠ attack.ip) : done'.1.bans.get ip = done.1.bans.get ip := by
  induction attacks generalizing done with
  | nil =>
    cases ran
    rfl
  | cons attack attacks ih =>
    obtain ⟨between,first,rest⟩ := bind_eq_some_iff.mp ran
    exact (ih rest fun attack member => other attack (List.mem_cons_of_mem _ member)).trans
      (handleAttack_other first (other attack List.mem_cons_self))

end

theorem scanners_ban (found : detectHighFrequencyScanners input = some attacks) (member : attack ∈ attacks) :
    attack.alertOnly = false := by
  simp only [detectHighFrequencyScanners,bind_eq_bind,bind_eq_some_iff,pure_def,Option.some.injEq] at found
  obtain ⟨_,_,_,_,_,_,rfl⟩ := found
  obtain ⟨⟨ip,rows⟩,_,rfl⟩ := List.mem_map.mp member
  rfl

theorem bruteForce_exempts (found : detectBruteForce input = some attacks) (member : attack ∈ attacks) :
    ¬Whitelisted input.whitelist attack.ip := by
  simp only [detectBruteForce,bind_eq_bind,bind_eq_some_iff,pure_def,Option.some.injEq] at found
  obtain ⟨_,_,_,_,rfl⟩ := found
  obtain ⟨⟨ip,rows⟩,passes,rfl⟩ := List.mem_map.mp member
  rw [← isIpWhitelisted_iff]
  simpa using (List.mem_filter.mp passes).2

theorem crawlers_exempt (found : detectCrawlers input = some attacks) (member : attack ∈ attacks) :
    ¬Whitelisted input.whitelist attack.ip := by
  simp only [detectCrawlers,bind_eq_bind,bind_eq_some_iff,pure_def,Option.some.injEq] at found
  obtain ⟨_,_,_,_,rfl⟩ := found
  obtain ⟨⟨ip,rows⟩,passes,rfl⟩ := List.mem_map.mp member
  have test := (List.mem_filter.mp passes).2
  simp only [Bool.and_eq_true,Bool.not_eq_true'] at test
  rw [← isIpWhitelisted_iff]
  simp [test.1.2]

theorem abnormalDownloads_exempt (found : detectAbnormalDownloads input = some attacks) (member : attack ∈ attacks) :
    ¬Whitelisted input.whitelist attack.ip := by
  simp only [detectAbnormalDownloads,bind_eq_bind,bind_eq_some_iff,pure_def,Option.some.injEq] at found
  obtain ⟨_,_,_,_,rfl⟩ := found
  obtain ⟨⟨ip,rows⟩,passes,rfl⟩ := List.mem_map.mp member
  rw [← isIpWhitelisted_iff]
  simpa using (List.mem_filter.mp passes).2

theorem detect_whitelisted (found : detect input = some attacks) (member : attack ∈ attacks)
    (listed : Whitelisted input.whitelist attack.ip) :
    ∃ scanners,detectHighFrequencyScanners input = some scanners ∧ attack ∈ scanners := by
  simp only [detect,bind_eq_bind,bind_eq_some_iff,pure_def,Option.some.injEq] at found
  obtain ⟨scanners,scanned,bruteForce,brute,crawlers,crawled,downloads,downloaded,rfl⟩ := found
  simp only [List.mem_append] at member
  rcases member with ((member | member) | member) | member
  · exact ⟨scanners,scanned,member⟩
  · exact absurd listed (bruteForce_exempts brute member)
  · exact absurd listed (crawlers_exempt crawled member)
  · exact absurd listed (abnormalDownloads_exempt downloaded member)

theorem detect_scanners {scanners : List AttackDetectionResult} (found : detect input = some attacks)
    (scanned : detectHighFrequencyScanners input = some scanners) (member : attack ∈ scanners) : attack ∈ attacks := by
  simp only [detect,bind_eq_bind,bind_eq_some_iff,pure_def,Option.some.injEq] at found
  obtain ⟨scanners',scanned',_,_,_,_,_,_,rfl⟩ := found
  rw [scanned] at scanned'
  cases scanned'
  simp [member]

end

/-- What is reported without the downgrade and is not whitelisted is refused afterwards, and no
whitelisted address has got a ban. -/
structure RightlyBanned (input : Input) (before after : Tables) : Prop where
  banned : ∀ attacks,detect input = some attacks → ∀ attack ∈ attacks,attack.alertOnly = false →
    ¬Whitelisted input.whitelist attack.ip → (after.bans.get attack.ip).any (refused input.now)
  spared : ∀ ip,Whitelisted input.whitelist ip → after.bans.get ip = before.bans.get ip

/-- The scanner rule reports no whitelisted address without a ban, and no address to ban had its ban
lifted. -/
structure Fit (input : Input) (tables : Tables) : Prop where
  scanned : ∀ scanners,detectHighFrequencyScanners input = some scanners → ∀ attack ∈ scanners,
    Whitelisted input.whitelist attack.ip → (tables.bans.get attack.ip).any (active input.now)
  neverLifted : ∀ attacks,detect input = some attacks → ∀ attack ∈ attacks,attack.alertOnly = false →
    ¬Whitelisted input.whitelist attack.ip → ∀ row,tables.bans.get attack.ip = some row → row.ban.unbannedAt = none

theorem detectAttacks_right_iff (input : Input) (before after : Tables) (sent : List Broadcast)
    (committed : detectAttacks input before = some (after,sent)) : RightlyBanned input before after ↔ Fit input before := by
  obtain ⟨attacks,found,ran⟩ := bind_eq_some_iff.mp committed
  have lifted := handle_lifted ran
  constructor
  · intro right
    refine ⟨fun scanners scanned attack member listed => ?_,fun attacks' found' attack member banning unlisted row known => ?_⟩
    · have there := handle_banned ran (detect_scanners found scanned member) (scanners_ban scanned member)
      rw [right.spared attack.ip listed] at there
      exact there
    · have refusal := right.banned attacks' found' attack member banning unlisted
      obtain ⟨row',known',no⟩ := (any_eq_true ..).mp refusal
      have same := lifted attack.ip
      rw [known',known] at same
      rw [refused_eq,Bool.and_eq_true,Option.isNone_iff_eq_none] at no
      exact same.symm.trans no.2
  · intro fit
    refine ⟨fun attacks' found' attack member banning unlisted => ?_,fun ip listed => ?_⟩
    · obtain rfl : attacks = attacks' := Option.mem_unique found found'
      obtain ⟨row',known',there⟩ := (any_eq_true ..).mp (handle_banned ran member banning)
      have same := lifted attack.ip
      have none : row'.ban.unbannedAt = none := by
        rw [known'] at same
        cases known : before.bans.get attack.ip with
        | none => simpa [known] using same
        | some row => simpa [known,fit.neverLifted attacks found attack member banning unlisted row known] using same
      rw [known']
      simp [refused_eq,there,none]
    · by_cases there : (before.bans.get ip).any (active input.now)
      · exact handle_active ran there
      · apply handle_other ran
        intro attack member
        by_cases here : ip = attack.ip
        · subst here
          obtain ⟨scanners,scanned,among⟩ := detect_whitelisted found member listed
          exact absurd (fit.scanned scanners scanned attack among listed) there
        · exact .inr here

def plainHost : Host where
  order _ ips := ips
  perm _ ips := .refl ips
  greatest texts := texts.head?
  toLowerCase text := text.map Char.toLower
  text q := toString q.num

def strict (rows : List AccessLog) : Input where
  host := plainHost
  log := rows
  config
    | .scanRequests => some (.finite 50)
    | .scanPaths => some (.finite 10)
    | .bruteForceAttempts => some (.finite 5)
    | _ => none
  whitelist := some "192.168.1.1, 10.0.0.0/8"
  now := 1000000

def requestOf (ip path : String) (statusCode : Int) : AccessLog := ⟨ip,"POST",path,statusCode,none,none,990000⟩

def noTables : Tables := ⟨.empty,[],[],0⟩

def office : Input := strict ((List.range 51).map fun i => requestOf "10.1.2.3" (String.ofList (List.replicate (i % 11 + 1) '/')) 200)

theorem detectAttacks_bans_office : ¬∀ (input : Input) (before after : Tables) (sent : List Broadcast),
    detectAttacks input before = some (after,sent) → RightlyBanned input before after := by
  intro always
  have committed : ((detectAttacks office noTables).map fun done => (done.1.bans.get "10.1.2.3").isSome) = some true := by
    decide +kernel
  obtain ⟨⟨after,sent⟩,ran,banned⟩ := map_eq_some_iff.mp committed
  have listed : isIpWhitelisted office.whitelist "10.1.2.3" = true := by decide +kernel
  rw [(always _ _ _ _ ran).spared "10.1.2.3" (isIpWhitelisted_iff.mp listed)] at banned
  cases banned

def guessed : Input := strict (List.replicate 5 (requestOf "203.0.113.9" "/api/auth/login" 401))

theorem guessed_fit : Fit guessed noTables where
  scanned scanners found attack member listed := by
    have alone : (detectHighFrequencyScanners guessed).any
        (List.all · fun attack => !isIpWhitelisted guessed.whitelist attack.ip) = true := by decide +kernel
    rw [found,Option.any_some,List.all_eq_true] at alone
    simpa [isIpWhitelisted_iff.mpr listed] using alone attack member
  neverLifted _ _ _ _ _ _ _ known := by cases known

theorem detectAttacks_right_guessed :
    ∃ after sent,detectAttacks guessed noTables = some (after,sent) ∧ RightlyBanned guessed noTables after := by
  have committed : (detectAttacks guessed noTables).isSome := by decide +kernel
  obtain ⟨⟨after,sent⟩,ran⟩ := Option.isSome_iff_exists.mp committed
  exact ⟨after,sent,ran,(detectAttacks_right_iff guessed noTables after sent ran).mpr guessed_fit⟩

section
variable {input : Input} {attack : AttackDetectionResult} {attacks : List AttackDetectionResult}
  {earlier : List Broadcast} {done done' : Tables × List Broadcast}

/-- No two alerts of one rule for one address are open. -/
def Once (alerts : List Alert) : Prop := alerts.Pairwise fun a b =>
  a.acknowledged = false → b.acknowledged = false → a.ruleId = b.ruleId → a.attack.ip ≠ b.attack.ip

def Alert.broadcast (alert : Alert) : Broadcast :=
  ⟨alert.id,alert.ruleId,alert.level,alert.title,alert.message,alert.createdAt⟩

/-- Each alert has been sent, or is to be sent, and is in the audit log. -/
structure Told (earlier : List Broadcast) (done : Tables × List Broadcast) : Prop where
  once : Once done.1.alerts
  sent : earlier ++ done.2 = done.1.alerts.map Alert.broadcast
  logged : done.1.audits.map AuditLog.alertId = done.1.alerts.map Alert.id

theorem handleAttack_told (told : Told earlier done) (ran : handleAttack input done attack = some done') : Told earlier done' := by
  unfold handleAttack banAndAlertInTx at ran
  dsimp only at ran
  split at ran
  · cases ran
    exact told
  · obtain ⟨bans,_,rest⟩ := map_eq_some_iff.mp ran
    split at rest
    · rw [← rest]
      exact ⟨told.once,told.sent,told.logged⟩
    · rename_i unknown
      rw [← rest]
      constructor
      · refine List.pairwise_append.mpr ⟨told.once,List.pairwise_singleton _ _,fun a old b mine => ?_⟩
        rw [List.mem_singleton.mp mine]
        intro unread _ rule address
        refine unknown (List.any_eq_true.mpr ⟨a,old,?_⟩)
        simpa [unread,address] using rule
      · rw [← List.append_assoc,told.sent,List.map_append]
        rfl
      · rw [List.map_append,told.logged,List.map_append]
        rfl

theorem handle_told (told : Told earlier done) (ran : attacks.foldlM (handleAttack input) done = some done') : Told earlier done' := by
  induction attacks generalizing done with
  | nil =>
    cases ran
    exact told
  | cons attack attacks ih =>
    obtain ⟨between,first,rest⟩ := bind_eq_some_iff.mp ran
    exact ih (handleAttack_told told first) rest

/-- The tables, and what has been sent. A detection that fails leaves both as they were. -/
def detected (done : Tables × List Broadcast) (input : Input) : Tables × List Broadcast := match detectAttacks input done.1 with
  | some (tables,toBroadcast) => (tables,done.2 ++ toBroadcast)
  | none => done

end

end Tgtc.AttackBans
