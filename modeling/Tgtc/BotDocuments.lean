import Tgtc.AccountPool
import Tgtc.Runs

/-!
Documents that are sent to the Bots of the pool: the grant of the message is looked for, the quota of the sender
charged, a grant issued and its link replied. A call that fails leaves the tables as they are.
-/
namespace Tgtc.BotDocuments
open Maps Runs
open AccountPool (trim orElse)

/-- `TelegramDocument` -/
structure Document where
  file_id : String
  file_unique_id : Option String
  file_name : Option String
  mime_type : Option String
  file_size : Option Nat

/-- `TelegramBotIdentity` -/
structure Identity where
  telegramUserId : String
  username : Option String
  displayName : Option String

structure Message where
  identity : Identity
  document : Document

def sanitizePlain (value : Option String) (maxLength : Nat) : Option String :=
  let cleaned := trim (String.ofList ((value.getD "").toList.filter fun c => decide (0x20 ≤ c.toNat) && c.toNat ≠ 0x7F))
  if cleaned = "" then none else some (String.ofList (cleaned.toList.take maxLength))

structure TokenCrypto where
  hashToken : String → String
  encrypt : String → Option String
  decrypt : String → Option String
  faithful : ∀ token cipher, encrypt token = some cipher → ∀ token', decrypt cipher = some token' → token' = token

structure Env where
  messageOf : (account chatId messageId : String) → Message
  crypto : TokenCrypto
  /-- `getBusinessDate` -/
  businessDate : (timezone : String) → (now : Nat) → String
  isValidSiteOrigin : String → Bool
  normalizeOrigin : String → String
  APP_URL : String

/-- `TelegramBotFileGrant` -/
structure Grant where
  telegramUserId : String
  telegramUsername : Option String
  telegramDisplayName : Option String
  chatId : String
  messageId : String
  telegramFileId : String
  fileUniqueId : Option String
  sourceAccountId : String
  fileName : Option String
  mimeType : Option String
  fileSize : Option Nat
  tokenHash : String
  tokenCipher : Option String
  expiresAt : Nat
  revokedAt : Option Nat
deriving DecidableEq

/-- `uq_tg_bot_grants_message` -/
def Grant.key (grant : Grant) : String × String × String := (grant.telegramUserId,grant.chatId,grant.messageId)

/-- `TelegramBotRuntimeConfig` -/
structure Config where
  linkTtlHours : Nat
  dailyLimit : Nat
  quotaTimezone : String
  manual : Bool
  linkDomain : String
deriving DecidableEq

/-- `resolveSiteOriginAsync`, when there is no request. -/
def resolveSiteOrigin (env : Env) (config : Config) : Option String :=
  let origin := if config.manual then config.linkDomain else env.APP_URL
  if env.isValidSiteOrigin origin then some (env.normalizeOrigin origin) else none

abbrev DailyUsage := OrderedMap (String × String) Nat

/-- `getUsed` -/
def getUsed (usage : DailyUsage) (user date : String) : Nat := (usage.get (user,date)).getD 0

def ensureUsageRow (usage : DailyUsage) (user date : String) : DailyUsage := match usage.get (user,date) with
  | none => usage.set (user,date) 0
  | some _ => usage

/-- The conditional update of `consume`; nothing when no row has been affected. -/
def consume (usage : DailyUsage) (user date : String) (limit : Nat) : Option DailyUsage := match usage.get (user,date) with
  | some issuedCount => if issuedCount < limit then some (usage.set (user,date) (issuedCount + 1)) else none
  | none => none

def refund (usage : DailyUsage) (user date : String) : DailyUsage := match usage.get (user,date) with
  | some issuedCount => if 0 < issuedCount then usage.set (user,date) (issuedCount - 1) else usage
  | none => usage

def isWhitelisted (whitelist : OrderedMap String Bool) (user : String) : Bool := whitelist.get user = some true

def findByMessage (grants : List Grant) (key : String × String × String) : Option Grant := grants.find? fun grant => grant.key = key

def findByToken (crypto : TokenCrypto) (grants : List Grant) (token : String) : Option Grant :=
  grants.find? fun grant => grant.tokenHash = crypto.hashToken token

def isActive (grant : Grant) (now : Nat) : Bool := grant.revokedAt.isNone && decide (now < grant.expiresAt)

def replayToken (crypto : TokenCrypto) (grant : Grant) : Option String := grant.tokenCipher.bind crypto.decrypt

def insertGrant (grants : List Grant) (grant : Grant) : Option (List Grant) :=
  if grants.any fun other => other.key = grant.key || other.tokenHash = grant.tokenHash then none else some (grants ++ [grant])

inductive Reply where
  | replayed (origin token : String) (expiresAt : Nat)
  | expired
  | unconfigured
  | exhausted (dailyLimit : Nat)
  | issued (fileName : Option String) (linkTtlHours : Nat) (origin token : String)
  | internalError
deriving DecidableEq

def stripSlashes (origin : String) : String := String.ofList (origin.toList.reverse.dropWhile (· = '/')).reverse

def buildUrl (origin token : String) : String := stripSlashes origin ++ "/api/bot-dl/" ++ token

def Reply.text (date : Nat → String) : Reply → String
  | .replayed origin token expiresAt => "该文件的下载链接：\n" ++ buildUrl origin token ++ "\n（有效期至 " ++ date expiresAt ++ "）"
  | .expired => "该文件的链接已失效（过期或已撤销），请重新发送文件以获取新链接。"
  | .unconfigured => "服务暂不可用：管理员尚未配置站点域名（直链域名）。请联系管理员在后台「Telegram Bot 设置」中配置。"
  | .exhausted dailyLimit => "今日额度已用完（" ++ toString dailyLimit ++ " 个文件/天）。明日将自动重置，或联系管理员加入白名单。"
  | .issued fileName linkTtlHours origin token => "文件已收到：" ++ orElse (fileName.getD "") "(未命名)" ++ "\n下载直链（" ++ toString linkTtlHours ++
      " 小时内有效，仅受时间限制）：\n" ++ buildUrl origin token
  | .internalError => "内部错误：生成下载链接失败，请稍后重试。"

def Reply.token : Reply → Option String
  | .replayed _ token _ | .issued _ _ _ token => some token
  | _ => none

structure Terms where
  origin : String
  config : Config
  usageDate : String
deriving DecidableEq

inductive Stage where
  | looking
  | replaying (existing : Grant)
  | auditing
  | resolving
  | configuring (origin : String)
  | judging (terms : Terms)
  | ensuring (terms : Terms)
  | charging (terms : Terms)
  | denying (terms : Terms)
  | metering (terms : Terms) (quotaConsumed : Bool)
  | issuing (terms : Terms) (quotaConsumed : Bool)
  | refunding (terms : Terms)
  | answered (reply : Reply)
  | dropped
deriving DecidableEq

structure Handler where
  account : String
  chatId : String
  messageId : String
  stage : Stage

def Handler.message (env : Env) (h : Handler) : Message := env.messageOf h.account h.chatId h.messageId

def Handler.user (env : Env) (h : Handler) : String := (h.message env).identity.telegramUserId

def Handler.key (env : Env) (h : Handler) : String × String × String := (h.user env,h.chatId,h.messageId)

def Handler.answer (h : Handler) : Option Reply := match h.stage with
  | .answered reply => some reply
  | _ => none

def Handler.link (h : Handler) : Option String := h.answer.bind Reply.token

def Handler.done (h : Handler) : Bool := match h.stage with
  | .answered _ | .dropped => true
  | _ => false

/-- The grant that `issue` saves. -/
def newGrant (env : Env) (h : Handler) (ttlHours now : Nat) (token : String) : Grant :=
  let message := h.message env
  { telegramUserId := message.identity.telegramUserId
    telegramUsername := message.identity.username
    telegramDisplayName := message.identity.displayName
    chatId := h.chatId
    messageId := h.messageId
    telegramFileId := message.document.file_id
    fileUniqueId := message.document.file_unique_id
    sourceAccountId := h.account
    fileName := sanitizePlain message.document.file_name 255
    mimeType := sanitizePlain message.document.mime_type 128
    fileSize := message.document.file_size.filter (0 < ·)
    tokenHash := env.crypto.hashToken token
    tokenCipher := env.crypto.encrypt token
    expiresAt := now + ttlHours * 60 * 60 * 1000
    revokedAt := none }

/-- What `telegram_bot_link_issued` tells of a grant. -/
structure LinkIssued where
  telegramUserId : String
  quotaDate : String
  viaWhitelist : Bool

structure Charge where
  used : Nat
  limit : Nat

structure State where
  grants : List Grant
  usage : DailyUsage
  whitelist : OrderedMap String Bool
  config : Config
  now : Nat
  handlers : List Handler
  issues : List LinkIssued
  charges : List Charge

def State.start (config : Config) : State := ⟨[],.empty,.empty,config,0,[],[],[]⟩

inductive Label where
  | tick (ms : Nat)
  | configure (config : Config)
  | whitelist (user : String) (enabled : Bool)
  | revoke (key : String × String × String)
  | deliver (account chatId messageId : String)
  /-- the call that a handler waits for succeeds; `token` is what comes of the random bytes -/
  | go (i : Nat) (token : String)
  | fail (i : Nat)

def State.goes (s : State) (i : Nat) (h : Handler) (stage : Stage) : State :=
  { s with handlers := s.handlers.set i { h with stage } }

def replay (env : Env) (config : Config) (now : Nat) (existing : Grant) : Reply :=
  match replayToken env.crypto existing, resolveSiteOrigin env config with
  | some token, some origin => if isActive existing now then .replayed origin token existing.expiresAt else .expired
  | _, _ => .expired

def issue (env : Env) (s : State) (i : Nat) (h : Handler) (terms : Terms) (quotaConsumed : Bool) (token : String) : State :=
  match insertGrant s.grants (newGrant env h terms.config.linkTtlHours s.now token) with
  | some grants =>
    { s.goes i h (.answered (.issued (h.message env).document.file_name terms.config.linkTtlHours terms.origin token)) with
      grants, issues := s.issues ++ [⟨h.user env,terms.usageDate,!quotaConsumed⟩] }
  | none => s.goes i h (if quotaConsumed then .refunding terms else .answered .internalError)

/-- The call of `h` succeeds. -/
def proceed (env : Env) (s : State) (i : Nat) (h : Handler) (token : String) : State := match h.stage with
  | .looking => match findByMessage s.grants (h.key env) with
    | some existing => s.goes i h (.replaying existing)
    | none => s.goes i h .auditing
  | .replaying existing => s.goes i h (.answered (replay env s.config s.now existing))
  | .auditing => s.goes i h .resolving
  | .resolving => match resolveSiteOrigin env s.config with
    | some origin => s.goes i h (.configuring origin)
    | none => s.goes i h (.answered .unconfigured)
  | .configuring origin => s.goes i h (.judging ⟨origin,s.config,env.businessDate s.config.quotaTimezone s.now⟩)
  | .judging terms => s.goes i h (if isWhitelisted s.whitelist (h.user env) then .metering terms false else .ensuring terms)
  | .ensuring terms => { s.goes i h (.charging terms) with usage := ensureUsageRow s.usage (h.user env) terms.usageDate }
  | .charging terms => match consume s.usage (h.user env) terms.usageDate terms.config.dailyLimit with
    | some usage => { s.goes i h (.metering terms true) with
        usage, charges := s.charges ++ [⟨getUsed usage (h.user env) terms.usageDate,s.config.dailyLimit⟩] }
    | none => s.goes i h (.denying terms)
  | .denying terms => s.goes i h (.answered (.exhausted terms.config.dailyLimit))
  | .metering terms quotaConsumed => s.goes i h (.issuing terms quotaConsumed)
  | .issuing terms quotaConsumed => issue env s i h terms quotaConsumed token
  | .refunding terms => { s.goes i h (.answered .internalError) with usage := refund s.usage (h.user env) terms.usageDate }
  | .answered _ | .dropped => s

/-- The call of `h` fails. Only the saving of the grant is within the `try`; the refund works. -/
def failed (env : Env) (s : State) (i : Nat) (h : Handler) : State := match h.stage with
  | .issuing terms quotaConsumed => s.goes i h (if quotaConsumed then .refunding terms else .answered .internalError)
  | .refunding _ => proceed env s i h ""
  | .answered _ | .dropped => s
  | _ => s.goes i h .dropped

def arrive (env : Env) (account chatId messageId : String) : Handler :=
  ⟨account,chatId,messageId,if (env.messageOf account chatId messageId).document.file_id = "" then .dropped else .looking⟩

def step (env : Env) (s : State) : Label → State
  | .tick ms => { s with now := s.now + ms }
  | .configure config => { s with config }
  | .whitelist user enabled => { s with whitelist := s.whitelist.set user enabled }
  | .revoke key => { s with grants := s.grants.map fun grant =>
      if grant.key = key then { grant with revokedAt := grant.revokedAt.or (some s.now) } else grant }
  | .deliver account chatId messageId => { s with handlers := s.handlers ++ [arrive env account chatId messageId] }
  | .go i token => match s.handlers[i]? with
    | some h => proceed env s i h token
    | none => s
  | .fail i => match s.handlers[i]? with
    | some h => failed env s i h
    | none => s

def Stage.held : Stage → Option Terms
  | .metering terms true | .issuing terms true | .refunding terms => some terms
  | _ => none

def Stage.offered : Stage → Option Nat
  | .judging terms | .ensuring terms | .charging terms => some terms.config.dailyLimit
  | _ => none

def Stage.Silent : Stage → Prop
  | .replaying _ => False
  | .answered reply => reply.token = none
  | _ => True

inductive Move (env : Env) (s : State) : Label → State → Prop
  | tick {ms} : Move env s (.tick ms) { s with now := s.now + ms }
  | configure {config} : Move env s (.configure config) { s with config }
  | whitelist {user enabled whitelist} : Move env s (.whitelist user enabled) { s with whitelist }
  | revoke {key} (till : Option Nat → Option Nat) : Move env s (.revoke key) { s with
      grants := s.grants.map fun grant => if grant.key = key then { grant with revokedAt := till grant.revokedAt } else grant }
  | deliver {account chatId messageId} :
      Move env s (.deliver account chatId messageId) { s with handlers := s.handlers ++ [arrive env account chatId messageId] }
  | found {i token h existing} (there : s.handlers[i]? = some h) (looking : h.stage = .looking)
      (found : findByMessage s.grants (h.key env) = some existing) : Move env s (.go i token) (s.goes i h (.replaying existing))
  | replay {i token h existing} (there : s.handlers[i]? = some h) (replaying : h.stage = .replaying existing) :
      Move env s (.go i token) (s.goes i h (.answered (replay env s.config s.now existing)))
  | configured {i token h origin date} (there : s.handlers[i]? = some h) (configuring : h.stage = .configuring origin) :
      Move env s (.go i token) (s.goes i h (.judging ⟨origin,s.config,date⟩))
  | ensure {i token h terms} (there : s.handlers[i]? = some h) (ensuring : h.stage = .ensuring terms) :
      Move env s (.go i token) { s.goes i h (.charging terms) with usage := ensureUsageRow s.usage (h.user env) terms.usageDate }
  | charge {i token h terms usage} (there : s.handlers[i]? = some h) (charging : h.stage = .charging terms)
      (charged : consume s.usage (h.user env) terms.usageDate terms.config.dailyLimit = some usage) :
      Move env s (.go i token) { s.goes i h (.metering terms true) with
        usage, charges := s.charges ++ [⟨getUsed usage (h.user env) terms.usageDate,s.config.dailyLimit⟩] }
  | lose {i h terms} (there : s.handlers[i]? = some h) (metering : h.stage = .metering terms true) :
      Move env s (.fail i) (s.goes i h .dropped)
  | issue {i token h terms quotaConsumed grants} (there : s.handlers[i]? = some h) (issuing : h.stage = .issuing terms quotaConsumed)
      (saved : insertGrant s.grants (newGrant env h terms.config.linkTtlHours s.now token) = some grants) :
      Move env s (.go i token) { s.goes i h (.answered (.issued (h.message env).document.file_name terms.config.linkTtlHours terms.origin token)) with
        grants, issues := s.issues ++ [⟨h.user env,terms.usageDate,!quotaConsumed⟩] }
  | refund {l i h terms} (there : s.handlers[i]? = some h) (refunding : h.stage = .refunding terms) :
      Move env s l { s.goes i h (.answered .internalError) with usage := refund s.usage (h.user env) terms.usageDate }
  | pass {l i h stage} (there : s.handlers[i]? = some h) (silent : stage.Silent) (held : stage.held = h.stage.held)
      (offered : ∀ limit ∈ stage.offered, limit ∈ h.stage.offered) : Move env s l (s.goes i h stage)
  | stay {l} : Move env s l s

section
variable {env : Env} {s : State} {i : Nat} {h : Handler}

theorem proceed_moves (there : s.handlers[i]? = some h) (token : String) : Move env s (.go i token) (proceed env s i h token) := by
  unfold proceed
  split
  · next looking =>
    split
    · next existing found => exact .found there looking found
    · exact .pass there trivial (by simp [looking,Stage.held]) nofun
  · next existing replaying => exact .replay there replaying
  · next auditing => exact .pass there trivial (by simp [auditing,Stage.held]) nofun
  · next resolving =>
    split
    · exact .pass there trivial (by simp [resolving,Stage.held]) nofun
    · exact .pass there rfl (by simp [resolving,Stage.held]) nofun
  · next origin configuring => exact .configured there configuring
  · next terms judging =>
    split
    · exact .pass there trivial (by simp [judging,Stage.held]) nofun
    · exact .pass there trivial (by simp [judging,Stage.held]) (by simp [judging,Stage.offered])
  · next terms ensuring => exact .ensure there ensuring
  · next terms charging =>
    split
    · next usage charged => exact .charge there charging charged
    · exact .pass there trivial (by simp [charging,Stage.held]) nofun
  · next terms denying => exact .pass there rfl (by simp [denying,Stage.held]) nofun
  · next terms quotaConsumed metering =>
    refine .pass there trivial ?_ nofun
    cases quotaConsumed <;> simp [metering,Stage.held]
  · next terms quotaConsumed issuing =>
    unfold issue
    split
    · next grants saved => exact .issue there issuing saved
    · cases quotaConsumed with
      | true => exact .pass there trivial (by simp [issuing,Stage.held]) nofun
      | false => exact .pass there rfl (by simp [issuing,Stage.held]) nofun
  · next terms refunding => exact .refund there refunding
  · exact .stay
  · exact .stay

theorem failed_moves (there : s.handlers[i]? = some h) : Move env s (.fail i) (failed env s i h) := by
  unfold failed
  split
  · next terms quotaConsumed issuing =>
    cases quotaConsumed with
    | true => exact .pass there trivial (by simp [issuing,Stage.held]) nofun
    | false => exact .pass there rfl (by simp [issuing,Stage.held]) nofun
  · next terms refunding =>
    simp only [proceed,refunding]
    exact .refund there refunding
  · exact .stay
  · exact .stay
  · next notIssuing notRefunding _ _ =>
    cases held : h.stage.held with
    | none => exact .pass there trivial held.symm nofun
    | some terms =>
      cases stage : h.stage with
      | metering terms quotaConsumed =>
        cases quotaConsumed with
        | true => exact .lose there stage
        | false => simp [stage,Stage.held] at held
      | issuing terms quotaConsumed => exact absurd stage (notIssuing _ _)
      | refunding terms => exact absurd stage (notRefunding _)
      | _ => simp [stage,Stage.held] at held

theorem step_moves (env : Env) (s : State) (l : Label) : Move env s l (step env s l) := by
  cases l with
  | tick ms => exact .tick
  | configure config => exact .configure
  | whitelist user enabled => exact .whitelist
  | revoke key => exact .revoke fun revokedAt => revokedAt.or (some s.now)
  | deliver account chatId messageId => exact .deliver
  | go i token =>
    unfold step
    dsimp only
    split
    · next h there => exact proceed_moves there token
    · exact .stay
  | fail i =>
    unfold step
    dsimp only
    split
    · next h there => exact failed_moves there
    · exact .stay

end
end Tgtc.BotDocuments
