import Mathlib.Data.List.DropRight
import Tgtc.Runs

/-!
The rules of the mirrors. A rule relays the messages of the main chat to a mirror chat.
-/
namespace Tgtc.MirrorRules
open Runs

def blank (c : Char) : Bool := (9 ≤ c.toNat && c.toNat ≤ 13) || (0x2000 ≤ c.toNat && c.toNat ≤ 0x200a) ||
  c.toNat ∈ [32,0xa0,0x1680,0x2028,0x2029,0x202f,0x205f,0x3000,0xfeff]

def trim (text : String) : String := String.ofList ((text.toList.dropWhile blank).rdropWhile blank)

/-- `TelegramMirrorTestStatus` -/
inductive TestStatus where
  | untested | ok | failed
deriving DecidableEq

/-- `TelegramMirrorRule` -/
structure Rule where
  id : Nat
  enabled : Bool
  name : String
  sourceChatId : String
  targetChatId : String
  preferredAccountId : Option String
  includeWebUploads : Bool
  includeBotInboundFiles : Bool
  lastTestStatus : TestStatus
  lastTestSummary : Option String
  checked : Option (String × String)

def Rule.chats (rule : Rule) : String × String := (rule.sourceChatId,rule.targetChatId)

/-- `MirrorRuleInput`; what is undefined stays. -/
structure RuleInput where
  name : Option String
  sourceChatId : Option String
  targetChatId : Option String
  preferredAccountId : Option (Option String)
  includeWebUploads : Option Bool
  includeBotInboundFiles : Option Bool

def named (text : Option String) : Option String := (text.map trim).filter fun id => id ≠ ""

def Rule.assign (rule : Rule) (input : RuleInput) : Rule :=
  { rule with
    name := (input.name.map trim).getD rule.name
    sourceChatId := (input.sourceChatId.map trim).getD rule.sourceChatId
    targetChatId := (input.targetChatId.map trim).getD rule.targetChatId
    preferredAccountId := (input.preferredAccountId.map named).getD rule.preferredAccountId
    includeWebUploads := input.includeWebUploads.getD rule.includeWebUploads
    includeBotInboundFiles := input.includeBotInboundFiles.getD rule.includeBotInboundFiles }

def Rule.forget (rule : Rule) (input : RuleInput) : Rule :=
  if input.sourceChatId.isSome || input.targetChatId.isSome then
    { rule with lastTestStatus := .untested, lastTestSummary := none } else rule

inductive Refusal where
  | notFound (text : String)
  | badRequest (text : String)
deriving DecidableEq

structure BotAccount where
  name : String
  primaryChatId : Option String

inductive AccountStatus where
  | pendingAuth | revoked | other
deriving DecidableEq

structure Account where
  enabled : Bool
  status : AccountStatus

structure Accounts where
  bots : List BotAccount
  findById : String → Option Account

def validateShape (accounts : Accounts) (rule : Rule) : Except Refusal Unit := do
  if trim rule.name = "" then throw (.badRequest "规则名称不能为空")
  if trim rule.sourceChatId = "" then throw (.badRequest "必须配置主群（源群，副本扩散的中转落点）")
  if trim rule.targetChatId = "" then throw (.badRequest "必须配置镜像群（备份群）")
  if rule.sourceChatId = rule.targetChatId then throw (.badRequest "镜像群不能与主群相同，中转落点与备份必须分离")
  match accounts.bots.find? fun bot => bot.primaryChatId = some rule.targetChatId with
  | some bot => throw (.badRequest ("镜像群不能是 Bot 账号「" ++ bot.name ++ "」的主存储 Chat（会造成消息归属混淆）"))
  | none => match rule.preferredAccountId with
    | none => pure ()
    | some id => match accounts.findById id with
      | none => throw (.badRequest "优先账号不存在")
      | some account =>
        if account.enabled = false ∨ account.status = .revoked ∨ account.status = .pendingAuth then
          throw (.badRequest "优先账号当前不可用（未启用/已撤销/待授权）")

def foreign (rules : List Rule) (rule : Rule) : List String :=
  ((((rules.filter fun other => other.enabled && other.id ≠ rule.id).map fun other => trim other.sourceChatId).filter
    fun id => id ≠ "").filter fun id => id ≠ trim rule.sourceChatId).eraseDups

def assertMainChatShared (rules : List Rule) (rule : Rule) : Except Refusal Unit :=
  if foreign rules rule = [] then pure ()
  else throw (.badRequest ("主群必须与其它启用规则一致：当前规则的主群是 " ++ trim rule.sourceChatId ++ "，已启用规则使用的是 "
    ++ String.intercalate "、" (foreign rules rule)
    ++ "；所有启用规则共用同一个主群（副本扩散的中转落点），请先统一源群或停用冲突规则"))

inductive Role where
  | source | target
deriving DecidableEq

structure Detail where
  chat : Role
  ok : Bool
  title : Option String
  type : Option String
  error : Option String

structure ChatInfo where
  title : Option String
  type : Option String

/-- `checkChatAccess` -/
structure Access where
  canWrite : Bool
  info : ChatInfo

inductive UserProbe where
  | unavailable
  | noAccount
  | threw (message : String)
  | accessed (source : Access) (target : Except String Access)

structure Probe where
  bot : Option String
  getChat : Role → Except String ChatInfo
  user : UserProbe

def clip (length : Nat) (text : String) : String := String.ofList (text.toList.take length)

def botDetail (probe : Probe) (chat : Role) : Detail := match probe.getChat chat with
  | .ok info => ⟨chat,true,info.title,info.type,none⟩
  | .error message => ⟨chat,false,none,none,some (clip 200 message)⟩

def accessDetail (chat : Role) (access : Access) : Detail :=
  let ok := access.canWrite || chat = .source
  ⟨chat,ok,access.info.title,access.info.type,if ok then none else some "用户账号无写入权限"⟩

def userFailed (message : String) : Detail := ⟨.target,false,none,none,some ("用户账号探测失败：" ++ clip 160 message)⟩

def userDetails : UserProbe → List Detail
  | .unavailable => []
  | .noAccount => [⟨.source,false,none,none,some "没有可用的用户账号（未授权或未启用）"⟩]
  | .threw message => [userFailed message]
  | .accessed source (.ok target) => [accessDetail .source source,accessDetail .target target]
  | .accessed source (.error message) => [accessDetail .source source,userFailed message]

def testDetails (probe : Probe) : List Detail := botDetail probe .source :: botDetail probe .target :: userDetails probe.user

def testOk (probe : Probe) : Bool := probe.bot.isSome && (testDetails probe).all Detail.ok

def relayHint : String := "；副本认领前提：镜像群内**每个 Bot 都需关闭隐私模式或设为管理员**，且中继用户账号需同时是主群与镜像群成员"

def testSummary (probe : Probe) : String := match probe.bot with
  | none => "没有可用的 Bot 账号（请先在账号池中添加并启用至少一个 Bot，或配置 TELEGRAM_BOT_TOKEN）"
  | some accountId => clip 500 ((if testOk probe then "权限测试通过（Bot 账号 " ++ accountId ++ " 可访问主群与镜像群）"
      else String.intercalate "；" (((testDetails probe).filter fun item => ¬ item.ok).map fun item =>
        (if item.chat = .source then "主群" else "镜像群") ++ "不可用：" ++ item.error.getD "未知原因")) ++ relayHint)

structure TestResult where
  status : TestStatus
  summary : String
  details : List Detail

structure State where
  rules : List Rule
  nextId : Nat

def State.start : State := ⟨[],0⟩

def State.getRuleById (s : State) (id : Nat) : Option Rule := s.rules.find? fun rule => rule.id = id

def State.save (s : State) (rule : Rule) : State := { s with rules := s.rules.map fun other => if other.id = rule.id then rule else other }

def missing : Refusal := .notFound "镜像规则不存在"

/-- The rule that `create` begins with. -/
def fresh (id : Nat) : Rule := ⟨id,false,"镜像规则","","",none,true,true,.untested,none,none⟩

def create (s : State) (input : RuleInput) (accounts : Accounts) : State × Except Refusal Rule :=
  let next := (fresh s.nextId).assign input
  match validateShape accounts next with
  | .error refusal => (s,.error refusal)
  | .ok _ =>
    let saved := next.forget input
    ({ s with rules := s.rules ++ [saved], nextId := s.nextId + 1 },.ok saved)

def updateRule (s : State) (id : Nat) (input : RuleInput) (accounts : Accounts) : State × Except Refusal Rule :=
  match s.getRuleById id with
  | none => (s,.error missing)
  | some rule =>
    let next := rule.assign input
    match validateShape accounts next with
    | .error refusal => (s,.error refusal)
    | .ok _ =>
      let saved := next.forget input
      (s.save saved,.ok saved)

def removeRule (s : State) (id pending : Nat) : State × Except Refusal Unit := match s.getRuleById id with
  | none => (s,.error missing)
  | some rule =>
    if rule.enabled then (s,.error (.badRequest "规则正在启用中，请先停用再删除（避免在途任务失去目标）"))
    else if 0 < pending then
      (s,.error (.badRequest ("该规则还有 " ++ pending.repr ++ " 个在途任务（排队/执行中/重试中），请等待收尾后再删除")))
    else ({ s with rules := s.rules.filter fun other => other.id ≠ id },.ok ())

def enabling (s : State) (rule : Rule) (accounts : Accounts) : Except Refusal Unit := do
  validateShape accounts rule
  if rule.lastTestStatus ≠ .ok then
    throw (.badRequest "规则尚未通过主群/镜像群权限测试，无法启用；请先执行「测试权限」并在通过后再开启")
  assertMainChatShared s.rules rule

def setEnabled (s : State) (id : Nat) (enabled : Bool) (accounts : Accounts) : State × Except Refusal Rule :=
  match s.getRuleById id with
  | none => (s,.error missing)
  | some rule => match if enabled then enabling s rule accounts else .ok () with
    | .error refusal => (s,.error refusal)
    | .ok _ =>
      let saved := { rule with enabled }
      (s.save saved,.ok saved)

def Rule.mark (rule : Rule) (status : TestStatus) (summary : String) : Rule :=
  { rule with
    lastTestStatus := status
    lastTestSummary := some (clip 500 summary)
    checked := if status = .ok then some rule.chats else rule.checked }

def testRule (s : State) (id : Nat) (accounts : Accounts) (probe : Probe) : State × Except Refusal TestResult :=
  match s.getRuleById id with
  | none => (s,.error missing)
  | some rule => match validateShape accounts rule with
    | .error refusal => (s,.error refusal)
    | .ok _ =>
      let status : TestStatus := if testOk probe then .ok else .failed
      (s.save (rule.mark status (testSummary probe)),
        .ok ⟨status,testSummary probe,if probe.bot.isSome then testDetails probe else []⟩)

inductive Label where
  | create (input : RuleInput) (accounts : Accounts)
  | update (id : Nat) (input : RuleInput) (accounts : Accounts)
  | remove (id pending : Nat)
  | setEnabled (id : Nat) (enabled : Bool) (accounts : Accounts)
  | test (id : Nat) (accounts : Accounts) (probe : Probe)

def step (s : State) : Label → State
  | .create input accounts => (create s input accounts).1
  | .update id input accounts => (updateRule s id input accounts).1
  | .remove id pending => (removeRule s id pending).1
  | .setEnabled id enabled accounts => (setEnabled s id enabled accounts).1
  | .test id accounts probe => (testRule s id accounts probe).1

end Tgtc.MirrorRules
