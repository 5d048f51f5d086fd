import Mathlib.Data.Rat.Lemmas
import Mathlib.Data.List.Infix
import Mathlib.Tactic.NormNum
import Mathlib.Tactic.Linarith

/-!
The errors of an upload in the client: whether one says that the server has no place free, after what
time to ask again, and whether one is worth another attempt.
-/
namespace Tgtc.UploadErrors

/-- What is read of a response. Numbers are what `Number` makes of their texts, if that is finite. -/
structure Response where
  status : Option Nat
  errorCode : Option String
  code : Option String
  retryAfterMs : Option ℚ
  /-- header `x-tgtc-error-code` -/
  errorCodeHeader : Option String
  /-- header `retry-after` -/
  retryAfterHeader : Option ℚ
deriving DecidableEq

structure ErrorNode where
  name : Option String
  code : Option String
  message : Option String
  response : Option Response
  /-- `MERGE_BUSINESS_MARKER` -/
  mergeBusiness : Bool
deriving DecidableEq

abbrev Thrown := List ErrorNode

/-- `new Error(message)` -/
def error (message : String) : Thrown := [⟨some "Error",none,some message,none,false⟩]

def createMergeBusinessError (message : String) : Thrown := [⟨some "Error",none,some message,none,true⟩]

def includes (text part : String) : Bool := decide (part.toList <:+: text.toList)

def UPLOAD_DISK_BUDGET_BUSY_CODE : String := "UPLOAD_DISK_BUDGET_BUSY"
def DEFAULT_UPLOAD_BUDGET_RETRY_AFTER_MS : ℚ := 5000
def MIN_UPLOAD_BUDGET_RETRY_AFTER_MS : ℚ := 1000
def MAX_UPLOAD_BUDGET_RETRY_AFTER_MS : ℚ := 60000
def MAX_SAFE_INTEGER : ℚ := 9007199254740991

def collectErrorChain (err : Thrown) : List ErrorNode := err.take 5

def nonEmpty (text : Option String) : Option String := text.filter fun text => text ≠ ""

def isUploadBudgetBusyNode (node : ErrorNode) : Bool :=
  match node.response with
  | none => false
  | some response =>
    if response.status.any fun status => status ≠ 429 then false
    else decide ((nonEmpty response.errorCode).or (nonEmpty response.code) = some UPLOAD_DISK_BUDGET_BUSY_CODE) ||
      decide (nonEmpty response.errorCodeHeader = some UPLOAD_DISK_BUDGET_BUSY_CODE)

def isUploadBudgetBusy (err : Thrown) : Bool := (collectErrorChain err).any isUploadBudgetBusyNode

def nodeRetryAfterMs (response : Response) : Option ℚ :=
  match response.retryAfterMs.filter fun ms => ms.isInt && |ms| ≤ MAX_SAFE_INTEGER && MIN_UPLOAD_BUDGET_RETRY_AFTER_MS ≤ ms with
  | some ms => some (min ms MAX_UPLOAD_BUDGET_RETRY_AFTER_MS)
  | none =>
    (response.retryAfterHeader.filter fun seconds => 1 ≤ seconds).map fun seconds => min (seconds * 1000) MAX_UPLOAD_BUDGET_RETRY_AFTER_MS

/-- The loop of `getUploadBudgetRetryAfterMs` -/
def retryAfterMs (busy : Bool) : List ErrorNode → Option ℚ
  | [] => if busy then some DEFAULT_UPLOAD_BUDGET_RETRY_AFTER_MS else none
  | node :: rest =>
    if isUploadBudgetBusyNode node then
      match node.response.bind nodeRetryAfterMs with
      | some ms => some ms
      | none => retryAfterMs true rest
    else retryAfterMs busy rest

def getUploadBudgetRetryAfterMs (err : Thrown) : Option ℚ := retryAfterMs false (collectErrorChain err)

theorem nodeRetryAfterMs_pos {response : Response} {ms : ℚ} (given : nodeRetryAfterMs response = some ms) : 0 < ms := by
  simp only [nodeRetryAfterMs] at given
  split at given
  · rename_i body kept
    have least := (Option.filter_eq_some_iff.mp kept).2
    simp only [Bool.and_eq_true,decide_eq_true_eq] at least
    have least : (1000 : ℚ) ≤ body := least.2
    cases given
    exact lt_min (by linarith) (by norm_num [MAX_UPLOAD_BUDGET_RETRY_AFTER_MS])
  · obtain ⟨seconds,kept,rfl⟩ := Option.map_eq_some_iff.mp given
    have least := (Option.filter_eq_some_iff.mp kept).2
    rw [decide_eq_true_eq] at least
    exact lt_min (by linarith) (by norm_num [MAX_UPLOAD_BUDGET_RETRY_AFTER_MS])

theorem retryAfterMs_pos {nodes : List ErrorNode} : ∀ {busy : Bool} {ms : ℚ},retryAfterMs busy nodes = some ms → 0 < ms := by
  induction nodes with
  | nil =>
    intro busy ms given
    cases busy with
    | false => cases given
    | true => cases given; norm_num [DEFAULT_UPLOAD_BUDGET_RETRY_AFTER_MS]
  | cons node rest ih =>
    intro busy ms given
    simp only [retryAfterMs] at given
    split at given
    · split at given
      · rename_i found
        obtain ⟨response,_,time⟩ := Option.bind_eq_some_iff.mp found
        cases given
        exact nodeRetryAfterMs_pos time
      · exact ih given
    · exact ih given

theorem getUploadBudgetRetryAfterMs_pos {err : Thrown} {ms : ℚ} (given : getUploadBudgetRetryAfterMs err = some ms) : 0 < ms :=
  retryAfterMs_pos given

inductive UploadErrorKind where
  | cancelled | server | business | transient | unknown
deriving DecidableEq

structure UploadErrorClassification where
  retryable : Bool
  kind : UploadErrorKind

def JOB_BUSINESS_MESSAGES : List String := ["上传处理超时","合并失败","服务暂时不可用，合并仍在后台进行","合并处理中"]

/-- `name` is `AbortError`, or `code` is `ERR_CANCELED`. -/
def isAbort (err : Thrown) : Bool :=
  err.head?.any fun node => decide (node.name = some "AbortError") || decide (node.code = some "ERR_CANCELED")

def classifyText (code : Option String) (message : String) : UploadErrorClassification :=
  if includes message "文件过大（超过代理层 100MB 限制）" then ⟨false,.business⟩
  else if includes message "上传超时（CDN 代理层" || includes message "源站暂时不可用" || includes message "CDN 代理层错误" then
    ⟨true,.transient⟩
  else if JOB_BUSINESS_MESSAGES.any (includes message) then ⟨false,.business⟩
  else if decide (code = some "ERR_NETWORK") || decide (code = some "ECONNABORTED") || decide (code = some "ETIMEDOUT") ||
      includes message "Network Error" || includes message "timeout" then ⟨true,.transient⟩
  else ⟨false,.unknown⟩

def classifyUploadError (err : Thrown) : UploadErrorClassification :=
  let node := err.head?
  let message := (node.bind ErrorNode.message).getD ""
  if isAbort err || decide (node.bind ErrorNode.name = some "CanceledError") || includes message "上传已取消" then ⟨false,.cancelled⟩
  else if node.any ErrorNode.mergeBusiness then ⟨false,.business⟩
  else match (node.bind ErrorNode.response).bind Response.status with
    | some status => if status = 429 then ⟨true,.transient⟩ else if 500 ≤ status then ⟨false,.server⟩ else ⟨false,.business⟩
    | none => classifyText (node.bind ErrorNode.code) message

end Tgtc.UploadErrors
