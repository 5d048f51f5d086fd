import Tgtc.AccountAttempts
import Tgtc.FileCopies

/-!
Opening a file at its source. The accounts that have a ready copy are tried one after the other, and after them the
account that uploaded the file; each is asked under an admission of the pool.
-/
namespace Tgtc.SourceStreams
open Maps Runs Numbers AccountPool
open AccountAttempts (FailureKind Sample Request admitRequest settle isLargeFileBytes)
open FileCopies (OwnerType CopyStatus)
open List (append_nil length_append mem_append mem_singleton nodup_append not_mem_nil)

/-- `TelegramFileCopy`, as far as it is read here. -/
structure Copy where
  ownerType : OwnerType
  ownerId : String
  accountId : String
  telegramFileId : String
  status : CopyStatus
deriving DecidableEq

def listReady (table : List Copy) (ownerType : OwnerType) (ownerId : String) : List Copy :=
  table.filter (fun row => row.ownerType = ownerType && row.ownerId = ownerId && row.status = .ready)

structure File where
  filename : String
  telegramFileId : String
  telegramFileUniqueId : Option String
  telegramSourceAccountId : Option String

def File.fileId (file : File) : String := orElse file.telegramFileId file.filename

def File.uniqueId (file : File) : String := trim (file.telegramFileUniqueId.getD "")

def File.sourceAccountId (file : File) : String := trim (file.telegramSourceAccountId.getD "")

def defaultBotAccountId (botToken : String) : Option String :=
  let token := trim botToken
  let botId := String.ofList (token.toList.takeWhile (· ≠ ':'))
  if botId ≠ "" && token.toList.contains ':' then some botId else none

/-- A call of `openTelegramSourceStream`, and the services that are there. -/
structure Call where
  file : File
  expectedSize : Number
  botToken : String
  hasDownload : Bool
  hasCopies : Bool
  streamingEnabled : Bool

def Call.defaultAccountId (c : Call) : Option String := defaultBotAccountId c.botToken

def Call.fallbackAccountId (c : Call) : Option String :=
  if c.file.sourceAccountId ≠ "" then some c.file.sourceAccountId else c.defaultAccountId

def Call.requiresSourceAccount (c : Call) : Bool :=
  c.file.sourceAccountId ≠ "" && some c.file.sourceAccountId ≠ c.defaultAccountId

def Call.request (c : Call) (accountId : String) : Request := ⟨accountId,some .download,some c.expectedSize,false⟩

/-! ### The course of a call -/

inductive Bot where
  | account (config : Config)
  | main
deriving DecidableEq

inductive Cause where
  | copy (accountId : String)
  | source
  | standard
deriving DecidableEq

structure Upstream where
  bot : Bot
  fileId : String
  cause : Cause
deriving DecidableEq

inductive Phase where
  | calling
  | listing
  | relisting
  | choosing
  | opening (admission : Nat) (accountId : String)
  | sourcing (admission : Nat)
  | standard
  | streaming (admission : Option Nat) (settled : Bool)
  | refused
  | failed
deriving DecidableEq

structure State where
  shared : AccountAttempts.State
  enabled : Bool
  table : List Copy
  phase : Phase
  ready : List Copy
  excluded : List String
  attempts : Nat
  granted : List Nat
  returned : List Nat
  issued : List Upstream

def initial (shared : AccountAttempts.State) (enabled : Bool) (table : List Copy) : State :=
  ⟨shared,enabled,table,.calling,[],[],0,[],[],[]⟩

def State.pool (s : State) : Pool := s.shared.pool

def State.isActive (c : Call) (s : State) : Bool := c.hasDownload && s.enabled && !s.pool.runtimes.entries.isEmpty

def State.issue (s : State) (shared : AccountAttempts.State) (upstream : Upstream) (phase : Nat → Phase) : State :=
  let n := s.shared.admissions.length
  { s with shared, granted := s.granted ++ [n], issued := s.issued ++ [upstream], phase := phase n }

/-- `finish` or `release` of an admission. -/
def State.giveBack (s : State) (n : Nat) (sample : Option (Int × Sample)) (phase : Phase) : State :=
  { s with shared := settle s.shared n sample, returned := s.returned ++ [n], phase }

def State.openSourceStream (c : Call) (s : State) (accountId : String) (now : Int) : State :=
  match s.pool.config accountId with
  | none => { s with phase := .refused }
  | some account =>
    if account.enabled = false then { s with phase := .refused }
    else match admitRequest s.shared (c.request account.id) now with
      | .error _ => { s with phase := .refused }
      | .ok shared =>
        let bot := if some accountId = c.defaultAccountId then Bot.main else .account account
        s.issue shared ⟨bot,c.file.fileId,.source⟩ .sourcing

def State.fallback (c : Call) (s : State) (now : Int) : State :=
  match c.fallbackAccountId with
  | some accountId =>
    if s.isActive c && (c.requiresSourceAccount || (s.pool.config accountId).isSome) then
      s.openSourceStream c accountId now
    else if c.requiresSourceAccount then { s with phase := .refused }
    else { s with issued := s.issued ++ [⟨.main,c.file.fileId,.standard⟩], phase := .standard }
  | none => { s with issued := s.issued ++ [⟨.main,c.file.fileId,.standard⟩], phase := .standard }

def State.openTelegramSourceStream (c : Call) (s : State) (now : Int) : State :=
  if s.isActive c && c.hasCopies && c.file.uniqueId ≠ "" then { s with phase := .listing } else s.fallback c now

/-- `openStream`, up to its own list of the copies. -/
def State.openStream (c : Call) (s : State) (now : Int) : State :=
  if s.isActive c && c.streamingEnabled then { s with phase := .relisting } else s.fallback c now

def State.copies (c : Call) (s : State) : List Copy := listReady s.table .fileUnique c.file.uniqueId

def State.readyAccountIds (s : State) : List String := (s.ready.map Copy.accountId).eraseDups

def State.candidateIds (s : State) : List String := s.readyAccountIds.filter (· ∉ s.excluded)

def maxAccountAttempts : Nat := 8

/-- `isSchedulable`. -/
def schedulable (largeFile : Bool) (now : Int) (r : Runtime) : Bool :=
  r.config.enabled && decide (r.inflight < r.config.maxInflight) && decide (r.cooldownUntilMs ≤ now) &&
    !(largeFile && decide (maxLargeInflightOf r.config ≤ r.largeInflight))

/-- What `select` may answer; which of the accounts that can serve has the best score is left open. -/
def State.Selects (c : Call) (s : State) (now : Int) : Option String → Prop
  | some id => s.enabled = true ∧ id ∈ s.candidateIds ∧
    (s.pool.runtime id).any (schedulable (isLargeFileBytes (some c.expectedSize)) now) = true
  | none => s.enabled = false ∨ ∀ id ∈ s.candidateIds,
    (s.pool.runtime id).any (schedulable (isLargeFileBytes (some c.expectedSize)) now) = false

/-- A turn of the loop over the accounts. -/
def State.turn (c : Call) (s : State) (selection : Option String) (now : Int) : State :=
  if s.attempts < min maxAccountAttempts s.readyAccountIds.length && !s.candidateIds.isEmpty then
    match selection with
    | none => s.fallback c now
    | some id =>
      match s.pool.config id, s.ready.find? (·.accountId = id) with
      | some account, some copy =>
        match admitRequest s.shared (c.request account.id) now with
        | .error _ => { s with attempts := s.attempts + 1, excluded := s.excluded ++ [account.id] }
        | .ok shared =>
          let bot := if some account.id = c.defaultAccountId then Bot.main else .account account
          State.issue { s with attempts := s.attempts + 1 } shared ⟨bot,copy.telegramFileId,.copy account.id⟩
            (.opening · account.id)
      | _, _ => { s with excluded := s.excluded ++ [id] }
  else s.fallback c now

/-- The sample of `finishFailed`. -/
def failedSample (kind : FailureKind) (retryAfterSeconds : Option Int) : Sample := ⟨false,some kind,retryAfterSeconds⟩

def State.openFailed (s : State) (kind : FailureKind) (retryAfterSeconds : Option Int) (now : Int) : State :=
  match s.phase with
  | .opening n accountId =>
    State.giveBack { s with excluded := s.excluded ++ [accountId] } n (some (now,failedSample kind retryAfterSeconds)) .choosing
  | .sourcing n => s.giveBack n (some (now,failedSample kind retryAfterSeconds)) .refused
  | .standard => { s with phase := .failed }
  | _ => s

def State.opened (s : State) : State :=
  match s.phase with
  | .opening n _ | .sourcing n => { s with phase := .streaming (some n) false }
  | .standard => { s with phase := .streaming none true }
  | _ => s

inductive StreamEvent where
  | close | ended | error

/-- The listeners of `attachSampling`. -/
def State.listen (s : State) (event : StreamEvent) (now : Int) (sample : Sample) : State :=
  match s.phase with
  | .streaming (some n) false =>
    match event with
    | .close => s.giveBack n none (.streaming (some n) true)
    | .ended | .error => s.giveBack n (some (now,sample)) (.streaming (some n) true)
  | _ => s

inductive Label where
  | other (label : AccountAttempts.Label)
  | switch (enabled : Bool)
  | rewrite (table : List Copy)
  | call (now : Int)
  | listed (ok : Bool) (now : Int)
  | turn (selection : Option String) (now : Int)
  | opened
  | openFailed (kind : FailureKind) (retryAfterSeconds : Option Int) (now : Int)
  | stream (event : StreamEvent) (now : Int) (sample : Sample)

def step (c : Call) (s : State) : Label → State
  | .other label => { s with shared := AccountAttempts.step s.shared label }
  | .switch enabled => { s with enabled }
  | .rewrite table => { s with table }
  | .call now => s.openTelegramSourceStream c now
  | .listed false now => s.fallback c now
  | .listed true now =>
    match s.phase with
    | .listing => if (s.copies c).isEmpty then s.fallback c now else s.openStream c now
    | _ => if (s.copies c).isEmpty then s.fallback c now else { s with ready := s.copies c, phase := .choosing }
  | .turn selection now => s.turn c selection now
  | .opened => s.opened
  | .openFailed kind retryAfterSeconds now => s.openFailed kind retryAfterSeconds now
  | .stream event now sample => s.listen event now sample

def settled : AccountAttempts.Label → Option Nat
  | .finish n _ _ | .release n => some n
  | _ => none

def allowed (c : Call) (s : State) : Label → Prop
  | .other label => AccountAttempts.Allowed s.shared label ∧ ∀ n ∈ settled label, n ∉ s.granted
  | .switch _ | .rewrite _ => True
  | .call _ => s.phase = .calling
  | .listed _ _ => s.phase = .listing ∨ s.phase = .relisting
  | .turn selection now => s.phase = .choosing ∧ s.Selects c now selection
  | .opened | .openFailed _ _ _ => True
  | .stream _ _ _ => True

instance (c : Call) (s : State) (now : Int) (selection : Option String) : Decidable (s.Selects c now selection) := by
  cases selection <;> unfold State.Selects <;> infer_instance

instance (c : Call) (s : State) (label : Label) : Decidable (allowed c s label) := by
  cases label <;> unfold allowed <;> infer_instance

/-- What a call can come to, whatever pool and copies it starts from. -/
def Reached (c : Call) (s : State) : Prop :=
  ∃ shared enabled table, Reachable (step c) (allowed c) (initial shared enabled table) s

/-! ### What is asked of whom -/

def Bot.isOf (c : Call) (accountId : String) : Bot → Bool
  | .account config => config.id = accountId
  | .main => c.defaultAccountId = some accountId

/-- A file_id together with its own account: that of a ready copy of the content, or that of the file. -/
inductive Proper (c : Call) (ready : List Copy) (fileId : String) : Upstream → Prop
  | copy {row : Copy} {bot : Bot} : row ∈ ready → row.status = .ready → row.ownerType = .fileUnique →
      row.ownerId = c.file.uniqueId → bot.isOf c row.accountId = true →
      Proper c ready fileId ⟨bot,row.telegramFileId,.copy row.accountId⟩
  | source {config : Config} : c.file.sourceAccountId ≠ "" → config.id = c.file.sourceAccountId →
      Proper c ready fileId ⟨.account config,fileId,.source⟩
  | main {cause : Cause} : (∀ id, cause ≠ .copy id) →
      c.file.sourceAccountId = "" ∨ some c.file.sourceAccountId = c.defaultAccountId →
      Proper c ready fileId ⟨.main,fileId,cause⟩

def Cause.account : Cause → Option String
  | .copy accountId => some accountId
  | _ => none

def copied (issued : List Upstream) : List String := issued.filterMap (fun u => u.cause.account)

def Phase.held : Phase → Option Nat
  | .opening n _ | .sourcing n => some n
  | .streaming admission settled => if settled then none else admission
  | _ => none

structure Books (s : State) (held : Option Nat) : Prop where
  order : s.granted = s.returned ++ held.toList
  known : ∀ n ∈ s.granted, n < s.shared.admissions.length
  once : s.granted.Nodup
  back : ∀ n ∈ s.returned, ∃ a, s.shared.admissions[n]? = some a ∧ a.settled = true
  out : ∀ n ∈ held, ∃ a, s.shared.admissions[n]? = some a ∧ a.settled = false

def Course (s : State) : Prop :=
  match s.phase with
  | .calling | .listing | .relisting => s.issued = []
  | .choosing => s.issued.length = (copied s.issued).length ∧ ∀ id ∈ copied s.issued, id ∈ s.excluded
  | .opening _ accountId => s.issued.length = (copied s.issued).length ∧
      ∀ id ∈ copied s.issued, id = accountId ∨ id ∈ s.excluded
  | _ => s.issued.length ≤ (copied s.issued).length + 1

structure Inv (c : Call) (s : State) : Prop where
  rows : ∀ row ∈ s.ready, row.status = .ready ∧ row.ownerType = .fileUnique ∧ row.ownerId = c.file.uniqueId
  proper : ∀ u ∈ s.issued, Proper c s.ready c.file.fileId u
  distinct : (copied s.issued).Nodup
  books : Books s s.phase.held
  course : Course s

section
variable {c : Call} {s : State}

theorem copied_append (issued : List Upstream) (u : Upstream) :
    copied (issued ++ [u]) = copied issued ++ u.cause.account.toList := by
  unfold copied
  cases known : u.cause.account with
  | none | some id => simp [known]

variable {request : Request} {n : Nat}

theorem admit_granted {shared after : AccountAttempts.State} {now : Int}
    (granted : admitRequest shared request now = .ok after) :
    ∃ a, after.admissions = shared.admissions ++ [a] ∧ a.settled = false := by
  unfold AccountAttempts.admitRequest at granted
  split at granted
  · dsimp only at granted
    split_ifs at granted
    cases granted
    exact ⟨_,rfl,rfl⟩
  · cases granted

theorem books_issue {after : AccountAttempts.State} {now : Int} (books : Books s none)
    (granted : admitRequest s.shared request now = .ok after) (u : Upstream) (phase : Nat → Phase) :
    Books (s.issue after u phase) (some s.shared.admissions.length) := by
  obtain ⟨a,grows,fresh⟩ := admit_granted granted
  have order : s.granted = s.returned := by simpa using books.order
  refine ⟨?_,?_,?_,?_,?_⟩
  · change s.granted ++ [_] = s.returned ++ [_]
    rw [order]
  · intro n among
    change n < after.admissions.length
    rw [grows,length_append]
    rcases mem_append.mp among with old | new
    · exact Nat.lt_add_right _ (books.known n old)
    · rw [mem_singleton.mp new]
      exact Nat.lt_succ_self _
  · refine nodup_append.mpr ⟨books.once,List.nodup_singleton _,?_⟩
    rintro n old _ new rfl
    rw [mem_singleton] at new
    exact absurd (books.known n old) (new ▸ Nat.lt_irrefl _)
  · intro n among
    obtain ⟨a',known,isSettled⟩ := books.back n among
    refine ⟨a',?_,isSettled⟩
    change after.admissions[n]? = some a'
    rw [grows,List.getElem?_append_left (at_lt known)]
    exact known
  · rintro n ⟨⟩
    refine ⟨a,?_,fresh⟩
    change after.admissions[_]? = some a
    rw [grows,List.getElem?_concat_length]

theorem settle_admissions {shared : AccountAttempts.State} {a : AccountAttempts.Admission}
    (found : shared.admissions[n]? = some a) (unsettled : a.settled = false) (sample : Option (Int × Sample)) :
    (settle shared n sample).admissions = shared.admissions.set n { a with settled := true } := by
  unfold AccountAttempts.settle
  rw [found]
  simp [unsettled]

theorem books_giveBack (books : Books s (some n)) (sample : Option (Int × Sample)) (phase : Phase) :
    Books (s.giveBack n sample phase) none := by
  obtain ⟨a,found,unsettled⟩ := books.out n rfl
  have after := settle_admissions found unsettled sample
  have order : s.granted = s.returned ++ [n] := books.order
  refine ⟨?_,?_,books.once,?_,nofun⟩
  · change s.granted = s.returned ++ [n] ++ []
    rw [order,append_nil]
  · intro m among
    change m < (settle s.shared n sample).admissions.length
    rw [after,List.length_set]
    exact books.known m among
  · intro m among
    change ∃ a, (settle s.shared n sample).admissions[m]? = some a ∧ a.settled = true
    rw [after]
    by_cases here : m = n
    · subst here
      exact ⟨_,at_set found,rfl⟩
    have old : m ∈ s.returned := by
      rcases mem_append.mp among with old | new
      · exact old
      · exact absurd (mem_singleton.mp new) here
    obtain ⟨a',known,isSettled⟩ := books.back m old
    exact ⟨a',by rw [List.getElem?_set_ne (Ne.symm here)]; exact known,isSettled⟩

theorem other_admissions (shared : AccountAttempts.State) (label : AccountAttempts.Label)
    (known : n < shared.admissions.length) (apart : settled label ≠ some n) :
    (AccountAttempts.step shared label).admissions[n]? = shared.admissions[n]? := by
  have settling : ∀ m sample, m ≠ n → (settle shared m sample).admissions[n]? = shared.admissions[n]? := by
    intro m sample other
    unfold AccountAttempts.settle
    split
    · split_ifs
      · rfl
      · exact List.getElem?_set_ne other
    · rfl
  cases label with
  | admitRequest request now =>
    unfold AccountAttempts.step
    dsimp only
    split
    · next granted =>
      obtain ⟨a,grows,_⟩ := admit_granted granted
      rw [grows,List.getElem?_append_left known]
    · rfl
  | finish m now sample | release m => exact settling m _ (fun same => apart (same ▸ rfl))
  | beginAttempt accountId =>
    unfold AccountAttempts.step AccountAttempts.beginAttempt
    dsimp only
    split <;> rfl
  | finishAttempt m now sample | releaseAttempt m =>
    unfold AccountAttempts.step AccountAttempts.endAttempt
    dsimp only
    split <;> rfl
  | probe accountId now ok | refresh configs => rfl

theorem books_other {held : Option Nat} (books : Books s held) {label : AccountAttempts.Label}
    (apart : ∀ n ∈ settled label, n ∉ s.granted) :
    Books { s with shared := AccountAttempts.step s.shared label } held := by
  have same : ∀ n ∈ s.granted, (AccountAttempts.step s.shared label).admissions[n]? = s.shared.admissions[n]? :=
    fun n among => other_admissions _ _ (books.known n among) fun settles => apart n settles among
  have mine : ∀ n ∈ s.returned, n ∈ s.granted := fun n among => books.order ▸ List.mem_append_left _ among
  have out : ∀ n ∈ held, n ∈ s.granted := fun n among =>
    books.order ▸ List.mem_append_right _ (Option.mem_toList.mpr among)
  refine ⟨books.order,?_,books.once,?_,?_⟩
  · intro n among
    have known := same n among
    rw [List.getElem?_eq_getElem (books.known n among)] at known
    exact at_lt known
  · intro n among
    obtain ⟨a,known,isSettled⟩ := books.back n among
    exact ⟨a,(same n (mine n among)).trans known,isSettled⟩
  · intro n among
    obtain ⟨a,known,isSettled⟩ := books.out n among
    exact ⟨a,(same n (out n among)).trans known,isSettled⟩

/-! ### Steps of the call -/

theorem config_id {p : Pool} {accountId : String} {config : Config} (found : p.config accountId = some config) :
    config.id = accountId := by
  obtain ⟨r,known,rfl⟩ := Option.map_eq_some_iff.mp found
  exact runtime_id known

theorem isOf_choice {account : Config} :
    (if some account.id = c.defaultAccountId then Bot.main else .account account).isOf c account.id = true := by
  split_ifs with isMain
  · simp [Bot.isOf,← isMain]
  · simp [Bot.isOf]

section
variable (inv : Inv c s)
include inv

theorem inv_last {u : Upstream} {t : State} (rows : t.ready = s.ready)
    (issued : t.issued = s.issued ++ [u]) (first : s.issued.length = (copied s.issued).length)
    (proper : Proper c s.ready c.file.fileId u) (other : u.cause.account = none) (books : Books t t.phase.held)
    (ends : Course t = (t.issued.length ≤ (copied t.issued).length + 1)) : Inv c t := by
  have same : copied t.issued = copied s.issued := by rw [issued,copied_append,other]; exact append_nil _
  refine ⟨rows ▸ inv.rows,?_,same ▸ inv.distinct,books,?_⟩
  · intro u' among
    rw [issued] at among
    rw [rows]
    rcases mem_append.mp among with old | new
    · exact inv.proper u' old
    · exact mem_singleton.mp new ▸ proper
  · rw [ends,same,issued,length_append,first]
    exact Nat.le_refl _

theorem inv_refused (first : s.issued.length = (copied s.issued).length) (books : Books s none) :
    Inv c { s with phase := .refused } := by
  refine ⟨inv.rows,inv.proper,inv.distinct,{ books with },?_⟩
  change s.issued.length ≤ _
  rw [first]
  exact Nat.le_succ _

theorem inv_standard (first : s.issued.length = (copied s.issued).length) (books : Books s none)
    (free : c.requiresSourceAccount = false) :
    Inv c { s with issued := s.issued ++ [⟨.main,c.file.fileId,.standard⟩], phase := .standard } := by
  refine inv_last inv rfl rfl first (.main (by simp) ?_) rfl { books with } rfl
  unfold Call.requiresSourceAccount at free
  by_cases empty : c.file.sourceAccountId = ""
  · exact .inl empty
  · simpa [empty] using free

theorem inv_openSourceStream (first : s.issued.length = (copied s.issued).length) (books : Books s none)
    {accountId : String} (isFallback : c.fallbackAccountId = some accountId) (now : Int) :
    Inv c (s.openSourceStream c accountId now) := by
  unfold State.openSourceStream
  split
  · exact inv_refused inv first books
  next account found =>
  have name := config_id found
  split
  · exact inv_refused inv first books
  split
  · exact inv_refused inv first books
  next shared granted =>
  refine inv_last inv rfl rfl first ?_ rfl (books_issue books granted _ _) rfl
  unfold Call.fallbackAccountId at isFallback
  split_ifs at isFallback with recorded
  · cases isFallback
    split_ifs with isMain
    · exact .main (by simp) (.inr isMain)
    · exact .source recorded name
  · rw [if_pos isFallback.symm]
    exact .main (by simp) (.inl (not_not.mp recorded))

theorem inv_fallback (first : s.issued.length = (copied s.issued).length) (books : Books s none)
    (now : Int) : Inv c (s.fallback c now) := by
  unfold State.fallback
  split
  · next accountId isFallback =>
    split_ifs with pooled needs
    · exact inv_openSourceStream inv first books isFallback now
    · exact inv_refused inv first books
    · exact inv_standard inv first books (Bool.eq_false_iff.mpr needs)
  · next missing =>
    refine inv_standard inv first books ?_
    unfold Call.fallbackAccountId at missing
    split_ifs at missing with recorded
    simp [Call.requiresSourceAccount,not_not.mp recorded]

theorem books_none {phase : Phase} (here : s.phase = phase) (free : phase.held = none) : Books s none := by
  have books := inv.books
  rw [here,free] at books
  exact books

theorem course_at {phase : Phase} (here : s.phase = phase) : Course { s with phase } := by
  subst here
  exact inv.course

theorem inv_opening (choosing : s.phase = .choosing) {account : Config} {copy : Copy}
    {after : AccountAttempts.State} {now : Int} (fresh : account.id ∉ s.excluded)
    (listed : copy ∈ s.ready) (owner : copy.accountId = account.id)
    (granted : admitRequest s.shared request now = .ok after) (attempts : Nat) :
    Inv c (State.issue { s with attempts } after
      ⟨if some account.id = c.defaultAccountId then Bot.main else .account account,copy.telegramFileId,.copy account.id⟩
      (.opening · account.id)) := by
  obtain ⟨first,left⟩ := course_at inv choosing
  have books := books_none inv choosing rfl
  obtain ⟨isReady,isUnique,content⟩ := inv.rows copy listed
  have grows : ∀ bot, copied (s.issued ++ [⟨bot,copy.telegramFileId,.copy account.id⟩]) = copied s.issued ++ [account.id] :=
    fun bot => copied_append _ _
  refine ⟨inv.rows,?_,?_,books_issue (s := { s with attempts }) ⟨books.order,books.known,books.once,books.back,nofun⟩
    granted _ _,?_,?_⟩
  · intro u among
    rcases mem_append.mp among with old | new
    · exact inv.proper u old
    · rw [mem_singleton.mp new,← owner]
      exact .copy listed isReady isUnique content (owner ▸ isOf_choice)
  · change (copied (s.issued ++ [_])).Nodup
    rw [grows]
    refine nodup_append.mpr ⟨inv.distinct,List.nodup_singleton _,?_⟩
    rintro id old _ new rfl
    exact fresh (mem_singleton.mp new ▸ left id old)
  · change (s.issued ++ [_]).length = (copied (s.issued ++ [_])).length
    rw [grows,length_append,length_append,first]
    rfl
  · change ∀ id ∈ copied (s.issued ++ [_]), id = account.id ∨ id ∈ s.excluded
    intro id among
    rw [grows] at among
    rcases mem_append.mp among with old | new
    · exact .inr (left id old)
    · exact .inl (mem_singleton.mp new)

theorem inv_exclude (choosing : s.phase = .choosing) (attempts : Nat) (id : String) :
    Inv c { s with attempts, excluded := s.excluded ++ [id] } := by
  obtain ⟨first,left⟩ := course_at inv choosing
  refine ⟨inv.rows,inv.proper,inv.distinct,
    ⟨inv.books.order,inv.books.known,inv.books.once,inv.books.back,inv.books.out⟩,?_⟩
  unfold Course
  rw [choosing]
  exact ⟨first,fun id' among => List.mem_append_left _ (left id' among)⟩

theorem inv_turn (choosing : s.phase = .choosing) {selection : Option String} {now : Int}
    (selects : s.Selects c now selection) : Inv c (s.turn c selection now) := by
  have first := (course_at inv choosing).1
  have books := books_none inv choosing rfl
  unfold State.turn
  split
  · split
    · exact inv_fallback inv first books now
    next id =>
    split
    · next account copy known found =>
      have name := config_id known
      have candidate := (List.mem_filter.mp selects.2.1).2
      have owner : copy.accountId = account.id := by
        rw [name]
        simpa using List.find?_some found
      split
      · exact inv_exclude inv choosing _ _
      · next shared granted =>
        refine inv_opening inv choosing ?_ (List.mem_of_find?_eq_some found) owner granted _
        rw [name]
        simpa using candidate
    · exact inv_exclude inv choosing s.attempts id
  · exact inv_fallback inv first books now

theorem inv_listed (start : s.issued = []) (books : Books s none) (now : Int) : Inv c (step c s (.listed true now)) := by
  have first : s.issued.length = (copied s.issued).length := by rw [start]; rfl
  unfold step
  dsimp only
  split
  · split_ifs
    · exact inv_fallback inv first books now
    · unfold State.openStream
      split_ifs
      · exact ⟨inv.rows,inv.proper,inv.distinct,⟨books.order,books.known,books.once,books.back,nofun⟩,start⟩
      · exact inv_fallback inv first books now
  · split_ifs
    · exact inv_fallback inv first books now
    · refine ⟨?_,?_,inv.distinct,⟨books.order,books.known,books.once,books.back,nofun⟩,first,?_⟩
      · intro row among
        simp only [State.copies,listReady,List.mem_filter,Bool.and_eq_true,decide_eq_true_eq] at among
        exact ⟨among.2.2,among.2.1⟩
      · intro u among
        rw [start] at among
        cases among
      · intro id among
        rw [start] at among
        cases among

theorem inv_openFailed (kind : FailureKind) (retryAfterSeconds : Option Int) (now : Int) :
    Inv c (s.openFailed kind retryAfterSeconds now) := by
  unfold State.openFailed
  split
  · next n accountId opening =>
    obtain ⟨first,left⟩ := course_at inv opening
    have books := inv.books
    rw [opening] at books
    refine ⟨inv.rows,inv.proper,inv.distinct,books_giveBack (s := { s with excluded := s.excluded ++ [accountId] })
      { books with } _ _,first,?_⟩
    intro id among
    rcases left id among with rfl | old
    · exact List.mem_append_right _ (List.mem_singleton_self _)
    · exact List.mem_append_left _ old
  · next n sourcing =>
    have books := inv.books
    rw [sourcing] at books
    exact ⟨inv.rows,inv.proper,inv.distinct,books_giveBack books _ _,course_at inv sourcing⟩
  · next standard =>
    have books := books_none inv standard rfl
    have course := course_at inv standard
    exact ⟨inv.rows,inv.proper,inv.distinct,⟨books.order,books.known,books.once,books.back,nofun⟩,course⟩
  · exact inv

theorem inv_opened : Inv c s.opened := by
  have books := inv.books
  unfold State.opened
  split
  · next n accountId opening =>
    rw [opening] at books
    refine ⟨inv.rows,inv.proper,inv.distinct,{ books with },?_⟩
    change s.issued.length ≤ _
    rw [(course_at inv opening).1]
    exact Nat.le_succ _
  · next n sourcing =>
    rw [sourcing] at books
    have course := course_at inv sourcing
    exact ⟨inv.rows,inv.proper,inv.distinct,{ books with },course⟩
  · next standard =>
    rw [standard] at books
    have course := course_at inv standard
    exact ⟨inv.rows,inv.proper,inv.distinct,⟨books.order,books.known,books.once,books.back,nofun⟩,course⟩
  · exact inv

theorem inv_listen (event : StreamEvent) (now : Int) (sample : Sample) : Inv c (s.listen event now sample) := by
  unfold State.listen
  split
  · next n streaming =>
    have books := inv.books
    rw [streaming] at books
    cases event with
    | close | ended | error => exact ⟨inv.rows,inv.proper,inv.distinct,books_giveBack books _ _,course_at inv streaming⟩
  · exact inv

end

theorem inv_initial (c : Call) (shared : AccountAttempts.State) (enabled : Bool) (table : List Copy) :
    Inv c (initial shared enabled table) where
  rows _ member := absurd member not_mem_nil
  proper _ member := absurd member not_mem_nil
  distinct := List.nodup_nil
  books := ⟨rfl,nofun,List.nodup_nil,nofun,nofun⟩
  course := rfl

theorem inv_step (s : State) (label : Label) (inv : Inv c s) (may : allowed c s label) : Inv c (step c s label) := by
  cases label with
  | other label => exact ⟨inv.rows,inv.proper,inv.distinct,books_other inv.books may.2,inv.course⟩
  | switch enabled | rewrite table =>
    exact ⟨inv.rows,inv.proper,inv.distinct,
      ⟨inv.books.order,inv.books.known,inv.books.once,inv.books.back,inv.books.out⟩,inv.course⟩
  | call now =>
    have start : s.issued = [] := course_at inv may
    have books := books_none inv may rfl
    unfold step State.openTelegramSourceStream
    dsimp only
    split_ifs
    · exact ⟨inv.rows,inv.proper,inv.distinct,⟨books.order,books.known,books.once,books.back,nofun⟩,start⟩
    · exact inv_fallback inv (by rw [start]; rfl) books now
  | listed ok now =>
    have start : s.issued = [] := by
      rcases may with here | here
      · exact course_at inv here
      · exact course_at inv here
    have books : Books s none := by
      rcases may with here | here
      · exact books_none inv here rfl
      · exact books_none inv here rfl
    cases ok with
    | false => exact inv_fallback inv (by rw [start]; rfl) books now
    | true => exact inv_listed inv start books now
  | turn selection now => exact inv_turn inv may.1 may.2
  | opened => exact inv_opened inv
  | openFailed kind retryAfterSeconds now => exact inv_openFailed inv kind retryAfterSeconds now
  | stream event now sample => exact inv_listen inv event now sample

end

def Phase.over : Phase → Bool
  | .refused | .failed => true
  | .streaming _ settled => settled
  | _ => false

theorem held_over {phase : Phase} (isOver : phase.over = true) : phase.held = none := by
  cases phase with
  | streaming admission settled =>
    cases settled with
    | true => rfl
    | false => cases isOver
  | refused | failed => rfl
  | _ => cases isOver

/-- Every request has a file_id of its own account, no copy is asked for twice, the source comes last,
and grants are given back once. -/
theorem own_file_ids {c : Call} {s : State} (reach : Reached c s) :
    (∀ u ∈ s.issued, Proper c s.ready c.file.fileId u) ∧
    (copied s.issued).Nodup ∧ s.issued.length ≤ (copied s.issued).length + 1 ∧
    (∀ n ∈ s.granted, s.returned.count n ≤ 1) ∧
    (s.phase.over = true → ∀ n ∈ s.granted, s.returned.count n = 1 ∧
      ∃ a, s.shared.admissions[n]? = some a ∧ a.settled = true) := by
  obtain ⟨shared,enabled,table,reach⟩ := reach
  have inv : Inv c s := reachable_invariant (inv_initial c shared enabled table) inv_step reach
  have once : s.returned.Nodup := (nodup_append.mp (inv.books.order ▸ inv.books.once)).1
  refine ⟨inv.proper,inv.distinct,?_,?_,?_⟩
  · have course := inv.course
    unfold Course at course
    split at course
    all_goals first | (rw [course]; exact Nat.zero_le _) | (rw [course.1]; exact Nat.le_succ _) | exact course
  · intro n _
    exact List.nodup_iff_count_le_one.mp once n
  · intro isOver n among
    have order := inv.books.order
    rw [held_over isOver,Option.toList_none,append_nil] at order
    rw [order] at among
    exact ⟨List.count_eq_one_of_mem once among,inv.books.back n among⟩

def twoAccounts : AccountAttempts.State := AccountAttempts.start ⟨.blank,"1:x,2:y","",""⟩

def twoCopies : List Copy := [⟨.fileUnique,"u","bot1","f1",.ready⟩,⟨.fileUnique,"u","bot2","f2",.ready⟩]

def uploaded : Call := ⟨⟨"f1","f1",some "u",some "bot1"⟩,.whole 100,"",true,true,true⟩

def returning : List Label :=
  [.call 0,.listed true 0,.listed true 0,.turn (some "bot1") 0,.openFailed .network none 0,.turn (some "bot2") 0,
    .openFailed .timeout none 15000,.turn none 15000]

theorem returning_legal : Legal (step uploaded) (allowed uploaded) (initial twoAccounts true twoCopies) returning := by
  decide +kernel

/-- The stream from the source is closed early. -/
theorem own_file_ids_closed :
    let labels := returning ++ [Label.opened,.stream .close 16000 ⟨true,none,none⟩]
    let s := labels.foldl (step uploaded) (initial twoAccounts true twoCopies)
    s.granted = [0,1,2] ∧ ∀ n ∈ s.granted, s.returned.count n = 1 ∧
      ∃ a, s.shared.admissions[n]? = some a ∧ a.settled = true := by
  intro labels s
  have legal : Legal (step uploaded) (allowed uploaded) (initial twoAccounts true twoCopies) labels := by decide +kernel
  refine ⟨by decide +kernel,?_⟩
  exact (own_file_ids ⟨_,_,_,reachable_run .start _ legal⟩).2.2.2.2 (by decide +kernel)

theorem proper_fileId {c : Call} {ready : List Copy} {fileId : String} {u : Upstream} (proper : Proper c ready fileId u)
    (other : u.cause.account = none) : u.fileId = fileId := by
  cases proper with
  | copy => cases other
  | source | main => rfl

/-- A file without a file_id is asked for by its name, and a ready account that is the source is asked twice. -/
theorem source_asked_again :
    (¬ ∀ c s, Reached c s → ∀ u ∈ s.issued, Proper c s.ready c.file.telegramFileId u) ∧
    ¬ ∀ c s, Reached c s → ∀ row ∈ s.ready, s.issued.countP (fun u => u.bot.isOf c row.accountId) ≤ 1 := by
  constructor
  · intro always
    let c : Call := ⟨⟨"name","",none,none⟩,.whole 100,"",false,false,true⟩
    have legal : Legal (step c) (allowed c) (initial twoAccounts true []) [.call 0] := by decide +kernel
    have proper := always c _ ⟨_,_,_,reachable_run .start _ legal⟩ ⟨.main,"name",.standard⟩ (by decide +kernel)
    exact absurd (proper_fileId proper rfl) (by decide)
  · intro always
    have twice := always uploaded _ ⟨_,_,_,reachable_run .start _ returning_legal⟩ ⟨.fileUnique,"u","bot1","f1",.ready⟩
      (by decide +kernel)
    exact absurd twice (by decide +kernel)

end Tgtc.SourceStreams
