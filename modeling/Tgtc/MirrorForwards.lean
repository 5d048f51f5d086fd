import Mathlib.Data.List.Sort
import Tgtc.Maps
import Tgtc.MirrorTasks

/-!
The forwards of one mirror task. An attempt forwards the message with an id derived from the task, the chat and the
account, so the server drops a second forward of the same account, but not one of another.
-/
namespace Tgtc.MirrorForwards
open Runs
open MirrorTasks (Receipt)

inductive AccountStatus where
  | active | degraded | disabled
deriving DecidableEq

structure Account where
  id : String
  weight : Int
  enabled : Bool
  status : AccountStatus
  lastFailureCode : String
  credentials : Bool

def resolveEnabledUserAccounts (rows : List Account) : List Account :=
  rows.filter fun account => account.enabled && account.status ≠ .disabled &&
    account.lastFailureCode ≠ "user_session_invalid" && account.credentials

def markDegraded (rows : List Account) (id : String) : List Account :=
  rows.map fun account => if account.id = id then
    { account with
      status := if account.status = .active then .degraded else account.status
      lastFailureCode := "user_session_invalid" }
    else account

def places (weight : Int) : Nat := (max 1 (min (if weight = 0 then 1 else weight) 10)).toNat

def expanded (candidates : List Account) : List Account :=
  (candidates.insertionSort fun left right => left.id ≤ right.id).flatMap fun item => List.replicate (places item.weight) item

/-- `digest` is the first four bytes of the hash of the seed. -/
def pickUserAccount (digest : String → Nat) (candidates : List Account) (preferredAccountId : String) (seed : String) :
    Option Account :=
  match if preferredAccountId = "" then none else candidates.find? (·.id = preferredAccountId) with
  | some preferred => some preferred
  | none => (expanded candidates)[digest seed % (expanded candidates).length]?

structure Rule where
  targetChatId : String
  preferredAccountId : String

inductive Fate where
  | sent
  | posted
  | suppressed
  | refused
deriving DecidableEq

structure Request where
  account : String
  chat : String
  randomId : Option Int
  fate : Fate

inductive Attempt where
  | preparing (rule : Rule)
  | forwarding (rule : Rule) (remaining : List Account) (chosen : Account)
  | copied (receipt : Receipt)
  | unsaved (receipt : Receipt)
  | ended

structure State where
  rule : Rule
  accounts : List Account
  target : Option Receipt
  receiptPending : Bool
  attempts : List Attempt
  requests : List Request

def State.start : State := ⟨⟨"",""⟩,[],none,false,[],[]⟩

structure Task where
  id : String
  digest : String → Nat
  /-- `buildDeterministicRandomId` -/
  randomId : String → Option Int

section
variable (task : Task)

def Task.request (chat : String) (chosen : Account) : Request :=
  ⟨chosen.id,chat,task.randomId (task.id ++ ":" ++ chat ++ ":" ++ chosen.id),.sent⟩

def Task.pick (rule : Rule) (remaining : List Account) : Option Account :=
  pickUserAccount task.digest remaining rule.preferredAccountId task.id

def State.goes (s : State) (n : Nat) (attempt : Attempt) : State := { s with attempts := s.attempts.set n attempt }

/-- The loop of `execute` with the accounts that are left. -/
def State.tries (s : State) (n : Nat) (rule : Rule) (remaining : List Account) : State :=
  match task.pick rule remaining with
  | some chosen =>
    { s.goes n (.forwarding rule remaining chosen) with requests := s.requests ++ [task.request rule.targetChatId chosen] }
  | none => s.goes n .ended

inductive Outcome where
  | copied (targetMessageId : String)
  /-- `user_session_invalid`, and whether the account could be marked -/
  | authFailure (marked : Bool)
  | failed

inductive Label where
  | setRule (rule : Rule)
  | setAccounts (accounts : List Account)
  | begin
  /-- `execute` up to the choice of an account, unless something fails before -/
  | resolve (n : Nat) (ok : Bool)
  | arrive (k : Nat)
  | refuse (k : Nat)
  | answer (n : Nat) (outcome : Outcome)
  | save (n : Nat) (ok : Bool)
  | crash (n : Nat)
  /-- `requeueTerminal` -/
  | requeue

def Request.arrived (requests : List Request) (request : Request) : Request :=
  match request.fate with
  | .sent =>
    if requests.any (fun r => r.fate = .posted && r.account = request.account && r.randomId.isSome && r.randomId = request.randomId)
    then { request with fate := .suppressed } else { request with fate := .posted }
  | _ => request

def Request.turnedDown (request : Request) : Request :=
  match request.fate with
  | .sent => { request with fate := .refused }
  | _ => request

def State.degrade (s : State) (chosen : Account) (marked : Bool) : State :=
  { s with accounts := if marked then markDegraded s.accounts chosen.id else s.accounts }

def State.answer (s : State) (n : Nat) (rule : Rule) (remaining : List Account) (chosen : Account) : Outcome → State
  | .copied targetMessageId => s.goes n (.copied ⟨chosen.id,rule.targetChatId,targetMessageId,""⟩)
  | .authFailure marked =>
    let rest := remaining.eraseP (·.id = chosen.id)
    if rest = [] then (s.degrade chosen marked).goes n .ended else (s.degrade chosen marked).tries task n rule rest
  | .failed => s.goes n .ended

def step (s : State) : Label → State
  | .setRule rule => { s with rule }
  | .setAccounts accounts => { s with accounts }
  | .begin => match s.target.filter (fun receipt => s.receiptPending && receipt.targetMessageId ≠ "") with
    | some receipt => { s with attempts := s.attempts ++ [.copied receipt] }
    | none => { s with attempts := s.attempts ++ [.preparing s.rule] }
  | .resolve n ok => match s.attempts[n]? with
    | some (.preparing rule) =>
      if ok = true ∧ rule.targetChatId ≠ "" ∧ resolveEnabledUserAccounts s.accounts ≠ [] then
        s.tries task n rule (resolveEnabledUserAccounts s.accounts)
      else s.goes n .ended
    | _ => s
  | .arrive k => { s with requests := s.requests.modify k (Request.arrived s.requests) }
  | .refuse k => { s with requests := s.requests.modify k Request.turnedDown }
  | .answer n outcome => match s.attempts[n]? with
    | some (.forwarding rule remaining chosen) => s.answer task n rule remaining chosen outcome
    | _ => s
  | .save n ok => match s.attempts[n]? with
    | some (.copied receipt) =>
      if ok then { s.goes n .ended with target := some receipt, receiptPending := false } else s.goes n (.unsaved receipt)
    | some (.unsaved receipt) =>
      if ok then { s.goes n .ended with target := some receipt, receiptPending := true } else s.goes n .ended
    | _ => s
  | .crash n => s.goes n .ended
  | .requeue => { s with target := none, receiptPending := false }

def copies (s : State) (chat : String) : Nat := s.requests.countP fun r => r.fate = .posted && r.chat = chat

/-- The account that a step picks, with the chat it forwards to. -/
def picks (s : State) : Label → Option (String × Account)
  | .resolve n ok => match s.attempts[n]? with
    | some (.preparing rule) =>
      if ok = true ∧ rule.targetChatId ≠ "" ∧ resolveEnabledUserAccounts s.accounts ≠ [] then
        (task.pick rule (resolveEnabledUserAccounts s.accounts)).map (rule.targetChatId,·)
      else none
    | _ => none
  | .answer n (.authFailure _) => match s.attempts[n]? with
    | some (.forwarding rule remaining chosen) =>
      if remaining.eraseP (·.id = chosen.id) = [] then none
      else (task.pick rule (remaining.eraseP (·.id = chosen.id))).map (rule.targetChatId,·)
    | _ => none
  | _ => none

/-- The pick falls on the account of every earlier forward to the chat that has not been refused. -/
def Orderly (s : State) (l : Label) : Prop :=
  ∀ pick ∈ picks task s l, ∀ r ∈ s.requests, r.chat = pick.1 → r.fate ≠ .refused →
    r.account = pick.2.id ∧ r.randomId.isSome = true

instance (s : State) (l : Label) : Decidable (Orderly task s l) := by unfold Orderly; infer_instance

abbrev Reached : State → Prop := Reachable (step task) (fun _ _ => True) .start

abbrev ReachedOrderly : State → Prop := Reachable (step task) (Orderly task) .start

end

structure Same (r r' : Request) : Prop where
  account : r.account = r'.account
  randomId : r.randomId = r'.randomId
  derived : r.randomId.isSome = true

structure Inv (task : Task) (s : State) : Prop where
  derived : ∀ (k : Nat) (r : Request), s.requests[k]? = some r →
    r.randomId = task.randomId (task.id ++ ":" ++ r.chat ++ ":" ++ r.account)
  same : ∀ (j k : Nat) (r r' : Request), s.requests[j]? = some r → s.requests[k]? = some r' → j ≠ k → r.chat = r'.chat →
    r.fate ≠ .refused → r'.fate ≠ .refused → Same r r'
  single : ∀ (j k : Nat) (r r' : Request), s.requests[j]? = some r → s.requests[k]? = some r' → r.chat = r'.chat →
    r.fate = .posted → r'.fate = .posted → j = k

section
variable {task : Task} {s t : State}

theorem inv_same (inv : Inv task s) (requests : t.requests = s.requests) : Inv task t := by
  constructor
  · rw [requests]; exact inv.derived
  · rw [requests]; exact inv.same
  · rw [requests]; exact inv.single

structure Becomes (r r' : Request) : Prop where
  account : r'.account = r.account
  chat : r'.chat = r.chat
  randomId : r'.randomId = r.randomId
  refused : r'.fate ≠ .refused → r.fate ≠ .refused

theorem becomes_arrived (requests : List Request) (r : Request) : Becomes r (r.arrived requests) := by
  unfold Request.arrived
  split
  · next sent =>
    have kept : r.fate ≠ .refused := by
      rw [sent]
      exact Fate.noConfusion
    split_ifs <;> exact ⟨rfl,rfl,rfl,fun _ => kept⟩
  · exact ⟨rfl,rfl,rfl,id⟩

theorem becomes_turnedDown (r : Request) : Becomes r r.turnedDown := by
  unfold Request.turnedDown
  split
  · next sent => exact ⟨rfl,rfl,rfl,fun kept => absurd rfl kept⟩
  · exact ⟨rfl,rfl,rfl,id⟩

theorem arrived_posted {requests : List Request} {r : Request} (posted : (r.arrived requests).fate = .posted) :
    r.fate = .posted ∨ ∀ r' ∈ requests, r'.fate = .posted → ¬ Same r' r := by
  unfold Request.arrived at posted
  split at posted
  · by_cases known : requests.any (fun r' => r'.fate = .posted && r'.account = r.account && r'.randomId.isSome &&
        r'.randomId = r.randomId) = true
    · rw [if_pos known] at posted
      cases posted
    · refine .inr fun r' among before same => known ?_
      rw [List.any_eq_true]
      exact ⟨r',among,by simp [before,same.account,← same.randomId,same.derived]⟩
  · exact .inl posted

theorem inv_modify (inv : Inv task s) {k : Nat} {change : Request → Request} (becomes : ∀ r, Becomes r (change r))
    (posts : ∀ r, s.requests[k]? = some r → (change r).fate = .posted → r.fate = .posted ∨
      ∀ r' ∈ s.requests, r'.fate = .posted → ¬ Same r' r)
    (requests : t.requests = s.requests.modify k change) : Inv task t := by
  -- each forward afterwards is one from before
  have before : ∀ (j : Nat) (r : Request), t.requests[j]? = some r → ∃ old, s.requests[j]? = some old ∧ Becomes old r ∧
      (r.fate = .posted → old.fate = .posted ∨ j = k ∧ ∀ r' ∈ s.requests, r'.fate = .posted → ¬ Same r' old) := by
    intro j r found
    rw [requests] at found
    rcases Maps.at_of_modify found with ⟨rfl,old,known,rfl⟩ | ⟨_,known⟩
    · exact ⟨old,known,becomes old,fun posted => (posts old known posted).imp id fun unknown => ⟨rfl,unknown⟩⟩
    · exact ⟨r,known,⟨rfl,rfl,rfl,id⟩,.inl⟩
  have same : ∀ (j k : Nat) (r r' : Request), t.requests[j]? = some r → t.requests[k]? = some r' → j ≠ k → r.chat = r'.chat →
      r.fate ≠ .refused → r'.fate ≠ .refused → Same r r' := by
    intro i j r r' found found' apart chat kept kept'
    obtain ⟨old,known,becomes,_⟩ := before i r found
    obtain ⟨old',known',becomes',_⟩ := before j r' found'
    have same := inv.same i j old old' known known' apart (by rw [← becomes.chat,← becomes'.chat,chat])
      (becomes.refused kept) (becomes'.refused kept')
    exact ⟨by rw [becomes.account,becomes'.account,same.account],by rw [becomes.randomId,becomes'.randomId,same.randomId],
      by rw [becomes.randomId,same.derived]⟩
  refine ⟨fun j r found => ?_,same,fun i j r r' found found' chat posted posted' => ?_⟩
  · obtain ⟨old,known,becomes,_⟩ := before j r found
    rw [becomes.randomId,becomes.chat,becomes.account]
    exact inv.derived j old known
  · by_contra apart
    obtain ⟨old,known,becomes,from_old⟩ := before i r found
    obtain ⟨old',known',becomes',from_old'⟩ := before j r' found'
    have oldChat : old.chat = old'.chat := by rw [← becomes.chat,← becomes'.chat,chat]
    have kept : ∀ q : Request, q.fate = .posted → q.fate ≠ .refused := by
      intro q is_posted
      rw [is_posted]
      exact Fate.noConfusion
    have alike := inv.same i j old old' known known' apart oldChat (becomes.refused (kept r posted))
      (becomes'.refused (kept r' posted'))
    have alike' : Same old' old := ⟨alike.account.symm,alike.randomId.symm,by rw [← alike.randomId]; exact alike.derived⟩
    rcases from_old posted with first | ⟨rfl,unknown⟩
    · rcases from_old' posted' with second | ⟨_,unknown⟩
      · exact apart (inv.single i j old old' known known' oldChat first second)
      · exact unknown old (List.mem_of_getElem? known) first alike
    · rcases from_old' posted' with second | ⟨same,_⟩
      · exact unknown old' (List.mem_of_getElem? known') second alike'
      · exact apart same.symm

theorem inv_send (inv : Inv task s) {chat : String} {chosen : Account}
    (orderly : ∀ r ∈ s.requests, r.chat = chat → r.fate ≠ .refused → r.account = chosen.id ∧ r.randomId.isSome = true)
    (requests : t.requests = s.requests ++ [task.request chat chosen]) : Inv task t := by
  have alike : ∀ (j : Nat) (r : Request), s.requests[j]? = some r → r.chat = chat → r.fate ≠ .refused → Same r (task.request chat chosen) := by
    intro j r known same kept
    obtain ⟨account,derived⟩ := orderly r (List.mem_of_getElem? known) same kept
    refine ⟨account,?_,derived⟩
    rw [inv.derived j r known,same,account]
    rfl
  refine ⟨fun j r found => ?_,fun i j r r' found found' apart chats kept kept' => ?_,
    fun i j r r' found found' chats posted posted' => ?_⟩
  · rw [requests] at found
    rcases Maps.at_of_append found with known | ⟨_,rfl⟩
    · exact inv.derived j r known
    · rfl
  · rw [requests] at found found'
    rcases Maps.at_of_append found with known | ⟨rfl,rfl⟩
    · rcases Maps.at_of_append found' with known' | ⟨_,rfl⟩
      · exact inv.same i j r r' known known' apart chats kept kept'
      · exact alike i r known chats kept
    · rcases Maps.at_of_append found' with known' | ⟨rfl,_⟩
      · have same := alike j r' known' chats.symm kept'
        exact ⟨same.account.symm,same.randomId.symm,by rw [← same.randomId]; exact same.derived⟩
      · exact absurd rfl apart
  · rw [requests] at found found'
    rcases Maps.at_of_append found with known | ⟨_,rfl⟩
    · rcases Maps.at_of_append found' with known' | ⟨_,rfl⟩
      · exact inv.single i j r r' known known' chats posted posted'
      · cases posted'
    · cases posted

theorem inv_tries (inv : Inv task s) {n : Nat} {rule : Rule} {remaining : List Account}
    (orderly : ∀ chosen, task.pick rule remaining = some chosen → ∀ r ∈ s.requests, r.chat = rule.targetChatId →
      r.fate ≠ .refused → r.account = chosen.id ∧ r.randomId.isSome = true) : Inv task (s.tries task n rule remaining) := by
  unfold State.tries
  split
  · next chosen picked => exact inv_send inv (orderly chosen picked) rfl
  · exact inv_same inv rfl

theorem inv_step (inv : Inv task s) {l : Label} (orderly : Orderly task s l) : Inv task (step task s l) := by
  cases l with
  | setRule rule | setAccounts accounts => exact inv_same inv rfl
  | begin =>
    unfold step
    dsimp only
    split <;> exact inv_same inv rfl
  | resolve n ok =>
    unfold step
    dsimp only
    split
    · next rule there =>
      split_ifs with goes
      · refine inv_tries inv fun chosen picked r among => orderly (rule.targetChatId,chosen) ?_ r among
        simp only [picks,there,if_pos goes,picked]
        rfl
      · exact inv_same inv rfl
    · exact inv
  | arrive k =>
    exact inv_modify inv (becomes_arrived s.requests) (fun r _ => arrived_posted) rfl
  | refuse k =>
    refine inv_modify inv becomes_turnedDown (fun r _ posted => .inl ?_) rfl
    unfold Request.turnedDown at posted
    split at posted
    · cases posted
    · exact posted
  | answer n outcome =>
    unfold step
    dsimp only
    split
    · next rule remaining chosen there =>
      cases outcome with
      | copied targetMessageId | failed => exact inv_same inv rfl
      | authFailure marked =>
        unfold State.answer
        dsimp only
        have marks : Inv task (s.degrade chosen marked) := inv_same inv rfl
        split_ifs with none_left
        · exact inv_same marks rfl
        · refine inv_tries marks fun next picked r among => ?_
          refine orderly (rule.targetChatId,next) ?_ r among
          simp only [picks,there,if_neg none_left,picked]
          rfl
    · exact inv
  | save n ok =>
    unfold step
    dsimp only
    split
    · split_ifs <;> exact inv_same inv rfl
    · split_ifs <;> exact inv_same inv rfl
    · exact inv
  | crash n | requeue => exact inv_same inv rfl

end

theorem countP_le_one {Entry : Type} {table : List Entry} {counts : Entry → Bool}
    (single : ∀ (i j : Nat) (x y : Entry), table[i]? = some x → table[j]? = some y → counts x = true → counts y = true → i = j) :
    table.countP counts ≤ 1 := by
  induction table with
  | nil => exact Nat.zero_le 1
  | cons x rest ih =>
    have later : rest.countP counts ≤ 1 :=
      ih fun i j y z found found' holds holds' => Nat.succ.inj (single (i + 1) (j + 1) y z found found' holds holds')
    by_cases here : counts x = true
    · have none_later : rest.countP counts = 0 := by
        rw [List.countP_eq_zero]
        intro y among holds
        obtain ⟨j,found⟩ := List.mem_iff_getElem?.mp among
        exact absurd (single 0 (j + 1) x y rfl found here holds) (Nat.succ_ne_zero j).symm
      rw [List.countP_cons,none_later,if_pos here]
    · rw [List.countP_cons,if_neg here]
      exact later

/-- One copy for each chat, as long as the pick stays with an account that may have forwarded the message. -/
theorem copied_once {task : Task} {s : State} (reach : ReachedOrderly task s) (chat : String) : copies s chat ≤ 1 := by
  have base : Inv task .start :=
    ⟨fun _ _ found => by simp [State.start] at found,fun _ _ _ _ found => by simp [State.start] at found,
      fun _ _ _ _ found => by simp [State.start] at found⟩
  have inv : Inv task s := reachable_invariant base (fun _ _ inv ok => inv_step inv ok) reach
  apply countP_le_one
  intro i j r r' found found' counts counts'
  simp only [Bool.and_eq_true,decide_eq_true_eq] at counts counts'
  exact inv.single i j r r' found found' (counts.2.trans counts'.2.symm) counts.1 counts'.1

def sampleTask : Task where
  id := "t"
  digest := fun _ => 3820587597
  randomId := fun key => if key = "t:-100:a" then some 6174694824589669297 else some 4826905048644876987

def sampleAccount (id : String) (enabled : Bool) : Account := ⟨id,1,enabled,.active,"",true⟩

/-- The session of the first account has ended; the forward of the second one arrives twice, as its first answer is lost. -/
theorem copied_once_retried :
    let labels : List Label := [.setRule ⟨"-100",""⟩,.setAccounts [sampleAccount "b" true,sampleAccount "a" true],.begin,
      .resolve 0 true,.refuse 0,.answer 0 (.authFailure true),.arrive 1,.answer 0 .failed,.begin,.resolve 1 true,.arrive 2,
      .answer 1 (.copied "7"),.save 1 true]
    copies (labels.foldl (step sampleTask) .start) "-100" ≤ 1 ∧ (labels.foldl (step sampleTask) .start).requests.length = 3 := by
  intro labels
  exact ⟨copied_once (reachable_run .start labels (by decide +kernel)) "-100",by decide +kernel⟩

def accountGone : List Label :=
  [.setRule ⟨"-100",""⟩,.setAccounts [sampleAccount "b" true,sampleAccount "a" true],.begin,.resolve 0 true,.arrive 0,
    .answer 0 .failed,.setAccounts [sampleAccount "b" false,sampleAccount "a" true],.begin,.resolve 1 true,.arrive 1,
    .answer 1 (.copied "8"),.save 1 true]

theorem copied_twice : ∃ s, Reached sampleTask s ∧ copies s "-100" = 2 :=
  ⟨_,reachable_run .start accountGone (by decide +kernel),by decide +kernel⟩

end Tgtc.MirrorForwards
