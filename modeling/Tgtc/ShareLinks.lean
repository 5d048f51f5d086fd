import Tgtc.RowLocks

/-!
A link to a file or a folder, which its owner shares: how long and how often it may be used, and what is asked of who
uses it.
-/
namespace Tgtc.ShareLinks
open RowLocks

inductive ShareTargetType where
  | file | folder
deriving DecidableEq

inductive ShareLinkStatus where
  | active | disabled | expired | exhausted
deriving DecidableEq

structure ShareLink where
  id : String
  token : String
  targetType : ShareTargetType
  targetId : Nat
  creatorId : Nat
  password : Option String
  maxAccessCount : Int
  currentAccessCount : Nat
  expiresIn : Option Nat
  expiresStartAt : Option Nat
  status : ShareLinkStatus
  isDeleted : Bool
deriving DecidableEq

def MS_PER_HOUR : Nat := 3600 * 1000

/-- What a row becomes when a save that has found `found` writes `mine`. -/
def saved (mine found current : ShareLink) : ShareLink where
  id := current.id
  token := column mine.token found.token current.token
  targetType := column mine.targetType found.targetType current.targetType
  targetId := column mine.targetId found.targetId current.targetId
  creatorId := column mine.creatorId found.creatorId current.creatorId
  password := column mine.password found.password current.password
  maxAccessCount := column mine.maxAccessCount found.maxAccessCount current.maxAccessCount
  currentAccessCount := column mine.currentAccessCount found.currentAccessCount current.currentAccessCount
  expiresIn := column mine.expiresIn found.expiresIn current.expiresIn
  expiresStartAt := column mine.expiresStartAt found.expiresStartAt current.expiresStartAt
  status := column mine.status found.status current.status
  isDeleted := column mine.isDeleted found.isDeleted current.isDeleted

def ShareLink.expiresAt (link : ShareLink) : Option Nat := match link.expiresIn, link.expiresStartAt with
  | some hours, some start => if hours = 0 then none else some (start + hours * MS_PER_HOUR)
  | _, _ => none

def ShareLink.spent (link : ShareLink) : Bool := 0 ≤ link.maxAccessCount && link.maxAccessCount ≤ link.currentAccessCount

structure Useless where
  text : String
  saves : Option ShareLink

def ShareLink.marked (link : ShareLink) (status : ShareLinkStatus) : Option ShareLink :=
  if link.status = status then none else some { link with status }

def assertShareUsable (now : Nat) (link : ShareLink) (allowExistingPreview : Bool) : Except Useless Unit :=
  if link.isDeleted || link.status = .disabled then .error ⟨"分享已取消或不可用",none⟩
  else if link.expiresAt.any fun t => t < now then .error ⟨"分享已过期",link.marked .expired⟩
  else if !allowExistingPreview && link.spent then .error ⟨"分享访问次数已耗尽",link.marked .exhausted⟩
  else .ok ()

/-- `UpdateShareDto`. What is not given is not changed. The password comes as it has been hashed. -/
structure UpdateShareDto where
  password : Option (Option String)
  maxAccessCount : Option Int
  expiresIn : Option (Option Nat)
deriving DecidableEq

def ShareLink.revived (now : Nat) (link : ShareLink) : ShareLink :=
  if (link.status = .expired || link.status = .exhausted) && !link.spent && !link.expiresAt.any fun t => t < now then
    { link with status := .active }
  else link

/-- What `updateShare` makes of the row it has read. -/
def updateShare (now : Nat) (dto : UpdateShareDto) (link : ShareLink) : ShareLink :=
  ShareLink.revived now { link with
    password := dto.password.getD link.password
    maxAccessCount := dto.maxAccessCount.getD link.maxAccessCount
    expiresIn := dto.expiresIn.getD link.expiresIn
    expiresStartAt := match dto.expiresIn with
      | none => link.expiresStartAt
      | some none => none
      | some (some hours) => if hours = 0 then none else some now }

def cancelShare (link : ShareLink) : ShareLink := { link with isDeleted := true, status := .disabled }

/-- `startExpiryClock` -/
def startExpiryClock (now : Nat) (link : ShareLink) : ShareLink :=
  { link with expiresStartAt := some (link.expiresStartAt.getD now) }

def ShareLink.unstarted (link : ShareLink) : Bool := (link.expiresIn.any fun hours => hours ≠ 0) && link.expiresStartAt.isNone

def ShareLink.admits (link : ShareLink) : Bool := !link.isDeleted && !link.spent

def ShareLink.counted (link : ShareLink) : ShareLink := { link with currentAccessCount := link.currentAccessCount + 1 }

section
variable {now : Nat} {link mine found current : ShareLink} {dto : UpdateShareDto}

theorem admits_below (admits : link.admits = true) (limited : 0 ≤ link.maxAccessCount) :
    (link.currentAccessCount : Int) < link.maxAccessCount := by
  simp only [ShareLink.admits,ShareLink.spent,Bool.and_eq_true,Bool.not_eq_true',Bool.and_eq_false_imp,decide_eq_true_eq,
    decide_eq_false_iff_not] at admits
  omega

theorem useless_saves {useless : Useless} {allow : Bool} (refused : assertShareUsable now link allow = .error useless)
    (saves : useless.saves = some mine) : ∃ status, mine = { link with status } := by
  have marked : ∀ status, link.marked status = some mine → ∃ status, mine = { link with status } := by
    intro status found
    unfold ShareLink.marked at found
    split at found <;> cases found
    exact ⟨status,rfl⟩
  unfold assertShareUsable at refused
  split at refused
  · cases refused
    cases saves
  · split at refused
    · cases refused
      exact marked _ saves
    · split at refused <;> cases refused
      exact marked _ saves

@[simp] theorem revived_count : (ShareLink.revived now link).currentAccessCount = link.currentAccessCount := by
  unfold ShareLink.revived
  split <;> rfl

@[simp] theorem revived_max : (ShareLink.revived now link).maxAccessCount = link.maxAccessCount := by
  unfold ShareLink.revived
  split <;> rfl

@[simp] theorem revived_password : (ShareLink.revived now link).password = link.password := by
  unfold ShareLink.revived
  split <;> rfl

@[simp] theorem updateShare_count : (updateShare now dto link).currentAccessCount = link.currentAccessCount := by
  simp [updateShare]

@[simp] theorem updateShare_max : (updateShare now dto link).maxAccessCount = dto.maxAccessCount.getD link.maxAccessCount := by
  simp [updateShare]

@[simp] theorem updateShare_password : (updateShare now dto link).password = dto.password.getD link.password := by
  simp [updateShare]

end
end Tgtc.ShareLinks
