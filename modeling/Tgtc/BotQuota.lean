import Mathlib
import Tgtc.BotDocuments

/-!
The daily quota of a user. A charge is taken before the grant is issued and given back where the grant is not saved;
the count of a day is the number of grants issued for it.
-/
namespace Tgtc.BotQuota
open BotDocuments Maps Runs

def charges (user date : String) (issue : LinkIssued) : Bool :=
  issue.telegramUserId = user && issue.quotaDate = date && !issue.viaWhitelist

def paid (s : State) (user date : String) : Nat := s.issues.countP (charges user date)

/-- The count of the date is the number of grants, when no document of the user is under way. -/
def Exact (env : Env) (s : State) : Prop := ∀ user date, (∀ h ∈ s.handlers, h.user env = user → h.done = true) →
  getUsed s.usage user date = paid s user date

def Recorded (s : State) : Prop := s.issues.map LinkIssued.telegramUserId = s.grants.map Grant.telegramUserId

/-- No charge has brought a count beyond the limit in force. -/
def Within (s : State) : Prop := ∀ charge ∈ s.charges, charge.used ≤ charge.limit

def Stage.metersCharge : Stage → Bool
  | .metering _ quotaConsumed => quotaConsumed
  | _ => false

/-- The count can be read after a charge, and the limit is not lowered while someone is charged by the old one. -/
def Regular (s : State) : Label → Prop
  | .fail i => ∀ h ∈ s.handlers[i]?, Stage.metersCharge h.stage = false
  | .configure config => ∀ h ∈ s.handlers, ∀ limit ∈ h.stage.offered, limit ≤ config.dailyLimit
  | _ => True

instance (s : State) (l : Label) : Decidable (Regular s l) := by
  induction l using Label.casesOn <;> unfold Regular <;> infer_instance

def owes (env : Env) (user date : String) (h : Handler) : Bool := h.user env = user && h.stage.held.any (·.usageDate = date)

def owed (env : Env) (s : State) (user date : String) : Nat := s.handlers.countP (owes env user date)

def Charged (env : Env) (s : State) : Prop := ∀ user date, getUsed s.usage user date = paid s user date + owed env s user date

section
variable {env : Env} {s s' : State} {usage usage' : DailyUsage} {user date user' date' : String} {limit i : Nat} {h : Handler}
  {stage : Stage} {terms : Terms} {l : Label}

theorem getUsed_ensure : getUsed (ensureUsageRow usage user date) user' date' = getUsed usage user' date' := by
  unfold ensureUsageRow
  split
  · next absent =>
    by_cases same : (user',date') = (user,date)
    · simp only [getUsed,same,get_set_same,absent,Option.getD_none,Option.getD_some]
    · simp only [getUsed,get_set_other _ _ same]
  · rfl

theorem consume_some (charged : consume usage user date limit = some usage') :
    getUsed usage' user date = getUsed usage user date + 1 ∧ getUsed usage' user date ≤ limit ∧
      ∀ user' date', (user',date') ≠ (user,date) → getUsed usage' user' date' = getUsed usage user' date' := by
  unfold consume at charged
  split at charged
  · next issuedCount found =>
    split at charged
    · next below =>
      cases charged
      have after : getUsed (usage.set (user,date) (issuedCount + 1)) user date = issuedCount + 1 := by simp [getUsed,get_set_same]
      have before : getUsed usage user date = issuedCount := by simp [getUsed,found]
      refine ⟨by rw [after,before],by omega,fun user' date' other => ?_⟩
      simp only [getUsed,get_set_other _ _ other]
    · cases charged
  · cases charged

theorem getUsed_refund (positive : 0 < getUsed usage user date) :
    getUsed (refund usage user date) user date + 1 = getUsed usage user date ∧
      ∀ user' date', (user',date') ≠ (user,date) → getUsed (refund usage user date) user' date' = getUsed usage user' date' := by
  unfold refund
  split
  · next issuedCount found =>
    have before : getUsed usage user date = issuedCount := by simp [getUsed,found]
    rw [before] at positive
    rw [if_pos positive]
    have after : getUsed (usage.set (user,date) (issuedCount - 1)) user date = issuedCount - 1 := by simp [getUsed,get_set_same]
    refine ⟨by omega,fun user' date' other => ?_⟩
    simp only [getUsed,get_set_other _ _ other]
  · next absent => simp [getUsed,absent] at positive

theorem owes_eq_true : owes env user date h = true ↔ h.user env = user ∧ ∃ terms, h.stage.held = some terms ∧ terms.usageDate = date := by
  simp [owes,Option.any_eq_true]

theorem owes_of_not_held (held : h.stage.held = none) : owes env user date h = false := by simp [owes,held]

theorem owed_goes (env : Env) (stage : Stage) (there : s.handlers[i]? = some h) (user date : String) :
    owed env (s.goes i h stage) user date + (if owes env user date h then 1 else 0) =
      owed env s user date + (if owes env user date { h with stage } then 1 else 0) :=
  countP_replace (owes env user date) there

theorem owes_held (held : h.stage.held = some terms) :
    owes env user date h = decide ((user,date) = (h.user env,terms.usageDate)) := by
  simp [owes,held,eq_comm]

theorem owed_done (done : ∀ h ∈ s.handlers, h.user env = user → h.done = true) : owed env s user date = 0 := by
  refine List.countP_eq_zero.mpr fun h member owing => ?_
  obtain ⟨mine,terms,held,_⟩ := owes_eq_true.mp owing
  have ended := done h member mine
  cases stage : h.stage with
  | answered _ | dropped => simp [stage,Stage.held] at held
  | _ => simp [Handler.done,stage] at ended

structure Sound (env : Env) (s : State) : Prop where
  charged : Charged env s
  offered : ∀ h ∈ s.handlers, ∀ limit ∈ h.stage.offered, limit ≤ s.config.dailyLimit
  within : Within s
  recorded : Recorded s

theorem offered_goes (offered : ∀ h ∈ s.handlers, ∀ limit ∈ h.stage.offered, limit ≤ s.config.dailyLimit)
    (mine : ∀ limit ∈ stage.offered, limit ≤ s.config.dailyLimit) :
    ∀ h' ∈ (s.goes i h stage).handlers, ∀ limit ∈ h'.stage.offered, limit ≤ s.config.dailyLimit := by
  intro h' member
  rcases List.mem_or_eq_of_mem_set member with old | rfl
  · exact offered h' old
  · exact mine

theorem charged_goes (stage : Stage) (charged : Charged env s) (there : s.handlers[i]? = some h) (held : stage.held = h.stage.held) :
    Charged env (s.goes i h stage) := by
  intro user date
  have same : owes env user date { h with stage } = owes env user date h := by
    simp only [owes,held]
    rfl
  have moved := owed_goes env stage there user date
  rw [same] at moved
  have := charged user date
  show getUsed s.usage user date = paid s user date + _
  omega

theorem sound_start (config : Config) : Sound env (State.start config) where
  charged := fun _ _ => rfl
  offered := nofun
  within := nofun
  recorded := rfl

section
variable (charged : Charged env s) (there : s.handlers[i]? = some h)
include charged there

theorem charged_consume (charging : h.stage = .charging terms)
    (consumed : consume s.usage (h.user env) terms.usageDate limit = some usage) (charges : List Charge) :
    Charged env { s.goes i h (.metering terms true) with usage, charges } := by
  intro user date
  have moved := owed_goes env (.metering terms true) there user date
  rw [owes_of_not_held (by simp [charging,Stage.held]),
    owes_held (h := { h with stage := .metering terms true }) (show Stage.held _ = some terms from rfl)] at moved
  obtain ⟨here,_,elsewhere⟩ := consume_some consumed
  have before := charged user date
  show getUsed usage user date = paid s user date + owed env (s.goes i h (.metering terms true)) user date
  by_cases same : (user,date) = (h.user env,terms.usageDate)
  · cases same
    simp only [Handler.user,Handler.message,decide_true,if_true,Bool.false_eq_true,if_false] at moved here before ⊢
    omega
  · rw [elsewhere user date same]
    have unmoved : ¬ (user,date) = (Handler.user env { h with stage := .metering terms true },terms.usageDate) := same
    simp only [unmoved,decide_false] at moved
    omega

theorem charged_refund (refunding : h.stage = .refunding terms) :
    Charged env { s.goes i h (.answered .internalError) with usage := refund s.usage (h.user env) terms.usageDate } := by
  have held : h.stage.held = some terms := by simp [refunding,Stage.held]
  have owing : 0 < owed env s (h.user env) terms.usageDate :=
    List.countP_pos_iff.mpr ⟨h,List.mem_of_getElem? there,by simp [owes_held held]⟩
  have positive : 0 < getUsed s.usage (h.user env) terms.usageDate := by
    rw [charged]
    omega
  obtain ⟨here,elsewhere⟩ := getUsed_refund positive
  intro user date
  have moved := owed_goes env (.answered .internalError) there user date
  rw [owes_held held,owes_of_not_held (h := { h with stage := .answered .internalError }) rfl] at moved
  have before := charged user date
  show getUsed (refund s.usage (h.user env) terms.usageDate) user date =
    paid s user date + owed env (s.goes i h (.answered .internalError)) user date
  by_cases same : (user,date) = (h.user env,terms.usageDate)
  · cases same
    simp only [decide_true,if_true,Bool.false_eq_true,if_false] at moved
    omega
  · rw [elsewhere user date same]
    simp only [same,decide_false] at moved
    omega

theorem charged_issue {quotaConsumed : Bool} {reply : Reply} (issuing : h.stage = .issuing terms quotaConsumed) (grants : List Grant) :
    Charged env { s.goes i h (.answered reply) with
      grants, issues := s.issues ++ [⟨h.user env,terms.usageDate,!quotaConsumed⟩] } := by
  intro user date
  have moved := owed_goes env (.answered reply) there user date
  rw [owes_of_not_held (h := { h with stage := .answered reply }) rfl] at moved
  have before := charged user date
  show getUsed s.usage user date = (s.issues ++ [_]).countP (charges user date) + owed env (s.goes i h (.answered reply)) user date
  rw [List.countP_append,List.countP_singleton]
  replace before : getUsed s.usage user date = s.issues.countP (charges user date) + owed env s user date := before
  cases quotaConsumed with
  | false =>
    rw [owes_of_not_held (by simp [issuing,Stage.held])] at moved
    simp only [charges,Bool.not_false,Bool.not_true,Bool.and_false,Bool.false_eq_true,if_false] at moved ⊢
    omega
  | true =>
    rw [owes_held (show h.stage.held = some terms by simp [issuing,Stage.held])] at moved
    by_cases same : (user,date) = (h.user env,terms.usageDate)
    · cases same
      simp only [charges,decide_true,Bool.not_true,Bool.not_false,Bool.and_self,Bool.false_eq_true,if_false] at moved ⊢
      omega
    · have other : charges user date ⟨h.user env,terms.usageDate,!true⟩ = false := by
        by_contra counted
        simp only [charges,Bool.not_eq_false,Bool.and_eq_true,decide_eq_true_eq] at counted
        exact same (by rw [counted.1.1,counted.1.2])
      simp only [other,same,decide_false,Bool.false_eq_true,if_false] at moved ⊢
      omega

end

theorem sound_step (sound : Sound env s) (regular : Regular s l) : Sound env (step env s l) := by
  have move := step_moves env s l
  generalize step env s l = s' at move ⊢
  cases move with
  | tick | whitelist | stay => exact { sound with }
  | configure => exact ⟨sound.charged,regular,sound.within,sound.recorded⟩
  | @revoke key till =>
    refine ⟨sound.charged,sound.offered,sound.within,sound.recorded.trans ?_⟩
    simp only [List.map_map,Function.comp_def]
    refine List.map_congr_left fun grant _ => ?_
    split <;> rfl
  | @deliver account chatId messageId =>
    have quiet : (arrive env account chatId messageId).stage.held = none ∧ (arrive env account chatId messageId).stage.offered = none := by
      simp only [arrive]
      split <;> exact ⟨rfl,rfl⟩
    refine ⟨fun user date => ?_,fun h member => ?_,sound.within,sound.recorded⟩
    · show getUsed s.usage user date = paid s user date + (s.handlers ++ [_]).countP (owes env user date)
      rw [List.countP_append,List.countP_singleton,owes_of_not_held quiet.1]
      exact sound.charged user date
    · rcases List.mem_append.mp member with old | new
      · exact sound.offered h old
      · rw [List.mem_singleton.mp new,quiet.2]
        intro limit own
        cases own
  | @found i token h existing there looking found =>
    exact ⟨charged_goes _ sound.charged there (by simp [looking,Stage.held]),offered_goes sound.offered (by intros; contradiction),sound.within,sound.recorded⟩
  | @replay i token h existing there replaying =>
    exact ⟨charged_goes _ sound.charged there (by simp [replaying,Stage.held]),offered_goes sound.offered (by intros; contradiction),sound.within,sound.recorded⟩
  | @configured i token h origin date there configuring =>
    refine ⟨charged_goes _ sound.charged there (by simp [configuring,Stage.held]),offered_goes sound.offered ?_,sound.within,sound.recorded⟩
    intro limit own
    cases own
    exact le_rfl
  | @ensure i token h terms there ensuring =>
    have charged := charged_goes (.charging terms) sound.charged there (by simp [ensuring,Stage.held])
    refine ⟨fun user date => ?_,offered_goes sound.offered ?_,sound.within,sound.recorded⟩
    · rw [getUsed_ensure]
      exact charged user date
    · intro limit own
      exact sound.offered h (List.mem_of_getElem? there) limit (by simpa [ensuring,Stage.offered] using own)
  | @charge i token h terms usage there charging consumed =>
    refine ⟨charged_consume sound.charged there charging consumed _,offered_goes sound.offered (by intros; contradiction),fun charge member => ?_,sound.recorded⟩
    rcases List.mem_append.mp member with old | new
    · exact sound.within charge old
    · rw [List.mem_singleton.mp new]
      exact (consume_some consumed).2.1.trans
        (sound.offered h (List.mem_of_getElem? there) terms.config.dailyLimit (by simp [charging,Stage.offered]))
  | @lose i h terms there metering =>
    have read := regular h there
    simp [metering,Stage.metersCharge] at read
  | @refund l i h terms there refunding =>
    exact ⟨charged_refund sound.charged there refunding,offered_goes sound.offered (by intros; contradiction),sound.within,sound.recorded⟩
  | @pass l i h stage there silent held offered =>
    exact ⟨charged_goes _ sound.charged there held,
      offered_goes sound.offered fun limit own => sound.offered h (List.mem_of_getElem? there) limit (offered limit own),
      sound.within,sound.recorded⟩
  | @issue i token h terms quotaConsumed grants there issuing saved =>
    refine ⟨charged_issue sound.charged there issuing grants,offered_goes sound.offered (by intros; contradiction),sound.within,?_⟩
    have added : grants = s.grants ++ [newGrant env h terms.config.linkTtlHours s.now token] := by
      unfold insertGrant at saved
      split at saved <;> cases saved
      rfl
    show (s.issues ++ [_]).map LinkIssued.telegramUserId = grants.map Grant.telegramUserId
    rw [added,List.map_append,List.map_append,sound.recorded]
    rfl

/-- What has been charged is what was issued and within the limit in force, if each count can be read.
-/
theorem quota_exact (config : Config) (reach : Reachable (step env) Regular (State.start config) s) :
    Exact env s ∧ Recorded s ∧ Within s := by
  have sound := reachable_invariant (sound_start config) (fun _ _ sound regular => sound_step sound regular) reach
  refine ⟨fun user date done => ?_,sound.recorded,sound.within⟩
  rw [sound.charged,owed_done done,Nat.add_zero]

end

theorem some_faithful (token cipher : String) (encrypted : some token = some cipher) (token' : String)
    (decrypted : some cipher = some token') : token' = token :=
  (Option.some.inj decrypted).symm.trans (Option.some.inj encrypted).symm

def oneBot : Env where
  messageOf _ _ _ := ⟨⟨"42",none,none⟩,⟨"file",none,none,none,none⟩⟩
  crypto := ⟨id,some,some,some_faithful⟩
  businessDate _ _ := "2025-01-01"
  isValidSiteOrigin _ := true
  normalizeOrigin := id
  APP_URL := "https://site"

def usual : Config := ⟨4,5,"Asia/Shanghai",false,""⟩

def unsaved : List Label := Label.deliver "100" "42" "7" :: List.replicate 8 (.go 0 "a") ++ [Label.fail 0,.go 0 "a"]

theorem quota_exact_unsaved :
    Exact oneBot (unsaved.foldl (step oneBot) (State.start usual)) ∧ Recorded (unsaved.foldl (step oneBot) (State.start usual)) ∧
      Within (unsaved.foldl (step oneBot) (State.start usual)) :=
  quota_exact usual (reachable_run .start unsaved (by decide +kernel))

def unread : List Label := Label.deliver "100" "42" "7" :: List.replicate 7 (.go 0 "a") ++ [Label.fail 0]

theorem charged_unread : ¬ ∀ s, Reachable (step oneBot) (fun _ _ => True) (State.start usual) s → Exact oneBot s := by
  intro always
  have legal : Legal (step oneBot) (fun _ _ => True) (State.start usual) unread := by decide +kernel
  have settled := always _ (reachable_run .start _ legal) "42" "2025-01-01" (by decide +kernel)
  exact absurd settled (by decide +kernel)

end Tgtc.BotQuota
