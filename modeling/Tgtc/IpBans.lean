import Mathlib
import Tgtc.RateLimits
import Tgtc.Runs

/-!
How an address is banned: for a while when passwords have been wrong too often, for longer when that has come too
often, and by an administrator, for good or until some time.
-/
namespace Tgtc.IpBans
open Runs Maps RateLimits

def BAN_6H : Nat := 6 * 3600 * 1000

def BAN_COUNT_LIMIT : Nat := 5

def BAN_WINDOW : Nat := 3600 * 1000

def PWD_WINDOW : Nat := 3600 * 1000

structure BannedIP where
  isPermanent : Bool
  expiresAt : Option Nat
  unbannedAt : Option Nat
  ends : isPermanent = expiresAt.isNone

def BannedIP.until (ban : BannedIP) : WithTop Nat := match ban.expiresAt with
  | some time => time
  | none => ⊤

def banned (expiresAt : Option Nat) : BannedIP := ⟨expiresAt.isNone,expiresAt,none,rfl⟩

/-- `isIPBanned`, with until when it is. -/
def inForce (now : Nat) : Option BannedIP → WithTop Nat
  | none => ⊥
  | some ban => if ban.unbannedAt.isNone ∧ now < ban.until then ban.until else ⊥

inductive Key where
  | pwd | ban
deriving DecidableEq

inductive Stage where
  | counting (asked limit duration : Nat)
  | countingBans (asked duration : Nat)
  | banning (count time duration : Nat)
  | resettingBans
  | resettingPwd
  /-- `banIP` of an administrator, after its check -/
  | inserting (expiresAt : Option Nat)
  | closed

structure Given where
  count : Nat
  time : Nat
  till : WithTop Nat

structure State where
  rows : OrderedMap Key RateLimit
  ban : Option BannedIP
  calls : List Stage
  given : List Given
  now : Nat

def State.start : State := ⟨.empty,none,[],[],0⟩

def State.go (s : State) (n : Nat) (stage : Stage) : State := { s with calls := s.calls.set n stage }

def lasts (count duration : Nat) : Nat := if BAN_COUNT_LIMIT ≤ count then BAN_6H else duration

/-- `recordFailedPasswordAttempt` and `recordFailedAttempt`, which differ in the text of the reason only, and `banIP`. -/
def State.run (s : State) (n : Nat) : Stage → State
  | .counting asked limit duration => match incrementCounter asked s.now s.rows .pwd limit PWD_WINDOW with
    | none => s.go n .closed
    | some (rows,_,reached) => { s.go n (if reached then .countingBans s.now duration else .closed) with rows }
  | .countingBans asked duration => match incrementCounter asked s.now s.rows .ban BAN_COUNT_LIMIT BAN_WINDOW with
    | none => s.go n .closed
    | some (rows,count,_) => { s.go n (.banning count s.now duration) with rows }
  | .banning count time duration => { s.go n (if BAN_COUNT_LIMIT ≤ count then .resettingBans else .resettingPwd) with
      ban := some (banned (some (time + lasts count duration))), given := s.given ++ [⟨count,time,↑(time + lasts count duration)⟩] }
  | .resettingBans => { s.go n .resettingPwd with rows := reset s.rows .ban }
  | .resettingPwd => { s.go n .closed with rows := reset s.rows .pwd }
  | .inserting expiresAt =>
    -- only a ban that has been lifted is written over
    if s.ban.any fun there => there.unbannedAt.isNone then s.go n .closed
    else { s.go n .closed with ban := some (banned expiresAt), given := s.given ++ [⟨0,s.now,(banned expiresAt).until⟩] }
  | .closed => s

inductive Label where
  | tick (ms : Nat)
  | wrong (limit duration : Nat)
  | banIP (expiresAt : Option Nat)
  | run (n : Nat)
  | fail (n : Nat)
  | unbanIP
  /-- bans that are over are marked as lifted, by a clock that has been read some time ago -/
  | cleanupExpiredBans (ago : Nat)

def step (s : State) : Label → State
  | .tick ms => { s with now := s.now + ms }
  | .wrong limit duration => { s with calls := s.calls ++ [.counting s.now limit duration] }
  | .banIP expiresAt => { s with calls := s.calls ++ [if expiresAt.any fun time => time ≤ s.now then .closed else .inserting expiresAt] }
  | .run n => match s.calls[n]? with
    | some stage => s.run n stage
    | none => s
  | .fail n => s.go n .closed
  | .unbanIP => { s with
      ban := s.ban.map fun ban => if ban.unbannedAt.isNone then { ban with unbannedAt := some s.now } else ban, given := [] }
  | .cleanupExpiredBans ago => { s with ban := s.ban.map fun ban =>
      if ban.unbannedAt.isNone ∧ ban.until < ↑(s.now - ago) then { ban with unbannedAt := some s.now } else ban }

def Heavier (s : State) : Label → Prop
  | .run n => ∀ stage ∈ s.calls[n]?, match stage with
    | .banning count time duration => inForce s.now s.ban ≤ ↑(time + lasts count duration)
    | _ => True
  | _ => True

instance (s : State) (l : Label) : Decidable (Heavier s l) := by
  cases l with
  | run n =>
    refine @Option.decidableForallMem _ _ (fun stage => ?_) _
    cases stage <;> dsimp only <;> infer_instance
  | _ => exact isTrue trivial

/-- A ban that has been given is in force until its end, or a longer one; the last that is counted is one of six hours. -/
def Upheld (s : State) : Prop := ∀ g ∈ s.given,
  (BAN_COUNT_LIMIT ≤ g.count → g.till = ↑(g.time + BAN_6H)) ∧ (↑s.now < g.till → g.till ≤ inForce s.now s.ban)

instance (s : State) : Decidable (Upheld s) := inferInstanceAs (Decidable (∀ g ∈ s.given, _ ∧ _))

section
variable {s : State} {now later : Nat} {ban : Option BannedIP} {t : WithTop Nat}

theorem inForce_cases (now : Nat) (ban : Option BannedIP) : inForce now ban = ⊥ ∨ ↑now < inForce now ban := by
  unfold inForce
  split
  · exact .inl rfl
  · split
    · next held => exact .inr held.2
    · exact .inl rfl

theorem inForce_banned (now : Nat) (expiresAt : Option Nat) :
    inForce now (some (banned expiresAt)) = if now < (banned expiresAt).until then (banned expiresAt).until else ⊥ := by
  by_cases lasts : (now : WithTop Nat) < (banned expiresAt).until
  · rw [if_pos lasts]
    exact if_pos ⟨rfl,lasts⟩
  · rw [if_neg lasts]
    exact if_neg fun held => lasts held.2

theorem inForce_later (lasts : later < t) (held : t ≤ inForce now ban) : t ≤ inForce later ban := by
  cases ban with
  | none => exact held
  | some ban =>
    unfold inForce at held ⊢
    dsimp only at held ⊢
    split at held
    · next there => rwa [if_pos ⟨there.1,lt_of_lt_of_le lasts held⟩]
    · exact absurd (lt_of_lt_of_le lasts held) not_lt_bot

theorem inForce_written (time : Nat) : inForce now ban ≤ inForce now (some (banned (some time))) ↔ inForce now ban ≤ time := by
  have ends : (banned (some time)).until = time := rfl
  rw [inForce_banned]
  split
  · rfl
  · next past =>
    rcases inForce_cases now ban with none | lasts
    · simp [none]
    · have ended : (time : WithTop Nat) ≤ now := not_lt.mp past
      exact ⟨fun le => le.trans bot_le,fun le => absurd (lt_of_lt_of_le lasts (le.trans ended)) (lt_irrefl _)⟩

theorem inForce_lifted (lifted : (ban.any fun there => there.unbannedAt.isNone) = false) : inForce now ban = ⊥ := by
  cases ban with
  | none => rfl
  | some ban =>
    have lifted : ban.unbannedAt.isNone = false := lifted
    simp [inForce,lifted]

inductive Written (s : State) : Stage → State → Prop
  | nothing {stage : Stage} {s' : State} (ban : s'.ban = s.ban) (given : s'.given = s.given) (now : s'.now = s.now)
      (other : ∀ count time duration, stage ≠ .banning count time duration) : Written s stage s'
  | bans {s' : State} (count time duration : Nat) (ban : s'.ban = some (banned (some (time + lasts count duration))))
      (given : s'.given = s.given ++ [⟨count,time,↑(time + lasts count duration)⟩]) (now : s'.now = s.now) :
      Written s (.banning count time duration) s'
  | inserts {s' : State} (expiresAt : Option Nat) (lifted : (s.ban.any fun there => there.unbannedAt.isNone) = false)
      (ban : s'.ban = some (banned expiresAt)) (given : s'.given = s.given ++ [⟨0,s.now,(banned expiresAt).until⟩]) (now : s'.now = s.now) :
      Written s (.inserting expiresAt) s'

theorem run_written (s : State) (n : Nat) (stage : Stage) : Written s stage (s.run n stage) := by
  cases stage with
  | counting asked limit duration => unfold State.run; dsimp only; split <;> exact .nothing rfl rfl rfl nofun
  | countingBans asked duration => unfold State.run; dsimp only; split <;> exact .nothing rfl rfl rfl nofun
  | banning count time duration => exact .bans count time duration rfl rfl rfl
  | inserting expiresAt =>
    unfold State.run
    dsimp only
    split
    · exact .nothing rfl rfl rfl nofun
    · next lifted => exact .inserts expiresAt (by simpa using lifted) rfl rfl rfl
  | _ => exact .nothing rfl rfl rfl nofun

def Stage.Heavier (s : State) : Stage → Prop
  | .banning count time duration => inForce s.now s.ban ≤ ↑(time + lasts count duration)
  | _ => True

theorem heavier_run {n : Nat} {stage : Stage} (there : s.calls[n]? = some stage) : Heavier s (.run n) ↔ Stage.Heavier s stage := by
  simp only [Heavier,there,Option.mem_some_iff,forall_eq']
  cases stage <;> rfl

theorem written_iff {stage : Stage} {s' : State} (written : Written s stage s') :
    inForce s.now s.ban ≤ inForce s'.now s'.ban ↔ Stage.Heavier s stage := by
  cases written with
  | nothing ban _ now other =>
    rw [ban,now]
    refine iff_of_true (le_refl _) ?_
    cases stage with
    | banning count time duration => exact absurd rfl (other count time duration)
    | _ => trivial
  | bans count time duration ban _ now =>
    rw [ban,now]
    exact inForce_written _
  | inserts expiresAt lifted _ _ _ =>
    rw [inForce_lifted lifted]
    exact iff_of_true bot_le trivial

theorem upheld_written {stage : Stage} {s' : State} (upheld : Upheld s) (written : Written s stage s') (heavier : Stage.Heavier s stage) :
    Upheld s' := by
  have grows := (written_iff written).mpr heavier
  have same : s'.now = s.now := by cases written <;> assumption
  have old : ∀ g ∈ s.given, (BAN_COUNT_LIMIT ≤ g.count → g.till = ↑(g.time + BAN_6H)) ∧ (↑s'.now < g.till → g.till ≤ inForce s'.now s'.ban) :=
    fun g member => ⟨(upheld g member).1,fun lasts => ((upheld g member).2 (same ▸ lasts)).trans grows⟩
  have writes : ∀ expiresAt, s'.ban = some (banned expiresAt) → ↑s'.now < (banned expiresAt).until →
      (banned expiresAt).until ≤ inForce s'.now s'.ban := by
    intro expiresAt ban lasts
    rw [ban,inForce_banned,if_pos lasts]
  intro g member
  cases written with
  | nothing _ given _ _ => exact old g (given ▸ member)
  | bans count time duration ban given _ =>
    rw [given] at member
    rcases List.mem_append.mp member with before | new
    · exact old g before
    · rw [List.mem_singleton.mp new]
      exact ⟨fun last => by rw [lasts,if_pos last],writes _ ban⟩
  | inserts expiresAt _ ban given _ =>
    rw [given] at member
    rcases List.mem_append.mp member with before | new
    · exact old g before
    · rw [List.mem_singleton.mp new]
      exact ⟨fun last => absurd last (by simp [BAN_COUNT_LIMIT]),writes _ ban⟩

theorem inForce_cleanup (now ago : Nat) (ban : Option BannedIP) : inForce now (ban.map fun ban =>
    if ban.unbannedAt.isNone ∧ ban.until < ↑(now - ago) then { ban with unbannedAt := some now } else ban) = inForce now ban := by
  cases ban with
  | none => rfl
  | some ban =>
    simp only [Option.map_some]
    split
    · next past =>
      have le : ((now - ago : Nat) : WithTop Nat) ≤ now := WithTop.coe_le_coe.mpr (Nat.sub_le _ _)
      have ended : ¬ (now : WithTop Nat) < ban.until := not_lt.mpr (past.2.le.trans le)
      simp [inForce,ended]
    · rfl

theorem upheld_start : Upheld .start := nofun

theorem upheld_step (upheld : Upheld s) (l : Label) (heavier : Heavier s l) : Upheld (step s l) := by
  cases l with
  | tick ms =>
    have le : s.now ≤ s.now + ms := Nat.le_add_right _ _
    intro g member
    refine ⟨(upheld g member).1,fun lasts => inForce_later lasts ((upheld g member).2 (lt_of_le_of_lt ?_ lasts))⟩
    exact WithTop.coe_le_coe.mpr le
  | run n =>
    unfold step
    dsimp only
    split
    · next there => exact upheld_written upheld (run_written s n _) ((heavier_run there).mp heavier)
    · exact upheld
  | unbanIP => exact nofun
  | cleanupExpiredBans ago =>
    intro g member
    have same : inForce (step s (.cleanupExpiredBans ago)).now (step s (.cleanupExpiredBans ago)).ban = inForce s.now s.ban :=
      inForce_cleanup s.now ago s.ban
    rw [same]
    exact upheld g member
  | _ => exact upheld

/-- Every ban that is given lasts until its end unless it is lifted, and a step lightens the ban exactly when it writes a shorter one. -/
theorem bans_upheld (reach : Reachable step Heavier .start s) : Upheld s ∧ ∀ l, (∀ ms, l ≠ .tick ms) → l ≠ .unbanIP →
    (inForce s.now s.ban ≤ inForce (step s l).now (step s l).ban ↔ Heavier s l) := by
  refine ⟨reachable_invariant upheld_start (fun _ l upheld heavier => upheld_step upheld l heavier) reach,fun l ticks lifts => ?_⟩
  cases l with
  | tick ms => exact absurd rfl (ticks ms)
  | unbanIP => exact absurd rfl lifts
  | run n =>
    unfold step
    dsimp only
    split
    · next there => exact (written_iff (run_written s n _)).trans (heavier_run there).symm
    · next gone => simp [Heavier,gone]
  | cleanupExpiredBans ago =>
    have same : inForce (step s (.cleanupExpiredBans ago)).now (step s (.cleanupExpiredBans ago)).ban = inForce s.now s.ban :=
      inForce_cleanup s.now ago s.ban
    rw [same]
    exact iff_of_true (le_refl _) trivial
  | _ => exact iff_of_true (le_refl _) trivial

def wrongs (first count : Nat) : List Label := (List.range count).flatMap fun n => [.wrong 5 300000,.run (first + n)]

def trigger (first : Nat) : List Label := wrongs first 5 ++ List.replicate 3 (Label.run (first + 4))

def fiveTriggers : List Label := (List.range 5).flatMap fun n => trigger (5 * n)

theorem five_triggers_six_hours : ∃ s, Reachable step Heavier .start s ∧ inForce s.now s.ban = ↑(s.now + BAN_6H) ∧ Upheld s :=
  have reach := reachable_run .start fiveTriggers (by decide +kernel)
  ⟨_,reach,by decide +kernel,(bans_upheld reach).1⟩

def bannedMeanwhile : List Label := wrongs 0 5 ++ [Label.banIP none,.run 5,.run 4,.run 4]

theorem permanent_ban_lightened : ¬ ∀ s, Reachable step (fun _ _ => True) .start s → Upheld s := by
  intro always
  have legal : Legal step (fun _ _ => True) .start bannedMeanwhile := by decide +kernel
  exact absurd (always _ (reachable_run .start bannedMeanwhile legal)) (by decide +kernel)

end
end Tgtc.IpBans
