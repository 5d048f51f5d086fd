import Mathlib.Data.List.Chain
import Tgtc.RateLimits
import Tgtc.Runs

/-!
The windows of the counters. Fewer attempts go on in a window than lock the key; but a cleanup that takes away a row
whose lock is over, and not its window, lets more of them go on.
-/
namespace Tgtc.RateWindows
open Maps RateLimits Runs
universe u

section
variable {Key : Type u} [DecidableEq Key]

/-- The answers come with the start of the window in the row after the check, the last first. -/
structure State (Key : Type u) where
  rows : OrderedMap Key RateLimit
  answers : List (Nat × Bool)

structure Moment where
  asked : Nat
  now : Nat

section
variable (key : Key) (maxAttempts lockDurationMs windowMs : Nat)

def check (s : State Key) (moment : Moment) : State Key :=
  match checkAndIncrement moment.asked moment.now s.rows key maxAttempts lockDurationMs windowMs with
  | none => s
  | some (rows,allowed) => ⟨rows,(rows.get key).toList.map (fun row => (row.firstAttemptAt,allowed)) ++ s.answers⟩

def Spaced (answers : List (Nat × Bool)) : Prop :=
  answers.IsChain fun later earlier => later.1 = earlier.1 ∨ earlier.1 + windowMs < later.1

structure Tallied (answers : List (Nat × Bool)) (row : RateLimit) : Prop where
  last : ∀ answer ∈ answers.head?, answer.1 = row.firstAttemptAt
  past : ∀ answer ∈ answers, answer.1 ≤ row.firstAttemptAt
  spaced : Spaced windowMs answers
  few : ∀ first, answers.count (first,true) < maxAttempts
  counted : answers.count (row.firstAttemptAt,true) ≤ row.attemptCount

def Inv (s : State Key) : Prop := match s.rows.get key with
  | none => s.answers = []
  | some row => Tallied maxAttempts windowMs s.answers row

end

variable {key : Key} {asked now maxAttempts lockDurationMs windowMs : Nat} {answers : List (Nat × Bool)} {row row' : RateLimit}
  {s : State Key} {moment : Moment} {allowed : Bool}

theorem tallied_same (tallied : Tallied maxAttempts windowMs answers row) (same : row'.firstAttemptAt = row.firstAttemptAt)
    (more : row.attemptCount + allowed.toNat ≤ row'.attemptCount) (free : allowed = true → row.attemptCount + 1 < maxAttempts) :
    Tallied maxAttempts windowMs ((row'.firstAttemptAt,allowed) :: answers) row' := by
  obtain ⟨last,past,spaced,few,counted⟩ := tallied
  have added (first : Nat) : ((row'.firstAttemptAt,allowed) :: answers).count (first,true) =
      answers.count (first,true) + if row.firstAttemptAt = first then allowed.toNat else 0 := by
    rw [List.count_cons,same]
    cases allowed <;> simp
  refine ⟨by simp,?_,?_,fun first => ?_,?_⟩
  · simpa [same] using past
  · exact List.isChain_cons.mpr ⟨fun earlier first => .inl (same.trans (last earlier first).symm),spaced⟩
  · rw [added]
    split
    · next here =>
      subst here
      cases allowed with
      | false => exact few _
      | true => exact Nat.lt_of_le_of_lt (Nat.succ_le_succ counted) (free rfl)
    · exact few first
  · rw [added,same,if_pos rfl]
    omega

theorem tallied_restart (tallied : Tallied maxAttempts windowMs answers row) (several : 2 ≤ maxAttempts)
    (ended : row.firstAttemptAt + windowMs < row'.firstAttemptAt) (one : row'.attemptCount = 1) :
    Tallied maxAttempts windowMs ((row'.firstAttemptAt,allowed) :: answers) row' := by
  obtain ⟨last,past,spaced,few,_⟩ := tallied
  have unseen : answers.count (row'.firstAttemptAt,true) = 0 := by
    refine List.count_eq_zero.mpr fun member => ?_
    have before : row'.firstAttemptAt ≤ row.firstAttemptAt := past _ member
    omega
  refine ⟨by simp,fun answer member => ?_,?_,fun first => ?_,?_⟩
  · rcases List.mem_cons.mp member with rfl | old
    · exact Nat.le_refl _
    · have before := past answer old
      omega
  · exact List.isChain_cons.mpr ⟨fun earlier first => .inr (last earlier first ▸ ended),spaced⟩
  · rw [List.count_cons]
    split
    · next same =>
      have here : row'.firstAttemptAt = first := congrArg Prod.fst (eq_of_beq same)
      rw [← here]
      omega
    · exact few first
  · rw [List.count_cons]
    split <;> omega

theorem inv_check (inv : Inv key maxAttempts windowMs s) (several : 2 ≤ maxAttempts) (order : moment.asked ≤ moment.now) :
    Inv key maxAttempts windowMs (check key maxAttempts lockDurationMs windowMs s moment) := by
  unfold check
  split
  · exact inv
  next rows allowed checked =>
  by_cases locked : ∃ row, s.rows.get key = some row ∧ row.locked moment.now = true
  · obtain ⟨row,there,locked⟩ := locked
    obtain ⟨rfl,rfl⟩ := check_locked there locked checked
    simp only [Inv,there] at inv ⊢
    exact tallied_same inv rfl (Nat.le_refl _) (by intros; contradiction)
  · have unlocked : ∀ row, s.rows.get key = some row → row.locked moment.now = false := fun row there =>
      Bool.eq_false_iff.mpr fun held => locked ⟨row,there,held⟩
    obtain ⟨row',there,⟨positive,rfl⟩,⟨absent,rfl⟩ | ⟨row,before,_,rewritten⟩⟩ := check_unlocked unlocked checked
    · simp only [Inv,absent,there] at inv ⊢
      simp only [inv]
      have one (allowed : Bool) (first : Nat) : [(moment.asked,allowed)].count (first,true) ≤ 1 := List.count_le_length
      exact ⟨by simp,by simp,List.isChain_singleton _,fun first => Nat.lt_of_le_of_lt (one _ first) several,one _ _⟩
    · simp only [Inv,before,there] at inv ⊢
      cases rewritten with
      | restarts ended => exact tallied_restart inv several ended rfl
      | locks within many =>
        have still : moment.asked < moment.now + lockDurationMs := by omega
        exact tallied_same inv rfl (by simp [still]) (by simp [still])
      | counts within few => exact tallied_same inv rfl (Nat.add_le_add_left (Bool.toNat_le _) _) fun _ => few

inductive Label (Key : Type u) where
  | check (key : Key) (moment : Moment) (maxAttempts lockDurationMs windowMs : Nat)
  | increment (key : Key) (moment : Moment) (threshold windowMs : Nat)
  | cleanupExpired (time : Nat)

inductive Answer where
  | thrown
  | allowed (allowed : Bool)
  | counted (count : Nat) (thresholdReached : Bool)
deriving DecidableEq

/-- What a call answers, and the table after it. -/
def answer (rows : OrderedMap Key RateLimit) : Label Key → Answer × OrderedMap Key RateLimit
  | .check key moment maxAttempts lockDurationMs windowMs =>
    match checkAndIncrement moment.asked moment.now rows key maxAttempts lockDurationMs windowMs with
    | none => (.thrown,rows)
    | some (rows,allowed) => (.allowed allowed,rows)
  | .increment key moment threshold windowMs => match incrementCounter moment.asked moment.now rows key threshold windowMs with
    | none => (.thrown,rows)
    | some (rows,count,thresholdReached) => (.counted count thresholdReached,rows)
  | .cleanupExpired time => (.thrown,cleanupExpired time rows)

/-- A table beside one that is never cleaned up. -/
structure Twins (Key : Type u) where
  rows : OrderedMap Key RateLimit
  uncleaned : OrderedMap Key RateLimit
  answers : List (Answer × Answer)
  time : Nat

def Label.time : Label Key → Nat × Nat
  | .check _ moment .. | .increment _ moment .. => (moment.asked,moment.now)
  | .cleanupExpired time => (time,time)

def step (s : Twins Key) (l : Label Key) : Twins Key :=
  let cleaned := answer s.rows l
  match l with
  | .cleanupExpired _ => { s with rows := cleaned.2, time := l.time.2 }
  | _ =>
    let uncleaned := answer s.uncleaned l
    ⟨cleaned.2,uncleaned.2,(cleaned.1,uncleaned.1) :: s.answers,l.time.2⟩

def Allowed (s : Twins Key) (l : Label Key) : Prop := s.time ≤ l.time.1 ∧ l.time.1 ≤ l.time.2 ∧ match l with
  | .check _ _ _ _ windowMs => windowMs ≤ MAX_WINDOW_MS
  | _ => True

/-- A call finds no row taken away whose lock was over and whose window is not; and where a row has been taken away, more than one
attempt is asked for. -/
def Kept (s : Twins Key) : Label Key → Prop
  | .check key moment maxAttempts _ windowMs => s.rows.get key = none → ∀ row ∈ s.uncleaned.get key,
      2 ≤ maxAttempts ∧ (row.lockedUntil.isSome → row.firstAttemptAt + windowMs < moment.asked)
  | .increment key moment _ windowMs => s.rows.get key = none → ∀ row ∈ s.uncleaned.get key,
      row.lockedUntil.isSome → row.firstAttemptAt + windowMs < moment.asked
  | .cleanupExpired _ => True

instance (s : Twins Key) (l : Label Key) : Decidable (Allowed s l) := by
  cases l <;> unfold Allowed <;> infer_instance

instance (s : Twins Key) (l : Label Key) : Decidable (Kept s l) := by
  cases l <;> unfold Kept <;> infer_instance

/-- What a statement makes of the row of its key. -/
def effect : Label Key → Option RateLimit → Answer × Option RateLimit
  | .check _ moment maxAttempts lockDurationMs windowMs, row =>
    if lockDurationMs = 0 || MAX_WINDOW_MS < lockDurationMs then (.thrown,none)
    else match upsert moment.asked moment.now maxAttempts lockDurationMs windowMs row with
      | .skipped => (.allowed false,none)
      | .thrown => (.thrown,none)
      | .written row => (.allowed (!row.lockedUntil.any fun till => moment.asked < till),some row)
  | .increment _ moment threshold windowMs, row =>
    if threshold = 0 || windowMs = 0 || MAX_WINDOW_MS < windowMs then (.thrown,none)
    else match increment moment.asked moment.now windowMs row with
      | none => (.thrown,none)
      | some row => (.counted row.attemptCount (threshold ≤ row.attemptCount),some row)
  | .cleanupExpired _, _ => (.thrown,none)

def Label.target : Label Key → Option Key
  | .check key .. | .increment key .. => some key
  | .cleanupExpired _ => none

def Over (time : Nat) (row : RateLimit) : Prop := match row.lockedUntil with
  | some till => till < time
  | none => row.firstAttemptAt + MAX_WINDOW_MS < time

structure Beside (s : Twins Key) : Prop where
  answers : ∀ answer ∈ s.answers,answer.1 = answer.2
  rows : ∀ key,s.rows.get key = s.uncleaned.get key ∨ s.rows.get key = none ∧ ∀ row ∈ s.uncleaned.get key,Over s.time row
  begun : ∀ key,∀ row ∈ s.uncleaned.get key,row.firstAttemptAt ≤ row.updatedAt ∧ row.updatedAt ≤ s.time

variable {l : Label Key} {t : Twins Key} {rows : OrderedMap Key RateLimit}

theorem answer_effect (here : l.target = some key) : answer rows l =
    ((effect l (rows.get key)).1,(effect l (rows.get key)).2.elim rows (rows.set key)) := by
  cases l with
  | check =>
    cases here
    unfold answer effect checkAndIncrement
    dsimp only
    split_ifs
    · rfl
    · cases upsert _ _ _ _ _ _ <;> rfl
  | increment =>
    cases here
    unfold answer effect incrementCounter
    dsimp only
    split_ifs
    · rfl
    · cases increment _ _ _ _ <;> rfl
  | cleanupExpired => cases here

omit [DecidableEq Key] in
theorem effect_begun {found : Option RateLimit} (written : (effect l found).2 = some row') (order : l.time.1 ≤ l.time.2)
    (before : ∀ row ∈ found,row.firstAttemptAt ≤ l.time.2) : row'.firstAttemptAt ≤ row'.updatedAt ∧ row'.updatedAt = l.time.2 := by
  cases l with
  | check =>
    unfold effect at written
    dsimp only at written
    split at written
    · cases written
    split at written <;> cases written
    next saved =>
    cases found with
    | none =>
      cases saved
      exact ⟨order,rfl⟩
    | some row =>
      cases (upsert_written saved).2.2 with
      | restarts => exact ⟨order,rfl⟩
      | locks | counts => exact ⟨before row rfl,rfl⟩
  | increment =>
    unfold effect increment at written
    dsimp only at written
    split at written
    · cases written
    split at written <;> cases written
    next saved =>
    cases found with
    | none =>
      cases saved
      exact ⟨order,rfl⟩
    | some row =>
      dsimp only at saved
      split_ifs at saved <;> cases saved
      · exact ⟨order,rfl⟩
      · exact ⟨before row rfl,rfl⟩
  | cleanupExpired => cases written

theorem over_unlocked {time : Nat} (spent : Over time row) (after : time ≤ now) :
    row.locked now = false ∧ row.lockedUntil.filter (fun till => now < till) = none := by
  cases held : row.lockedUntil with
  | none => simp [RateLimit.locked,held]
  | some till =>
    simp only [Over,held] at spent
    simp only [RateLimit.locked,held,Option.any_some,Option.filter_eq_none_iff,decide_eq_true_eq,decide_eq_false_iff_not]
    exact ⟨by omega,by rintro _ ⟨⟩; omega⟩

theorem over_ended {time : Nat} (spent : Over time row) (after : time ≤ asked) (short : windowMs ≤ MAX_WINDOW_MS)
    (ended : row.lockedUntil.isSome → row.firstAttemptAt + windowMs < asked) : row.firstAttemptAt + windowMs < asked := by
  cases held : row.lockedUntil with
  | none =>
    simp only [Over,held] at spent
    omega
  | some till => exact ended (by rw [held]; rfl)

theorem over_later {time time' : Nat} (after : time ≤ time') (spent : Over time row) : Over time' row := by
  unfold Over at spent ⊢
  split at spent <;> omega

theorem stale_over {time : Nat} (begun : row.firstAttemptAt ≤ row.updatedAt) (stale : row.stale time = true) : Over time row := by
  cases held : row.lockedUntil with
  | some till => simpa [Over,RateLimit.stale,held] using stale
  | none =>
    simp only [RateLimit.stale,held,decide_eq_true_eq] at stale
    simp only [Over,held]
    exact Nat.lt_of_le_of_lt (Nat.add_le_add_right begun _) stale

theorem effect_over {s : Twins Key} (here : l.target = some key) (allowed : Allowed s l) (kept : Kept s l) (gone : s.rows.get key = none)
    (there : s.uncleaned.get key = some row) (spent : Over s.time row) : effect l none = effect l (some row) := by
  obtain ⟨order,later,short⟩ := allowed
  cases l with
  | check key moment maxAttempts lockDurationMs windowMs =>
    cases here
    obtain ⟨several,ended⟩ := kept gone row there
    have unlocked : row.locked moment.now = false := (over_unlocked spent (order.trans later)).1
    have ended : row.firstAttemptAt + windowMs < moment.asked := over_ended spent order short ended
    simp [effect,upsert,unlocked,ended,Nat.not_le.mpr several]
  | increment key moment threshold windowMs =>
    cases here
    simp only [effect]
    split
    · rfl
    · next valid =>
      simp only [Bool.or_eq_true,decide_eq_true_eq,not_or,Nat.not_lt] at valid
      have ended : row.firstAttemptAt + windowMs < moment.asked := over_ended spent order valid.2 (kept gone row there)
      have unlocked : row.lockedUntil.filter (fun till => moment.now < till) = none := (over_unlocked spent (order.trans later)).2
      simp [increment,ended,unlocked]
  | cleanupExpired => cases here

theorem beside_call {s : Twins Key} (beside : Beside s) (allowed : Allowed s l) (kept : Kept s l) (found : l.target = some key) :
    Beside (step s l) := by
  have same : effect l (s.rows.get key) = effect l (s.uncleaned.get key) := by
    rcases beside.rows key with same | ⟨gone,spent⟩
    · rw [same]
    · cases there : s.uncleaned.get key with
      | none => rw [gone]
      | some row => rw [gone,effect_over found allowed kept gone there (spent row there)]
  have now : s.time ≤ l.time.2 := allowed.1.trans allowed.2.1
  have stepped : step s l = ⟨(answer s.rows l).2,(answer s.uncleaned l).2,((answer s.rows l).1,(answer s.uncleaned l).1) :: s.answers,
      l.time.2⟩ := by
    cases l with
    | check | increment => rfl
    | cleanupExpired => cases found
  rw [stepped,answer_effect found,answer_effect found,same]
  have later : ∀ row,Over s.time row → Over l.time.2 row := fun row => over_later now
  refine ⟨?_,fun other => ?_,fun other row there => ?_⟩
  · rintro answer (_ | ⟨_,old⟩)
    · rfl
    · exact beside.answers answer old
  · cases written : (effect l (s.uncleaned.get key)).2 with
    | none => exact (beside.rows other).imp_right fun ⟨gone,spent⟩ => ⟨gone,fun row there => later row (spent row there)⟩
    | some row =>
      by_cases here : other = key
      · subst here
        exact .inl ((get_set_same _ _ _).trans (get_set_same _ _ _).symm)
      · simp only [Option.elim_some,get_set_other _ _ here]
        exact (beside.rows other).imp_right fun ⟨gone,spent⟩ => ⟨gone,fun row there => later row (spent row there)⟩
  · have old : ∀ row ∈ s.uncleaned.get other,row.firstAttemptAt ≤ row.updatedAt ∧ row.updatedAt ≤ l.time.2 := fun row there =>
      (beside.begun other row there).imp_right fun before => before.trans now
    cases written : (effect l (s.uncleaned.get key)).2 with
    | none =>
      rw [written] at there
      exact old row there
    | some row' =>
      rw [written] at there
      rcases get_of_set there with ⟨rfl,rfl⟩ | ⟨_,before⟩
      · have begun := effect_begun written allowed.2.1 fun row there =>
          (beside.begun _ row there).1.trans ((beside.begun _ row there).2.trans now)
        exact ⟨begun.1,begun.2.le⟩
      · exact old row before

theorem beside_step {s : Twins Key} (beside : Beside s) (allowed : Allowed s l) (kept : Kept s l) : Beside (step s l) := by
  cases l with
  | check key | increment key => exact beside_call beside allowed kept rfl
  | cleanupExpired time =>
    have now : s.time ≤ time := allowed.1
    refine ⟨beside.answers,fun key => ?_,fun key row there => (beside.begun key row there).imp_right fun before => before.trans now⟩
    have left : (step s (.cleanupExpired time)).rows.get key = (s.rows.get key).filter fun row => !row.stale time := get_cleanup
    have still : ∀ row, Over s.time row → Over time row := fun row => over_later now
    rcases beside.rows key with same | ⟨gone,spent⟩
    · rw [left,same]
      cases there : s.uncleaned.get key with
      | none => exact .inl there.symm
      | some row =>
        by_cases stale : row.stale time = true
        · refine .inr ⟨by simp [stale],fun row' there' => ?_⟩
          cases Option.mem_unique there' there
          exact stale_over (beside.begun key row there).1 stale
        · exact .inl ((Option.filter_some_pos (by simp [stale])).trans there.symm)
    · exact .inr ⟨by rw [left,gone]; rfl,fun row there => still row (spent row there)⟩

def early : List (Label Unit) := [Label.check () ⟨0,0⟩ 2 60000 3600000,.check () ⟨1,1⟩ 2 60000 3600000,.cleanupExpired 60002]

end
end Tgtc.RateWindows
