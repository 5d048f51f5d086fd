import Mathlib.Order.Nat
import Tgtc.Maps
import Tgtc.Runs

/-!
Tokens that are revoked. A revocation is a row of a table, and the process that checks tokens remembers what it has
found for some seconds.
-/
namespace Tgtc.TokenRevocation
open Maps Runs

def REVOKE_CACHE_TTL_MS : Nat := 5 * 1000

structure Cached where
  revoked : Bool
  expiresAt : Nat

def cachedIsRevoked (cache : OrderedMap String Cached) (jti : String) (now : Nat) : Option Bool × OrderedMap String Cached :=
  match cache.get jti with
  | some cached => if cached.expiresAt < now then (none,cache.delete jti) else (some cached.revoked,cache)
  | none => (none,cache)

def cacheRevoked (cache : OrderedMap String Cached) (jti : String) (revoked : Bool) (now : Nat) : OrderedMap String Cached :=
  (if 10000 < cache.entries.length then .empty else cache).set jti ⟨revoked,now + REVOKE_CACHE_TTL_MS⟩

/-- What comes next of a call; `late` says that a revocation of the token had returned before it started. -/
inductive Stage where
  /-- `isTokenRevoked` looks into the memory -/
  | looking (jti : String) (late : Bool)
  | reading (jti : String) (late : Bool)
  | storing (jti : String) (late : Bool) (token : Option Nat)
  /-- `revokeToken` writes the row -/
  | upserting (jti : String)
  | marking (jti : String)
  | ended

structure Answer where
  jti : String
  late : Bool
  revoked : Bool
  time : Nat

structure State where
  /-- `jwt_revoked_tokens`: when the token expires -/
  table : OrderedMap String Nat
  revokedCache : OrderedMap String Cached
  jobs : List Stage
  /-- the tokens for which `revokeToken` has returned -/
  returned : List String
  answers : List Answer
  now : Nat

def initial : State := ⟨.empty,.empty,[],[],[],0⟩

inductive Label where
  | tick (ms : Nat)
  | check (jti : String)
  | revoke (jti : String)
  | go (i : Nat)
  | fail (i : Nat)
  /-- `cleanupExpiredRevokedTokens` -/
  | cleanup

def State.goes (s : State) (i : Nat) (stage : Stage) : State := { s with jobs := s.jobs.set i stage }

def State.answered (s : State) (i : Nat) (jti : String) (late revoked : Bool) : State :=
  { s.goes i .ended with answers := s.answers ++ [⟨jti,late,revoked,s.now⟩] }

/-- One step of a call; `expiry` is what the signed text of a token says of its end. -/
def proceed (expiry : String → Nat) (s : State) (i : Nat) : Stage → State
  | .looking jti late =>
    if jti = "" then s.answered i jti late true
    else match cachedIsRevoked s.revokedCache jti s.now with
      | (some revoked,cache) => { s.answered i jti late revoked with revokedCache := cache }
      | (none,cache) => { s.goes i (.reading jti late) with revokedCache := cache }
  | .reading jti late => s.goes i (.storing jti late (s.table.get jti))
  | .storing jti late token =>
    let revoked := token.any fun expiresAt => s.now < expiresAt
    { s.answered i jti late revoked with revokedCache := cacheRevoked s.revokedCache jti revoked s.now }
  | .upserting jti => { s.goes i (.marking jti) with table := s.table.set jti (expiry jti) }
  | .marking jti =>
    { s.goes i .ended with revokedCache := cacheRevoked s.revokedCache jti true s.now, returned := jti :: s.returned }
  | .ended => s

def failed (s : State) (i : Nat) : Stage → State
  | .reading _ _ | .upserting _ => s.goes i .ended
  | _ => s

def step (expiry : String → Nat) (s : State) : Label → State
  | .tick ms => { s with now := s.now + ms }
  | .check jti => { s with jobs := s.jobs ++ [.looking jti (decide (jti ∈ s.returned))] }
  | .revoke jti =>
    if jti = "" || decide (expiry jti ≤ s.now) then { s with returned := jti :: s.returned }
    else { s with jobs := s.jobs ++ [.upserting jti] }
  | .go i => match s.jobs[i]? with
    | some stage => proceed expiry s i stage
    | none => s
  | .fail i => match s.jobs[i]? with
    | some stage => failed s i stage
    | none => s
  | .cleanup => { s with table := s.table.filter fun e => !decide (e.2 < s.now) }

/-- A check that starts after the revocation has returned finds the token revoked until it expires. -/
def Immediate (expiry : String → Nat) (s : State) : Prop := ∀ answer ∈ s.answers, answer.late = true → answer.time < expiry answer.jti →
  answer.revoked = true

/-- What comes next is to write down that a token is not revoked, when its revocation has returned and it has not expired. -/
def belated (expiry : String → Nat) (s : State) : Stage → Bool
  | .storing jti _ token =>
    decide (jti ∈ s.returned) && decide (s.now < expiry jti) && !(token.any fun expiresAt => s.now < expiresAt)
  | _ => false

/-- No check writes down what it has read when that has become wrong. -/
def Timely (expiry : String → Nat) (s : State) : Label → Prop
  | .go i => ∀ stage ∈ s.jobs[i]?, belated expiry s stage = false
  | _ => True

instance (expiry : String → Nat) (s : State) (l : Label) : Decidable (Timely expiry s l) := by
  cases l <;> unfold Timely <;> infer_instance

def Fits (expiry : String → Nat) (s : State) : Stage → Prop
  | .looking jti late => late = true → jti ∈ s.returned
  | .reading jti late => jti ≠ "" ∧ (late = true → jti ∈ s.returned)
  | .storing jti late token => jti ≠ "" ∧ (late = true → s.now < expiry jti → token = some (expiry jti))
  | .upserting jti => jti ≠ ""
  | .marking jti => s.now < expiry jti → s.table.get jti = some (expiry jti)
  | .ended => True

structure Sound (expiry : String → Nat) (s : State) : Prop where
  written : ∀ jti ∈ s.returned, jti ≠ "" → s.now < expiry jti → s.table.get jti = some (expiry jti)
  remembered : ∀ jti ∈ s.returned, jti ≠ "" → s.now < expiry jti → ∀ cached ∈ s.revokedCache.get jti, cached.revoked = true
  fits : ∀ stage ∈ s.jobs, Fits expiry s stage
  answered : Immediate expiry s

section
variable {expiry : String → Nat} {s s' : State} {i : Nat} {stage : Stage} {jti : String} {late revoked : Bool} {l : Label} {now : Nat}
  {cache : OrderedMap String Cached}

theorem sound_initial : Sound expiry initial :=
  ⟨nofun,nofun,nofun,
    nofun⟩

/-- Time goes on, revocations stay, and so do the rows of tokens that have not expired. -/
structure Later (expiry : String → Nat) (s s' : State) : Prop where
  time : s.now ≤ s'.now
  returned : ∀ jti ∈ s.returned, jti ∈ s'.returned
  rows : ∀ jti, s'.now < expiry jti → s.table.get jti = some (expiry jti) → s'.table.get jti = some (expiry jti)

theorem fits_later (later : Later expiry s s') (fits : Fits expiry s stage) : Fits expiry s' stage := by
  obtain ⟨time,returned,rows⟩ := later
  cases stage with
  | looking jti late => exact fun flag => returned jti (fits flag)
  | reading jti late => exact ⟨fits.1,fun flag => returned jti (fits.2 flag)⟩
  | storing jti late token => exact ⟨fits.1,fun flag live => fits.2 flag (Nat.lt_of_le_of_lt time live)⟩
  | upserting jti => exact fits
  | marking jti => exact fun live => rows jti live (fits (Nat.lt_of_le_of_lt time live))
  | ended => trivial

theorem cachedIsRevoked_some {cache' : OrderedMap String Cached} (found : cachedIsRevoked cache jti now = (some revoked,cache')) :
    ∃ cached ∈ cache.get jti, cached.revoked = revoked := by
  unfold cachedIsRevoked at found
  split at found
  · next cached there =>
    split at found
    · cases found
    · cases found
      exact ⟨cached,there,rfl⟩
  · cases found

theorem cachedIsRevoked_get {answer : Option Bool} {cache' : OrderedMap String Cached} (found : cachedIsRevoked cache jti now = (answer,cache'))
    {other : String} {cached : Cached} (there : cache'.get other = some cached) : cache.get other = some cached := by
  unfold cachedIsRevoked at found
  split at found
  · split at found
    · cases found
      exact (get_of_delete there).2
    · cases found
      exact there
  · cases found
    exact there

theorem cacheRevoked_get {other : String} {cached : Cached} (there : (cacheRevoked cache jti revoked now).get other = some cached) :
    other = jti ∧ cached.revoked = revoked ∨ other ≠ jti ∧ cache.get other = some cached := by
  rcases get_of_set there with ⟨rfl,rfl⟩ | ⟨different,old⟩
  · exact .inl ⟨rfl,rfl⟩
  · split at old
    · cases old
    · exact .inr ⟨different,old⟩

theorem sound_after (sound : Sound expiry s) (later : Later expiry s s')
    (written : ∀ jti ∈ s'.returned, jti ∉ s.returned → jti ≠ "" → s'.now < expiry jti → s'.table.get jti = some (expiry jti))
    (remembered : ∀ jti ∈ s'.returned, jti ≠ "" → s'.now < expiry jti → ∀ cached ∈ s'.revokedCache.get jti,
      jti ∈ s.returned ∧ cached ∈ s.revokedCache.get jti ∨ cached.revoked = true)
    (fits : ∀ stage ∈ s'.jobs, stage ∈ s.jobs ∨ Fits expiry s' stage)
    (answered : ∀ answer ∈ s'.answers, answer ∈ s.answers ∨
      (answer.late = true → answer.time < expiry answer.jti → answer.revoked = true)) : Sound expiry s' := by
  have time {jti : String} (live : s'.now < expiry jti) : s.now < expiry jti := Nat.lt_of_le_of_lt later.time live
  constructor
  · intro jti member named live
    by_cases old : jti ∈ s.returned
    · exact later.rows jti live (sound.written jti old named (time live))
    · exact written jti member old named live
  · intro jti member named live cached there
    rcases remembered jti member named live cached there with ⟨old,before⟩ | known
    · exact sound.remembered jti old named (time live) cached before
    · exact known
  · intro stage member
    rcases fits stage member with old | new
    · exact fits_later later (sound.fits stage old)
    · exact new
  · intro answer member
    rcases answered answer member with old | new
    · exact sound.answered answer old
    · exact new

theorem later_same (time : s.now ≤ s'.now) (returned : s'.returned = s.returned) (table : s'.table = s.table) : Later expiry s s' :=
  ⟨time,fun _ member => returned ▸ member,fun _ _ found => table ▸ found⟩

theorem jobs_set {stage' : Stage} (fits : Fits expiry s' stage') : ∀ stage ∈ s.jobs.set i stage', stage ∈ s.jobs ∨ Fits expiry s' stage := by
  intro stage member
  rcases List.mem_or_eq_of_mem_set member with old | rfl
  · exact .inl old
  · exact .inr fits

theorem answers_append {answer : Answer} (right : answer.late = true → answer.time < expiry answer.jti → answer.revoked = true) :
    ∀ x ∈ s.answers ++ [answer], x ∈ s.answers ∨ (x.late = true → x.time < expiry x.jti → x.revoked = true) := by
  intro x member
  rcases List.mem_append.mp member with old | new
  · exact .inl old
  · rw [List.mem_singleton.mp new]
    exact .inr right

theorem sound_quiet (sound : Sound expiry s) (time : s.now ≤ s'.now) (returned : s'.returned = s.returned) (table : s'.table = s.table)
    (cache : ∀ (jti : String) (cached : Cached), s'.revokedCache.get jti = some cached → s.revokedCache.get jti = some cached)
    (fits : ∀ stage ∈ s'.jobs, stage ∈ s.jobs ∨ Fits expiry s' stage)
    (answered : ∀ answer ∈ s'.answers, answer ∈ s.answers ∨
      (answer.late = true → answer.time < expiry answer.jti → answer.revoked = true)) : Sound expiry s' :=
  sound_after sound (later_same time returned table) (fun _ member other => absurd (returned ▸ member) other)
    (fun jti member _ _ cached found => .inl ⟨returned ▸ member,cache jti cached found⟩) fits answered

theorem sound_proceed (sound : Sound expiry s) (there : s.jobs[i]? = some stage) (timely : belated expiry s stage = false) :
    Sound expiry (proceed expiry s i stage) := by
  have fits := sound.fits stage (List.mem_of_getElem? there)
  cases stage with
  | looking jti late =>
    unfold proceed
    dsimp only
    split
    · exact sound_quiet sound le_rfl rfl rfl (fun _ _ found => found) (jobs_set trivial) (answers_append fun _ _ => rfl)
    next named =>
    split
    · next revoked cache found =>
      refine sound_quiet sound le_rfl rfl rfl (fun _ _ => cachedIsRevoked_get found) (jobs_set trivial) (answers_append fun flag live => ?_)
      obtain ⟨cached,known,same⟩ := cachedIsRevoked_some found
      exact same ▸ sound.remembered jti (fits flag) named live cached known
    · next cache found =>
      exact sound_quiet sound le_rfl rfl rfl (fun _ _ => cachedIsRevoked_get found) (jobs_set ⟨named,fits⟩) fun _ => .inl
  | reading jti late =>
    refine sound_quiet sound le_rfl rfl rfl (fun _ _ found => found) (jobs_set ⟨fits.1,fun flag live => ?_⟩) fun _ => .inl
    exact sound.written jti (fits.2 flag) fits.1 live
  | storing jti late token =>
    refine sound_after sound (later_same le_rfl rfl rfl) (fun _ member other => absurd member other) (fun other member _ live cached found => ?_)
      (jobs_set trivial) (answers_append fun flag live => ?_)
    · rcases cacheRevoked_get found with ⟨rfl,same⟩ | ⟨_,old⟩
      · refine .inr (same.trans ?_)
        have member : other ∈ s.returned := member
        have live : s.now < expiry other := live
        simpa [belated,member,live] using timely
      · exact .inl ⟨member,old⟩
    · rw [fits.2 flag live]
      simpa using live
  | upserting jti =>
    have rows (other : String) (found : s.table.get other = some (expiry other)) : (s.table.set jti (expiry jti)).get other = some (expiry other) := by
      by_cases same : other = jti
      · rw [same,get_set_same]
      · rw [get_set_other _ _ same,found]
    exact sound_after sound ⟨le_rfl,fun _ member => member,fun other _ => rows other⟩ (fun _ member other => absurd member other)
      (fun _ member _ _ _ found => .inl ⟨member,found⟩) (jobs_set fun _ => get_set_same _ _ _) fun _ => .inl
  | marking jti =>
    refine sound_after sound ⟨le_rfl,fun _ => .tail _,fun _ _ found => found⟩ (fun other member new _ live => ?_)
      (fun other member _ _ cached found => ?_) (jobs_set trivial) fun _ => .inl
    · rcases List.mem_cons.mp member with rfl | old
      · exact fits live
      · exact absurd old new
    · rcases cacheRevoked_get found with ⟨_,same⟩ | ⟨different,old⟩
      · exact .inr same
      · exact .inl ⟨(List.mem_cons.mp member).resolve_left different,old⟩
  | ended => exact sound

theorem sound_step (sound : Sound expiry s) (timely : Timely expiry s l) : Sound expiry (step expiry s l) := by
  cases l with
  | tick ms =>
    exact sound_quiet sound (Nat.le_add_right ..) rfl rfl (fun _ _ found => found) (fun _ => .inl) fun _ => .inl
  | check jti =>
    refine sound_quiet sound le_rfl rfl rfl (fun _ _ found => found) (fun stage member => ?_) fun _ => .inl
    rcases List.mem_append.mp member with old | new
    · exact .inl old
    · rw [List.mem_singleton.mp new]
      exact .inr fun flag => of_decide_eq_true flag
  | revoke jti =>
    unfold step
    dsimp only
    split
    · next nothing =>
      -- neither is anything asked of an empty token nor of one that has expired
      have idle (other : String) (member : other ∈ jti :: s.returned) (named : other ≠ "") (live : s.now < expiry other) : other ∈ s.returned := by
        rcases List.mem_cons.mp member with rfl | old
        · simp [named] at nothing
          omega
        · exact old
      refine sound_after sound ⟨le_rfl,fun _ => .tail _,fun _ _ found => found⟩ (fun other member new named live => ?_)
        (fun other member named live _ found => .inl ⟨idle other member named live,found⟩) (fun _ => .inl) fun _ => .inl
      exact absurd (idle other member named live) new
    · next something =>
      refine sound_quiet sound le_rfl rfl rfl (fun _ _ found => found) (fun stage member => ?_) fun _ => .inl
      rcases List.mem_append.mp member with old | new
      · exact .inl old
      · rw [List.mem_singleton.mp new]
        refine .inr fun same => something ?_
        simp [same]
  | go i =>
    unfold step
    dsimp only
    split
    · next stage there => exact sound_proceed sound there (timely stage there)
    · exact sound
  | fail i =>
    unfold step
    dsimp only
    split
    · unfold failed
      split
      · exact sound_quiet sound le_rfl rfl rfl (fun _ _ found => found) (jobs_set trivial) fun _ => .inl
      · exact sound_quiet sound le_rfl rfl rfl (fun _ _ found => found) (jobs_set trivial) fun _ => .inl
      · exact sound
    · exact sound
  | cleanup =>
    refine sound_after sound ⟨le_rfl,fun _ member => member,fun jti live found => ?_⟩ (fun _ member other => absurd member other)
      (fun _ member _ _ _ found => .inl ⟨member,found⟩) (fun _ => .inl) fun _ => .inl
    have live : s.now < expiry jti := live
    show (s.table.filter _).get jti = _
    rw [get_filter,found]
    simp [Option.filter]
    omega

/-- Unless a check writes down what has become wrong, a revocation holds as soon as it has returned. -/
theorem revoked_at_once (reach : Reachable (step expiry) (Timely expiry) initial s) : Immediate expiry s :=
  (reachable_invariant sound_initial (fun _ _ sound timely => sound_step sound timely) reach).answered

end

def checkedTwice : List Label := [.check "t",.go 0,.go 0,.revoke "t",.go 0,.go 1,.go 1,.check "t",.go 2]

theorem revoked_at_once_twice : Immediate (fun _ => 3600000) (checkedTwice.foldl (step fun _ => 3600000) initial) :=
  revoked_at_once (reachable_run .start checkedTwice (by decide +kernel))

def lateNote : List Label := [.check "t",.go 0,.go 0,.revoke "t",.go 1,.go 1,.go 0,.check "t",.go 2]

/-- A token that has been revoked is taken for a valid one. -/
theorem revoked_late : ¬ ∀ s, Reachable (step fun _ => 3600000) (fun _ _ => True) initial s → Immediate (fun _ => 3600000) s := by
  intro always
  have legal : Legal (step fun _ => 3600000) (fun _ _ => True) initial lateNote := by decide +kernel
  have wrong : ¬ ∀ answer ∈ (lateNote.foldl (step fun _ => 3600000) initial).answers, answer.late = true → answer.time < 3600000 →
      answer.revoked = true := by decide +kernel
  exact wrong (always _ (reachable_run .start _ legal))

end Tgtc.TokenRevocation
