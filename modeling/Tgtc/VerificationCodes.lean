import Mathlib.Order.Nat
import Tgtc.Maps
import Tgtc.Runs

/-!
Codes that are sent to an address, all for one address and one purpose. A sender retires the codes there are and
inserts its own in one transaction; who redeems a code retires it with one statement.
-/
namespace Tgtc.VerificationCodes
open Maps Runs

structure VerificationCode where
  code : String
  isUsed : Bool
  expiresAt : Nat
  createdAt : Nat
  accepted : Nat
deriving DecidableEq

def SEND_INTERVAL_MS : Nat := 60000

def CODE_TTL_MS : Nat := 5 * 60 * 1000

def VerificationCode.valid (row : VerificationCode) (now : Nat) : Bool := !row.isUsed && decide (now < row.expiresAt)

def recentCode (codes : List VerificationCode) (now : Nat) : Bool :=
  (codes.map VerificationCode.createdAt).max?.any fun createdAt => now - createdAt < SEND_INTERVAL_MS

def retire (codes : List VerificationCode) (rows : List Nat) (change : VerificationCode → VerificationCode) : List VerificationCode :=
  codes.mapIdx fun j row => if j ∈ rows && !row.isUsed then change row else row

def select (codes : List VerificationCode) (pass : VerificationCode → Bool) : List Nat :=
  (List.range codes.length).filter fun j => codes[j]?.any pass

structure Sending where
  code : String
  expiresAt : Nat
  seen : Nat
  /-- when its transaction began, which is what the table takes for the time of its row -/
  begun : Nat
  /-- the rows that it has retired and that nobody else may change before it commits -/
  retired : List Nat

inductive Stage where
  /-- `sendVerificationCode` looks for a recent code -/
  | checking (code : String)
  | beginning (tx : Sending)
  | retiring (tx : Sending)
  | marking (tx : Sending) (rows : List Nat)
  | inserting (tx : Sending)
  | committing (tx : Sending)
  /-- `validateVerificationCode` asks the rate limiter -/
  | limiting (code : String)
  | matching (code : String)
  | consuming (rows : List Nat)
  | ended

structure State where
  codes : List VerificationCode
  jobs : List Stage
  now : Nat

def initial : State := ⟨[],[],0⟩

inductive Label where
  | tick (ms : Nat)
  /-- `sendVerificationCode`, with the hash of the code that it will draw -/
  | send (code : String)
  | validate (code : String)
  | go (i : Nat)
  | fail (i : Nat)

def Stage.locks : Stage → List Nat
  | .inserting tx | .committing tx => tx.retired
  | _ => []

def locked (s : State) (rows : List Nat) : Bool := s.jobs.any fun stage => rows.any fun j => j ∈ stage.locks

def State.goes (s : State) (i : Nat) (stage : Stage) : State := { s with jobs := s.jobs.set i stage }

def use (row : VerificationCode) : VerificationCode := { row with isUsed := true }

def accept (row : VerificationCode) : VerificationCode := { row with isUsed := true, accepted := row.accepted + 1 }

def newCode (tx : Sending) : VerificationCode := ⟨tx.code,false,tx.expiresAt,tx.begun,0⟩

def proceed (s : State) (i : Nat) : Stage → State
  | .checking code =>
    if recentCode s.codes s.now then s.goes i .ended
    else s.goes i (.beginning ⟨code,s.now + CODE_TTL_MS,s.codes.length,0,[]⟩)
  | .beginning tx => s.goes i (.retiring { tx with begun := s.now })
  | .retiring tx => s.goes i (.marking tx (select s.codes fun row => !row.isUsed))
  | .marking tx rows =>
    if locked s rows then s else s.goes i (.inserting { tx with retired := rows.filter fun j => s.codes[j]?.any fun row => !row.isUsed })
  | .inserting tx => s.goes i (.committing tx)
  | .committing tx =>
    { s.goes i .ended with codes := retire s.codes tx.retired use ++ [newCode tx] }
  | .limiting code => s.goes i (.matching code)
  | .matching code => s.goes i (.consuming (select s.codes fun row => row.code = code && row.valid s.now))
  | .consuming rows => if locked s rows then s else { s.goes i .ended with codes := retire s.codes rows accept }
  | .ended => s

def step (s : State) : Label → State
  | .tick ms => { s with now := s.now + ms }
  | .send code => { s with jobs := s.jobs ++ [.checking code] }
  | .validate code => { s with jobs := s.jobs ++ [.limiting code] }
  | .go i => match s.jobs[i]? with
    | some stage => proceed s i stage
    | none => s
  | .fail i => s.goes i .ended

structure Guarded (s : State) : Prop where
  single : ∀ (i j : Nat) (row row' : VerificationCode), s.codes[i]? = some row → s.codes[j]? = some row' → row.valid s.now = true →
    row'.valid s.now = true → i = j
  apart : ∀ (i j : Nat) (row row' : VerificationCode), i < j → s.codes[i]? = some row → s.codes[j]? = some row' →
    row.createdAt + SEND_INTERVAL_MS ≤ row'.createdAt
  once : ∀ row ∈ s.codes, row.accepted ≤ 1

def crossed (s : State) : Stage → Bool
  | .committing tx => decide (tx.seen ≠ s.codes.length)
  | _ => false

def Unmet (s : State) : Label → Prop
  | .go i => ∀ stage ∈ s.jobs[i]?, crossed s stage = false
  | _ => True

instance (s : State) (l : Label) : Decidable (Unmet s l) := by
  cases l <;> unfold Unmet <;> infer_instance

section
variable {s s' : State} {i j : Nat} {stage : Stage} {codes : List VerificationCode} {rows : List Nat} {row row' : VerificationCode} {l : Label}
  {change : VerificationCode → VerificationCode} {now time : Nat}

theorem recentCode_old (old : recentCode codes now = false) (member : row ∈ codes) : row.createdAt + SEND_INTERVAL_MS ≤ now := by
  have among : row.createdAt ∈ codes.map VerificationCode.createdAt := List.mem_map_of_mem member
  have bound := List.le_max?_getD_of_mem (k := 0) among
  unfold recentCode at old
  cases last : (codes.map VerificationCode.createdAt).max? with
  | none =>
    rw [List.max?_eq_none_iff.mp last] at among
    cases among
  | some createdAt =>
    rw [last] at old bound
    replace old : ¬ now - createdAt < SEND_INTERVAL_MS := by simpa using old
    replace bound : row.createdAt ≤ createdAt := bound
    unfold SEND_INTERVAL_MS at *
    omega

theorem mem_select {pass : VerificationCode → Bool} : j ∈ select codes pass ↔ ∃ row, codes[j]? = some row ∧ pass row = true := by
  simp only [select,List.mem_filter,List.mem_range,Option.any_eq_true]
  constructor
  · exact fun found => found.2
  · rintro ⟨row,there,passes⟩
    exact ⟨at_lt there,row,there,passes⟩

@[simp] theorem length_retire : (retire codes rows change).length = codes.length := by simp [retire]

theorem retire_at (there : (retire codes rows change)[j]? = some row') :
    ∃ row, codes[j]? = some row ∧ (row' = row ∧ (j ∈ rows → row.isUsed = true) ∨ row' = change row ∧ row.isUsed = false) := by
  unfold retire at there
  rw [List.getElem?_mapIdx] at there
  obtain ⟨row,found,same⟩ := Option.map_eq_some_iff.mp there
  refine ⟨row,found,?_⟩
  split at same
  · next changed => exact .inr ⟨same.symm,by simp at changed; exact changed.2⟩
  · next kept => exact .inl ⟨same.symm,fun member => by simpa [member] using kept⟩

def Aged (codes : List VerificationCode) (time : Nat) : Prop := ∀ row ∈ codes, row.createdAt + SEND_INTERVAL_MS ≤ time

def Covers (codes : List VerificationCode) (rows : List Nat) : Prop := ∀ (j : Nat) (row : VerificationCode), codes[j]? = some row →
  row.isUsed = false → j ∈ rows

def Fits (s : State) : Stage → Prop
  | .beginning tx => tx.seen ≤ s.codes.length ∧ (tx.seen = s.codes.length → Aged s.codes s.now)
  | .retiring tx => tx.seen ≤ s.codes.length ∧ (tx.seen = s.codes.length → Aged s.codes tx.begun)
  | .marking tx rows => tx.seen ≤ s.codes.length ∧ (tx.seen = s.codes.length → Aged s.codes tx.begun ∧ Covers s.codes rows)
  | .inserting tx | .committing tx => tx.seen ≤ s.codes.length ∧ (tx.seen = s.codes.length → Aged s.codes tx.begun ∧ Covers s.codes tx.retired)
  | _ => True

structure Sound (s : State) : Prop where
  single : ∀ (i j : Nat) (row row' : VerificationCode), s.codes[i]? = some row → s.codes[j]? = some row' → row.isUsed = false →
    row'.isUsed = false → i = j
  apart : ∀ (i j : Nat) (row row' : VerificationCode), i < j → s.codes[i]? = some row → s.codes[j]? = some row' →
    row.createdAt + SEND_INTERVAL_MS ≤ row'.createdAt
  once : ∀ row ∈ s.codes, row.accepted ≤ if row.isUsed then 1 else 0
  fits : ∀ stage ∈ s.jobs, Fits s stage

theorem sound_initial : Sound initial :=
  ⟨(nofun),(nofun),nofun,
    nofun⟩

structure Kept (s s' : State) : Prop where
  time : s.now ≤ s'.now
  length : s'.codes.length = s.codes.length
  rows : ∀ (j : Nat) (row' : VerificationCode), s'.codes[j]? = some row' → ∃ row, s.codes[j]? = some row ∧ row.createdAt = row'.createdAt ∧
    (row'.isUsed = false → row.isUsed = false)

theorem kept_same (time : s.now ≤ s'.now) (codes : s'.codes = s.codes) : Kept s s' :=
  ⟨time,congrArg _ codes,fun _ row' found => ⟨row',codes ▸ found,rfl,fun unused => unused⟩⟩

theorem aged_kept (kept : Kept s s') (aged : Aged s.codes time) : Aged s'.codes time := by
  intro row' member
  obtain ⟨j,found⟩ := List.mem_iff_getElem?.mp member
  obtain ⟨row,there,same,_⟩ := kept.rows j row' found
  exact same ▸ aged row (List.mem_of_getElem? there)

theorem covers_kept (kept : Kept s s') (covers : Covers s.codes rows) : Covers s'.codes rows := by
  intro j row' found unused
  obtain ⟨row,there,_,before⟩ := kept.rows j row' found
  exact covers j row there (before unused)

theorem fits_kept (kept : Kept s s') (fits : Fits s stage) : Fits s' stage := by
  have length := kept.length
  cases stage with
  | beginning tx =>
    refine ⟨length ▸ fits.1,fun same => fun row member => ?_⟩
    exact Nat.le_trans (aged_kept kept (fits.2 (length ▸ same)) row member) kept.time
  | retiring tx => exact ⟨length ▸ fits.1,fun same => aged_kept kept (fits.2 (length ▸ same))⟩
  | marking tx rows | inserting tx | committing tx =>
    refine ⟨length ▸ fits.1,fun same => ?_⟩
    obtain ⟨aged,covers⟩ := fits.2 (length ▸ same)
    exact ⟨aged_kept kept aged,covers_kept kept covers⟩
  | _ => trivial

theorem sound_kept (sound : Sound s) (kept : Kept s s') (once : ∀ row ∈ s'.codes, row.accepted ≤ if row.isUsed then 1 else 0)
    (fits : ∀ stage ∈ s'.jobs, stage ∈ s.jobs ∨ Fits s' stage) : Sound s' := by
  refine ⟨fun i j row row' found found' unused unused' => ?_,fun i j row row' before found found' => ?_,once,fun stage member => ?_⟩
  · obtain ⟨x,there,_,old⟩ := kept.rows i row found
    obtain ⟨x',there',_,old'⟩ := kept.rows j row' found'
    exact sound.single i j x x' there there' (old unused) (old' unused')
  · obtain ⟨x,there,same,_⟩ := kept.rows i row found
    obtain ⟨x',there',same',_⟩ := kept.rows j row' found'
    rw [← same,← same']
    exact sound.apart i j x x' before there there'
  · rcases fits stage member with old | new
    · exact fits_kept kept (sound.fits stage old)
    · exact new

theorem jobs_set {stage' : Stage} (fits : Fits s' stage') : ∀ stage ∈ s.jobs.set i stage', stage ∈ s.jobs ∨ Fits s' stage := by
  intro stage member
  rcases List.mem_or_eq_of_mem_set member with old | rfl
  · exact .inl old
  · exact .inr fits

section
variable (sound : Sound s)
include sound

theorem sound_goes (fits : Fits s stage) : Sound (s.goes i stage) :=
  sound_kept sound (kept_same le_rfl rfl) sound.once (jobs_set (fits_kept (kept_same le_rfl rfl) fits))

theorem sound_consumed : Sound { s.goes i .ended with codes := retire s.codes rows accept } := by
  refine sound_kept sound ⟨le_rfl,length_retire,fun j row' found => ?_⟩ (fun row' member => ?_) (jobs_set trivial)
  · obtain ⟨row,there,⟨rfl,_⟩ | ⟨rfl,unused⟩⟩ := retire_at found
    · exact ⟨row',there,rfl,fun unused => unused⟩
    · exact ⟨row,there,rfl,fun _ => unused⟩
  · obtain ⟨j,found⟩ := List.mem_iff_getElem?.mp member
    obtain ⟨row,there,⟨rfl,_⟩ | ⟨rfl,unused⟩⟩ := retire_at found
    · exact sound.once row' (List.mem_of_getElem? there)
    · have before := sound.once row (List.mem_of_getElem? there)
      rw [unused] at before
      simp only [accept,if_true]
      simp only [Bool.false_eq_true,if_false] at before
      omega

theorem sound_committed {tx : Sending} (aged : Aged s.codes tx.begun) (covers : Covers s.codes tx.retired) :
    Sound { s.goes i .ended with codes := retire s.codes tx.retired use ++ [newCode tx] } := by
  have used (j : Nat) (row' : VerificationCode) (found : (retire s.codes tx.retired use)[j]? = some row') :
      ∃ row, s.codes[j]? = some row ∧ row'.isUsed = true ∧ row'.createdAt = row.createdAt ∧ row'.accepted = row.accepted := by
    obtain ⟨row,there,⟨rfl,kept⟩ | ⟨rfl,_⟩⟩ := retire_at found
    · refine ⟨row',there,?_,rfl,rfl⟩
      by_contra unused
      exact unused (kept (covers j row' there (by simpa using unused)))
    · exact ⟨row,there,rfl,rfl,rfl⟩
  refine ⟨fun i j row row' found found' unused unused' => ?_,fun i j row row' before found found' => ?_,fun row member => ?_,fun stage member => ?_⟩
  · rcases at_of_append found with old | ⟨rfl,_⟩
    · obtain ⟨_,_,is,_⟩ := used i row old
      rw [is] at unused
      cases unused
    · rcases at_of_append found' with old' | ⟨rfl,_⟩
      · obtain ⟨_,_,is,_⟩ := used j row' old'
        rw [is] at unused'
        cases unused'
      · rfl
  · rcases at_of_append found with old | ⟨rfl,_⟩
    · obtain ⟨x,there,_,same,_⟩ := used i row old
      rw [same]
      rcases at_of_append found' with old' | ⟨_,rfl⟩
      · obtain ⟨x',there',_,same',_⟩ := used j row' old'
        rw [same']
        exact sound.apart i j x x' before there there'
      · exact aged x (List.mem_of_getElem? there)
    · have bound := at_lt found'
      rw [List.length_append,List.length_singleton] at bound
      omega
  · rcases List.mem_append.mp member with old | new
    · obtain ⟨j,found⟩ := List.mem_iff_getElem?.mp old
      obtain ⟨x,there,is,_,same⟩ := used j row found
      rw [same]
      refine Nat.le_trans (sound.once x (List.mem_of_getElem? there)) ?_
      split <;> simp
    · rw [List.mem_singleton.mp new]
      exact Nat.zero_le _
  · have longer : (retire s.codes tx.retired use ++ [newCode tx]).length = s.codes.length + 1 := by simp
    -- what a sender that is still under way knew of the table holds no more
    have stale {tx' : Sending} {known : Prop} (fits : tx'.seen ≤ s.codes.length) :
        tx'.seen ≤ (retire s.codes tx.retired use ++ [newCode tx]).length ∧
        (tx'.seen = (retire s.codes tx.retired use ++ [newCode tx]).length → known) := by
      exact ⟨by omega,fun same => by omega⟩
    rcases List.mem_or_eq_of_mem_set member with old | rfl
    · have fits := sound.fits stage old
      cases stage with
      | beginning | retiring | marking | inserting | committing => exact stale fits.1
      | _ => trivial
    · trivial

theorem sound_proceed (there : s.jobs[i]? = some stage) (unmet : crossed s stage = false) : Sound (proceed s i stage) := by
  have fits := sound.fits stage (List.mem_of_getElem? there)
  cases stage with
  | checking code =>
    unfold proceed
    dsimp only
    split
    · exact sound_goes sound trivial
    · next old =>
      refine sound_goes sound ?_
      exact ⟨le_rfl,fun _ row member => recentCode_old (by simpa using old) member⟩
  | beginning tx => exact sound_goes sound fits
  | retiring tx =>
    refine sound_goes sound ?_
    refine ⟨fits.1,fun same => ⟨fits.2 same,fun j row found unused => ?_⟩⟩
    exact mem_select.mpr ⟨row,found,by simp [unused]⟩
  | marking tx rows =>
    unfold proceed
    dsimp only
    split
    · exact sound
    · refine sound_goes sound ?_
      refine ⟨fits.1,fun same => ⟨(fits.2 same).1,fun j row found unused => ?_⟩⟩
      exact List.mem_filter.mpr ⟨(fits.2 same).2 j row found unused,by simp [found,unused]⟩
  | inserting tx => exact sound_goes sound fits
  | committing tx =>
    obtain ⟨aged,covers⟩ := fits.2 (by simpa [crossed] using unmet)
    exact sound_committed sound aged covers
  | limiting code | matching code => exact sound_goes sound trivial
  | consuming rows =>
    unfold proceed
    dsimp only
    split
    · exact sound
    · exact sound_consumed sound
  | ended => exact sound

theorem sound_step (unmet : Unmet s l) : Sound (step s l) := by
  have called {stage : Stage} (fits : Fits s stage) : Sound { s with jobs := s.jobs ++ [stage] } := by
    refine sound_kept sound (kept_same le_rfl rfl) sound.once fun other member => ?_
    rcases List.mem_append.mp member with old | new
    · exact .inl old
    · rw [List.mem_singleton.mp new]
      exact .inr (fits_kept (kept_same le_rfl rfl) fits)
  cases l with
  | tick ms => exact sound_kept sound (kept_same (Nat.le_add_right ..) rfl) sound.once fun _ => .inl
  | send code | validate code => exact called trivial
  | go i =>
    unfold step
    dsimp only
    split
    · next stage there => exact sound_proceed sound there (unmet stage there)
    · exact sound
  | fail i => exact sound_goes sound trivial

end

/-- Unless two senders that overlap both commit, one code is valid at most, codes are a minute apart, and each lets one call through. -/
theorem codes_guarded (reach : Reachable step Unmet initial s) : Guarded s := by
  have sound := reachable_invariant sound_initial (fun _ _ sound unmet => sound_step sound unmet) reach
  refine ⟨fun i j row row' found found' valid valid' => ?_,sound.apart,fun row member => ?_⟩
  · simp only [VerificationCode.valid,Bool.and_eq_true,Bool.not_eq_true'] at valid valid'
    exact sound.single i j row row' found found' valid.1 valid'.1
  · refine Nat.le_trans (sound.once row member) ?_
    split <;> simp

end

def sentTwice : List Label := [.send "a",.go 0,.go 0,.go 0,.go 0,.go 0,.go 0,.tick 60000,.send "b",.go 1,.go 1,.go 1,.go 1,.go 1,.go 1,
  .validate "b",.go 2,.go 2,.go 2]

theorem codes_guarded_twice : Guarded (sentTwice.foldl step initial) := codes_guarded (reachable_run .start sentTwice (by decide +kernel))

def bothSend : List Label := [.send "a",.send "b",.go 0,.go 1,.go 0,.go 1,.go 0,.go 1,.go 0,.go 1,.go 0,.go 1,.go 0,.go 1]

/-- Two codes are valid at once. -/
theorem two_codes_valid : ¬ ∀ s, Reachable step (fun _ _ => True) initial s → Guarded s := by
  intro always
  have legal : Legal step (fun _ _ => True) initial bothSend := by decide +kernel
  obtain ⟨row,row',found,found',valid,valid'⟩ : ∃ row row' : VerificationCode, (bothSend.foldl step initial).codes[0]? = some row ∧
      (bothSend.foldl step initial).codes[1]? = some row' ∧ row.valid 0 = true ∧ row'.valid 0 = true :=
    ⟨⟨"a",false,300000,0,0⟩,⟨"b",false,300000,0,0⟩,by decide +kernel⟩
  exact absurd ((always _ (reachable_run .start _ legal)).single 0 1 row row' found found' valid valid') (by decide)

end Tgtc.VerificationCodes
