import Tgtc.AccountAttempts
import Tgtc.RoundRobin

/-!
How an account is selected for a request. An account that can be selected is one that would be admitted; among those
of the highest score the cursor decides, which goes round all that can be selected.
-/
namespace Tgtc.AccountSelection
open Maps AccountPool AccountAttempts
open RoundRobin (even_iff pick picks top_pick top_picks)

structure Averages where
  weight : ℚ
  bandwidthEwmaBps : ℚ
  successEwma : ℚ
deriving DecidableEq

structure Selection where
  accountId : String
  score : ℚ
deriving DecidableEq

/-- What a selection reads; `before` is the order of `localeCompare`. -/
structure Registry where
  attempts : State
  averages : String → Averages
  effectiveEnabled : Bool
  before : String → String → Bool

def NEUTRAL_BANDWIDTH_SCORE : ℚ := 1 / 2

def Registry.candidateIds (s : Registry) (candidateIds : List String) : List String :=
  if candidateIds = [] then s.attempts.pool.runtimes.entries.map Prod.fst else candidateIds

def isSchedulable (runtime : Runtime) (nowMs : Int) (largeFile : Bool) : Bool :=
  if !runtime.config.enabled then false
  else if runtime.inflight ≥ runtime.config.maxInflight then false
  else if runtime.cooldownUntilMs > nowMs then false
  else if largeFile && runtime.largeInflight ≥ maxLargeInflightOf runtime.config then false
  else true

def Registry.schedulable (s : Registry) (candidateIds : List String) (nowMs : Int) (largeFile : Bool) : List Runtime :=
  (((s.candidateIds candidateIds).filterMap s.attempts.pool.runtime).filter (isSchedulable · nowMs largeFile)).insertionSort
    fun a b => s.before a.config.id b.config.id = true

def bestBandwidth (s : Registry) (candidates : List Runtime) : ℚ :=
  candidates.foldl (fun most runtime => max most (s.averages runtime.config.id).bandwidthEwmaBps) 0

def score (s : Registry) (largeFile : Bool) (bestBandwidth : ℚ) (runtime : Runtime) : ℚ :=
  let averages := s.averages runtime.config.id
  let bandwidthScore := if bestBandwidth > 0 then averages.bandwidthEwmaBps / bestBandwidth else NEUTRAL_BANDWIDTH_SCORE
  let healthScore := min 1 (max (1 / 20) averages.successEwma)
  let capacityScore : ℚ := max 0 (1 - runtime.inflight / runtime.config.maxInflight)
  let largePenalty : ℚ := if largeFile then max 0 (1 - runtime.largeInflight / maxLargeInflightOf runtime.config) else 1
  averages.weight * (1 / 2 * bandwidthScore + 1 / 2 * healthScore) * capacityScore * (1 / 2 + 1 / 2 * largePenalty)

def select (s : Registry) (rotateCursor : Nat) (candidateIds : List String) (nowMs : Int) (largeFile : Bool) :
    Nat × Option Selection :=
  if !s.effectiveEnabled then (rotateCursor,none)
  else
    let schedulable := s.schedulable candidateIds nowMs largeFile
    if schedulable.length = 0 then (rotateCursor,none)
    else
      let rotateCursor := (rotateCursor + 1) % max 1 schedulable.length
      let candidates := schedulable.drop rotateCursor ++ schedulable.take rotateCursor
      let score := score s largeFile (bestBandwidth s candidates)
      (rotateCursor,(candidates.argmax score).map fun runtime => ⟨runtime.config.id,score runtime⟩)

def selected (s : Registry) (candidateIds : List String) (nowMs : Int) (largeFile : Bool) : Nat → Nat → List String
  | _, 0 => []
  | rotateCursor, k + 1 =>
    let call := select s rotateCursor candidateIds nowMs largeFile
    (call.2.map Selection.accountId).toList ++ selected s candidateIds nowMs largeFile call.1 k

/-- `admit` grants the account to any request of that size. -/
def Admits (s : State) (nowMs : Int) (largeFile : Bool) (accountId : String) : Prop :=
  ∀ role bytes, isLargeFileBytes bytes = largeFile → ∃ s', admitRequest s ⟨accountId,role,bytes,false⟩ nowMs = .ok s'

def Refuses (s : State) (nowMs : Int) (largeFile : Bool) (accountId : String) : Prop :=
  ∀ role bytes, isLargeFileBytes bytes = largeFile → ∃ denial, admitRequest s ⟨accountId,role,bytes,false⟩ nowMs = .error denial

/-- The accounts of the highest score among those that can be selected. -/
def Registry.Best (s : Registry) (candidateIds : List String) (nowMs : Int) (largeFile : Bool) (accountId : String) : Prop :=
  let schedulable := s.schedulable candidateIds nowMs largeFile
  ∃ runtime ∈ schedulable, runtime.config.id = accountId ∧ ∀ other ∈ schedulable,
    score s largeFile (bestBandwidth s schedulable) other ≤ score s largeFile (bestBandwidth s schedulable) runtime

structure Agrees (s : Registry) (candidateIds : List String) (nowMs : Int) (largeFile : Bool) : Prop where
  refused : ∀ rotateCursor, (select s rotateCursor candidateIds nowMs largeFile).2 = none ↔
    ∀ id ∈ s.candidateIds candidateIds, Refuses s.attempts nowMs largeFile id
  granted : ∀ rotateCursor, ∀ selection ∈ (select s rotateCursor candidateIds nowMs largeFile).2,
    Admits s.attempts nowMs largeFile selection.accountId
  even : ∀ rotateCursor k a b, s.Best candidateIds nowMs largeFile a → s.Best candidateIds nowMs largeFile b →
    (selected s candidateIds nowMs largeFile rotateCursor k).count a ≤
      (selected s candidateIds nowMs largeFile rotateCursor k).count b + 1

section
variable {s : Registry} {candidateIds : List String} {nowMs : Int} {largeFile : Bool}

theorem admitRequest_cases {id : String} (clean : trim id = id) :
    (∃ r, s.attempts.pool.runtime id = some r ∧ isSchedulable r nowMs largeFile = true) ∧ Admits s.attempts nowMs largeFile id ∨
      (∀ r, s.attempts.pool.runtime id = some r → isSchedulable r nowMs largeFile = false) ∧
        Refuses s.attempts nowMs largeFile id := by
  cases found : s.attempts.pool.runtime id with
  | none =>
    refine .inr ⟨nofun,fun role bytes _ => ⟨⟨.unknownAccount,none⟩,?_⟩⟩
    simp only [admitRequest,clean,runtime_none.mp found]
  | some r =>
    obtain ⟨k,known,_⟩ := runtime_some.mp found
    have course : ∀ role bytes, isLargeFileBytes bytes = largeFile → (∃ s', admitRequest s.attempts ⟨id,role,bytes,false⟩ nowMs = .ok s') ∧
        isSchedulable r nowMs largeFile = true ∨
        (∃ denial, admitRequest s.attempts ⟨id,role,bytes,false⟩ nowMs = .error denial) ∧ isSchedulable r nowMs largeFile = false := by
      rintro role bytes rfl
      simp only [admitRequest,clean,found,known,isSchedulable]
      split_ifs <;> simp_all
    cases free : isSchedulable r nowMs largeFile with
    | true =>
      refine .inl ⟨⟨r,rfl,free⟩,fun role bytes size => ?_⟩
      rcases course role bytes size with ⟨granted,_⟩ | ⟨_,busy⟩
      · exact granted
      · rw [free] at busy
        cases busy
    | false =>
      refine .inr ⟨fun r' same => by cases same; exact free,fun role bytes size => ?_⟩
      rcases course role bytes size with ⟨_,idle⟩ | ⟨refused,_⟩
      · rw [free] at idle
        cases idle
      · exact refused

theorem mem_schedulable {r : Runtime} : r ∈ s.schedulable candidateIds nowMs largeFile ↔
    r.config.id ∈ s.candidateIds candidateIds ∧ s.attempts.pool.runtime r.config.id = some r ∧
      isSchedulable r nowMs largeFile = true := by
  simp only [Registry.schedulable,List.mem_insertionSort,List.mem_filter,List.mem_filterMap]
  constructor
  · rintro ⟨⟨id,member,found⟩,free⟩
    rw [runtime_id found]
    exact ⟨member,found,free⟩
  · rintro ⟨member,found,free⟩
    exact ⟨⟨_,member,found⟩,free⟩

theorem schedulable_injective {r r' : Runtime} (member : r ∈ s.schedulable candidateIds nowMs largeFile)
    (member' : r' ∈ s.schedulable candidateIds nowMs largeFile) (same : r.config.id = r'.config.id) : r = r' := by
  have found := (mem_schedulable.mp member).2.1
  rw [same,(mem_schedulable.mp member').2.1] at found
  exact (Option.some.inj found).symm

theorem schedulable_distinct (distinct : candidateIds.Nodup) : (s.schedulable candidateIds nowMs largeFile).Nodup := by
  have ids : (s.candidateIds candidateIds).Nodup := by
    unfold Registry.candidateIds
    split_ifs
    · exact s.attempts.pool.runtimes.distinct
    · exact distinct
  refine (List.perm_insertionSort ..).nodup_iff.mpr ((ids.filterMap fun id id' r found found' => ?_).filter _)
  exact (runtime_id found).symm.trans (runtime_id found')

theorem bestBandwidth_rotate (l : List Runtime) (i : Nat) : bestBandwidth s (l.rotate i) = bestBandwidth s l :=
  (List.rotate_perm l i).foldl_eq' (fun a _ b _ most => by rw [max_right_comm]) 0

def Registry.scored (s : Registry) (candidateIds : List String) (nowMs : Int) (largeFile : Bool) : Runtime → ℚ :=
  score s largeFile (bestBandwidth s (s.schedulable candidateIds nowMs largeFile))

section
variable (enabled : s.effectiveEnabled = true) (some_ : s.schedulable candidateIds nowMs largeFile ≠ [])
include enabled some_

theorem select_some (rotateCursor : Nat) : select s rotateCursor candidateIds nowMs largeFile =
      ((rotateCursor + 1) % (s.schedulable candidateIds nowMs largeFile).length,
        (pick (s.scored candidateIds nowMs largeFile) (s.schedulable candidateIds nowMs largeFile)
          ((rotateCursor + 1) % (s.schedulable candidateIds nowMs largeFile).length)).map
            fun r => ⟨r.config.id,s.scored candidateIds nowMs largeFile r⟩) := by
  have length := List.length_pos_iff.mpr some_
  unfold select pick Registry.scored
  simp only [enabled,Bool.not_true,Bool.false_eq_true,if_false,length.ne',max_eq_right (show 1 ≤ _ from length)]
  rw [← List.rotate_eq_drop_append_take (Nat.mod_lt _ length).le,bestBandwidth_rotate]

theorem selected_eq (k : Nat) : ∀ rotateCursor, selected s candidateIds nowMs largeFile rotateCursor k =
      (picks (s.scored candidateIds nowMs largeFile) (s.schedulable candidateIds nowMs largeFile) rotateCursor k).map
        (·.config.id) := by
  induction k with
  | zero => intro rotateCursor; rfl
  | succ k ih =>
    intro rotateCursor
    rw [selected,select_some enabled some_,ih,picks]
    simp [Option.toList_map]

end

theorem best_iff {id : String} : s.Best candidateIds nowMs largeFile id ↔
    ∃ r, RoundRobin.Top (s.scored candidateIds nowMs largeFile) (s.schedulable candidateIds nowMs largeFile) r ∧ r.config.id = id := by
  constructor
  · rintro ⟨r,member,name,top⟩
    exact ⟨r,⟨member,top⟩,name⟩
  · rintro ⟨r,⟨member,top⟩,name⟩
    exact ⟨r,member,name,top⟩

section
variable (enabled : s.effectiveEnabled = true)
include enabled

theorem count_selected {r : Runtime} (member : r ∈ s.schedulable candidateIds nowMs largeFile)
    (rotateCursor k : Nat) : (selected s candidateIds nowMs largeFile rotateCursor k).count r.config.id =
      (picks (s.scored candidateIds nowMs largeFile) (s.schedulable candidateIds nowMs largeFile) rotateCursor k).count r := by
  rw [selected_eq enabled (List.ne_nil_of_mem member),List.count,List.countP_map]
  refine List.countP_congr fun r' taken => ?_
  simp only [Function.comp,beq_iff_eq]
  exact ⟨schedulable_injective (top_picks k taken).1 member,fun same => same ▸ rfl⟩

theorem select_none (rotateCursor : Nat) :
    (select s rotateCursor candidateIds nowMs largeFile).2 = none ↔ s.schedulable candidateIds nowMs largeFile = [] := by
  by_cases none : s.schedulable candidateIds nowMs largeFile = []
  · simp [select,none]
  · rw [select_some enabled none]
    simp [pick]

theorem select_refused (clean : ∀ id ∈ s.candidateIds candidateIds, trim id = id)
    (rotateCursor : Nat) : (select s rotateCursor candidateIds nowMs largeFile).2 = none ↔
      ∀ id ∈ s.candidateIds candidateIds, Refuses s.attempts nowMs largeFile id := by
  rw [select_none enabled,List.eq_nil_iff_forall_not_mem]
  constructor
  · intro busy id member
    rcases admitRequest_cases (clean id member) with ⟨⟨r,found,free⟩,_⟩ | ⟨_,refused⟩
    · refine absurd (mem_schedulable.mpr ?_) (busy r)
      rw [runtime_id found]
      exact ⟨member,found,free⟩
    · exact refused
  · intro refused r member
    obtain ⟨candidate,found,free⟩ := mem_schedulable.mp member
    rcases @admitRequest_cases s nowMs largeFile _ (clean _ candidate) with ⟨_,admits⟩ | ⟨busy,_⟩
    · have size : isLargeFileBytes (if largeFile then some (.whole (2 ^ 40)) else none) = largeFile := by
        cases largeFile <;> decide +kernel
      obtain ⟨s',granted⟩ := admits none _ size
      obtain ⟨denial,denied⟩ := refused _ candidate none _ size
      rw [granted] at denied
      cases denied
    · rw [busy r found] at free
      cases free

theorem select_granted (clean : ∀ id ∈ s.candidateIds candidateIds, trim id = id) {rotateCursor : Nat} {selection : Selection}
    (taken : (select s rotateCursor candidateIds nowMs largeFile).2 = some selection) :
    Admits s.attempts nowMs largeFile selection.accountId := by
  have some_ : s.schedulable candidateIds nowMs largeFile ≠ [] := fun none => by
    rw [(select_none enabled rotateCursor).mpr none] at taken
    cases taken
  rw [select_some enabled some_] at taken
  obtain ⟨r,best,rfl⟩ := Option.map_eq_some_iff.mp taken
  obtain ⟨candidate,found,free⟩ := mem_schedulable.mp (top_pick best).1
  rcases @admitRequest_cases s nowMs largeFile _ (clean _ candidate) with ⟨_,admits⟩ | ⟨busy,_⟩
  · exact admits
  · rw [busy r found] at free
    cases free

end

end

/-- Accounts of the highest score take turns when there is one of them, and when there are no others. -/
theorem selection_agrees_iff (s : Registry) (enabled : s.effectiveEnabled = true) (candidateIds : List String)
    (distinct : candidateIds.Nodup) (clean : ∀ id ∈ s.candidateIds candidateIds, trim id = id) (nowMs : Int) (largeFile : Bool) :
    Agrees s candidateIds nowMs largeFile ↔
      (∀ a b, s.Best candidateIds nowMs largeFile a → s.Best candidateIds nowMs largeFile b → a = b) ∨
      ∀ r ∈ s.schedulable candidateIds nowMs largeFile, s.Best candidateIds nowMs largeFile r.config.id := by
  have turns := even_iff (f := s.scored candidateIds nowMs largeFile)
    (@schedulable_distinct s candidateIds nowMs largeFile distinct)
  have single : (∀ a b, s.Best candidateIds nowMs largeFile a → s.Best candidateIds nowMs largeFile b → a = b) ↔
      ∀ x y, RoundRobin.Top (s.scored candidateIds nowMs largeFile) (s.schedulable candidateIds nowMs largeFile) x →
        RoundRobin.Top (s.scored candidateIds nowMs largeFile) (s.schedulable candidateIds nowMs largeFile) y → x = y := by
    constructor
    · intro one x y top top'
      exact schedulable_injective top.1 top'.1 (one _ _ (best_iff.mpr ⟨x,top,rfl⟩) (best_iff.mpr ⟨y,top',rfl⟩))
    · intro one a b best best'
      obtain ⟨x,top,rfl⟩ := best_iff.mp best
      obtain ⟨y,top',rfl⟩ := best_iff.mp best'
      rw [one x y top top']
  have tied : (∀ r ∈ s.schedulable candidateIds nowMs largeFile, s.Best candidateIds nowMs largeFile r.config.id) ↔
      ∀ r ∈ s.schedulable candidateIds nowMs largeFile,
        RoundRobin.Top (s.scored candidateIds nowMs largeFile) (s.schedulable candidateIds nowMs largeFile) r := by
    refine forall₂_congr fun r member => ⟨fun best => ?_,fun top => best_iff.mpr ⟨r,top,rfl⟩⟩
    obtain ⟨x,top,same⟩ := best_iff.mp best
    rwa [← schedulable_injective top.1 member same]
  rw [single,tied,← turns]
  constructor
  · intro agrees rotateCursor k x y top top'
    rw [← count_selected enabled top.1,← count_selected enabled top'.1]
    exact agrees.even rotateCursor k _ _ (best_iff.mpr ⟨x,top,rfl⟩) (best_iff.mpr ⟨y,top',rfl⟩)
  · intro even
    refine ⟨select_refused enabled clean,fun _ _ taken => select_granted enabled clean taken,fun rotateCursor k a b best best' => ?_⟩
    obtain ⟨x,top,rfl⟩ := best_iff.mp best
    obtain ⟨y,top',rfl⟩ := best_iff.mp best'
    rw [count_selected enabled top.1,count_selected enabled top'.1]
    exact even rotateCursor k x y top top'

def three (a b c : ℚ) : Registry where
  attempts := ⟨["a","b","c"].foldl (fun p id => p.add ⟨id,id,"",16,none,true,.env,false⟩) .empty,[],[]⟩
  averages := fun id => ⟨if id = "a" then a else if id = "b" then b else c,0,1⟩
  effectiveEnabled := true
  before := fun id id' => id ≤ id'

theorem selection_agrees_three : Agrees (three 1 1 1) [] 0 false :=
  (selection_agrees_iff (three 1 1 1) rfl [] List.nodup_nil (by decide +kernel) 0 false).mpr
    (.inr (by unfold Registry.Best; decide +kernel))

/-- The account behind the one of a lower score is selected twice as often. -/
theorem selection_uneven : ¬ Agrees (three 1 (1 / 2) 1) [] 0 false := by
  intro agrees
  have turns : selected (three 1 (1 / 2) 1) [] 0 false 0 2 = ["c","c"] := by decide +kernel
  have counts := agrees.even 0 2 "c" "a" (by unfold Registry.Best; decide +kernel) (by unfold Registry.Best; decide +kernel)
  rw [turns] at counts
  exact absurd counts (by decide)

end Tgtc.AccountSelection
