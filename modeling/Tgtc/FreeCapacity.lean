import Mathlib
import Tgtc.MergePermits

/-!
Whose merges use the permits of the service. A run takes a permit of the service before it asks for the one of its
user, and the merges of others wait for these permits.
-/
namespace Tgtc.FreeCapacity
open Maps Runs Permits UploadSessions MergePermits

def executing (r : Run) : Bool := r.globalPermit = .held && r.userPermit = .held

def waiting (r : Run) : Bool := r.globalPermit = .parked || r.userPermit = .parked

/-- Every run whose promise has settled has gone on, as between two turns of the event loop. -/
def Rested (s : Merges) : Prop := ∀ r ∈ s.runs, ¬Granted r

instance (s : Merges) : Decidable (Rested s) := inferInstanceAs (Decidable (∀ r ∈ s.runs, ¬Granted r))

/-- While fewer than three merges are under way, nobody waits but behind a merge of the same user. -/
def NoneBlocked (s : Merges) : Prop :=
  Rested s → s.runs.countP executing < 3 → ∀ r ∈ s.runs, waiting r = true →
    ∃ r' ∈ s.runs, r'.userId = r.userId ∧ executing r' = true

instance (s : Merges) : Decidable (NoneBlocked s) := inferInstanceAs (Decidable (_ → _ → _))

def unfinished (r : Run) : Bool := r.stage ≠ .ended

def users (s : Merges) : List String := (s.runs.filter unfinished).map (·.userId)

/-- Where more than three merges are unfinished, they are of different users. -/
def Spread (users : List String) : Prop := users.length ≤ 3 ∨ users.Nodup

instance (users : List String) : Decidable (Spread users) := inferInstanceAs (Decidable (_ ∨ _))

/-- A merge begins only if the unfinished merges stay spread over the users. -/
def Considerate (s : Merges) : Label → Prop
  | .triggerMerge uploadId userId =>
    ∀ session ∈ s.sessions.get uploadId, session.mergeStatus = .pending → Spread (users s ++ [userId])
  | .session _ _ | .resume _ | .settle _ _ => True

instance (s : Merges) (l : Label) : Decidable (Considerate s l) := by
  induction l using Label.casesOn <;> unfold Considerate <;> infer_instance

section
variable {s : Merges} {i : Nat} {r : Run}

theorem spread_sublist {few many : List String} (sub : few.Sublist many) (spread : Spread many) : Spread few := by
  rcases spread with short | different
  · exact .inl (Nat.le_trans sub.length_le short)
  · exact .inr (different.sublist sub)

theorem users_clients (s : Merges) : users s = ((s.runs.map client).filter (·.live)).map (·.userId) := by
  rw [List.filter_map,List.map_map]
  rfl

theorem users_same {s' : Merges} (same : s'.runs.map client = s.runs.map client) : users s' = users s := by
  rw [users_clients,users_clients,same]

theorem filter_set_sublist {clients : List Client} {c : Client} (dead : c.live = false) :
    ((clients.set i c).filter (·.live)).Sublist (clients.filter (·.live)) := by
  induction clients generalizing i with
  | nil => simp
  | cons d rest ih =>
    cases i with
    | zero =>
      rw [List.set_cons_zero,List.filter_cons_of_neg (by simp [dead])]
      exact (List.sublist_cons_self d rest).filter _
    | succ j =>
      cases live : d.live with
      | true | false => simpa [live] using ih

theorem users_triggered (s : Merges) (uploadId userId : String) :
    users (runMergeWithSemaphore s uploadId userId) = users s ++ [userId] := by
  have clients : (runMergeWithSemaphore s uploadId userId).runs.map client =
      s.runs.map client ++ [⟨userId,(getUserMergeSemaphore s userId).2,true⟩] := by
    simp only [runMergeWithSemaphore,acquireGlobal]
    rw [clients_modify (withGlobal _) fun _ => rfl,List.map_append]
    rfl
  rw [users_clients,clients,users_clients,List.filter_append,List.map_append]
  rfl

theorem users_resumed (found : s.runs[i]? = some r) (granted : Granted r) : users (resumeRun s i r) = users s := by
  apply users_same
  have kept : ∀ stage, stage ≠ Stage.ended → (s.runs.modify i (withStage stage)).map client = s.runs.map client := by
    intro stage live
    refine map_modify_same client _ fun r' at_i => ?_
    rw [found] at at_i
    cases at_i
    rcases granted with ⟨before,_⟩ | ⟨before,_⟩ <;> simp [client,withStage,before,live]
  rcases granted with ⟨stage,_⟩ | ⟨stage,_⟩
  · simp only [resumeRun,stage,acquireUser]
    split
    · rw [clients_modify (withUser _) fun _ => rfl]
      exact kept _ (by simp)
    · exact kept _ (by simp)
  · simp only [resumeRun,stage]
    exact kept _ (by simp)

theorem users_settled (found : s.runs[i]? = some r) (outcome : Outcome) :
    (users (endRun s i r outcome)).Sublist (users s) := by
  have same := (releaseUserMergeSemaphore_same
    { releaseGlobal (releaseUser (conclude s r.uploadId outcome) i r.userSem) i with
      runs := (releaseGlobal (releaseUser (conclude s r.uploadId outcome) i r.userSem) i).runs.modify i
        (withStage .ended) } r.userId).1
  have runs : (conclude s r.uploadId outcome).runs = s.runs := by
    unfold conclude
    split <;> rfl
  have clients : (releaseGlobal (releaseUser (conclude s r.uploadId outcome) i r.userSem) i).runs.map client =
      s.runs.map client := by
    simp only [releaseGlobal]
    rw [clients_wake (withGlobal _) fun _ => rfl,clients_modify (withGlobal _) fun _ => rfl]
    simp only [releaseUser]
    split
    · rw [clients_wake (withUser _) fun _ => rfl,clients_modify (withUser _) fun _ => rfl,runs]
    · rw [runs]
  obtain ⟨r',found',_⟩ : ∃ r', (releaseGlobal (releaseUser (conclude s r.uploadId outcome) i r.userSem) i).runs[i]? =
      some r' ∧ client r' = client r := by
    have at_i := congrArg (·[i]?) clients
    simpa [found] using at_i
  rw [users_clients,users_clients,endRun]
  rw [same,map_modify _ _ found',clients]
  exact (filter_set_sublist (by simp [client,withStage])).map _

theorem step_spread (spread : Spread (users s)) (l : Label) (allowed : Allowed s l) (considerate : Considerate s l) :
    Spread (users (step s l)) := by
  cases l with
  | session uploadId value => cases value <;> exact spread
  | triggerMerge uploadId userId =>
    simp only [step,triggerMerge]
    cases got : getSession s.sessions uploadId userId with
    | error _ => exact spread
    | ok session =>
      dsimp only
      split_ifs with busy done
      · exact spread
      · exact spread
      · obtain ⟨listed,owner⟩ := getSession_uploadedBy got
        have pending : session.mergeStatus = .pending := by
          cases status : session.mergeStatus <;> simp_all
        rw [users_triggered,owner]
        exact considerate session listed pending
  | resume i =>
    obtain ⟨r,found,granted⟩ := allowed
    simp only [step,Option.mem_def.mp found]
    rw [users_resumed found granted]
    exact spread
  | settle i outcome =>
    obtain ⟨r,found,_⟩ := allowed
    simp only [step,Option.mem_def.mp found]
    exact spread_sublist (users_settled found outcome) spread

theorem behind_own (sound : Sound s) (found : s.runs[i]? = some r) (parked : r.userPermit = .parked) :
    ∃ r' ∈ s.runs, r'.userId = r.userId ∧ executing r' = true := by
  obtain ⟨sem,known,_,taken⟩ := (sound_permitsKept sound).waitsUser i r found parked
  have total := sound_object sound known
  have someone : 0 < s.runs.countP (holdsObject r.userSem) := by omega
  obtain ⟨r',member,holds⟩ := List.countP_pos_iff.mp someone
  simp only [holdsObject,Bool.and_eq_true,decide_eq_true_eq] at holds
  obtain ⟨j,at_j⟩ := List.mem_iff_getElem?.mp member
  have ok := sound.stages j r' at_j
  have mine := sound_registered sound (List.mem_of_getElem? found)
    (live_of_permit (sound.stages i r found) (by simp [parked]))
  have theirs := sound_registered sound member (live_of_permit ok (by simp [holds.2]))
  rw [holds.1] at theirs
  refine ⟨r',member,sound.registry.apart _ _ _ theirs mine,?_⟩
  have global : r'.globalPermit = .held := by
    unfold StageOk at ok
    split at ok
    · simp [ok.2] at holds
    · exact ok.1
    · exact ok.1
    · simp [ok.2] at holds
  simp [executing,global,holds.2]

theorem holder_executes (sound : Sound s) (rested : Rested s) (different : (users s).Nodup) (member : r ∈ s.runs)
    (holds : r.globalPermit = .held) : executing r = true := by
  obtain ⟨i,found⟩ := List.mem_iff_getElem?.mp member
  have ok := sound.stages i r found
  have user : r.userPermit = .held := by
    cases stage : r.stage with
    | awaitingGlobal => exact absurd (.inl ⟨stage,holds⟩) (rested r member)
    | awaitingUser =>
      simp only [StageOk,stage] at ok
      cases permit : r.userPermit with
      | none => exact absurd permit ok.2
      | held => rfl
      | parked =>
        obtain ⟨r',member',same,runs⟩ := behind_own sound found permit
        obtain ⟨j,at_j⟩ := List.mem_iff_getElem?.mp member'
        simp only [executing,Bool.and_eq_true,decide_eq_true_eq] at runs
        have live := live_of_permit (sound.stages j r' at_j) (by simp [runs.2])
        have equal : r' = r := List.inj_on_of_nodup_map different (List.mem_filter.mpr ⟨member',by simpa [unfinished]⟩)
          (List.mem_filter.mpr ⟨member,by simp [unfinished,stage]⟩) same
        rw [equal,permit] at runs
        exact absurd runs.2 (by simp)
    | merging =>
      simp only [StageOk,stage] at ok
      exact ok.2
    | ended =>
      simp only [StageOk,stage] at ok
      simp [ok.1] at holds
  simp [executing,holds,user]

theorem four_unfinished (sound : Sound s) (found : s.runs[i]? = some r) (parked : r.globalPermit = .parked) :
    4 ≤ (users s).length := by
  obtain ⟨_,taken⟩ := (sound_permitsKept sound).waitsGlobal i r found parked
  have total := (sound_permitsKept sound).global
  have live : ∀ r' ∈ s.runs, r'.globalPermit ≠ .none → unfinished r' = true := by
    intro r' member some_permit
    obtain ⟨j,at_j⟩ := List.mem_iff_getElem?.mp member
    have ok := sound.stages j r' at_j
    simp only [unfinished,decide_eq_true_eq]
    intro ended
    simp only [StageOk,ended] at ok
    exact some_permit ok.1
  rw [users,List.length_map,← List.countP_eq_length_filter,List.countP_eq_countP_filter_add _ _ holdsGlobal]
  have holders : (s.runs.filter holdsGlobal).countP unfinished = s.runs.countP holdsGlobal := by
    rw [List.countP_eq_length_filter (p := holdsGlobal),List.countP_eq_length]
    intro r' member
    obtain ⟨member,holds⟩ := List.mem_filter.mp member
    exact live r' member fun none => by simp [holdsGlobal,none] at holds
  have waiter : 0 < (s.runs.filter fun r => !holdsGlobal r).countP unfinished := by
    rw [List.countP_pos_iff]
    have member := List.mem_of_getElem? found
    exact ⟨r,List.mem_filter.mpr ⟨member,by simp [holdsGlobal,parked]⟩,live r member (by simp [parked])⟩
  omega

theorem spread_noneBlocked (sound : Sound s) (spread : Spread (users s)) : NoneBlocked s := by
  intro rested few r member waits
  obtain ⟨i,found⟩ := List.mem_iff_getElem?.mp member
  simp only [waiting,Bool.or_eq_true,decide_eq_true_eq] at waits
  rcases waits with parked | parked
  · have four := four_unfinished sound found parked
    have different : (users s).Nodup := by
      rcases spread with short | different
      · omega
      · exact different
    obtain ⟨_,taken⟩ := (sound_permitsKept sound).waitsGlobal i r found parked
    have total := (sound_permitsKept sound).global
    have all : s.runs.countP holdsGlobal ≤ s.runs.countP executing := by
      apply List.countP_mono_left
      intro r' member' holds
      exact holder_executes sound rested different member' (by simpa [holdsGlobal] using holds)
    omega
  · exact behind_own sound found parked

end

structure Fair (s : Merges) : Prop where
  sound : Sound s
  spread : Spread (users s)

/-- If the unfinished merges, once they are more than three, are of different users, none waits while
the service has room, but behind one of its own user. -/
theorem free_capacity_used {s : Merges}
    (reach : Reachable step (fun s l => Allowed s l ∧ Considerate s l) initial s) : NoneBlocked s := by
  have base : Fair initial := ⟨sound_initial,.inl (by decide)⟩
  have fair : Fair s := reachable_invariant base (fun s l fair ok =>
    ⟨step_sound fair.sound l ok.1,step_spread fair.spread l ok.1 ok.2⟩) reach
  exact spread_noneBlocked fair.sound fair.spread

def uploads (entries : List (String × String)) : List Label :=
  entries.map fun entry => .session entry.1 (some ⟨8,8,1,entry.2,.pending,none,none,false⟩)

def first : String := "00000000-0000-4000-8000-000000000001"
def second : String := "00000000-0000-4000-8000-000000000002"
def third : String := "00000000-0000-4000-8000-000000000003"
def fourth : String := "00000000-0000-4000-8000-000000000004"

def threeUploads : List Label :=
  uploads [(first,"a"),(second,"a"),(third,"a"),(fourth,"b")] ++
    [Label.triggerMerge first "a",.resume 0,.resume 0,.triggerMerge second "a",.resume 1,.triggerMerge third "a",.resume 2,
      .triggerMerge fourth "b"]

def fourUsers : List Label :=
  uploads [(first,"a"),(second,"b"),(third,"c"),(fourth,"d")] ++
    [Label.triggerMerge first "a",.resume 0,.resume 0,.triggerMerge second "b",.resume 1,.resume 1,.triggerMerge third "c",
      .resume 2,.resume 2,.triggerMerge fourth "d"]

theorem free_capacity_used_four :
    let s := fourUsers.foldl step initial
    s.runs.map executing = [true,true,true,false] ∧ NoneBlocked s := by
  have legal : Legal step (fun s l => Allowed s l ∧ Considerate s l) initial fourUsers := by decide +kernel
  exact ⟨by decide +kernel,free_capacity_used (reachable_run .start fourUsers legal)⟩

/-- One merge runs, two more of the same user wait with a permit of the service each, and another user waits for one. -/
theorem user_blocks_others : ¬∀ s, Reachable step Allowed initial s → NoneBlocked s := by
  intro always
  have legal : Legal step Allowed initial threeUploads := by decide +kernel
  have fails : ¬NoneBlocked (threeUploads.foldl step initial) := by decide +kernel
  exact fails (always _ (reachable_run .start threeUploads legal))

end Tgtc.FreeCapacity
