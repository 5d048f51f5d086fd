import Tgtc.Coordinator

/-!
What `probeAdmission` says and what comes of the request. The probe and the calls that admit
decide by the same verdict on the disk; the weights that they work out for an upstream are equal.
-/
namespace Tgtc.AdmissionProbes
open Numbers Resources DiskQueue Coordinator

theorem legalBytes_whole {bytes : Int} (positive : 0 < bytes) (safe : bytes ≤ 9007199254740991) :
    legalBytes (.whole bytes) = some bytes := by
  have small : |bytes| ≤ 9007199254740991 := by rwa [abs_of_pos positive]
  simp [legalBytes,Number.safeInteger,Number.whole,small,positive]

theorem atLeastOne_pos {n : Number} {total : Int} (budget : n.atLeastOne = some total) : 1 ≤ total := by
  cases n with
  | nan | negInfinity => cases budget; exact le_refl 1
  | finite q => cases budget; exact le_max_left ..
  | infinity => cases budget

theorem atLeastOne_budget (n : Number) : (UpstreamQueue.budgetNumber n.atLeastOne).atLeastOne = n.atLeastOne := by
  cases budget : n.atLeastOne with
  | none => rfl
  | some total =>
    have least := atLeastOne_pos budget
    simp only [UpstreamQueue.budgetNumber,Number.whole,Number.atLeastOne,Int.floor_intCast]
    rw [if_neg (by omega),max_eq_right least]

/-- The weight of a lease is the one the probe works out. -/
theorem resolveUpstreamWeight_bytes (c : Config) (bytes : Int) (signal : Signal) :
    UpstreamQueue.resolveUpstreamWeight c ⟨none,some (.whole bytes),signal⟩ =
      UpstreamQueue.upstreamWeightForSize (.whole bytes) c.maxConcurrentUpstreams := by
  have clipped : ∀ weight : Int, 1 ≤ weight → clip (max 1 (clip weight c.maxConcurrentUpstreams.atLeastOne))
      c.maxConcurrentUpstreams.atLeastOne = clip weight c.maxConcurrentUpstreams.atLeastOne := by
    cases budget : c.maxConcurrentUpstreams.atLeastOne with
    | none => simp only [clip]; omega
    | some total =>
      simp only [clip]
      omega
  simp only [UpstreamQueue.resolveUpstreamWeight,UpstreamQueue.requestedWeight,Option.getD_some,
    UpstreamQueue.upstreamWeightForSize,UpstreamQueue.currentUpstreamBudget,atLeastOne_budget,Number.whole]
  split_ifs <;> exact clipped _ (by decide)

section
variable {s : Service} {sessionKey : String} {bytes : Int} {countsTowardCache : Bool} {signal : Signal}

theorem step_reserve (positive : 0 < bytes) (safe : bytes ≤ 9007199254740991) (live : signal ≠ .aborted)
    (running : s.shuttingDown = false) (fresh : s.disk.handedOffReservations.get sessionKey = none) :
    step s (.reserve ⟨sessionKey,.whole bytes,countsTowardCache,signal⟩) =
      onDisk s (reserveFresh s.ctx s.disk ⟨sessionKey,.whole bytes,countsTowardCache,signal⟩ bytes) := by
  simp only [step,DiskQueue.reserve,running,legalBytes_whole positive safe,live,if_false,reserveAdmitted,
    takeHandedOffReservation,fresh,Bool.false_eq_true]

theorem probe_admitted (admitted : (probeAdmission s bytes countsTowardCache).admitted = true) :
    s.shuttingDown = false ∧ ¬ probeAdmissionFreeBytes s.ctx < 0 ∧
      evaluateGrant s.ctx s.disk bytes countsTowardCache (probeAdmissionFreeBytes s.ctx) = .ok ∧
      UpstreamQueue.canGrantUpstream s.config s.upstream
        (UpstreamQueue.upstreamWeightForSize (.whole bytes) s.config.maxConcurrentUpstreams) = true := by
  unfold probeAdmission at admitted
  dsimp only at admitted
  split at admitted
  · cases admitted
  next running =>
  split at admitted
  · cases admitted
  next open_ =>
  split at admitted
  · next verdict =>
    split_ifs at admitted with ready
    exact ⟨Bool.eq_false_iff.mpr running,open_,verdict,ready.2⟩
  · cases admitted

theorem probe_structural (structural : (probeAdmission s bytes countsTowardCache).structural = true) :
    s.shuttingDown = false ∧ ¬ probeAdmissionFreeBytes s.ctx < 0 ∧
      ∃ reason, evaluateGrant s.ctx s.disk bytes countsTowardCache (probeAdmissionFreeBytes s.ctx) = .refused true reason := by
  unfold probeAdmission at structural
  dsimp only at structural
  split at structural
  · cases structural
  next running =>
  split at structural
  · cases structural
  next open_ =>
  split at structural
  · split_ifs at structural
  · next reason verdict =>
    subst structural
    exact ⟨Bool.eq_false_iff.mpr running,open_,reason,verdict⟩

end

/-- A request that the probe admits is granted without a wait; one that it calls impossible is refused as such. -/
theorem probe_agrees (s : Service) (sessionKey : String) (bytes : Int) (countsTowardCache : Bool) (signal signal' : Signal)
    (positive : 0 < bytes) (safe : bytes ≤ 9007199254740991) (live : signal ≠ .aborted) (live' : signal' ≠ .aborted)
    (fresh : s.disk.handedOffReservations.get sessionKey = none) :
    let reserved := step s (.reserve ⟨sessionKey,.whole bytes,countsTowardCache,signal⟩)
    let leased := step reserved (.acquireUpstreamSlot ⟨none,some (.whole bytes),signal'⟩)
    ((probeAdmission s bytes countsTowardCache).admitted = true → ∃ grant lease,
      grant.bytes = bytes ∧ reserved.disk.log = s.disk.log ++ [.answered s.disk.nextRequest (.granted grant)] ∧
      reserved.disk.waitingDisk = s.disk.waitingDisk ∧
      leased.upstream.log = s.upstream.log ++ [.answered s.upstream.nextRequest (.granted lease)] ∧
      leased.upstream.waitingUpstream = s.upstream.waitingUpstream) ∧
    ((probeAdmission s bytes countsTowardCache).structural = true → ∃ e, e.errorCode = .insufficientStorage ∧
      reserved.disk.log = s.disk.log ++ [.answered s.disk.nextRequest (.rejected (.resource e))] ∧
      reserved.disk.waitingDisk = s.disk.waitingDisk) := by
  intro reserved leased
  constructor
  · intro admitted
    obtain ⟨running,open_,verdict,room⟩ := probe_admitted admitted
    rw [← resolveUpstreamWeight_bytes _ _ signal'] at room
    have course : reserved = onDisk s (answer (recordDiskWaitOutcome
        (createReservation s.ctx s.disk sessionKey bytes countsTowardCache) .granted none)
        (.granted (diskGrant s.ctx s.disk sessionKey bytes countsTowardCache))) := by
      rw [show reserved = _ from step_reserve positive safe live running fresh]
      simp only [reserveFresh,tryGrant,verdict,open_,if_false]
    obtain ⟨weight,upstream⟩ : ∃ weight, leased.upstream = UpstreamQueue.answer (UpstreamQueue.grantUpstreamLease s.upstream weight)
        (.granted (UpstreamQueue.leaseGrant s.ctx s.upstream weight (UpstreamQueue.waitingIds s.upstream))) := by
      simp only [leased,course,step,onDisk,UpstreamQueue.acquireUpstreamSlot,running,live',Service.ctx,room]
      exact ⟨_,rfl⟩
    exact ⟨_,_,rfl,by rw [course]; rfl,by rw [course]; rfl,by rw [upstream]; rfl,by rw [upstream]; rfl⟩
  · intro structural
    obtain ⟨running,open_,reason,verdict⟩ := probe_structural structural
    have course : reserved = onDisk s (answer (recordDiskWaitOutcome s.disk .directDegrade none)
        (.rejected (.resource (insufficientStorageError reason bytes (probeAdmissionFreeBytes s.ctx))))) := by
      rw [show reserved = _ from step_reserve positive safe live running fresh]
      simp only [reserveFresh,tryGrant,verdict,open_,if_false,if_true]
    exact ⟨_,rfl,by rw [course]; rfl,by rw [course]; rfl⟩

theorem probe_agrees_idle : (probeAdmission (after defaultConfig (2 ^ 40) []) 100 true).admitted = true ∧
    ∃ grant, (step (after defaultConfig (2 ^ 40) []) (.reserve ⟨"session",.whole 100,true,.absent⟩)).disk.log =
      [.answered 0 (.granted grant)] := by
  have admitted : (probeAdmission (after defaultConfig (2 ^ 40) []) 100 true).admitted = true := by decide +kernel
  obtain ⟨grant,_,_,log,_⟩ := (probe_agrees (after defaultConfig (2 ^ 40) []) "session" 100 true .absent .absent (by decide)
    (by decide) (by decide) (by decide) rfl).1 admitted
  exact ⟨admitted,grant,log⟩

/-- Nothing is reserved for an empty file. -/
theorem probe_admits_none : (probeAdmission (after defaultConfig (2 ^ 40) []) 0 true).admitted = true ∧
    (step (after defaultConfig (2 ^ 40) []) (.reserve ⟨"session",.whole 0,true,.absent⟩)).disk.log =
      [.answered 0 (.rejected (.illegalSize (.whole 0)))] := by
  exact ⟨by decide +kernel,rfl⟩

end Tgtc.AdmissionProbes
