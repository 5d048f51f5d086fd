import Tgtc.HandOffPool
import Tgtc.TaskOwnership

/-!
What a consumed ticket promises. The reservation of the task lies in the pool under the key of its file, and the first
request for the body that asks for it in time adopts it.
-/
namespace Tgtc.TicketPromise
open Resources Maps Runs Custody DiskQueue DiskMoves Settlement Deliveries
open HandOffPool TaskMoves TaskOwnership
open Coordinator (Service Op onDisk probeAdmission)
open DownloadTask

structure Fits (d : Disk) (r : DownloadTaskRecord) : Prop where
  holds : ∀ id, r.reservation = some id → r.expectedSize ≤ grantedBytes d id
  awaits : ∀ request, r.acquiring = some ⟨request,false⟩ → Asked d request r.expectedSize

def Sized (s : TaskService) : Prop :=
  ∀ (task : Nat) (record : DownloadTaskRecord), s.records[task]? = some record → Fits s.disk record

theorem fits_alike {d : Disk} {r r' : DownloadTaskRecord} (fits : Fits d r) (reservation : r'.reservation = r.reservation)
    (acquiring : r'.acquiring = r.acquiring) (expectedSize : r'.expectedSize = r.expectedSize) : Fits d r' := by
  constructor
  · intro id has
    rw [expectedSize]
    exact fits.holds id (reservation.symm.trans has)
  · intro request call
    rw [expectedSize]
    exact fits.awaits request (acquiring.symm.trans call)

variable {s s' : TaskService}

theorem sized_path (owned : Owned s) (sized : Sized s) {ctx : Context} {kinds : Kind → Prop} {d : Disk}
    (path : Path ctx kinds s.disk d) {task : Nat} {record : DownloadTaskRecord}
    (found : s.records[task]? = some record) : Fits d record := by
  have fits := sized task record found
  constructor
  · intro id has
    have known := owned.kept.known (.record task) id (by simp [owns,held,found,has])
    rw [(path_granted path known).2]
    exact fits.holds id has
  · intro request call
    have arrived := owned.numbered task request (by simp [callOf,found,call])
    exact path_asked path arrived (fits.awaits request call)

theorem sized_amend {s s' : TaskService} {task : Nat} {f : DownloadTaskRecord → DownloadTaskRecord}
    (records : s'.records = (amend s task f).records)
    (others : ∀ (t : Nat) r, s.records[t]? = some r → Fits s'.disk r)
    (changed : ∀ r, s.records[task]? = some r → Fits s'.disk (f r)) : Sized s' := by
  intro t r found
  rw [records] at found
  rcases amend_cases found with ⟨rfl,before,here,rfl⟩ | ⟨_,old⟩
  · exact changed before here
  · exact others t r old

theorem move_sized (move : TaskMove s s') (owned : Owned s) (sized : Sized s) : Sized s' := by
  cases move with
  | coordinate resources path forward => exact fun task record found => sized_path owned sized path found
  | read | drop => exact sized
  | add record idle =>
    intro t r found
    rcases Nat.lt_trichotomy t s.records.length with old | rfl | beyond
    · exact sized t r (by simpa [addTask,List.getElem?_append_left old] using found)
    · obtain rfl : record = r := by simpa [addTask] using found
      exact ⟨fun id has => (by simp [idle.reservation] at has),fun request call => (by simp [idle.acquiring] at call)⟩
    · rw [List.getElem?_eq_none (by simp [addTask]; omega)] at found
      cases found
  | note task f alike status =>
    refine @sized_amend s _ task f rfl sized fun r found => ?_
    have same := alike r found
    exact fits_alike (sized task r found) same.reservation same.acquiring same.expectedSize
  | start task record found idle resources path forward numbered asked =>
    refine @sized_amend s _ task _ rfl (fun t r here => sized_path owned sized path here) fun r here => ?_
    obtain rfl : record = r := Option.mem_unique found here
    refine ⟨fun id has => (by simp [idle.reservation] at has),fun request call => ?_⟩
    cases call
    exact asked owned.settled
  | hold task record found idle reservation d d' steps out enough =>
    have path : Path s.resources.ctx (fun _ => True) s.disk d' := steps_move_path steps out
    refine @sized_amend s _ task _ rfl (fun t r here => sized_path owned sized path here) fun r here => ?_
    obtain rfl : record = r := Option.mem_unique found here
    refine ⟨fun id has => ?_,fun request call => (by simp [idle.acquiring] at call)⟩
    cases has
    exact enough
  | issue task record found present holds unissued =>
    have disk : (issueTicket s task).disk = s.disk := congrArg Service.disk (issueTicket_resources s task)
    refine sized_amend (issueTicket_records found) (by rw [disk]; exact sized) fun r here => ?_
    rw [disk]
    exact fits_alike (sized task r here) rfl rfl rfl
  | revoke task record found ticket issued =>
    exact @sized_amend s _ task _ rfl sized fun r here => fits_alike (sized task r here) rfl rfl rfl
  | clear task record found unissued dead =>
    refine @sized_amend s _ task _ rfl sized fun r here => ?_
    exact ⟨fun id has => (by cases has),(sized task r here).awaits⟩
  | keep task record found request reservation awaits yielded =>
    refine @sized_amend s _ task _ rfl sized fun r here => ?_
    obtain rfl : record = r := Option.mem_unique found here
    refine ⟨fun id has => ?_,fun other call => (by simp [finishCall] at call)⟩
    cases has
    exact (((sized task record found).awaits request awaits).got reservation yielded).2
  | finish task record found request awaits settled dead =>
    refine @sized_amend s _ task _ rfl sized fun r here => ?_
    obtain rfl : record = r := Option.mem_unique found here
    exact ⟨(sized task record found).holds,fun other call => (by simp [finishCall] at call)⟩
  | handOff task record found unissued reservation holds dead message =>
    have pooled : Path s.resources.ctx (fun _ => True) s.disk { s.disk with
        handedOffReservations := s.disk.handedOffReservations.set record.sessionKey
          ⟨reservation,s.now + handoffTtlMs⟩ } := .single ⟨_,trivial,.put s.disk record.sessionKey reservation⟩
    refine @sized_amend s _ task _ rfl (fun t r here => sized_path owned sized pooled here) fun r here => ?_
    exact ⟨fun id has => (by cases has),(sized_path owned sized pooled here).awaits⟩

theorem sized_fresh (config : Config) (world : World) (evictionHook : Bool) (cached : String → Bool)
    (retention : Retention) : Sized (fresh config world evictionHook cached retention) :=
  fun _ _ found => by simp [DownloadTask.fresh] at found

/-- Others ask before the body does, release what they got themselves, and shut nothing down. -/
def Others (key : String) (s : TaskService) : TaskOp → Prop
  | .outside (.reserve o) => o.sessionKey ≠ key
  | .outside (.release id) => ∃ request, ownedBy s (.adopter request) = some id
  | .outside .shutdown => False
  | _ => True

section
variable {key : String} {entry : HandOff} {s : TaskService}

theorem pooled_of_owned (owned : Owned s) (found : s.disk.handedOffReservations.get key = some entry)
    (live : isActive s.disk entry.reservation = true) : Pooled key entry s.disk := by
  refine ⟨found,live,?_⟩
  intro other e present same
  have mine : owns (passed s) (held s) s.disk (.pool key) = some entry.reservation := by simp [owns,found]
  have theirs : owns (passed s) (held s) s.disk (.pool other) = some entry.reservation := by simp [owns,present,same]
  cases (owned.kept.sole entry.reservation live).unique theirs mine
  rfl

section
variable (owned : Owned s) (pooled : Pooled key entry s.disk)
include owned pooled

theorem unowned_of_pooled {owner : Owner} (has : ownedBy s owner = some entry.reservation) : owner = .pool key := by
  have mine : ownedBy s (.pool key) = some entry.reservation := by simp [ownedBy,pooled.found]
  exact (one_owner owned pooled.live).unique has mine

theorem pooled_outside (inTime : s.now < entry.expiresAt) {op : Op}
    (foreign : Foreign op) (others : Others key s (.outside op)) : Pooled key entry (coordinate s op).disk := by
  cases op with
  | observe | acquireUpstreamSlot | releaseLease | upstreamTimeout | upstreamAbort | setActiveUpstreamCount => exact pooled
  | reserve o => exact pooled_reserve s.resources.ctx pooled (.inr (.inr others))
  | tryReserveNow | handOffToSession => cases foreign
  | consume id bytes => exact pooled_consume pooled id bytes
  | release id =>
    refine pooled_releaseReservation s.resources.ctx pooled ?_
    rintro rfl
    obtain ⟨request,has⟩ := others
    cases unowned_of_pooled owned pooled has
  | purgeExpiredHandOffs => exact pooled_purge s.resources.ctx pooled inTime
  | diskTimeout request => exact pooled_fireTimer s.resources.ctx pooled request
  | diskAbort request => exact pooled_fireAbort s.resources.ctx pooled request
  | pollTick => exact pooled_pollTick s.resources.ctx pooled
  | evictionSettled => exact pooled_evictionSettled s.resources.ctx pooled
  | configure update => exact pooled_pumpDisk _ pooled
  | shutdown => cases others
  | reset => exact pooled_same pooled rfl pooled.live

theorem elsewhere_of_pooled : Elsewhere (fun _ => True) entry.reservation s.disk.handedOffReservations s.now s := by
  refine ⟨pooled.live,?_,rfl,rfl⟩
  intro task _ has
  cases unowned_of_pooled owned pooled (show ownedBy s (.record task) = some entry.reservation from has)

end

theorem pooled_of_elsewhere {s' : TaskService} (pooled : Pooled key entry s.disk)
    (elsewhere : Elsewhere (fun _ => True) entry.reservation s.disk.handedOffReservations s.now s') :
    Pooled key entry s'.disk :=
  pooled_same pooled elsewhere.pool elsewhere.live

section
variable (owned : Owned s) (pooled : Pooled key entry s.disk)
include owned pooled

theorem pooled_refresh (task : Nat) (ownerKey : String) : Pooled key entry (refresh s task ownerKey).2.disk := by
  unfold refresh
  split
  · exact pooled
  · exact pooled_of_elsewhere pooled (elsewhere_evaluate (elsewhere_of_pooled owned pooled) trivial)

theorem pooled_cancel (task : Nat) (ownerKey : String) : Pooled key entry (cancel s task ownerKey).2.disk := by
  unfold cancel
  split
  · exact pooled
  split
  · exact pooled
  · split
    · have released : Elsewhere _ _ _ _ (releaseResources s task) :=
        elsewhere_releaseResources (elsewhere_of_pooled owned pooled) trivial
      exact pooled_same pooled released.pool released.live
    · exact pooled

theorem pooled_resume (task : Nat) : Pooled key entry (resume s task).disk := by
  unfold resume
  split
  · exact pooled
  next record found =>
  split
  · exact pooled
  next call awaits =>
  obtain ⟨request,resumed⟩ := call
  cases resumed with
  | true => exact pooled
  | false =>
    simp only [Bool.false_eq_true,↓reduceIte]
    split
    · exact pooled
    · next reservation yielded =>
      unfold acquired
      split
      · refine pooled_releaseReservation s.resources.ctx pooled ?_
        rintro rfl
        have has : ownedBy s (.awaiting task) = some entry.reservation := by
          simp [ownedBy,found,awaits,delivered,yielded]
        cases unowned_of_pooled owned pooled has
      · show Pooled key entry (issueTicket _ task).resources.disk
        rw [issueTicket_resources]
        exact pooled
    · exact pooled

theorem pooled_sweeping (inTime : s.now < entry.expiresAt) {op : TaskOp}
    (sweeping : op = .sweep ∨ op = .onApplicationShutdown) : Pooled key entry (step s op).disk := by
  rcases sweeping_cases (fun _ => trivial) (elsewhere_of_pooled owned pooled) sweeping with same | ⟨s',after,purged⟩
  · rw [same]
    exact pooled
  · rw [purged]
    refine pooled_purge s'.resources.ctx (pooled_of_elsewhere pooled after) ?_
    show s'.now < entry.expiresAt
    rw [after.now]
    exact inTime

end

end

/-- The task can be served: the coordinator accepts it, its size is legal, and it is cached or fits the
server. -/
def Takes (s : TaskService) (input : CreateDownloadTaskInput) : Prop :=
  s.resources.shuttingDown = false ∧ legalBytes (.whole input.expectedSize) ≠ none ∧
    (s.cached input.fileId = true ∨
      (probeAdmission s.resources input.expectedSize input.countsTowardCache).structural = false)

theorem evaluate_created (s : TaskService) (input : CreateDownloadTaskInput) :
    evaluate (addTask s (newRecord s input)) s.records.length =
      amend (addTask s (newRecord s input)) s.records.length (appraise (addTask s (newRecord s input))) := by
  have found : (addTask s (newRecord s input)).records[s.records.length]? = some (newRecord s input) := by simp [addTask]
  have untouched : amend (addTask s (newRecord s input)) s.records.length
      (fun r => { r with updatedAt := (addTask s (newRecord s input)).now }) = addTask s (newRecord s input) := by
    have same := @modify_fixed (fun r => { r with updatedAt := (addTask s (newRecord s input)).now }) s.records.length
      (addTask s (newRecord s input)).records (by
        intro r here
        obtain rfl : newRecord s input = r := Option.mem_unique found here
        rfl)
    rw [amend,same]
  have lasting : ¬ (newRecord s input).expiresAt < ((addTask s (newRecord s input)).now : ℚ) := by
    have least := s.retention.least
    show ¬ (s.now : ℚ) + s.retention.ms < s.now
    linarith
  have ticketless : evaluateTicket (addTask s (newRecord s input)) s.records.length = addTask s (newRecord s input) := by
    unfold evaluateTicket
    simp only [found]
    exact if_neg (by simp [newRecord])
  unfold evaluate
  simp only [found]
  rw [if_neg (by simp [newRecord]),if_neg lasting,untouched,ticketless]

theorem structural_refused (s : Service) (bytes : Int) (counts : Bool)
    (structural : (probeAdmission s bytes counts).structural = true) : (probeAdmission s bytes counts).admitted = false := by
  unfold probeAdmission at structural ⊢
  by_cases closing : s.shuttingDown = true
  · simp [closing]
  by_cases failed : probeAdmissionFreeBytes s.ctx < 0
  · simp [closing,failed]
  simp only [closing,Bool.false_eq_true,↓reduceIte,failed] at structural ⊢
  cases verdict : evaluateGrant s.ctx s.disk bytes counts (probeAdmissionFreeBytes s.ctx) with
  | ok =>
    simp only [verdict] at structural
    split at structural <;> cases structural
  | refused decided reason => rfl

section
variable {key : String} {entry : HandOff} {s : TaskService}

variable {task reservation : Nat}

theorem pooled_secure {record : DownloadTaskRecord} (found : s.records[task]? = some record)
    (pooled : Pooled key entry s.disk)
    (apart : s.resources.shuttingDown = true ∨ legalBytes (.whole record.expectedSize) = none ∨
      record.sessionKey ≠ key ∨ (record.status = .streamable ∧ record.mode ≠ none)) :
    Pooled key entry (secure s task).disk := by
  have guarded : ¬ (record.status = .streamable ∧ record.mode ≠ none) →
      s.resources.shuttingDown = true ∨ legalBytes (.whole record.expectedSize) = none ∨ record.sessionKey ≠ key := by
    intro reaching
    rcases apart with closed | illegal | different | direct
    · exact .inl closed
    · exact .inr (.inl illegal)
    · exact .inr (.inr different)
    · exact absurd direct reaching
  unfold secure
  simp only [found]
  split
  · next starts =>
    have tried := @pooled_tryReserveNow key entry s.disk s.resources.ctx pooled s.resources.shuttingDown record.sessionKey
      (.whole record.expectedSize) record.countsTowardCache (guarded fun direct => direct.2 starts.2)
    unfold tryHoldReservationNow
    split
    · next same =>
      rw [← (Prod.mk.inj same).2]
      exact tried
    · next granted after same =>
      rw [← (Prod.mk.inj same).2]
      show Pooled key entry (issueTicket _ task).resources.disk
      rw [issueTicket_resources]
      exact tried
  · split
    · next queued =>
      unfold acquireReservation
      simp only [found]
      split
      · exact pooled
      · split
        · exact pooled
        · refine pooled_reserve s.resources.ctx pooled (guarded fun direct => ?_)
          rw [queued] at direct
          cases direct.1
    · exact pooled

theorem pooled_create (pooled : Pooled key entry s.disk) {input : CreateDownloadTaskInput}
    (spares : sessionKeyFor input.fileId input.contentVersion = key → ¬ Takes s input) : Pooled key entry (create s input).2.disk := by
  have found : (addTask s (newRecord s input)).records[s.records.length]? = some (newRecord s input) := by simp [addTask]
  have alike := alike_appraise (addTask s (newRecord s input)) (newRecord s input)
  show Pooled key entry (secure (evaluate _ s.records.length) s.records.length).disk
  rw [evaluate_created]
  refine pooled_secure (records_amend found _) pooled ?_
  rw [alike.expectedSize,alike.sessionKey]
  by_cases different : sessionKeyFor input.fileId input.contentVersion = key
  · by_cases closed : s.resources.shuttingDown = true
    · exact .inl closed
    by_cases illegal : legalBytes (.whole input.expectedSize) = none
    · exact .inr (.inl illegal)
    refine .inr (.inr (.inr ?_))
    have kept : ¬ (s.cached input.fileId = true ∨
        (probeAdmission s.resources input.expectedSize input.countsTowardCache).structural = false) :=
      fun reaches => spares different ⟨by simpa using closed,illegal,reaches⟩
    obtain ⟨uncached,structural⟩ := not_or.mp kept
    have structural : (probeAdmission s.resources input.expectedSize input.countsTowardCache).structural = true := by
      simpa using structural
    have refused := structural_refused s.resources input.expectedSize input.countsTowardCache structural
    have shown : appraise (addTask s (newRecord s input)) (newRecord s input) =
        markStreamable directText { newRecord s input with status := .queued, errorCode := none, mode := some .direct } := by
      unfold appraise
      rw [if_neg (by simp [newRecord]),if_neg (by exact uncached)]
      unfold probed
      rw [if_neg (by exact Bool.eq_false_iff.mp refused),if_pos (by exact structural)]
    rw [shown]
    exact ⟨rfl,by simp [markStreamable]⟩
  · exact .inr (.inr (.inl different))

section
variable (owned : Owned s) (holds : held s task = some reservation) (live : isActive s.disk reservation = true)
include owned holds live

theorem unpooled_of_held {other : String} {e : HandOff}
    (present : s.disk.handedOffReservations.get other = some e) : e.reservation ≠ reservation := by
  rintro rfl
  have mine : ownedBy s (.record task) = some e.reservation := holds
  have theirs : ownedBy s (.pool other) = some e.reservation := by simp [ownedBy,present]
  cases (one_owner owned live).unique mine theirs

theorem handOff_pooled (other : String) : (handOffToSession s.resources.ctx s.disk other reservation).handedOffReservations.get other =
        some ⟨reservation,s.now + handoffTtlMs⟩ ∧
      isActive (handOffToSession s.resources.ctx s.disk other reservation) reservation = true := by
  refine ⟨get_set_same _ _ _,?_⟩
  have purged : isActive (purgeExpiredHandOffs s.resources.ctx s.disk) reservation = true :=
    purgeExpiredHandOffs_active s.resources.ctx live fun k e present same =>
      absurd same (unpooled_of_held owned holds live present)
  show isActive (returnReplaced s.resources.ctx (purgeExpiredHandOffs s.resources.ctx s.disk) other reservation)
    reservation = true
  unfold returnReplaced
  split
  · exact purged
  · split
    · next different => exact releaseReservation_active s.resources.ctx (Ne.symm different) purged
    · exact purged

end

theorem pooled_handOff (owned : Owned s) (pooled : Pooled key entry s.disk) (inTime : s.now < entry.expiresAt)
    (holds : held s task = some reservation) {other : String} (different : other ≠ key) :
    Pooled key entry (handOffToSession s.resources.ctx s.disk other reservation) := by
  have purged : Pooled key entry (purgeExpiredHandOffs s.resources.ctx s.disk) :=
    pooled_purge s.resources.ctx pooled inTime
  have returned : Pooled key entry (returnReplaced s.resources.ctx (purgeExpiredHandOffs s.resources.ctx s.disk) other
      reservation) := by
    unfold returnReplaced
    split
    · exact purged
    · next existing present =>
      split
      · exact pooled_releaseReservation s.resources.ctx purged fun same => different (purged.alone other existing present same)
      · exact purged
  refine ⟨(get_set_other _ _ different.symm).trans returned.found,returned.live,?_⟩
  intro k e present same
  by_cases here : k = other
  · subst here
    have new : e = ⟨reservation,s.now + handoffTtlMs⟩ := Option.mem_unique present (get_set_same _ _ _)
    rw [new] at same
    have mine : ownedBy s (.record task) = some entry.reservation := holds.trans (congrArg some same)
    cases unowned_of_pooled owned pooled mine
  · exact returned.alone k e ((get_set_other _ _ here).symm.trans present) same

end

/-- A new task does not reach for the pool, and another ticket hands off a reservation that is large
enough. -/
def Spares (key : String) (bytes : Int) (s : TaskService) : TaskOp → Prop
  | .create input => sessionKeyFor input.fileId input.contentVersion = key → ¬ Takes s input
  | .consumeTicket ticket ownerKey fileId => ∀ (task : Nat) (record : DownloadTaskRecord) (id : Nat),
      s.ticketIndex.get ticket = some task → s.records[task]? = some record → record.sessionKey = key →
      Good s record ownerKey fileId → record.reservation = some id → isActive s.disk id = true →
      bytes ≤ grantedBytes s.disk id
  | _ => True

/-- Anything may happen until the body is asked for, as long as it spares the promise. -/
def Undisturbed (key : String) (bytes : Int) (s : TaskService) (op : TaskOp) : Prop :=
  Allowed s op ∧ Others key s op ∧ Spares key bytes s op

/-- The pool has a reservation for the session that is large enough and stays until some time. -/
def Promised (key : String) (bytes : Int) (deadline : Nat) (s : TaskService) : Prop :=
  ∃ entry, Pooled key entry s.disk ∧ bytes ≤ grantedBytes s.disk entry.reservation ∧ deadline ≤ entry.expiresAt

theorem steps_granted (steps : TaskSteps s s') {id : Nat} (known : id < s.disk.records.length) :
    id < s'.disk.records.length ∧ grantedBytes s'.disk id = grantedBytes s.disk id := by
  induction steps with
  | refl => exact ⟨known,rfl⟩
  | @tail before after _ move ih =>
    obtain ⟨known,same⟩ := ih
    rw [← same]
    cases move with
    | coordinate resources path forward => exact path_granted path known
    | start task record found idle resources path forward numbered asked => exact path_granted path known
    | hold task record found idle reservation d d' steps out enough =>
      exact path_granted (steps_move_path steps out) known
    | issue task record found present holds unissued =>
      rw [TaskService.disk,issueTicket_resources]
      exact ⟨known,rfl⟩
    | _ => exact ⟨known,rfl⟩

theorem steps_now (steps : TaskSteps s s') : s.now ≤ s'.now := by
  induction steps with
  | refl => exact le_refl _
  | @tail before after _ move ih =>
    refine ih.trans ?_
    cases move with
    | coordinate resources path forward | start task record found idle resources path forward numbered asked => exact forward
    | issue task record found present holds unissued =>
      rw [TaskService.now,TaskService.now,issueTicket_resources]
    | _ => exact le_refl _

section
variable {key : String} {bytes : Int} {deadline : Nat} {s : TaskService}

theorem promised_step {op : TaskOp} (tickets : Tickets s) (owned : Owned s) (undisturbed : Undisturbed key bytes s op)
    (inTime : s.now < deadline) (recent : deadline ≤ s.now + handoffTtlMs) (promised : Promised key bytes deadline s) :
    Promised key bytes deadline (step s op) := by
  obtain ⟨entry,pooled,enough,lasting⟩ := promised
  obtain ⟨allowed,others,spares⟩ := undisturbed
  have steps := allowed_steps allowed tickets owned
  have sooner : s.now < entry.expiresAt := Nat.lt_of_lt_of_le inTime lasting
  have keeps : Pooled key entry (step s op).disk → Promised key bytes deadline (step s op) := by
    intro after
    obtain ⟨record,found,_⟩ := isActive_known pooled.live
    have same := (steps_granted steps (at_lt found)).2
    exact ⟨entry,after,by rwa [same],lasting⟩
  cases op with
  | create input => exact keeps (pooled_create pooled spares)
  | refresh task ownerKey => exact keeps (pooled_refresh owned pooled task ownerKey)
  | cancel task ownerKey => exact keeps (pooled_cancel owned pooled task ownerKey)
  | resume task => exact keeps (pooled_resume owned pooled task)
  | sweep => exact keeps (pooled_sweeping owned pooled sooner (.inl rfl))
  | onApplicationShutdown => exact keeps (pooled_sweeping owned pooled sooner (.inr rfl))
  | outside other => exact keeps (pooled_outside owned pooled sooner allowed.2 others)
  | publish cached | retain retention => exact keeps pooled
  | consumeTicket ticket ownerKey fileId =>
    rcases consumeTicket_cases s tickets ticket ownerKey fileId with
      ⟨_,refused⟩ | ⟨task,record,indexed,_,found,issued,refused | ⟨reservation,good,holds,live,consumed⟩⟩
    · refine keeps ?_
      rw [step,refused]
      exact pooled
    · refine keeps ?_
      rw [step,refused]
      exact pooled
    · have mine : held s task = some reservation := by simp [held,found,holds]
      have disk : (step s (.consumeTicket ticket ownerKey fileId)).disk =
          handOffToSession s.resources.ctx s.disk record.sessionKey reservation := by
        rw [step,consumed,handOff_eq s record live]
        rfl
      by_cases same : record.sessionKey = key
      · -- The new entry takes the place of the old one.
        obtain ⟨_,owned'⟩ := steps_owned steps tickets owned
        obtain ⟨found',live'⟩ := handOff_pooled owned mine live record.sessionKey
        rw [← disk,same] at found'
        rw [← disk] at live'
        obtain ⟨kept,present,_⟩ := isActive_known live
        have size := (steps_granted steps (at_lt present)).2
        refine ⟨_,pooled_of_owned owned' found' live',?_,recent⟩
        rw [size]
        exact spares task record reservation indexed found same good holds live
      · refine keeps ?_
        rw [disk]
        exact pooled_handOff owned pooled sooner mine same

theorem promised_run {start : TaskService} (tickets : Tickets start) (owned : Owned start)
    (recent : deadline ≤ start.now + handoffTtlMs) (promised : Promised key bytes deadline start)
    (reach : Reachable step (Undisturbed key bytes) start s) :
    Tickets s ∧ Owned s ∧ deadline ≤ s.now + handoffTtlMs ∧ (s.now < deadline → Promised key bytes deadline s) := by
  induction reach with
  | start => exact ⟨tickets,owned,recent,fun _ => promised⟩
  | @next s op _ undisturbed ih =>
    obtain ⟨tickets,owned,recent,promised⟩ := ih
    have steps := allowed_steps undisturbed.1 tickets owned
    have later := steps_now steps
    obtain ⟨tickets',owned'⟩ := steps_owned steps tickets owned
    refine ⟨tickets',owned',by omega,fun inTime => ?_⟩
    have sooner : s.now < deadline := by omega
    exact promised_step tickets owned undisturbed sooner recent (promised sooner)

theorem promised_adopted (promised : Promised key bytes deadline s) (inTime : s.now < deadline)
    (accepting : s.resources.shuttingDown = false) {o : ReserveOptions} {n : Int} (session : o.sessionKey = key)
    (legal : legalBytes o.bytes = some n) (fits : n ≤ bytes) (signal : o.signal ≠ .aborted) :
    ∃ id, isActive (step s (.outside (.reserve o))).disk id = true ∧
      (step s (.outside (.reserve o))).disk.log = s.disk.log ++ [DiskEvent.answered s.disk.nextRequest (.adopted id)] := by
  obtain ⟨entry,pooled,enough,lasting⟩ := promised
  have good : ¬ (entry.expiresAt ≤ s.resources.ctx.world.now ∨ (!isActive (unpooled s.disk key) entry.reservation) = true) := by
    rintro (late | off)
    · have sooner : s.now < entry.expiresAt := Nat.lt_of_lt_of_le inTime lasting
      exact absurd sooner (not_lt.mpr late)
    · rw [show isActive (unpooled s.disk key) entry.reservation = isActive s.disk entry.reservation from rfl,
        pooled.live] at off
      cases off
  have taken : takeHandedOffReservation s.resources.ctx s.disk o.sessionKey =
      (some entry.reservation,unpooled s.disk key) := by
    unfold takeHandedOffReservation
    rw [session]
    simp only [pooled.found]
    exact if_neg good
  have adopted : (step s (.outside (.reserve o))).disk = answer (unpooled s.disk key) (.adopted entry.reservation) := by
    show reserve s.resources.ctx s.resources.shuttingDown s.disk o = _
    simp only [reserve,accepting,legal,signal,reserveAdmitted,taken]
    exact if_pos (fits.trans enough)
  rw [adopted]
  exact ⟨entry.reservation,pooled.live,rfl⟩

end

/-- A ticket that was consumed keeps its promise in every run that spares it: the first request for the
body in time adopts an active reservation. -/
theorem consumed_ticket_kept {config : Config} {world : World} {evictionHook : Bool} {cached : String → Bool}
    {retention : Retention} {s : TaskService}
    (reach : Reachable step Allowed (fresh config world evictionHook cached retention) s) {ticket : Nat}
    {ownerKey fileId : String} (consumed : (consumeTicket s ticket ownerKey fileId).1 = true) {task : Nat}
    {record : DownloadTaskRecord} (indexed : s.ticketIndex.get ticket = some task) (found : s.records[task]? = some record)
    {s' : TaskService}
    (later : Reachable step (Undisturbed record.sessionKey record.expectedSize) (consumeTicket s ticket ownerKey fileId).2 s')
    (inTime : s'.now < s.now + handoffTtlMs) (accepting : s'.resources.shuttingDown = false) (o : ReserveOptions) (n : Int)
    (session : o.sessionKey = record.sessionKey) (legal : legalBytes o.bytes = some n) (fits : n ≤ record.expectedSize)
    (signal : o.signal ≠ .aborted) :
    ∃ id, isActive (step s' (.outside (.reserve o))).disk id = true ∧
      (step s' (.outside (.reserve o))).disk.log = s'.disk.log ++ [.answered s'.disk.nextRequest (.adopted id)] := by
  obtain ⟨tickets,owned,sized⟩ := reachable_keep (fun _ _ move _ owned sized => move_sized move owned sized)
    (tickets_fresh config world evictionHook cached retention) (owned_fresh config world evictionHook cached retention)
    (sized_fresh config world evictionHook cached retention) reach
  have steps := consumeTicket_steps s tickets ticket ownerKey fileId
  obtain ⟨tickets',owned'⟩ := steps_owned steps tickets owned
  have begun := steps_now steps
  have promised : Promised record.sessionKey record.expectedSize (s.now + handoffTtlMs)
      (consumeTicket s ticket ownerKey fileId).2 := by
    obtain ⟨t,r,reservation,indexed',found',issued,holds,live,handed⟩ := consumed_cases tickets consumed
    obtain rfl : task = t := Option.mem_unique indexed indexed'
    obtain rfl : record = r := Option.mem_unique found found'
    have disk : (consumeTicket s ticket ownerKey fileId).2.disk =
        handOffToSession s.resources.ctx s.disk record.sessionKey reservation := by
      rw [handed,handOff_eq s record live]
      rfl
    have mine : held s task = some reservation := by simp [held,found,holds]
    obtain ⟨pooled,active⟩ := handOff_pooled owned mine live record.sessionKey
    rw [← disk] at pooled active
    obtain ⟨kept,present,_⟩ := isActive_known live
    have size := (steps_granted steps (at_lt present)).2
    refine ⟨_,pooled_of_owned owned' pooled active,?_,le_refl _⟩
    rw [size]
    exact (sized task record found).holds reservation holds
  obtain ⟨_,_,_,kept⟩ := promised_run tickets' owned' (by omega) promised later
  exact promised_adopted (kept inTime) inTime accepting session legal fits signal

def wholeBody : ReserveOptions := ⟨"file:a",.whole 100,false,.absent⟩

def otherFile : CreateDownloadTaskInput := ⟨"user:2","b",none,100,"/api/files/b/download",false⟩

def oneTask : TaskService := step (started 100) (.create (hundredBytes "user:1"))

theorem body_adopted_beside_other_file :
    (consumeTicket oneTask 0 "user:1" "a").1 = true ∧
    ∃ id, isActive (step (step (consumeTicket oneTask 0 "user:1" "a").2 (.create otherFile))
        (.outside (.reserve wholeBody))).disk id = true ∧
      (step (step (consumeTicket oneTask 0 "user:1" "a").2 (.create otherFile)) (.outside (.reserve wholeBody))).disk.log =
        (step (consumeTicket oneTask 0 "user:1" "a").2 (.create otherFile)).disk.log ++
          [.answered (step (consumeTicket oneTask 0 "user:1" "a").2 (.create otherFile)).disk.nextRequest (.adopted id)] := by
  have consumed : (consumeTicket oneTask 0 "user:1" "a").1 = true := by decide +kernel
  refine ⟨consumed,?_⟩
  have known : (oneTask.records[0]?).isSome = true := by decide +kernel
  obtain ⟨record,found⟩ := Option.isSome_iff_exists.mp known
  have key : (oneTask.records[0]?).map (·.sessionKey) = some "file:a" := by decide +kernel
  have size : (oneTask.records[0]?).map (·.expectedSize) = some 100 := by decide +kernel
  simp only [found,Option.map_some,Option.some.injEq] at key size
  have other : Undisturbed record.sessionKey record.expectedSize (consumeTicket oneTask 0 "user:1" "a").2
      (.create otherFile) := by
    refine ⟨trivial,trivial,fun same => ?_⟩
    rw [key] at same
    exact absurd same (by decide)
  have reach : Reachable step Allowed (started 100) oneTask :=
    Reachable.next (TaskOp.create (hundredBytes "user:1")) .start trivial
  exact consumed_ticket_kept reach consumed (by decide +kernel) found (.next _ .start other)
    (by decide +kernel) (by decide +kernel) wholeBody 100 key.symm (by decide +kernel) (le_of_eq size.symm) (by decide)

/-- A second task for the same file takes what the first one was promised, and the
    request for the body waits. -/
theorem body_queued_behind_same_file :
    (consumeTicket oneTask 0 "user:1" "a").1 = true ∧
    Legal step (fun s op => Allowed s op ∧ Others "file:a" s op) (consumeTicket oneTask 0 "user:1" "a").2
      [.create (hundredBytes "user:2")] ∧
    (step (consumeTicket oneTask 0 "user:1" "a").2 (.create (hundredBytes "user:2"))).resources.shuttingDown = false ∧
    (step (consumeTicket oneTask 0 "user:1" "a").2 (.create (hundredBytes "user:2"))).now < oneTask.now + handoffTtlMs ∧
    (step (consumeTicket oneTask 0 "user:1" "a").2 (.create (hundredBytes "user:2"))).disk.nextRequest ∈
      waitingIds (step (step (consumeTicket oneTask 0 "user:1" "a").2 (.create (hundredBytes "user:2")))
        (.outside (.reserve wholeBody))).disk :=
  ⟨by decide +kernel,⟨⟨trivial,trivial⟩,trivial⟩,by decide +kernel,by decide +kernel,by decide +kernel⟩

end Tgtc.TicketPromise
