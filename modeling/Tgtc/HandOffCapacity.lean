import Tgtc.DiskLedger
import Tgtc.TaskOwnership

/-!
The logical capacity of the cache across a hand-off. A request that counts toward the cache may be served by a
reservation that a download task got under another flag: adoption compares sizes only.
-/
namespace Tgtc.HandOffCapacity
open Numbers Resources Maps Runs DiskQueue DiskMoves DiskLedger Settlement Deliveries
open Coordinator (Service Op)
open Relation (ReflTransGen)
open TaskMoves (issueTicket_resources)
open Store (amount total amount_of_found sum_le_total)

/-- A reservation is active and takes at least some bytes of the logical capacity. -/
def Contributes (d : Disk) (id : Nat) (bytes : Int) : Prop :=
  d.cacheReservedBytes = total cachePart d.records d.reservations ∧ id ∈ d.reservations ∧
    bytes ≤ amount cachePart d.records id

/-- The request finds a reservation in the pool that it adopts although it does not count toward the cache. -/
def AdoptsUncounted (s : Service) (o : ReserveOptions) : Prop :=
  s.shuttingDown = false ∧ o.signal ≠ .aborted ∧ ∃ bytes entry record, legalBytes o.bytes = some bytes ∧
    s.disk.handedOffReservations.get o.sessionKey = some entry ∧ s.world.now < entry.expiresAt ∧
    s.disk.records[entry.reservation]? = some record ∧ record.active = true ∧ bytes ≤ record.grantedBytes ∧
    record.countsTowardCache = false

/-- Every step is allowed: histories of the coordinator are arbitrary. -/
abbrev Any (_ : Service) (_ : Op) : Prop := True

def Formal (bytes : Int) (counts : Bool) (granted : Int) : Prop := counts = true ∧ bytes ≤ granted

variable {d : Disk} {bytes : Int} {s : Service} {o : ReserveOptions} {d' : Disk} {ctx : Context}

theorem reachable_meets {terms : Bool → Int → Prop} {s' : Service} (unsettled : Unsettled s.disk) {request : Nat}
    (arrived : request < s.disk.nextRequest) (meets : Meets terms s.disk request)
    (later : Reachable Coordinator.step Any s s') :
    Unsettled s'.disk ∧ request < s'.disk.nextRequest ∧ Meets terms s'.disk request := by
  induction later with
  | start => exact ⟨unsettled,arrived,meets⟩
  | next op _ _ ih =>
    have path := step_path _ op ih.1
    exact ⟨path_unsettled path ih.1,path_meets path ih.2.1 ih.2.2⟩

theorem meets_contributes (ledger : Ledger d) {request id : Nat}
    (meets : Meets (Formal bytes) d request) (got : delivered d request = some id) (live : isActive d id = true) :
    Contributes d id bytes := by
  obtain ⟨record,found,counts,enough⟩ := meets.got id got
  obtain ⟨same,found',active⟩ := isActive_known live
  obtain rfl : record = same := Option.mem_unique found found'
  refine ⟨ledger.cached,(ledger.live id record found).mpr active,?_⟩
  rw [amount_of_found cachePart found,cachePart,if_pos counts]
  exact enough

theorem adopted_delivered (settled : DiskSettled s.disk) {entry : HandOff}
    {record : ReservationRecord} (open_ : s.shuttingDown = false) (pending : o.signal ≠ .aborted)
    (legal : legalBytes o.bytes = some bytes) (pooled : s.disk.handedOffReservations.get o.sessionKey = some entry)
    (inTime : s.world.now < entry.expiresAt) (found : s.disk.records[entry.reservation]? = some record)
    (active : record.active = true) (enough : bytes ≤ record.grantedBytes) :
    (Coordinator.step s (.reserve o)).disk = answer (unpooled s.disk o.sessionKey) (.adopted entry.reservation) ∧
      delivered (Coordinator.step s (.reserve o)).disk s.disk.nextRequest = some entry.reservation := by
  have adopted : (Coordinator.step s (.reserve o)).disk =
      answer (unpooled s.disk o.sessionKey) (.adopted entry.reservation) := by
    have late : ¬ entry.expiresAt ≤ s.ctx.world.now := Nat.not_le.mpr inTime
    simp [Coordinator.step,Coordinator.onDisk,reserve,open_,legal,pending,reserveAdmitted,takeHandedOffReservation,pooled,
      late,isActive,grantedBytes,found,active,enough,unpooled]
  refine ⟨adopted,?_⟩
  rw [adopted]
  exact delivered_to rfl (unsettled_next settled) (by simp [DiskEvent.settles,unpooled])

theorem reserve_formal (settled : DiskSettled s.disk)
    (counting : o.countsTowardCache = true) (legal : legalBytes o.bytes = some bytes)
    (counted : ¬ AdoptsUncounted s o) :
    Meets (Formal bytes) (Coordinator.step s (.reserve o)).disk s.disk.nextRequest := by
  refine reserve_meets s.ctx s.shuttingDown settled o ?_ ?_
  · intro n here
    obtain rfl : bytes = n := Option.mem_unique legal here
    exact ⟨counting,le_refl bytes⟩
  · intro n entry record open_ pending here pooled inTime found active enough
    obtain rfl : bytes = n := Option.mem_unique legal here
    refine ⟨?_,enough⟩
    by_contra uncounted
    exact counted ⟨open_,pending,bytes,entry,record,legal,pooled,inTime,found,active,enough,by simpa using uncounted⟩

theorem reserve_contributes_iff {config : Config} {world : World} {evictionHook : Bool}
    (reach : Reachable Coordinator.step Any (Coordinator.fresh config world evictionHook) s)
    (counting : o.countsTowardCache = true) (legal : legalBytes o.bytes = some bytes) :
    (∀ s', Reachable Coordinator.step Any (Coordinator.step s (.reserve o)) s' →
      ∀ id, delivered s'.disk s.disk.nextRequest = some id → isActive s'.disk id = true → Contributes s'.disk id bytes) ↔
    ¬ AdoptsUncounted s o := by
  obtain ⟨unsettled,settled⟩ := reachable_disk (diskSettled_fresh evictionHook) move_diskSettled reach
  constructor
  · rintro contributes ⟨open_,pending,n,entry,record,legal',pooled,inTime,found,active,enough,uncounted⟩
    obtain ⟨adopted,got⟩ := adopted_delivered settled open_ pending legal' pooled inTime found active enough
    have live : isActive (Coordinator.step s (.reserve o)).disk entry.reservation = true := by
      rw [adopted]
      simp [isActive,answer,emit,unpooled,found,active]
    obtain ⟨_,_,share⟩ := contributes _ .start entry.reservation got live
    have positive := legalBytes_positive legal
    rw [adopted,amount_of_found cachePart (show (answer (unpooled s.disk o.sessionKey)
      (.adopted entry.reservation)).records[entry.reservation]? = some record from found),cachePart,uncounted] at share
    simp only [Bool.false_eq_true,↓reduceIte] at share
    omega
  · intro counted s' later id got live
    have meets := reserve_formal settled counting legal counted
    have arrived : s.disk.nextRequest < (Coordinator.step s (.reserve o)).disk.nextRequest := by
      show s.disk.nextRequest < (reserve s.ctx s.shuttingDown s.disk o).nextRequest
      rw [reserve_numbered]
      exact Nat.lt_succ_self _
    have asked := reach.next (.reserve o) trivial
    have quiet := (reachable_disk (diskSettled_fresh evictionHook) move_diskSettled asked).1
    have ledger := (ledger_reachable config world evictionHook s' (reachable_trans asked later)).1
    exact meets_contributes ledger (reachable_meets quiet arrived meets later).2.2 got live

/-! ### The task service as a caller -/

/-- An operation of the coordinator, as opposed to a new reading of clock, volume and cache. -/
def Inside : Op → Prop
  | .observe _ => False
  | _ => True

abbrev Calls : Service → Service → Prop := ReflTransGen (fun r r' => ∃ op, Inside op ∧ r' = Coordinator.step r op)

section
open DownloadTask

theorem coordinate_calls (s : TaskService) (op : Op) (inside : Inside op) :
    Calls s.resources (coordinate s op).resources := .single ⟨op,inside,rfl⟩

theorem revokeTicket_resources (s : TaskService) (task : Nat) : (revokeTicket s task).resources = s.resources := by
  unfold revokeTicket
  split <;> rfl

theorem releaseResources_calls (s : TaskService) (task : Nat) :
    Calls s.resources (releaseResources s task).resources := by
  have aborted : ∀ s, Calls s.resources (abort s task).resources := by
    intro s
    unfold abort
    split
    · exact .refl
    · split
      · exact .refl
      · split
        · exact .refl
        · next call _ => exact coordinate_calls s (.diskAbort call.request) trivial
  have returned : ∀ s, Calls s.resources (returnReservation s task).resources := by
    intro s
    unfold returnReservation
    split
    · exact .refl
    · next reservation _ => exact coordinate_calls s (.release reservation) trivial
  have first := aborted (revokeTicket s task)
  rw [revokeTicket_resources] at first
  exact first.trans (returned _)

theorem evaluate_calls (s : TaskService) (task : Nat) : Calls s.resources (evaluate s task).resources := by
  have ticket : ∀ s, Calls s.resources (evaluateTicket s task).resources := by
    intro s
    unfold evaluateTicket
    split
    · exact .refl
    · split
      · exact releaseResources_calls s task
      · exact .refl
  unfold evaluate
  split
  · exact .refl
  · split
    · exact .refl
    · split
      · exact releaseResources_calls (amend s task (fun r => { r with updatedAt := s.now })) task
      · exact ticket (amend s task (fun r => { r with updatedAt := s.now }))

theorem secure_calls (s : TaskService) (task : Nat) : Calls s.resources (secure s task).resources := by
  unfold secure
  split
  · exact .refl
  next record _ =>
  split
  · have tried : Calls s.resources (tryHoldReservationNow s record).2.resources :=
      .single ⟨.tryReserveNow record.sessionKey (.whole record.expectedSize) record.countsTowardCache,trivial,rfl⟩
    rcases held : tryHoldReservationNow s record with ⟨granted,after⟩
    rw [held] at tried
    cases granted with
    | none => exact tried
    | some id =>
      show Calls s.resources (issueTicket (amend after task _) task).resources
      rw [issueTicket_resources]
      exact tried
  · split
    · unfold acquireReservation
      split
      · exact .refl
      next record _ =>
      split
      · exact .refl
      · split
        · exact .refl
        · exact coordinate_calls s (.reserve record.request) trivial
    · exact .refl

theorem resume_calls (s : TaskService) (task : Nat) : Calls s.resources (resume s task).resources := by
  unfold resume
  split
  · exact .refl
  split
  · exact .refl
  split
  · exact .refl
  split
  · exact .refl
  · next reservation _ =>
    unfold acquired
    split
    · exact coordinate_calls s (.release reservation) trivial
    · show Calls s.resources (issueTicket (amend s task _) task).resources
      rw [issueTicket_resources]
      exact .refl
  · exact .refl

theorem consumeTicket_calls (s : TaskService) (ticket : Nat) (ownerKey fileId : String) :
    Calls s.resources (consumeTicket s ticket ownerKey fileId).2.resources := by
  unfold consumeTicket
  split
  · exact .refl
  split
  · exact .refl
  next record _ =>
  split
  · exact .refl
  split
  · exact .refl
  split
  · exact .refl
  · next reservation _ =>
    split
    · exact .refl
    · exact .single ⟨.handOffToSession record.sessionKey reservation,trivial,rfl⟩

theorem fold_calls {turn : TaskService → Nat → TaskService}
    (calls : ∀ s task, Calls s.resources (turn s task).resources) (tasks : List Nat) (s : TaskService) :
    Calls s.resources (tasks.foldl turn s).resources := by
  induction tasks generalizing s with
  | nil => exact .refl
  | cons task rest ih => exact (calls s task).trans (ih (turn s task))

theorem sweepTurn_calls (retention : Retention) (s : TaskService) (task : Nat) :
    Calls s.resources (sweepTurn retention s task).resources := by
  unfold sweepTurn
  split
  · exact .refl
  next record _ =>
  have released : Calls s.resources (if record.expiresAt < s.now ∧
      (record.reservation.isSome ∨ record.ticket.isSome) then releaseResources s task else s).resources := by
    split
    · exact releaseResources_calls s task
    · exact .refl
  simp only
  split
  · exact released
  · exact released

theorem shutdownTurn_calls (s : TaskService) (task : Nat) : Calls s.resources (shutdownTurn s task).resources := by
  unfold shutdownTurn
  split
  · exact .refl
  · split
    · exact releaseResources_calls (amend s task _) task
    · exact releaseResources_calls s task

theorem step_calls (s : TaskService) (op : TaskOp) (reads : ∀ world, op ≠ .outside (.observe world)) :
    Calls s.resources (step s op).resources := by
  cases op with
  | create input => exact (evaluate_calls (addTask s _) _).trans (secure_calls _ _)
  | refresh task ownerKey =>
    rw [step,refresh]
    split
    · exact .refl
    · exact evaluate_calls s task
  | cancel task ownerKey =>
    rw [step,cancel]
    split
    · exact .refl
    · split
      · exact .refl
      · split
        · exact releaseResources_calls s task
        · exact .refl
  | consumeTicket ticket ownerKey fileId => exact consumeTicket_calls s ticket ownerKey fileId
  | resume task => exact resume_calls s task
  | sweep =>
    rw [step]
    split
    · exact (fold_calls (sweepTurn_calls s.retention) s.tasks s).tail ⟨.purgeExpiredHandOffs,trivial,rfl⟩
    · exact .refl
  | onApplicationShutdown =>
    exact (fold_calls shutdownTurn_calls s.tasks { s with sweepTimer := false }).tail ⟨.purgeExpiredHandOffs,trivial,rfl⟩
  | outside other =>
    refine .single ⟨other,?_,rfl⟩
    cases other with
    | observe world => exact absurd rfl (reads world)
    | _ => trivial
  | publish cached | retain retention => exact .refl

end

def Within (cache : Option CacheCapacity) (d : Disk) : Prop :=
  0 < d.cacheReservedBytes → ∀ c, cache = some c → c.committedBytes + d.cacheReservedBytes ≤ c.maxBytes

theorem within_of_le {cache : Option CacheCapacity} (within : Within cache d)
    (less : d'.cacheReservedBytes ≤ d.cacheReservedBytes) : Within cache d' := by
  intro positive c here
  have before := within (by omega) c here
  omega

theorem within_create (key : String) {counts : Bool}
    (admitted : Admitted ctx d bytes counts) (within : Within ctx.world.cache d) :
    Within ctx.world.cache (createReservation ctx d key bytes counts) := by
  cases counts with
  | false => exact within
  | true =>
    intro _ c here
    have room := ((evaluateGrant_iff _ _ _ _ _).mp admitted.2).2.2.2 rfl c here
    show c.committedBytes + (d.cacheReservedBytes + bytes) ≤ c.maxBytes
    omega

theorem move_within {kind : Kind} (move : Move ctx kind d d') (ledger : Ledger d)
    (within : Within ctx.world.cache d) : Within ctx.world.cache d' := by
  cases move with
  | grant _ key bytes counts positive admitted => exact within_create key admitted within
  | hold _ key bytes counts positive admitted => exact within_create key admitted within
  | serve _ head rest queue admitted => exact within_create head.sessionKey admitted within
  | retire _ id record found active =>
    have bounds := ledger.bounds id record found
    have part := cachePart_le_cached ledger found active
    refine within_of_le within ?_
    simp only [retire,cachePart] at part ⊢
    split
    · next counts =>
      omega
    · exact le_refl _
  | _ => exact within

structure Bounded (r : Service) : Prop where
  unsettled : Unsettled r.disk
  ledger : Ledger r.disk
  within : Within r.world.cache r.disk

theorem path_within {kinds : Kind → Prop} (path : Path ctx kinds d d') (ledger : Ledger d)
    (within : Within ctx.world.cache d) : Ledger d' ∧ Within ctx.world.cache d' := by
  induction path with
  | refl => exact ⟨ledger,within⟩
  | tail _ change ih =>
    obtain ⟨kind,_,move⟩ := change
    exact ⟨move_ledger ctx kind _ _ move ih.1,move_within move ih.1 ih.2⟩

theorem step_world (r : Service) {op : Op} (inside : Inside op) : (Coordinator.step r op).world = r.world := by
  cases op with
  | observe => cases inside
  | handOffToSession key id =>
    rw [Coordinator.step]
    split <;> rfl
  | shutdown =>
    rw [Coordinator.step,Coordinator.shutdown]
    split <;> rfl
  | _ => rfl

theorem step_bounded {r : Service} {op : Op} (inside : Inside op) (bounded : Bounded r) :
    Bounded (Coordinator.step r op) := by
  have path := step_path r op bounded.unsettled
  have world := step_world r inside
  obtain ⟨ledger,within⟩ := path_within path bounded.ledger (by
    show Within (Coordinator.step r op).world.cache r.disk
    rw [world]
    exact bounded.within)
  exact ⟨path_unsettled path bounded.unsettled,ledger,within⟩

theorem calls_bounded {r r' : Service} (calls : Calls r r') (bounded : Bounded r) :
    Bounded r' ∧ r'.world = r.world ∧ ∀ (terms : Bool → Int → Prop) (request : Nat), request < r.disk.nextRequest →
      Meets terms r.disk request → request < r'.disk.nextRequest ∧ Meets terms r'.disk request := by
  induction calls with
  | refl => exact ⟨bounded,rfl,fun _ _ arrived meets => ⟨arrived,meets⟩⟩
  | tail _ change ih =>
    obtain ⟨op,inside,rfl⟩ := change
    obtain ⟨before,world,kept⟩ := ih
    refine ⟨step_bounded inside before,(step_world _ inside).trans world,?_⟩
    intro terms request arrived meets
    obtain ⟨arrived,meets⟩ := kept terms request arrived meets
    exact path_meets (step_path _ op before.unsettled) arrived meets

section
open DownloadTask TaskMoves TaskOwnership

/-- A request that has arrived and was not made by a call of `acquireReservation`. -/
def OfOthers (request : Nat) (s : TaskService) : Prop :=
  request < s.disk.nextRequest ∧ ∀ task : Nat, ∀ record, s.records[task]? = some record →
    record.acquiring.map (·.request) ≠ some request

variable {s s' : TaskService} {request : Nat}

theorem ofOthers_amend {task : Nat} {f : DownloadTaskRecord → DownloadTaskRecord}
    (others : OfOthers request s) (records : s'.records = (amend s task f).records)
    (next : s.disk.nextRequest ≤ s'.disk.nextRequest)
    (keeps : ∀ record, s.records[task]? = some record → (f record).acquiring.map (·.request) = some request →
      record.acquiring.map (·.request) = some request) : OfOthers request s' := by
  refine ⟨Nat.lt_of_lt_of_le others.1 next,?_⟩
  intro t record found
  rw [records] at found
  rcases amend_cases found with ⟨rfl,before,here,rfl⟩ | ⟨_,here⟩
  · exact fun called => others.2 t before here (keeps before here called)
  · exact others.2 t record here

theorem move_ofOthers (move : TaskMove s s') (others : OfOthers request s) :
    OfOthers request s' := by
  cases move with
  | coordinate resources path forward => exact ⟨Nat.lt_of_lt_of_le others.1 (path_onward path).numbered,others.2⟩
  | read | drop => exact others
  | add record idle =>
    refine ⟨others.1,?_⟩
    intro t r found
    rcases List.mem_append.mp (List.mem_of_getElem? found) with old | new
    · obtain ⟨place,here⟩ := List.mem_iff_getElem?.mp old
      exact others.2 place r here
    · rw [List.mem_singleton.mp new,idle.acquiring]
      exact nofun
  | note task f alike status =>
    exact ofOthers_amend others rfl (le_refl _) (fun record found called => by rwa [← (alike record found).acquiring])
  | start task record found idle resources path forward numbered asked =>
    refine ofOthers_amend (s := s) others rfl (path_onward path).numbered ?_
    intro _ _ called
    exact absurd (Option.some.inj called) (Nat.ne_of_gt others.1)
  | hold task record found idle reservation d d' steps out =>
    exact ofOthers_amend (s := s) others rfl (path_onward (steps_move_path steps out)).numbered (fun _ _ called => called)
  | issue task record found present holds unissued =>
    refine ofOthers_amend others (issueTicket_records found) ?_ (fun _ _ called => called)
    exact le_of_eq (congrArg (fun r : Service => r.disk.nextRequest) (issueTicket_resources s task)).symm
  | revoke task => exact ofOthers_amend (s := s) others rfl (le_refl _) (fun _ _ called => called)
  | clear task => exact ofOthers_amend others rfl (le_refl _) (fun _ _ called => called)
  | keep task record found other reservation awaits yielded | finish task record found other awaits settled dead =>
    refine ofOthers_amend others rfl (le_refl _) (fun r _ called => ?_)
    simpa [finishCall] using called
  | handOff task => exact ofOthers_amend (s := s) others rfl (le_refl _) (fun _ _ called => called)

theorem steps_ofOthers (steps : TaskSteps s s') (others : OfOthers request s) :
    OfOthers request s' := by
  induction steps with
  | refl => exact others
  | tail _ move ih => exact move_ofOthers move ih

theorem ofOthers_unpassed (others : OfOthers request s) : passed s request = false := by
  by_contra ended
  obtain ⟨task,record,found,call⟩ := (passed_iff s request).mp (by simpa using ended)
  exact others.2 task record found (by rw [call]; rfl)

theorem ofOthers_next (owned : Owned s) (records : s'.records = s.records)
    (next : s.disk.nextRequest < s'.disk.nextRequest) : OfOthers s.disk.nextRequest s' := by
  refine ⟨next,?_⟩
  intro task record found called
  rw [records] at found
  have earlier := owned.numbered task s.disk.nextRequest (by rw [callOf,found]; exact called)
  exact Nat.lt_irrefl _ earlier

end

/-! ### Builds -/

section
open DownloadTask TaskMoves TaskOwnership

/-- The service together with the builds and warm-ups of the cache: the request that
    each made for its reservation and the size of its file. -/
structure CacheSystem where
  service : TaskService
  builds : List (Nat × Int)

def asks (s : TaskService) : TaskOp → Option (Nat × Int)
  | .outside (.reserve o) =>
    if o.countsTowardCache then (legalBytes o.bytes).map (fun bytes => (s.disk.nextRequest,bytes)) else none
  | _ => none

/-- What is published according to `getTotalCacheSizeSync`. -/
def recommitted (world : World) (f : Int → Int) : World :=
  { world with cache := world.cache.map (fun c => { c with committedBytes := f c.committedBytes }) }

inductive CacheOp
  | serve (op : TaskOp)
  /-- The build that made a request publishes: `registerCache`, then its reservation goes back. -/
  | publish (request : Nat) (gained : Int)
  | evict (committed : Int)

def cacheStep (s : CacheSystem) : CacheOp → CacheSystem
  | .serve op => ⟨step s.service op,s.builds ++ (asks s.service op).toList⟩
  | .publish request gained =>
    match delivered s.service.disk request with
    | none => s
    | some id =>
      let registered := step s.service (.outside (.observe (recommitted s.service.resources.world (· + gained))))
      { s with service := step registered (.outside (.release id)) }
  | .evict committed =>
    { s with service := step s.service (.outside (.observe (recommitted s.service.resources.world (fun _ => committed)))) }

def running (d : Disk) (build : Nat × Int) : Bool := (delivered d build.1).any (isActive d)

def runningBytes (s : CacheSystem) : Int := ((s.builds.filter (running s.service.disk)).map (·.2)).sum

/-- What is published grows by the files of running builds only, and the limit stays. -/
def CacheAllowed (s : CacheSystem) : CacheOp → Prop
  | .serve op => Allowed s.service op ∧
      ∀ world, op = .outside (.observe world) → world.cache = s.service.resources.world.cache
  | .publish request gained => ∃ bytes, (request,bytes) ∈ s.builds ∧ gained ≤ bytes ∧
      running s.service.disk (request,bytes) = true
  | .evict committed => ∀ c, s.service.resources.world.cache = some c → committed ≤ c.committedBytes

/-- No build adopts a reservation that does not count toward the cache. -/
def CountedAdoption (s : CacheSystem) : CacheOp → Prop
  | .serve (.outside (.reserve o)) => o.countsTowardCache = true → ¬ AdoptsUncounted s.service.resources o
  | _ => True

structure Building (s : TaskService) (build : Nat × Int) : Prop where
  positive : 0 < build.2
  others : OfOthers build.1 s
  terms : Meets (Formal build.2) s.disk build.1

structure Sound (s : CacheSystem) : Prop where
  tickets : Tickets s.service
  owned : Owned s.service
  bounded : Bounded s.service.resources
  builds : ∀ build ∈ s.builds, Building s.service build
  distinct : (s.builds.map (·.1)).Nodup

theorem sound_fresh (config : Config) (world : World) (evictionHook : Bool) (cached : String → Bool)
    (retention : Retention) : Sound ⟨fresh config world evictionHook cached retention,[]⟩ where
  tickets := tickets_fresh config world evictionHook cached retention
  owned := owned_fresh config world evictionHook cached retention
  bounded := ⟨(owned_fresh config world evictionHook cached retention).unsettled,ledger_fresh evictionHook,
    fun positive => absurd positive (show ¬ (0 : Int) < 0 from lt_irrefl 0)⟩
  builds := nofun
  distinct := List.nodup_nil

variable {s : CacheSystem} {build : Nat × Int}

theorem building_calls {s s' : TaskService} (steps : TaskSteps s s') (calls : Calls s.resources s'.resources)
    (bounded : Bounded s.resources) (building : Building s build) : Building s' build := by
  obtain ⟨_,_,kept⟩ := calls_bounded calls bounded
  exact ⟨building.positive,steps_ofOthers steps building.others,(kept _ build.1 building.others.1 building.terms).2⟩

theorem building_observe {s : TaskService} {world : World} (building : Building s build) :
    Building (step s (.outside (.observe world))) build := { building with }

theorem building_asked {s : TaskService} (owned : Owned s) {o : ReserveOptions} {bytes : Int}
    (counting : o.countsTowardCache = true) (legal : legalBytes o.bytes = some bytes)
    (counted : ¬ AdoptsUncounted s.resources o) :
    Building (step s (.outside (.reserve o))) (s.disk.nextRequest,bytes) := by
  refine ⟨legalBytes_positive legal,ofOthers_next owned rfl ?_,reserve_formal owned.settled counting legal counted⟩
  show s.disk.nextRequest < (reserve s.resources.ctx s.resources.shuttingDown s.disk o).nextRequest
  rw [reserve_numbered]
  exact Nat.lt_succ_self _

theorem asks_some {s : TaskService} {op : TaskOp} (new : asks s op = some build) :
    ∃ o bytes, op = .outside (.reserve o) ∧ o.countsTowardCache = true ∧ legalBytes o.bytes = some bytes ∧
      build = (s.disk.nextRequest,bytes) := by
  unfold asks at new
  split at new
  · next o =>
    split at new
    · next counting =>
      obtain ⟨bytes,legal,rfl⟩ := Option.map_eq_some_iff.mp new
      exact ⟨o,bytes,rfl,counting,legal,rfl⟩
    · cases new
  · cases new

theorem sound_serve {op : TaskOp} (sound : Sound s) (allowed : CacheAllowed s (.serve op))
    (counted : CountedAdoption s (.serve op)) : Sound (cacheStep s (.serve op)) := by
  have steps := allowed_steps allowed.1 sound.tickets sound.owned
  obtain ⟨tickets,owned⟩ := steps_owned steps sound.tickets sound.owned
  have kept : Bounded (step s.service op).resources ∧ ∀ build ∈ s.builds, Building (step s.service op) build := by
    by_cases reads : ∃ world, op = .outside (.observe world)
    · obtain ⟨world,rfl⟩ := reads
      refine ⟨⟨sound.bounded.unsettled,sound.bounded.ledger,?_⟩,fun build member => building_observe (sound.builds build member)⟩
      show Within world.cache s.service.disk
      rw [allowed.2 world rfl]
      exact sound.bounded.within
    · have calls := step_calls s.service op (fun world same => reads ⟨world,same⟩)
      exact ⟨(calls_bounded calls sound.bounded).1,
        fun build member => building_calls steps calls sound.bounded (sound.builds build member)⟩
  cases new : asks s.service op with
  | none =>
    refine ⟨tickets,owned,kept.1,?_,?_⟩
    · simpa [cacheStep,new] using kept.2
    · simpa [cacheStep,new] using sound.distinct
  | some build =>
    obtain ⟨o,bytes,rfl,counting,legal,rfl⟩ := asks_some new
    have asked := building_asked sound.owned counting legal (counted counting)
    refine ⟨tickets,owned,kept.1,?_,?_⟩
    · intro other member
      simp only [cacheStep,new,Option.toList_some,List.mem_append,List.mem_singleton] at member
      rcases member with old | rfl
      · exact kept.2 other old
      · exact asked
    · simp only [cacheStep,new,List.map_append]
      refine sound.distinct.append (List.nodup_singleton _) ?_
      intro request old new
      obtain ⟨other,member,rfl⟩ := List.mem_map.mp old
      have earlier := (sound.builds other member).others.1
      rw [List.mem_singleton.mp new] at earlier
      exact Nat.lt_irrefl _ earlier

theorem recommitted_forward (s : TaskService) (f : Int → Int) :
    Allowed s (.outside (.observe (recommitted s.resources.world f))) := ⟨le_refl s.now,trivial⟩

theorem sound_observe (sound : Sound s) {f : Int → Int}
    (within : Within (recommitted s.service.resources.world f).cache s.service.disk) :
    Sound { s with service := step s.service (.outside (.observe (recommitted s.service.resources.world f))) } := by
  have steps := allowed_steps (recommitted_forward s.service f) sound.tickets sound.owned
  obtain ⟨tickets,owned⟩ := steps_owned steps sound.tickets sound.owned
  exact ⟨tickets,owned,⟨sound.bounded.unsettled,sound.bounded.ledger,within⟩,
    fun build member => building_observe (sound.builds build member),sound.distinct⟩

theorem sound_evict {committed : Int} (sound : Sound s) (allowed : CacheAllowed s (.evict committed)) :
    Sound (cacheStep s (.evict committed)) := by
  refine sound_observe sound ?_
  intro positive c here
  obtain ⟨before,cache,rfl⟩ := Option.map_eq_some_iff.mp here
  have less := allowed before cache
  have within : before.committedBytes + s.service.disk.cacheReservedBytes ≤ before.maxBytes :=
    sound.bounded.within positive before cache
  show committed + s.service.disk.cacheReservedBytes ≤ before.maxBytes
  omega

theorem sound_publish {request : Nat} {gained : Int} (sound : Sound s)
    (allowed : CacheAllowed s (.publish request gained)) : Sound (cacheStep s (.publish request gained)) := by
  obtain ⟨bytes,member,most,runs⟩ := allowed
  obtain ⟨id,got,live⟩ := (Option.any_eq_true _ _).mp runs
  have building := sound.builds _ member
  obtain ⟨record,found,counts,enough⟩ := building.terms.got id got
  obtain ⟨same,found',active⟩ := isActive_known live
  obtain rfl : record = same := Option.mem_unique found found'
  let registered := step s.service (.outside (.observe (recommitted s.service.resources.world (· + gained))))
  let after := step registered (.outside (.release id))
  have steps : TaskSteps s.service registered := allowed_steps (recommitted_forward s.service _) sound.tickets sound.owned
  obtain ⟨tickets,owned⟩ := steps_owned steps sound.tickets sound.owned
  have released : TaskSteps registered after := allowed_steps ⟨trivial,trivial⟩ tickets owned
  obtain ⟨tickets',owned'⟩ := steps_owned released tickets owned
  have shape : cacheStep s (.publish request gained) = { s with service := after } := by
    simp only [cacheStep,got]
    rfl
  -- The record leaves the ledger before the pump looks at what is published.
  have retired : Within registered.resources.world.cache (retire s.service.disk id record) := by
    intro _ c here
    obtain ⟨before,cache,rfl⟩ := Option.map_eq_some_iff.mp here
    have ledger : Ledger s.service.disk := sound.bounded.ledger
    have part := cachePart_le_cached ledger found active
    rw [cachePart,if_pos counts] at part
    have size := building.positive
    have within : before.committedBytes + s.service.disk.cacheReservedBytes ≤ before.maxBytes :=
      sound.bounded.within (show 0 < s.service.disk.cacheReservedBytes by omega) before cache
    simp only [retire,counts,↓reduceIte]
    omega
  have disk : after.disk = pumpDisk registered.resources.ctx (retire s.service.disk id record) := by
    show releaseReservation registered.resources.ctx s.service.disk id = _
    simp [releaseReservation,found,active]
  have path : Path registered.resources.ctx (fun _ => True) (retire s.service.disk id record) after.disk := by
    rw [disk]
    exact chain_of_kind trivial (pumpDisk_steps _ _)
  have moved : Path registered.resources.ctx (fun _ => True) s.service.disk after.disk :=
    path.head ⟨.inner,trivial,.retire _ id record found active⟩
  obtain ⟨ledger,within⟩ := path_within path (ledger_retire sound.bounded.ledger found active) retired
  rw [shape]
  refine ⟨tickets',owned',⟨owned'.unsettled,ledger,within⟩,?_,sound.distinct⟩
  intro build inside
  have before := sound.builds build inside
  exact ⟨before.positive,steps_ofOthers released (steps_ofOthers steps before.others),
    (path_meets moved before.others.1 before.terms).2⟩

theorem sound_step (s : CacheSystem) (op : CacheOp) (sound : Sound s) (allowed : CacheAllowed s op ∧ CountedAdoption s op) :
    Sound (cacheStep s op) := by
  cases op with
  | serve op => exact sound_serve sound allowed.1 allowed.2
  | publish request gained => exact sound_publish sound allowed.1
  | evict committed => exact sound_evict sound allowed.1

def reservationOf (d : Disk) (build : Nat × Int) : Nat := (delivered d build.1).getD 0

theorem running_reservation {d : Disk} (runs : running d build = true) :
    delivered d build.1 = some (reservationOf d build) ∧ isActive d (reservationOf d build) = true := by
  obtain ⟨id,got,live⟩ := (Option.any_eq_true _ _).mp runs
  have same : reservationOf d build = id := by rw [reservationOf,got]; rfl
  rw [same]
  exact ⟨got,live⟩

theorem running_apart (sound : Sound s) {other : Nat × Int} (inside : build ∈ s.builds)
    (inside' : other ∈ s.builds) (runs : running s.service.disk build = true) (runs' : running s.service.disk other = true)
    (same : reservationOf s.service.disk build = reservationOf s.service.disk other) : build = other := by
  obtain ⟨got,live⟩ := running_reservation runs
  obtain ⟨got',_⟩ := running_reservation runs'
  have holds : owns (passed s.service) (held s.service) s.service.disk (.promise build.1) =
      some (reservationOf s.service.disk build) := by
    rw [owns,ofOthers_unpassed (sound.builds build inside).others]
    exact got
  have holds' : owns (passed s.service) (held s.service) s.service.disk (.promise other.1) =
      some (reservationOf s.service.disk build) := by
    rw [owns,ofOthers_unpassed (sound.builds other inside').others,same]
    exact got'
  have promise := (sound.owned.kept.sole _ live).unique holds holds'
  exact List.inj_on_of_nodup_map sound.distinct inside inside' (Holder.promise.inj promise)

theorem running_le_reserved (sound : Sound s) :
    runningBytes s ≤ s.service.disk.cacheReservedBytes := by
  let d := s.service.disk
  have ledger : Ledger d := sound.bounded.ledger
  have parts : ∀ build ∈ s.builds.filter (running d), reservationOf d build ∈ d.reservations ∧
      build.2 ≤ amount cachePart d.records (reservationOf d build) := by
    intro build member
    obtain ⟨inside,runs⟩ := List.mem_filter.mp member
    obtain ⟨got,live⟩ := running_reservation runs
    exact (meets_contributes ledger (sound.builds build inside).terms got live).2
  have distinct : ((s.builds.filter (running d)).map (reservationOf d)).Nodup := by
    refine List.Nodup.map_on ?_ (sound.distinct.of_map.filter _)
    intro build member other member' same
    obtain ⟨inside,runs⟩ := List.mem_filter.mp member
    obtain ⟨inside',runs'⟩ := List.mem_filter.mp member'
    exact running_apart sound inside inside' runs runs' same
  have nonneg : ∀ id ∈ d.reservations, 0 ≤ amount cachePart d.records id := by
    intro id member
    obtain ⟨record,found⟩ := ledger_record ledger member
    rw [amount_of_found cachePart found]
    exact cachePart_nonneg ledger found
  calc runningBytes s
      ≤ ((s.builds.filter (running d)).map (fun build => amount cachePart d.records (reservationOf d build))).sum :=
        List.sum_le_sum fun build member => (parts build member).2
    _ = (((s.builds.filter (running d)).map (reservationOf d)).map (amount cachePart d.records)).sum := by
        rw [List.map_map]
        rfl
    _ ≤ total cachePart d.records d.reservations := by
        refine sum_le_total cachePart nonneg distinct ?_
        intro id member
        obtain ⟨build,inside,rfl⟩ := List.mem_map.mp member
        exact (parts build inside).1
    _ = d.cacheReservedBytes := ledger.cached.symm

/-- A request for the cache contributes exactly when it adopts nothing that does not count; without such
an adoption what is published and built stays within the limit. -/
theorem cache_capacity_survives_hand_off (config : Config) (world : World) (evictionHook : Bool) :
    (∀ s, Reachable Coordinator.step Any (Coordinator.fresh config world evictionHook) s →
      ∀ o bytes, o.countsTowardCache = true → legalBytes o.bytes = some bytes →
        ((∀ s', Reachable Coordinator.step Any (Coordinator.step s (.reserve o)) s' →
          ∀ id, delivered s'.disk s.disk.nextRequest = some id → isActive s'.disk id = true →
            Contributes s'.disk id bytes) ↔ ¬ AdoptsUncounted s o)) ∧
    ∀ cached retention s, Reachable cacheStep (fun s op => CacheAllowed s op ∧ CountedAdoption s op)
        ⟨fresh config world evictionHook cached retention,[]⟩ s →
      ∀ build ∈ s.builds, running s.service.disk build = true →
        ∀ cache, s.service.resources.world.cache = some cache → cache.committedBytes + runningBytes s ≤ cache.maxBytes := by
  refine ⟨fun s reach o bytes counting legal => reserve_contributes_iff reach counting legal,?_⟩
  intro cached retention s reach build inside runs cache published
  have sound : Sound s := reachable_invariant (sound_fresh config world evictionHook cached retention) sound_step reach
  obtain ⟨got,live⟩ := running_reservation runs
  have ledger : Ledger s.service.disk := sound.bounded.ledger
  obtain ⟨record,found,active⟩ := isActive_known live
  have share := (meets_contributes ledger (sound.builds build inside).terms got live).2.2
  rw [amount_of_found cachePart found] at share
  have part := cachePart_le_cached ledger found active
  have positive := (sound.builds build inside).positive
  have within : cache.committedBytes + s.service.disk.cacheReservedBytes ≤ cache.maxBytes :=
    sound.bounded.within (show 0 < s.service.disk.cacheReservedBytes by omega) cache published
  have sizes := running_le_reserved sound
  omega

def smallCache : World := ⟨0,some ⟨1,1000⟩,some ⟨0,100⟩⟩

def cacheStarted : CacheSystem := ⟨fresh defaultConfig smallCache false (fun _ => false) defaultRetention,[]⟩

def buildOf (fileId : String) : CacheOp := .serve (.outside (.reserve ⟨"file:" ++ fileId,.whole 100,true,.absent⟩))

def prepared (countsTowardCache : Bool) : List CacheOp :=
  [.serve (.create { hundredBytes "user:1" with countsTowardCache := countsTowardCache }),
    .serve (.consumeTicket 0 "user:1" "a"),buildOf "a"]

theorem prepared_within : ∀ build ∈ ((prepared true).foldl cacheStep cacheStarted).builds,
    running ((prepared true).foldl cacheStep cacheStarted).service.disk build = true →
    ∀ cache, ((prepared true).foldl cacheStep cacheStarted).service.resources.world.cache = some cache →
      cache.committedBytes + runningBytes ((prepared true).foldl cacheStep cacheStarted) ≤ cache.maxBytes := by
  refine (cache_capacity_survives_hand_off defaultConfig smallCache false).2 (fun _ => false) defaultRetention _
    (reachable_run .start (prepared true) ⟨⟨⟨trivial,?_⟩,trivial⟩,⟨⟨trivial,?_⟩,trivial⟩,⟨⟨⟨trivial,trivial⟩,?_⟩,?_⟩,trivial⟩)
  · intro world reads
    cases reads
  · intro world reads
    cases reads
  · intro world reads
    cases reads
  · rintro _ ⟨_,_,bytes,entry,record,_,_,_,found,_,_,uncounted⟩
    have all : (((prepared true).take 2).foldl cacheStep cacheStarted).service.disk.records.all (·.countsTowardCache) =
        true := by decide +kernel
    have counts := List.all_eq_true.mp all record (List.mem_of_getElem? found)
    rw [uncounted] at counts
    cases counts

/-- A task outside the cache prepares the file, the build adopts what does not count, and a second one
fits. -/
theorem uncounted_adoption_exceeds :
    (delivered (Coordinator.after defaultConfig 1000 [.tryReserveNow "file:a" (.whole 100) false,
        .handOffToSession "file:a" 0,.reserve ⟨"file:a",.whole 100,true,.absent⟩]).disk 0 = some 0 ∧
      isActive (Coordinator.after defaultConfig 1000 [.tryReserveNow "file:a" (.whole 100) false,
        .handOffToSession "file:a" 0,.reserve ⟨"file:a",.whole 100,true,.absent⟩]).disk 0 = true ∧
      ¬ Contributes (Coordinator.after defaultConfig 1000 [.tryReserveNow "file:a" (.whole 100) false,
        .handOffToSession "file:a" 0,.reserve ⟨"file:a",.whole 100,true,.absent⟩]).disk 0 100) ∧
    Legal cacheStep CacheAllowed cacheStarted (prepared false ++ [buildOf "b"]) ∧
    ((prepared false ++ [buildOf "b"]).foldl cacheStep cacheStarted).service.resources.world.cache = some ⟨0,100⟩ ∧
    runningBytes ((prepared false ++ [buildOf "b"]).foldl cacheStep cacheStarted) = 200 := by
  refine ⟨⟨by decide +kernel,by decide +kernel,?_⟩,?_,by decide +kernel,by decide +kernel⟩
  · rintro ⟨_,_,share⟩
    exact absurd share (by decide +kernel)
  · refine ⟨⟨trivial,?_⟩,⟨trivial,?_⟩,⟨⟨trivial,trivial⟩,?_⟩,⟨⟨trivial,trivial⟩,?_⟩,trivial⟩ <;>
      (intro world reads; cases reads)

end

end Tgtc.HandOffCapacity
