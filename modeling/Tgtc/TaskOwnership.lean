import Tgtc.TaskMoves

/-!
Linear ownership of reservations: a task, a suspended call, the pool or a request for the body has each of them, and
never two of them.
-/
namespace Tgtc.TaskOwnership
open Resources Maps Runs Custody DiskMoves Settlement Deliveries TaskMoves
open Coordinator (Service Op onDisk)
open DiskQueue (Disk isActive settlement releaseReservation)
open DownloadTask
open Relation (ReflTransGen)

def held (s : TaskService) (task : Nat) : Option Nat := (s.records[task]?).bind (·.reservation)

/-- The call of `acquireReservation` that made a request is over. -/
def passed (s : TaskService) (request : Nat) : Bool := s.records.any (fun r => r.acquiring = some ⟨request,true⟩)

/-- The request that the call of `acquireReservation` for a task made. -/
def callOf (s : TaskService) (task : Nat) : Option Nat :=
  (s.records[task]?).bind (fun r => r.acquiring.map (·.request))

structure Owned (s : TaskService) : Prop where
  unsettled : Unsettled s.disk
  settled : DiskSettled s.disk
  kept : Kept (passed s) (held s) s.disk
  numbered : ∀ task request, callOf s task = some request → request < s.disk.nextRequest
  callers : ∀ task other request, callOf s task = some request → callOf s other = some request → task = other

/-! ### Calls and holdings under an amendment -/

theorem passed_iff (s : TaskService) (request : Nat) :
    passed s request = true ↔ ∃ (task : Nat) (record : DownloadTaskRecord),
      s.records[task]? = some record ∧ record.acquiring = some ⟨request,true⟩ := by
  simp only [passed,List.any_eq_true,decide_eq_true_eq,List.mem_iff_getElem?]
  constructor
  · rintro ⟨record,⟨task,found⟩,call⟩
    exact ⟨task,record,found,call⟩
  · rintro ⟨task,record,found,call⟩
    exact ⟨record,⟨task,found⟩,call⟩

variable {s : TaskService} {task : Nat} {s' : TaskService} {op : TaskOp} {ticket : Nat}

theorem held_amend {record : DownloadTaskRecord} (found : s.records[task]? = some record)
    (f : DownloadTaskRecord → DownloadTaskRecord) : held (amend s task f) task = (f record).reservation := by
  simp only [held,records_amend found,Option.bind_some]

theorem held_amend_other (s : TaskService) {other : Nat} (different : other ≠ task)
    (f : DownloadTaskRecord → DownloadTaskRecord) : held (amend s task f) other = held s other := by
  simp only [held,records_amend_other s different]

theorem held_amend_same (s : TaskService) (task : Nat) (f : DownloadTaskRecord → DownloadTaskRecord)
    (same : ∀ record, s.records[task]? = some record → (f record).reservation = record.reservation) :
    held (amend s task f) = held s := by
  funext t
  by_cases here : t = task
  · subst here
    cases found : s.records[t]? with
    | none => simp [held,amend,found]
    | some record =>
      rw [held_amend found,same record found]
      simp [held,found]
  · exact held_amend_other s here f

theorem callOf_amend_same (s : TaskService) (task : Nat) (f : DownloadTaskRecord → DownloadTaskRecord)
    (same : ∀ record, s.records[task]? = some record →
      (f record).acquiring.map (·.request) = record.acquiring.map (·.request)) :
    callOf (amend s task f) = callOf s := by
  funext t
  by_cases here : t = task
  · subst here
    cases found : s.records[t]? with
    | none => simp [callOf,amend,found]
    | some record => simp only [callOf,records_amend found,found,Option.bind_some,same record found]
  · simp only [callOf,records_amend_other s here]

theorem passed_amend_same (s : TaskService) (task : Nat) (f : DownloadTaskRecord → DownloadTaskRecord)
    (same : ∀ record request, s.records[task]? = some record →
      ((f record).acquiring = some ⟨request,true⟩ ↔ record.acquiring = some ⟨request,true⟩)) :
    passed (amend s task f) = passed s := by
  funext request
  rw [Bool.eq_iff_iff,passed_iff,passed_iff]
  constructor
  · rintro ⟨t,record,found,call⟩
    rcases amend_cases found with ⟨rfl,before,here,rfl⟩ | ⟨_,old⟩
    · exact ⟨t,before,here,(same before request here).mp call⟩
    · exact ⟨t,record,old,call⟩
  · rintro ⟨t,record,found,call⟩
    by_cases here : t = task
    · subst here
      exact ⟨t,f record,records_amend found f,(same record request found).mpr call⟩
    · exact ⟨t,record,(records_amend_other s here f).trans found,call⟩

theorem owned_calls (owned : Owned s) (unsettled : Unsettled s'.disk) (settled : DiskSettled s'.disk)
    (later : s.disk.nextRequest ≤ s'.disk.nextRequest) (calls : callOf s' = callOf s)
    (kept : Kept (passed s') (held s') s'.disk) : Owned s' := by
  refine ⟨unsettled,settled,kept,?_,?_⟩
  · rw [calls]
    exact fun t request call => Nat.lt_of_lt_of_le (owned.numbered t request call) later
  · rw [calls]
    exact owned.callers

theorem owned_note (owned : Owned s) {f : DownloadTaskRecord → DownloadTaskRecord}
    (records : s'.records = (amend s task f).records) (disk : s'.disk = s.disk)
    (reservation : ∀ record, s.records[task]? = some record → (f record).reservation = record.reservation)
    (acquiring : ∀ record, s.records[task]? = some record → (f record).acquiring = record.acquiring) : Owned s' := by
  have holdings : held s' = held s := by
    rw [← held_amend_same s task f reservation]
    funext t
    simp only [held,records]
  have calls : callOf s' = callOf s := by
    rw [← callOf_amend_same s task f fun record found => by rw [acquiring record found]]
    funext t
    simp only [callOf,records]
  have ended : passed s' = passed s := by
    rw [← passed_amend_same s task f fun record request found => by rw [acquiring record found]]
    funext request
    simp only [passed,records]
  refine owned_calls owned (disk ▸ owned.unsettled) (disk ▸ owned.settled) (le_of_eq (by rw [disk])) calls ?_
  rw [ended,holdings,disk]
  exact owned.kept

section
variable {s : TaskService} {task request : Nat} {record : DownloadTaskRecord} {f : DownloadTaskRecord → DownloadTaskRecord}

theorem unpassed_of_awaiting (owned : Owned s) (found : s.records[task]? = some record)
    (awaits : record.acquiring = some ⟨request,false⟩) : passed s request = false := by
  by_contra ended
  obtain ⟨other,r,here,call⟩ := (passed_iff s request).mp (by simpa using ended)
  have same : other = task := owned.callers other task request (by simp [callOf,here,call]) (by simp [callOf,found,awaits])
  subst same
  rw [found] at here
  cases here
  rw [awaits] at call
  cases call

theorem passed_finish (found : s.records[task]? = some record) (awaits : record.acquiring = some ⟨request,false⟩)
    (finishes : (f record).acquiring = some ⟨request,true⟩) :
    passed (amend s task f) request = true ∧ ∀ r, r ≠ request → passed (amend s task f) r = passed s r := by
  refine ⟨(passed_iff _ _).mpr ⟨task,f record,records_amend found f,finishes⟩,?_⟩
  intro r other
  rw [Bool.eq_iff_iff,passed_iff,passed_iff]
  constructor
  · rintro ⟨t,r',here,call⟩
    rcases amend_cases here with ⟨rfl,before,old,rfl⟩ | ⟨_,old⟩
    · obtain rfl : record = before := Option.mem_unique found old
      rw [finishes] at call
      cases call
      exact absurd rfl other
    · exact ⟨t,r',old,call⟩
  · rintro ⟨t,r',here,call⟩
    by_cases same : t = task
    · subst same
      rw [found] at here
      cases here
      rw [awaits] at call
      cases call
    · exact ⟨t,r',(records_amend_other s same f).trans here,call⟩

end

theorem owned_fresh (config : Config) (world : World) (evictionHook : Bool) (cached : String → Bool)
    (retention : Retention) : Owned (fresh config world evictionHook cached retention) where
  unsettled := by simp [Unsettled,DownloadTask.fresh,Coordinator.fresh,DiskQueue.fresh]
  settled := diskSettled_fresh evictionHook
  kept := ⟨fun id live => (by simp [isActive,DownloadTask.fresh,Coordinator.fresh,DiskQueue.fresh] at live),
    fun holder id has => (by
      cases holder with
      | record t => simp [owns,held,DownloadTask.fresh] at has
      | pool key => cases has
      | promise r =>
        simp [owns,passed,delivered,settlement,DownloadTask.fresh,Coordinator.fresh,DiskQueue.fresh] at has),
    fun request ended => (by simp [passed,DownloadTask.fresh] at ended)⟩
  numbered := fun _ _ call => by simp [callOf,DownloadTask.fresh] at call
  callers := fun _ _ _ call => by simp [callOf,DownloadTask.fresh] at call

/-! ### One change -/

section
variable {s : TaskService} {task : Nat} {record : DownloadTaskRecord}

theorem owned_coordinate (owned : Owned s) {resources : Service} (path : Path resources.ctx Quiet s.disk resources.disk) :
    Owned { s with resources := resources } := by
  obtain ⟨settled,kept⟩ := path_kept path owned.settled owned.kept
  exact owned_calls owned (path_unsettled path owned.unsettled) settled (path_onward path).numbered rfl kept

theorem owned_add (owned : Owned s) (idle : Idle record) : Owned (addTask s record) := by
  have lookup : ∀ (β : Type) (g : DownloadTaskRecord → Option β), g record = none → ∀ t : Nat,
      ((addTask s record).records[t]?).bind g = (s.records[t]?).bind g := by
    intro β g nothing t
    rcases Nat.lt_trichotomy t s.records.length with old | rfl | beyond
    · simp [addTask,List.getElem?_append_left old]
    · simp [addTask,nothing]
    · rw [List.getElem?_eq_none (by simp [addTask]; omega),List.getElem?_eq_none (Nat.le_of_lt beyond)]
  have holdings : held (addTask s record) = held s := funext (lookup _ _ idle.reservation)
  have calls : callOf (addTask s record) = callOf s := funext (lookup _ _ (by simp [idle.acquiring]))
  have ended : passed (addTask s record) = passed s := by
    funext request
    simp [passed,addTask,idle.acquiring]
  refine owned_calls owned owned.unsettled owned.settled (le_refl _) calls ?_
  rw [ended,holdings]
  exact owned.kept

theorem owned_call (owned : Owned s) (found : s.records[task]? = some record) (idle : Idle record) {request : Nat}
    (numbered : request < s.disk.nextRequest) (new : ∀ t, callOf s t ≠ some request) :
    Owned (amend s task (fun r => { r with acquiring := some ⟨request,false⟩ })) := by
  have holdings := held_amend_same s task (fun r => { r with acquiring := some ⟨request,false⟩ }) (fun _ _ => rfl)
  have ended := passed_amend_same s task (fun r => { r with acquiring := some ⟨request,false⟩ }) (by
    intro r other here
    obtain rfl : record = r := Option.mem_unique found here
    simp [idle.acquiring])
  have calls : ∀ t other, callOf (amend s task (fun r => { r with acquiring := some ⟨request,false⟩ })) t = some other →
      (t = task ∧ other = request) ∨ callOf s t = some other := by
    intro t other call
    by_cases here : t = task
    · subst here
      rw [callOf,records_amend found] at call
      exact .inl ⟨rfl,(Option.some.inj call).symm⟩
    · rw [callOf,records_amend_other _ here] at call
      exact .inr call
  refine ⟨owned.unsettled,owned.settled,?_,?_,?_⟩
  · rw [ended,holdings]
    exact owned.kept
  · intro t other call
    rcases calls t other call with ⟨_,rfl⟩ | old
    · exact numbered
    · exact owned.numbered t other old
  · intro t t' other call call'
    rcases calls t other call with ⟨rfl,rfl⟩ | old
    · rcases calls t' _ call' with ⟨rfl,_⟩ | old'
      · rfl
      · exact absurd old' (new t')
    · rcases calls t' other call' with ⟨_,rfl⟩ | old'
      · exact absurd old (new t)
      · exact owned.callers t t' other old old'

theorem callOf_finish (found : s.records[task]? = some record) {request : Nat}
    (awaits : record.acquiring = some ⟨request,false⟩) {f : DownloadTaskRecord → DownloadTaskRecord}
    (finishes : (f record).acquiring = some ⟨request,true⟩) : callOf (amend s task f) = callOf s := by
  refine callOf_amend_same s task f fun r here => ?_
  obtain rfl : record = r := Option.mem_unique found here
  simp [finishes,awaits]

theorem owned_handOff (owned : Owned s) (found : s.records[task]? = some record) {reservation : Nat}
    (holds : record.reservation = some reservation)
    (dead : ∀ entry, s.disk.handedOffReservations.get record.sessionKey = some entry →
      entry.reservation = reservation ∨ isActive s.disk entry.reservation = false)
    {f : DownloadTaskRecord → DownloadTaskRecord} (gone : (f record).reservation = none)
    (calling : ∀ r, (f r).acquiring = r.acquiring) {d : Disk}
    (pooled : d = { s.disk with handedOffReservations :=
      s.disk.handedOffReservations.set record.sessionKey ⟨reservation,s.now + handoffTtlMs⟩ }) :
    Owned (amend { s with resources := onDisk s.resources d } task f) := by
  have mine : held s task = some reservation := by simp [held,found,holds]
  -- The pool cannot hold what the record holds.
  have free : ∀ entry, s.disk.handedOffReservations.get record.sessionKey = some entry →
      isActive s.disk entry.reservation = false := by
    intro entry there
    rcases dead entry there with rfl | off
    · by_contra live
      have inPool : owns (passed s) (held s) s.disk (.pool record.sessionKey) = some entry.reservation := by
        simp [owns,there]
      have inRecord : owns (passed s) (held s) s.disk (.record task) = some entry.reservation := mine
      cases (owned.kept.sole entry.reservation (by simpa using live)).unique inPool inRecord
    · exact off
  have ended := passed_amend_same { s with resources := onDisk s.resources d } task f
    (fun r request _ => by rw [calling r])
  have calls := callOf_amend_same { s with resources := onDisk s.resources d } task f (fun r _ => by rw [calling r])
  have emptied := (held_amend (s := { s with resources := onDisk s.resources d }) found f).trans gone
  subst pooled
  refine owned_calls owned owned.unsettled ?_ (le_refl _) calls ?_
  · exact move_diskSettled _ _ _ _ (@Move.put s.resources.ctx s.disk record.sessionKey reservation) owned.settled
  · rw [ended]
    exact kept_back owned.kept free mine emptied (fun other different => held_amend_other _ different _)
      (s.now + handoffTtlMs)

end

theorem move_owned (move : TaskMove s s') (tickets : Tickets s) (owned : Owned s) : Owned s' := by
  cases move with
  | coordinate resources path forward => exact owned_coordinate owned path
  | read => exact { owned with }
  | add record idle => exact owned_add owned idle
  | note task f alike status =>
    exact owned_note owned rfl rfl (fun r found => (alike r found).reservation) (fun r found => (alike r found).acquiring)
  | start task record found idle resources path forward numbered =>
    refine owned_call (owned_coordinate owned path) found idle numbered ?_
    exact fun t call => absurd (owned.numbered t _ call) (Nat.lt_irrefl _)
  | hold task record found idle reservation d d' steps out =>
    have inside : Path s.resources.ctx Quiet s.disk d := chain_of_kind (show Quiet .inner from trivial) steps
    obtain ⟨settled,kept⟩ := path_kept inside owned.settled owned.kept
    have whole : Path s.resources.ctx (fun _ => True) s.disk d' := steps_move_path steps out
    have ended := passed_amend_same { s with resources := onDisk s.resources d' } task
      (fun r => { r with reservation := some reservation }) (fun _ _ _ => Iff.rfl)
    have calls := callOf_amend_same { s with resources := onDisk s.resources d' } task
      (fun r => { r with reservation := some reservation }) (fun _ _ => rfl)
    refine owned_calls owned (path_unsettled whole owned.unsettled) (move_diskSettled _ _ _ _ out settled)
      (path_onward whole).numbered calls ?_
    rw [ended]
    exact kept_out kept out (by simp [held,found,idle.reservation])
      (held_amend (s := { s with resources := onDisk s.resources d' }) found _)
      (fun other different => held_amend_other _ different _)
  | issue task record found present holds unissued =>
    have disk : (issueTicket s task).disk = s.disk := congrArg Service.disk (issueTicket_resources s task)
    exact owned_note owned (issueTicket_records found) disk (fun _ _ => rfl) (fun _ _ => rfl)
  | revoke task record found ticket issued => exact owned_note owned rfl rfl (fun _ _ => rfl) (fun _ _ => rfl)
  | clear task record found unissued dead =>
    have ended := passed_amend_same s task (fun r => { r with reservation := none }) (fun _ _ _ => Iff.rfl)
    have calls := callOf_amend_same s task (fun r => { r with reservation := none }) (fun _ _ => rfl)
    refine owned_calls owned owned.unsettled owned.settled (le_refl _) calls ?_
    rw [ended]
    refine kept_clear owned.kept ?_ (held_amend found _) (fun other different => held_amend_other s different _)
    intro id has
    exact dead id (by simpa [held,found] using has)
  | keep task record found request reservation awaits yielded =>
    have empty := ((tickets.coherent task record found).awaiting request awaits).1
    have finishes : ({ finishCall record with reservation := some reservation } : DownloadTaskRecord).acquiring =
      some ⟨request,true⟩ := by simp [finishCall,awaits]
    obtain ⟨resumed,others⟩ := passed_finish (f := fun r => { finishCall r with reservation := some reservation }) found
      awaits finishes
    refine owned_calls owned owned.unsettled owned.settled (le_refl _) (callOf_finish found awaits finishes) ?_
    exact kept_resume owned.kept yielded (unpassed_of_awaiting owned found awaits) resumed others
      (by simp [held,found,empty]) (held_amend found _) (fun other different => held_amend_other s different _)
  | finish task record found request awaits settled dead =>
    have finishes : (finishCall record).acquiring = some ⟨request,true⟩ := by simp [finishCall,awaits]
    obtain ⟨resumed,others⟩ := passed_finish (f := finishCall) found awaits finishes
    refine owned_calls owned owned.unsettled owned.settled (le_refl _) (callOf_finish found awaits finishes) ?_
    rw [held_amend_same s task finishCall (fun _ _ => rfl)]
    exact kept_finish owned.kept settled dead resumed others
  | handOff task record found unissued reservation holds dead message =>
    refine owned_handOff owned found holds dead ?_ ?_ rfl
    · rfl
    · exact fun _ => rfl
  | drop tasks fewer ended => exact { owned with }

theorem steps_keep {inv : TaskService → Prop} (keep : ∀ s s', TaskMove s s' → Tickets s → Owned s → inv s → inv s')
    {s s' : TaskService} (steps : TaskSteps s s') (tickets : Tickets s) (owned : Owned s) (holds : inv s) :
    Tickets s' ∧ Owned s' ∧ inv s' := by
  induction steps with
  | refl => exact ⟨tickets,owned,holds⟩
  | tail _ move ih =>
    obtain ⟨tickets,owned,holds⟩ := ih
    exact ⟨move_tickets move tickets,move_owned move tickets owned,keep _ _ move tickets owned holds⟩

theorem steps_owned (steps : TaskSteps s s') (tickets : Tickets s) (owned : Owned s) :
    Tickets s' ∧ Owned s' := by
  obtain ⟨tickets',owned',_⟩ := @steps_keep (fun _ => True) (fun _ _ _ _ _ _ => trivial) _ _ steps tickets owned trivial
  exact ⟨tickets',owned'⟩

/-! ### Owners -/

/-- The places of a reservation: a call of `acquireReservation`, a task, the pool, somebody else's
request. -/
inductive Owner
  | awaiting (task : Nat)
  | record (task : Nat)
  | pool (sessionKey : String)
  | adopter (request : Nat)

/-- The request was made by `acquireReservation`. -/
def madeByTask (s : TaskService) (request : Nat) : Bool :=
  s.records.any (fun r => r.acquiring.any (fun call => call.request = request))

def ownedBy (s : TaskService) : Owner → Option Nat
  | .awaiting task =>
    match (s.records[task]?).bind (·.acquiring) with
    | some ⟨request,false⟩ => delivered s.disk request
    | _ => none
  | .record task => held s task
  | .pool key => (s.disk.handedOffReservations.get key).map (·.reservation)
  | .adopter request => if madeByTask s request then none else delivered s.disk request

theorem madeByTask_iff (s : TaskService) (request : Nat) :
    madeByTask s request = true ↔ ∃ task, callOf s task = some request := by
  simp only [madeByTask,List.any_eq_true,List.mem_iff_getElem?,Option.any_eq_true,decide_eq_true_eq]
  constructor
  · rintro ⟨record,⟨task,found⟩,call,here,rfl⟩
    exact ⟨task,by simp [callOf,found,here]⟩
  · rintro ⟨task,called⟩
    obtain ⟨record,found,call⟩ := Option.bind_eq_some_iff.mp called
    obtain ⟨call,here,same⟩ := Option.map_eq_some_iff.mp call
    exact ⟨record,⟨task,found⟩,call,here,same⟩

inductive Represents (s : TaskService) : Owner → Holder → Prop
  | awaiting {task request : Nat} (call : callOf s task = some request) :
      Represents s (.awaiting task) (.promise request)
  | record (task : Nat) : Represents s (.record task) (.record task)
  | pool (key : String) : Represents s (.pool key) (.pool key)
  | adopter {request : Nat} (elsewhere : madeByTask s request = false) :
      Represents s (.adopter request) (.promise request)

theorem represents_unique (owned : Owned s) {owner other : Owner} {holder : Holder}
    (first : Represents s owner holder) (second : Represents s other holder) : owner = other := by
  cases first with
  | @awaiting task request call =>
    cases second with
    | @awaiting task' _ call' => rw [owned.callers task task' request call call']
    | adopter elsewhere =>
      rw [(madeByTask_iff s request).mpr ⟨task,call⟩] at elsewhere
      cases elsewhere
  | record task | pool key => cases second; rfl
  | @adopter request elsewhere =>
    cases second with
    | @awaiting task _ call =>
      rw [(madeByTask_iff s request).mpr ⟨task,call⟩] at elsewhere
      cases elsewhere
    | adopter => rfl

theorem holder_of_owner (owned : Owned s) {owner : Owner} {id : Nat} (has : ownedBy s owner = some id) :
    ∃ holder, Represents s owner holder ∧ owns (passed s) (held s) s.disk holder = some id := by
  cases owner with
  | record task => exact ⟨.record task,.record task,has⟩
  | pool key => exact ⟨.pool key,.pool key,has⟩
  | awaiting task =>
    simp only [ownedBy] at has
    cases found : s.records[task]? with
    | none => simp [found] at has
    | some record =>
      cases acquiring : record.acquiring with
      | none => simp [found,acquiring] at has
      | some call =>
        obtain ⟨request,resumed⟩ := call
        cases resumed with
        | true => simp [found,acquiring] at has
        | false =>
          simp only [found,Option.bind_some,acquiring] at has
          have going := unpassed_of_awaiting owned found acquiring
          exact ⟨.promise request,.awaiting (by simp [callOf,found,acquiring]),by simp [owns,going,has]⟩
  | adopter request =>
    simp only [ownedBy] at has
    split at has
    · cases has
    next elsewhere =>
    have going : passed s request = false := by
      by_contra ended
      obtain ⟨task,record,found,call⟩ := (passed_iff s request).mp (by simpa using ended)
      exact elsewhere ((madeByTask_iff s request).mpr ⟨task,by simp [callOf,found,call]⟩)
    exact ⟨.promise request,.adopter (by simpa using elsewhere),by simp [owns,going,has]⟩

theorem owner_of_holder {holder : Holder} {id : Nat}
    (has : owns (passed s) (held s) s.disk holder = some id) : ∃ owner, ownedBy s owner = some id := by
  cases holder with
  | record task => exact ⟨.record task,has⟩
  | pool key => exact ⟨.pool key,has⟩
  | promise request =>
    simp only [owns] at has
    split at has
    · cases has
    next going =>
    cases made : madeByTask s request with
    | false => exact ⟨.adopter request,by simp [ownedBy,made,has]⟩
    | true =>
      obtain ⟨task,call⟩ := (madeByTask_iff s request).mp made
      obtain ⟨record,found,call⟩ := Option.bind_eq_some_iff.mp call
      obtain ⟨⟨_,resumed⟩,acquiring,rfl⟩ := Option.map_eq_some_iff.mp call
      cases resumed with
      | true => exact absurd ((passed_iff s _).mpr ⟨task,record,found,acquiring⟩) going
      | false => exact ⟨.awaiting task,by simp [ownedBy,found,acquiring,has]⟩

theorem one_owner (owned : Owned s) {id : Nat} (live : isActive s.disk id = true) :
    ∃! owner, ownedBy s owner = some id := by
  obtain ⟨holder,holds,only⟩ := owned.kept.sole id live
  obtain ⟨owner,has⟩ := owner_of_holder holds
  refine ⟨owner,has,fun other alsoHas => ?_⟩
  obtain ⟨h,represents,h_holds⟩ := holder_of_owner owned has
  obtain ⟨h',represents',h'_holds⟩ := holder_of_owner owned alsoHas
  have same : h' = h := (only h' h'_holds).trans (only h h_holds).symm
  exact represents_unique owned (same ▸ represents') represents

/-- What others do with the coordinator: only the task service calls
    `tryReserveNow` and `handOffToSession`. -/
def Foreign : Op → Prop
  | .tryReserveNow _ _ _ | .handOffToSession _ _ => False
  | _ => True

/-- The clock runs forward and the others keep to their operations. -/
def Allowed (s : TaskService) : TaskOp → Prop
  | .outside op => Coordinator.Forward s.resources op ∧ Foreign op
  | _ => True

theorem foreign_quiet {op : Op} (foreign : Foreign op) (kind : Kind) (does : Does op kind) : Quiet kind := by
  cases op <;> cases kind <;> trivial

theorem allowed_steps (allowed : Allowed s op) (tickets : Tickets s) (owned : Owned s) :
    TaskSteps s (step s op) := by
  refine step_steps s op tickets owned.unsettled ?_
  rintro other rfl
  exact ⟨allowed.1,foreign_quiet allowed.2⟩

theorem reachable_keep {inv : TaskService → Prop} (keep : ∀ s s', TaskMove s s' → Tickets s → Owned s → inv s → inv s')
    {start s : TaskService} (tickets : Tickets start) (owned : Owned start) (holds : inv start)
    (reach : Reachable step Allowed start s) : Tickets s ∧ Owned s ∧ inv s := by
  induction reach with
  | start => exact ⟨tickets,owned,holds⟩
  | next op _ allowed ih =>
    obtain ⟨tickets,owned,holds⟩ := ih
    exact steps_keep keep (allowed_steps allowed tickets owned) tickets owned holds

theorem reachable_owned {config : Config} {world : World} {evictionHook : Bool} {cached : String → Bool}
    {retention : Retention}
    (reach : Reachable step Allowed (fresh config world evictionHook cached retention) s) : Tickets s ∧ Owned s := by
  obtain ⟨tickets,owned,_⟩ := @reachable_keep (fun _ => True) (fun _ _ _ _ _ _ => trivial) _ _
    (tickets_fresh config world evictionHook cached retention) (owned_fresh config world evictionHook cached retention)
    trivial reach
  exact ⟨tickets,owned⟩

def Spent (ticket : Nat) (s : TaskService) : Prop := ticket < s.nextTicket ∧ s.ticketIndex.get ticket = none

theorem move_spent (move : TaskMove s s') (gone : Spent ticket s) :
    Spent ticket s' := by
  cases move with
  | issue task record found present holds unissued =>
    have shape : (issueTicket s task).ticketIndex = s.ticketIndex.set s.nextTicket task ∧
        (issueTicket s task).nextTicket = s.nextTicket + 1 := by simp [issueTicket,found,unissued]
    refine ⟨?_,?_⟩
    · rw [shape.2]
      exact Nat.lt_succ_of_lt gone.1
    · rw [shape.1,get_set_other _ _ (Nat.ne_of_lt gone.1)]
      exact gone.2
  | revoke task record found other issued =>
    refine ⟨gone.1,?_⟩
    by_cases same : ticket = other
    · rw [same,get_delete_same]
    · rw [get_delete_other _ same]
      exact gone.2
  | _ => exact gone

theorem spent_refused (gone : Spent ticket s) (ownerKey fileId : String) :
    (consumeTicket s ticket ownerKey fileId).1 = false := by
  simp [consumeTicket,gone.2]

theorem consumed_spent (tickets : Tickets s) {ownerKey fileId : String}
    (consumed : (consumeTicket s ticket ownerKey fileId).1 = true) :
    Spent ticket (consumeTicket s ticket ownerKey fileId).2 := by
  rcases consumeTicket_cases s tickets ticket ownerKey fileId with
    ⟨_,refused⟩ | ⟨task,record,_,_,found,issued,refused | ⟨reservation,_,_,_,handed⟩⟩
  · rw [refused] at consumed
    cases consumed
  · rw [refused] at consumed
    cases consumed
  · rw [handed]
    exact ⟨(tickets.current task record ticket found issued).2,get_delete_same s.ticketIndex ticket⟩

def HandedOver (task : Nat) (s : TaskService) : Prop :=
  ∃ record, s.records[task]? = some record ∧ record.handedOff = true

theorem handedOver_amend (changed : Nat) {f : DownloadTaskRecord → DownloadTaskRecord}
    (records : s'.records = (amend s changed f).records)
    (keeps : ∀ record, s.records[changed]? = some record → record.handedOff = true → (f record).handedOff = true)
    (handed : HandedOver task s) : HandedOver task s' := by
  obtain ⟨record,found,ended⟩ := handed
  unfold HandedOver
  rw [records]
  by_cases here : task = changed
  · subst here
    exact ⟨f record,records_amend found f,keeps record found ended⟩
  · exact ⟨record,(records_amend_other s here f).trans found,ended⟩

theorem move_handedOver (move : TaskMove s s') (handed : HandedOver task s) :
    HandedOver task s' := by
  cases move with
  | coordinate | read | drop => exact handed
  | add record idle =>
    obtain ⟨r,found,ended⟩ := handed
    have known := at_lt found
    exact ⟨r,by simpa [addTask,List.getElem?_append_left known] using found,ended⟩
  | note changed f alike status =>
    exact handedOver_amend changed rfl (fun r found ended => ((alike r found).handedOff).trans ended) handed
  | issue changed record found present holds unissued =>
    exact handedOver_amend changed (issueTicket_records found) (fun _ _ ended => ended) handed
  | start changed | hold changed | revoke changed => exact handedOver_amend (s := s) changed rfl (fun _ _ ended => ended) handed
  | clear changed | keep changed | finish changed => exact handedOver_amend (s := s) changed rfl (fun _ _ ended => ended) handed
  | handOff changed => exact handedOver_amend (s := s) changed rfl (fun _ _ _ => rfl) handed

/-! ### What an operation leaves active -/

/-- The reservation is active and with none of some tasks; pool and clock are the given ones. -/
structure Elsewhere (among : Nat → Prop) (id : Nat) (pool : OrderedMap String DiskQueue.HandOff) (now : Nat) (s : TaskService) : Prop where
  live : isActive s.disk id = true
  unheld : ∀ task, among task → held s task ≠ some id
  pool : s.disk.handedOffReservations = pool
  now : s.now = now

section
variable {among : Nat → Prop} {id : Nat} {pool : OrderedMap String DiskQueue.HandOff} {now : Nat} {s : TaskService}

theorem elsewhere_amend (elsewhere : Elsewhere among id pool now s) (task : Nat) (f : DownloadTaskRecord → DownloadTaskRecord)
    (keeps : ∀ r, (f r).reservation = some id → r.reservation = some id) : Elsewhere among id pool now (amend s task f) := by
  refine ⟨elsewhere.live,?_,elsewhere.pool,elsewhere.now⟩
  intro t one has
  by_cases here : t = task
  · subst here
    cases found : s.records[t]? with
    | none => simp [held,amend,found] at has
    | some record =>
      rw [held_amend found] at has
      exact elsewhere.unheld t one (by simp [held,found,keeps record has])
  · rw [held_amend_other s here] at has
    exact elsewhere.unheld t one has

theorem elsewhere_releaseResources (elsewhere : Elsewhere among id pool now s) {task : Nat} (one : among task) :
    Elsewhere among id pool now (releaseResources s task) := by
  have revoked : Elsewhere among id pool now (revokeTicket s task) := by
    unfold revokeTicket
    split
    · exact elsewhere
    · have amended := elsewhere_amend elsewhere task (fun r => { r with ticket := none, ticketExpiresAt := none })
        (fun _ has => has)
      exact { amended with }
  have aborted : Elsewhere among id pool now (abort (revokeTicket s task) task) := by
    unfold abort
    split
    · exact revoked
    split
    · exact revoked
    have amended := elsewhere_amend revoked task (fun r => { r with aborted := true }) (fun _ has => has)
    split
    · exact amended
    · next call _ =>
      exact ⟨fireAbort_active _ call.request amended.live,amended.unheld,
        (fireAbort_pool _ _ call.request).trans amended.pool,amended.now⟩
  unfold releaseResources
  generalize abort (revokeTicket s task) task = s at aborted
  unfold returnReservation
  split
  · exact aborted
  next reservation holds =>
  have other : id ≠ reservation := by
    rintro rfl
    exact aborted.unheld task one holds
  have released : Elsewhere among id pool now (coordinate s (.release reservation)) :=
    ⟨releaseReservation_active _ other aborted.live,aborted.unheld,(releaseReservation_pool _ _ reservation).trans
      aborted.pool,aborted.now⟩
  exact elsewhere_amend released task _ (fun _ has => by cases has)

theorem elsewhere_sweepTurn (retention : Retention) (elsewhere : Elsewhere among id pool now s) {task : Nat}
    (one : among task) :
    Elsewhere among id pool now (sweepTurn retention s task) := by
  unfold sweepTurn
  split
  · exact elsewhere
  next record found =>
  have first : Elsewhere among id pool now (if record.expiresAt < s.now ∧
      (record.reservation.isSome ∨ record.ticket.isSome) then releaseResources s task else s) := by
    split
    · exact elsewhere_releaseResources elsewhere one
    · exact elsewhere
  simp only
  split
  · exact { first with }
  · exact first

theorem elsewhere_shutdownTurn (elsewhere : Elsewhere among id pool now s) {task : Nat} (one : among task) :
    Elsewhere among id pool now (shutdownTurn s task) := by
  unfold shutdownTurn
  split
  · exact elsewhere
  split
  · have told := elsewhere_amend elsewhere task
      (fun r => { r with message := some "服务正在重启，下载任务已取消，请稍后重试" }) (fun _ has => has)
    exact elsewhere_amend (elsewhere_releaseResources told one) task (fun r => { r with status := .cancelled })
      (fun _ has => has)
  · exact elsewhere_releaseResources elsewhere one

theorem elsewhere_fold {turn : TaskService → Nat → TaskService}
    (keeps : ∀ s task, Elsewhere among id pool now s → Elsewhere among id pool now (turn s task)) :
    ∀ (tasks : List Nat) (s : TaskService), Elsewhere among id pool now s →
      Elsewhere among id pool now (tasks.foldl turn s) := by
  intro tasks
  induction tasks with
  | nil => intro s elsewhere; exact elsewhere
  | cons task rest ih => intro s elsewhere; exact ih _ (keeps s task elsewhere)

theorem elsewhere_purge (elsewhere : Elsewhere among id pool now s)
    (inTime : ∀ key entry, pool.get key = some entry → entry.reservation = id → now < entry.expiresAt) :
    isActive (coordinate s .purgeExpiredHandOffs).disk id = true := by
  refine purgeExpiredHandOffs_active s.resources.ctx elsewhere.live fun key entry found same => ?_
  rw [elsewhere.pool] at found
  have timely := inTime key entry found same
  rw [← elsewhere.now] at timely
  exact timely

theorem elsewhere_evaluate (elsewhere : Elsewhere among id pool now s) {task : Nat} (one : among task) :
    Elsewhere among id pool now (evaluate s task) := by
  unfold evaluate
  split
  · exact elsewhere
  split
  · exact elsewhere
  have touched := elsewhere_amend elsewhere task (fun r => { r with updatedAt := s.now }) (fun _ has => has)
  split
  · exact elsewhere_amend (elsewhere_releaseResources touched one) task expire (fun _ has => has)
  have current : Elsewhere among id pool now
      (evaluateTicket (amend s task (fun r => { r with updatedAt := s.now })) task) := by
    unfold evaluateTicket
    split
    · exact touched
    · split
      · exact elsewhere_amend (elsewhere_releaseResources touched one) task
          (fun r => { r with status := .queued, message := some "下载准备已超时，正在重新准备" }) (fun _ has => has)
      · exact touched
  exact elsewhere_amend current task _ (fun r has => (alike_appraise _ r).reservation.symm.trans has)

end

/-! ### A reservation that was handed off -/

def OfTask (task : Nat) : TaskOp → Prop
  | .refresh t _ | .cancel t _ | .resume t => t = task
  | _ => False

theorem handedOver_idle (tickets : Tickets s) (handed : HandedOver task s) :
    held s task = none ∧ ∀ record request, s.records[task]? = some record → record.acquiring ≠ some ⟨request,false⟩ := by
  obtain ⟨record,found,ended⟩ := handed
  have coherent := tickets.coherent task record found
  refine ⟨by simp [held,found,coherent.transferred ended],?_⟩
  intro r request here awaits
  obtain rfl : record = r := Option.mem_unique found here
  rw [(coherent.awaiting request awaits).2] at ended
  cases ended

theorem ofTask_active (tickets : Tickets s) (handed : HandedOver task s)
    (of : OfTask task op) {id : Nat} (live : isActive s.disk id = true) : isActive (step s op).disk id = true := by
  obtain ⟨empty,unawaited⟩ := handedOver_idle tickets handed
  have elsewhere : Elsewhere (· = task) id s.disk.handedOffReservations s.now s := by
    refine ⟨live,?_,rfl,rfl⟩
    rintro t rfl has
    rw [empty] at has
    cases has
  cases op with
  | refresh t ownerKey =>
    obtain rfl : t = task := of
    rw [step,refresh]
    split
    · exact live
    · exact (elsewhere_evaluate elsewhere rfl).live
  | cancel t ownerKey =>
    obtain rfl : t = task := of
    obtain ⟨record,found,ended⟩ := handed
    rw [step,cancel]
    split
    · exact live
    · next r owned =>
      obtain rfl : record = r := Option.some.inj (found.symm.trans (requireOwned_some owned).2.1)
      simp only [ended]
      exact live
  | resume t =>
    obtain rfl : t = task := of
    obtain ⟨record,found,_⟩ := handed
    rw [step,resume]
    simp only [found]
    split
    · exact live
    · next call awaits =>
      obtain ⟨request,resumed⟩ := call
      cases resumed with
      | true => exact live
      | false => exact absurd awaits (unawaited record request found)
  | _ => cases of

theorem sweeping_cases {among : Nat → Prop} {id : Nat} {pool : OrderedMap String DiskQueue.HandOff} {now : Nat}
    (all : ∀ task, among task) (elsewhere : Elsewhere among id pool now s)
    (sweeping : op = .sweep ∨ op = .onApplicationShutdown) :
    step s op = s ∨ ∃ s', Elsewhere among id pool now s' ∧ step s op = coordinate s' .purgeExpiredHandOffs := by
  rcases sweeping with rfl | rfl
  · rw [step]
    split
    · exact .inr ⟨_,elsewhere_fold (fun s task before => elsewhere_sweepTurn _ before (all task)) s.tasks s elsewhere,rfl⟩
    · exact .inl rfl
  · have stopped : Elsewhere among id pool now { s with sweepTimer := false } :=
      { elsewhere with }
    have closed : Elsewhere among id pool now (s.tasks.foldl shutdownTurn { s with sweepTimer := false }) :=
      elsewhere_fold (fun s task before => elsewhere_shutdownTurn before (all task)) s.tasks _ stopped
    have emptied : Elsewhere among id pool now
        { s.tasks.foldl shutdownTurn { s with sweepTimer := false } with tasks := [], ticketIndex := .empty } :=
      { closed with }
    exact .inr ⟨_,emptied,rfl⟩

theorem sweeping_active (sweeping : op = .sweep ∨ op = .onApplicationShutdown) {id : Nat}
    (live : isActive s.disk id = true) (unheld : ∀ task, held s task ≠ some id)
    (inTime : ∀ key entry, s.disk.handedOffReservations.get key = some entry → entry.reservation = id →
      s.now < entry.expiresAt) : isActive (step s op).disk id = true := by
  have elsewhere : Elsewhere (fun _ => True) id s.disk.handedOffReservations s.now s :=
    ⟨live,fun task _ => unheld task,rfl,rfl⟩
  rcases sweeping_cases (fun _ => trivial) elsewhere sweeping with same | ⟨s',after,purged⟩
  · rw [same]
    exact live
  · rw [purged]
    exact elsewhere_purge after inTime

theorem consumed_cases (tickets : Tickets s) {ownerKey fileId : String}
    (consumed : (consumeTicket s ticket ownerKey fileId).1 = true) :
    ∃ task record reservation, s.ticketIndex.get ticket = some task ∧ s.records[task]? = some record ∧
      record.ticket = some ticket ∧ record.reservation = some reservation ∧ isActive s.disk reservation = true ∧
      (consumeTicket s ticket ownerKey fileId).2 = handOff (spent s ticket task) task record reservation := by
  rcases consumeTicket_cases s tickets ticket ownerKey fileId with
    ⟨_,refused⟩ | ⟨task,record,indexed,_,found,issued,refused | ⟨reservation,_,holds,live,handed⟩⟩
  · rw [refused] at consumed
    cases consumed
  · rw [refused] at consumed
    cases consumed
  · exact ⟨task,record,reservation,indexed,found,issued,holds,live,by rw [handed]⟩

/-- Every active reservation has one owner, the ticket index is the inverse of the tickets in the
records, a ticket is consumed once, and what was handed off is not released on account of its task. -/
theorem task_reservations_owned_once {config : Config} {world : World} {evictionHook : Bool} {cached : String → Bool}
    {retention : Retention} {s : TaskService}
    (reach : Reachable step Allowed (fresh config world evictionHook cached retention) s) :
    (∀ id, isActive s.disk id = true → ∃! owner, ownedBy s owner = some id) ∧
    (∀ ticket task, s.ticketIndex.get ticket = some task ↔
      ∃ record, s.records[task]? = some record ∧ record.ticket = some ticket) ∧
    (∀ ticket task, s.ticketIndex.get ticket = some task → task ∈ s.tasks ∧ (held s task).isSome) ∧
    ∀ ticket ownerKey fileId, (consumeTicket s ticket ownerKey fileId).1 = true →
      (∀ s', Reachable step Allowed (consumeTicket s ticket ownerKey fileId).2 s' →
        ∀ owner file, (consumeTicket s' ticket owner file).1 = false) ∧
      ∃ task id, s.ticketIndex.get ticket = some task ∧ held s task = some id ∧
        ∀ s', Reachable step Allowed (consumeTicket s ticket ownerKey fileId).2 s' → isActive s'.disk id = true →
          (∀ op, OfTask task op → isActive (step s' op).disk id = true) ∧
          ∀ op, op = .sweep ∨ op = .onApplicationShutdown →
            isActive (step s' op).disk id = true ∨
            (∃ key entry, s'.disk.handedOffReservations.get key = some entry ∧ entry.reservation = id ∧
              entry.expiresAt ≤ s'.now) ∨
            ∃ other, other ≠ task ∧ held s' other = some id := by
  obtain ⟨tickets,owned⟩ := reachable_owned reach
  refine ⟨fun id live => one_owner owned live,?_,?_,?_⟩
  · intro ticket task
    constructor
    · exact fun indexed => (tickets.indexed ticket task indexed).2
    · rintro ⟨record,found,issued⟩
      exact (tickets.current task record ticket found issued).1
  · intro ticket task indexed
    obtain ⟨member,record,found,issued⟩ := tickets.indexed ticket task indexed
    have holds := (tickets.coherent task record found).ticketed (by rw [issued]; rfl)
    exact ⟨member,by simpa [held,found] using holds⟩
  · intro ticket ownerKey fileId consumed
    obtain ⟨task,record,id,indexed,found,issued,holds,live,handed⟩ := consumed_cases tickets consumed
    have steps := consumeTicket_steps s tickets ticket ownerKey fileId
    obtain ⟨tickets',owned'⟩ := steps_owned steps tickets owned
    refine ⟨?_,task,id,indexed,by simp [held,found,holds],?_⟩
    · intro s' later owner file
      have gone := (reachable_keep (fun _ _ move _ _ => move_spent move) tickets' owned'
        (consumed_spent tickets consumed) later).2.2
      exact spent_refused gone owner file
    · intro s' later alive
      have start : HandedOver task (consumeTicket s ticket ownerKey fileId).2 := by
        rw [handed]
        exact ⟨_,records_amend (spent_found found) _,rfl⟩
      obtain ⟨tickets'',_,ended⟩ := reachable_keep (fun _ _ move _ _ => move_handedOver move) tickets' owned' start later
      refine ⟨fun op of => ofTask_active tickets'' ended of alive,?_⟩
      intro op sweeping
      by_cases adopted : ∃ other, held s' other = some id
      · obtain ⟨other,has⟩ := adopted
        refine .inr (.inr ⟨other,?_,has⟩)
        rintro rfl
        rw [(handedOver_idle tickets'' ended).1] at has
        cases has
      · by_cases late : ∃ key entry, s'.disk.handedOffReservations.get key = some entry ∧ entry.reservation = id ∧
          entry.expiresAt ≤ s'.now
        · exact .inr (.inl late)
        · refine .inl (sweeping_active sweeping alive (fun t has => adopted ⟨t,has⟩) ?_)
          intro key entry pooled same
          by_contra expired
          exact late ⟨key,entry,pooled,same,Nat.not_lt.mp expired⟩

def started (free : Int) : TaskService := fresh defaultConfig (volume 0 free) false (fun _ => false) defaultRetention

def hundredBytes (ownerKey : String) : CreateDownloadTaskInput := ⟨ownerKey,"a",none,100,"/api/files/a/download",false⟩

def consumedOnce : List TaskOp := [.create (hundredBytes "user:1"),.consumeTicket 0 "user:1" "a"]

theorem pooled_reservation_owned_once :
    isActive (consumedOnce.foldl step (started 100)).disk 0 = true ∧
      ∃! owner, ownedBy (consumedOnce.foldl step (started 100)) owner = some 0 :=
  ⟨by decide +kernel,(task_reservations_owned_once
    (reachable_run .start consumedOnce (by simp [consumedOnce,Legal,Allowed]))).1 0 (by decide +kernel)⟩

def consumedInVain : List TaskOp := consumedOnce ++ [TaskOp.outside (.observe (volume 120000 100))]

/-- The next sweep releases what the task handed off. -/
theorem handed_off_reservation_swept :
    (consumeTicket (step (started 100) (.create (hundredBytes "user:1"))) 0 "user:1" "a").1 = true ∧
    held (step (started 100) (.create (hundredBytes "user:1"))) 0 = some 0 ∧
    Legal step Allowed (started 100) consumedInVain ∧
    isActive (consumedInVain.foldl step (started 100)).disk 0 = true ∧
    isActive (step (consumedInVain.foldl step (started 100)) .sweep).disk 0 = false := by
  refine ⟨by decide +kernel,by decide +kernel,⟨trivial,trivial,⟨?_,trivial⟩,trivial⟩,by decide +kernel,by decide +kernel⟩
  show (consumedOnce.foldl step (started 100)).resources.world.now ≤ 120000
  decide +kernel

end Tgtc.TaskOwnership
