import Tgtc.Custody
import Tgtc.Settlement

/-!
Who has a reservation in hand. The promise of a request yields it, a caller of
`tryReserveNow` gets it at once, and between two callers it lies in the pool.
The disk half never hands out one that someone else has.
-/
namespace Tgtc.Deliveries
open Numbers Resources Maps Arrivals Runs Custody DiskQueue DiskMoves Settlement

def delivered (d : Disk) (request : Nat) : Option Nat :=
  match settlement d request with
  | some (.ok reservation) => some reservation
  | _ => none

variable {d d' : Disk} {ctx : Context} {request : Nat} {event : DiskEvent} {kind : Kind} {kinds : Kind → Prop} {bytes : Int}

theorem settlement_append (grown : d'.log = d.log ++ [event]) (request : Nat) :
    settlement d' request = (settlement d request).or (event.settles request) := by
  simp [settlement,grown]

theorem settles_note {outcome : Except Failure Nat}
    (settles : event.settles request = some outcome) :
    diskNote event = .answered request ∨ diskNote event = .left request := by
  cases event with
  | answered r result =>
    by_cases here : r = request
    · exact .inl (by rw [diskNote,here])
    · simp [DiskEvent.settles,here] at settles
  | left r ending =>
    by_cases here : r = request
    · exact .inr (by rw [diskNote,here])
    · simp [DiskEvent.settles,here] at settles
  | queued | heldNow => cases settles

theorem settled_arrived (settled : DiskSettled d) (done : settlement d request ≠ none) :
    request < d.nextRequest ∧ request ∉ waitingIds d := by
  obtain ⟨outcome,found⟩ := Option.ne_none_iff_exists'.mp done
  obtain ⟨event,member,settles⟩ := List.exists_of_findSome?_eq_some found
  have noted : diskNote event ∈ d.log.map diskNote := List.mem_map_of_mem member
  refine accounted_done settled.accounted ?_
  rcases settles_note settles with note | note
  · exact .inl (note ▸ noted)
  · exact .inr (note ▸ noted)

theorem unsettled_next (settled : DiskSettled d) : settlement d d.nextRequest = none := by
  by_contra done
  exact Nat.lt_irrefl _ (settled_arrived settled done).1

theorem unsettled_waiting (settled : DiskSettled d) (waits : request ∈ waitingIds d) :
    settlement d request = none := by
  by_contra done
  exact (settled_arrived settled done).2 waits

theorem settlement_kept (grown : d'.log = d.log ∨ ∃ event, d'.log = d.log ++ [event])
    {outcome : Except Failure Nat} (done : settlement d request = some outcome) :
    settlement d' request = some outcome := by
  rcases grown with same | ⟨event,grown⟩
  · rw [← done]
    simp [settlement,same]
  · rw [settlement_append grown,done]
    rfl

theorem delivered_silent (grown : d'.log = d.log ++ [event])
    (silent : ∀ id, event.settles request ≠ some (.ok id)) : delivered d' request = delivered d request := by
  unfold delivered
  rw [settlement_append grown]
  cases settlement d request with
  | some outcome => rfl
  | none =>
    cases ends : event.settles request with
    | none => rfl
    | some outcome =>
      cases outcome with
      | error failure => rfl
      | ok id => exact absurd ends (silent id)

theorem delivered_same (same : d'.log = d.log) (request : Nat) : delivered d' request = delivered d request := by
  simp [delivered,settlement,same]

theorem delivered_to (grown : d'.log = d.log ++ [event]) {id : Nat}
    (pending : settlement d request = none) (yields : event.settles request = some (.ok id)) :
    delivered d' request = some id := by
  simp [delivered,settlement_append grown,pending,yields]

structure Onward (d d' : Disk) : Prop where
  numbered : d.nextRequest ≤ d'.nextRequest
  longer : d.records.length ≤ d'.records.length
  settled : ∀ request outcome, settlement d request = some outcome → settlement d' request = some outcome
  dead : ∀ id, id < d.records.length → isActive d id = false → isActive d' id = false

theorem move_onward (move : Move ctx kind d d') : Onward d d' := by
  refine ⟨?_,move_length move,?_,fun id known off => move_inactive move known off⟩
  · rcases move_waitingIds move with ⟨_,later⟩ | ⟨_,_,next⟩ <;> omega
  · intro request outcome done
    exact settlement_kept ((move_log move).imp_right fun ⟨event,grown,_⟩ => ⟨event,grown⟩) done

theorem onward_trans {d'' : Disk} (first : Onward d d') (second : Onward d' d'') : Onward d d'' where
  numbered := first.numbered.trans second.numbered
  longer := first.longer.trans second.longer
  settled := fun request outcome done => second.settled request outcome (first.settled request outcome done)
  dead := fun id known off => second.dead id (Nat.lt_of_lt_of_le known first.longer) (first.dead id known off)

theorem onward_refl (d : Disk) : Onward d d :=
  ⟨le_refl _,le_refl _,fun _ _ done => done,fun _ _ off => off⟩

theorem path_onward (path : Path ctx kinds d d') : Onward d d' := by
  induction path with
  | refl => exact onward_refl _
  | tail _ change ih =>
    obtain ⟨kind,_,move⟩ := change
    exact onward_trans ih (move_onward move)

/-- Where a reservation can be: with a task record, in the pool under a session
    key, or with the caller whose promise yields it. -/
inductive Holder
  | record (task : Nat)
  | pool (sessionKey : String)
  | promise (request : Nat)
deriving DecidableEq

/-- What each holder has, given what the task records hold and which callers have
    passed on what their promise yielded. -/
def owns (passed : Nat → Bool) (held : Nat → Option Nat) (d : Disk) : Holder → Option Nat
  | .record task => held task
  | .pool key => (d.handedOffReservations.get key).map (·.reservation)
  | .promise request => if passed request then none else delivered d request

/-- Every active reservation is in one place, and nobody has one that was never created. -/
structure Kept (passed : Nat → Bool) (held : Nat → Option Nat) (d : Disk) : Prop where
  sole : Sole (fun id => isActive d id = true) (owns passed held d)
  known : ∀ holder id, owns passed held d holder = some id → id < d.records.length
  done : ∀ request, passed request = true → settlement d request ≠ none

/-- Changes between the pool and the callers of `reserve` alone. -/
def Quiet : Kind → Prop
  | .out _ | .back _ => False
  | _ => True

section
variable {passed : Nat → Bool} {held : Nat → Option Nat} {d d' : Disk}

theorem done_kept (kept : Kept passed held d) (log : d'.log = d.log ∨ ∃ event, d'.log = d.log ++ [event]) :
    ∀ request, passed request = true → settlement d' request ≠ none := by
  intro request resumed
  obtain ⟨outcome,found⟩ := Option.ne_none_iff_exists'.mp (kept.done request resumed)
  rw [settlement_kept log found]
  exact Option.some_ne_none outcome

theorem kept_same (kept : Kept passed held d) (records : d.records.length ≤ d'.records.length)
    (active : ∀ id, isActive d' id = true → isActive d id = true)
    (pool : d'.handedOffReservations = d.handedOffReservations)
    (promises : ∀ request, delivered d' request = delivered d request)
    (log : d'.log = d.log ∨ ∃ event, d'.log = d.log ++ [event]) : Kept passed held d' := by
  have same : owns passed held d' = owns passed held d := by
    funext holder
    cases holder with
    | record task => rfl
    | pool key => simp only [owns,pool]
    | promise request => simp only [owns,promises]
  refine ⟨?_,?_,done_kept kept log⟩
  · rw [same]
    exact sole_fewer kept.sole active
  · intro holder id has
    rw [same] at has
    exact Nat.lt_of_lt_of_le (kept.known holder id has) records

theorem kept_open (kept : Kept passed held d) {request : Nat} (pending : settlement d request = none) :
    passed request = false := by
  by_contra resumed
  exact kept.done request (by simpa using resumed) pending

variable {passed' : Nat → Bool} {held' : Nat → Option Nat}

section
variable (kept : Kept passed held d)
include kept

theorem kept_new {record : ReservationRecord} (records : d'.records = d.records ++ [record])
    (receiver : Holder) (free : owns passed held d receiver = none)
    (got : owns passed' held' d' receiver = some d.records.length)
    (others : ∀ holder, holder ≠ receiver → owns passed' held' d' holder = owns passed held d holder)
    (done : ∀ request, passed' request = true → settlement d' request ≠ none) : Kept passed' held' d' := by
  refine ⟨?_,?_,done⟩
  · refine sole_new kept.sole (fun holder has => Nat.lt_irrefl _ (kept.known holder _ has)) ?_ ?_ got others
    · intro id live
      by_cases here : id = d.records.length
      · exact .inl here
      obtain ⟨found,present,active⟩ := isActive_known live
      have known : id < d.records.length := by
        have inside := at_lt present
        rw [records,List.length_append,List.length_singleton] at inside
        omega
      rw [records,List.getElem?_append_left known] at present
      simp [isActive,present,active]
    · intro other had
      rw [free] at had
      cases had
  · intro holder id has
    rw [records,List.length_append]
    by_cases here : holder = receiver
    · rw [here,got] at has
      cases has
      exact Nat.lt_succ_self _
    · rw [others holder here] at has
      exact Nat.lt_succ_of_lt (kept.known holder id has)

theorem kept_deliver {request : Nat} (pending : settlement d request = none)
    (event : DiskEvent) (yields : event.settles request = some (.ok d.records.length))
    (elsewhere : ∀ r, r ≠ request → event.settles r = none) (log : d'.log = d.log ++ [event])
    {record : ReservationRecord} (records : d'.records = d.records ++ [record])
    (pool : d'.handedOffReservations = d.handedOffReservations) : Kept passed held d' := by
  have received : delivered d' request = some d.records.length := delivered_to log pending yields
  have unpassed := kept_open kept pending
  refine kept_new kept records (.promise request) ?_ ?_ ?_ (done_kept kept (.inr ⟨event,log⟩))
  · simp [owns,delivered,pending]
  · simp [owns,unpassed,received]
  · intro holder other
    cases holder with
    | record task => rfl
    | pool key => simp only [owns,pool]
    | promise r =>
      have different : r ≠ request := fun same => other (by rw [same])
      simp only [owns]
      rw [delivered_silent log (by simp [elsewhere r different])]

theorem kept_pass (records : d'.records = d.records) (giver receiver : Holder) {id : Nat}
    (gives : owns passed held d giver = some id) (gone : owns passed' held' d' giver = none)
    (free : ∀ other, owns passed held d receiver = some other → isActive d other = false)
    (got : owns passed' held' d' receiver = some id)
    (others : ∀ holder, holder ≠ giver → holder ≠ receiver → owns passed' held' d' holder = owns passed held d holder)
    (done : ∀ request, passed' request = true → settlement d' request ≠ none) : Kept passed' held' d' := by
  have active : ∀ other, isActive d' other = isActive d other := fun other => by simp [isActive,records]
  refine ⟨?_,?_,done⟩
  · refine sole_pass kept.sole (fun other alive => (active other).symm.trans alive) gives gone ?_ got others
    intro other had alive
    have off := free other had
    rw [← active other] at off
    rw [off] at alive
    cases alive
  · intro holder other has
    rw [records]
    by_cases there : holder = giver
    · rw [there,gone] at has
      cases has
    by_cases here : holder = receiver
    · rw [here,got] at has
      cases has
      exact kept.known giver id gives
    · rw [others holder there here] at has
      exact kept.known holder other has

theorem kept_drop (records : d'.records = d.records) (giver : Holder)
    (dead : ∀ id, owns passed held d giver = some id → isActive d id = false)
    (gone : owns passed' held' d' giver = none)
    (others : ∀ holder, holder ≠ giver → owns passed' held' d' holder = owns passed held d holder)
    (done : ∀ request, passed' request = true → settlement d' request ≠ none) : Kept passed' held' d' := by
  have active : ∀ id, isActive d' id = isActive d id := fun id => by simp [isActive,records]
  refine ⟨?_,?_,done⟩
  · refine sole_drop kept.sole (fun id alive => (active id).symm.trans alive) ?_ gone others
    intro id had alive
    have off := dead id had
    rw [← active id] at off
    rw [off] at alive
    cases alive
  · intro holder id has
    rw [records]
    by_cases here : holder = giver
    · rw [here,gone] at has
      cases has
    · rw [others holder here] at has
      exact kept.known holder id has

end

theorem owns_unpooled (passed : Nat → Bool) (held : Nat → Option Nat) (d : Disk) (key : String) :
    owns passed held (unpooled d key) (.pool key) = none := by
  simp only [owns,Option.map_eq_none_iff]
  exact get_delete_same d.handedOffReservations key

theorem owns_unpooled_other {key other : String} (different : other ≠ key) :
    owns passed held (unpooled d key) (.pool other) = owns passed held d (.pool other) := by
  simp only [owns,unpooled,get_delete_other d.handedOffReservations different]

theorem kept_adopt (kept : Kept passed held d) (settled : DiskSettled d) {key : String} {entry : HandOff}
    (found : d.handedOffReservations.get key = some entry) :
    Kept passed held (answer (unpooled d key) (.adopted entry.reservation)) := by
  have log : (answer (unpooled d key) (.adopted entry.reservation)).log =
      d.log ++ [DiskEvent.answered d.nextRequest (.adopted entry.reservation)] := rfl
  have pending := unsettled_next settled
  have unpassed := kept_open kept pending
  have received : delivered (answer (unpooled d key) (.adopted entry.reservation)) d.nextRequest =
      some entry.reservation := delivered_to log pending (by simp [DiskEvent.settles])
  have gives : owns passed held d (.pool key) = some entry.reservation := by simp [owns,found]
  refine kept_pass kept rfl (.pool key) (.promise d.nextRequest) gives (owns_unpooled passed held d key) ?_ ?_ ?_
    (done_kept kept (.inr ⟨_,log⟩))
  · intro other had
    simp [owns,delivered,pending] at had
  · simp only [owns,unpassed]
    exact received
  · intro holder notPool notPromise
    cases holder with
    | record task => rfl
    | pool other => exact owns_unpooled_other fun same => notPool (by rw [same])
    | promise r =>
      have different : d.nextRequest ≠ r := fun same => notPromise (by rw [same])
      simp only [owns]
      rw [delivered_silent log (by simp [DiskEvent.settles,different])]

theorem kept_forget (kept : Kept passed held d) {key : String}
    (dead : ∀ entry, d.handedOffReservations.get key = some entry → isActive d entry.reservation = false) :
    Kept passed held (unpooled d key) := by
  refine kept_drop kept rfl (.pool key) ?_ (owns_unpooled passed held d key) ?_ kept.done
  · intro id had
    simp only [owns,Option.map_eq_some_iff] at had
    obtain ⟨entry,found,rfl⟩ := had
    exact dead entry found
  · intro holder other
    cases holder with
    | record task => rfl
    | pool k => exact owns_unpooled_other fun same => other (by rw [same])
    | promise r => rfl

end

theorem move_switches_off (move : Move ctx kind d d')
    (records : d'.records.length = d.records.length) {id : Nat} (live : isActive d' id = true) :
    isActive d id = true := by
  obtain ⟨record,found,_⟩ := isActive_known live
  have known : id < d.records.length := records ▸ (at_lt found)
  by_contra off
  have after := move_inactive move known (by simpa using off)
  rw [after] at live
  cases live

theorem move_kept {passed : Nat → Bool} {held : Nat → Option Nat}
    (move : Move ctx kind d d') (quiet : Quiet kind) (settled : DiskSettled d) (kept : Kept passed held d) :
    Kept passed held d' := by
  have whole := move
  have appended : ∀ (event : DiskEvent), d'.log = d.log ++ [event] →
      (∀ request id, event.settles request ≠ some (.ok id)) → ∀ request, delivered d' request = delivered d request :=
    fun event log silent request => delivered_silent log (silent request)
  cases move with
  | reject _ failure | refuse _ outcome failure =>
    refine kept_same kept (le_refl _) (fun _ live => live) rfl (appended _ rfl ?_) (.inr ⟨_,rfl⟩)
    intro request id
    simp only [DiskEvent.settles]
    split <;> simp
  | adopt _ key entry found live inTime => exact kept_adopt kept settled found
  | grant _ key bytes counts positive admitted =>
    refine kept_deliver kept (unsettled_next settled)
      (.answered d.nextRequest (.granted (diskGrant ctx d key bytes counts))) ?_ ?_ rfl rfl rfl
    · simp [DiskEvent.settles,diskGrant]
    · intro r other
      simp [DiskEvent.settles,Ne.symm other]
  | serve _ head rest queue admitted =>
    have waits : head.id ∈ waitingIds d := by simp [waitingIds,queue]
    refine kept_deliver kept (unsettled_waiting settled waits)
      (.left head.id (.granted (diskGrant ctx d head.sessionKey head.bytes head.countsTowardCache))) ?_ ?_ rfl rfl rfl
    · simp [DiskEvent.settles,diskGrant]
    · intro r other
      simp [DiskEvent.settles,Ne.symm other]
  | consume _ id record found active amount =>
    exact kept_same kept (by simp) (fun _ live => move_switches_off whole (by simp) live) rfl
      (fun _ => delivered_same rfl _) (.inl rfl)
  | retire _ id record found active =>
    exact kept_same kept (by simp [retire]) (fun _ live => move_switches_off whole (by simp [retire]) live) rfl
      (fun _ => delivered_same rfl _) (.inl rfl)
  | enqueue _ o bytes positive =>
    exact kept_same kept (le_refl _) (fun _ live => live) rfl (appended _ rfl (fun _ _ => by simp [DiskEvent.settles]))
      (.inr ⟨_,rfl⟩)
  | leave _ waiter member outcome waited ending leaves =>
    refine kept_same kept (le_refl _) (fun _ live => live) rfl (appended _ rfl ?_) (.inr ⟨_,rfl⟩)
    intro request id
    cases leaves <;> simp only [DiskEvent.settles] <;> split <;> simp
  | forget _ key dead => exact kept_forget kept dead
  | evict | rest | halt =>
    exact kept_same kept (le_refl _) (fun _ live => live) rfl (fun _ => delivered_same rfl _) (.inl rfl)
  | hold | take | put => cases quiet

theorem path_kept {passed : Nat → Bool} {held : Nat → Option Nat}
    (path : Path ctx Quiet d d') (settled : DiskSettled d) (kept : Kept passed held d) :
    DiskSettled d' ∧ Kept passed held d' := by
  induction path with
  | refl => exact ⟨settled,kept⟩
  | tail _ change ih =>
    obtain ⟨kind,quiet,move⟩ := change
    exact ⟨move_diskSettled ctx kind _ _ move ih.1,move_kept move quiet ih.1 ih.2⟩

section
variable {passed passed' : Nat → Bool} {held held' : Nat → Option Nat} {ctx : Context} {d d' : Disk} {task id : Nat}

section
variable (kept : Kept passed held d)
include kept

theorem kept_out (move : Move ctx (.out id) d d') (empty : held task = none)
    (here : held' task = some id) (elsewhere : ∀ other, other ≠ task → held' other = held other) :
    Kept passed held' d' := by
  cases move with
  | hold _ key bytes counts positive admitted =>
    have log : (emit (createReservation ctx d key bytes counts) (.heldNow (diskGrant ctx d key bytes counts))).log =
        d.log ++ [DiskEvent.heldNow (diskGrant ctx d key bytes counts)] := rfl
    refine kept_new kept rfl (.record task) empty here ?_ (done_kept kept (.inr ⟨_,log⟩))
    intro holder other
    cases holder with
    | record t => exact elsewhere t fun same => other (by rw [same])
    | pool key => rfl
    | promise r =>
      simp only [owns]
      rw [delivered_silent log (by simp [DiskEvent.settles])]
  | take _ key entry found live inTime =>
    refine kept_pass kept rfl (.pool key) (.record task) (by simp [owns,found]) (owns_unpooled passed held' d key) ?_ here
      ?_ kept.done
    · intro other had
      simp [owns,empty] at had
    · intro holder notPool notRecord
      cases holder with
      | record t => exact elsewhere t fun same => notRecord (by rw [same])
      | pool other => exact owns_unpooled_other fun same => notPool (by rw [same])
      | promise r => rfl

theorem kept_back {key : String} (dead : ∀ entry, d.handedOffReservations.get key = some entry → isActive d entry.reservation = false)
    (had : held task = some id) (gone : held' task = none)
    (elsewhere : ∀ other, other ≠ task → held' other = held other) (expiresAt : Nat) :
    Kept passed held' { d with handedOffReservations := d.handedOffReservations.set key ⟨id,expiresAt⟩ } := by
  refine kept_pass kept rfl (.record task) (.pool key) had gone ?_ ?_ ?_ kept.done
  · intro other present
    simp only [owns,Option.map_eq_some_iff] at present
    obtain ⟨entry,found,rfl⟩ := present
    exact dead entry found
  · simp [owns,get_set_same]
  · intro holder notRecord notPool
    cases holder with
    | record t => exact elsewhere t fun same => notRecord (by rw [same])
    | pool other =>
      have different : other ≠ key := fun same => notPool (by rw [same])
      simp only [owns,get_set_other _ _ different]
    | promise r => rfl

theorem kept_resume {request : Nat} (yielded : delivered d request = some id)
    (pending : passed request = false) (resumed : passed' request = true)
    (others : ∀ r, r ≠ request → passed' r = passed r) (empty : held task = none) (here : held' task = some id)
    (elsewhere : ∀ other, other ≠ task → held' other = held other) : Kept passed' held' d := by
  refine kept_pass kept rfl (.promise request) (.record task) (by simp [owns,pending,yielded]) (by simp [owns,resumed])
    ?_ here ?_ ?_
  · intro other had
    simp [owns,empty] at had
  · intro holder notPromise notRecord
    cases holder with
    | record t => exact elsewhere t fun same => notRecord (by rw [same])
    | pool key => rfl
    | promise r => simp only [owns,others r fun same => notPromise (by rw [same])]
  · intro r done
    by_cases same : r = request
    · subst same
      intro unsettled
      simp [delivered,unsettled] at yielded
    · exact kept.done r (by rwa [← others r same])

theorem kept_finish {request : Nat} (done : settlement d request ≠ none)
    (dead : ∀ id, delivered d request = some id → isActive d id = false) (resumed : passed' request = true)
    (others : ∀ r, r ≠ request → passed' r = passed r) : Kept passed' held d := by
  refine kept_drop kept rfl (.promise request) ?_ (by simp [owns,resumed]) ?_ ?_
  · intro id had
    simp only [owns] at had
    split at had
    · cases had
    · exact dead id had
  · intro holder other
    cases holder with
    | record t | pool key => rfl
    | promise r => simp only [owns,others r fun same => other (by rw [same])]
  · intro r passing
    by_cases same : r = request
    · exact same ▸ done
    · exact kept.done r (by rwa [← others r same])

theorem kept_clear (dead : ∀ id, held task = some id → isActive d id = false)
    (gone : held' task = none) (elsewhere : ∀ other, other ≠ task → held' other = held other) :
    Kept passed held' d := by
  refine kept_drop kept rfl (.record task) dead gone ?_ kept.done
  intro holder other
  cases holder with
  | record t => exact elsewhere t fun same => other (by rw [same])
  | pool key | promise r => rfl

end

end

theorem move_granted (move : Move ctx kind d d') {id : Nat}
    (known : id < d.records.length) : grantedBytes d' id = grantedBytes d id := by
  unfold grantedBytes
  rcases move_records move with same | ⟨record,grown⟩ | ⟨at_id,f,changed,keeps⟩
  · rw [same]
  · rw [grown,List.getElem?_append_left known]
  · rw [changed,List.getElem?_modify]
    cases d.records[id]? with
    | none => rfl
    | some record =>
      by_cases here : at_id = id
      · simp [here,(keeps record).2]
      · simp [here]

theorem path_granted (path : Path ctx kinds d d') {id : Nat}
    (known : id < d.records.length) : id < d'.records.length ∧ grantedBytes d' id = grantedBytes d id := by
  induction path with
  | refl => exact ⟨known,rfl⟩
  | tail _ change ih =>
    obtain ⟨kind,_,move⟩ := change
    exact ⟨Nat.lt_of_lt_of_le ih.1 (move_length move),(move_granted move ih.1).trans ih.2⟩

theorem move_terms (move : Move ctx kind d d') {id : Nat}
    {record : ReservationRecord} (found : d.records[id]? = some record) :
    ∃ record', d'.records[id]? = some record' ∧ record'.countsTowardCache = record.countsTowardCache ∧
      record'.grantedBytes = record.grantedBytes := by
  have known := at_lt found
  have grown : ∀ added, (d.records ++ [added])[id]? = some record := fun added => by
    rw [List.getElem?_append_left known,found]
  have changed : ∀ (at_id : Nat) (f : ReservationRecord → ReservationRecord),
      (∀ r, (f r).countsTowardCache = r.countsTowardCache ∧ (f r).grantedBytes = r.grantedBytes) →
      ∃ record', (d.records.modify at_id f)[id]? = some record' ∧
        record'.countsTowardCache = record.countsTowardCache ∧ record'.grantedBytes = record.grantedBytes := by
    intro at_id f same
    by_cases here : at_id = id
    · exact ⟨f record,by simp [here,found],same record⟩
    · exact ⟨record,by simp [here,found],rfl,rfl⟩
  cases move with
  | grant | hold | serve => exact ⟨record,grown _,rfl,rfl⟩
  | consume | retire => exact changed _ _ (fun _ => ⟨rfl,rfl⟩)
  | _ => exact ⟨record,found,rfl,rfl⟩

/-- The reservation that a request waits for or got meets terms on whether it counts
    toward the cache and on its size. -/
structure Meets (terms : Bool → Int → Prop) (d : Disk) (request : Nat) : Prop where
  waits : ∀ w ∈ d.waitingDisk, w.id = request → terms w.countsTowardCache w.bytes
  got : ∀ id, delivered d request = some id →
    ∃ record, d.records[id]? = some record ∧ terms record.countsTowardCache record.grantedBytes

theorem delivered_append (grown : d'.log = d.log ++ [event]) {id : Nat}
    (got : delivered d' request = some id) : delivered d request = some id ∨ event.settles request = some (.ok id) := by
  unfold delivered at got ⊢
  rw [settlement_append grown] at got
  cases before : settlement d request with
  | some outcome => rw [before] at got; exact .inl got
  | none =>
    simp only [before,Option.none_or] at got
    cases ends : event.settles request with
    | none => simp [ends] at got
    | some outcome =>
      cases outcome with
      | error failure => simp [ends] at got
      | ok reservation =>
        simp only [ends,Option.some.injEq] at got
        exact .inr (by rw [got])

section
variable {terms : Bool → Int → Prop}

variable {d d' : Disk}

theorem move_meets {ctx : Context} {kind : Kind} (move : Move ctx kind d d') {request : Nat}
    (arrived : request < d.nextRequest) (meets : Meets terms d request) : Meets terms d' request := by
  have whole := move
  have kept : ∀ id, delivered d request = some id →
      ∃ record, d'.records[id]? = some record ∧ terms record.countsTowardCache record.grantedBytes := by
    intro id got
    obtain ⟨record,found,met⟩ := meets.got id got
    obtain ⟨record',found',counts,granted⟩ := move_terms whole found
    exact ⟨record',found',by rwa [counts,granted]⟩
  have other : d.nextRequest ≠ request := Nat.ne_of_gt arrived
  have silently : ∀ event, d'.log = d.log ++ [event] → (∀ id, event.settles request ≠ some (Except.ok id)) →
      ∀ id, delivered d' request = some id →
        ∃ record, d'.records[id]? = some record ∧ terms record.countsTowardCache record.grantedBytes := by
    intro event log silent id got
    exact kept id ((delivered_append log got).resolve_right (silent id))
  cases move with
  | reject | refuse | adopt | grant =>
    exact ⟨meets.waits,silently (.answered d.nextRequest _) rfl (by simp [DiskEvent.settles,other])⟩
  | hold => exact ⟨meets.waits,silently _ rfl (by simp [DiskEvent.settles])⟩
  | enqueue _ o n positive =>
    refine ⟨?_,silently _ rfl (by simp [DiskEvent.settles])⟩
    intro w member same
    rcases List.mem_append.mp member with old | new
    · exact meets.waits w old same
    · rw [List.mem_singleton.mp new] at same
      exact absurd same other
  | serve _ head rest queue admitted =>
    refine ⟨fun w member => meets.waits w (List.mem_of_mem_eraseP member),?_⟩
    intro id got
    rcases delivered_append rfl got with before | now
    · exact kept id before
    by_cases here : head.id = request
    · simp only [DiskEvent.settles,here,↓reduceIte,Option.some.injEq,Except.ok.injEq] at now
      have met := meets.waits head (by simp [queue]) here
      subst now
      exact ⟨_,List.getElem?_concat_length,met⟩
    · simp [DiskEvent.settles,here] at now
  | leave _ waiter member outcome waited ending leaves =>
    refine ⟨fun w inside => meets.waits w (List.mem_of_mem_eraseP inside),silently _ rfl ?_⟩
    cases leaves <;> simp only [DiskEvent.settles] <;> split <;> simp
  | take | put | consume | retire | forget | evict | rest | halt =>
    exact ⟨meets.waits,fun id got => kept id ((delivered_same rfl request).symm.trans got)⟩

theorem path_meets {ctx : Context} {kinds : Kind → Prop} (path : Path ctx kinds d d') {request : Nat}
    (arrived : request < d.nextRequest) (meets : Meets terms d request) :
    request < d'.nextRequest ∧ Meets terms d' request := by
  induction path with
  | refl => exact ⟨arrived,meets⟩
  | tail _ change ih =>
    obtain ⟨kind,_,move⟩ := change
    refine ⟨?_,move_meets move ih.1 ih.2⟩
    rcases move_waitingIds move with ⟨_,later⟩ | ⟨_,_,next⟩
    · exact Nat.lt_of_lt_of_le ih.1 later
    · exact ih.1.trans (by omega)

theorem meets_answered (settled : DiskSettled d) {result : Answer}
    (log : d'.log = d.log ++ [DiskEvent.answered d.nextRequest result]) (queue : d'.waitingDisk = d.waitingDisk)
    (met : ∀ id, DiskEvent.settles d.nextRequest (.answered d.nextRequest result) = some (.ok id) →
      ∃ record, d'.records[id]? = some record ∧ terms record.countsTowardCache record.grantedBytes) :
    Meets terms d' d.nextRequest := by
  constructor
  · intro w member same
    rw [queue] at member
    have earlier := settled.accounted.ordered.numbered w.id (List.mem_map_of_mem member)
    omega
  · intro id got
    rcases delivered_append log got with before | now
    · simp [delivered,unsettled_next settled] at before
    · exact met id now

theorem reserveFresh_meets (ctx : Context) (settled : DiskSettled d) (o : ReserveOptions) (bytes : Int)
    (asks : terms o.countsTowardCache bytes) : Meets terms (reserveFresh ctx d o bytes) d.nextRequest := by
  unfold reserveFresh
  by_cases failed : probeAdmissionFreeBytes ctx < 0
  · simp only [failed]
    exact meets_answered settled rfl rfl (by simp [DiskEvent.settles])
  simp only [failed,↓reduceIte,tryGrant]
  cases evaluateGrant ctx d bytes o.countsTowardCache (probeAdmissionFreeBytes ctx) with
  | ok =>
    refine meets_answered settled rfl rfl ?_
    intro id got
    simp only [DiskEvent.settles,↓reduceIte,Option.some.injEq,Except.ok.injEq] at got
    subst got
    exact ⟨_,List.getElem?_concat_length,asks⟩
  | refused structural reason =>
    simp only
    split
    · exact meets_answered settled rfl rfl (by simp [DiskEvent.settles])
    split
    · exact meets_answered settled rfl rfl (by simp [DiskEvent.settles])
    constructor
    · intro w member same
      rcases List.mem_append.mp member with old | new
      · have earlier := settled.accounted.ordered.numbered w.id (List.mem_map_of_mem old)
        omega
      · rw [List.mem_singleton.mp new]
        exact asks
    · intro id got
      have log : (ensurePollTimer (enqueueDisk ctx d o bytes)).log = d.log ++ [.queued d.nextRequest _] := rfl
      rcases delivered_append log got with before | now
      · simp [delivered,unsettled_next settled] at before
      · cases now

theorem reserve_meets (ctx : Context) (shuttingDown : Bool) (settled : DiskSettled d) (o : ReserveOptions)
    (asks : ∀ n, legalBytes o.bytes = some n → terms o.countsTowardCache n)
    (adopts : ∀ n entry record, shuttingDown = false → o.signal ≠ .aborted → legalBytes o.bytes = some n →
      d.handedOffReservations.get o.sessionKey = some entry → ctx.world.now < entry.expiresAt →
      d.records[entry.reservation]? = some record → record.active = true → n ≤ record.grantedBytes →
      terms record.countsTowardCache record.grantedBytes) :
    Meets terms (reserve ctx shuttingDown d o) d.nextRequest := by
  unfold reserve
  cases shuttingDown with
  | true => exact meets_answered settled rfl rfl (by simp [DiskEvent.settles])
  | false =>
    cases legal : legalBytes o.bytes with
    | none => exact meets_answered settled rfl rfl (by simp [DiskEvent.settles])
    | some n =>
      simp only
      by_cases aborted : o.signal = .aborted
      · rw [if_pos aborted]
        exact meets_answered settled rfl rfl (by simp [DiskEvent.settles])
      rw [if_neg aborted]
      rcases reserveAdmitted_cases ctx d o n with ⟨entry,found,live,inTime,enough,adopted⟩ | ⟨d',evaluated,freshly⟩
      · rw [adopted]
        refine meets_answered settled rfl rfl ?_
        intro id got
        simp only [DiskEvent.settles,↓reduceIte,Option.some.injEq,Except.ok.injEq] at got
        subst got
        obtain ⟨record,present,active⟩ := isActive_known live
        rw [grantedBytes,present] at enough
        exact ⟨record,present,adopts n entry record rfl aborted legal found inTime present active enough⟩
      · have inside : Path ctx (fun _ => True) d d' := chain_of_kind trivial (evaluatedAt_steps evaluated)
        have settled' := chain_invariant inside (fun kind _ _ _ move => move_diskSettled ctx kind _ _ move) settled
        rw [freshly,← evaluatedAt_nextRequest evaluated]
        exact reserveFresh_meets ctx settled' o n (asks n legal)

end

structure Asked (d : Disk) (request : Nat) (bytes : Int) : Prop where
  waits : ∀ w ∈ d.waitingDisk, w.id = request → bytes ≤ w.bytes
  got : ∀ id, delivered d request = some id → id < d.records.length ∧ bytes ≤ grantedBytes d id

theorem asked_iff :
    Asked d request bytes ↔ Meets (fun _ n => bytes ≤ n) d request := by
  have same : ∀ id, (id < d.records.length ∧ bytes ≤ grantedBytes d id) ↔
      ∃ record, d.records[id]? = some record ∧ bytes ≤ record.grantedBytes := by
    intro id
    constructor
    · rintro ⟨known,enough⟩
      have found := List.getElem?_eq_getElem known
      rw [grantedBytes,found] at enough
      exact ⟨_,found,enough⟩
    · rintro ⟨record,found,enough⟩
      exact ⟨at_lt found,by simpa [grantedBytes,found] using enough⟩
  exact ⟨fun asked => ⟨asked.waits,fun id got => (same id).mp (asked.got id got)⟩,
    fun meets => ⟨meets.waits,fun id got => (same id).mpr (meets.got id got)⟩⟩

theorem path_asked (path : Path ctx kinds d d')
    (arrived : request < d.nextRequest) (asked : Asked d request bytes) : Asked d' request bytes :=
  asked_iff.mpr (path_meets path arrived (asked_iff.mp asked)).2

theorem reserve_asked (ctx : Context) (shuttingDown : Bool) (settled : DiskSettled d) (o : ReserveOptions)
    (asks : ∀ n, legalBytes o.bytes = some n → bytes ≤ n) :
    Asked (reserve ctx shuttingDown d o) d.nextRequest bytes := by
  refine asked_iff.mpr (reserve_meets ctx shuttingDown settled o asks ?_)
  intro n entry record _ _ legal _ _ _ _ enough
  exact (asks n legal).trans enough

theorem legalBytes_whole {n m : Int} (legal : legalBytes (.whole n) = some m) : m = n := by
  unfold legalBytes Number.safeInteger Number.whole at legal
  simp only [Rat.den_intCast] at legal
  split at legal
  · next k safe =>
    split at safe
    · cases safe
      split at legal
      · cases legal
        rfl
      · cases legal
    · cases safe
  · cases legal

theorem tryReserveNow_enough {shuttingDown : Bool} {key : String} {n : Int} {counts : Bool}
    {id : Nat} (granted : (tryReserveNow ctx shuttingDown d key (.whole n) counts).1 = some id) :
    n ≤ grantedBytes (tryReserveNow ctx shuttingDown d key (.whole n) counts).2 id := by
  unfold tryReserveNow at granted ⊢
  cases shuttingDown with
  | true => cases granted
  | false =>
    simp only [Bool.false_eq_true] at granted ⊢
    cases legal : legalBytes (.whole n) with
    | none => simp [legal] at granted
    | some m =>
      obtain rfl := legalBytes_whole legal
      simp only [legal] at granted ⊢
      unfold tryReserveAdmitted at granted ⊢
      rcases takeHandedOffReservation_cases ctx d key with ⟨entry,_,_,_,taken⟩ | ⟨after,taken,_⟩
      · rw [taken] at granted ⊢
        by_cases enough : m ≤ grantedBytes (unpooled d key) entry.reservation
        · simp only [enough,↓reduceIte,Option.some.injEq] at granted ⊢
          rw [← granted]
          exact enough
        · simp [enough] at granted
      · rw [taken] at granted ⊢
        by_cases failed : probeAdmissionFreeBytes ctx < 0
        · simp [failed] at granted
        simp only [failed,↓reduceIte,tryGrant] at granted ⊢
        cases verdict : evaluateGrant ctx after m counts (probeAdmissionFreeBytes ctx) with
        | refused structural reason => simp [verdict] at granted
        | ok =>
          simp only [verdict,diskGrant,Option.some.injEq] at granted ⊢
          subst granted
          simp [emit,createReservation,grantedBytes]

end Tgtc.Deliveries
