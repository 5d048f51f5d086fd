import Tgtc.DiskLedger
import Tgtc.UpstreamMoves

/-!
What a shutdown grants. It returns the reservations of the hand-off pool before it rejects the waiters, and every
return runs the pump: a request that fits once the pool is back is granted in the middle of the shutdown.
-/
namespace Tgtc.Shutdown
open Numbers Resources Maps DiskQueue DiskMoves DiskLedger Coordinator Runs

def giveBack (d : Disk) (entry : String × HandOff) : Disk :=
  match d.records[entry.2.reservation]? with
  | none => d
  | some record => if record.active then retire d entry.2.reservation record else d

structure Agree (d d' : Disk) : Prop where
  records : d'.records = d.records
  pending : d'.reservedPendingBytes = d.reservedPendingBytes
  cached : d'.cacheReservedBytes = d.cacheReservedBytes

variable {d : Disk} {ctx : Context} {d' : Disk} {entry : String × HandOff} {s : Service}

theorem agree_active (agree : Agree d d') (id : Nat) : isActive d' id = isActive d id := by
  rw [isActive,isActive,agree.records]

theorem agree_admitted (agree : Agree d d') {bytes : Int} {counts : Bool} :
    Admitted ctx d' bytes counts ↔ Admitted ctx d bytes counts :=
  ⟨admitted_mono (le_of_eq agree.pending.symm) (le_of_eq agree.cached.symm),
    admitted_mono (le_of_eq agree.pending) (le_of_eq agree.cached)⟩

theorem agree_giveBack (agree : Agree d d') (entry : String × HandOff) :
    Agree (giveBack d entry) (giveBack d' entry) := by
  unfold giveBack
  rw [agree.records]
  cases found : d.records[entry.2.reservation]? with
  | none => exact agree
  | some record =>
    simp only
    split
    · exact ⟨by simp only [retire,agree.records],by simp only [retire,agree.pending],by simp only [retire,agree.cached]⟩
    · exact agree

theorem agree_fold : ∀ (entries : List (String × HandOff)) {d d' : Disk}, Agree d d' →
    Agree (entries.foldl giveBack d) (entries.foldl giveBack d') := by
  intro entries
  induction entries with
  | nil => intro d d' agree; exact agree
  | cons entry rest ih => intro d d' agree; exact ih (agree_giveBack agree entry)

theorem giveBack_inactive (off : isActive d entry.2.reservation = false) :
    giveBack d entry = d := by
  unfold giveBack
  unfold isActive at off
  split
  · rfl
  · next record found =>
    rw [found] at off
    simp only [Option.map_some,Option.getD_some] at off
    simp [off]

theorem giveBack_active {record : ReservationRecord}
    (found : d.records[entry.2.reservation]? = some record) (active : record.active = true) :
    giveBack d entry = retire d entry.2.reservation record := by
  simp [giveBack,found,active]

theorem fold_giveBack_inactive : ∀ (entries : List (String × HandOff)) (d : Disk),
    (∀ entry ∈ entries, isActive d entry.2.reservation = false) → entries.foldl giveBack d = d := by
  intro entries
  induction entries with
  | nil => intro d _; rfl
  | cons entry rest ih =>
    intro d off
    rw [List.foldl_cons,giveBack_inactive (off entry (by simp))]
    exact ih d (fun other member => off other (List.mem_cons_of_mem _ member))

theorem giveBack_lower (ledger : Ledger d) (entry : String × HandOff) :
    Ledger (giveBack d entry) ∧ (giveBack d entry).reservedPendingBytes ≤ d.reservedPendingBytes ∧
      (giveBack d entry).cacheReservedBytes ≤ d.cacheReservedBytes := by
  cases live : isActive d entry.2.reservation with
  | false =>
    rw [giveBack_inactive live]
    exact ⟨ledger,le_refl _,le_refl _⟩
  | true =>
    obtain ⟨record,found,active⟩ := isActive_known live
    rw [giveBack_active found active]
    have bounds := ledger.bounds _ record found
    have pending := remaining_le_pending ledger found active
    have cached := cachePart_le_cached ledger found active
    refine ⟨ledger_retire ledger found active,?_,?_⟩
    · simp only [retire]
      omega
    · simp only [retire]
      split
      · next counts =>
        simp only [cachePart] at cached
        omega
      · exact le_refl _

theorem fold_giveBack_lower : ∀ (entries : List (String × HandOff)) {d : Disk}, Ledger d →
    (entries.foldl giveBack d).reservedPendingBytes ≤ d.reservedPendingBytes ∧
      (entries.foldl giveBack d).cacheReservedBytes ≤ d.cacheReservedBytes := by
  intro entries
  induction entries with
  | nil => intro d _; exact ⟨le_refl _,le_refl _⟩
  | cons entry rest ih =>
    intro d ledger
    obtain ⟨later,pending,cached⟩ := giveBack_lower ledger entry
    obtain ⟨pending',cached'⟩ := ih later
    exact ⟨pending'.trans pending,cached'.trans cached⟩

def HeadRefused (ctx : Context) (d : Disk) : Prop :=
  ∀ (head : DiskWaiter) (rest : List DiskWaiter), d.waitingDisk = head :: rest →
    ¬ Admitted ctx d head.bytes head.countsTowardCache

theorem pumpDisk_refused (refused : HeadRefused ctx d) :
    ∃ poll inFlight last,
      pumpDisk ctx d = { d with pollTimer := poll, evictionInFlight := inFlight, lastEvictionAt := last } := by
  unfold pumpDisk
  by_cases queue : d.waitingDisk = []
  · rw [if_pos queue]
    exact ⟨false,d.evictionInFlight,d.lastEvictionAt,rfl⟩
  obtain ⟨head,rest,shape⟩ := List.exists_cons_of_ne_nil queue
  rw [if_neg queue]
  by_cases failed : probeAdmissionFreeBytes ctx < 0
  · simp only [failed]
    exact ⟨d.pollTimer,d.evictionInFlight,d.lastEvictionAt,rfl⟩
  simp only [failed,↓reduceIte]
  rw [pumpDiskLoop]
  simp only [shape,tryGrant]
  cases verdict : evaluateGrant ctx d head.bytes head.countsTowardCache (probeAdmissionFreeBytes ctx) with
  | ok => exact absurd ⟨not_lt.mp failed,verdict⟩ (refused head rest shape)
  | refused structural reason =>
    simp only [requestEviction]
    split
    · exact ⟨d.pollTimer,d.evictionInFlight,d.lastEvictionAt,by rw [← shape]⟩
    · split
      · exact ⟨d.pollTimer,d.evictionInFlight,d.lastEvictionAt,by rw [← shape]⟩
      · exact ⟨d.pollTimer,true,ctx.world.now,by rw [← shape]⟩

theorem steps_length (steps : Steps ctx d d') : d.records.length ≤ d'.records.length := by
  induction steps with
  | refl => exact le_refl _
  | tail _ move ih => exact ih.trans (move_length move)

theorem pumpDisk_admitted {head : DiskWaiter} {rest : List DiskWaiter}
    (queue : d.waitingDisk = head :: rest) (admitted : Admitted ctx d head.bytes head.countsTowardCache) :
    d.records.length < (pumpDisk ctx d).records.length := by
  have probed : ¬ probeAdmissionFreeBytes ctx < 0 := not_lt.mpr admitted.1
  unfold pumpDisk
  simp only [probed]
  rw [pumpDiskLoop,queue]
  simp only [tryGrant,admitted.2]
  refine Nat.lt_of_lt_of_le ?_ (steps_length (pumpDiskLoop_steps ctx admitted.1 _ _))
  have member : head ∈ (createReservation ctx d head.sessionKey head.bytes head.countsTowardCache).waitingDisk := by
    simp [createReservation,queue]
  rw [removeDiskWaiter_of_mem member]
  simp [emit,recordDiskWaitOutcome,without,detachWaiter,createReservation]

theorem shutdownHandOff_refused
    (refused : isActive d entry.2.reservation = true → HeadRefused ctx (giveBack d entry)) :
    Agree (giveBack d entry) (shutdownHandOff ctx d entry) ∧
      (shutdownHandOff ctx d entry).waitingDisk = d.waitingDisk ∧ (shutdownHandOff ctx d entry).log = d.log := by
  unfold shutdownHandOff
  cases live : isActive d entry.2.reservation with
  | false =>
    rw [releaseReservation_off live,giveBack_inactive live]
    exact ⟨⟨rfl,rfl,rfl⟩,rfl,rfl⟩
  | true =>
    obtain ⟨record,found,active⟩ := isActive_known live
    have alone := refused live
    rw [giveBack_active found active] at alone ⊢
    obtain ⟨poll,inFlight,last,pumped⟩ := pumpDisk_refused alone
    rw [releaseReservation_on found active,pumped]
    exact ⟨⟨rfl,rfl,rfl⟩,rfl,rfl⟩

theorem shutdownHandOff_ledger (ctx : Context) (ledger : Ledger d) (entry : String × HandOff) :
    Ledger (shutdownHandOff ctx d entry) ∧ d.records.length ≤ (shutdownHandOff ctx d entry).records.length := by
  have steps := releaseReservation_steps ctx d entry.2.reservation
  have path : Path ctx (fun _ => True) d _ := chain_of_kind trivial steps
  have released := chain_invariant path (fun kind t t' _ move => move_ledger ctx kind t t' move) ledger
  have grown : d.records.length ≤ (releaseReservation ctx d entry.2.reservation).records.length := steps_length steps
  exact ⟨{ released with },grown⟩

theorem fold_shutdownHandOff_length (ctx : Context) : ∀ (entries : List (String × HandOff)) {d : Disk}, Ledger d →
    d.records.length ≤ (entries.foldl (shutdownHandOff ctx) d).records.length := by
  intro entries
  induction entries with
  | nil => intro d _; exact le_refl _
  | cons entry rest ih =>
    intro d ledger
    obtain ⟨later,grown⟩ := shutdownHandOff_ledger ctx ledger entry
    exact grown.trans (ih later)

/-- The head is refused once these entries are back, unless nothing of them is active. -/
def Refuses (ctx : Context) (entries : List (String × HandOff)) (d : Disk) : Prop :=
  ∀ (head : DiskWaiter) (rest : List DiskWaiter), d.waitingDisk = head :: rest →
    (∃ entry ∈ entries, isActive d entry.2.reservation = true) →
    ¬ Admitted ctx (entries.foldl giveBack d) head.bytes head.countsTowardCache

theorem refuses_first {rest : List (String × HandOff)}
    (ledger : Ledger d) (refuses : Refuses ctx (entry :: rest) d) (live : isActive d entry.2.reservation = true) :
    HeadRefused ctx (giveBack d entry) := by
  intro head others queue admitted
  have queue' : d.waitingDisk = head :: others := by
    obtain ⟨record,found,active⟩ := isActive_known live
    rw [giveBack_active found active] at queue
    exact queue
  obtain ⟨pending,cached⟩ := fold_giveBack_lower rest (giveBack_lower ledger entry).1
  exact refuses head others queue' ⟨entry,by simp,live⟩ (admitted_mono pending cached admitted)

theorem fold_refused (ctx : Context) : ∀ (entries : List (String × HandOff)) {d : Disk}, Ledger d →
    Refuses ctx entries d →
    (entries.foldl (shutdownHandOff ctx) d).records.length = d.records.length ∧
      (entries.foldl (shutdownHandOff ctx) d).waitingDisk = d.waitingDisk ∧
      (entries.foldl (shutdownHandOff ctx) d).log = d.log := by
  intro entries
  induction entries with
  | nil => intro d _ _; exact ⟨rfl,rfl,rfl⟩
  | cons entry rest ih =>
    intro d ledger refuses
    obtain ⟨agree,queue,log⟩ := shutdownHandOff_refused (fun live => refuses_first ledger refuses live)
    have size : (shutdownHandOff ctx d entry).records.length = d.records.length := by
      rw [agree.records]
      unfold giveBack
      split
      · rfl
      · split
        · simp [retire]
        · rfl
    have later : Refuses ctx rest (shutdownHandOff ctx d entry) := by
      intro head others shape active admitted
      rw [queue] at shape
      obtain ⟨other,member,live⟩ := active
      rw [agree_active agree] at live
      have before : isActive d other.2.reservation = true := by
        cases off : isActive d entry.2.reservation with
        | false => rwa [giveBack_inactive off] at live
        | true =>
          obtain ⟨record,found,on⟩ := isActive_known off
          rw [giveBack_active found on] at live
          by_contra dead
          obtain ⟨r,known,_⟩ := isActive_known live
          have inside : other.2.reservation < d.records.length := by
            have := at_lt known
            simpa [retire] using this
          have dead' : isActive d other.2.reservation = false := by simpa using dead
          have still := move_inactive (@Move.retire ctx d _ record found on) inside dead'
          rw [still] at live
          cases live
      exact refuses head others shape ⟨other,List.mem_cons_of_mem _ member,before⟩
        ((agree_admitted (agree_fold rest agree)).mp admitted)
    obtain ⟨size',queue',log'⟩ := ih (shutdownHandOff_ledger ctx ledger entry).1 later
    exact ⟨size'.trans size,queue'.trans queue,log'.trans log⟩

theorem fold_admitted (ctx : Context) {head : DiskWaiter} {others : List DiskWaiter} :
    ∀ (entries : List (String × HandOff)) {d : Disk}, Ledger d → d.waitingDisk = head :: others →
    (∃ entry ∈ entries, isActive d entry.2.reservation = true) →
    Admitted ctx (entries.foldl giveBack d) head.bytes head.countsTowardCache →
    d.records.length < (entries.foldl (shutdownHandOff ctx) d).records.length := by
  intro entries
  induction entries with
  | nil => rintro d _ _ ⟨entry,member,_⟩; cases member
  | cons entry rest ih =>
    intro d ledger queue active admitted
    have later := (shutdownHandOff_ledger ctx ledger entry).1
    have grown := (shutdownHandOff_ledger ctx ledger entry).2
    by_cases served : isActive d entry.2.reservation = true ∧
        Admitted ctx (giveBack d entry) head.bytes head.countsTowardCache
    · obtain ⟨record,found,on⟩ := isActive_known served.1
      have now := served.2
      rw [giveBack_active found on] at now
      have more := pumpDisk_admitted (d := retire d entry.2.reservation record) queue now
      have here : d.records.length < (shutdownHandOff ctx d entry).records.length := by
        simp only [shutdownHandOff,releaseReservation_on found on]
        simpa [retire] using more
      exact Nat.lt_of_lt_of_le here (fold_shutdownHandOff_length ctx rest later)
    · -- Nobody is served in this turn, so one of the later entries is active and serves the head.
      have refused : isActive d entry.2.reservation = true → HeadRefused ctx (giveBack d entry) := by
        intro live first some_rest shape passed
        obtain ⟨record,found,on⟩ := isActive_known live
        have shape' : d.waitingDisk = first :: some_rest := by
          rw [giveBack_active found on] at shape
          exact shape
        rw [queue] at shape'
        cases shape'
        exact served ⟨live,passed⟩
      obtain ⟨agree,queue',_⟩ := shutdownHandOff_refused refused
      have admitted' := (agree_admitted (agree_fold rest agree)).mpr admitted
      have remaining : ∃ other ∈ rest, isActive (shutdownHandOff ctx d entry) other.2.reservation = true := by
        by_contra none_left
        have dead : ∀ other ∈ rest, isActive (shutdownHandOff ctx d entry) other.2.reservation = false := by
          intro other member
          by_contra live
          exact none_left ⟨other,member,by simpa using live⟩
        rw [fold_giveBack_inactive rest _ dead,agree_admitted agree] at admitted'
        cases live : isActive d entry.2.reservation with
        | true => exact served ⟨live,admitted'⟩
        | false =>
          obtain ⟨other,member,on⟩ := active
          rcases List.mem_cons.mp member with rfl | inside
          · rw [live] at on
            cases on
          · have same := dead other inside
            rw [agree_active agree,giveBack_inactive live,on] at same
            cases same
      exact Nat.lt_of_le_of_lt grown (ih later (queue'.trans queue) remaining admitted')

theorem fold_shutdownHandOff_pool (ctx : Context) : ∀ (entries : List (String × HandOff)) (d : Disk)
    (left : String × HandOff), left ∈ (entries.foldl (shutdownHandOff ctx) d).handedOffReservations.entries →
    left ∈ d.handedOffReservations.entries ∧ left.1 ∉ entries.map Prod.fst := by
  intro entries
  induction entries with
  | nil => intro d left member; exact ⟨member,by simp⟩
  | cons entry rest ih =>
    intro d left member
    obtain ⟨before,other⟩ := ih _ left member
    have turn : (shutdownHandOff ctx d entry).handedOffReservations = d.handedOffReservations.delete entry.1 := by
      simp only [shutdownHandOff,releaseReservation_pool]
    rw [turn,mem_delete] at before
    refine ⟨before.1,?_⟩
    simp only [List.map_cons,List.mem_cons,not_or]
    exact ⟨before.2,other⟩

theorem fold_shutdownWaiter : ∀ (waiters : List DiskWaiter) (d : Disk), (∀ w ∈ waiters, w.settled = false) →
    (waiters.foldl shutdownWaiter d).records = d.records ∧
    (waiters.foldl shutdownWaiter d).handedOffReservations = d.handedOffReservations ∧
    (∀ event ∈ d.log, event ∈ (waiters.foldl shutdownWaiter d).log) ∧
    ∀ w ∈ waiters, DiskEvent.left w.id (.shutdown shuttingDownError) ∈ (waiters.foldl shutdownWaiter d).log := by
  intro waiters
  induction waiters with
  | nil => intro d _; exact ⟨rfl,rfl,fun _ member => member,nofun⟩
  | cons waiter rest ih =>
    intro d pending
    have turn : shutdownWaiter d waiter = emit (recordDiskWaitOutcome (detachWaiter d waiter.id) .shutdown none)
        (.left waiter.id (.shutdown shuttingDownError)) := by
      simp [shutdownWaiter,pending waiter (by simp)]
    obtain ⟨records,pool,kept,rejected⟩ := ih (shutdownWaiter d waiter) (fun w member => pending w (by simp [member]))
    rw [List.foldl_cons]
    refine ⟨?_,?_,?_,?_⟩
    · rw [records,turn]
      rfl
    · rw [pool,turn]
      rfl
    · intro event member
      apply kept
      rw [turn]
      exact List.mem_append_left _ member
    · intro w member
      rcases List.mem_cons.mp member with rfl | inside
      · apply kept
        rw [turn]
        exact List.mem_append_right _ (List.mem_singleton.mpr rfl)
      · exact rejected w inside

open UpstreamQueue (Upstream UpstreamWaiter UpstreamEvent) in
theorem fold_shutdownUpstream : ∀ (waiters : List UpstreamWaiter) (u : Upstream), (∀ w ∈ waiters, w.settled = false) →
    (waiters.foldl UpstreamQueue.shutdownWaiter u).leases = u.leases ∧
    (∀ event ∈ u.log, event ∈ (waiters.foldl UpstreamQueue.shutdownWaiter u).log) ∧
    ∀ w ∈ waiters,
      UpstreamEvent.left w.id (.shutdown shuttingDownError) ∈ (waiters.foldl UpstreamQueue.shutdownWaiter u).log := by
  intro waiters
  induction waiters with
  | nil => intro u _; exact ⟨rfl,fun _ member => member,nofun⟩
  | cons waiter rest ih =>
    intro u pending
    have turn : UpstreamQueue.shutdownWaiter u waiter =
        UpstreamQueue.emit (UpstreamQueue.detachWaiter u waiter.id) (.left waiter.id (.shutdown shuttingDownError)) := by
      simp [UpstreamQueue.shutdownWaiter,pending waiter (by simp)]
    obtain ⟨leases,kept,rejected⟩ :=
      ih (UpstreamQueue.shutdownWaiter u waiter) (fun w member => pending w (by simp [member]))
    rw [List.foldl_cons]
    refine ⟨?_,?_,?_⟩
    · rw [leases,turn]
      rfl
    · intro event member
      apply kept
      rw [turn]
      exact List.mem_append_left _ member
    · intro w member
      rcases List.mem_cons.mp member with rfl | inside
      · apply kept
        rw [turn]
        exact List.mem_append_right _ (List.mem_singleton.mpr rfl)
      · exact rejected w inside

structure Down (s : Service) : Prop where
  down : s.shuttingDown = true
  disk : s.disk.waitingDisk = []
  upstream : s.upstream.waitingUpstream = []

theorem path_records {kinds : Kind → Prop} (unjoined : ¬ kinds .joined)
    (unasked : ¬ kinds .immediate) (untried : ∀ id, ¬ kinds (.out id)) (path : Path ctx kinds d d')
    (empty : d.waitingDisk = []) : d'.waitingDisk = [] ∧ d'.records.length = d.records.length := by
  induction path with
  | refl => exact ⟨empty,rfl⟩
  | tail _ change before =>
    obtain ⟨kind,among,move⟩ := change
    obtain ⟨queue,size⟩ := before
    cases move with
    | enqueue => exact absurd among unjoined
    | grant => exact absurd among unasked
    | hold | take => exact absurd among (untried _)
    | serve _ head rest shape => rw [queue] at shape; cases shape
    | leave _ waiter member => rw [queue] at member; cases member
    | consume => exact ⟨queue,by simpa using size⟩
    | retire => exact ⟨queue,by simpa [retire] using size⟩
    | _ => exact ⟨queue,size⟩

open UpstreamQueue (Upstream) in
theorem path_leases {ctx : Context} {kinds : UpstreamMoves.Kind → Prop} (unjoined : ¬ kinds .joined)
    (unasked : ¬ kinds .immediate) {u u' : Upstream} (path : UpstreamMoves.Path ctx kinds u u')
    (empty : u.waitingUpstream = []) : u'.waitingUpstream = [] ∧ u'.leases.length = u.leases.length := by
  induction path with
  | refl => exact ⟨empty,rfl⟩
  | tail _ change before =>
    obtain ⟨kind,among,move⟩ := change
    obtain ⟨queue,size⟩ := before
    cases move with
    | enqueue => exact absurd among unjoined
    | grant => exact absurd among unasked
    | weigh => exact ⟨by simp [UpstreamMoves.weighed,UpstreamQueue.updateHead,queue],size⟩
    | serve _ head rest shape | pass _ head rest shape => rw [queue] at shape; cases shape
    | leave _ waiter member => rw [queue] at member; cases member
    | retire => exact ⟨queue,by simpa [UpstreamQueue.retireLease] using size⟩
    | _ => exact ⟨queue,size⟩

theorem step_down (s : Service) (op : Op) (held : Down s) (running : op ≠ .reset) :
    Down (step s op) ∧ (step s op).disk.records.length = s.disk.records.length ∧
      (step s op).upstream.leases.length = s.upstream.leases.length := by
  have diskPath := DiskMoves.step_path s op (by intro w member; rw [held.disk] at member; cases member)
  have upstreamPath := UpstreamMoves.step_path s op (by intro w member; rw [held.upstream] at member; cases member)
  cases op with
  | reset => exact absurd rfl running
  | reserve o =>
    have rejected : (step s (.reserve o)).disk = answer s.disk (.rejected (.resource shuttingDownError)) := by
      show reserve s.ctx s.shuttingDown s.disk o = _
      rw [held.down]
      rfl
    refine ⟨⟨held.down,?_,held.upstream⟩,?_,rfl⟩
    · rw [rejected]; exact held.disk
    · rw [rejected]; rfl
  | tryReserveNow key bytes counts =>
    have refused : (step s (.tryReserveNow key bytes counts)).disk = s.disk := by
      show (tryReserveNow s.ctx s.shuttingDown s.disk key bytes counts).2 = _
      rw [held.down]
      rfl
    refine ⟨⟨held.down,?_,held.upstream⟩,?_,rfl⟩
    · rw [refused]; exact held.disk
    · rw [refused]
  | acquireUpstreamSlot o =>
    have rejected : (step s (.acquireUpstreamSlot o)).upstream =
        UpstreamQueue.answer s.upstream (.rejected shuttingDownError) := by
      show UpstreamQueue.acquireUpstreamSlot s.ctx s.shuttingDown s.upstream o = _
      rw [held.down]
      rfl
    refine ⟨⟨held.down,held.disk,?_⟩,rfl,?_⟩
    · rw [rejected]; exact held.upstream
    · rw [rejected]; rfl
  | shutdown =>
    have same : step s .shutdown = s := if_pos held.down
    rw [same]
    exact ⟨held,rfl,rfl⟩
  | handOffToSession key reservation =>
    have records := path_records id id (fun _ => id) diskPath held.disk
    have leases := path_leases id id upstreamPath held.upstream
    refine ⟨⟨?_,records.1,leases.1⟩,records.2,leases.2⟩
    rw [step]
    split <;> exact held.down
  | _ =>
    have records := path_records id id (fun _ => id) diskPath held.disk
    have leases := path_leases id id upstreamPath held.upstream
    exact ⟨⟨held.down,records.1,leases.1⟩,records.2,leases.2⟩

theorem run_down : ∀ (later : List Op) (s : Service), Down s → (∀ op ∈ later, op ≠ .reset) →
    (later.foldl step s).disk.records.length = s.disk.records.length ∧
      (later.foldl step s).upstream.leases.length = s.upstream.leases.length := by
  intro later
  induction later with
  | nil => intro s _ _; exact ⟨rfl,rfl⟩
  | cons op rest ih =>
    intro s held running
    obtain ⟨held',records,leases⟩ := step_down s op held (running op (by simp))
    obtain ⟨records',leases'⟩ := ih _ held' (fun other member => running other (by simp [member]))
    exact ⟨records'.trans records,leases'.trans leases⟩

theorem step_closed (s : Service) (op : Op) (closed : s.shuttingDown = true → Down s) :
    (step s op).shuttingDown = true → Down (step s op) := by
  cases down : s.shuttingDown with
  | true =>
    intro still
    by_cases running : op = .reset
    · subst running
      cases still
    · exact (step_down s op (closed down) running).1
  | false =>
    intro now
    cases op with
    | shutdown =>
      have shut : step s .shutdown = { s with
          shuttingDown := true
          disk := DiskQueue.shutdown s.ctx s.disk
          upstream := UpstreamQueue.shutdown s.upstream } := if_neg (by simp [down])
      rw [shut]
      exact ⟨rfl,DiskMoves.shutdown_queue s.ctx s.disk,UpstreamMoves.shutdown_queue s.upstream⟩
    | reset => cases now
    | handOffToSession key reservation =>
      rw [step] at now
      split at now
      · exact absurd (down.symm.trans now) (by simp)
      · exact absurd (down.symm.trans now) (by simp)
    | _ => exact absurd (down.symm.trans now) (by simp)

/-- From its beginning on nothing is created, every waiter is rejected, and queues and pool end up
empty. -/
structure GrantsNothing (s : Service) : Prop where
  created : ∀ later : List Op, (∀ op ∈ later, op ≠ .reset) →
    (later.foldl step (step s .shutdown)).disk.records.length = s.disk.records.length ∧
      (later.foldl step (step s .shutdown)).upstream.leases.length = s.upstream.leases.length
  disk : ∀ w ∈ s.disk.waitingDisk,
    DiskEvent.left w.id (.shutdown shuttingDownError) ∈ (step s .shutdown).disk.log
  upstream : ∀ w ∈ s.upstream.waitingUpstream,
    UpstreamQueue.UpstreamEvent.left w.id (.shutdown shuttingDownError) ∈ (step s .shutdown).upstream.log
  queues : (step s .shutdown).disk.waitingDisk = [] ∧ (step s .shutdown).upstream.waitingUpstream = []
  pool : (step s .shutdown).disk.handedOffReservations.entries = []

/-- Up: nobody waits, no pooled reservation is active, or the head is refused even with the pool back.
Down: the pool is empty. -/
def NothingToServe (s : Service) : Prop :=
  if s.shuttingDown then s.disk.handedOffReservations.entries = []
  else Refuses s.ctx s.disk.handedOffReservations.entries s.disk

structure Sound (s : Service) : Prop where
  ledger : Ledger s.disk
  unsettledDisk : DiskMoves.Unsettled s.disk
  unsettledUpstream : UpstreamMoves.Unsettled s.upstream
  closed : s.shuttingDown = true → Down s

theorem reachable_sound {config : Config} {world : World} {evictionHook : Bool}
    (reach : Reachable step (fun _ _ => True) (Coordinator.fresh config world evictionHook) s) : Sound s := by
  obtain ⟨unsettledDisk,ledger⟩ := reachable_disk (ledger_fresh evictionHook) move_ledger reach
  refine ⟨ledger,unsettledDisk,UpstreamMoves.reachable_unsettled reach,?_⟩
  exact reachable_invariant (nofun) (fun t op closed _ => step_closed t op closed) reach

theorem grantsNothing_of_down (sound : Sound s) (down : s.shuttingDown = true) :
    GrantsNothing s ↔ s.disk.handedOffReservations.entries = [] := by
  have held := sound.closed down
  have same : step s .shutdown = s := if_pos down
  constructor
  · intro clean
    have pool := clean.pool
    rwa [same] at pool
  · intro empty
    refine ⟨?_,?_,?_,?_,?_⟩
    · rw [same]
      exact fun later running => run_down later s held running
    · intro w member
      rw [held.disk] at member
      cases member
    · intro w member
      rw [held.upstream] at member
      cases member
    · rw [same]
      exact ⟨held.disk,held.upstream⟩
    · rw [same]
      exact empty

theorem grantsNothing_of_up (sound : Sound s) (up : s.shuttingDown = false) :
    GrantsNothing s ↔ Refuses s.ctx s.disk.handedOffReservations.entries s.disk := by
  have shut : step s .shutdown = { s with
      shuttingDown := true
      disk := DiskQueue.shutdown s.ctx s.disk
      upstream := UpstreamQueue.shutdown s.upstream } := if_neg (by simp [up])
  have stopped : Ledger (stopPollTimer s.disk) := move_ledger s.ctx _ _ _ (.halt s.disk) sound.ledger
  have sameFold : Agree (s.disk.handedOffReservations.entries.foldl giveBack s.disk)
      (s.disk.handedOffReservations.entries.foldl giveBack (stopPollTimer s.disk)) :=
    agree_fold _ ⟨rfl,rfl,rfl⟩
  have pool := shutdownPool_steps s.ctx (stopPollTimer s.disk)
  have inside : Path s.ctx (fun _ => True) (stopPollTimer s.disk) _ := chain_of_kind trivial pool
  have unsettled := path_unsettled inside sound.unsettledDisk
  obtain ⟨records,kept,_,rejected⟩ := fold_shutdownWaiter
    (s.disk.handedOffReservations.entries.foldl (shutdownHandOff s.ctx) (stopPollTimer s.disk)).waitingDisk
    { s.disk.handedOffReservations.entries.foldl (shutdownHandOff s.ctx) (stopPollTimer s.disk) with waitingDisk := [] }
    unsettled
  constructor
  · intro clean head rest queue active admitted
    have more := fold_admitted s.ctx s.disk.handedOffReservations.entries stopped queue active
      ((agree_admitted sameFold).mpr admitted)
    have none_created := (clean.created [] (by simp)).1
    rw [shut] at none_created
    have size : (DiskQueue.shutdown s.ctx s.disk).records.length =
      (s.disk.handedOffReservations.entries.foldl (shutdownHandOff s.ctx) (stopPollTimer s.disk)).records.length :=
      congrArg List.length records
    have before : (stopPollTimer s.disk).records.length = s.disk.records.length := rfl
    simp only [List.foldl_nil] at none_created
    omega
  · intro refuses
    have refuses' : Refuses s.ctx s.disk.handedOffReservations.entries (stopPollTimer s.disk) := by
      intro head rest queue active admitted
      exact refuses head rest queue active
        ((agree_admitted sameFold).mp admitted)
    obtain ⟨size,queue,_⟩ := fold_refused s.ctx s.disk.handedOffReservations.entries stopped refuses'
    obtain ⟨leases,_,rejectedUpstream⟩ := fold_shutdownUpstream s.upstream.waitingUpstream
      { s.upstream with waitingUpstream := [] } sound.unsettledUpstream
    have down : Down (step s .shutdown) := step_closed s .shutdown sound.closed (by rw [shut])
    refine ⟨?_,?_,?_,⟨down.disk,down.upstream⟩,?_⟩
    · intro later running
      obtain ⟨laterRecords,laterLeases⟩ := run_down later _ down running
      refine ⟨laterRecords.trans ?_,laterLeases.trans ?_⟩
      · rw [shut]
        exact (congrArg List.length records).trans size
      · rw [shut]
        exact congrArg List.length leases
    · intro w member
      rw [shut]
      apply rejected
      rw [queue]
      exact member
    · intro w member
      rw [shut]
      exact rejectedUpstream w member
    · rw [shut]
      rw [show (DiskQueue.shutdown s.ctx s.disk).handedOffReservations = _ from kept]
      apply List.eq_nil_iff_forall_not_mem.mpr
      intro left member
      obtain ⟨before,gone⟩ := fold_shutdownHandOff_pool s.ctx _ _ left member
      exact gone (List.mem_map_of_mem before)

/-- A shutdown grants nothing, rejects everyone and empties queues and pool exactly when it could serve
nobody. -/
theorem shutdown_grants_nothing_iff (config : Config) (world : World) (evictionHook : Bool) (s : Service)
    (reach : Reachable step (fun _ _ => True) (Coordinator.fresh config world evictionHook) s) :
    GrantsNothing s ↔ NothingToServe s := by
  have sound := reachable_sound reach
  unfold NothingToServe
  cases down : s.shuttingDown with
  | true => simpa using grantsNothing_of_down sound down
  | false => simpa using grantsNothing_of_up sound down

def secondWaits : List Op :=
  [.reserve ⟨"file:1",.whole 8,false,.absent⟩,.reserve ⟨"file:2",.whole 8,false,.absent⟩]

theorem secondWaits_rejected : GrantsNothing (after defaultConfig 10 secondWaits) := by
  refine (shutdown_grants_nothing_iff defaultConfig (volume 0 10) false _
    (reachable_run .start secondWaits (by simp [secondWaits,Legal]))).mpr ?_
  have up : (after defaultConfig 10 secondWaits).shuttingDown = false := by decide +kernel
  have pool : (after defaultConfig 10 secondWaits).disk.handedOffReservations.entries = [] := by decide +kernel
  show NothingToServe (after defaultConfig 10 secondWaits)
  unfold NothingToServe
  rw [pool]
  rintro head rest _ ⟨entry,member,_⟩
  cases member

def secondWaitsForPool : List Op :=
  [.reserve ⟨"file:1",.whole 8,false,.absent⟩,.handOffToSession "file:1" 0,.reserve ⟨"file:2",.whole 8,false,.absent⟩]

/-- The waiter gets its reservation in the middle of the shutdown. -/
theorem waiter_granted_by_shutdown :
    (after defaultConfig 10 secondWaitsForPool).disk.records.length = 1 ∧
    (step (after defaultConfig 10 secondWaitsForPool) .shutdown).disk.records.length = 2 ∧
    ¬ GrantsNothing (after defaultConfig 10 secondWaitsForPool) := by
  have before : (after defaultConfig 10 secondWaitsForPool).disk.records.length = 1 := by decide +kernel
  have afterwards : (step (after defaultConfig 10 secondWaitsForPool) .shutdown).disk.records.length = 2 := by
    decide +kernel
  refine ⟨before,afterwards,?_⟩
  intro clean
  have same := (clean.created [] (by simp)).1
  simp only [List.foldl_nil] at same
  omega

end Tgtc.Shutdown
