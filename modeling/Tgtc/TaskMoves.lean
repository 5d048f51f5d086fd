import Tgtc.Deliveries
import Tgtc.DownloadTask

/-!
What an operation of the task service can do, said once. Every operation is a sequence of moves, and an invariant is
proved move by move.
-/
namespace Tgtc.TaskMoves
open Resources Maps Runs DiskQueue DiskMoves Settlement Deliveries
open Coordinator (Service Op onDisk)
open DownloadTask
open Relation (ReflTransGen)

structure Alike (r r' : DownloadTaskRecord) : Prop where
  reservation : r'.reservation = r.reservation
  ticket : r'.ticket = r.ticket
  handedOff : r'.handedOff = r.handedOff
  acquiring : r'.acquiring = r.acquiring
  expiresAt : r'.expiresAt = r.expiresAt
  expectedSize : r'.expectedSize = r.expectedSize
  sessionKey : r'.sessionKey = r.sessionKey

structure Idle (r : DownloadTaskRecord) : Prop where
  reservation : r.reservation = none
  ticket : r.ticket = none
  handedOff : r.handedOff = false
  acquiring : r.acquiring = none

inductive TaskMove : TaskService → TaskService → Prop
  | coordinate (s : TaskService) (resources : Service) (path : Path resources.ctx Quiet s.disk resources.disk)
      (forward : s.now ≤ resources.world.now) : TaskMove s { s with resources := resources }
  | read (s : TaskService) (cached : String → Bool) (retention : Retention) (sweepTimer : Bool) :
      TaskMove s { s with cached := cached, retention := retention, sweepTimer := sweepTimer }
  | add (s : TaskService) (record : DownloadTaskRecord) (idle : Idle record) : TaskMove s (addTask s record)
  | note (s : TaskService) (task : Nat) (f : DownloadTaskRecord → DownloadTaskRecord)
      (alike : ∀ record, s.records[task]? = some record → Alike record (f record))
      (status : ∀ record, s.records[task]? = some record → (f record).status = .queued →
        task ∈ s.tasks ∨ record.status = .queued) : TaskMove s (amend s task f)
  | start (s : TaskService) (task : Nat) (record : DownloadTaskRecord) (found : s.records[task]? = some record)
      (idle : Idle record) (resources : Service) (path : Path resources.ctx Quiet s.disk resources.disk)
      (forward : s.now ≤ resources.world.now) (numbered : s.disk.nextRequest < resources.disk.nextRequest)
      (asked : DiskSettled s.disk → Asked resources.disk s.disk.nextRequest record.expectedSize) :
      TaskMove s (amend { s with resources := resources } task
        (fun r => { r with acquiring := some ⟨s.disk.nextRequest,false⟩ }))
  | hold (s : TaskService) (task : Nat) (record : DownloadTaskRecord) (found : s.records[task]? = some record)
      (idle : Idle record) (reservation : Nat) (d d' : Disk) (steps : Steps s.resources.ctx s.disk d)
      (out : Move s.resources.ctx (.out reservation) d d') (enough : record.expectedSize ≤ grantedBytes d' reservation) :
      TaskMove s (amend { s with resources := onDisk s.resources d' } task
        (fun r => { r with reservation := some reservation }))
  | issue (s : TaskService) (task : Nat) (record : DownloadTaskRecord) (found : s.records[task]? = some record)
      (present : task ∈ s.tasks) (holds : record.reservation.isSome) (unissued : record.ticket = none) :
      TaskMove s (issueTicket s task)
  | revoke (s : TaskService) (task : Nat) (record : DownloadTaskRecord) (found : s.records[task]? = some record)
      (ticket : Nat) (issued : record.ticket = some ticket) :
      TaskMove s { amend s task (fun r => { r with ticket := none, ticketExpiresAt := none }) with
        ticketIndex := s.ticketIndex.delete ticket }
  | clear (s : TaskService) (task : Nat) (record : DownloadTaskRecord) (found : s.records[task]? = some record)
      (unissued : record.ticket = none)
      (dead : ∀ reservation, record.reservation = some reservation → isActive s.disk reservation = false) :
      TaskMove s (amend s task (fun r => { r with reservation := none }))
  | keep (s : TaskService) (task : Nat) (record : DownloadTaskRecord) (found : s.records[task]? = some record)
      (request reservation : Nat) (awaits : record.acquiring = some ⟨request,false⟩)
      (yielded : delivered s.disk request = some reservation) :
      TaskMove s (amend s task (fun r => { finishCall r with reservation := some reservation }))
  | finish (s : TaskService) (task : Nat) (record : DownloadTaskRecord) (found : s.records[task]? = some record)
      (request : Nat) (awaits : record.acquiring = some ⟨request,false⟩)
      (settled : settlement s.disk request ≠ none)
      (dead : ∀ reservation, delivered s.disk request = some reservation → isActive s.disk reservation = false) :
      TaskMove s (amend s task finishCall)
  | handOff (s : TaskService) (task : Nat) (record : DownloadTaskRecord) (found : s.records[task]? = some record)
      (unissued : record.ticket = none) (reservation : Nat) (holds : record.reservation = some reservation)
      (dead : ∀ entry, s.disk.handedOffReservations.get record.sessionKey = some entry →
        entry.reservation = reservation ∨ isActive s.disk entry.reservation = false) (message : Option String) :
      TaskMove s (amend { s with resources := onDisk s.resources { s.disk with
          handedOffReservations := s.disk.handedOffReservations.set record.sessionKey
            ⟨reservation,s.now + handoffTtlMs⟩ } } task
        (fun r => { r with reservation := none, handedOff := true, updatedAt := s.now, message := message }))
  | drop (s : TaskService) (tasks : List Nat) (fewer : ∀ task ∈ tasks, task ∈ s.tasks)
      (ended : ∀ (task : Nat) (record : DownloadTaskRecord), task ∈ s.tasks → task ∉ tasks → s.records[task]? = some record →
        record.ticket = none ∧ (record.status = .queued → record.expiresAt < s.now)) :
      TaskMove s { s with tasks := tasks }

abbrev TaskSteps : TaskService → TaskService → Prop := ReflTransGen TaskMove

variable {task : Nat} {record : DownloadTaskRecord} {s s' : TaskService} {reservation ticket : Nat}

theorem records_amend
    (found : s.records[task]? = some record) (f : DownloadTaskRecord → DownloadTaskRecord) :
    (amend s task f).records[task]? = some (f record) := by
  simp [amend,found]

theorem records_amend_other (s : TaskService) {other : Nat} (different : other ≠ task)
    (f : DownloadTaskRecord → DownloadTaskRecord) : (amend s task f).records[other]? = s.records[other]? :=
  List.getElem?_modify_ne f s.records different.symm

theorem amend_cases {other : Nat} {f : DownloadTaskRecord → DownloadTaskRecord}
    (found : (amend s task f).records[other]? = some record) :
    (other = task ∧ ∃ before, s.records[task]? = some before ∧ record = f before) ∨
      (other ≠ task ∧ s.records[other]? = some record) := by
  by_cases here : other = task
  · subst here
    rw [amend,List.getElem?_modify_eq] at found
    obtain ⟨before,present,rfl⟩ := Option.map_eq_some_iff.mp found
    exact .inl ⟨rfl,before,present,rfl⟩
  · exact .inr ⟨here,by rwa [records_amend_other s here] at found⟩

/-! ### Tickets -/

theorem issueTicket_resources (s : TaskService) (task : Nat) : (issueTicket s task).resources = s.resources := by
  unfold issueTicket
  split <;> rfl

theorem issueTicket_records
    (found : s.records[task]? = some record) : (issueTicket s task).records = (amend s task (fun r =>
      { r with ticket := some s.nextTicket, ticketExpiresAt := some (s.now + taskTicketTtlMs) })).records := by
  simp [issueTicket,found]

structure Coherent (r : DownloadTaskRecord) : Prop where
  awaiting : ∀ request, r.acquiring = some ⟨request,false⟩ → r.reservation = none ∧ r.handedOff = false
  transferred : r.handedOff = true → r.reservation = none
  ticketed : r.ticket.isSome → r.reservation.isSome

/-- The index and the records name the same tickets, and only tasks that are over have left the map. -/
structure Tickets (s : TaskService) : Prop where
  listed : ∀ task ∈ s.tasks, task < s.records.length
  indexed : ∀ (ticket task : Nat), s.ticketIndex.get ticket = some task →
    task ∈ s.tasks ∧ ∃ record, s.records[task]? = some record ∧ record.ticket = some ticket
  current : ∀ (task : Nat) (record : DownloadTaskRecord) (ticket : Nat), s.records[task]? = some record → record.ticket = some ticket →
    s.ticketIndex.get ticket = some task ∧ ticket < s.nextTicket
  present : ∀ (task : Nat) (record : DownloadTaskRecord), s.records[task]? = some record → record.status = .queued →
    (s.now : ℚ) ≤ record.expiresAt → task ∈ s.tasks
  coherent : ∀ (task : Nat) (record : DownloadTaskRecord), s.records[task]? = some record → Coherent record

theorem tickets_fresh (config : Config) (world : World) (evictionHook : Bool) (cached : String → Bool)
    (retention : Retention) : Tickets (fresh config world evictionHook cached retention) where
  listed := fun _ member => absurd member (by simp [DownloadTask.fresh])
  indexed := nofun
  current := fun _ _ _ found => by simp [DownloadTask.fresh] at found
  present := fun _ _ found => by simp [DownloadTask.fresh] at found
  coherent := fun _ _ found => by simp [DownloadTask.fresh] at found

theorem tickets_amend (tickets : Tickets s) {f : DownloadTaskRecord → DownloadTaskRecord}
    (records : s'.records = (amend s task f).records) (tasks : s'.tasks = s.tasks) (index : s'.ticketIndex = s.ticketIndex)
    (next : s'.nextTicket = s.nextTicket) (now : s.now ≤ s'.now)
    (same : ∀ record, s.records[task]? = some record → (f record).ticket = record.ticket ∧
      (f record).expiresAt = record.expiresAt ∧
      ((f record).status = .queued → task ∈ s.tasks ∨ record.status = .queued) ∧ Coherent (f record)) :
    Tickets s' := by
  refine ⟨?_,?_,?_,?_,?_⟩
  · intro t member
    rw [tasks] at member
    rw [records]
    simpa [amend] using tickets.listed t member
  · intro ticket t found
    rw [index] at found
    obtain ⟨member,record,present,issued⟩ := tickets.indexed ticket t found
    rw [tasks,records]
    refine ⟨member,?_⟩
    by_cases here : t = task
    · subst here
      exact ⟨f record,records_amend present f,(same record present).1.trans issued⟩
    · exact ⟨record,(records_amend_other s here f).trans present,issued⟩
  · intro t record ticket found issued
    rw [records] at found
    rw [index,next]
    rcases amend_cases found with ⟨rfl,before,present,rfl⟩ | ⟨_,present⟩
    · exact tickets.current t before ticket present ((same before present).1.symm.trans issued)
    · exact tickets.current t record ticket present issued
  · intro t record found queued inTime
    rw [records] at found
    rw [tasks]
    have earlier : (s.now : ℚ) ≤ s'.now := by exact_mod_cast now
    rcases amend_cases found with ⟨rfl,before,present,rfl⟩ | ⟨_,present⟩
    · obtain ⟨_,expires,status,_⟩ := same before present
      rcases status queued with member | was
      · exact member
      · exact tickets.present t before present was (earlier.trans (expires ▸ inTime))
    · exact tickets.present t record present queued (earlier.trans inTime)
  · intro t record found
    rw [records] at found
    rcases amend_cases found with ⟨rfl,before,present,rfl⟩ | ⟨_,present⟩
    · exact (same before present).2.2.2
    · exact tickets.coherent t record present

section
variable {s : TaskService} {task : Nat} {record : DownloadTaskRecord}

theorem tickets_add (tickets : Tickets s) (idle : Idle record) : Tickets (addTask s record) := by
  have older : ∀ (t : Nat) r, (addTask s record).records[t]? = some r →
      s.records[t]? = some r ∨ (t = s.records.length ∧ r = record) := by
    intro t r found
    rcases Nat.lt_trichotomy t s.records.length with old | rfl | beyond
    · exact .inl (by simpa [addTask,List.getElem?_append_left old] using found)
    · exact .inr ⟨rfl,by simpa [addTask,eq_comm] using found⟩
    · simp [addTask,List.getElem?_append_right (Nat.le_of_lt beyond),
        List.getElem?_eq_none (show [record].length ≤ t - s.records.length by simp; omega)] at found
  have kept : ∀ (t : Nat) r, s.records[t]? = some r → (addTask s record).records[t]? = some r := by
    intro t r found
    have known := at_lt found
    simpa [addTask,List.getElem?_append_left known] using found
  refine ⟨?_,?_,?_,?_,?_⟩
  · intro t member
    simp only [addTask,List.mem_append,List.mem_singleton,List.length_append] at member ⊢
    rcases member with old | rfl
    · exact Nat.lt_succ_of_lt (tickets.listed t old)
    · exact Nat.lt_succ_self _
  · intro ticket t found
    obtain ⟨member,r,present,issued⟩ := tickets.indexed ticket t found
    exact ⟨List.mem_append_left _ member,r,kept t r present,issued⟩
  · intro t r ticket found issued
    rcases older t r found with old | ⟨rfl,rfl⟩
    · exact tickets.current t r ticket old issued
    · rw [idle.ticket] at issued
      cases issued
  · intro t r found queued inTime
    rcases older t r found with old | ⟨rfl,rfl⟩
    · exact List.mem_append_left _ (tickets.present t r old queued inTime)
    · exact List.mem_append_right _ (by simp)
  · intro t r found
    rcases older t r found with old | ⟨rfl,rfl⟩
    · exact tickets.coherent t r old
    · exact ⟨fun request awaits => (by simp [idle.acquiring] at awaits),fun _ => idle.reservation,
        fun issued => (by simp [idle.ticket] at issued)⟩

theorem tickets_issue (tickets : Tickets s) (found : s.records[task]? = some record) (present : task ∈ s.tasks)
    (holds : record.reservation.isSome) (unissued : record.ticket = none) : Tickets (issueTicket s task) := by
  have coherent := tickets.coherent task record found
  have shape : issueTicket s task = { amend s task (fun r =>
      { r with ticket := some s.nextTicket, ticketExpiresAt := some (s.now + taskTicketTtlMs) }) with
      ticketIndex := s.ticketIndex.set s.nextTicket task, nextTicket := s.nextTicket + 1 } := by
    simp [issueTicket,found,unissued]
  have older : ∀ (t : Nat) r ticket, s.records[t]? = some r → r.ticket = some ticket → ticket ≠ s.nextTicket :=
    fun t r ticket here issued => Nat.ne_of_lt (tickets.current t r ticket here issued).2
  rw [shape]
  refine ⟨?_,?_,?_,?_,?_⟩
  · intro t member
    simpa [amend] using tickets.listed t member
  · intro ticket t indexed
    by_cases new : ticket = s.nextTicket
    · subst new
      obtain rfl : task = t := Option.some.inj ((get_set_same s.ticketIndex s.nextTicket task).symm.trans indexed)
      exact ⟨present,_,records_amend found _,rfl⟩
    · have before := (get_set_other s.ticketIndex task new).symm.trans indexed
      obtain ⟨member,r,here,issued⟩ := tickets.indexed ticket t before
      have other : t ≠ task := by
        rintro rfl
        rw [found] at here
        cases here
        rw [unissued] at issued
        cases issued
      exact ⟨member,r,(records_amend_other s other _).trans here,issued⟩
  · intro t r ticket here issued
    rcases amend_cases here with ⟨rfl,before,_,rfl⟩ | ⟨_,old⟩
    · cases issued
      exact ⟨get_set_same _ _ _,Nat.lt_succ_self _⟩
    · obtain ⟨indexed,below⟩ := tickets.current t r ticket old issued
      exact ⟨(get_set_other _ _ (older t r ticket old issued)).trans indexed,Nat.lt_succ_of_lt below⟩
  · intro t r here queued inTime
    rcases amend_cases here with ⟨rfl,_⟩ | ⟨_,old⟩
    · exact present
    · exact tickets.present t r old queued inTime
  · intro t r here
    rcases amend_cases here with ⟨rfl,before,same,rfl⟩ | ⟨_,old⟩
    · obtain rfl : record = before := Option.mem_unique found same
      exact ⟨coherent.awaiting,coherent.transferred,fun _ => holds⟩
    · exact tickets.coherent t r old

theorem tickets_revoke (tickets : Tickets s) (found : s.records[task]? = some record) {ticket : Nat}
    (issued : record.ticket = some ticket) :
    Tickets { amend s task (fun r => { r with ticket := none, ticketExpiresAt := none }) with
      ticketIndex := s.ticketIndex.delete ticket } := by
  have coherent := tickets.coherent task record found
  have mine := (tickets.current task record ticket found issued).1
  refine ⟨?_,?_,?_,?_,?_⟩
  · intro t member
    simpa [amend] using tickets.listed t member
  · intro other t indexed
    have different : other ≠ ticket := by
      rintro rfl
      rw [show ({ amend s task _ with ticketIndex := s.ticketIndex.delete other } : TaskService).ticketIndex.get other =
        none from get_delete_same s.ticketIndex other] at indexed
      cases indexed
    have before := (get_delete_other s.ticketIndex different).symm.trans indexed
    obtain ⟨member,r,here,held⟩ := tickets.indexed other t before
    have elsewhere : t ≠ task := by
      rintro rfl
      rw [found] at here
      cases here
      exact different (Option.mem_unique held issued)
    exact ⟨member,r,(records_amend_other s elsewhere _).trans here,held⟩
  · intro t r other here held
    rcases amend_cases here with ⟨rfl,before,_,rfl⟩ | ⟨elsewhere,old⟩
    · cases held
    · obtain ⟨indexed,below⟩ := tickets.current t r other old held
      have different : other ≠ ticket := by
        rintro rfl
        exact elsewhere (Option.mem_unique indexed mine)
      exact ⟨(get_delete_other s.ticketIndex different).trans indexed,below⟩
  · intro t r here queued inTime
    rcases amend_cases here with ⟨rfl,before,same,rfl⟩ | ⟨_,old⟩
    · exact tickets.present t before same queued inTime
    · exact tickets.present t r old queued inTime
  · intro t r here
    rcases amend_cases here with ⟨rfl,before,same,rfl⟩ | ⟨_,old⟩
    · obtain rfl : record = before := Option.mem_unique found same
      exact ⟨coherent.awaiting,coherent.transferred,fun none => (by cases none)⟩
    · exact tickets.coherent t r old

end

theorem move_tickets (move : TaskMove s s') (tickets : Tickets s) : Tickets s' := by
  cases move with
  | coordinate resources path forward =>
    refine ⟨tickets.listed,tickets.indexed,tickets.current,?_,tickets.coherent⟩
    intro task record found queued inTime
    have earlier : (s.now : ℚ) ≤ resources.world.now := by exact_mod_cast forward
    exact tickets.present task record found queued (earlier.trans inTime)
  | read => exact { tickets with }
  | add record idle => exact tickets_add tickets idle
  | note task f alike status =>
    refine tickets_amend tickets rfl rfl rfl rfl (le_refl _) fun record found => ?_
    have same := alike record found
    have coherent := tickets.coherent task record found
    refine ⟨same.ticket,same.expiresAt,status record found,?_,?_,?_⟩
    · intro request awaits
      rw [same.reservation,same.handedOff]
      exact coherent.awaiting request (same.acquiring ▸ awaits)
    · intro handed
      rw [same.reservation]
      exact coherent.transferred (same.handedOff ▸ handed)
    · intro issued
      rw [same.reservation]
      exact coherent.ticketed (same.ticket ▸ issued)
  | start task record found idle resources path forward =>
    refine tickets_amend (s := s) tickets rfl rfl rfl rfl forward fun r here => ?_
    obtain rfl : record = r := Option.mem_unique found here
    exact ⟨rfl,rfl,.inr,fun _ _ => ⟨idle.reservation,idle.handedOff⟩,fun _ => idle.reservation,
      fun issued => (by simp [idle.ticket] at issued)⟩
  | hold task record found idle reservation d d' steps out =>
    refine tickets_amend (s := s) tickets rfl rfl rfl rfl (le_refl _) fun r here => ?_
    obtain rfl : record = r := Option.mem_unique found here
    exact ⟨rfl,rfl,.inr,fun _ awaits => (by simp [idle.acquiring] at awaits),
      fun handed => (by simp [idle.handedOff] at handed),fun _ => rfl⟩
  | issue task record found present holds unissued => exact tickets_issue tickets found present holds unissued
  | revoke task record found ticket issued => exact tickets_revoke tickets found issued
  | clear task record found unissued dead =>
    refine tickets_amend tickets rfl rfl rfl rfl (le_refl _) fun r here => ?_
    obtain rfl : record = r := Option.mem_unique found here
    have coherent := tickets.coherent task record found
    exact ⟨rfl,rfl,.inr,fun request awaits => ⟨rfl,(coherent.awaiting request awaits).2⟩,fun _ => rfl,
      fun issued => (by simp [unissued] at issued)⟩
  | keep task record found request reservation awaits yielded =>
    refine tickets_amend tickets rfl rfl rfl rfl (le_refl _) fun r here => ?_
    obtain rfl : record = r := Option.mem_unique found here
    have idle := (tickets.coherent task record found).awaiting request awaits
    exact ⟨rfl,rfl,.inr,fun other pending => (by simp [finishCall] at pending),
      fun handed => (by simp [finishCall,idle.2] at handed),fun _ => rfl⟩
  | finish task record found request awaits settled dead =>
    refine tickets_amend tickets rfl rfl rfl rfl (le_refl _) fun r here => ?_
    obtain rfl : record = r := Option.mem_unique found here
    have coherent := tickets.coherent task record found
    exact ⟨rfl,rfl,.inr,fun other pending => (by simp [finishCall] at pending),coherent.transferred,
      coherent.ticketed⟩
  | handOff task record found unissued reservation holds dead message =>
    refine tickets_amend (s := s) tickets rfl rfl rfl rfl (le_refl _) fun r here => ?_
    obtain rfl : record = r := Option.mem_unique found here
    have coherent := tickets.coherent task record found
    refine ⟨rfl,rfl,.inr,fun request awaits => ?_,fun _ => rfl,fun issued => (by simp [unissued] at issued)⟩
    rw [(coherent.awaiting request awaits).1] at holds
    cases holds
  | drop tasks fewer ended =>
    refine ⟨fun t member => tickets.listed t (fewer t member),?_,tickets.current,?_,tickets.coherent⟩
    · intro ticket t indexed
      obtain ⟨member,r,here,issued⟩ := tickets.indexed ticket t indexed
      refine ⟨?_,r,here,issued⟩
      by_contra gone
      rw [(ended t r member gone here).1] at issued
      cases issued
    · intro t r here queued inTime
      have member := tickets.present t r here queued inTime
      by_contra gone
      exact absurd ((ended t r member gone here).2 queued) (not_lt.mpr inTime)

theorem steps_tickets (steps : TaskSteps s s') (tickets : Tickets s) : Tickets s' := by
  induction steps with
  | refl => exact tickets
  | tail _ move ih => exact move_tickets move ih

/-! ### Releasing what a task holds -/

theorem disk_move (s : TaskService) {d : Disk} (steps : Steps s.resources.ctx s.disk d) :
    TaskMove s { s with resources := onDisk s.resources d } :=
  .coordinate s (onDisk s.resources d) (chain_of_kind (show Quiet .inner from trivial) steps) (le_refl _)

theorem modify_fixed {f : DownloadTaskRecord → DownloadTaskRecord} {task : Nat} {records : List DownloadTaskRecord}
    (fixed : ∀ record, records[task]? = some record → f record = record) : records.modify task f = records := by
  apply List.ext_getElem?
  intro t
  rw [List.getElem?_modify]
  by_cases here : task = t
  · subst here
    cases found : records[task]? with
    | none => rfl
    | some record => simp [fixed record found]
  · simp [here]

theorem modify_absent {records : List DownloadTaskRecord} (absent : records[task]? = none)
    (f : DownloadTaskRecord → DownloadTaskRecord) : records.modify task f = records :=
  modify_fixed fun record found => by rw [absent] at found; cases found

def unticketed (r : DownloadTaskRecord) : DownloadTaskRecord :=
  { r with ticket := none, ticketExpiresAt := if r.ticket.isSome then none else r.ticketExpiresAt }

/-- A record after `releaseResources`. -/
def stripped (r : DownloadTaskRecord) : DownloadTaskRecord :=
  { unticketed r with aborted := true, reservation := none }

theorem revokeTicket_records (s : TaskService) (task : Nat) :
    (revokeTicket s task).records = s.records.modify task unticketed := by
  unfold revokeTicket
  cases found : s.records[task]? with
  | none => exact (modify_absent found _).symm
  | some record =>
    cases issued : record.ticket with
    | none =>
      simp only [Option.bind_some,issued]
      refine (modify_fixed fun r here => ?_).symm
      obtain rfl : record = r := Option.mem_unique found here
      cases record
      cases issued
      rfl
    | some ticket =>
      simp only [Option.bind_some,issued,amend]
      apply List.ext_getElem?
      intro t
      by_cases here : task = t
      · subst here
        simp [found,unticketed,issued]
      · simp [here]

theorem abort_records (s : TaskService) (task : Nat) :
    (abort s task).records = s.records.modify task (fun r => { r with aborted := true }) := by
  unfold abort
  cases found : s.records[task]? with
  | none => exact (modify_absent found _).symm
  | some record =>
    cases ended : record.aborted with
    | true =>
      simp only [ended]
      refine (modify_fixed fun r here => ?_).symm
      obtain rfl : record = r := Option.mem_unique found here
      cases record
      cases ended
      rfl
    | false =>
      simp only [ended,Bool.false_eq_true,↓reduceIte]
      split <;> rfl

theorem returnReservation_records (s : TaskService) (task : Nat) :
    (returnReservation s task).records = s.records.modify task (fun r => { r with reservation := none }) := by
  unfold returnReservation
  cases found : s.records[task]? with
  | none => exact (modify_absent found _).symm
  | some record =>
    cases holds : record.reservation with
    | none =>
      simp only [Option.bind_some,holds]
      refine (modify_fixed fun r here => ?_).symm
      obtain rfl : record = r := Option.mem_unique found here
      cases record
      cases holds
      rfl
    | some reservation =>
      simp only [Option.bind_some,holds]
      rfl

theorem releaseResources_records (s : TaskService) (task : Nat) :
    (releaseResources s task).records = (amend s task stripped).records := by
  rw [releaseResources,returnReservation_records,abort_records,revokeTicket_records,List.modify_modify_eq,
    List.modify_modify_eq]
  rfl

theorem releaseResources_frame (s : TaskService) (task : Nat) :
    (releaseResources s task).tasks = s.tasks ∧ (releaseResources s task).now = s.now := by
  have returned : ∀ s, (returnReservation s task).tasks = s.tasks ∧ (returnReservation s task).now = s.now := by
    intro s
    unfold returnReservation
    split <;> exact ⟨rfl,rfl⟩
  have aborted : ∀ s, (abort s task).tasks = s.tasks ∧ (abort s task).now = s.now := by
    intro s
    unfold abort
    split
    · exact ⟨rfl,rfl⟩
    · split
      · exact ⟨rfl,rfl⟩
      · split <;> exact ⟨rfl,rfl⟩
  have revoked : ∀ s, (revokeTicket s task).tasks = s.tasks ∧ (revokeTicket s task).now = s.now := by
    intro s
    unfold revokeTicket
    split <;> exact ⟨rfl,rfl⟩
  rw [releaseResources,(returned _).1,(aborted _).1,(revoked _).1,(returned _).2,(aborted _).2,(revoked _).2]
  exact ⟨rfl,rfl⟩

theorem releaseResources_tasks (s : TaskService) (task : Nat) : (releaseResources s task).tasks = s.tasks :=
  (releaseResources_frame s task).1

theorem revokeTicket_steps (s : TaskService) (task : Nat) : TaskSteps s (revokeTicket s task) := by
  unfold revokeTicket
  cases found : s.records[task]? with
  | none => exact .refl
  | some record =>
    cases issued : record.ticket with
    | none => simp only [Option.bind_some,issued]; exact .refl
    | some ticket =>
      simp only [Option.bind_some,issued]
      exact .single (.revoke s task record found ticket issued)

theorem abort_steps (s : TaskService) (task : Nat) : TaskSteps s (abort s task) := by
  unfold abort
  split
  · exact .refl
  next record found =>
  split
  · exact .refl
  · have noted : TaskMove s (amend s task (fun r => { r with aborted := true })) :=
      .note s task _ (fun _ _ => ⟨rfl,rfl,rfl,rfl,rfl,rfl,rfl⟩) (fun _ _ => .inr)
    split
    · exact .single noted
    · next call _ => exact .tail (.single noted) (disk_move _ (fireAbort_steps _ _ call.request))

theorem returnReservation_steps (s : TaskService) (task : Nat)
    (unissued : ∀ record, s.records[task]? = some record → record.ticket = none) :
    TaskSteps s (returnReservation s task) := by
  unfold returnReservation
  cases found : s.records[task]? with
  | none => exact .refl
  | some record =>
    cases holds : record.reservation with
    | none => simp only [Option.bind_some,holds]; exact .refl
    | some reservation =>
      simp only [Option.bind_some,holds]
      have released := disk_move s (releaseReservation_steps s.resources.ctx s.disk reservation)
      refine .tail (.single released) (.clear _ task record found (unissued record found) ?_)
      intro other same
      obtain rfl : reservation = other := Option.mem_unique holds same
      exact releaseReservation_inactive s.resources.ctx s.disk reservation

theorem releaseResources_steps (s : TaskService) (task : Nat) : TaskSteps s (releaseResources s task) := by
  refine ((revokeTicket_steps s task).trans (abort_steps _ task)).trans (returnReservation_steps _ task ?_)
  intro record found
  rw [abort_records,revokeTicket_records,List.modify_modify_eq,List.getElem?_modify_eq] at found
  obtain ⟨before,_,rfl⟩ := Option.map_eq_some_iff.mp found
  rfl

/-! ### Evaluation -/

theorem alike_refl (r : DownloadTaskRecord) : Alike r r := ⟨rfl,rfl,rfl,rfl,rfl,rfl,rfl⟩

theorem alike_appraise (s : TaskService) (r : DownloadTaskRecord) : Alike r (appraise s r) := by
  unfold appraise
  split
  · split
    · exact ⟨rfl,rfl,rfl,rfl,rfl,rfl,rfl⟩
    · exact alike_refl r
  · split
    · exact ⟨rfl,rfl,rfl,rfl,rfl,rfl,rfl⟩
    unfold probed
    split
    · exact ⟨rfl,rfl,rfl,rfl,rfl,rfl,rfl⟩
    · split
      · exact ⟨rfl,rfl,rfl,rfl,rfl,rfl,rfl⟩
      · exact ⟨rfl,rfl,rfl,rfl,rfl,rfl,rfl⟩

/-- What an evaluation leaves of a record: what it held, or what a release leaves of that. -/
def Evaluated (r r' : DownloadTaskRecord) : Prop := Alike r r' ∨ Alike (stripped r) r'

theorem evaluated_alike {r r' r'' : DownloadTaskRecord} (first : Evaluated r r') (second : Alike r' r'') :
    Evaluated r r'' := by
  have joined : ∀ {a b c}, Alike a b → Alike b c → Alike a c := fun f g =>
    ⟨g.1.trans f.1,g.2.trans f.2,g.3.trans f.3,g.4.trans f.4,g.5.trans f.5,g.6.trans f.6,g.7.trans f.7⟩
  exact first.imp (joined · second) (joined · second)

theorem evaluateTicket_steps (s : TaskService) (member : task ∈ s.tasks) :
    TaskSteps s (evaluateTicket s task) ∧ (evaluateTicket s task).tasks = s.tasks ∧
      ∀ record, s.records[task]? = some record →
        ∃ after, (evaluateTicket s task).records[task]? = some after ∧ Evaluated record after := by
  unfold evaluateTicket
  split
  · next absent => exact ⟨.refl,rfl,fun record found => by rw [absent] at found; cases found⟩
  next before found =>
  split
  · have still : task ∈ (releaseResources s task).tasks := by rwa [releaseResources_tasks]
    refine ⟨(releaseResources_steps s task).tail (.note _ task _ (fun _ _ => ⟨rfl,rfl,rfl,rfl,rfl,rfl,rfl⟩)
      (fun _ _ _ => .inl still)),releaseResources_tasks s task,?_⟩
    intro record here
    have released : (releaseResources s task).records[task]? = some (stripped record) := by
      rw [releaseResources_records]
      exact records_amend here stripped
    exact ⟨_,records_amend released _,.inr ⟨rfl,rfl,rfl,rfl,rfl,rfl,rfl⟩⟩
  · exact ⟨.refl,rfl,fun record here => ⟨record,here,.inl (alike_refl record)⟩⟩

theorem evaluate_steps (s : TaskService) (member : task ∈ s.tasks) :
    TaskSteps s (evaluate s task) ∧ (evaluate s task).tasks = s.tasks ∧
      ∀ record, s.records[task]? = some record →
        ∃ after, (evaluate s task).records[task]? = some after ∧ Evaluated record after := by
  unfold evaluate
  split
  · next absent => exact ⟨.refl,rfl,fun record found => by rw [absent] at found; cases found⟩
  next before found =>
  split
  · exact ⟨.refl,rfl,fun record here => ⟨record,here,.inl (alike_refl record)⟩⟩
  have touched : TaskMove s (amend s task (fun r => { r with updatedAt := s.now })) :=
    .note s task _ (fun _ _ => ⟨rfl,rfl,rfl,rfl,rfl,rfl,rfl⟩) (fun _ _ => .inr)
  have still : task ∈ (amend s task (fun r => { r with updatedAt := s.now })).tasks := member
  split
  · refine ⟨.head touched ((releaseResources_steps _ task).tail
      (.note _ task _ (fun _ _ => ⟨rfl,rfl,rfl,rfl,rfl,rfl,rfl⟩) (fun _ _ queued => by cases queued))),
      releaseResources_tasks _ task,?_⟩
    intro record here
    have released : (releaseResources (amend s task (fun r => { r with updatedAt := s.now })) task).records[task]? =
        some (stripped { record with updatedAt := s.now }) := by
      rw [releaseResources_records]
      exact records_amend (records_amend here _) stripped
    exact ⟨_,records_amend released _,.inr ⟨rfl,rfl,rfl,rfl,rfl,rfl,rfl⟩⟩
  · obtain ⟨steps,tasks,kept⟩ := evaluateTicket_steps _ still
    refine ⟨.head touched (steps.tail (.note _ task _ (fun _ _ => alike_appraise _ _) (fun _ _ _ => .inl ?_))),tasks,?_⟩
    · rw [tasks]
      exact still
    · intro record here
      obtain ⟨after,present,evaluated⟩ := kept _ (records_amend here _)
      refine ⟨_,records_amend present _,evaluated_alike ?_ (alike_appraise _ _)⟩
      rcases evaluated with same | same
      · exact .inl { same with }
      · exact .inr { same with }

theorem idle_evaluated {r r' : DownloadTaskRecord} (idle : Idle r) (evaluated : Evaluated r r') : Idle r' := by
  rcases evaluated with same | same
  · exact ⟨same.reservation.trans idle.reservation,same.ticket.trans idle.ticket,same.handedOff.trans idle.handedOff,
      same.acquiring.trans idle.acquiring⟩
  · exact ⟨same.reservation,same.ticket,same.handedOff.trans idle.handedOff,same.acquiring.trans idle.acquiring⟩

theorem acquireReservation_steps (s : TaskService)
    (found : s.records[task]? = some record) (idle : Idle record) : TaskSteps s (acquireReservation s task) := by
  unfold acquireReservation
  simp only [found]
  split
  · exact .refl
  split
  · exact .refl
  refine .single (.start s task record found idle _ ?_ (le_refl _) ?_ ?_)
  · exact reserve_path s.resources.ctx (show Quiet .inner from trivial) (show Quiet .immediate from trivial)
      (show Quiet .joined from trivial) s.resources.shuttingDown s.disk record.request
  · have numbered := reserve_numbered s.resources.ctx s.resources.shuttingDown s.disk record.request
    show s.disk.nextRequest < (reserve s.resources.ctx s.resources.shuttingDown s.disk record.request).nextRequest
    omega
  · exact fun settled => reserve_asked s.resources.ctx s.resources.shuttingDown settled record.request
      fun n legal => le_of_eq (legalBytes_whole legal).symm

theorem secure_steps (s : TaskService) (member : task ∈ s.tasks)
    (found : s.records[task]? = some record) (idle : Idle record) : TaskSteps s (secure s task) := by
  unfold secure
  simp only [found]
  split
  · unfold tryHoldReservationNow
    simp only
    rcases tryReserveNow_moves s.resources.ctx s.resources.shuttingDown s.disk record.sessionKey
      (.whole record.expectedSize) record.countsTowardCache with ⟨refused,steps⟩ | ⟨id,d,granted,steps,out⟩
    · rw [refused]
      exact .single (disk_move s steps)
    have enough := tryReserveNow_enough granted
    rw [granted]
    have held := records_amend (s := { s with resources := onDisk s.resources _ }) found
      (fun r => { r with reservation := some id })
    refine .head (.hold s task record found idle id d _ steps out enough) (.head (.issue _ task _ held member rfl idle.ticket) ?_)
    exact .single (.note _ task _ (fun _ _ => ⟨rfl,rfl,rfl,rfl,rfl,rfl,rfl⟩) (fun _ _ => .inr))
  · split
    · exact acquireReservation_steps s found idle
    · exact .refl

theorem idle_newRecord (s : TaskService) (input : CreateDownloadTaskInput) : Idle (newRecord s input) :=
  ⟨rfl,rfl,rfl,rfl⟩

theorem create_steps (s : TaskService) (input : CreateDownloadTaskInput) : TaskSteps s (create s input).2 := by
  have added : TaskMove s (addTask s (newRecord s input)) := .add s _ (idle_newRecord s input)
  have member : s.records.length ∈ (addTask s (newRecord s input)).tasks := List.mem_append_right _ (by simp)
  have found : (addTask s (newRecord s input)).records[s.records.length]? = some (newRecord s input) := by
    simp [addTask]
  obtain ⟨steps,tasks,kept⟩ := evaluate_steps _ member
  obtain ⟨after,present,evaluated⟩ := kept _ found
  exact .head added (steps.trans (secure_steps _ (by rw [tasks]; exact member) present
    (idle_evaluated (idle_newRecord s input) evaluated)))

theorem requireOwned_some {ownerKey : String}
    (owned : requireOwned s task ownerKey = some record) :
    task ∈ s.tasks ∧ s.records[task]? = some record ∧ record.ownerKey = ownerKey := by
  unfold requireOwned recordOf at owned
  by_cases member : task ∈ s.tasks
  · simp only [member,↓reduceIte] at owned
    cases found : s.records[task]? with
    | none => simp [found] at owned
    | some r =>
      simp only [found] at owned
      split at owned
      · cases owned
      · next mine =>
        cases owned
        exact ⟨member,rfl,not_not.mp mine⟩
  · simp [member] at owned

theorem refresh_steps (s : TaskService) (task : Nat) (ownerKey : String) : TaskSteps s (refresh s task ownerKey).2 := by
  unfold refresh
  split
  · exact .refl
  · next record owned => exact (evaluate_steps s (requireOwned_some owned).1).1

theorem cancel_steps (s : TaskService) (task : Nat) (ownerKey : String) : TaskSteps s (cancel s task ownerKey).2 := by
  unfold cancel
  split
  · exact .refl
  split
  · exact .refl
  · split
    · exact (releaseResources_steps s task).tail
        (.note _ task _ (fun _ _ => ⟨rfl,rfl,rfl,rfl,rfl,rfl,rfl⟩) (fun _ _ queued => by cases queued))
    · exact .refl

theorem alike_acquireFailed (failure : Failure) (r : DownloadTaskRecord) : Alike r (acquireFailed failure r) := by
  unfold acquireFailed
  split
  · exact alike_refl r
  · split
    · split
      · exact ⟨rfl,rfl,rfl,rfl,rfl,rfl,rfl⟩
      · exact ⟨rfl,rfl,rfl,rfl,rfl,rfl,rfl⟩
    · exact ⟨rfl,rfl,rfl,rfl,rfl,rfl,rfl⟩

theorem acquired_steps (s : TaskService) (tickets : Tickets s) {request : Nat}
    (found : s.records[task]? = some record)
    (awaits : record.acquiring = some ⟨request,false⟩) (yielded : settlement s.disk request = some (.ok reservation)) :
    TaskSteps s (acquired s task record reservation) := by
  unfold acquired
  split
  · have steps := releaseReservation_steps s.resources.ctx s.disk reservation
    have inside : Path s.resources.ctx (fun _ => True) s.disk _ := chain_of_kind trivial steps
    have later := (path_onward inside).settled _ _ yielded
    refine .head (disk_move s steps) (.single (.finish _ task record found request awaits ?_ ?_))
    · show settlement (releaseReservation s.resources.ctx s.disk reservation) request ≠ none
      rw [later]
      exact Option.some_ne_none _
    · intro other given
      have same : delivered (releaseReservation s.resources.ctx s.disk reservation) request = some other := given
      rw [delivered,later] at same
      cases same
      exact releaseReservation_inactive s.resources.ctx s.disk reservation
  · next inTime =>
    obtain ⟨queued,unexpired⟩ := not_or.mp inTime
    have member := tickets.present task record found (not_not.mp queued) (not_lt.mp unexpired)
    have coherent := tickets.coherent task record found
    have unissued : record.ticket = none := by
      by_contra issued
      have holds := coherent.ticketed (Option.isSome_iff_ne_none.mpr issued)
      rw [(coherent.awaiting request awaits).1] at holds
      cases holds
    have given : delivered s.disk request = some reservation := by rw [delivered,yielded]
    have held := records_amend found (fun r => { finishCall r with reservation := some reservation })
    refine .head (.keep s task record found request reservation awaits given)
      (.head (.issue _ task _ held member rfl unissued) (.single ?_))
    exact .note _ task _ (fun _ _ => ⟨rfl,rfl,rfl,rfl,rfl,rfl,rfl⟩) (fun _ _ queued => by cases queued)

theorem resume_steps (s : TaskService) (tickets : Tickets s) (task : Nat) : TaskSteps s (resume s task) := by
  unfold resume
  split
  · exact .refl
  next record found =>
  split
  · exact .refl
  next call awaits =>
  obtain ⟨request,resumed⟩ := call
  cases resumed with
  | true => exact .refl
  | false =>
    simp only [Bool.false_eq_true,↓reduceIte]
    split
    · exact .refl
    · next reservation yielded => exact acquired_steps s tickets found awaits yielded
    · next failure failed =>
      have twice : amend s task (fun r => acquireFailed failure (finishCall r)) =
          amend (amend s task finishCall) task (acquireFailed failure) := by
        simp only [amend,List.modify_modify_eq]
        rfl
      rw [twice]
      refine .head (.finish s task record found request awaits ?_ ?_) (.single (.note _ task _ ?_ ?_))
      · rw [failed]
        exact Option.some_ne_none _
      · intro reservation given
        rw [delivered,failed] at given
        cases given
      · exact fun r _ => alike_acquireFailed failure r
      · intro r _ queued
        by_cases was : r.status = .queued
        · exact .inr was
        · unfold acquireFailed at queued
          rw [if_pos was] at queued
          exact absurd queued was

/-! ### Consuming a ticket -/

theorem returnReplaced_dead (ctx : Context) (d : Disk) (key : String) (id : Nat) (entry : HandOff)
    (found : (returnReplaced ctx d key id).handedOffReservations.get key = some entry) :
    entry.reservation = id ∨ isActive (returnReplaced ctx d key id) entry.reservation = false := by
  unfold returnReplaced at found ⊢
  cases here : d.handedOffReservations.get key with
  | none =>
    simp only [here] at found
    cases found
  | some existing =>
    simp only [here] at found ⊢
    by_cases same : existing.reservation = id
    · simp only [same,ne_eq,not_true_eq_false,↓reduceIte] at found ⊢
      rw [here] at found
      cases found
      exact .inl same
    · simp only [ne_eq,same,not_false_eq_true,↓reduceIte] at found ⊢
      rw [releaseReservation_pool,here] at found
      cases found
      exact .inr (releaseReservation_inactive ctx d entry.reservation)

def spent (s : TaskService) (ticket task : Nat) : TaskService :=
  amend { s with ticketIndex := s.ticketIndex.delete ticket } task
    (fun r => { r with ticket := none, ticketExpiresAt := none })

/-- The ticket of a record is consumed for the right file by its owner, in time. -/
structure Good (s : TaskService) (r : DownloadTaskRecord) (ownerKey fileId : String) : Prop where
  owner : r.ownerKey = ownerKey
  file : r.fileId = fileId
  inTime : ¬ r.ticketExpiresAt.any (· < s.now)

theorem consumeTicket_cases (s : TaskService) (tickets : Tickets s) (ticket : Nat) (ownerKey fileId : String) :
    (s.ticketIndex.get ticket = none ∧ consumeTicket s ticket ownerKey fileId = (false,s)) ∨
    ∃ task record, s.ticketIndex.get ticket = some task ∧ task ∈ s.tasks ∧ s.records[task]? = some record ∧
      record.ticket = some ticket ∧
      (consumeTicket s ticket ownerKey fileId = (false,spent s ticket task) ∨
      ∃ reservation, Good s record ownerKey fileId ∧ record.reservation = some reservation ∧
        isActive s.disk reservation = true ∧
        consumeTicket s ticket ownerKey fileId = (true,handOff (spent s ticket task) task record reservation)) := by
  unfold consumeTicket
  cases indexed : s.ticketIndex.get ticket with
  | none => exact .inl ⟨rfl,rfl⟩
  | some task =>
    obtain ⟨member,record,found,issued⟩ := tickets.indexed ticket task indexed
    refine .inr ⟨task,record,rfl,member,found,issued,?_⟩
    have known : recordOf s task = some record := by simp [recordOf,member,found]
    simp only [known]
    split
    · exact .inl rfl
    next good =>
    obtain ⟨_,owner,file⟩ := not_or.mp good |>.imp_right not_or.mp
    split
    · exact .inl rfl
    next inTime =>
    cases holds : record.reservation with
    | none => exact .inl rfl
    | some reservation =>
      cases live : isActive s.disk reservation with
      | false => exact .inl (by simp [live,spent])
      | true =>
        refine .inr ⟨reservation,⟨not_not.mp owner,not_not.mp file,inTime⟩,rfl,live,?_⟩
        simp [live,spent]

theorem spent_move (s : TaskService)
    (found : s.records[task]? = some record) (issued : record.ticket = some ticket) :
    TaskMove s (spent s ticket task) := .revoke s task record found ticket issued

theorem spent_found {s : TaskService} {ticket task : Nat} {record : DownloadTaskRecord}
    (found : s.records[task]? = some record) :
    (spent s ticket task).records[task]? = some { record with ticket := none, ticketExpiresAt := none } :=
  records_amend (s := { s with ticketIndex := s.ticketIndex.delete ticket }) found _

theorem handOff_eq (s : TaskService) (record : DownloadTaskRecord)
    (live : isActive s.disk reservation = true) : handOff (spent s ticket task) task record reservation =
      amend { spent s ticket task with
          resources := onDisk s.resources (handOffToSession s.resources.ctx s.disk record.sessionKey reservation) } task
        (fun r => { r with reservation := none, handedOff := true, updatedAt := s.now, message := some handedOffText }) := by
  obtain ⟨kept,present,_⟩ := isActive_known live
  have known : reservation < (spent s ticket task).resources.disk.records.length :=
    (at_lt present)
  simp only [handOff,coordinate,amend,Coordinator.step,known]
  rfl

theorem handOff_steps (s : TaskService)
    (found : s.records[task]? = some record) (holds : record.reservation = some reservation)
    (live : isActive s.disk reservation = true) :
    TaskSteps (spent s ticket task) (handOff (spent s ticket task) task record reservation) := by
  have back := (purgeExpiredHandOffs_steps s.resources.ctx s.disk).trans
    (returnReplaced_steps s.resources.ctx _ record.sessionKey reservation)
  rw [handOff_eq s record live]
  have returned := disk_move (spent s ticket task) back
  refine .head returned (.single (.handOff _ task { record with ticket := none, ticketExpiresAt := none } ?_ rfl
    reservation holds ?_ (some handedOffText)))
  · exact @spent_found s ticket task record found
  · exact returnReplaced_dead s.resources.ctx _ record.sessionKey reservation

theorem consumeTicket_steps (s : TaskService) (tickets : Tickets s) (ticket : Nat) (ownerKey fileId : String) :
    TaskSteps s (consumeTicket s ticket ownerKey fileId).2 := by
  rcases consumeTicket_cases s tickets ticket ownerKey fileId with
    ⟨_,refused⟩ | ⟨task,record,_,_,found,issued,refused | ⟨reservation,_,holds,live,consumed⟩⟩
  · rw [refused]
  · rw [refused]
    exact .single (spent_move s found issued)
  · rw [consumed]
    exact .head (spent_move s found issued) (handOff_steps s found holds live)

/-! ### Sweeping and shutting down -/

theorem sweepTurn_steps (retention : Retention) (s : TaskService) (task : Nat) :
    TaskSteps s (sweepTurn retention s task) := by
  unfold sweepTurn
  split
  · exact .refl
  next record found =>
  have first : TaskSteps s (if record.expiresAt < s.now ∧ (record.reservation.isSome ∨ record.ticket.isSome) then
      releaseResources s task else s) := by
    split
    · exact releaseResources_steps s task
    · exact .refl
  simp only
  split
  · next long =>
    have expired : record.expiresAt < s.now := by
      have := retention.least
      linarith
    refine first.tail (.drop _ _ (fun t member => List.mem_of_mem_filter member) ?_)
    intro t r member gone here
    obtain rfl : t = task := by
      by_contra other
      exact gone (List.mem_filter.mpr ⟨member,by simpa using other⟩)
    by_cases holds : record.reservation.isSome ∨ record.ticket.isSome
    · have both : record.expiresAt < s.now ∧ (record.reservation.isSome ∨ record.ticket.isSome) := ⟨expired,holds⟩
      rw [if_pos both,releaseResources_records,records_amend found] at here
      cases here
      rw [if_pos both]
      refine ⟨rfl,fun _ => ?_⟩
      rw [(releaseResources_frame s t).2]
      exact expired
    · rw [if_neg (fun both => holds both.2),found] at here
      cases here
      rw [if_neg (fun both => holds both.2)]
      obtain ⟨_,unissued⟩ := not_or.mp holds
      exact ⟨by simpa using unissued,fun _ => expired⟩
  · exact first

theorem fold_steps {turn : TaskService → Nat → TaskService} (steps : ∀ s task, TaskSteps s (turn s task)) :
    ∀ (tasks : List Nat) (s : TaskService), TaskSteps s (tasks.foldl turn s) := by
  intro tasks
  induction tasks with
  | nil => intro s; exact .refl
  | cons task rest ih => intro s; exact (steps s task).trans (ih (turn s task))

theorem sweep_steps (s : TaskService) : TaskSteps s (sweep s) :=
  (fold_steps (sweepTurn_steps s.retention) s.tasks s).tail
    (disk_move _ (purgeExpiredHandOffs_steps _ _))

def closed (r : DownloadTaskRecord) : DownloadTaskRecord :=
  if r.status = .queued then
    { stripped { r with message := some "服务正在重启，下载任务已取消，请稍后重试" } with status := .cancelled }
  else stripped r

theorem shutdownTurn_records (s : TaskService) (task : Nat) :
    (shutdownTurn s task).records = (amend s task closed).records := by
  unfold shutdownTurn
  cases found : s.records[task]? with
  | none => exact (modify_absent found _).symm
  | some record =>
    have same : ∀ f : DownloadTaskRecord → DownloadTaskRecord, f record = closed record →
        (amend s task f).records = (amend s task closed).records := by
      intro f agree
      apply List.ext_getElem?
      intro t
      by_cases here : t = task
      · subst here
        rw [records_amend found,records_amend found,agree]
      · rw [records_amend_other s here,records_amend_other s here]
    by_cases queued : record.status = .queued
    · simp only [queued]
      rw [← same (fun r => { stripped { r with message := some "服务正在重启，下载任务已取消，请稍后重试" } with
        status := .cancelled }) (by simp [closed,queued])]
      rw [amend,releaseResources_records]
      simp only [amend,List.modify_modify_eq]
      rfl
    · simp only [queued,↓reduceIte]
      rw [releaseResources_records]
      exact same stripped (by simp [closed,queued])

theorem shutdownTurn_steps (s : TaskService) (task : Nat) : TaskSteps s (shutdownTurn s task) := by
  unfold shutdownTurn
  split
  · exact .refl
  split
  · have told : TaskMove s (amend s task (fun r =>
        { r with message := some "服务正在重启，下载任务已取消，请稍后重试" })) :=
      .note s task _ (fun _ _ => ⟨rfl,rfl,rfl,rfl,rfl,rfl,rfl⟩) (fun _ _ => .inr)
    exact .head told ((releaseResources_steps _ task).tail
      (.note _ task _ (fun _ _ => ⟨rfl,rfl,rfl,rfl,rfl,rfl,rfl⟩) (fun _ _ queued => by cases queued)))
  · exact releaseResources_steps s task

theorem shutdownTurn_tasks (s : TaskService) (task : Nat) : (shutdownTurn s task).tasks = s.tasks := by
  unfold shutdownTurn
  split
  · rfl
  · split
    · exact releaseResources_tasks _ task
    · exact releaseResources_tasks s task

def Closed (r : DownloadTaskRecord) : Prop := r.ticket = none ∧ r.status ≠ .queued

theorem closed_closed (r : DownloadTaskRecord) : Closed (closed r) := by
  unfold closed
  split
  · exact ⟨rfl,by simp⟩
  · next other => exact ⟨rfl,other⟩

theorem shutdownTurns_closed : ∀ (tasks : List Nat) (s : TaskService) (t : Nat),
    t ∈ tasks ∨ (∀ record, s.records[t]? = some record → Closed record) →
    ∀ record, (tasks.foldl shutdownTurn s).records[t]? = some record → Closed record := by
  intro tasks
  induction tasks with
  | nil =>
    intro s t reached record found
    exact reached.resolve_left (by simp) record found
  | cons task rest ih =>
    intro s t reached
    apply ih (shutdownTurn s task) t
    by_cases later : t ∈ rest
    · exact .inl later
    right
    intro record found
    rw [shutdownTurn_records] at found
    rcases amend_cases found with ⟨rfl,before,_,rfl⟩ | ⟨other,old⟩
    · exact closed_closed before
    · refine reached.resolve_left ?_ record old
      intro member
      exact (List.mem_cons.mp member).elim other later

theorem shutdownTurns_tasks : ∀ (tasks : List Nat) (s : TaskService), (tasks.foldl shutdownTurn s).tasks = s.tasks := by
  intro tasks
  induction tasks with
  | nil => intro s; rfl
  | cons task rest ih => intro s; rw [List.foldl_cons,ih,shutdownTurn_tasks]

theorem onApplicationShutdown_steps (s : TaskService) (tickets : Tickets s) : TaskSteps s (onApplicationShutdown s) := by
  have turned : TaskSteps s (s.tasks.foldl shutdownTurn { s with sweepTimer := false }) :=
    .head (.read s s.cached s.retention false) (fold_steps shutdownTurn_steps s.tasks _)
  have after := steps_tickets turned tickets
  have same : (s.tasks.foldl shutdownTurn { s with sweepTimer := false }).tasks = s.tasks := shutdownTurns_tasks _ _
  have ended := fun t (member : t ∈ s.tasks) => shutdownTurns_closed s.tasks { s with sweepTimer := false } t (.inl member)
  -- No ticket is left, so clearing the index changes nothing.
  have unindexed : (s.tasks.foldl shutdownTurn { s with sweepTimer := false }).ticketIndex = .empty := by
    apply eq_empty_of_get
    intro ticket
    by_contra some_
    obtain ⟨task,indexed⟩ := Option.ne_none_iff_exists'.mp some_
    obtain ⟨member,record,found,issued⟩ := after.indexed ticket task indexed
    rw [(ended task (same ▸ member) record found).1] at issued
    cases issued
  unfold onApplicationShutdown
  rw [← unindexed]
  refine (turned.tail (.drop _ [] (nofun) ?_)).tail
    (disk_move _ (purgeExpiredHandOffs_steps _ _))
  intro t record member _ found
  obtain ⟨unissued,unqueued⟩ := ended t (same ▸ member) record found
  exact ⟨unissued,fun queued => absurd queued unqueued⟩

theorem step_now (s : Service) (op : Op) (forward : Coordinator.Forward s op) :
    s.world.now ≤ (Coordinator.step s op).world.now := by
  cases op with
  | observe world => exact forward
  | handOffToSession key id =>
    rw [Coordinator.step]
    split <;> exact le_refl _
  | shutdown =>
    rw [Coordinator.step,Coordinator.shutdown]
    split <;> exact le_refl _
  | _ => exact le_refl _

theorem step_steps (s : TaskService) (op : TaskOp) (tickets : Tickets s) (unsettled : Unsettled s.disk)
    (outside : ∀ other, op = .outside other →
      Coordinator.Forward s.resources other ∧ ∀ kind, Does other kind → Quiet kind) :
    TaskSteps s (step s op) := by
  cases op with
  | create input => exact create_steps s input
  | refresh task ownerKey => exact refresh_steps s task ownerKey
  | cancel task ownerKey => exact cancel_steps s task ownerKey
  | consumeTicket ticket ownerKey fileId => exact consumeTicket_steps s tickets ticket ownerKey fileId
  | resume task => exact resume_steps s tickets task
  | sweep =>
    rw [step]
    split
    · exact sweep_steps s
    · exact .refl
  | onApplicationShutdown => exact onApplicationShutdown_steps s tickets
  | outside other =>
    obtain ⟨forward,quiet⟩ := outside other rfl
    exact .single (.coordinate s _ (chain_mono quiet (step_path s.resources other unsettled)) (step_now _ _ forward))
  | publish cached => exact .single (.read s cached s.retention s.sweepTimer)
  | retain retention => exact .single (.read s s.cached retention s.sweepTimer)

end Tgtc.TaskMoves
