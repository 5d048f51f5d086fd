import Tgtc.Maps
import Tgtc.RowLocks
import Tgtc.Runs
import Tgtc.ShareLinks

/-!
Sessions of previews. The first preview of a file by a visitor is charged, and what follows in the window is not; the
charge and the session are one transaction, which has the lock of the link all the while.
-/
namespace Tgtc.PreviewSessions
open Runs Maps RowLocks ShareLinks

def PREVIEW_SESSION_WINDOW_MS : Nat := 5 * 60 * 1000

abbrev Key := Nat × String

structure Session where
  consumed : Bool
  expiresAt : Nat

inductive Answer where
  | consumed
  | idempotent
  | exhausted
  | thrown (text : String)
  | failed
deriving DecidableEq

/-- How far the transaction of `consumePreviewAccess` is; `time` is what it has read from the clock under the lock. -/
inductive Phase where
  | locking
  | finding (time : Nat)
  | charging (time : Nat) (existing : Option Session)
  /-- the look-up of `save` -/
  | looking (time : Nat)
  | updating (time : Nat)
  | inserting (time : Nat)
  | committing (time : Nat) (answer : Answer) (wrote : Bool)

structure Turn where
  link : Record ShareLink
  sessions : OrderedMap Key Session
  next : Phase ⊕ Nat × Answer

def refusal (now : Nat) : Option ShareLink → Option String
  | none => some "分享已取消或不可用"
  | some link =>
    if link.status = .disabled then some "分享已取消或不可用"
    else if link.expiresAt.any fun t => t ≤ now then some "分享已过期"
    else none

def Session.valid (time : Nat) (session : Session) : Bool := session.consumed && time < session.expiresAt

def turn (now : Nat) (link : Record ShareLink) (sessions : OrderedMap Key Session) (n : Nat) (key : Key) : Phase → Turn
  | .locking =>
    if link.blocked n then ⟨link,sessions,.inl .locking⟩
    else match refusal now (link.committed.filter fun row => !row.isDeleted) with
      | some text => ⟨link.rollback n,sessions,.inr (now,.thrown text)⟩
      | none => ⟨link.lock n,sessions,.inl (.finding now)⟩
  | .finding time =>
    if (sessions.get key).any (Session.valid time) then ⟨link,sessions,.inl (.committing time .idempotent false)⟩
    else ⟨link,sessions,.inl (.charging time (sessions.get key))⟩
  | .charging time existing => match (link.version n).filter ShareLink.admits with
    | none => ⟨link,sessions,.inl (.committing time .exhausted false)⟩
    | some row => ⟨link.write n (some row.counted),sessions,.inl (if existing.isSome then .looking time else .inserting time)⟩
  | .looking time => ⟨link,sessions,.inl (if (sessions.get key).isSome then .updating time else .inserting time)⟩
  | .updating time => ⟨link,sessions,.inl (.committing time .consumed (sessions.get key).isSome)⟩
  | .inserting time => ⟨link,sessions,.inl (.committing time .consumed true)⟩
  | .committing time answer wrote =>
    ⟨link.commit n,if wrote then sessions.set key ⟨true,time + PREVIEW_SESSION_WINDOW_MS⟩ else sessions,.inr (time,answer)⟩

structure Request where
  key : Key
  phase : Option Phase

structure Charge where
  key : Key
  time : Nat
  link : ShareLink

structure Answered where
  key : Key
  time : Nat
  answer : Answer

structure State where
  link : Record ShareLink
  sessions : OrderedMap Key Session
  requests : List Request
  charges : List Charge
  answers : List Answered
  now : Nat

def State.start (link : ShareLink) : State := ⟨⟨some link,none⟩,.empty,[],[],[],0⟩

def State.set (s : State) (n : Nat) (r : Request) : State := { s with requests := s.requests.set n r }

def State.charge (s : State) (n : Nat) (key : Key) : Phase → Option Charge
  | .committing time .consumed _ => (s.link.version n).map fun link => ⟨key,time,link⟩
  | _ => none

def State.run (s : State) (n : Nat) (key : Key) (phase : Phase) : State :=
  let t := turn s.now s.link s.sessions n key phase
  { s with
    link := t.link, sessions := t.sessions, requests := s.requests.set n ⟨key,t.next.getLeft?⟩
    charges := s.charges ++ (s.charge n key phase).toList
    answers := s.answers ++ (t.next.getRight?.map fun given => ⟨key,given.1,given.2⟩).toList }

def Request.locks (r : Request) (key : Key) : Bool := match r.phase with
  | some (.committing _ _ true) => r.key = key
  | _ => false

def State.expired (s : State) (key : Key) : Bool := (s.sessions.get key).any fun v => v.expiresAt < s.now

inductive Label where
  | tick (ms : Nat)
  | call (key : Key)
  | run (n : Nat)
  | fail (n : Nat)
  /-- `pruneExpired`: expired ones among these; which fit in the batch depends on the other links. -/
  | prune (keys : List Key)

def step (s : State) : Label → State
  | .tick ms => { s with now := s.now + ms }
  | .call key => { s with requests := s.requests ++ [⟨key,some .locking⟩] }
  | .run n => match s.requests[n]? with
    | some ⟨key,some phase⟩ => s.run n key phase
    | _ => s
  | .fail n => match s.requests[n]? with
    | some ⟨key,some _⟩ => { s.set n ⟨key,none⟩ with
        link := s.link.rollback n, answers := s.answers ++ [⟨key,s.now,.failed⟩] }
    | _ => s
  | .prune keys =>
    -- it waits for a session that is locked
    if keys.any fun key => s.expired key && s.requests.any fun r => r.locks key then s
    else { s with sessions := s.sessions.filter fun e => !(e.1 ∈ keys && e.2.expiresAt < s.now) }

/-- A session is not deleted between the look-up of a save and its update, nor early. -/
def Undisturbed (s : State) : Label → Prop
  | .prune keys => ∀ r ∈ s.requests, ∀ phase ∈ r.phase, r.key ∈ keys → ∀ v ∈ s.sessions.get r.key, v.expiresAt < s.now →
      match phase with
      | .updating _ => False
      | .finding time => v.expiresAt ≤ time
      | _ => True
  | _ => True

instance (s : State) (l : Label) : Decidable (Undisturbed s l) := by
  cases l with
  | prune keys =>
    unfold Undisturbed
    refine @List.decidableBAll _ _ (fun r => @Option.decidableForallMem _ _ (fun phase => ?_) _) _
    cases phase <;> dsimp only <;> infer_instance
  | _ => exact isTrue trivial

abbrev Reached (link : ShareLink) : State → Prop := Reachable step Undisturbed (.start link)

section
variable {s s' : State} {link : ShareLink} {n m : Nat} {key k : Key} {phase : Phase}

/-- Two charges for one session are a window apart, what is let in is covered by a charge, and no charge goes beyond the bound. -/
structure Charged (s : State) : Prop where
  apart : s.charges.Pairwise fun c d => c.key = d.key → c.time + PREVIEW_SESSION_WINDOW_MS ≤ d.time
  covered : ∀ a ∈ s.answers, a.answer = .consumed ∨ a.answer = .idempotent →
    ∃ c ∈ s.charges, c.key = a.key ∧ c.time ≤ a.time ∧ a.time < c.time + PREVIEW_SESSION_WINDOW_MS
  bounded : ∀ c ∈ s.charges, 0 ≤ c.link.maxAccessCount → (c.link.currentAccessCount : Int) ≤ c.link.maxAccessCount

instance (s : State) : Decidable (Charged s) :=
  decidable_of_iff ((s.charges.Pairwise fun c d => c.key = d.key → c.time + PREVIEW_SESSION_WINDOW_MS ≤ d.time) ∧
    (∀ a ∈ s.answers, a.answer = .consumed ∨ a.answer = .idempotent →
      ∃ c ∈ s.charges, c.key = a.key ∧ c.time ≤ a.time ∧ a.time < c.time + PREVIEW_SESSION_WINDOW_MS) ∧
    ∀ c ∈ s.charges, 0 ≤ c.link.maxAccessCount → (c.link.currentAccessCount : Int) ≤ c.link.maxAccessCount)
    ⟨fun ⟨apart,covered,bounded⟩ => ⟨apart,covered,bounded⟩,fun held => ⟨held.apart,held.covered,held.bounded⟩⟩

def Quiet (s : State) (key : Key) (time : Nat) : Prop :=
  ∀ c ∈ s.charges, c.key = key → c.time + PREVIEW_SESSION_WINDOW_MS ≤ time

/-- A charge for the session is a window ago, or the session it has been made for is still there. -/
def Kept (s : State) (key : Key) (time : Nat) : Prop := ∀ c ∈ s.charges, c.key = key →
  (∃ v, s.sessions.get key = some v ∧ v.consumed = true ∧ c.time + PREVIEW_SESSION_WINDOW_MS ≤ v.expiresAt) ∨
    c.time + PREVIEW_SESSION_WINDOW_MS ≤ time

def Counted (link : Record ShareLink) (n : Nat) : Prop :=
  ∃ row, link.committed = some row ∧ row.admits = true ∧ link.version n = some row.counted

def Phase.Holding (link : Record ShareLink) (n : Nat) : Phase → Prop
  | .locking => True
  | .finding _ | .charging _ _ => link.Holds n ∧ link.version n = link.committed
  | .looking _ | .updating _ | .inserting _ | .committing _ .consumed _ => link.Holds n ∧ Counted link n
  | .committing _ .idempotent wrote | .committing _ .exhausted wrote =>
    link.Holds n ∧ link.version n = link.committed ∧ wrote = false
  | .committing _ _ _ => False

def Phase.Timely (s : State) (key : Key) : Phase → Prop
  | .finding time => time ≤ s.now ∧ (∀ c ∈ s.charges, c.time ≤ time) ∧ Kept s key time
  | .charging time _ | .looking time | .inserting time => time ≤ s.now ∧ Quiet s key time
  | .updating time => time ≤ s.now ∧ Quiet s key time ∧ (s.sessions.get key).isSome
  | .committing time .consumed wrote => time ≤ s.now ∧ Quiet s key time ∧ wrote = true
  | .committing time .idempotent _ => ∃ c ∈ s.charges, c.key = key ∧ c.time ≤ time ∧ time < c.time + PREVIEW_SESSION_WINDOW_MS
  | _ => True

theorem holding_holds {link : Record ShareLink} (holding : phase.Holding link n) : phase = .locking ∨ link.Holds n := by
  cases phase with
  | locking => exact .inl rfl
  | committing time answer wrote => cases answer <;> first | exact .inr holding.1 | exact holding.elim
  | _ => exact .inr holding.1

theorem timely_frame (charges : s'.charges = s.charges) (now : s.now ≤ s'.now)
    (finds : ∀ time, phase = .finding time → Kept s key time → Kept s' key time)
    (updates : ∀ time, phase = .updating time → (s.sessions.get key).isSome → (s'.sessions.get key).isSome)
    (timely : phase.Timely s key) : phase.Timely s' key := by
  have quiet : ∀ time, Quiet s key time → Quiet s' key time := fun time held => by rw [Quiet,charges]; exact held
  cases phase with
  | locking => trivial
  | finding time => exact ⟨Nat.le_trans timely.1 now,charges ▸ timely.2.1,finds time rfl timely.2.2⟩
  | charging time existing | looking time | inserting time => exact ⟨Nat.le_trans timely.1 now,quiet time timely.2⟩
  | updating time => exact ⟨Nat.le_trans timely.1 now,quiet time timely.2.1,updates time rfl timely.2.2⟩
  | committing time answer wrote =>
    cases answer with
    | consumed => exact ⟨Nat.le_trans timely.1 now,quiet time timely.2.1,timely.2.2⟩
    | idempotent =>
      obtain ⟨c,member,rest⟩ := timely
      exact ⟨c,charges ▸ member,rest⟩
    | _ => trivial

section
variable {now : Nat} {link : Record ShareLink} {sessions : OrderedMap Key Session}

theorem turn_moved (holding : phase.Holding link n) : link.Moved n (turn now link sessions n key phase).link := by
  cases phase with
  | locking =>
    by_cases blocked : link.blocked n = true
    · simpa [turn,blocked] using .stays
    · cases refused : refusal now (link.committed.filter fun row => !row.isDeleted) with
      | some text => simpa [turn,blocked,refused] using .rollsBack
      | none => simpa [turn,blocked,refused] using .writes _ (by simpa using blocked)
  | finding time => unfold turn; dsimp only; split <;> exact .stays
  | charging time existing =>
    unfold turn
    dsimp only
    split
    · exact .stays
    · exact .writes _ (not_blocked_of_holds holding.1)
  | committing time answer wrote => exact .commits
  | _ => exact .stays

theorem turn_holding (holding : phase.Holding link n) {next : Phase}
    (goes : (turn now link sessions n key phase).next = .inl next) :
    next.Holding (turn now link sessions n key phase).link n := by
  cases phase with
  | locking =>
    by_cases blocked : link.blocked n = true
    · simp only [turn,blocked,if_true,Sum.inl.injEq] at goes
      subst goes
      trivial
    · cases refused : refusal now (link.committed.filter fun row => !row.isDeleted) with
      | some text => simp [turn,blocked,refused] at goes
      | none =>
        have result : turn now link sessions n key .locking = ⟨link.lock n,sessions,.inl (.finding now)⟩ := by
          simp [turn,blocked,refused]
        rw [result] at goes ⊢
        cases goes
        exact ⟨holds_lock.mpr rfl,version_write⟩
  | finding time =>
    unfold turn at goes ⊢
    dsimp only at goes ⊢
    split at goes <;> cases goes
    · next valid => rw [if_pos valid]; exact ⟨holding.1,holding.2,rfl⟩
    · next invalid => rw [if_neg invalid]; exact holding
  | charging time existing =>
    cases admitted : (link.version n).filter ShareLink.admits with
    | none =>
      have result : turn now link sessions n key (.charging time existing) =
          ⟨link,sessions,.inl (.committing time .exhausted false)⟩ := by simp [turn,admitted]
      rw [result] at goes ⊢
      cases goes
      exact ⟨holding.1,holding.2,rfl⟩
    | some row =>
      obtain ⟨seen,admits⟩ := Option.filter_eq_some_iff.mp admitted
      have result : turn now link sessions n key (.charging time existing) =
          ⟨link.write n (some row.counted),sessions,.inl (if existing.isSome then .looking time else .inserting time)⟩ := by
        simp [turn,admitted]
      rw [result] at goes ⊢
      cases goes
      split <;> exact ⟨holds_write.mpr rfl,row,holding.2 ▸ seen,admits,version_write⟩
  | looking time =>
    have result : turn now link sessions n key (.looking time) =
        ⟨link,sessions,.inl (if (sessions.get key).isSome then .updating time else .inserting time)⟩ := rfl
    cases goes
    split <;> exact holding
  | updating time | inserting time => cases goes; exact holding
  | committing time answer wrote => cases goes

theorem commit_holding {time : Nat} {answer : Answer} {wrote : Bool} (holding : (Phase.committing time answer wrote).Holding link n) :
    answer = .consumed ∧ (∃ row, row.admits = true ∧ link.committed = some row ∧ link.version n = some row.counted ∧
      link.commit n = ⟨some row.counted,none⟩) ∨ answer ≠ .consumed ∧ wrote = false ∧ link.commit n = ⟨link.committed,none⟩ := by
  cases answer with
  | consumed =>
    obtain ⟨held,row,there,admits,version⟩ := holding
    exact .inl ⟨rfl,row,admits,there,version,by rw [commit_held held,version]⟩
  | idempotent | exhausted =>
    obtain ⟨held,same,unwritten⟩ := holding
    exact .inr ⟨nofun,unwritten,by rw [commit_held held,same]⟩
  | thrown text | failed => exact holding.elim

theorem turn_committed (now : Nat) (sessions : OrderedMap Key Session) (key : Key) {row : ShareLink} (there : link.committed = some row)
    (holding : phase.Holding link n) :
    (∃ time, row.admits = true ∧ (turn now link sessions n key phase).next = .inr (time,.consumed) ∧
      (turn now link sessions n key phase).link.committed = some row.counted) ∨
    (∀ time, (turn now link sessions n key phase).next ≠ .inr (time,.consumed)) ∧
      (turn now link sessions n key phase).link.committed = some row := by
  cases phase with
  | locking =>
    by_cases blocked : link.blocked n = true
    · simp [turn,blocked,there]
    · cases refused : refusal now (link.committed.filter fun row => !row.isDeleted) with
      | some text | none => simpa [turn,blocked,refused] using there
  | finding time =>
    by_cases valid : (sessions.get key).any (Session.valid time) = true
    · simp [turn,valid,there]
    · simp [turn,valid,there]
  | charging time existing =>
    cases admitted : (link.version n).filter ShareLink.admits with
    | none | some found => simp [turn,admitted,there]
  | committing time answer wrote =>
    rcases commit_holding holding with ⟨rfl,found,admits,same,_,result⟩ | ⟨other,_,result⟩
    · obtain rfl : row = found := Option.mem_unique there same
      exact .inl ⟨time,admits,rfl,by simp [turn,result]⟩
    · exact .inr ⟨fun _ same => other (by cases same; rfl),by simp [turn,result,there]⟩
  | _ => exact .inr ⟨(by intro time h; cases h),there⟩

end

structure Inv (s : State) : Prop where
  holding : ∀ (n : Nat) (key : Key) (phase : Phase), s.requests[n]? = some ⟨key,some phase⟩ → phase.Holding s.link n
  timely : ∀ (n : Nat) (key : Key) (phase : Phase), s.requests[n]? = some ⟨key,some phase⟩ → phase.Timely s key
  times : ∀ c ∈ s.charges, c.time ≤ s.now
  kept : ∀ key, Kept s key s.now
  origin : ∀ key v, s.sessions.get key = some v →
    ∃ c ∈ s.charges, c.key = key ∧ v.expiresAt = c.time + PREVIEW_SESSION_WINDOW_MS
  charged : Charged s

theorem inv_start (link : ShareLink) : Inv (.start link) where
  holding _ _ _ there := nomatch there
  timely _ _ _ there := nomatch there
  times _ member := nomatch member
  kept _ _ member := nomatch member
  origin _ _ there := nomatch there
  charged := ⟨.nil,fun _ member => (nomatch member),nofun⟩

variable {time : Nat}

theorem covered_of_valid (inv : Inv s) (past : ∀ c ∈ s.charges, c.time ≤ time)
    (valid : (s.sessions.get key).any (Session.valid time) = true) :
    ∃ c ∈ s.charges, c.key = key ∧ c.time ≤ time ∧ time < c.time + PREVIEW_SESSION_WINDOW_MS := by
  obtain ⟨v,there,valid⟩ := (Option.any_eq_true _ _).mp valid
  obtain ⟨c,member,same,expires⟩ := inv.origin key v there
  simp only [Session.valid,Bool.and_eq_true,decide_eq_true_eq] at valid
  exact ⟨c,member,same,past c member,expires ▸ valid.2⟩

theorem quiet_of_invalid (kept : Kept s key time) (invalid : (s.sessions.get key).any (Session.valid time) = false) :
    Quiet s key time := by
  intro c member same
  rcases kept c member same with ⟨v,there,consumed,until'⟩ | past
  · simp only [there,Option.any_some,Session.valid,consumed,Bool.true_and,decide_eq_false_iff_not] at invalid
    omega
  · exact past

theorem run_others {phase' : Phase} (holding : phase.Holding s.link n) (other : n ≠ m) (theirs : phase'.Holding s.link m)
    (timely : phase'.Timely s k) : phase'.Holding (s.run n key phase).link m ∧ phase'.Timely (s.run n key phase) k := by
  rcases holding_holds theirs with rfl | held
  · exact ⟨trivial,trivial⟩
  rcases holding_holds holding with rfl | mine
  · have charges : (s.run n key .locking).charges = s.charges := List.append_nil _
    have sessions : (s.run n key .locking).sessions = s.sessions := by
      unfold State.run turn
      dsimp only
      split
      · rfl
      · split <;> rfl
    have link : (s.run n key .locking).link = s.link := moved_other (turn_moved holding) held other
    refine ⟨link ▸ theirs,timely_frame (s := s) charges (Nat.le_refl _) (fun time _ kept => ?_) (fun _ _ there => ?_) timely⟩
    · rw [Kept,charges,sessions]
      exact kept
    · rw [sessions]
      exact there
  · exact absurd (holds_unique mine held) other

theorem run_of_turn {link : Record ShareLink} {sessions : OrderedMap Key Session} {next : Phase}
    (result : turn s.now s.link s.sessions n key phase = ⟨link,sessions,.inl next⟩) :
    s.run n key phase = { s with link, sessions, requests := s.requests.set n ⟨key,some next⟩ } := by
  have uncharged : s.charge n key phase = none := by
    cases phase with
    | committing time answer wrote => simp [turn] at result
    | _ => rfl
  simp [State.run,result,uncharged]

theorem run_timely (inv : Inv s) (timely : phase.Timely s key) {next : Phase}
    (goes : (turn s.now s.link s.sessions n key phase).next = .inl next) : next.Timely (s.run n key phase) key := by
  have same : s.run n key phase = { s with
      link := (turn s.now s.link s.sessions n key phase).link, sessions := (turn s.now s.link s.sessions n key phase).sessions
      requests := s.requests.set n ⟨key,some next⟩ } := run_of_turn (by rw [← goes])
  rw [same]
  cases phase with
  | locking =>
    unfold turn at goes ⊢
    dsimp only at goes ⊢
    split at goes
    · cases goes; trivial
    · next unblocked =>
      rw [if_neg unblocked]
      split at goes <;> cases goes
      exact ⟨Nat.le_refl _,inv.times,inv.kept key⟩
  | finding time =>
    obtain ⟨before,past,kept⟩ := timely
    unfold turn at goes ⊢
    dsimp only at goes ⊢
    split at goes <;> cases goes
    · next valid => exact covered_of_valid (s := s) inv past valid
    · next invalid =>
      have quiet : Quiet s key time := quiet_of_invalid kept (by simpa using invalid)
      exact ⟨before,quiet⟩
  | charging time existing =>
    unfold turn at goes ⊢
    dsimp only at goes ⊢
    split at goes <;> cases goes
    · trivial
    · split <;> exact timely
  | looking time =>
    cases goes
    split
    · next there => exact ⟨timely.1,timely.2,there⟩
    · exact timely
  | updating time => cases goes; exact timely
  | inserting time => cases goes; exact ⟨timely.1,timely.2,rfl⟩
  | committing time answer wrote => cases goes

theorem charge_none (other : ∀ time wrote, phase ≠ .committing time .consumed wrote) : s.charge n key phase = none := by
  cases phase with
  | committing time answer wrote =>
    cases answer with
    | consumed => exact absurd rfl (other time wrote)
    | _ => rfl
  | _ => rfl

theorem run_frame (holding : phase.Holding s.link n) (other : ∀ time wrote, phase ≠ .committing time .consumed wrote) :
    (s.run n key phase).link.committed = s.link.committed ∧ (s.run n key phase).sessions = s.sessions ∧
      (s.run n key phase).charges = s.charges := by
  have charges : (s.run n key phase).charges = s.charges := by simp [State.run,charge_none other]
  refine and_assoc.mp ⟨?_,charges⟩
  show (turn s.now s.link s.sessions n key phase).link.committed = _ ∧ (turn s.now s.link s.sessions n key phase).sessions = _
  cases phase with
  | locking =>
    unfold turn
    dsimp only
    split
    · exact ⟨rfl,rfl⟩
    · split
      · exact ⟨committed_rollback,rfl⟩
      · exact ⟨rfl,rfl⟩
  | finding time | charging time existing => unfold turn; dsimp only; split <;> exact ⟨rfl,rfl⟩
  | committing time answer wrote =>
    rcases commit_holding holding with ⟨rfl,_⟩ | ⟨_,rfl,result⟩
    · exact absurd rfl (other time wrote)
    · simp [turn,result]
  | _ => exact ⟨rfl,rfl⟩

theorem answered_frame (inv : Inv s) (timely : phase.Timely s key) (other : ∀ time wrote, phase ≠ .committing time .consumed wrote) :
    ∀ a ∈ (s.run n key phase).answers, a.answer = .consumed ∨ a.answer = .idempotent →
      ∃ c ∈ s.charges, c.key = a.key ∧ c.time ≤ a.time ∧ a.time < c.time + PREVIEW_SESSION_WINDOW_MS := by
  intro a member admitted
  rcases List.mem_append.mp member with before | new
  · exact inv.charged.covered a before admitted
  cases phase with
  | committing time answer wrote =>
    have same : a = ⟨key,time,answer⟩ := by simpa [turn] using new
    subst same
    cases answer with
    | consumed => exact absurd rfl (other time wrote)
    | idempotent => exact timely
    | _ => simp at admitted
  | locking =>
    by_cases blocked : s.link.blocked n = true
    · simp [turn,blocked] at new
    cases refused : refusal s.now (s.link.committed.filter fun row => !row.isDeleted) with
    | some text =>
      have same : a = ⟨key,s.now,.thrown text⟩ := by simpa [turn,blocked,refused] using new
      subst same
      simp at admitted
    | none => simp [turn,blocked,refused] at new
  | finding time | charging time existing => unfold turn at new; dsimp only at new; split at new <;> simp at new
  | _ => simp [turn] at new

theorem run_consumed {wrote : Bool} (holding : (Phase.committing time .consumed wrote).Holding s.link n)
    (written : wrote = true) : ∃ row : ShareLink, row.admits = true ∧ s.run n key (.committing time .consumed wrote) =
      { s with
        link := ⟨some row.counted,none⟩, sessions := s.sessions.set key ⟨true,time + PREVIEW_SESSION_WINDOW_MS⟩
        requests := s.requests.set n ⟨key,none⟩, charges := s.charges ++ [⟨key,time,row.counted⟩]
        answers := s.answers ++ [⟨key,time,.consumed⟩] } := by
  rcases commit_holding holding with ⟨_,row,admits,_,version,result⟩ | ⟨other,_⟩
  · refine ⟨row,admits,?_⟩
    simp [State.run,turn,State.charge,result,version,written]
  · exact absurd rfl other

theorem window_positive : 0 < PREVIEW_SESSION_WINDOW_MS := by decide

theorem inv_requests (inv : Inv s) (there : s.requests[n]? = some ⟨key,some phase⟩) (m : Nat) (k : Key) (phase' : Phase)
    (found : (s.run n key phase).requests[m]? = some ⟨k,some phase'⟩) :
    phase'.Holding (s.run n key phase).link m ∧ phase'.Timely (s.run n key phase) k := by
  have holding := inv.holding n key phase there
  rcases at_of_set found with ⟨rfl,same⟩ | ⟨other,before⟩
  · simp only [Request.mk.injEq] at same
    obtain ⟨rfl,goes⟩ := same
    have next := Sum.getLeft?_eq_some_iff.mp goes.symm
    exact ⟨turn_holding holding next,run_timely inv (inv.timely m k phase there) next⟩
  · exact run_others holding (Ne.symm other) (inv.holding m k phase' before) (inv.timely m k phase' before)

theorem inv_consumed (inv : Inv s) {wrote : Bool}
    (there : s.requests[n]? = some ⟨key,some (.committing time .consumed wrote)⟩) :
    Inv (s.run n key (.committing time .consumed wrote)) := by
  obtain ⟨before,quiet,written⟩ := inv.timely n key _ there
  have later := inv_requests inv there
  obtain ⟨row,admits,result⟩ := run_consumed (inv.holding n key _ there) written
  rw [result] at later ⊢
  have positive := window_positive
  refine ⟨fun m k p found => (later m k p found).1,fun m k p found => (later m k p found).2,fun c member => ?_,fun k c member same => ?_,fun k v found => ?_,?_,fun a member admitted => ?_,fun c member => ?_⟩
  · rcases List.mem_append.mp member with old | new
    · exact inv.times c old
    · rw [List.mem_singleton.mp new]
      exact before
  · by_cases here : k = key
    · subst here
      refine .inl ⟨_,get_set_same _ _ _,rfl,?_⟩
      rcases List.mem_append.mp member with old | new
      · have past := quiet c old same
        dsimp only
        omega
      · cases List.mem_singleton.mp new
        exact Nat.le_refl _
    · rcases List.mem_append.mp member with old | new
      · rcases inv.kept k c old same with ⟨v,there,rest⟩ | past
        · exact .inl ⟨v,(get_set_other _ _ here).trans there,rest⟩
        · exact .inr past
      · rw [List.mem_singleton.mp new] at same
        exact absurd same.symm here
  · rcases get_of_set found with ⟨rfl,rfl⟩ | ⟨_,old⟩
    · exact ⟨_,List.mem_append_right _ (List.mem_singleton_self _),rfl,rfl⟩
    · obtain ⟨c,member,rest⟩ := inv.origin k v old
      exact ⟨c,List.mem_append_left _ member,rest⟩
  · refine List.pairwise_append.mpr ⟨inv.charged.apart,List.pairwise_singleton _ _,fun c member d new same => ?_⟩
    rw [List.mem_singleton.mp new] at same ⊢
    exact quiet c member same
  · rcases List.mem_append.mp member with old | new
    · obtain ⟨c,member,rest⟩ := inv.charged.covered a old admitted
      exact ⟨c,List.mem_append_left _ member,rest⟩
    · rw [List.mem_singleton.mp new]
      exact ⟨_,List.mem_append_right _ (List.mem_singleton_self _),rfl,Nat.le_refl _,by dsimp only; omega⟩
  · rcases List.mem_append.mp member with old | new
    · exact inv.charged.bounded c old
    · rw [List.mem_singleton.mp new]
      intro limited
      have below := admits_below admits limited
      simp only [ShareLink.counted]
      omega

theorem inv_other (inv : Inv s) (there : s.requests[n]? = some ⟨key,some phase⟩)
    (other : ∀ time wrote, phase ≠ .committing time .consumed wrote) : Inv (s.run n key phase) := by
  have later := inv_requests inv there
  obtain ⟨_,sessions,charges⟩ := run_frame (inv.holding n key phase there) other
  refine ⟨fun m k p found => (later m k p found).1,fun m k p found => (later m k p found).2,charges ▸ inv.times,fun k => ?_,?_,charges ▸ inv.charged.apart,?_,charges ▸ inv.charged.bounded⟩
  · rw [Kept,sessions,charges]
    exact inv.kept k
  · rw [sessions,charges]
    exact inv.origin
  · rw [charges]
    exact answered_frame inv (inv.timely n key phase there) other

theorem inv_run (inv : Inv s) (there : s.requests[n]? = some ⟨key,some phase⟩) : Inv (s.run n key phase) := by
  by_cases consumed : ∃ time wrote, phase = .committing time .consumed wrote
  · obtain ⟨time,wrote,rfl⟩ := consumed
    exact inv_consumed inv there
  · exact inv_other inv there fun time wrote same => consumed ⟨time,wrote,same⟩

theorem kept_prune {keys : List Key} (before : ∀ v, key ∈ keys → s.sessions.get key = some v → v.expiresAt < s.now →
    v.expiresAt ≤ time) (kept : Kept s key time) :
    Kept { s with sessions := s.sessions.filter fun e => !(e.1 ∈ keys && e.2.expiresAt < s.now) } key time := by
  intro c member same
  rcases kept c member same with ⟨v,there,consumed,ends⟩ | past
  · by_cases gone : key ∈ keys ∧ v.expiresAt < s.now
    · have := before v gone.1 there gone.2
      exact .inr (by omega)
    · refine .inl ⟨v,?_,consumed,ends⟩
      rw [get_filter,there]
      simpa [Option.filter] using gone
  · exact .inr past

theorem inv_prune (inv : Inv s) {keys : List Key} (undisturbed : Undisturbed s (.prune keys)) : Inv (step s (.prune keys)) := by
  unfold step
  dsimp only
  split
  · exact inv
  have gone : ∀ k v, (s.sessions.filter fun e => !(e.1 ∈ keys && e.2.expiresAt < s.now)).get k = some v → s.sessions.get k = some v := by
    intro k v found
    rw [get_filter] at found
    exact (Option.filter_eq_some_iff.mp found).1
  refine ⟨inv.holding,fun n k phase there => ?_,inv.times,fun k => ?_,fun k v found => inv.origin k v (gone k v found),
    ⟨inv.charged.apart,inv.charged.covered,inv.charged.bounded⟩⟩
  · have mine := undisturbed _ (List.mem_of_getElem? there) phase rfl
    refine timely_frame (s := s) rfl (Nat.le_refl _) (fun time same kept => ?_) (fun time same => ?_) (inv.timely n k phase there)
    · subst same
      exact kept_prune (fun v member found expired => mine member v found expired) kept
    · subst same
      intro present
      obtain ⟨v,found⟩ := Option.isSome_iff_exists.mp present
      have stays : ¬ (k ∈ keys ∧ v.expiresAt < s.now) := fun both => mine both.1 v found both.2
      rw [get_filter,found]
      simpa [imp_iff_not_or] using stays
  · exact kept_prune (fun v _ _ expired => Nat.le_of_lt expired) (inv.kept k)

theorem inv_step (inv : Inv s) (l : Label) (undisturbed : Undisturbed s l) : Inv (step s l) := by
  cases l with
  | tick ms =>
    refine ⟨inv.holding,fun n k phase there => ?_,fun c member => Nat.le_add_right_of_le (inv.times c member),fun k c member same => ?_,
      inv.origin,⟨inv.charged.apart,inv.charged.covered,inv.charged.bounded⟩⟩
    · exact timely_frame (s := s) rfl (Nat.le_add_right _ _) (fun _ _ kept => kept) (fun _ _ present => present) (inv.timely n k phase there)
    · exact (inv.kept k c member same).imp_right fun past => Nat.le_add_right_of_le past
  | call k =>
    refine ⟨fun n k' phase there => ?_,fun n k' phase there => ?_,inv.times,inv.kept,inv.origin,
      ⟨inv.charged.apart,inv.charged.covered,inv.charged.bounded⟩⟩
    · rcases at_of_append there with before | ⟨_,same⟩
      · exact inv.holding n k' phase before
      · cases same; trivial
    · rcases at_of_append there with before | ⟨_,same⟩
      · exact timely_frame (s := s) rfl (Nat.le_refl _) (fun _ _ kept => kept) (fun _ _ present => present) (inv.timely n k' phase before)
      · cases same; trivial
  | run n =>
    unfold step
    dsimp only
    split
    · next there => exact inv_run inv there
    · exact inv
  | fail n =>
    unfold step
    dsimp only
    split
    · next k phase there =>
      refine ⟨fun m k' phase' found => ?_,fun m k' phase' found => ?_,inv.times,inv.kept,inv.origin,inv.charged.apart,
        fun a member admitted => ?_,inv.charged.bounded⟩
      · rcases at_of_set found with ⟨_,same⟩ | ⟨other,before⟩
        · cases same
        · rcases holding_holds (inv.holding m k' phase' before) with rfl | held
          · trivial
          · have link : s.link.rollback n = s.link := moved_other .rollsBack held (Ne.symm other)
            exact link.symm ▸ inv.holding m k' phase' before
      · rcases at_of_set found with ⟨_,same⟩ | ⟨_,before⟩
        · cases same
        · exact timely_frame (s := s) rfl (Nat.le_refl _) (fun _ _ kept => kept) (fun _ _ present => present)
            (inv.timely m k' phase' before)
      · rcases List.mem_append.mp member with old | new
        · exact inv.charged.covered a old admitted
        · rw [List.mem_singleton.mp new] at admitted
          simp at admitted
    · exact inv
  | prune keys => exact inv_prune inv undisturbed

theorem reached_inv {link : ShareLink} (reach : Reached link s) : Inv s :=
  reachable_invariant (inv_start link) (fun _ l inv ok => inv_step inv l ok) reach

/-- Every call is charged once a window within the bound; only the commit of a charge changes the link
or what has not expired. -/
theorem previews_charged {link : ShareLink} (reach : Reached link s) : Charged s ∧
    (∀ n, (step s (.run n)).link.committed ≠ s.link.committed ∨ (step s (.run n)).sessions ≠ s.sessions →
      ∃ key time wrote, s.requests[n]? = some ⟨key,some (.committing time .consumed wrote)⟩) ∧
    ∀ n, (step s (.fail n)).link.committed = s.link.committed ∧ (step s (.fail n)).sessions = s.sessions := by
  have inv := reached_inv reach
  refine ⟨inv.charged,fun n changed => ?_,fun n => ?_⟩
  · unfold step at changed
    dsimp only at changed
    split at changed
    · next key phase there =>
      by_contra uncharged
      obtain ⟨committed,sessions,_⟩ := run_frame (inv.holding n key phase there) fun time wrote same =>
        uncharged ⟨key,time,wrote,same ▸ there⟩
      exact changed.elim (fun other => other committed) fun other => other sessions
    · simp at changed
  · unfold step
    dsimp only
    split
    · exact ⟨committed_rollback,rfl⟩
    · exact ⟨rfl,rfl⟩

def openLink : ShareLink := ⟨"share","token",.file,1,1,none,2,0,none,none,.active,false⟩

def threeVisits : List Label :=
  [.call (1,"v"),.run 0,.run 0,.run 0,.run 0,.run 0,.tick 1000,.call (1,"v"),.run 1,.run 1,.run 1,
    .tick PREVIEW_SESSION_WINDOW_MS,.prune [(1,"v")],.call (1,"v"),.run 2,.run 2,.run 2,.run 2,.run 2]

theorem three_visits_two_charges : ∃ s, Reached openLink s ∧ s.charges.length = 2 ∧ s.answers.length = 3 ∧ Charged s :=
  have reach := reachable_run .start threeVisits (by decide +kernel)
  ⟨_,reach,by decide +kernel,by decide +kernel,(previews_charged reach).1⟩

def prunedMeanwhile : List Label :=
  [.call (1,"v"),.run 0,.run 0,.run 0,.run 0,.run 0,.tick (PREVIEW_SESSION_WINDOW_MS + 1),
    .call (1,"v"),.run 1,.run 1,.run 1,.run 1,.prune [(1,"v")],.run 1,.run 1,.call (1,"v"),.run 2,.run 2,.run 2,.run 2,.run 2]

theorem charged_twice : ¬ ∀ s, Reachable step (fun _ _ => True) (.start { openLink with maxAccessCount := 9 }) s → Charged s := by
  intro always
  have legal : Legal step (fun _ _ => True) (.start { openLink with maxAccessCount := 9 }) prunedMeanwhile := by decide +kernel
  exact absurd (always _ (reachable_run .start prunedMeanwhile legal)) (by decide +kernel)

/-- The session expires and is deleted after a call has read the clock, and before it has looked for the session. -/
def prunedBefore : List Label :=
  [.call (1,"v"),.run 0,.run 0,.run 0,.run 0,.run 0,.tick (PREVIEW_SESSION_WINDOW_MS - 1),
    .call (1,"v"),.run 1,.tick 2,.prune [(1,"v")],.run 1,.run 1,.run 1,.run 1]

example : ¬ Charged (prunedBefore.foldl step (.start openLink)) := by decide +kernel

end
end Tgtc.PreviewSessions
