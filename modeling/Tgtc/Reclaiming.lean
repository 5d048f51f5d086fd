import Tgtc.ChunkRequests
import Tgtc.SessionCourse

/-!
Reclaiming idle sessions beside the requests that use them. A pass marks a session that has been idle too long and is
not in use, removes its directory, and then the session and its lease.
-/
namespace Tgtc.Reclaiming
open Maps Runs Numbers ChunkRequests UploadMoves UploadCustody SessionCourse
open UploadSystem (Session Merge Reclaim isMergeInFlight)
open UploadSessions (isUuid)

structure Activity where
  uploadedBy : String
  chunkSize : Int
  sized : 0 < chunkSize
  /-- `none` where there is no valid time -/
  lastActivityAt : Option Int
  mergeStuckWarned : Bool
  reclaimFailures : Nat

/-- A run of `doReclaimExpiredSessions`. -/
structure Pass where
  now : Int
  rest : List String
  /-- the session whose directory is being removed, and its place in the table of reclaims -/
  current : Option (String × Nat)

structure State where
  uploads : UploadSystem.State
  activity : OrderedMap String Activity
  asking : List (Option Ask)
  inFlight : InFlight
  /-- the sessions of the chunks between the check of their sizes and their place -/
  saving : List (Option String)
  /-- `reclaimInFlight` -/
  pass : Option Pass
  now : Int

def initial : State := ⟨UploadSystem.initial,.empty,[],.fresh,[],none,0⟩

def sessionPendingMaxIdle : Int := 10 * 60 * 1000
def mergeStuckWarn : Int := 35 * 60 * 1000

def State.onActivity (s : State) (uploadId : String) (f : Activity → Activity) : State :=
  { s with activity := s.activity.modify uploadId f }

/-- `lastActivityAt = new Date()`. -/
def State.touch (s : State) (uploadId : String) : State :=
  s.onActivity uploadId (fun activity => { activity with lastActivityAt := some s.now })

def notFound : Refusal := refusal 404 "上传会话不存在或已过期"
def forbidden : Refusal := refusal 403 "无权操作此上传会话"

def State.getSession (s : State) (uploadId userId : String) : Except Refusal (Session × Activity) :=
  if isUuid uploadId = false then .error (refusal 400 "无效的 uploadId 格式")
  else match s.uploads.sessions.get uploadId, s.activity.get uploadId with
    | some session, some activity =>
      if session.listed = false ∨ session.reclaiming = true then .error notFound
      else if activity.uploadedBy ≠ userId then .error forbidden
      else .ok (session,activity)
    | _, _ => .error notFound

inductive Entry where
  | acquireChunkRequest (contentLength : Number)
  | saveChunkFromPath (refused : Option Refusal)
  | getStatus
  | triggerMerge
  | abort

/-- A request up to its first `await`. -/
def State.enter (s : State) (uploadId userId : String) : Entry → Except Refusal State
  | .acquireChunkRequest contentLength => match s.getSession uploadId userId with
    | .error e => .error e
    | .ok (session,activity) =>
      match askFor uploadId userId session.strictDiskLease activity.chunkSize activity.sized contentLength with
      | .error e => .error e
      | .ok ask => .ok { s with asking := s.asking ++ [some ask] }
  | .saveChunkFromPath refused => match s.getSession uploadId userId, refused with
    | .error e, _ => .error e
    | .ok _, some e => .error e
    | .ok _, none => .ok { s with saving := s.saving ++ [some uploadId] }
  | .getStatus => match s.getSession uploadId userId with
    | .error e => .error e
    | .ok _ => .ok (s.touch uploadId)
  | .triggerMerge => match s.getSession uploadId userId with
    | .error e => .error e
    | .ok (session,_) =>
      if session.mergeStatus = .pending then
        .ok { (s.touch uploadId).onActivity uploadId (fun activity => { activity with mergeStuckWarned := false }) with
          uploads := UploadSystem.step s.uploads (.trigger uploadId) }
      else .ok s
  | .abort => match s.uploads.sessions.get uploadId, s.activity.get uploadId with
    | some session, some activity =>
      if session.listed = false then .ok s
      else if activity.uploadedBy ≠ userId then .error forbidden
      else if session.reclaiming then .ok s
      else .ok { s with uploads := UploadSystem.step s.uploads (.abort uploadId) }
    | _, _ => .ok s

def State.snapshot (s : State) : List String := (s.uploads.sessions.entries.filter (·.2.listed)).map Prod.fst

inductive Verdict where
  | skip | warn | mark

/-- The checks of a pass that began at `now`. -/
def State.judge (s : State) (now : Int) (uploadId : String) : Verdict :=
  match s.uploads.sessions.get uploadId, s.activity.get uploadId with
  | some session, some activity =>
    if session.listed = false then .skip
    else match activity.lastActivityAt with
      | none => .skip
      | some last =>
        let threshold := if isMergeInFlight session then mergeStuckWarn else sessionPendingMaxIdle
        if now - last ≤ threshold then .skip
        else if isMergeInFlight session then .warn
        else if (s.inFlight.inFlightRequestsBySession.get uploadId).getD 0 > 0 then .skip
        else .mark
  | _, _ => .skip

def State.next (s : State) : State :=
  match s.pass with
  | some ⟨now,uploadId :: rest,none⟩ => match s.judge now uploadId with
    | .skip => { s with pass := some ⟨now,rest,none⟩ }
    | .warn =>
      { s.onActivity uploadId (fun activity => { activity with mergeStuckWarned := true }) with
        pass := some ⟨now,rest,none⟩ }
    | .mark =>
      { s with
        uploads := UploadSystem.step s.uploads (.reclaim uploadId)
        pass := some ⟨now,rest,some (uploadId,s.uploads.reclaims.length)⟩ }
  | _ => s

def State.removed (s : State) (ok : Bool) : State :=
  match s.pass with
  | some ⟨now,rest,some (uploadId,n)⟩ =>
    let removed := { s with uploads := UploadSystem.step s.uploads (.reclaiming n ok), pass := some ⟨now,rest,none⟩ }
    if ok then removed
    else removed.onActivity uploadId (fun activity => { activity with reclaimFailures := activity.reclaimFailures + 1 })
  | _ => s

/-- The end of the pass, with the orphaned lease; `old` where the lease is held for five seconds and more. -/
def State.finish (s : State) (old : Bool) : State :=
  match s.pass with
  | some ⟨_,[],none⟩ =>
    { s with
      uploads := if old && s.uploads.orphaned then UploadSystem.step s.uploads .sweepOrphan else s.uploads
      pass := none }
  | _ => s

inductive Label where
  | init (uploadId : String) (strictDiskLease : Bool) (overwriteFileId : Option String) (activity : Activity)
  | enter (uploadId userId : String) (entry : Entry)
  | look (n : Nat) (freeBytes : Option Int)
  | release (n : Nat)
  | stored (n : Nat) (found : Bool)
  | go (l : UploadSystem.Label)
  | tick (ms : Nat)
  | pass | next | removed (ok : Bool) | finish (old : Bool)

def step (limits : Limits) (s : State) : Label → State
  | .init uploadId strictDiskLease overwriteFileId activity =>
    { s with
      uploads := UploadSystem.step s.uploads (.init uploadId strictDiskLease overwriteFileId)
      activity := s.activity.set uploadId activity }
  | .enter uploadId userId entry => match s.enter uploadId userId entry with
    | .ok s' => s'
    | .error _ => s
  | .look n freeBytes => match s.asking[n]? with
    | some (some ask) => match answered limits s.inFlight ask freeBytes with
      | .ok inFlight => { s with asking := s.asking.set n none, inFlight }
      | .error _ => { s with asking := s.asking.set n none }
    | _ => s
  | .release n => { s with inFlight := s.inFlight.release n }
  | .stored n found => match s.saving[n]? with
    | some (some uploadId) =>
      let stored := { s with saving := s.saving.set n none }
      if found then stored.touch uploadId else stored
    | _ => s
  | .go l => { s with uploads := UploadSystem.step s.uploads l }
  | .tick ms => { s with now := s.now + ms }
  | .pass => match s.pass with
    | none => { s with pass := some ⟨s.now,s.snapshot,none⟩ }
    | some _ => s
  | .next => s.next
  | .removed ok => s.removed ok
  | .finish old => s.finish old

def onItsOwn : UploadSystem.Label → Bool
  | .init _ _ _ | .trigger _ | .abort _ | .reclaim _ | .reclaiming _ _ | .sweepOrphan => false
  | _ => true

/-- A request is about an upload whose `init` has returned. -/
def Allowed (s : State) : Label → Prop
  | .init uploadId strictDiskLease overwriteFileId _ =>
    UploadSystem.Allowed s.uploads (.init uploadId strictDiskLease overwriteFileId)
  | .enter uploadId _ _ => ∀ session ∈ s.uploads.sessions.get uploadId, session.init = .returned
  | .go l => onItsOwn l = true ∧ UploadSystem.Allowed s.uploads l
  | _ => True

instance (s : State) (l : Label) : Decidable (Allowed s l) := by
  cases l <;> unfold Allowed <;> infer_instance

def State.current (s : State) : Option (String × Nat) := s.pass.bind Pass.current

def hasEnded (m : Merge) : Bool :=
  match m.phase with
  | .ended _ => true
  | _ => false

/-- No request brings a chunk of the session, and its merge has come to its end. -/
def Unused (s : State) (u : String) : Prop :=
  (∀ g ∈ s.inFlight.unreleased, g.uploadId ≠ u) ∧ ∀ m ∈ s.uploads.merges, m.uploadId = u → hasEnded m = true

instance (s : State) (u : String) : Decidable (Unused s u) := inferInstanceAs (Decidable (_ ∧ _))

def State.without (s : State) (u : String) : State := { s with uploads := s.uploads.delist u }

def State.reply (s : State) (u userId : String) (entry : Entry) : Option Refusal :=
  match s.enter u userId entry with
  | .ok _ => none
  | .error e => some e

/-- Requests for the session change nothing, and are answered as if it were not there; `abort` asks first who calls. -/
def Absent (limits : Limits) (s : State) (u : String) : Prop :=
  ∀ userId entry, step limits s (.enter u userId entry) = s ∧
    ((entry = .abort → ∀ activity ∈ s.activity.get u, activity.uploadedBy = userId) →
      s.reply u userId entry = (s.without u).reply u userId entry)

def Label.ofPass : Label → Bool
  | .pass | .next | .removed _ | .finish _ => true
  | _ => false

def leased (s : State) (u : String) : Prop := ∃ lease ∈ s.uploads.store.activeLease, lease.key = .session u

/-- A registered session leaves the service and loses its lease only with its directory. -/
def RemovedFirst (s s' : State) (l : Label) : Prop :=
  l.ofPass = true → ∀ u session, s.uploads.sessions.get u = some session → session.listed = true →
    (∃ session', s'.uploads.sessions.get u = some session' ∧ session'.listed = true) ∧ (leased s u → leased s' u) ∨
    l = .removed true ∧ (∃ n, s.current = some (u,n)) ∧ u ∉ s'.uploads.dirs

/-- The two states differ in the session, its times and the pass only. -/
structure Differs (s s' : State) (u : String) (change : Session → Session) (count : Activity → Activity) : Prop where
  sessions : Changed s.uploads s'.uploads u change
  activity : ∀ v, s'.activity.get v = if v = u then (s.activity.get v).map count else s.activity.get v
  store : s'.uploads.store = s.uploads.store
  dirs : s'.uploads.dirs = s.uploads.dirs
  merges : s'.uploads.merges = s.uploads.merges
  requests : s'.inFlight = s.inFlight ∧ s'.asking = s.asking ∧ s'.saving = s.saving

/-- A failure takes back what the mark has done, and counts. -/
structure Restores (limits : Limits) (s : State) : Prop where
  marks : ∀ u n, s.current = none → (step limits s .next).current = some (u,n) →
    (∃ session, s.uploads.sessions.get u = some session ∧ session.listed = true ∧ session.reclaiming = false) ∧
    Differs s (step limits s .next) u (fun session => { session with reclaiming := true }) id
  fails : ∀ u n, s.current = some (u,n) →
    Differs s (step limits s (.removed false)) u (fun session => { session with reclaiming := false })
      (fun activity => { activity with reclaimFailures := activity.reclaimFailures + 1 })

structure Safe (limits : Limits) (s : State) : Prop where
  unused : ∀ u n, s.current = some (u,n) → Unused s u
  absent : ∀ u n, s.current = some (u,n) → Absent limits s u
  removedFirst : ∀ l, RemovedFirst s (step limits s l) l
  restores : Restores limits s

/-- No request looks at the disk while its session is reclaimed, and no merge goes on after its session
has got its outcome. -/
def Orderly (s : State) : Label → Prop
  | .look n _ => match s.asking[n]? with
    | some (some ask) => s.current.map Prod.fst ≠ some ask.uploadId
    | _ => True
  | .next => match s.pass with
    | some ⟨_,u :: _,none⟩ => (∀ session ∈ s.uploads.sessions.get u, isMergeInFlight session = false) →
      ∀ m ∈ s.uploads.merges, m.uploadId = u → hasEnded m = true
    | _ => True
  | _ => True

instance (s : State) (l : Label) : Decidable (Orderly s l) := by
  unfold Orderly
  split
  · split <;> infer_instance
  · split <;> infer_instance
  · infer_instance

/-! ### Steps of the uploads -/

section
variable {s s' : UploadSystem.State} {l : UploadSystem.Label} {u : String}

def calm : UploadSystem.Label → Bool
  | .reclaim _ | .reclaiming _ _ => false
  | _ => true

variable {change : Session → Session}

theorem advances_reclaiming {session : Session} {m : Merge} {event : UploadSystem.MergeEvent}
    {phase : UploadSystem.MergePhase}
    (advances : Advances s s' session m event phase change) (x : Session) : (change x).reclaiming = x.reclaiming := by
  have settled : ∀ done y, (settleSession m done y).reclaiming = y.reclaiming := by
    intro done y
    unfold settleSession
    split_ifs <;> rfl
  cases advances with
  | failed | unqueued | cleaned | swept => exact settled _ x
  | createdLate => exact settled false _
  | same | created | merged | checked | cleared | renamed | handedOff | freed | queued | unjobbed | cleans => rfl

structure Kept (x y : Session) : Prop where
  reclaiming : y.reclaiming = x.reclaiming
  listed : y.listed = true → x.listed = true ∨ x.init = .acquired ∧ y.init ≠ .acquired
  acquired : y.init = .acquired → x.init = .acquired

theorem kept_same (x : Session) : Kept x x := ⟨rfl,.inl,id⟩

theorem change_kept {x : Session} (changes : Change s l u change) (still : calm l = true)
    (acquired : l = .register u → x.init = .acquired) : Kept x (change x) := by
  cases changes with
  | register => exact ⟨rfl,fun _ => .inr ⟨acquired rfl,nofun⟩,nofun⟩
  | refuse | opened => exact ⟨rfl,.inl,nofun⟩
  | unopened => exact ⟨rfl,nofun,nofun⟩
  | trigger => exact ⟨rfl,.inl,id⟩
  | @deadline n m _ _ =>
    obtain ⟨init,listed,_,_⟩ := settleSession_rest m false x
    refine ⟨?_,fun y => .inl (listed ▸ y),fun y => init ▸ y⟩
    unfold settleSession
    split_ifs <;> rfl
  | cancelled | timer => exact ⟨rfl,nofun,id⟩
  | reclaim | reclaimed | unreclaimed => cases still

/-- Sessions stay, and only an `init` adds one. -/
structure Keeps (s : UploadSystem.State) (l : UploadSystem.Label) (s' : UploadSystem.State) : Prop where
  forth : ∀ u x, s.sessions.get u = some x → (∃ a b, l = .init u a b) ∨ ∃ y, s'.sessions.get u = some y ∧ Kept x y
  back : ∀ u y, s'.sessions.get u = some y → (∃ a b, l = .init u a b ∧ y = UploadSystem.newSession a b) ∨
    ∃ x, s.sessions.get u = some x ∧ Kept x y

theorem changed_keeps (changed : Changed s s' u change)
    (kept : ∀ x, s.sessions.get u = some x → Kept x (change x)) : Keeps s l s' := by
  constructor
  · intro v x known
    by_cases here : v = u
    · subst here
      exact .inr ⟨_,changed_here changed known,kept x known⟩
    · exact .inr ⟨x,(changed_other changed here).trans known,kept_same x⟩
  · intro v y found
    rcases changed_back changed found with ⟨_,known⟩ | ⟨rfl,x,known,rfl⟩
    · exact .inr ⟨y,known,kept_same y⟩
    · exact .inr ⟨x,known,kept x known⟩

theorem calm_sessions (move : Moves s l s') (still : calm l = true)
    (acquired : ∀ u x, l = .register u → s.sessions.get u = some x → x.init = .acquired) : Keeps s l s' := by
  rcases advance_or_aside move with ⟨n,m,session,event,phase,change,advance⟩ | aside
  · refine changed_keeps advance.changed fun x _ => ?_
    obtain ⟨init,listed,_⟩ := advances_rest advance.advances x
    exact ⟨advances_reclaiming advance.advances x,fun y => .inl (listed ▸ y),fun y => init ▸ y⟩
  · rcases aside.sessions with same | ⟨v,change,changes,changed⟩ | ⟨v,a,b,rfl,sessions⟩
    · exact changed_keeps (changed_same "" same) fun x _ => kept_same x
    · exact changed_keeps changed fun x known => change_kept changes still fun label => acquired v x label known
    · constructor
      · intro u x known
        by_cases here : u = v
        · subst here
          exact .inl ⟨a,b,rfl⟩
        · exact .inr ⟨x,by rw [sessions,get_set_other _ _ here,known],kept_same x⟩
      · intro u y found
        rw [sessions] at found
        rcases get_of_set found with ⟨rfl,rfl⟩ | ⟨_,known⟩
        · exact .inl ⟨a,b,rfl,rfl⟩
        · exact .inr ⟨y,known,kept_same y⟩

theorem calm_reclaims (move : Moves s l s') (still : calm l = true) : s'.reclaims = s.reclaims := by
  cases move with
  | merge _ _ move =>
    cases move with
    | cleans _ _ move | cleaned _ _ move => exact (cleans_reclaims move).1
    | _ => rfl
  | aborting _ _ move =>
    cases move with
    | cleans _ move | cleaned _ move | refused _ move => exact (cleans_reclaims move).1
    | _ => rfl
  | reclaim | reclaimed | unreclaimed => cases still
  | _ => rfl

theorem hasEnded_iff (m : Merge) : hasEnded m = true ↔ ∃ how, m.phase = .ended how := by
  unfold hasEnded
  cases m.phase <;> simp

theorem ended_merges (move : Moves s l s') (other : l ≠ .trigger u)
    (ended : ∀ m ∈ s.merges, m.uploadId = u → hasEnded m = true) :
    ∀ m' ∈ s'.merges, m'.uploadId = u → hasEnded m' = true := by
  intro m' member upload
  obtain ⟨n,found⟩ := List.mem_iff_getElem?.mp member
  rcases advance_or_aside move with ⟨k,m,session,event,phase,change,advance⟩ | aside
  · rw [advance.merges] at found
    rcases at_of_set found with ⟨rfl,rfl⟩ | ⟨_,old⟩
    · have before := ended m (List.mem_of_getElem? advance.found) upload
      obtain ⟨how,here⟩ := (hasEnded_iff m).mp before
      have same := (ended_advances advance.advances here).1
      exact (hasEnded_iff _).mpr ⟨how,same.trans here⟩
    · exact ended m' (List.mem_of_getElem? old) upload
  · rcases aside.merges n m' found with ⟨m,old,signalled⟩ | ⟨v,rfl,_,rfl,_⟩
    · obtain ⟨sameUpload,samePhase⟩ := signalled_same signalled
      have before := ended m (List.mem_of_getElem? old) (sameUpload ▸ upload)
      obtain ⟨how,here⟩ := (hasEnded_iff m).mp before
      exact (hasEnded_iff _).mpr ⟨how,samePhase.trans here⟩
    · cases upload
      exact absurd rfl other

end

/-! ### The invariant -/

structure Inv (s : State) : Prop where
  place : ∀ u n, s.current = some (u,n) → s.uploads.reclaims[n]? = some ⟨u,false⟩ ∧
    ∃ x, s.uploads.sessions.get u = some x ∧ x.reclaiming = true
  marked : ∀ u x, s.uploads.sessions.get u = some x → x.reclaiming = true →
    (∃ n, s.current = some (u,n)) ∨ x.listed = false
  begun : ∀ u x, s.uploads.sessions.get u = some x → x.listed = true ∨ x.reclaiming = true → x.init ≠ .acquired
  counted : Accounted s.inFlight
  unused : ∀ u n, s.current = some (u,n) → Unused s u

section
variable {limits : Limits} {s t : State}

theorem initial_inv : Inv initial where
  place _ _ here := nomatch here
  marked _ _ found := nomatch found
  begun _ _ found := nomatch found
  counted := fresh_accounted
  unused _ _ here := nomatch here

theorem inv_same (inv : Inv s) (uploads : t.uploads = s.uploads) (current : t.current = s.current)
    (inFlight : t.inFlight = s.inFlight) : Inv t := by
  obtain ⟨place,marked,begun,counted,unused⟩ := inv
  constructor
  · rw [uploads,current]; exact place
  · rw [uploads,current]; exact marked
  · rw [uploads]; exact begun
  · rw [inFlight]; exact counted
  · intro u n here
    rw [current] at here
    rw [Unused,uploads,inFlight]
    exact unused u n here

theorem inv_calm {l : UploadSystem.Label} (inv : Inv s) (move : Moves s.uploads l t.uploads) (still : calm l = true)
    (acquired : ∀ u x, l = .register u → s.uploads.sessions.get u = some x → x.init = .acquired)
    (fresh : ∀ u a b, l = .init u a b → s.uploads.sessions.get u = none)
    (apart : ∀ u n, s.current = some (u,n) → l ≠ .trigger u) (current : t.current = s.current)
    (inFlight : t.inFlight = s.inFlight) : Inv t := by
  have keeps := calm_sessions move still acquired
  constructor
  · intro u n here
    rw [current] at here
    obtain ⟨at_n,x,known,reclaiming⟩ := inv.place u n here
    rw [calm_reclaims move still]
    refine ⟨at_n,?_⟩
    rcases keeps.forth u x known with ⟨a,b,label⟩ | ⟨y,found,kept⟩
    · rw [fresh u a b label] at known
      cases known
    · exact ⟨y,found,kept.reclaiming.trans reclaiming⟩
  · intro u y found reclaiming
    rw [current]
    rcases keeps.back u y found with ⟨_,_,_,rfl⟩ | ⟨x,known,kept⟩
    · cases reclaiming
    have before := kept.reclaiming.symm.trans reclaiming
    rcases inv.marked u x known before with here | gone
    · exact .inl here
    right
    by_contra listed
    rcases kept.listed (by simpa using listed) with still | ⟨early,_⟩
    · rw [gone] at still
      cases still
    · exact inv.begun u x known (.inr before) early
  · intro u y found some_flag early
    rcases keeps.back u y found with ⟨_,_,_,rfl⟩ | ⟨x,known,kept⟩
    · rcases some_flag with flag | flag <;> cases flag
    · rcases some_flag with listed | reclaiming
      · rcases kept.listed listed with listed | ⟨_,late⟩
        · exact inv.begun u x known (.inl listed) (kept.acquired early)
        · exact late early
      · exact inv.begun u x known (.inr (kept.reclaiming.symm.trans reclaiming)) (kept.acquired early)
  · rw [inFlight]
    exact inv.counted
  · intro u n here
    rw [current] at here
    obtain ⟨grants,merges⟩ := inv.unused u n here
    exact ⟨by rw [inFlight]; exact grants,ended_merges move (apart u n here) merges⟩

variable {u : String} {x : Session} {v : String}

theorem getSession_free {userId : String} {activity : Activity}
    (found : s.getSession u userId = .ok (x,activity)) :
    s.uploads.sessions.get u = some x ∧ s.activity.get u = some activity ∧ x.listed = true ∧ x.reclaiming = false := by
  unfold State.getSession at found
  split at found
  · cases found
  split at found
  · next known active =>
    split_ifs at found with gone other
    cases found
    simp only [not_or,Bool.not_eq_false,Bool.not_eq_true] at gone
    exact ⟨known,active,gone⟩
  · cases found

theorem not_current (inv : Inv s) (known : s.uploads.sessions.get u = some x)
    (free : x.reclaiming = false) (n : Nat) : s.current ≠ some (u,n) := by
  intro here
  obtain ⟨_,y,known',reclaiming⟩ := inv.place u n here
  cases known.symm.trans known'
  rw [free] at reclaiming
  cases reclaiming

theorem inv_enter (inv : Inv s) {userId : String} (entry : Entry) (entered : s.enter u userId entry = .ok t) : Inv t := by
  cases entry with
  | acquireChunkRequest contentLength =>
    simp only [State.enter] at entered
    split at entered
    · cases entered
    · split at entered
      · cases entered
      · cases entered
        exact inv_same inv rfl rfl rfl
  | saveChunkFromPath refused =>
    simp only [State.enter] at entered
    split at entered
    · cases entered
    · cases entered
    · cases entered
      exact inv_same inv rfl rfl rfl
  | getStatus =>
    simp only [State.enter] at entered
    split at entered
    · cases entered
    · cases entered
      exact inv_same inv rfl rfl rfl
  | triggerMerge =>
    simp only [State.enter] at entered
    split at entered
    · cases entered
    next session activity found =>
    obtain ⟨known,_,_,free⟩ := getSession_free found
    split_ifs at entered
    · cases entered
      refine inv_calm inv (step_moves (.trigger u)) rfl (fun _ _ label => by cases label)
        (fun _ _ _ label => by cases label) (fun v n here label => ?_) rfl rfl
      cases label
      exact not_current inv known free n here
    · cases entered
      exact inv
  | abort =>
    simp only [State.enter] at entered
    split at entered
    · split_ifs at entered
      · cases entered
        exact inv
      · cases entered
        exact inv
      · cases entered
        exact inv_calm inv (step_moves (.abort u)) rfl (fun _ _ label => by cases label)
          (fun _ _ _ label => by cases label) (fun _ _ _ label => by cases label) rfl rfl
    · cases entered
      exact inv

theorem inv_look (inv : Inv s) (n : Nat) (freeBytes : Option Int) (orderly : Orderly s (.look n freeBytes)) :
    Inv (step limits s (.look n freeBytes)) := by
  simp only [step]
  simp only [Orderly] at orderly
  split
  · next ask at_n =>
    rw [at_n] at orderly
    split
    · next inFlight known =>
      have admitted : s.inFlight.admitRequest limits ask = .ok inFlight := by
        unfold answered at known
        split at known
        · cases known
        · exact known
      refine ⟨inv.place,inv.marked,inv.begun,accounted_admitted inv.counted admitted,fun u k here => ?_⟩
      obtain ⟨grants,merges⟩ := inv.unused u k here
      refine ⟨fun g member same => ?_,merges⟩
      rw [unreleased_admitted admitted,List.mem_append,List.mem_singleton] at member
      rcases member with member | rfl
      · exact grants g member same
      · have current : s.current = some (u,k) := here
        rw [current] at orderly
        exact orderly (congrArg some same.symm)
    · exact inv_same inv rfl rfl rfl
  · exact inv

theorem inv_release (inv : Inv s) (n : Nat) : Inv (step limits s (.release n)) := by
  refine ⟨inv.place,inv.marked,inv.begun,accounted_release inv.counted n,fun u k here => ?_⟩
  obtain ⟨grants,merges⟩ := inv.unused u k here
  refine ⟨fun g member => ?_,merges⟩
  change g ∈ (s.inFlight.release n).unreleased at member
  rcases release_eq inv.counted n with same | ⟨h,fewer,_,perm,left,_⟩
  · rw [same] at member
    exact grants g member
  · rw [left] at member
    exact grants g (perm.mem_iff.mpr (List.mem_cons_of_mem h member))

theorem judge_mark {now : Int} (judged : s.judge now u = .mark) :
    ∃ x, s.uploads.sessions.get u = some x ∧ x.listed = true ∧ isMergeInFlight x = false ∧
      (s.inFlight.inFlightRequestsBySession.get u).getD 0 ≤ 0 := by
  unfold State.judge at judged
  split at judged
  · next x activity known active =>
    split at judged
    · cases judged
    next gone =>
    split at judged
    · cases judged
    · dsimp only at judged
      by_cases merging : isMergeInFlight x = true
      · split_ifs at judged
      · split_ifs at judged with recent busy
        exact ⟨x,known,by simpa using gone,by simpa using merging,not_lt.mp busy⟩
  · cases judged

inductive Nexts (s : State) : State → Prop
  | stay : Nexts s s
  | skip {now : Int} {u : String} {rest : List String} (pass : s.pass = some ⟨now,u :: rest,none⟩) :
      Nexts s { s with pass := some ⟨now,rest,none⟩ }
  | warn {now : Int} {u : String} {rest : List String} (pass : s.pass = some ⟨now,u :: rest,none⟩) :
      Nexts s { s.onActivity u (fun activity => { activity with mergeStuckWarned := true }) with
        pass := some ⟨now,rest,none⟩ }
  | mark {now : Int} {u : String} {rest : List String} {x : Session} (pass : s.pass = some ⟨now,u :: rest,none⟩)
      (known : s.uploads.sessions.get u = some x) (listed : x.listed = true) (idle : isMergeInFlight x = false)
      (alone : (s.inFlight.inFlightRequestsBySession.get u).getD 0 ≤ 0) :
      Nexts s { s with
        uploads := { s.uploads.onSession u (fun session => { session with reclaiming := true }) with
          reclaims := s.uploads.reclaims ++ [⟨u,false⟩] }
        pass := some ⟨now,rest,some (u,s.uploads.reclaims.length)⟩ }

theorem next_nexts (s : State) : Nexts s s.next := by
  unfold State.next
  split
  · next now u rest pass =>
    split
    · exact .skip pass
    · exact .warn pass
    · next judged =>
      obtain ⟨x,known,listed,idle,alone⟩ := judge_mark judged
      exact .mark pass known listed idle alone
  · exact .stay

theorem current_none {now : Int} {rest : List String} (pass : s.pass = some ⟨now,rest,none⟩) : s.current = none := by
  rw [State.current,pass]
  rfl

theorem inv_next (inv : Inv s) (orderly : Orderly s .next) : Inv s.next := by
  have nexts := next_nexts s
  generalize s.next = t at nexts
  cases nexts with
  | stay => exact inv
  | skip pass | warn pass => exact inv_same inv rfl (current_none pass).symm rfl
  | @mark now u rest x pass known listed idle alone =>
    have none_current := current_none pass
    have changed : UploadMoves.Changed s.uploads { s.uploads.onSession u (fun session =>
        { session with reclaiming := true }) with reclaims := s.uploads.reclaims ++ [⟨u,false⟩] } u
        (fun session => { session with reclaiming := true }) :=
      changed_modify rfl
    constructor
    · rintro _ _ ⟨⟩
      exact ⟨List.getElem?_concat_length,_,changed_here changed known,rfl⟩
    · intro v y found reclaiming
      rcases changed_back changed found with ⟨_,known'⟩ | ⟨rfl,_,_,_⟩
      · rcases inv.marked v y known' reclaiming with ⟨n,here⟩ | gone
        · rw [none_current] at here
          cases here
        · exact .inr gone
      · exact .inl ⟨_,rfl⟩
    · intro v y found flag
      rcases changed_back changed found with ⟨_,known'⟩ | ⟨rfl,z,known',rfl⟩
      · exact inv.begun v y known' flag
      · cases known.symm.trans known'
        exact inv.begun v x known (.inl listed)
    · exact inv.counted
    · rintro _ _ ⟨⟩
      constructor
      · rintro g member rfl
        have occurs : g.uploadId ∈ s.inFlight.unreleased.map Grant.uploadId := List.mem_map_of_mem member
        have entry := Tally.counts_found inv.counted.sessions occurs
        have positive := Tally.counts_positive inv.counted.sessions entry
        rw [entry] at alone
        exact absurd alone (not_le.mpr positive)
      · simp only [Orderly,pass] at orderly
        refine orderly fun session known' => ?_
        cases known.symm.trans known'
        exact idle

/-! ### The end of a reclaim -/

theorem current_some {n : Nat} (here : s.current = some (u,n)) :
    ∃ now rest, s.pass = some ⟨now,rest,some (u,n)⟩ := by
  unfold State.current at here
  cases known : s.pass with
  | none =>
    rw [known] at here
    cases here
  | some pass =>
    obtain ⟨now,rest,current⟩ := pass
    rw [known] at here
    cases here
    exact ⟨now,rest,rfl⟩

def released (s : UploadSystem.State) (n : Nat) (u : String) (x : Session) : UploadSystem.State :=
  let ended := { s with reclaims := s.reclaims.set n ⟨u,true⟩ }
  let delisted := (ended.removeDir u).delist u
  if x.strictDiskLease then delisted.setLease (UploadWorker.releaseSession delisted.store.activeLease u) else delisted

theorem released_sessions (up : UploadSystem.State) (n : Nat) (u : String) (x : Session) :
    Changed up (released up n u x) u (fun session => { session with listed := false }) := by
  unfold released
  split_ifs <;> exact changed_modify rfl

theorem released_dirs (up : UploadSystem.State) (n : Nat) (u : String) (x : Session) : u ∉ (released up n u x).dirs := by
  have gone : u ∉ up.dirs.filter (· ≠ u) := by simp
  unfold released
  split_ifs <;> exact gone

inductive Removes (s : State) : Bool → State → Prop
  | stay (ok : Bool) (idle : s.current = none) : Removes s ok s
  | gone {now : Int} {rest : List String} {u : String} {n : Nat} {x : Session}
      (pass : s.pass = some ⟨now,rest,some (u,n)⟩) (known : s.uploads.sessions.get u = some x) :
      Removes s true { s with uploads := released s.uploads n u x, pass := some ⟨now,rest,none⟩ }
  | failed {now : Int} {rest : List String} {u : String} {n : Nat}
      (pass : s.pass = some ⟨now,rest,some (u,n)⟩) :
      Removes s false { s with
        uploads := { s.uploads with reclaims := s.uploads.reclaims.set n ⟨u,true⟩ }.onSession u
          (fun session => { session with reclaiming := false })
        pass := some ⟨now,rest,none⟩
        activity := s.activity.modify u (fun activity => { activity with reclaimFailures := activity.reclaimFailures + 1 }) }

theorem removed_removes (inv : Inv s) (ok : Bool) : Removes s ok (s.removed ok) := by
  cases here : s.current with
  | none =>
    have stays : s.removed ok = s := by
      unfold State.removed
      split
      · next pass =>
        rw [State.current,pass] at here
        cases here
      · rfl
    rw [stays]
    exact .stay ok here
  | some place =>
    obtain ⟨u,n⟩ := place
    obtain ⟨now,rest,pass⟩ := current_some here
    obtain ⟨at_n,x,known,_⟩ := inv.place u n here
    have ends : UploadSystem.step s.uploads (.reclaiming n ok) = s.uploads.reclaimStep n ⟨u,false⟩ x ok := by
      simp only [UploadSystem.step,at_n,known]
    simp only [State.removed,pass,ends]
    cases ok with
    | true => exact .gone pass known
    | false => exact .failed pass

theorem inv_ended {n : Nat} {change : Session → Session} (inv : Inv s) (here : s.current = some (u,n))
    (changed : Changed s.uploads t.uploads u change) (init : ∀ x, (change x).init = x.init)
    (settled : ∀ x, (change x).reclaiming = true → (change x).listed = false) (idle : t.current = none)
    (inFlight : t.inFlight = s.inFlight) : Inv t := by
  obtain ⟨_,x,known,reclaiming⟩ := inv.place u n here
  constructor
  · intro v k there
    rw [idle] at there
    cases there
  · intro v y found marked
    right
    rcases changed_back changed found with ⟨other,known'⟩ | ⟨rfl,z,_,rfl⟩
    · rcases inv.marked v y known' marked with ⟨k,there⟩ | gone
      · rw [here] at there
        cases there
        exact absurd rfl other
      · exact gone
    · exact settled z marked
  · intro v y found flag
    rcases changed_back changed found with ⟨_,known'⟩ | ⟨rfl,z,known',rfl⟩
    · exact inv.begun v y known' flag
    · cases known.symm.trans known'
      rw [init]
      exact inv.begun v x known (.inr reclaiming)
  · rw [inFlight]
    exact inv.counted
  · intro v k there
    rw [idle] at there
    cases there

theorem inv_removed (inv : Inv s) (ok : Bool) : Inv (s.removed ok) := by
  have removes := removed_removes inv ok
  generalize s.removed ok = t at removes
  cases removes with
  | stay => exact inv
  | @gone now rest u n x pass known =>
    have here : s.current = some (u,n) := by rw [State.current,pass]; rfl
    exact inv_ended inv here (released_sessions s.uploads n u x) (fun _ => rfl) (fun _ _ => rfl) rfl rfl
  | @failed now rest u n pass =>
    have here : s.current = some (u,n) := by rw [State.current,pass]; rfl
    exact inv_ended inv here (changed_modify rfl) (fun _ => rfl) (nofun) rfl rfl

theorem inv_finish (inv : Inv s) (old : Bool) : Inv (s.finish old) := by
  unfold State.finish
  split
  · next pass =>
    have idle := current_none pass
    split_ifs
    · exact inv_calm inv (step_moves .sweepOrphan) rfl (fun _ _ label => (nomatch label))
        (fun _ _ _ label => (nomatch label)) (fun _ _ _ label => (nomatch label)) idle.symm rfl
    · exact inv_same inv rfl idle.symm rfl
  · exact inv

theorem inv_go (inv : Inv s) (l : UploadSystem.Label) (allowed : Allowed s (.go l)) : Inv (step limits s (.go l)) := by
  obtain ⟨own,allowed⟩ := allowed
  have still : calm l = true := by cases l <;> first | rfl | cases own
  refine inv_calm inv (step_moves l) still ?_ ?_ ?_ rfl rfl
  · rintro u x rfl known
    obtain ⟨y,known',acquired⟩ := allowed
    cases known.symm.trans known'
    exact acquired
  · rintro u a b rfl
    cases own
  · rintro u n _ rfl
    cases own

theorem inv_step (inv : Inv s) (l : Label) (allowed : Allowed s l) (orderly : Orderly s l) : Inv (step limits s l) := by
  cases l with
  | init u a b activity =>
    refine inv_calm inv (step_moves (.init u a b)) rfl (fun _ _ label => (nomatch label)) ?_
      (fun _ _ _ label => (nomatch label)) rfl rfl
    rintro v c d ⟨⟩
    exact allowed.1
  | enter u userId entry =>
    simp only [step]
    split
    · next entered => exact inv_enter inv entry entered
    · exact inv
  | look n freeBytes => exact inv_look inv n freeBytes orderly
  | release n => exact inv_release inv n
  | stored n found =>
    simp only [step]
    split
    · split_ifs <;> exact inv_same inv rfl rfl rfl
    · exact inv
  | go l => exact inv_go inv l allowed
  | tick ms => exact inv_same inv rfl rfl rfl
  | pass =>
    simp only [step]
    split
    · next none_yet =>
      have idle : s.current = none := by rw [State.current,none_yet]; rfl
      exact inv_same inv rfl idle.symm rfl
    · exact inv
  | next => exact inv_next inv orderly
  | removed ok => exact inv_removed inv ok
  | finish old => exact inv_finish inv old

/-! ### Reclaiming is safe -/

theorem without_get (known : s.uploads.sessions.get u = some x) :
    (s.without u).uploads.sessions.get u = some { x with listed := false } := by
  simp [State.without,UploadSystem.State.delist,UploadSystem.State.onSession,get_modify,known]

theorem without_activity (u : String) : (s.without u).activity = s.activity := rfl

section
variable (known : s.uploads.sessions.get u = some x) (reclaiming : x.reclaiming = true)
include known reclaiming

theorem getSession_absent (userId : String) : ∃ e, s.getSession u userId = .error e ∧ (s.without u).getSession u userId = .error e := by
  unfold State.getSession
  rw [without_get known,known,without_activity]
  by_cases uuid : isUuid u = false
  · rw [if_pos uuid,if_pos uuid]
    exact ⟨_,rfl,rfl⟩
  · rw [if_neg uuid,if_neg uuid]
    refine ⟨notFound,?_⟩
    cases s.activity.get u with
    | none => exact ⟨rfl,rfl⟩
    | some activity => simp [reclaiming]

theorem absent_of_marked : Absent limits s u := by
  intro userId entry
  obtain ⟨e,here,there⟩ := getSession_absent known reclaiming userId
  cases entry with
  | acquireChunkRequest contentLength | saveChunkFromPath refused | getStatus => simp [step,State.reply,State.enter,here,there]
  | triggerMerge => simp [step,State.reply,State.enter,here,there]
  | abort =>
    simp only [step,State.reply,State.enter,without_get known,known,without_activity]
    cases s.activity.get u with
    | none => simp
    | some activity =>
      by_cases listed : x.listed = false
      · simp [listed]
      · by_cases owner : activity.uploadedBy = userId
        · simp [owner,reclaiming]
        · simp [listed,owner]

end

theorem release_other (other : u ≠ v) (lease : Option UploadWorker.Lease)
    (held : ∃ l ∈ lease, l.key = .session u) : ∃ l ∈ UploadWorker.releaseSession lease v, l.key = .session u := by
  obtain ⟨l,rfl,key⟩ := held
  simp [UploadWorker.releaseSession,UploadWorker.release,key,other]

theorem stays_listed {change : Session → Session}
    (known : s.uploads.sessions.get u = some x) (listed : x.listed = true)
    (changed : Changed s.uploads t.uploads v change) (keeps : ∀ y, (change y).listed = y.listed) :
    ∃ y, t.uploads.sessions.get u = some y ∧ y.listed = true := by
  by_cases here : u = v
  · subst here
    exact ⟨_,changed_here changed known,(keeps x).trans listed⟩
  · exact ⟨x,(changed_other changed here).trans known,listed⟩

theorem removedFirst_next : RemovedFirst s s.next .next := by
  intro _ u x known listed
  left
  have nexts := next_nexts s
  generalize s.next = t at nexts
  cases nexts with
  | stay | skip | warn => exact ⟨⟨x,known,listed⟩,id⟩
  | mark => exact ⟨stays_listed known listed (changed_modify rfl) fun _ => rfl,id⟩

theorem released_lease (other : u ≠ v) (n : Nat) (x : Session) {up : UploadSystem.State}
    (held : ∃ l ∈ up.store.activeLease, l.key = .session u) :
    ∃ l ∈ (released up n v x).store.activeLease, l.key = .session u := by
  unfold released
  split_ifs
  · exact release_other other _ held
  · exact held

theorem removedFirst_removed (inv : Inv s) (ok : Bool) : RemovedFirst s (s.removed ok) (.removed ok) := by
  intro _ u x known listed
  have removes := removed_removes inv ok
  generalize s.removed ok = t at removes
  cases removes with
  | stay => exact .inl ⟨⟨x,known,listed⟩,id⟩
  | @gone now rest v n y pass known' =>
    by_cases here : u = v
    · subst here
      right
      refine ⟨rfl,⟨n,?_⟩,released_dirs s.uploads n u y⟩
      rw [State.current,pass]
      rfl
    · left
      refine ⟨⟨x,?_,listed⟩,released_lease here n y⟩
      exact (changed_other (released_sessions s.uploads n v y) here).trans known
  | failed => exact .inl ⟨stays_listed known listed (changed_modify rfl) fun _ => rfl,id⟩

theorem not_orphaned (known : s.uploads.sessions.get u = some x) (listed : x.listed = true)
    (held : leased s u) : s.uploads.orphaned = false := by
  obtain ⟨lease,found,key⟩ := held
  obtain ⟨leaseKey,owner⟩ := lease
  cases key
  have active : s.uploads.store.activeLease = some ⟨.session u,owner⟩ := found
  simp [UploadSystem.State.orphaned,active,known,listed]

theorem removedFirst_finish (old : Bool) : RemovedFirst s (s.finish old) (.finish old) := by
  intro _ u x known listed
  left
  unfold State.finish
  split
  · split_ifs with sweeps
    · have sessions : (UploadSystem.step s.uploads .sweepOrphan).sessions = s.uploads.sessions := by
        simp only [UploadSystem.step]
        split <;> rfl
      refine ⟨⟨x,by rw [sessions]; exact known,listed⟩,fun held => ?_⟩
      rw [not_orphaned known listed held,Bool.and_false] at sweeps
      cases sweeps
    · exact ⟨⟨x,known,listed⟩,id⟩
  · exact ⟨⟨x,known,listed⟩,id⟩

theorem removedFirst_step (inv : Inv s) (l : Label) : RemovedFirst s (step limits s l) l := by
  cases l with
  | next => exact removedFirst_next
  | removed ok => exact removedFirst_removed inv ok
  | finish old => exact removedFirst_finish old
  | pass =>
    intro _ u x known listed
    left
    simp only [step]
    split <;> exact ⟨⟨x,known,listed⟩,id⟩
  | _ =>
    intro none_of_it
    cases none_of_it

theorem restores (inv : Inv s) : Restores limits s := by
  constructor
  · intro u n idle marks
    have nexts := next_nexts s
    change (s.next).current = some (u,n) at marks
    change _ ∧ Differs s s.next u _ _
    generalize s.next = t at nexts marks
    cases nexts with
    | stay =>
      rw [idle] at marks
      cases marks
    | skip | warn => cases marks
    | @mark now v rest x pass known listed =>
      cases marks
      refine ⟨⟨x,known,listed,?_⟩,?_⟩
      · by_contra reclaiming
        rcases inv.marked u x known (by simpa using reclaiming) with ⟨k,here⟩ | gone
        · rw [idle] at here
          cases here
        · rw [listed] at gone
          cases gone
      · exact ⟨changed_modify rfl,fun w => by simp,rfl,rfl,rfl,rfl,rfl,rfl⟩
  · intro u n here
    have removes := removed_removes inv false
    change Differs s (s.removed false) u _ _
    generalize s.removed false = t at removes
    cases removes with
    | stay _ idle =>
      rw [idle] at here
      cases here
    | failed pass =>
      rw [State.current,pass] at here
      cases here
      exact ⟨changed_modify rfl,fun w => get_modify _ _ _ _,rfl,rfl,rfl,rfl,rfl,rfl⟩

theorem safe_of_inv (inv : Inv s) : Safe limits s where
  unused := inv.unused
  absent u n here := by
    obtain ⟨_,x,known,reclaiming⟩ := inv.place u n here
    exact absent_of_marked known reclaiming
  removedFirst := removedFirst_step inv
  restores := restores inv

/-- If no request looks at the disk while its session is reclaimed, and no merge that was given up still
runs, reclaiming is safe. -/
theorem reclaiming_safe (reach : Reachable (step limits) (fun s l => Allowed s l ∧ Orderly s l) initial s) :
    Safe limits s := by
  have inv : Inv s := reachable_invariant initial_inv (fun _ l inv ok => inv_step inv l ok.1 ok.2) reach
  exact safe_of_inv inv

end

def upload : String := "00000000-0000-4000-8000-000000000001"

def waiting : List Label :=
  [.init upload true none ⟨"a",8,by decide,some 0,false,0⟩,.go (.register upload),.go (.opened upload true),
    .enter upload "a" (.acquireChunkRequest (.whole 5))]

/-- The request is refused, and the session is reclaimed in the end. -/
theorem reclaiming_safe_idle :
    let limits := Limits.read .nan .nan .nan .nan
    let labels := waiting ++ [.look 0 (some 0),.tick 600001,.pass,.next,.enter upload "a" .getStatus,.removed false,
      .finish true,.enter upload "a" .getStatus,.tick 600001,.pass,.next]
    let s := labels.foldl (step limits) initial
    s.current = some (upload,1) ∧ Unused s upload ∧ Absent limits s upload := by
  intro limits labels s
  have legal : Legal (step limits) (fun s l => Allowed s l ∧ Orderly s l) initial labels := by decide +kernel
  have current : s.current = some (upload,1) := by decide +kernel
  have safe : Safe limits s := reclaiming_safe (reachable_run .start labels legal)
  exact ⟨current,safe.unused _ _ current,safe.absent _ _ current⟩

/-- The request is let in after the session has been marked. -/
theorem request_overtakes_mark :
    ¬ ∀ s, Reachable (step (Limits.read .nan .nan .nan .nan)) Allowed initial s →
      Safe (Limits.read .nan .nan .nan .nan) s := by
  intro always
  let labels := waiting ++ [.tick 600001,.pass,.next,.look 0 (some 5000000000)]
  have legal : Legal (step (Limits.read .nan .nan .nan .nan)) Allowed initial labels := by decide +kernel
  have safe := always _ (reachable_run .start labels legal)
  have used : ¬ Unused (labels.foldl (step (Limits.read .nan .nan .nan .nan)) initial) upload := by decide +kernel
  exact used (safe.unused upload 0 (by decide +kernel))

end Tgtc.Reclaiming
