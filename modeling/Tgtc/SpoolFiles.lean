import Tgtc.Maps
import Tgtc.Runs

/-!
Spool sessions and their files. A session is entered in the map and its runner creates its file, fetches the upstream
and writes; followers come and go, and the last one to go starts the grace period.
-/
namespace Tgtc.SpoolFiles
open Maps Runs

/-- Where `runSpoolSession` stands. -/
inductive Runner where
  | creating | created
  | fetching | writing
  | checking
  | unwinding | leaving
  | ended
deriving DecidableEq

structure Spool where
  fileId : String
  consumerCount : Nat
  /-- `session.error` is set -/
  error : Bool
  fileReady : Bool
  completed : Bool
  teardownTimer : Bool
  runner : Runner
  /-- the file at `spoolPath` is on the disk -/
  file : Bool
  unlinks : Nat
  /-- `shutdown` has unlinked the file -/
  swept : Bool
deriving DecidableEq

def newSpool (fileId : String) : Spool := ⟨fileId,0,false,false,false,false,.creating,false,0,false⟩

structure Spools where
  sessions : List Spool
  spoolSessions : OrderedMap String Nat
  shuttingDown : Bool
  /-- the session whose unlink `shutdown` waits for -/
  sweeping : Option Nat

def initial : Spools := ⟨[],.empty,false,none⟩

def Registered (s : Spools) (i : Nat) (spool : Spool) : Prop := s.spoolSessions.get spool.fileId = some i

instance (s : Spools) (i : Nat) (spool : Spool) : Decidable (Registered s i spool) :=
  inferInstanceAs (Decidable (_ = _))

def put (s : Spools) (i : Nat) (spool : Spool) : Spools := { s with sessions := s.sessions.set i spool }

def unregister (s : Spools) (i : Nat) (spool : Spool) : Spools :=
  if Registered s i spool then { s with spoolSessions := s.spoolSessions.delete spool.fileId } else s

/-- The session leaves the map and the unlink of its file is issued; paths are never used twice. -/
def teardownSpoolSession (s : Spools) (i : Nat) (spool : Spool) : Spools :=
  put (unregister s i spool) i { spool with teardownTimer := false, error := true, unlinks := spool.unlinks + 1 }

def closeFollower (s : Spools) (i : Nat) (spool : Spool) : Spools :=
  let left := { spool with consumerCount := spool.consumerCount - 1 }
  if left.consumerCount ≠ 0 then put s i left
  else if left.error ∨ s.shuttingDown then teardownSpoolSession s i left
  else put s i { left with teardownTimer := true }

def graceOver (s : Spools) (i : Nat) (spool : Spool) : Spools :=
  let fired := { spool with teardownTimer := false }
  if Registered s i fired ∧ fired.consumerCount = 0 ∧ fired.error = false then teardownSpoolSession s i fired
  else put s i fired

def caught (spool : Spool) : Spool := { spool with error := true, teardownTimer := false, runner := .unwinding }

inductive Label where
  | register (fileId : String)
  | join (i : Nat) | close (i : Nat) | graceOver (i : Nat)
  /-- a timeout of the runner, or whoever else calls `session.abort` -/
  | abort (i : Nat)
  | teardown (i : Nat)
  | unlinked (i : Nat) (removed : Bool)
  | create (i : Nat) | createFailed (i : Nat) (left : Bool)
  | ready (i : Nat) | fetched (i : Nat)
  | failed (i : Nat)
  | drained (i : Nat) | checked (i : Nat)
  | unwound (i : Nat) (removed : Bool)
  | left (i : Nat)
  | shutdown | sweep (i : Nat) | sweepDone (i : Nat) (removed : Bool) | clear
  /-- the sweep for leftovers removes the file of a session the map does not have -/
  | sweepOrphan (i : Nat)

/-- What a label does with a session. -/
def act (s : Spools) (i : Nat) (spool : Spool) : Label → Spools
  | .join _ => put s i { spool with consumerCount := spool.consumerCount + 1, teardownTimer := false }
  | .close _ => closeFollower s i spool
  | .graceOver _ => graceOver s i spool
  | .abort _ => if spool.error ∨ spool.completed then s else put s i { spool with error := true }
  | .teardown _ => teardownSpoolSession s i spool
  | .unlinked _ removed => put s i { spool with unlinks := spool.unlinks - 1, file := spool.file && !removed }
  | .create _ => put s i { spool with file := true, runner := .created }
  | .createFailed _ left => put s i { caught spool with file := left }
  | .ready _ => put s i { spool with fileReady := true, runner := .fetching }
  | .fetched _ =>
    -- the session may have been torn down while the upstream was on its way
    if Registered s i spool then put s i { spool with runner := .writing } else put s i { spool with runner := .ended }
  | .failed _ => put s i (caught spool)
  | .drained _ => if spool.error then put s i (caught spool) else put s i { spool with runner := .checking }
  | .checked _ =>
    if spool.file then put s i { spool with completed := true, runner := .ended } else put s i (caught spool)
  | .unwound _ removed => put s i { spool with file := spool.file && !removed, runner := .leaving }
  | .left _ => put (unregister s i spool) i { spool with runner := .ended }
  | .sweep _ => { put s i { spool with teardownTimer := false } with sweeping := some i }
  | .sweepDone _ removed =>
    { put s i { spool with file := spool.file && !removed, swept := true } with sweeping := none }
  | .sweepOrphan _ => put s i { spool with file := false }
  | .register _ | .shutdown | .clear => s

def Label.session : Label → Option Nat
  | .join i | .close i | .graceOver i | .abort i | .teardown i | .unlinked i _ | .create i | .createFailed i _ | .ready i
  | .fetched i | .failed i | .drained i | .checked i | .unwound i _ | .left i | .sweep i | .sweepDone i _
  | .sweepOrphan i => some i
  | .register _ | .shutdown | .clear => none

def step (s : Spools) (l : Label) : Spools :=
  match l with
  | .register fileId =>
    { s with
      sessions := s.sessions ++ [newSpool fileId]
      spoolSessions := s.spoolSessions.set fileId s.sessions.length }
  | .shutdown => { s with shuttingDown := true }
  | .clear => { s with spoolSessions := .empty }
  | _ => match l.session with
    | some i => match s.sessions[i]? with
      | some spool => act s i spool l
      | none => s
    | none => s

/-- When a label can be taken by a session. -/
def Ready (s : Spools) (i : Nat) (spool : Spool) : Label → Prop
  | .close _ => 0 < spool.consumerCount
  | .graceOver _ => spool.teardownTimer = true
  | .unlinked _ _ => 0 < spool.unlinks
  | .create _ | .createFailed _ _ => spool.runner = .creating
  | .ready _ => spool.runner = .created
  | .fetched _ => spool.runner = .fetching
  | .failed _ => spool.runner = .fetching ∨ spool.runner = .writing ∨ spool.runner = .checking
  | .drained _ => spool.runner = .writing
  | .checked _ => spool.runner = .checking
  | .unwound _ _ => spool.runner = .unwinding
  | .left _ => spool.runner = .leaving
  | .sweep _ => s.shuttingDown = true ∧ s.sweeping = none ∧ Registered s i spool ∧ spool.swept = false
  | .sweepDone _ _ => s.sweeping = some i
  | .sweepOrphan _ => ¬Registered s i spool
  | .join _ | .abort _ | .teardown _ | .register _ | .shutdown | .clear => True

instance (s : Spools) (i : Nat) (spool : Spool) (l : Label) : Decidable (Ready s i spool l) := by
  cases l <;> unfold Ready <;> infer_instance

/-- A session is entered under the lock of its file, and `shutdown` goes through every session in the
map. -/
def Allowed (s : Spools) : Label → Prop
  | .register fileId => s.spoolSessions.get fileId = none ∧ s.shuttingDown = false
  | .shutdown => True
  | .clear => s.shuttingDown = true ∧ s.sweeping = none ∧
      ∀ e ∈ s.spoolSessions.entries, ∃ spool ∈ s.sessions[e.2]?, spool.swept = true
  | l => ∃ i ∈ l.session, ∃ spool ∈ s.sessions[i]?, Ready s i spool l

instance (s : Spools) (l : Label) : Decidable (Allowed s l) := by
  cases l <;> unfold Allowed <;> infer_instance

/-- The map has the session of every file left, but for runners that go on and unlinks on their way. -/
def NoOrphans (s : Spools) : Prop :=
  ∀ (i : Nat) (spool : Spool), s.sessions[i]? = some spool → spool.runner = .ended → ¬Registered s i spool →
    spool.unlinks = 0 → spool.file = false

/-- No unlink overtakes the creation of the file, and none fails to remove a file that is there. -/
def Orderly (s : Spools) : Label → Prop
  | .unlinked i removed | .sweepDone i removed =>
    ∀ spool ∈ s.sessions[i]?, spool.runner ≠ .creating ∧ (removed = true ∨ spool.file = false)
  | .unwound i removed => ∀ spool ∈ s.sessions[i]?, removed = true ∨ spool.file = false
  | _ => True

instance (s : Spools) (l : Label) : Decidable (Orderly s l) := by
  cases l <;> unfold Orderly <;> infer_instance

structure Kept (registered : Prop) (spool : Spool) : Prop where
  file : spool.file = true → registered ∨ 0 < spool.unlinks
  creating : spool.runner = .creating → registered ∨ 0 < spool.unlinks
  leaving : spool.runner = .leaving → spool.file = false
  swept : spool.swept = true → spool.file = false ∧ spool.runner ≠ .creating

def Inv (s : Spools) : Prop :=
  ∀ (i : Nat) (spool : Spool), s.sessions[i]? = some spool → Kept (Registered s i spool) spool

section
variable {s : Spools} {i : Nat} {spool : Spool}

theorem kept_mono {registered registered' : Prop} (kept : Kept registered spool) (more : registered → registered') :
    Kept registered' spool :=
  ⟨fun file => (kept.file file).imp more id,fun creating => (kept.creating creating).imp more id,kept.leaving,kept.swept⟩

theorem inv_put {s' : Spools} (spool' : Spool) (inv : Inv s) (bound : i < s.sessions.length)
    (sessions : s'.sessions = s.sessions.set i spool') (mine : Kept (Registered s' i spool') spool')
    (others : ∀ j other, j ≠ i → Registered s j other → Registered s' j other) : Inv s' := by
  intro j other at_j
  rw [sessions,List.getElem?_set] at at_j
  split_ifs at at_j with same
  · subst same
    cases at_j
    exact mine
  · exact kept_mono (inv j other at_j) (others j other (Ne.symm same))

theorem unregister_same (s : Spools) (i : Nat) (spool : Spool) :
    (unregister s i spool).sessions = s.sessions ∧ ¬Registered (unregister s i spool) i spool := by
  unfold unregister
  split_ifs with registered
  · simp [Registered,get_delete_same]
  · exact ⟨rfl,registered⟩

theorem unregister_others {j : Nat} {other : Spool} (different : j ≠ i) (registered : Registered s j other) :
    Registered (unregister s i spool) j other := by
  unfold unregister
  split_ifs with mine
  · have key : other.fileId ≠ spool.fileId := by
      intro same
      unfold Registered at registered mine
      rw [same,mine] at registered
      exact different (Option.some.inj registered).symm
    exact (get_delete_other _ key).trans registered
  · exact registered

theorem inv_teardown (inv : Inv s) {before : Spool} (found : s.sessions[i]? = some before)
    (sweep : before.swept = spool.swept ∧ before.file = spool.file ∧ before.runner = spool.runner) :
    Inv (teardownSpoolSession s i spool) := by
  obtain ⟨bound,_⟩ := List.getElem?_eq_some_iff.mp found
  obtain ⟨sweep,file,runner⟩ := sweep
  obtain ⟨_,_,leaving,swept⟩ := inv i before found
  rw [sweep,file,runner] at swept
  rw [file,runner] at leaving
  obtain ⟨sessions,_⟩ := unregister_same s i spool
  refine inv_put { spool with teardownTimer := false, error := true, unlinks := spool.unlinks + 1 } inv bound ?_ ?_
    fun j other different registered => unregister_others different registered
  · rw [← sessions]
    rfl
  · exact ⟨fun _ => .inr (Nat.succ_pos _),fun _ => .inr (Nat.succ_pos _),leaving,swept⟩

variable {spool' : Spool}

section
variable (inv : Inv s) (found : s.sessions[i]? = some spool)
include inv found

theorem inv_put_same (mine : Kept (Registered s i spool) spool → Kept (Registered s i spool') spool') : Inv (put s i spool') :=
  inv_put spool' inv (at_lt found) rfl (mine (inv i spool found)) fun _ _ _ registered => registered

theorem inv_caught : Inv (put s i (caught spool)) := by
  refine inv_put_same inv found fun kept => ⟨kept.file,fun creating => ?_,fun leaving => ?_,fun swept => ⟨?_,?_⟩⟩
  · cases creating
  · cases leaving
  · exact (kept.swept swept).1
  · simp [caught]

theorem inv_onward (fileId : spool'.fileId = spool.fileId)
    (file : spool'.file = spool.file) (unlinks : spool'.unlinks = spool.unlinks) (swept : spool'.swept = spool.swept)
    (later : spool'.runner ≠ .creating ∧ spool'.runner ≠ .leaving) : Inv (put s i spool') := by
  refine inv_put_same inv found fun kept => ⟨?_,fun creating => absurd creating later.1,
    fun leaving => absurd leaving later.2,fun sweep => ⟨?_,later.1⟩⟩
  · unfold Registered
    rw [file,unlinks,fileId]
    exact kept.file
  · rw [file]
    exact (kept.swept (swept ▸ sweep)).1

theorem inv_aside (fileId : spool'.fileId = spool.fileId)
    (file : spool'.file = spool.file) (unlinks : spool'.unlinks = spool.unlinks) (swept : spool'.swept = spool.swept)
    (runner : spool'.runner = spool.runner) : Inv (put s i spool') := by
  refine inv_put_same inv found fun kept => ⟨?_,?_,?_,?_⟩
  · unfold Registered
    rw [file,unlinks,fileId]
    exact kept.file
  · unfold Registered
    rw [runner,unlinks,fileId]
    exact kept.creating
  · rw [runner,file]
    exact kept.leaving
  · rw [swept,file,runner]
    exact kept.swept

theorem inv_unlink (file : spool'.file = false) (later : spool'.runner ≠ .creating) : Inv (put s i spool') := by
  refine inv_put_same inv found fun _ => ⟨fun there => ?_,fun creating => absurd creating later,fun _ => file,
    fun _ => ⟨file,later⟩⟩
  rw [file] at there
  cases there

end

theorem inv_initial : Inv initial := by
  intro i spool found
  simp [initial] at found

theorem inv_register (inv : Inv s) (fileId : String) (free : s.spoolSessions.get fileId = none) :
    Inv (step s (.register fileId)) := by
  intro j other at_j
  simp only [step] at at_j
  by_cases old : j < s.sessions.length
  · rw [List.getElem?_append_left old] at at_j
    refine kept_mono (inv j other at_j) fun registered => ?_
    have key : other.fileId ≠ fileId := by
      intro same
      unfold Registered at registered
      rw [same,free] at registered
      cases registered
    exact (get_set_other _ _ key).trans registered
  · have last : j = s.sessions.length := by
      have := at_lt at_j
      simp only [List.length_append,List.length_singleton] at this
      omega
    subst last
    rw [List.getElem?_concat_length] at at_j
    cases at_j
    have registered : Registered (step s (.register fileId)) s.sessions.length (newSpool fileId) := get_set_same _ _ _
    exact ⟨fun _ => .inl registered,fun _ => .inl registered,nofun,nofun⟩

theorem inv_clear (inv : Inv s)
    (swept : ∀ e ∈ s.spoolSessions.entries, ∃ spool ∈ s.sessions[e.2]?, spool.swept = true) : Inv (step s .clear) := by
  intro j other at_j
  have kept := inv j other at_j
  have gone : Registered s j other → other.file = false ∧ other.runner ≠ .creating := by
    intro registered
    obtain ⟨spool,found,sweep⟩ := swept _ ((get_eq_some_iff _ _ _).mp registered)
    have same : s.sessions[j]? = some other := at_j
    rw [same] at found
    cases found
    exact kept.swept sweep
  refine ⟨fun file => ?_,fun creating => ?_,kept.leaving,kept.swept⟩
  · rcases kept.file file with registered | unlinks
    · rw [(gone registered).1] at file
      cases file
    · exact .inr unlinks
  · rcases kept.creating creating with registered | unlinks
    · exact absurd creating (gone registered).2
    · exact .inr unlinks

theorem inv_left (inv : Inv s) (found : s.sessions[i]? = some spool) (leaving : spool.runner = .leaving) :
    Inv (put (unregister s i spool) i { spool with runner := .ended }) := by
  have kept := inv i spool found
  have absent := kept.leaving leaving
  obtain ⟨sessions,_⟩ := unregister_same s i spool
  refine inv_put { spool with runner := .ended } inv (at_lt found) ?_ ?_
    fun j other different registered => unregister_others different registered
  · rw [← sessions]
    rfl
  · refine ⟨fun file => ?_,nofun,nofun,fun _ => ⟨absent,by simp⟩⟩
    rw [absent] at file
    cases file

theorem inv_fields {s' : Spools} (inv : Inv s) (sessions : s'.sessions = s.sessions)
    (map : s'.spoolSessions = s.spoolSessions) : Inv s' := by
  intro j other at_j
  rw [sessions] at at_j
  have kept := inv j other at_j
  unfold Registered at kept ⊢
  rwa [map]

theorem act_inv (inv : Inv s) (found : s.sessions[i]? = some spool) {l : Label} (mine : l.session = some i)
    (ready : Ready s i spool l) (orderly : Orderly s l) : Inv (act s i spool l) := by
  have removedFile : ∀ removed, (removed = true ∨ spool.file = false) → (spool.file && !removed) = false := by
    rintro removed (rfl | absent)
    · simp
    · simp [absent]
  cases l with
  | register fileId | shutdown | clear => exact inv
  | join k => exact inv_aside inv found rfl rfl rfl rfl rfl
  | close k =>
    simp only [act,closeFollower]
    split_ifs
    · exact inv_aside inv found rfl rfl rfl rfl rfl
    · exact inv_teardown inv found ⟨rfl,rfl,rfl⟩
    · exact inv_aside inv found rfl rfl rfl rfl rfl
  | graceOver k =>
    simp only [act,graceOver]
    split_ifs
    · exact inv_teardown inv found ⟨rfl,rfl,rfl⟩
    · exact inv_aside inv found rfl rfl rfl rfl rfl
  | abort k =>
    simp only [act]
    split_ifs
    · exact inv
    · exact inv_aside inv found rfl rfl rfl rfl rfl
  | teardown k => exact inv_teardown inv found ⟨rfl,rfl,rfl⟩
  | unlinked k removed =>
    cases mine
    obtain ⟨later,removes⟩ := orderly spool found
    exact inv_unlink inv found (removedFile removed removes) later
  | create k | createFailed k left =>
    refine inv_put_same inv found fun kept => ⟨fun _ => kept.creating ready,nofun,
      nofun,fun swept => absurd ready (kept.swept swept).2⟩
  | ready k => exact inv_onward inv found rfl rfl rfl rfl ⟨by simp,by simp⟩
  | fetched k =>
    simp only [act]
    split_ifs
    · exact inv_onward inv found rfl rfl rfl rfl ⟨by simp,by simp⟩
    · exact inv_onward inv found rfl rfl rfl rfl ⟨by simp,by simp⟩
  | failed k => exact inv_caught inv found
  | drained k =>
    simp only [act]
    split_ifs
    · exact inv_caught inv found
    · exact inv_onward inv found rfl rfl rfl rfl ⟨by simp,by simp⟩
  | checked k =>
    simp only [act]
    split_ifs
    · exact inv_onward inv found rfl rfl rfl rfl ⟨by simp,by simp⟩
    · exact inv_caught inv found
  | unwound k removed =>
    cases mine
    exact inv_unlink inv found (removedFile removed (orderly spool found)) (by simp)
  | left k => exact inv_left inv found ready
  | sweep k =>
    exact inv_fields (inv_aside inv found rfl rfl rfl rfl rfl :
      Inv (put s i { spool with teardownTimer := false })) rfl rfl
  | sweepDone k removed =>
    cases mine
    obtain ⟨later,removes⟩ := orderly spool found
    have unlinked : Inv (put s i { spool with file := spool.file && !removed, swept := true }) :=
      inv_unlink inv found (removedFile removed removes) later
    exact inv_fields unlinked rfl rfl
  | sweepOrphan k =>
    refine inv_put_same inv found fun kept => ⟨nofun,kept.creating,fun _ => rfl,fun swept => ?_⟩
    exact ⟨rfl,(kept.swept swept).2⟩

theorem step_inv (inv : Inv s) (l : Label) (allowed : Allowed s l) (orderly : Orderly s l) : Inv (step s l) := by
  have own : (∃ i ∈ l.session, ∃ spool ∈ s.sessions[i]?, Ready s i spool l) →
      ∃ i spool, Inv (act s i spool l) ∧ l.session = some i ∧ s.sessions[i]? = some spool := by
    rintro ⟨i,mine,spool,found,ready⟩
    exact ⟨i,spool,act_inv inv found mine ready orderly,mine,found⟩
  cases l with
  | register fileId => exact inv_register inv fileId allowed.1
  | shutdown => exact inv_fields inv rfl rfl
  | clear => exact inv_clear inv allowed.2.2
  | _ =>
    obtain ⟨i,spool,kept,mine,found⟩ := own allowed
    simp only [step,mine,found]
    exact kept

theorem reachable_inv (reach : Reachable step (fun s l => Allowed s l ∧ Orderly s l) initial s) : Inv s :=
  reachable_invariant inv_initial (fun _ l inv ok => step_inv inv l ok.1 ok.2) reach

end

/-- In every run in which no unlink overtakes the creation of its file and none fails, no file is left of a session that
is gone. -/
theorem no_orphan_spool_files {s : Spools} (reach : Reachable step (fun s l => Allowed s l ∧ Orderly s l) initial s) :
    NoOrphans s := by
  intro i spool found _ gone idle
  have kept := reachable_inv reach i spool found
  by_contra there
  rcases kept.file (by simpa using there) with registered | unlinks
  · exact gone registered
  · omega

def servedAndGone : List Label :=
  [.register "a",.join 0,.create 0,.ready 0,.fetched 0,.drained 0,.checked 0,.close 0,.graceOver 0,.unlinked 0 true]

theorem no_orphan_spool_files_served :
    let s := servedAndGone.foldl step initial
    (∃ spool, s.sessions[0]? = some spool ∧ spool.completed = true ∧ spool.runner = .ended ∧ ¬Registered s 0 spool ∧
      spool.unlinks = 0 ∧ spool.file = false) ∧ NoOrphans s := by
  have legal : Legal step (fun s l => Allowed s l ∧ Orderly s l) initial servedAndGone := by decide +kernel
  refine ⟨⟨⟨"a",0,true,true,true,false,.ended,false,0,false⟩,by decide +kernel,rfl,rfl,by decide +kernel,rfl,rfl⟩,?_⟩
  exact no_orphan_spool_files (reachable_run .start servedAndGone legal)

/-- The session is replaced while its file is still being created, and both unlinks find nothing. -/
def overtaken : List Label :=
  [.register "a",.join 0,.teardown 0,.unlinked 0 false,.close 0,.unlinked 0 false,.create 0,.ready 0,.fetched 0]

/-- The runner finds its session gone and returns without removing the file it created after the unlinks. -/
theorem overtaken_leaves_spool_file :
    let s := overtaken.foldl step initial
    Reachable step Allowed initial s ∧ ∃ spool, s.sessions[0]? = some spool ∧ spool.runner = .ended ∧
      ¬Registered s 0 spool ∧ spool.unlinks = 0 ∧ spool.file = true := by
  have legal : Legal step Allowed initial overtaken := by decide +kernel
  exact ⟨reachable_run .start overtaken legal,⟨"a",0,true,true,false,false,.ended,true,0,false⟩,by decide +kernel,rfl,
    by decide +kernel,rfl,rfl⟩

end Tgtc.SpoolFiles
