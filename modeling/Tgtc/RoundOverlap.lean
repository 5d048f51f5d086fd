import Tgtc.ReplicationRounds
import Tgtc.Runs

/-!
Rounds when calls overlap. Every call is a sequence of reads and writes of the table with others in between; as long
as every write finds the rows as the call has left them, nothing is lost.
-/
namespace Tgtc.RoundOverlap
open Runs ReplicationRounds Maps

inductive Call where
  | beginRound (input : RoundInput)
  | recordClaim (targetChatId : Option String) (account : String)
  | finishBlocked (i : Nat) (input : BlockedInput)
  | settleClaims (i : Nat) (params : ClaimParams)
  | markRelayStarted (i : Nat)
  | markRelaySucceeded (i : Nat) (params : RelayParams)
  | purgeStale (activeBefore terminalBefore : Int)

inductive Proc where
  | beginRound (input : RoundInput) (now : Int) (queried : Nat)
  | openRound (input : RoundInput) (now : Int) (latest : Option (Nat × Row))
  | recordClaim (targetChatId : Option String) (account : String) (queried : Nat)
  | writeClaim (account : String) (i : Nat) (active : Row)
  | finishBlocked (i : Nat) (input : BlockedInput) (now : Int)
  | writeBlocked (i : Nat) (input : BlockedInput) (now : Int) (latest : Option Row)
  | settleClaims (i : Nat) (params : ClaimParams)
  | writeClaims (i : Nat) (params : ClaimParams) (now : Int) (attempt : Row)
  | markRelayStarted (i : Nat)
  | markRelaySucceeded (i : Nat) (params : RelayParams)
  | purgeStale (activeBefore terminalBefore : Int)
  | converge (rows : List (Nat × Row)) (terminalBefore : Int)
  | collect (terminalBefore : Int)
  | remove (ids : List Nat)
  | ended

def Call.proc (now : Int) : Call → Proc
  | .beginRound input => .beginRound input now 0
  | .recordClaim targetChatId account => if account = "" then .ended else .recordClaim targetChatId account 0
  | .finishBlocked i input => .finishBlocked i input now
  | .settleClaims i params => .settleClaims i params
  | .markRelayStarted i => .markRelayStarted i
  | .markRelaySucceeded i params => .markRelaySucceeded i params
  | .purgeStale activeBefore terminalBefore => .purgeStale activeBefore terminalBefore

structure State where
  rows : Table
  now : Int
  procs : List Proc
  recorded : List (Nat × String)

def initial : State := ⟨[],0,[],[]⟩

def rowAt (rows : Table) (i : Nat) : Option Row := rows[i]?.bind id

def find (rows : Table) (wanted : Row → Bool) (take : Nat) : List (Nat × Row) :=
  ((List.range rows.length).filterMap fun i => ((rowAt rows i).filter wanted).map (i,·)).take take

def State.goes (s : State) (n : Nat) (rows : Table) (proc : Proc) : State :=
  { s with rows, procs := s.procs.set n proc }

def decided (input : RoundInput) (now : Int) (latest : Option (Nat × Row)) : Proc :=
  match beginDecision (latest.map Prod.snd) input now with
  | .reuse | .skip => .ended
  | .merge | .create => .openRound input now latest

/-- The next access to the table. -/
def State.advance (s : State) (n : Nat) : Proc → State
  | .beginRound input now queried => match (scopes input.targetChatId)[queried]? with
    | none => s.goes n s.rows (decided input now none)
    | some scope => match findOne s.rows scope with
      | some found => s.goes n s.rows (decided input now (some found))
      | none => s.goes n s.rows (.beginRound input now (queried + 1))
  | .openRound input now latest => match beginDecision (latest.map Prod.snd) input now, latest with
    | .merge, some (i,row) => s.goes n (update s.rows i (mergePatch row input now)) .ended
    | .create, _ => s.goes n (s.rows ++ [some (createRow (latest.map Prod.snd) input now s.now)]) .ended
    | _, _ => s.goes n s.rows .ended
  | .recordClaim targetChatId account queried => match (scopes targetChatId)[queried]? with
    | none => s.goes n s.rows .ended
    | some scope => match findOne s.rows (fun row => scope row && row.status.active) with
      | some (i,row) =>
        if account ∈ row.claimed then { s.goes n s.rows .ended with recorded := (i,account) :: s.recorded }
        else s.goes n s.rows (.writeClaim account i row)
      | none => s.goes n s.rows (.recordClaim targetChatId account (queried + 1))
  | .writeClaim account i active =>
    { s.goes n (update s.rows i (claimPatch active account s.now)) .ended with recorded := (i,account) :: s.recorded }
  | .finishBlocked i input now =>
    s.goes n s.rows (.writeBlocked i input now (if input.status = .retryableFailed then rowAt s.rows i else none))
  | .writeBlocked i input now latest => s.goes n (update s.rows i (finishBlockedPatch latest input now)) .ended
  | .settleClaims i params => match rowAt s.rows i with
    | some row => s.goes n s.rows (.writeClaims i params s.now row)
    | none => s.goes n s.rows .ended
  | .writeClaims i params now attempt => s.goes n (update s.rows i (settleClaimsPatch attempt params now)) .ended
  | .markRelayStarted i => s.goes n (update s.rows i (relayStartedPatch s.now)) .ended
  | .markRelaySucceeded i params => s.goes n (update s.rows i (relaySucceededPatch params s.now)) .ended
  | .purgeStale activeBefore terminalBefore =>
    s.goes n s.rows (.converge (find s.rows (hanging activeBefore) 500) terminalBefore)
  | .converge ((i,row) :: rest) terminalBefore =>
    s.goes n (update s.rows i (convergePatch row s.now)) (.converge rest terminalBefore)
  | .converge [] terminalBefore => s.goes n s.rows (.collect terminalBefore)
  | .collect terminalBefore =>
    let stale := find s.rows (fun row => !row.status.active && row.updatedAt < terminalBefore) 5000
    s.goes n s.rows (.remove ((stale.filter fun e => !e.2.nextRetryAt.any (· > s.now)).map Prod.fst))
  | .remove ids => s.goes n (s.rows.mapIdx fun i row => if i ∈ ids then none else row) .ended
  | .ended => s

/-- The access fails; `finishBlocked` goes on without the row it wanted to read. -/
def State.miss (s : State) (n : Nat) : Proc → State
  | .finishBlocked i input now => s.goes n s.rows (.writeBlocked i input now none)
  | _ => s.goes n s.rows .ended

inductive Label where
  | call (c : Call)
  | go (n : Nat)
  | miss (n : Nat)
  | tick (ms : Nat)

def step (s : State) : Label → State
  | .call c => { s with procs := s.procs ++ [c.proc s.now] }
  | .go n => match s.procs[n]? with
    | some proc => s.advance n proc
    | none => s
  | .miss n => match s.procs[n]? with
    | some proc => s.miss n proc
    | none => s
  | .tick ms => { s with now := s.now + ms }

structure Sound (s : State) : Prop where
  single : ∀ i j r r', rowAt s.rows i = some r → rowAt s.rows j = some r' → r.status.active = true →
    r'.status.active = true → r.targetChatId = r'.targetChatId → i = j
  claims : ∀ i account, (i,account) ∈ s.recorded → ∀ row, rowAt s.rows i = some row → account ∈ row.claimed

def Final (s s' : State) : Prop :=
  ∀ i row row', rowAt s.rows i = some row → row.status.active = false → rowAt s'.rows i = some row' →
    row'.status = row.status

/-- What a write has to find. -/
def Ready (s : State) : Proc → Prop
  | .openRound input now latest => match beginDecision (latest.map Prod.snd) input now, latest with
    -- no round is opened again
    | .merge, some (i,_) => rowAt s.rows i = none
    -- no round of the target is under way
    | .create, _ => ∀ entry ∈ s.rows, ∀ row ∈ entry, row.status.active = true → row.targetChatId ≠ input.targetChatId
    | _, _ => True
  -- no claim has come since
  | .writeClaim _ i active => ∀ row ∈ rowAt s.rows i, ∀ a ∈ row.claimed, a ∈ active.claimed
  -- the round is under way, and its claims are among those that are written
  | .writeBlocked i input _ _ => ∀ row ∈ rowAt s.rows i, row.status.active = true ∧
    ∀ a ∈ row.claimed, a ∈ input.claimedAccountIds.getD []
  | .writeClaims i params _ _ => ∀ row ∈ rowAt s.rows i, row.status.active = true ∧ ∀ a ∈ row.claimed, a ∈ params.ready
  | .markRelayStarted i => ∀ row ∈ rowAt s.rows i, row.status.active = true
  | .markRelaySucceeded i _ => ∀ row ∈ rowAt s.rows i, row.status.active = true
  | .converge ((i,_) :: _) _ => ∀ row ∈ rowAt s.rows i, row.status.active = true
  | _ => True

instance (s : State) (proc : Proc) : Decidable (Ready s proc) := by
  unfold Ready
  split
  · split <;> infer_instance
  all_goals infer_instance

def Orderly (s : State) : Label → Prop
  | .go n => ∀ proc ∈ s.procs[n]?, Ready s proc
  | _ => True

instance (s : State) (l : Label) : Decidable (Orderly s l) := by
  cases l <;> unfold Orderly <;> infer_instance

section
variable {s t : State} {i : Nat}

theorem rowAt_some {rows : Table} {row : Row} : rowAt rows i = some row ↔ rows[i]? = some (some row) := by
  simp [rowAt,Option.bind_eq_some_iff]

/-- The status of a round that has ended stays, no round is begun, and no claim is lost. -/
structure Keeps (row row' : Row) : Prop where
  target : row'.targetChatId = row.targetChatId
  active : row'.status.active = true → row.status.active = true
  final : row.status.active = false → row'.status = row.status
  claims : ∀ a ∈ row.claimed, a ∈ row'.claimed

theorem keeps_refl (row : Row) : Keeps row row := ⟨rfl,id,fun _ => rfl,fun _ => id⟩

def KeepsRows (rows rows' : Table) : Prop := ∀ i row', rowAt rows' i = some row' → ∃ row, rowAt rows i = some row ∧ Keeps row row'

theorem keepsRows_refl (rows : Table) : KeepsRows rows rows := fun _ row' found => ⟨row',found,keeps_refl row'⟩

theorem keepsRows_update {patch : Row → Row} (keeps : ∀ row, rowAt s.rows i = some row → Keeps row (patch row)) :
    KeepsRows s.rows (update s.rows i patch) := by
  intro j row' found
  rcases update_at (rowAt_some.mp found) with ⟨_,known⟩ | ⟨rfl,old,known,rfl⟩
  · exact ⟨row',rowAt_some.mpr known,keeps_refl row'⟩
  · exact ⟨old,rowAt_some.mpr known,keeps old (rowAt_some.mpr known)⟩

theorem sound_keeps (sound : Sound s) (rows : KeepsRows s.rows t.rows)
    (recorded : ∀ e ∈ t.recorded, e ∈ s.recorded ∨ ∀ row, rowAt t.rows e.1 = some row → e.2 ∈ row.claimed) : Sound t := by
  constructor
  · intro j k r r' found found' live live' same
    obtain ⟨old,known,keeps⟩ := rows j r found
    obtain ⟨old',known',keeps'⟩ := rows k r' found'
    refine sound.single j k old old' known known' (keeps.active live) (keeps'.active live') ?_
    rw [← keeps.target,← keeps'.target,same]
  · intro j account member row found
    rcases recorded _ member with before | written
    · obtain ⟨old,known,keeps⟩ := rows j row found
      exact keeps.claims account (sound.claims j account before old known)
    · exact written row found

theorem final_keeps (rows : KeepsRows s.rows t.rows) : Final s t := by
  intro j row row' known ended found
  obtain ⟨old,known',keeps⟩ := rows j row' found
  cases known.symm.trans known'
  exact keeps.final ended

theorem keeps_active {row row' : Row} (target : row'.targetChatId = row.targetChatId) (live : row.status.active = true)
    (claims : ∀ a ∈ row.claimed, a ∈ row'.claimed) : Keeps row row' := by
  refine ⟨target,fun _ => live,fun ended => ?_,claims⟩
  rw [live] at ended
  cases ended

theorem sound_insert (sound : Sound s) {new : Row} (rows : t.rows = s.rows ++ [some new]) (recorded : t.recorded = s.recorded)
    (known : ∀ e ∈ s.recorded, e.1 < s.rows.length)
    (free : ∀ entry ∈ s.rows, ∀ row ∈ entry, row.status.active = true → row.targetChatId ≠ new.targetChatId) : Sound t := by
  have back : ∀ j r, rowAt t.rows j = some r → rowAt s.rows j = some r ∨ j = s.rows.length ∧ r = new := by
    intro j r found
    rw [rows] at found
    rcases Maps.at_of_append (rowAt_some.mp found) with old | ⟨rfl,same⟩
    · exact .inl (rowAt_some.mpr old)
    · exact .inr ⟨rfl,Option.some.inj same⟩
  have apart : ∀ j r, rowAt s.rows j = some r → r.status.active = true → r.targetChatId ≠ new.targetChatId :=
    fun j r found live => free _ (List.mem_of_getElem? (rowAt_some.mp found)) r rfl live
  constructor
  · intro j k r r' found found' live live' same
    rcases back j r found with old | ⟨rfl,rfl⟩
    · rcases back k r' found' with old' | ⟨rfl,rfl⟩
      · exact sound.single j k r r' old old' live live' same
      · exact absurd same (apart j r old live)
    · rcases back k r' found' with old' | ⟨rfl,_⟩
      · exact absurd same.symm (apart k r' old' live')
      · rfl
  · intro j account member row found
    rw [recorded] at member
    rcases back j row found with old | ⟨rfl,_⟩
    · exact sound.claims j account member row old
    · exact absurd (known _ member) (Nat.lt_irrefl _)

theorem final_insert {new : Row} (rows : t.rows = s.rows ++ [some new]) : Final s t := by
  intro j row row' known ended found
  rw [rows] at found
  have bound := (List.getElem?_eq_some_iff.mp (rowAt_some.mp known)).1
  rw [rowAt_some,List.getElem?_append_left bound,← rowAt_some,known] at found
  cases found
  rfl

/-- The claims that are recorded, and those that are about to be, are of rows that there were. -/
structure Inv (s : State) : Prop where
  sound : Sound s
  recorded : ∀ e ∈ s.recorded, e.1 < s.rows.length
  writing : ∀ (n : Nat) (account : String) (i : Nat) (active : Row), s.procs[n]? = some (.writeClaim account i active) → i < s.rows.length

theorem initial_inv : Inv initial := by
  refine ⟨⟨?_,?_⟩,?_,?_⟩
  · intro i j r r' found
    cases found
  · intro i account member
    cases member
  · intro e member
    cases member
  · intro n account i active found
    cases found

inductive Does (s : State) (n : Nat) : Proc → State → Prop
  | reads {p : Proc} (q : Proc) (target : ∀ account i active, q = .writeClaim account i active → i < s.rows.length) :
      Does s n p (s.goes n s.rows q)
  | idle {p : Proc} : Does s n p s
  | found {p : Proc} {account : String} {i : Nat} {row : Row} (known : rowAt s.rows i = some row)
      (there : account ∈ row.claimed) :
      Does s n p { s.goes n s.rows .ended with recorded := (i,account) :: s.recorded }
  | records {account : String} {i : Nat} {active : Row} :
      Does s n (.writeClaim account i active)
        { s.goes n (update s.rows i (claimPatch active account s.now)) .ended with recorded := (i,account) :: s.recorded }
  | writes {p q : Proc} {i : Nat} {patch : Row → Row} (still : ∀ account i active, q ≠ .writeClaim account i active)
      (keeps : Ready s p → ∀ row, rowAt s.rows i = some row → Keeps row (patch row)) :
      Does s n p (s.goes n (update s.rows i patch) q)
  | inserts {p : Proc} {new : Row} (free : Ready s p → ∀ entry ∈ s.rows, ∀ row ∈ entry, row.status.active = true →
      row.targetChatId ≠ new.targetChatId) : Does s n p (s.goes n (s.rows ++ [some new]) .ended)
  | removes {ids : List Nat} :
      Does s n (.remove ids) (s.goes n (s.rows.mapIdx fun i row => if i ∈ ids then none else row) .ended)

theorem decided_reads (input : RoundInput) (now : Int) (latest : Option (Nat × Row)) (account : String) (i : Nat) (active : Row) :
    decided input now latest ≠ .writeClaim account i active := by
  unfold decided
  split <;> simp

theorem advance_does (s : State) (n : Nat) (p : Proc) : Does s n p (s.advance n p) := by
  cases p with
  | beginRound input now queried =>
    simp only [State.advance]
    split
    · exact .reads _ fun _ _ _ equal => absurd equal (decided_reads _ _ _ _ _ _)
    · split
      · exact .reads _ fun _ _ _ equal => absurd equal (decided_reads _ _ _ _ _ _)
      · exact .reads _ fun _ _ _ equal => by cases equal
  | openRound input now latest =>
    simp only [State.advance]
    split
    · next i row merges =>
      refine .writes (fun _ _ _ equal => by cases equal) fun ready found known => ?_
      simp only [Ready,merges] at ready
      rw [ready] at known
      cases known
    · next creates =>
      refine .inserts fun ready => ?_
      simp only [Ready,creates] at ready
      exact ready
    · exact .reads _ fun _ _ _ equal => by cases equal
  | recordClaim targetChatId account queried =>
    simp only [State.advance]
    split
    · exact .reads _ fun _ _ _ equal => by cases equal
    split
    · next i row found =>
      obtain ⟨known,_,_⟩ := findOne_some found
      split_ifs with there
      · exact .found (rowAt_some.mpr known) there
      · refine .reads _ fun _ _ _ equal => ?_
        cases equal
        exact at_lt known
    · exact .reads _ fun _ _ _ equal => by cases equal
  | writeClaim account i active => exact .records
  | finishBlocked i input now => exact .reads _ fun _ _ _ equal => by cases equal
  | writeBlocked i input now latest =>
    refine .writes (fun _ _ _ equal => by cases equal) fun ready row known => ?_
    obtain ⟨live,claims⟩ := ready row known
    exact keeps_active rfl live claims
  | settleClaims i params =>
    simp only [State.advance]
    split
    · exact .reads _ fun _ _ _ equal => by cases equal
    · exact .reads _ fun _ _ _ equal => by cases equal
  | writeClaims i params now attempt =>
    refine .writes (fun _ _ _ equal => by cases equal) fun ready row known => ?_
    obtain ⟨live,claims⟩ := ready row known
    exact keeps_active rfl live claims
  | markRelayStarted i | markRelaySucceeded i params =>
    exact .writes (fun _ _ _ equal => by cases equal) fun ready row known => keeps_active rfl (ready row known) fun _ => id
  | purgeStale activeBefore terminalBefore => exact .reads _ fun _ _ _ equal => by cases equal
  | converge rows terminalBefore =>
    cases rows with
    | nil => exact .reads _ fun _ _ _ equal => by cases equal
    | cons e rest =>
      exact .writes (fun _ _ _ equal => by cases equal) fun ready row known => keeps_active rfl (ready row known) fun _ => id
  | collect terminalBefore => exact .reads _ fun _ _ _ equal => by cases equal
  | remove ids => exact .removes
  | ended => exact .idle

theorem writing_goes (inv : Inv s) {n : Nat} {rows : Table} {q : Proc} (longer : s.rows.length ≤ rows.length)
    (target : ∀ account i active, q = .writeClaim account i active → i < rows.length) :
    ∀ (m : Nat) (account : String) (i : Nat) (active : Row), (s.goes n rows q).procs[m]? = some (.writeClaim account i active) → i < rows.length := by
  intro m account i active found
  rcases Maps.at_of_set found with ⟨_,same⟩ | ⟨_,old⟩
  · exact target account i active same.symm
  · exact Nat.lt_of_lt_of_le (inv.writing m account i active old) longer

theorem does_inv (inv : Inv s) {n : Nat} {p : Proc} (running : s.procs[n]? = some p) (does : Does s n p t)
    (ready : Ready s p) : Inv t ∧ Final s t := by
  cases does with
  | reads q target =>
    refine ⟨⟨?_,inv.recorded,writing_goes inv (Nat.le_refl _) target⟩,final_keeps (keepsRows_refl _)⟩
    exact sound_keeps inv.sound (keepsRows_refl _) fun _ => .inl
  | idle => exact ⟨inv,final_keeps (keepsRows_refl _)⟩
  | @found _ account i row known there =>
    refine ⟨⟨?_,?_,writing_goes inv (Nat.le_refl _) (fun _ _ _ equal => by cases equal)⟩,final_keeps (keepsRows_refl _)⟩
    · refine sound_keeps inv.sound (keepsRows_refl _) fun e member => ?_
      rcases List.mem_cons.mp member with rfl | old
      · refine .inr fun r found => ?_
        cases known.symm.trans found
        exact there
      · exact .inl old
    · intro e member
      rcases List.mem_cons.mp member with rfl | old
      · exact (List.getElem?_eq_some_iff.mp (rowAt_some.mp known)).1
      · exact inv.recorded e old
  | @records account i active =>
    have bound := inv.writing n account i active running
    have keeps : KeepsRows s.rows (update s.rows i (claimPatch active account s.now)) :=
      keepsRows_update fun row known => ⟨rfl,id,fun _ => rfl,fun a member => by
        exact List.mem_append_left _ (ready row known a member)⟩
    have length := update_length s.rows i (claimPatch active account s.now)
    refine ⟨⟨?_,?_,?_⟩,final_keeps keeps⟩
    · refine sound_keeps inv.sound keeps fun e member => ?_
      rcases List.mem_cons.mp member with rfl | old
      · refine .inr fun r found => ?_
        rcases update_at (rowAt_some.mp found) with ⟨other,_⟩ | ⟨_,row,_,rfl⟩
        · exact absurd rfl other
        · simp [claimPatch,Row.claimed]
      · exact .inl old
    · intro e member
      change e.1 < (update s.rows i (claimPatch active account s.now)).length
      rw [length]
      rcases List.mem_cons.mp member with rfl | old
      · exact bound
      · exact inv.recorded e old
    · exact writing_goes inv (Nat.le_of_eq length.symm) (fun _ _ _ equal => by cases equal)
  | @writes _ q i patch still keeps =>
    have kept := keepsRows_update (keeps ready)
    have length := update_length s.rows i patch
    refine ⟨⟨sound_keeps inv.sound kept fun _ => .inl,?_,?_⟩,final_keeps kept⟩
    · intro e member
      change e.1 < (update s.rows i patch).length
      rw [length]
      exact inv.recorded e member
    · exact writing_goes inv (Nat.le_of_eq length.symm) fun account j active equal => absurd equal (still account j active)
  | @inserts _ new free =>
    have longer : s.rows.length ≤ (s.rows ++ [some new]).length := by simp
    refine ⟨⟨?_,?_,?_⟩,final_insert rfl⟩
    · exact sound_insert inv.sound rfl rfl inv.recorded (free ready)
    · exact fun e member => Nat.lt_of_lt_of_le (inv.recorded e member) longer
    · exact writing_goes inv longer (fun _ _ _ equal => by cases equal)
  | @removes ids =>
    have kept : KeepsRows s.rows (s.rows.mapIdx fun i row => if i ∈ ids then none else row) := by
      intro j row found
      rw [rowAt_some,List.getElem?_mapIdx,Option.map_eq_some_iff] at found
      obtain ⟨old,known,equal⟩ := found
      split_ifs at equal
      subst equal
      exact ⟨row,rowAt_some.mpr known,keeps_refl row⟩
    have length : (s.rows.mapIdx fun i row => if i ∈ ids then none else row).length = s.rows.length := by simp
    refine ⟨⟨sound_keeps inv.sound kept fun _ => .inl,?_,?_⟩,final_keeps kept⟩
    · intro e member
      change e.1 < (s.rows.mapIdx fun i row => if i ∈ ids then none else row).length
      rw [length]
      exact inv.recorded e member
    · exact writing_goes inv (Nat.le_of_eq length.symm) (fun _ _ _ equal => by cases equal)

theorem inv_step (inv : Inv s) (l : Label) (orderly : Orderly s l) : Inv (step s l) ∧ Final s (step s l) := by
  cases l with
  | call c =>
    refine ⟨⟨⟨inv.sound.single,inv.sound.claims⟩,inv.recorded,fun n account i active found => ?_⟩,
      final_keeps (keepsRows_refl _)⟩
    rcases Maps.at_of_append found with old | ⟨_,same⟩
    · exact inv.writing n account i active old
    · cases c with
      | recordClaim targetChatId account' =>
        simp only [Call.proc] at same
        split_ifs at same
      | _ => cases same
  | go n =>
    simp only [step]
    cases running : s.procs[n]? with
    | none => exact ⟨inv,final_keeps (keepsRows_refl _)⟩
    | some p => exact does_inv inv running (advance_does s n p) (orderly p running)
  | miss n =>
    simp only [step]
    cases running : s.procs[n]? with
    | none => exact ⟨inv,final_keeps (keepsRows_refl _)⟩
    | some p =>
      have reads : ∃ q, s.miss n p = s.goes n s.rows q ∧ ∀ account i active, q ≠ .writeClaim account i active := by
        cases p <;> exact ⟨_,rfl,fun _ _ _ equal => by cases equal⟩
      obtain ⟨q,same,still⟩ := reads
      simp only [same]
      refine ⟨⟨⟨inv.sound.single,inv.sound.claims⟩,inv.recorded,?_⟩,final_keeps (keepsRows_refl _)⟩
      exact writing_goes inv (Nat.le_refl _) fun account i active equal => absurd equal (still account i active)
  | tick ms => exact ⟨⟨⟨inv.sound.single,inv.sound.claims⟩,inv.recorded,inv.writing⟩,final_keeps (keepsRows_refl _)⟩

end

def trigger (target : String) : Call := .beginRound ⟨some target,2,1,none,none,false⟩

end Tgtc.RoundOverlap
