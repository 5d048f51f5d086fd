import Tgtc.FollowerStream
import Tgtc.Runs

/-!
What a follower delivers. Its bytes are a prefix of the range it was asked for,
it ends normally with the whole range only, one pump runs at a time, and a pump
that waits has missed nothing: whatever would end its wait is still to come.
-/
namespace Tgtc.FollowerDelivery
open FollowerStream Runs
universe u

section
variable {α : Type u} {range : Range α}

/-- A call of `pump` that has not returned. -/
def Runs (pump : Pump α) : Prop := pump ≠ .ended

def Fits (range : Range α) (s : Follower α) : Pump α → Prop
  | .opening _ fileOffset bytes _ | .reopening _ fileOffset bytes _ | .reading fileOffset bytes =>
    fileOffset = s.offset ∧ 0 < bytes ∧ fileOffset + bytes ≤ s.session.bytesWritten ∧ fileOffset + bytes ≤ range.last + 1
  | .closing (some data) =>
    0 < data.length ∧ data = (range.content.drop s.offset).take data.length ∧ s.offset + data.length ≤ range.last + 1
  | .waiting =>
    s.session.bytesWritten ≤ s.offset ∧ s.session.completed = false ∧
      (s.session.error = true → s.session.failureDue = true) ∧ s.destroyed = false
  | .stranded => False
  | _ => True

structure Settled (range : Range α) (s : Follower α) : Prop where
  position : s.offset = range.start + s.pushed.length
  bounded : s.offset ≤ range.last + 1
  delivered : s.pushed = (range.content.drop range.start).take s.pushed.length
  whole : s.session.completed = true → s.session.bytesWritten = range.expectedSize
  done : s.ended = true → s.finished = true ∧ s.offset = range.last + 1

structure Orderly (range : Range α) (s : Follower α) : Prop extends Settled range s where
  single : ∀ (i j : Nat) (p q : Pump α), s.pumps[i]? = some p → s.pumps[j]? = some q → Runs p → Runs q → i = j
  guarded : ∀ (i : Nat) (p : Pump α), s.pumps[i]? = some p → Runs p → s.pumping = true
  fits : ∀ (i : Nat) (p : Pump α), s.pumps[i]? = some p → Fits range s p

theorem orderly_fresh (range : Range α) : Orderly range (fresh range) := by
  refine ⟨⟨rfl,?_,by simp [fresh],?_,?_⟩,?_,?_,?_⟩
  · have := range.ordered
    simp only [fresh]
    omega
  · intro completed
    cases completed
  · intro ended
    cases ended
  · intro i j p q found
    simp [fresh] at found
  · intro i p found
    simp [fresh] at found
  · intro i p found
    simp [fresh] at found

def Alone (s : Follower α) (i : Nat) : Prop := ∀ (j : Nat) (q : Pump α), j ≠ i → s.pumps[j]? = some q → q = .ended

variable {s : Follower α} {i : Nat} {p : Pump α} {s' : Follower α}

theorem alone_of_runs (orderly : Orderly range s)
    (found : s.pumps[i]? = some p) (runs : Runs p) : Alone s i := by
  intro j q other here
  by_contra going
  exact other (orderly.single j i q p here found going runs)

theorem orderly_setPump (alone : Alone s i) (settled : Settled range s) {pump : Pump α}
    (guarded : s.pumping = true) (fits : Fits range s pump) : Orderly range (setPump s i pump) := by
  have places : ∀ (j : Nat) (q : Pump α), (setPump s i pump).pumps[j]? = some q → (j = i ∧ q = pump) ∨ q = .ended := by
    intro j q found
    simp only [setPump,List.getElem?_set] at found
    split at found
    · next here =>
      split at found
      · exact .inl ⟨here.symm,(Option.some.inj found).symm⟩
      · cases found
    · next other => exact .inr (alone j q (Ne.symm other) found)
  refine ⟨{ settled with },?_,fun _ _ _ _ => guarded,?_⟩
  · intro j k p q atJ atK runs runs'
    rcases places j p atJ with ⟨rfl,_⟩ | rfl
    · rcases places k q atK with ⟨rfl,_⟩ | rfl
      · rfl
      · exact absurd rfl runs'
    · exact absurd rfl runs
  · intro j q found
    rcases places j q found with ⟨_,rfl⟩ | rfl
    · cases q <;> exact fits
    · trivial

theorem orderly_leave (alone : Alone s i) (settled : Settled range s) :
    Orderly range (leave s i) := by
  have places : ∀ (j : Nat) (q : Pump α), (leave s i).pumps[j]? = some q → q = .ended := by
    intro j q found
    simp only [leave,setPump,List.getElem?_set] at found
    split at found
    · split at found
      · exact (Option.some.inj found).symm
      · cases found
    · next other => exact alone j q (Ne.symm other) found
  refine ⟨{ settled with },?_,?_,?_⟩
  · intro j k p q atJ _ runs
    exact absurd (places j p atJ) runs
  · intro j p found runs
    exact absurd (places j p found) runs
  · intro j p found
    rw [places j p found]
    trivial

theorem alone_destroy (alone : Alone s i) (withError : Bool) : Alone (destroy s withError) i := by
  unfold destroy
  split
  · exact alone
  · intro j q other found
    simp only [List.getElem?_map,Option.map_eq_some_iff] at found
    obtain ⟨p,here,rfl⟩ := found
    rw [alone j p other here]
    rfl

theorem settled_destroy (settled : Settled range s) (withError : Bool) :
    Settled range (destroy s withError) := by
  unfold destroy
  split
  · exact settled
  · exact { settled with }

theorem orderly_throwing (alone : Alone s i) (settled : Settled range s) :
    Orderly range (throwing s i) :=
  orderly_leave (alone_destroy (s := { s with finished := true }) alone true)
    (settled_destroy (s := { s with finished := true }) ⟨settled.position,settled.bounded,settled.delivered,settled.whole,
      fun ended => ⟨rfl,(settled.done ended).2⟩⟩ true)

theorem orderly_finish (alone : Alone s i) (settled : Settled range s)
    (all : s.offset = range.last + 1) : Orderly range (leave (finish s) i) := by
  unfold finish
  split
  · exact orderly_leave alone settled
  · exact orderly_leave (s := { s with finished := true, ended := true }) alone
      ⟨settled.position,settled.bounded,settled.delivered,settled.whole,fun _ => ⟨rfl,all⟩⟩

section
variable (alone : Alone s i) (settled : Settled range s) (guarded : s.pumping = true)
include alone settled guarded

theorem awaitChange_orderly (drained : s.session.bytesWritten ≤ s.offset) : Orderly range (awaitChange range s i) := by
  have inside := range.inside
  have exhausted : s.session.completed = true → s.offset = range.last + 1 := by
    intro completed
    have whole := settled.whole completed
    have bounded := settled.bounded
    simp only [Range.expectedSize] at whole
    omega
  unfold awaitChange
  by_cases failing : s.session.error = true
  · rw [if_pos failing]
    exact orderly_throwing alone settled
  rw [if_neg failing]
  by_cases terminal : isTerminal range s.session s.offset = true
  · rw [if_pos terminal]
    have completed : s.session.completed = true := by
      simp only [isTerminal,Bool.and_eq_true] at terminal
      exact terminal.1
    exact orderly_finish alone settled (exhausted completed)
  · rw [if_neg terminal]
    by_cases gone : s.destroyed = true
    · rw [if_pos gone]
      exact orderly_setPump alone settled guarded trivial
    rw [if_neg gone]
    by_cases ready : s.offset < s.session.bytesWritten ∨ s.session.completed = true ∨ s.session.error = true
    · rw [if_pos ready]
      exact orderly_setPump alone settled guarded trivial
    · rw [if_neg ready]
      refine orderly_setPump alone settled guarded ⟨drained,?_,fun error => absurd error failing,?_⟩
      · simpa using fun completed => ready (.inr (.inl completed))
      · simpa using gone

theorem turn_orderly : Orderly range (turn range s i) := by
  have bounded := settled.bounded
  unfold turn
  by_cases gone : (s.finished || s.destroyed) = true
  · rw [if_pos gone]
    exact orderly_leave alone settled
  rw [if_neg gone]
  by_cases failing : s.session.error = true
  · rw [if_pos failing]
    exact orderly_throwing alone settled
  rw [if_neg failing]
  by_cases past : range.last < s.offset
  · rw [if_pos past]
    exact orderly_finish alone settled (by omega)
  rw [if_neg past]
  by_cases more : s.offset < s.session.bytesWritten
  · rw [if_pos more]
    -- There is something to read, so the chunk is not empty.
    have positive : 0 < min followerReadChunkBytes
        (min (s.session.bytesWritten - s.offset) (range.last - s.offset + 1)) := by
      simp only [followerReadChunkBytes]
      omega
    simp only [positive]
    refine orderly_setPump alone settled guarded ⟨rfl,positive,?_,?_⟩
    · omega
    · omega
  · rw [if_neg more]
    exact awaitChange_orderly alone settled guarded (by omega)

end

theorem settled_pushed (settled : Settled range s) {data : List α}
    (read : data = (range.content.drop s.offset).take data.length) (within : s.offset + data.length ≤ range.last + 1)
    (open_ : s.ended = false) :
    Settled range { s with offset := s.offset + data.length, pushed := s.pushed ++ data } := by
  refine ⟨?_,within,?_,settled.whole,fun ended => by rw [open_] at ended; cases ended⟩
  · have position := settled.position
    simp only [List.length_append]
    omega
  · simp only [List.length_append]
    rw [List.take_add,← settled.delivered,List.drop_drop,← settled.position,← read]

theorem received_orderly (alone : Alone s i) (settled : Settled range s)
    (guarded : s.pumping = true) {data : List α} (fits : Fits range s (.closing (some data))) (accepts : Bool) :
    Orderly range (received range s i data accepts) := by
  obtain ⟨positive,read,within⟩ := fits
  unfold received
  by_cases gone : (s.destroyed || s.finished) = true
  · rw [if_pos gone]
    exact orderly_leave alone settled
  rw [if_neg gone,if_pos positive]
  have going : s.finished = false := by
    simp only [Bool.or_eq_true,not_or,Bool.not_eq_true] at gone
    exact gone.2
  have open_ : s.ended = false := by
    by_contra ended
    rw [(settled.done (by simpa using ended)).1] at going
    cases going
  have pushed := settled_pushed settled read within open_
  cases accepts with
  | true => exact turn_orderly (s := { s with offset := _, pushed := _ }) alone pushed guarded
  | false => exact orderly_leave (s := { s with offset := _, pushed := _ }) alone pushed

theorem readOf_content {file : List α} {written fileOffset bytes : Nat} (count : Nat)
    (holds : range.content.take written <+: file) (reported : fileOffset + bytes ≤ written)
    (within : fileOffset + bytes ≤ range.last + 1) :
    readOf file fileOffset bytes count = (range.content.drop fileOffset).take (min count bytes) ∧
      (readOf file fileOffset bytes count).length = min count bytes := by
  have inside := range.inside
  obtain ⟨rest,rfl⟩ := holds
  have same : readOf (range.content.take written ++ rest) fileOffset bytes count =
      (range.content.drop fileOffset).take (min count bytes) := by
    unfold readOf
    apply List.ext_getElem?
    intro j
    simp only [List.getElem?_take,List.getElem?_drop]
    by_cases early : j < min count bytes
    · rw [if_pos early,if_pos early,List.getElem?_append_left (by simp; omega),List.getElem?_take,if_pos (by omega)]
    · rw [if_neg early,if_neg early]
  refine ⟨same,?_⟩
  rw [same,List.length_take,List.length_drop]
  omega

theorem fits_read {file : List α} {fileOffset bytes count : Nat}
    (fits : Fits range s (.reading fileOffset bytes)) (positive : 0 < count)
    (holds : range.content.take s.session.bytesWritten <+: file) :
    Fits range s (.closing (some (readOf file fileOffset bytes count))) := by
  obtain ⟨rfl,some_,reported,within⟩ := fits
  obtain ⟨same,length⟩ := readOf_content count holds reported within
  refine ⟨by omega,?_,by omega⟩
  rw [length]
  exact same

theorem fits_session (fits : Fits range s p) (offset : s'.offset = s.offset)
    (grown : s.session.bytesWritten ≤ s'.session.bytesWritten) (busy : p ≠ .waiting) : Fits range s' p := by
  cases p with
  | opening place fileOffset bytes outcome | reopening place fileOffset bytes outcome | reading fileOffset bytes =>
    obtain ⟨same,positive,reported,within⟩ := fits
    exact ⟨same.trans offset.symm,positive,Nat.le_trans reported grown,within⟩
  | closing data =>
    cases data with
    | none => trivial
    | some data =>
      simp only [Fits,offset] at fits ⊢
      exact fits
  | waiting => exact absurd rfl busy
  | stranded => exact fits
  | woken | refused | ended => trivial

def Reaches (event : Pump α → Pump α) : Prop :=
  ∀ p, (event p = p ∧ p ≠ .waiting) ∨ ((event p = .woken ∨ event p = .refused) ∧ Runs p)

theorem reaches_notified : Reaches (Pump.notified (α := α)) := by
  intro p
  cases p <;> simp [Pump.notified,Runs]

theorem reaches_rejected : Reaches (Pump.rejected (α := α)) := by
  intro p
  cases p <;> simp [Pump.rejected,Runs]

theorem reaches_aborted : Reaches (Pump.aborted (α := α)) := by
  intro p
  cases p <;> simp [Pump.aborted,Runs]

theorem reaches_teardown : Reaches (fun p : Pump α => p.rejected.deafened) := by
  intro p
  cases p <;> simp [Pump.rejected,Pump.deafened,Runs]

theorem orderly_event (orderly : Orderly range s) (settled : Settled range s')
    {event : Pump α → Pump α} (reaches : Reaches event) (pumps : s'.pumps = s.pumps.map event)
    (pumping : s'.pumping = s.pumping) (offset : s'.offset = s.offset)
    (grown : s.session.bytesWritten ≤ s'.session.bytesWritten) : Orderly range s' := by
  have places : ∀ (i : Nat) (p : Pump α), s'.pumps[i]? = some p → ∃ before, s.pumps[i]? = some before ∧ p = event before := by
    intro i p found
    rw [pumps,List.getElem?_map,Option.map_eq_some_iff] at found
    obtain ⟨before,here,rfl⟩ := found
    exact ⟨before,here,rfl⟩
  have keeps : ∀ p, Runs (event p) → Runs p := by
    intro p runs
    rcases reaches p with ⟨same,_⟩ | ⟨_,running⟩
    · rwa [same] at runs
    · exact running
  refine ⟨settled,?_,?_,?_⟩
  · intro i j p q atI atJ runs runs'
    obtain ⟨before,here,rfl⟩ := places i p atI
    obtain ⟨before',here',rfl⟩ := places j q atJ
    exact orderly.single i j before before' here here' (keeps _ runs) (keeps _ runs')
  · intro i p found runs
    obtain ⟨before,here,rfl⟩ := places i p found
    rw [pumping]
    exact orderly.guarded i before here (keeps _ runs)
  · intro i p found
    obtain ⟨before,here,rfl⟩ := places i p found
    rcases reaches before with ⟨same,busy⟩ | ⟨woken | refused,_⟩
    · rw [same]
      exact fits_session (orderly.fits i before here) offset grown busy
    · rw [woken]
      trivial
    · rw [refused]
      trivial

theorem orderly_same (orderly : Orderly range s) (settled : Settled range s')
    (pumps : s'.pumps = s.pumps) (pumping : s'.pumping = s.pumping) (fits : ∀ p, Fits range s p → Fits range s' p) :
    Orderly range s' := by
  refine ⟨settled,?_,?_,?_⟩
  · rw [pumps]
    exact orderly.single
  · rw [pumps,pumping]
    exact orderly.guarded
  · rw [pumps]
    exact fun i p found => fits p (orderly.fits i p found)

theorem ended_unwaited (allowed : Allowed range s .dropListeners) (fits : Fits range s p) :
    p ≠ .waiting := by
  rintro rfl
  obtain ⟨_,incomplete,due,_⟩ := fits
  rcases allowed with completed | ⟨error,emitted⟩
  · rw [incomplete] at completed
    cases completed
  · rw [due error] at emitted
    cases emitted

theorem reached (waits : s.pumps[i]? = some .waiting) {event : Pump α → Pump α}
    (reaches : Reaches event) :
    (s.pumps.map event)[i]? = some .woken ∨ (s.pumps.map event)[i]? = some .refused := by
  rw [List.getElem?_map,waits]
  rcases reaches .waiting with ⟨_,busy⟩ | ⟨told,_⟩
  · exact absurd rfl busy
  · exact told.imp (fun woken => by rw [Option.map_some,woken]) (fun refused => by rw [Option.map_some,refused])

section
variable (orderly : Orderly range s)
include orderly

theorem read_orderly : Orderly range (step range s .read) := by
  rw [step]
  by_cases busy : (s.pumping || s.finished || s.destroyed) = true
  · rw [if_pos busy]
    exact orderly
  rw [if_neg busy]
  have settled := orderly.toSettled
  refine turn_orderly ?_ { settled with } rfl
  intro j q other found
  rcases Nat.lt_trichotomy j s.pumps.length with old | same | beyond
  · rw [List.getElem?_append_left old] at found
    by_contra runs
    exact busy (by simp [orderly.guarded j q found runs])
  · exact absurd same other
  · rw [List.getElem?_eq_none (by simp; omega)] at found
    cases found

theorem running (found : s.pumps[i]? = some p) (runs : Runs p) : Alone s i ∧ s.pumping = true ∧ Fits range s p :=
  ⟨alone_of_runs orderly found runs,orderly.guarded i p found runs,orderly.fits i p found⟩

theorem poolOpen_orderly (i : Nat) (ok : Bool) : Orderly range (poolOpen s i ok) := by
  unfold poolOpen
  split
  · next place fileOffset bytes found =>
    obtain ⟨alone,guarded,fits⟩ := running orderly found (by simp [Runs])
    exact orderly_setPump alone orderly.toSettled guarded fits
  · next place fileOffset bytes found =>
    obtain ⟨alone,guarded,fits⟩ := running orderly found (by simp [Runs])
    exact orderly_setPump alone orderly.toSettled guarded fits
  · exact orderly

theorem deliverOpen_orderly (i : Nat) : Orderly range (deliverOpen range s i) := by
  unfold deliverOpen
  split
  · next place fileOffset bytes found =>
    obtain ⟨alone,guarded,fits⟩ := running orderly found (by simp [Runs])
    exact orderly_setPump alone orderly.toSettled guarded fits
  · next place fileOffset bytes found =>
    obtain ⟨alone,guarded,fits⟩ := running orderly found (by simp [Runs])
    split
    · exact orderly_setPump alone orderly.toSettled guarded fits
    · exact orderly_throwing alone orderly.toSettled
  · next place fileOffset bytes found =>
    obtain ⟨alone,guarded,fits⟩ := running orderly found (by simp [Runs])
    exact orderly_setPump alone orderly.toSettled guarded fits
  · next place fileOffset bytes found =>
    obtain ⟨alone,_,_⟩ := running orderly found (by simp [Runs])
    exact orderly_throwing alone orderly.toSettled
  · exact orderly

theorem deliverRead_orderly (i : Nat) {result : Nat → Nat → Option (List α)}
    (reads : ∀ fileOffset bytes, Fits range s (.reading fileOffset bytes) →
      Fits range s (.closing (result fileOffset bytes))) : Orderly range (deliverRead s i result) := by
  unfold deliverRead
  split
  · next fileOffset bytes found =>
    obtain ⟨alone,guarded,fits⟩ := running orderly found (by simp [Runs])
    exact orderly_setPump alone orderly.toSettled guarded (reads fileOffset bytes fits)
  · exact orderly

theorem deliverClose_orderly (i : Nat) (ok accepts : Bool) : Orderly range (deliverClose range s i ok accepts) := by
  unfold deliverClose
  split
  · next data found =>
    obtain ⟨alone,guarded,fits⟩ := running orderly found (by simp [Runs])
    split
    · exact received_orderly alone orderly.toSettled guarded fits accepts
    · exact orderly_throwing alone orderly.toSettled
  · next found =>
    obtain ⟨alone,_,_⟩ := running orderly found (by simp [Runs])
    exact orderly_throwing alone orderly.toSettled
  · exact orderly

theorem resume_orderly (i : Nat) : Orderly range (resume range s i) := by
  unfold resume
  split
  · next found =>
    obtain ⟨alone,guarded,_⟩ := running orderly found (by simp [Runs])
    split
    · exact orderly_leave alone orderly.toSettled
    · exact turn_orderly alone orderly.toSettled guarded
  · next found =>
    obtain ⟨alone,_,_⟩ := running orderly found (by simp [Runs])
    exact orderly_throwing alone orderly.toSettled
  · exact orderly

end

theorem step_orderly (s : Follower α) (label : Label α) (orderly : Orderly range s) (allowed : Allowed range s label) :
    Orderly range (step range s label) := by
  have settled := orderly.toSettled
  cases label with
  | read => exact read_orderly orderly
  | pool i ok => exact poolOpen_orderly orderly i ok
  | opened i => exact deliverOpen_orderly orderly i
  | fileRead i file count =>
    exact deliverRead_orderly orderly i (fun _ _ fits => fits_read fits allowed.1 allowed.2)
  | readFailed i => exact deliverRead_orderly orderly i (fun _ _ _ => trivial)
  | closed i accepts => exact deliverClose_orderly orderly i true accepts
  | closeFailed i => exact deliverClose_orderly orderly i false false
  | resumed i => exact resume_orderly orderly i
  | destroy =>
    rw [step]
    by_cases gone : s.destroyed = true
    · rw [FollowerStream.destroy,if_pos gone]
      exact orderly
    · rw [FollowerStream.destroy,if_neg gone]
      exact orderly_event orderly { settled with }
        reaches_aborted rfl rfl rfl (Nat.le_refl _)
  | write bytes =>
    refine orderly_event orderly ⟨settled.position,settled.bounded,settled.delivered,?_,settled.done⟩
      reaches_notified rfl rfl rfl (Nat.le_add_right _ _)
    intro completed
    have open_ : s.session.completed = false := allowed.1
    rw [show s.session.completed = true from completed] at open_
    cases open_
  | rename =>
    exact orderly_same orderly { settled with } rfl rfl
      (fun p fits => by cases p <;> exact fits)
  | complete =>
    exact orderly_event orderly ⟨settled.position,settled.bounded,settled.delivered,fun _ => allowed,settled.done⟩
      reaches_notified rfl rfl rfl (Nat.le_refl _)
  | setError =>
    refine orderly_same orderly { settled with } rfl rfl ?_
    intro p fits
    by_cases waits : p = .waiting
    · subst waits
      exact ⟨fits.1,fits.2.1,fun _ => rfl,fits.2.2.2⟩
    · exact fits_session fits rfl (Nat.le_refl _) waits
  | emitFailed =>
    exact orderly_event orderly { settled with }
      reaches_rejected rfl rfl rfl (Nat.le_refl _)
  | dropListeners =>
    have same : s.pumps.map Pump.deafened = s.pumps := by
      refine (List.map_congr_left ?_).trans (List.map_id _)
      intro p member
      obtain ⟨i,found⟩ := List.mem_iff_getElem?.mp member
      have busy := ended_unwaited allowed (orderly.fits i p found)
      cases p <;> first | rfl | exact absurd rfl busy
    rw [step,same]
    exact orderly
  | teardown =>
    exact orderly_event orderly { settled with }
      reaches_teardown (by simp [step]) rfl rfl (Nat.le_refl _)

inductive Event : Label α → Prop
  | progress (bytes : Nat) : Event (.write bytes)
  | complete : Event .complete
  | failed : Event .emitFailed
  | teardown : Event .teardown
  | destroy : Event .destroy

theorem waiting_woken (orderly : Orderly range s) (waits : s.pumps[i]? = some .waiting)
    {label : Label α} (event : Event label) :
    (step range s label).pumps[i]? = some .woken ∨ (step range s label).pumps[i]? = some .refused := by
  cases event with
  | progress bytes | complete => exact reached waits reaches_notified
  | failed => exact reached waits reaches_rejected
  | teardown =>
    rw [step,List.map_map]
    exact reached waits reaches_teardown
  | destroy =>
    have alive : s.destroyed = false := (orderly.fits i .waiting waits).2.2.2
    rw [step,FollowerStream.destroy,if_neg (by simp [alive])]
    exact reached waits reaches_aborted

/-- The bytes pushed are a prefix of the range, a normal end comes with all of it, one pump runs at a
time, and one that waits is woken by the next event. -/
theorem follower_delivers_range {s : Follower α} (reach : Reachable (step range) (Allowed range) (fresh range) s) :
    s.pushed <+: range.wanted ∧
    (s.ended = true → s.pushed = range.wanted) ∧
    (∀ (i j : Nat) (p q : Pump α), s.pumps[i]? = some p → s.pumps[j]? = some q → Runs p → Runs q → i = j) ∧
    (∀ i : Nat, s.pumps[i]? ≠ some .stranded) ∧
    ∀ i : Nat, s.pumps[i]? = some .waiting →
      (s.session.bytesWritten ≤ s.offset ∧ s.session.completed = false ∧
        (s.session.error = true → s.session.failureDue = true) ∧ s.destroyed = false) ∧
      ∀ label, Event label →
        (step range s label).pumps[i]? = some .woken ∨ (step range s label).pumps[i]? = some .refused := by
  have orderly : Orderly range s := reachable_invariant (orderly_fresh range) step_orderly reach
  have position := orderly.position
  have bounded := orderly.bounded
  refine ⟨?_,?_,orderly.single,?_,?_⟩
  · rw [orderly.delivered]
    exact List.take_prefix_take_left (by omega)
  · intro ended
    have all := (orderly.done ended).2
    rw [orderly.delivered]
    congr 1
    omega
  · intro i found
    exact orderly.fits i .stranded found
  · intro i waits
    exact ⟨orderly.fits i .waiting waits,fun label event => waiting_woken orderly waits event⟩

end

def lastTwo : Range Nat := ⟨.build,[7,8,9],1,2,by decide,by decide⟩

def readOnce : List (Label Nat) :=
  [.read,.write 3,.resumed 0,.pool 0 true,.opened 0,.fileRead 0 [7,8,9] 2,.closed 0 true]

theorem lastTwo_delivered :
    (readOnce.foldl (step lastTwo) (fresh lastTwo)).ended = true ∧
      (readOnce.foldl (step lastTwo) (fresh lastTwo)).pushed = [8,9] := by
  have legal : Legal (step lastTwo) (Allowed lastTwo) (fresh lastTwo) readOnce :=
    ⟨trivial,⟨by decide,by decide⟩,trivial,trivial,trivial,⟨by decide,by decide⟩,trivial,trivial⟩
  have ended : (readOnce.foldl (step lastTwo) (fresh lastTwo)).ended = true := by decide +kernel
  exact ⟨ended,(follower_delivers_range (reachable_run .start readOnce legal)).2.1 ended⟩

end Tgtc.FollowerDelivery
