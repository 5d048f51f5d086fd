import Tgtc.UploadCustody

/-!
The source and the receipt of a later version, while an attempt of an earlier one removes what it takes for its own.
-/
namespace Tgtc.SuccessorSource
open Maps Runs UploadWorker UploadSystem UploadMoves UploadCustody

inductive Artifact where
  | source | receipt

def versionAt (s : Store) (fileId : String) : Artifact → Option Nat
  | .source => s.pending.get fileId
  | .receipt => (s.receipts.get fileId).map Receipt.uploadVersion

def unlinks : Artifact → Phase → Bool
  | _, .givingUp | _, .refusing | _, .registering => true
  | .source, .removing source _ => source.isNone
  | .receipt, .removing _ receipt => !receipt
  | _, _ => false

/-- No attempt ever takes away an artifact of a later version. -/
def Kept (s : State) : Prop :=
  ∀ (i : Nat) a event w, s.attempts[i]? = some a → a.uploadVersion < w →
    (s.store.pending.get a.fileId = some w → (step s (.work i event)).store.pending.get a.fileId = some w) ∧
    ∀ receipt, s.store.receipts.get a.fileId = some receipt → receipt.uploadVersion = w →
      (step s (.work i event)).store.receipts.get a.fileId = some receipt ∨
        ∃ remote own, a.phase = .persisting remote own

def brings (s : State) : Label → Option (Artifact × String × Nat)
  | .merge n .go => (s.merges[n]?).bind fun m =>
    match m.phase with
    | .renaming fileId uploadVersion => some (.source,fileId,uploadVersion)
    | _ => none
  | .work i .go | .work i .lost => (s.attempts[i]?).bind fun a =>
    match a.phase with
    | .persisting _ _ => some (.receipt,a.fileId,a.uploadVersion)
    | _ => none
  | _ => none

/-- The attempt gives up without a look at the version of the row: there is no row, or the last try has failed. -/
def givesUp (s : Store) (a : Attempt) : Bool :=
  match a.phase with
  | .start => (s.rows.get a.fileId).isNone
  | .failing => a.attemptsMade ≥ 2 && (loadReceipt s a.fileId a.uploadVersion).isNone
  | _ => false

def quits (s : State) : Label → Option Attempt
  | .work i .go => (s.attempts[i]?).filter (givesUp s.store)
  | _ => none

def Last (s : Store) (a : Attempt) : Prop :=
  (∀ w ∈ versionAt s a.fileId .source, w ≤ a.uploadVersion) ∧ ∀ w ∈ versionAt s a.fileId .receipt, w ≤ a.uploadVersion

/-- A source is handed over when no earlier attempt is going to unlink it, and an attempt gives up when
no later artifact is there. -/
def Orderly (s : State) (l : Label) : Prop :=
  (∀ b ∈ brings s l, ∀ a ∈ s.attempts, a.fileId = b.2.1 → unlinks b.1 a.phase = true → b.2.2 ≤ a.uploadVersion) ∧
    ∀ a ∈ quits s l, Last s.store a

instance (s : Store) (a : Attempt) : Decidable (Last s a) := inferInstanceAs (Decidable (_ ∧ _))

instance (s : State) (l : Label) : Decidable (Orderly s l) := inferInstanceAs (Decidable (_ ∧ _))

def Decided (s : State) : Prop :=
  ∀ a ∈ s.attempts, ∀ x w, unlinks x a.phase = true → versionAt s.store a.fileId x = some w → w ≤ a.uploadVersion

structure Guarded (s : State) : Prop where
  custody : Custody s
  decided : Decided s

section
variable {s : Store} {i : Nat} {a : Attempt} {x : Artifact}

def Current (s : Store) (a : Attempt) : Prop := ∃ row, s.rows.get a.fileId = some row ∧ row.uploadVersion = a.uploadVersion

theorem turn_unlinks {event : Event} {t : Store} {phase : Phase} (turn : Turn s i a t event phase)
    (owes : unlinks x phase = true) :
    unlinks x a.phase = true ∨ event = .go ∧ givesUp s a = true ∨
      ((∃ remote, a.phase = .rereading remote) ∨ a.phase = .readying) ∧ Current s a := by
  cases turn with
  | same => exact .inl owes
  | absent phase absent => exact .inr (.inl ⟨rfl,by simp [givesUp,phase,absent]⟩)
  | givesUp phase last absent => exact .inr (.inl ⟨rfl,by simp [givesUp,phase,absent,last]⟩)
  | refuses phase known version => exact .inr (.inr ⟨.inl ⟨_,phase⟩,_,known,version⟩)
  | registers phase known version => exact .inr (.inr ⟨.inr phase,_,known,version⟩)
  | removes _ phase =>
    refine .inl ?_
    rcases phase with phase | phase | phase <;> rw [phase] <;> cases x <;> rfl
  | unlinked _ phase =>
    refine .inl ?_
    rw [phase]
    cases x
    · cases owes
    · exact owes
  | unreceipted phase =>
    refine .inl ?_
    rw [phase]
    cases x
    · exact owes
    · cases owes
  | closes _ _ _ _ _ goesOn => rcases goesOn with rfl | rfl <;> cases x <;> cases owes
  | _ => cases x <;> cases owes

end

section
variable {s s' : State} {l : Label}

variable {x : Artifact} {w : Nat}

theorem step_versionAt (custody : Custody s) (move : Moves s l s') {fileId : String}
    (found : versionAt s'.store fileId x = some w) :
    versionAt s.store fileId x = some w ∨ brings s l = some (x,fileId,w) := by
  cases x with
  | source =>
    rcases step_pending move found with old | ⟨n,m,rfl,at_n,phase,_⟩
    · exact .inl old
    · exact .inr (by simp [brings,at_n,phase])
  | receipt =>
    obtain ⟨receipt,there,rfl⟩ := Option.map_eq_some_iff.mp found
    rcases step_receipts move there with old | ⟨i,a,event,remote,rfl,at_i,rfl,phase,effect⟩
    · exact .inl (by simp [versionAt,old])
    · have stamp := (custody.inHand a (List.mem_of_getElem? at_i) receipt (by rw [phase]; rfl)).1
      rcases effect with rfl | rfl <;> exact .inr (by simp [brings,at_i,phase,stamp])

theorem bounded_versionAt (custody : Custody s) {fileId : String}
    (found : versionAt s.store fileId x = some w) : Bounded s fileId w := by
  cases x with
  | source => exact custody.bounded _ _ (.pending found)
  | receipt =>
    obtain ⟨receipt,there,version⟩ := Option.map_eq_some_iff.mp found
    exact custody.bounded _ _ (.receipt there version)

theorem brings_work {i : Nat} {a : Attempt} {event : Event} {b : Artifact × String × Nat}
    (comes : brings s (.work i event) = some b) (at_i : s.attempts[i]? = some a) :
    ∃ remote receipt, a.phase = .persisting remote receipt := by
  cases event <;> simp only [brings,at_i,Option.bind_some] at comes <;> try cases comes
  all_goals
    split at comes
    · next remote receipt phase => exact ⟨remote,receipt,phase⟩
    · cases comes

theorem last_versionAt {store : Store} {a : Attempt} (last : Last store a)
    (found : versionAt store a.fileId x = some w) : w ≤ a.uploadVersion := by
  cases x with
  | source => exact last.1 w found
  | receipt => exact last.2 w found

theorem decided_step (custody : Custody s) (decided : Decided s) (orderly : Orderly s l) (move : Moves s l s') :
    Decided s' := by
  intro a' member x w owes found
  obtain ⟨j,at_j⟩ := List.getElem?_of_mem member
  rcases step_attempts move at_j with ⟨a,known,sameFile,sameVersion,same | ⟨event,rfl,turn⟩⟩ | ⟨_,_,_,_,_,_,rfl⟩
  · subst same
    have old := List.mem_of_getElem? known
    rcases step_versionAt custody move found with before | comes
    · exact decided a' old x w owes before
    · exact orderly.1 _ comes a' old rfl owes
  · rw [sameFile] at found
    rw [sameVersion]
    -- an attempt that writes a receipt does not come to unlink anything by that
    have before : (∀ remote receipt, a.phase ≠ .persisting remote receipt) → versionAt s.store a.fileId x = some w := by
      intro other
      rcases step_versionAt custody move found with before | comes
      · exact before
      · obtain ⟨remote,receipt,phase⟩ := brings_work comes known
        exact absurd phase (other remote receipt)
    rcases turn_unlinks turn owes with owed | ⟨rfl,gives⟩ | ⟨decides,row,there,version⟩
    · refine decided a (List.mem_of_getElem? known) x w owed (before fun remote receipt phase => ?_)
      rw [phase] at owed
      cases x <;> cases owed
    · have quits : quits s (.work j .go) = some a := by simp [quits,known,gives]
      refine last_versionAt (orderly.2 a quits) (before fun remote receipt phase => ?_)
      rw [givesUp,phase] at gives
      cases gives
    · have bounded := bounded_versionAt custody (before fun remote receipt phase => ?_)
      · have := bounded.2 row there
        omega
      · rw [phase] at decides
        rcases decides with ⟨_,eq⟩ | eq <;> cases eq
  · cases x <;> cases owes

theorem kept_of_decided (decided : Decided s) : Kept s := by
  intro i a event w found newer
  have older : ∀ {x : Artifact}, unlinks x a.phase = true → versionAt s.store a.fileId x ≠ some w := by
    intro x owes there
    have := decided a (List.mem_of_getElem? found) x w owes there
    omega
  generalize eq : step s (.work i event) = s'
  have move : Moves s (.work i event) s' := eq ▸ step_moves _
  cases move with
  | stay => exact ⟨id,fun receipt there _ => .inl there⟩
  | @work _ b _ t t' phase at_i _ _ touch outcome =>
    cases found.symm.trans at_i
    have same : t'.pending = t.pending ∧ t'.receipts = t.receipts := by
      cases outcome <;> exact ⟨rfl,rfl⟩
    rw [same.1,same.2]
    cases touch with
    | unlink phase => exact ⟨fun there => absurd there (older (x := .source) (by rw [phase]; rfl)),fun _ there _ => .inl there⟩
    | unreceipt phase =>
      refine ⟨id,fun receipt there version => absurd ?_ (older (x := .receipt) (by rw [phase]; rfl))⟩
      simp [versionAt,there,version]
    | persist phase => exact ⟨id,fun _ _ _ => .inr ⟨_,_,phase⟩⟩
    | none | row | send => exact ⟨id,fun _ there _ => .inl there⟩

/-- In a run whose sources and receipts come after the removals, no attempt takes away an artifact of a later version. -/
theorem successor_kept (run : Reachable step (fun s l => Allowed s l ∧ Orderly s l) initial s) : Kept s := by
  have base : Guarded initial := ⟨initial_custody,nofun⟩
  have keep : ∀ s l, Guarded s → Allowed s l ∧ Orderly s l → Guarded (step s l) := fun s l guarded ok =>
    ⟨custody_step guarded.custody ok.1,decided_step guarded.custody guarded.decided ok.2 (step_moves l)⟩
  exact kept_of_decided (reachable_invariant base keep run).decided

/-- The job is delivered twice; one attempt comes to its end before the overwrite begins, and the other is left over. -/
def overwrittenAfter : List Label :=
  opening "a" false none 0 ++ handingOver 0 "f" ++ queuing 0 ++ [Label.deliver "f" 1,.deliver "f" 1] ++ uploading 1 ++
    finishing 1 ++ removing 1 ++ opening "b" false (some "f") 1 ++ handingOver 1 "g"

theorem successor_kept_after : (overwrittenAfter.foldl step initial).store.pending.get "f" = some 2 ∧
    (overwrittenAfter.foldl step initial).attempts[0]? = some ⟨"f",1,false,0,.start⟩ ∧
    Kept (overwrittenAfter.foldl step initial) :=
  ⟨by decide +kernel,by decide +kernel,successor_kept (reachable_run .start overwrittenAfter (by decide +kernel))⟩

/-- The row is ready, and the overwrite brings its source before the attempt removes what it takes for its own. -/
def overwrittenBefore : List Label :=
  opening "a" false none 0 ++ handingOver 0 "f" ++ queuing 0 ++ [Label.deliver "f" 1] ++ uploading 0 ++ finishing 0 ++
    opening "b" false (some "f") 1 ++ handingOver 1 "g" ++ [Label.work 0 .go]

theorem successor_lost : ∃ s, Reached s ∧ ¬Kept s := by
  refine ⟨overwrittenBefore.foldl step initial,reachable_run .start overwrittenBefore (by decide +kernel),fun kept => ?_⟩
  have there : (overwrittenBefore.foldl step initial).store.pending.get "f" = some 2 := by decide +kernel
  have gone : (step (overwrittenBefore.foldl step initial) (.work 0 (.unlinkSource true))).store.pending.get "f" = none := by
    decide +kernel
  have still := (kept 0 ⟨"f",1,false,0,.removing none false⟩ (.unlinkSource true) 2 (by decide +kernel) (by decide)).1 there
  rw [gone] at still
  cases still

end
end Tgtc.SuccessorSource
