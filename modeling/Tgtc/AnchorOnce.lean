import Tgtc.MainChatAnchor

/-!
The message is planted once. A reservation keeps the others away for as long as its lease runs; a forward whose
success is not written down is made again after the lease.
-/
namespace Tgtc.AnchorOnce
open Runs Maps MainChatAnchor
open MirrorTasks (OwnerType)

def ended : Stage → Bool
  | .ended _ => true
  | _ => false

section
variable (ownerType : OwnerType) (input : Input)

/-- The message is in the main chat once at most, whoever succeeds has the same anchor, and what has failed is free. -/
structure Once (s : State) : Prop where
  planted : s.plants.length ≤ 1
  agreed : ∀ (m n : Nat) (c d : Call) (a b : Anchor) (p q : Bool), s.calls[m]? = some c → s.calls[n]? = some d →
    c.stage = .ended (.returned a p) → d.stage = .ended (.returned b q) → a = b
  free : ∀ (n : Nat) (c : Call) (id : Nat) (since : Int), s.calls[n]? = some c → c.reserved = some (id,since) →
    ended c.stage = true → ∀ row, s.row = some row → row.id = id → ∀ failure, verdict ownerType input s.now row.data ≠ .wait failure

/-- The lease of a reservation has not run out by some time. -/
def Within (since now : Int) : Prop := now < since + plantReservationLeaseMs

instance (since now : Int) : Decidable (Within since now) := inferInstanceAs (Decidable (_ < _))

def Timely (now : Int) : Stage → Prop
  | .inserting since | .reinserting since => Within since now
  | _ => True

instance (now : Int) (stage : Stage) : Decidable (Timely now stage) := by
  unfold Timely
  split <;> infer_instance

/-- What is assumed: one message, and forwards that end within the lease of their reservation. -/
def Assumed (s : State) : Label → Prop
  | .call _ i => i = input
  | .go n _ => ∀ c ∈ s.calls[n]?, Timely s.now c.stage
  | .tick ms => ∀ c ∈ s.calls, c.stage = .forwarding → ∀ r ∈ c.reserved, Within r.2 (s.now + ms)
  | _ => True

/-- The outcome of a forward is written down within the lease as well. -/
def Recorded (s : State) : Label → Prop
  | .go n reply => ∀ c ∈ s.calls[n]?, c.reserved.isSome = true → reply = .ok
  | .tick ms => ∀ c ∈ s.calls, ended c.stage = false → ∀ r ∈ c.reserved, Within r.2 (s.now + ms)
  | _ => True

instance (s : State) (l : Label) : Decidable (Assumed input s l) := by
  cases l <;> unfold Assumed <;> infer_instance

instance (s : State) (l : Label) : Decidable (Recorded s l) := by
  cases l <;> unfold Recorded <;> infer_instance

abbrev Allowed (s : State) (l : Label) : Prop := Assumed input s l ∧ Recorded s l

/-! ### What is kept -/

def RecordOk (s : State) (r : Record) : Prop :=
  (∃ messageId now, messageId ≠ "" ∧ r.payload = input.ready messageId now ∧ r.keepReady = false ∧
    r.result = .returned ⟨input.mainChatId,messageId⟩ true) ∨
  (r.payload = input.failed ∧ (∃ failure, r.result = .threw failure) ∧ s.plants = [])

def StageOk (s : State) (c : Call) : Prop := match c.stage with
  | .inserting since | .reinserting since => c.reserved = none ∧ 0 < since
  | .requiring since => c.reserved = none ∧ 0 < since
  | .deleting since old => c.reserved = none ∧ 0 < since ∧ reusable ownerType input old.data = none ∧ old.id < s.nextId ∧
      (old.data.status = .pending → leaseExpired s.now old.data = true) ∧
      ∀ row, s.row = some row → row.id = old.id →
        row.data = old.data ∨ old.data.status = .pending ∧ row.data.status ≠ .pending
  | .forwarding => c.reserved.isSome = true ∧ s.plants = []
  | .finding r => c.reserved.isSome = true ∧ RecordOk input s r
  | .updating r id => (∃ since, c.reserved = some (id,since)) ∧ RecordOk input s r
  -- the row of the call is there
  | .adding _ | .refinding _ => False
  | .ended (.returned anchor _) => s.found ownerType input = some anchor
  | .ended (.threw _) => True
  | _ => c.reserved = none

structure Inv (s : State) : Prop where
  clock : 0 < s.now
  inputs : ∀ (n : Nat) (c : Call), s.calls[n]? = some c → c.input = input
  stages : ∀ (n : Nat) (c : Call), s.calls[n]? = some c → StageOk ownerType input s c
  rowKnown : ∀ row, s.row = some row → row.id < s.nextId
  known : ∀ (n : Nat) (c : Call) (id : Nat) (since : Int), s.calls[n]? = some c → c.reserved = some (id,since) → id < s.nextId
  distinct : ∀ (m n : Nat) (c d : Call) (id : Nat) (a b : Int), s.calls[m]? = some c → s.calls[n]? = some d →
    c.reserved = some (id,a) → d.reserved = some (id,b) → m = n
  holder : ∀ (n : Nat) (c : Call) (id : Nat) (since : Int), s.calls[n]? = some c → c.reserved = some (id,since) →
    ended c.stage = false → s.row = some ⟨id,input.reservation since⟩ ∧ 0 < since ∧ Within since s.now
  planted : s.plants.length ≤ 1 ∧ (s.plants ≠ [] → (s.found ownerType input).isSome = true ∨
    ∃ (n : Nat) (c : Call), s.calls[n]? = some c ∧ c.reserved.isSome = true ∧ ended c.stage = false)
  free : ∀ (n : Nat) (c : Call) (id : Nat) (since : Int), s.calls[n]? = some c → c.reserved = some (id,since) →
    ended c.stage = true → ∀ row, s.row = some row → row.id = id → row.data.status ≠ .pending

end

section
variable {ownerType : OwnerType} {input : Input} {s t : State} {n : Nat} {c : Call}

theorem stageOk_same (row : t.row = s.row) (nextId : t.nextId = s.nextId) (now : t.now = s.now) (plants : t.plants = s.plants)
    (ok : StageOk ownerType input s c) : StageOk ownerType input t c := by
  unfold StageOk RecordOk State.found at ok ⊢
  rw [row,nextId,now,plants]
  exact ok

theorem stageOk_calm (calm : ∀ j a, c.reserved = some (j,a) → ended c.stage = true) (nextId : t.nextId = s.nextId) (now : t.now = s.now)
    (rows : ∀ r', t.row = some r' → ∃ r, s.row = some r ∧ r.id = r'.id ∧
      (r'.data = r.data ∨ r.data.status = .pending ∧ r'.data.status ≠ .pending))
    (found : ∀ anchor, s.found ownerType input = some anchor → t.found ownerType input = some anchor)
    (ok : StageOk ownerType input s c) : StageOk ownerType input t c := by
  obtain ⟨process,i,stage,reserved⟩ := c
  cases stage with
  | reading | joined | rechecking | resolving | inserting | requiring | reinserting | rereading => exact ok
  | deleting since old =>
    obtain ⟨unreserved,positive,unfit,bound,expired,alike⟩ := ok
    refine ⟨unreserved,positive,unfit,by rw [nextId]; exact bound,by rw [now]; exact expired,fun r' there here => ?_⟩
    obtain ⟨r,known,same,data⟩ := rows r' there
    rcases alike r known (same.trans here) with equal | ⟨pending,settled⟩
    · rcases data with unchanged | ⟨pending,settled⟩
      · exact .inl (unchanged.trans equal)
      · exact .inr ⟨equal ▸ pending,settled⟩
    · rcases data with unchanged | ⟨pending',_⟩
      · exact .inr ⟨pending,unchanged ▸ settled⟩
      · exact absurd pending' settled
  | forwarding | finding =>
    obtain ⟨⟨j,a⟩,theirs⟩ := Option.isSome_iff_exists.mp ok.1
    exact nomatch calm j a theirs
  | updating r' j =>
    obtain ⟨⟨a,theirs⟩,_⟩ := ok
    exact nomatch calm j a theirs
  | adding | refinding => exact ok
  | ended result => cases result with
    | returned anchor planted => exact found anchor ok
    | threw failure => trivial

theorem inv_call (inv : Inv ownerType input s) (there : s.calls[n]? = some c) (change : Call → Call)
    (calls : t.calls = s.calls.modify n change) (row : t.row = s.row) (nextId : t.nextId = s.nextId) (now : t.now = s.now)
    (plants : t.plants = s.plants) (same : (change c).input = c.input ∧ (change c).reserved = c.reserved)
    (stage : StageOk ownerType input s (change c))
    (ends : c.reserved.isSome = true → ended (change c).stage = ended c.stage) : Inv ownerType input t := by
  -- what is said of the reservations of the calls before
  have before : ∀ (m : Nat) (d : Call) (id : Nat) (since : Int), t.calls[m]? = some d → d.reserved = some (id,since) →
      ∃ d', s.calls[m]? = some d' ∧ d'.reserved = some (id,since) ∧ ended d.stage = ended d'.stage := by
    intro m d id since found reserved
    rcases at_calls there calls found with ⟨rfl,rfl⟩ | ⟨_,known⟩
    · rw [same.2] at reserved
      exact ⟨c,there,reserved,ends (by rw [reserved]; rfl)⟩
    · exact ⟨d,known,reserved,rfl⟩
  refine ⟨by rw [now]; exact inv.clock,fun m d found => ?_,fun m d found => ?_,by rw [row,nextId]; exact inv.rowKnown,
    fun m d id since found reserved => ?_,fun i m d e id a b found found' reserved reserved' => ?_,
    fun m d id since found reserved going => ?_,⟨by rw [plants]; exact inv.planted.1,fun some_plant => ?_⟩,
    fun m d id since found reserved left_over => ?_⟩
  · rcases at_calls there calls found with ⟨rfl,rfl⟩ | ⟨_,known⟩
    · rw [same.1]
      exact inv.inputs _ c there
    · exact inv.inputs m d known
  · rcases at_calls there calls found with ⟨rfl,rfl⟩ | ⟨_,known⟩
    · exact stageOk_same row nextId now plants stage
    · exact stageOk_same row nextId now plants (inv.stages m d known)
  · obtain ⟨d',known,reserved',_⟩ := before m d id since found reserved
    rw [nextId]
    exact inv.known m d' id since known reserved'
  · obtain ⟨d',known,first,_⟩ := before i d id a found reserved
    obtain ⟨e',known',second,_⟩ := before m e id b found' reserved'
    exact inv.distinct i m d' e' id a b known known' first second
  · obtain ⟨d',known,reserved',same⟩ := before m d id since found reserved
    rw [row,now]
    exact inv.holder m d' id since known reserved' (same ▸ going)
  · rw [plants] at some_plant
    rcases inv.planted.2 some_plant with settled | ⟨m,d,known,reserved,going⟩
    · left
      unfold State.found at settled ⊢
      rw [row]
      exact settled
    · right
      by_cases here : m = n
      · subst here
        cases there.symm.trans known
        exact ⟨m,_,at_change there calls,by rw [same.2]; exact reserved,by rw [ends reserved]; exact going⟩
      · exact ⟨m,d,(at_other calls here).trans known,reserved,going⟩
  · obtain ⟨d',known,reserved',same⟩ := before m d id since found reserved
    rw [row]
    exact inv.free m d' id since known reserved' (same ▸ left_over)

section
variable (inv : Inv ownerType input s) (unsettled : s.found ownerType input = none)
  (idle : ∀ (n : Nat) (c : Call), s.calls[n]? = some c → c.reserved.isSome = true → ended c.stage = true)
include inv unsettled idle

theorem nothing_planted :
    s.plants = [] ∧ ∀ (n : Nat) (c : Call) (a : Anchor) (p : Bool), s.calls[n]? = some c → c.stage ≠ .ended (.returned a p) := by
  constructor
  · by_contra some_plant
    rcases inv.planted.2 some_plant with settled | ⟨m,d,known,reserved,going⟩
    · rw [unsettled] at settled
      cases settled
    · rw [idle m d known reserved] at going
      cases going
  · intro m d a p known stage
    have ok := inv.stages m d known
    unfold StageOk at ok
    rw [stage] at ok
    exact nomatch unsettled.symm.trans ok

theorem stageOk_fresh (nextId : s.nextId ≤ t.nextId) (now : t.now = s.now) (row : ∀ r, t.row = some r → r.id = s.nextId ∨ s.row = some r)
    {m : Nat} {d : Call} (known : s.calls[m]? = some d) : StageOk ownerType input t d := by
  have ok := inv.stages m d known
  have calm := idle m d known
  have none_ended := (nothing_planted inv unsettled idle).2 m d
  obtain ⟨process,i,stage,reserved⟩ := d
  cases stage with
  | reading | joined | rechecking | resolving | inserting | requiring | reinserting | rereading => exact ok
  | deleting since old =>
    obtain ⟨unheld,positive,unfit,bound,expired,same⟩ := ok
    refine ⟨unheld,positive,unfit,Nat.lt_of_lt_of_le bound nextId,by rw [now]; exact expired,fun r found here => ?_⟩
    rcases row r found with new | before
    · exact absurd (here.symm.trans new) (Nat.ne_of_lt bound)
    · exact same r before here
  | forwarding | finding => exact nomatch calm ok.1
  | updating r id =>
    obtain ⟨⟨since,mine⟩,_⟩ := ok
    exact nomatch calm (by rw [show reserved = _ from mine]; rfl)
  | adding | refinding => exact ok
  | ended result => cases result with
    | returned anchor planted => exact absurd rfl (none_ended anchor planted known)
    | threw failure => trivial

end

variable {since : Int} {data : Payload}

theorem not_expired {now : Int} (past : 0 < since) (within : Within since now) :
    leaseExpired now (input.reservation since) = false := by
  have there : since ≠ 0 := by omega
  have later : ¬ since + plantReservationLeaseMs ≤ now := not_le.mpr within
  simp [leaseExpired,Input.reservation,there,later]

section
variable (inv : Inv ownerType input s)
include inv

theorem inv_renew (there : s.calls[n]? = some c) (since : Int) (unsettled : s.found ownerType input = none)
    (idle : ∀ (n : Nat) (c : Call), s.calls[n]? = some c → c.reserved.isSome = true → ended c.stage = true)
    (change : Call → Call) (calls : t.calls = s.calls.modify n change) (nextId : s.nextId ≤ t.nextId) (now : t.now = s.now)
    (plants : t.plants = s.plants) (same : (change c).input = c.input)
    (row : ∀ r, t.row = some r → r = ⟨s.nextId,input.reservation since⟩ ∧ s.nextId < t.nextId)
    (stage : StageOk ownerType input t (change c))
    (goes : (change c).reserved = none ∨ (change c).stage = .forwarding ∧ (change c).reserved = some (s.nextId,since) ∧
      t.row = some ⟨s.nextId,input.reservation since⟩ ∧ 0 < since ∧ Within since s.now) : Inv ownerType input t := by
  obtain ⟨none_planted,_⟩ := nothing_planted inv unsettled idle
  -- the reservations of other calls are older
  have older : ∀ (m : Nat) (d : Call) (id : Nat) (a : Int), t.calls[m]? = some d → d.reserved = some (id,a) →
      (m = n ∧ id = s.nextId ∧ d.stage = .forwarding ∧ t.row = some ⟨id,input.reservation a⟩ ∧ 0 < a ∧ Within a s.now) ∨
        m ≠ n ∧ s.calls[m]? = some d ∧ id < s.nextId ∧ ended d.stage = true := by
    intro m d id a found reserved
    rcases at_calls there calls found with ⟨rfl,rfl⟩ | ⟨other,known⟩
    · rcases goes with nothing | ⟨forwards,mine,held,past,within⟩
      · rw [nothing] at reserved
        cases reserved
      · rw [mine] at reserved
        cases reserved
        exact .inl ⟨rfl,rfl,forwards,held,past,within⟩
    · exact .inr ⟨other,known,inv.known m d id a known reserved,idle m d known (by rw [reserved]; rfl)⟩
  refine ⟨by rw [now]; exact inv.clock,fun m d found => ?_,fun m d found => ?_,fun r found => ?_,
    fun m d id a found reserved => ?_,fun i m d e id a b found found' reserved reserved' => ?_,
    fun m d id a found reserved going => ?_,⟨by rw [plants]; exact inv.planted.1,fun some_plant => ?_⟩,
    fun m d id a found reserved finished r known here => ?_⟩
  · rcases at_calls there calls found with ⟨rfl,rfl⟩ | ⟨_,known⟩
    · rw [same]
      exact inv.inputs _ c there
    · exact inv.inputs m d known
  · rcases at_calls there calls found with ⟨rfl,rfl⟩ | ⟨_,known⟩
    · exact stage
    · refine stageOk_fresh inv unsettled idle nextId now (fun r found => .inl ?_) known
      rw [(row r found).1]
  · obtain ⟨rfl,bound⟩ := row r found
    exact bound
  · rcases older m d id a found reserved with ⟨_,rfl,_,held,_⟩ | ⟨_,_,bound,_⟩
    · exact (row _ held).2
    · exact Nat.lt_of_lt_of_le bound nextId
  · rcases older i d id a found reserved with ⟨rfl,same,_⟩ | ⟨_,known,bound,_⟩
    · rcases older m e id b found' reserved' with ⟨rfl,_⟩ | ⟨_,_,bound,_⟩
      · rfl
      · exact absurd same (Nat.ne_of_lt bound)
    · rcases older m e id b found' reserved' with ⟨_,same,_⟩ | ⟨_,known',_⟩
      · exact absurd same (Nat.ne_of_lt bound)
      · exact inv.distinct i m d e id a b known known' reserved reserved'
  · rcases older m d id a found reserved with ⟨_,_,_,held,past,within⟩ | ⟨_,_,_,finished⟩
    · rw [now]
      exact ⟨held,past,within⟩
    · rw [finished] at going
      cases going
  · rw [plants,none_planted] at some_plant
    exact absurd rfl some_plant
  · rcases older m d id a found reserved with ⟨_,_,forwards,_⟩ | ⟨_,_,bound,_⟩
    · rw [forwards] at finished
      cases finished
    · obtain ⟨rfl,_⟩ := row r known
      exact absurd here.symm (Nat.ne_of_lt bound)

theorem idle_of_row (other : ∀ id since, 0 < since → Within since s.now → s.row ≠ some ⟨id,input.reservation since⟩) :
    ∀ (n : Nat) (c : Call), s.calls[n]? = some c → c.reserved.isSome = true → ended c.stage = true := by
  intro m d known reserved
  obtain ⟨⟨id,since⟩,mine⟩ := Option.isSome_iff_exists.mp reserved
  by_contra going
  obtain ⟨held,past,within⟩ := inv.holder m d id since known mine (by simpa using going)
  exact other id since past within held

theorem inv_insert (there : s.calls[n]? = some c) (free : s.row = none) (positive : 0 < since) (within : Within since s.now)
    (change : Call → Call) (calls : t.calls = s.calls.modify n change) (row : t.row = some ⟨s.nextId,input.reservation since⟩)
    (nextId : t.nextId = s.nextId + 1) (now : t.now = s.now) (plants : t.plants = s.plants) (same : (change c).input = c.input)
    (goes : (change c).stage = .forwarding ∧ (change c).reserved = some (s.nextId,since) ∨
      (∃ failure, (change c).stage = .ended (.threw failure)) ∧ (change c).reserved = none) : Inv ownerType input t := by
  have unsettled : s.found ownerType input = none := by
    unfold State.found
    rw [free]
    rfl
  have idle := idle_of_row inv fun _ _ _ _ held => nomatch free.symm.trans held
  refine inv_renew inv there since unsettled idle change calls (by rw [nextId]; exact Nat.le_succ _) now plants same
    (fun r found => ?_) ?_ ?_
  · rw [row] at found
    cases found
    exact ⟨rfl,by rw [nextId]; exact Nat.lt_succ_self _⟩
  · unfold StageOk
    rcases goes with ⟨forwards,mine⟩ | ⟨⟨failure,thrown⟩,_⟩
    · rw [forwards]
      exact ⟨by rw [mine]; rfl,plants.trans (nothing_planted inv unsettled idle).1⟩
    · rw [thrown]
      trivial
  · rcases goes with ⟨forwards,mine⟩ | ⟨_,nothing⟩
    · exact .inr ⟨forwards,mine,row,positive,within⟩
    · exact .inl nothing

theorem inv_delete (there : s.calls[n]? = some c) {old : Row}
    (stage : c.stage = .deleting since old) (change : Call → Call) (calls : t.calls = s.calls.modify n change)
    (row : t.row = s.row.filter fun row => ¬ (row.id = old.id ∧ row.data.status = old.data.status))
    (nextId : t.nextId = s.nextId) (now : t.now = s.now) (plants : t.plants = s.plants)
    (same : (change c).input = c.input ∧ (change c).reserved = c.reserved)
    (goes : (change c).stage = .reinserting since ∨ ∃ failure, (change c).stage = .ended (.threw failure)) :
    Inv ownerType input t := by
  have ok := inv.stages n c there
  unfold StageOk at ok
  rw [stage] at ok
  obtain ⟨unreserved,positive,unfit,_,expired,alike⟩ := ok
  have stageOk : ∀ u : State, StageOk ownerType input u (change c) := by
    intro u
    unfold StageOk
    rcases goes with again | ⟨failure,thrown⟩
    · rw [again]
      exact ⟨same.2.trans unreserved,positive⟩
    · rw [thrown]
      trivial
  by_cases hit : ∃ r, s.row = some r ∧ r.id = old.id ∧ r.data.status = old.data.status
  · obtain ⟨r,known,here,status⟩ := hit
    have data : r.data = old.data := by
      rcases alike r known here with equal | ⟨pending,settled⟩
      · exact equal
      · exact absurd (status.trans pending) settled
    have unsettled : s.found ownerType input = none := by
      unfold State.found
      rw [known]
      show reusable ownerType input r.data = none
      rw [data]
      exact unfit
    have idle := idle_of_row inv fun id a past within held => by
      cases known.symm.trans held
      have late := expired (by rw [← data]; rfl)
      rw [← data,not_expired past within] at late
      cases late
    have gone : t.row = none := by
      rw [row,known]
      simp [here,status]
    exact inv_renew inv there since unsettled idle change calls (Nat.le_of_eq nextId.symm) now plants same.1
      (fun r' found => nomatch gone.symm.trans found) (stageOk t) (.inl (same.2.trans unreserved))
  · have kept : t.row = s.row := by
      rw [row]
      cases found : s.row with
      | none => rfl
      | some r =>
        rw [Option.filter_some,if_pos]
        rw [decide_eq_true_eq]
        exact fun both => hit ⟨r,found,both⟩
    refine inv_call inv there change calls kept nextId now plants same (stageOk s) fun reserved => ?_
    rw [unreserved] at reserved
    cases reserved

end

/-! ### The outcome of a forward -/

theorem fingerprint_own (i : Input) (data : Payload) (chat : data.sourceChatId = i.sourceChatId)
    (message : data.sourceMessageId = i.sourceMessageId) : isSourceFingerprintMatch ownerType i data = true := by
  simp [isSourceFingerprintMatch,chat,message]

theorem reusable_ready (i : Input) {messageId : String} (text : messageId ≠ "") (now : Int) :
    reusable ownerType i (i.ready messageId now) = some ⟨i.mainChatId,messageId⟩ :=
  if_pos ⟨rfl,rfl,text,fingerprint_own i _ rfl rfl⟩

theorem reusable_unready {i : Input} (unready : data.status ≠ .ready) : reusable ownerType i data = none :=
  if_neg fun fits => unready fits.1

theorem inv_record (inv : Inv ownerType input s) (there : s.calls[n]? = some c) {r : Record} {id : Nat}
    (stage : c.stage = .updating r id) (change : Call → Call) (calls : t.calls = s.calls.modify n change)
    (row : t.row = (s.write r id).row) (nextId : t.nextId = s.nextId) (now : t.now = s.now) (plants : t.plants = s.plants)
    (same : (change c).input = c.input ∧ (change c).reserved = c.reserved) (ends : (change c).stage = .ended r.result) :
    Inv ownerType input t := by
  have ok := inv.stages n c there
  unfold StageOk at ok
  rw [stage] at ok
  obtain ⟨⟨since,mine⟩,recordOk⟩ := ok
  obtain ⟨held,_,_⟩ := inv.holder n c id since there mine (by rw [stage]; rfl)
  have written : t.row = some ⟨id,r.payload⟩ := by
    rw [row,State.write,held]
    simp [Input.reservation]
  have settled : r.payload.status ≠ .pending := by
    rcases recordOk with ⟨messageId,at_time,_,payload,_⟩ | ⟨payload,_⟩
    · rw [payload]; exact RowStatus.noConfusion
    · rw [payload]; exact RowStatus.noConfusion
  have unsettled : s.found ownerType input = none := by
    unfold State.found
    rw [held]
    exact reusable_unready (show (input.reservation since).status ≠ _ from RowStatus.noConfusion)
  -- nobody else has a reservation that is not done with
  have alone : ∀ (m : Nat) (d : Call) (j : Nat) (a : Int), s.calls[m]? = some d → d.reserved = some (j,a) → m ≠ n →
      j ≠ id ∧ ended d.stage = true := by
    intro m d j a known reserved other
    have apart : j ≠ id := by
      rintro rfl
      exact other (inv.distinct m n d c j a since known there reserved mine)
    refine ⟨apart,?_⟩
    by_contra going
    have held' := (inv.holder m d j a known reserved (by simpa using going)).1
    cases held.symm.trans held'
    exact apart rfl
  have before : ∀ (m : Nat) (d : Call) (j : Nat) (a : Int), t.calls[m]? = some d → d.reserved = some (j,a) →
      ∃ d', s.calls[m]? = some d' ∧ d'.reserved = some (j,a) := by
    intro m d j a found reserved
    rcases at_calls there calls found with ⟨rfl,rfl⟩ | ⟨_,known⟩
    · exact ⟨c,there,same.2.symm.trans reserved⟩
    · exact ⟨d,known,reserved⟩
  refine ⟨by rw [now]; exact inv.clock,fun m d found => ?_,fun m d found => ?_,fun r' found => ?_,
    fun m d j a found reserved => ?_,fun i m d e j a b found found' reserved reserved' => ?_,
    fun m d j a found reserved going => ?_,⟨by rw [plants]; exact inv.planted.1,fun some_plant => ?_⟩,
    fun m d j a found reserved finished r' known here => ?_⟩
  · rcases at_calls there calls found with ⟨rfl,rfl⟩ | ⟨_,known⟩
    · rw [same.1]
      exact inv.inputs _ c there
    · exact inv.inputs m d known
  · rcases at_calls there calls found with ⟨rfl,rfl⟩ | ⟨other,known⟩
    · unfold StageOk
      rw [ends]
      rcases recordOk with ⟨messageId,at_time,text,payload,_,result⟩ | ⟨_,⟨failure,result⟩,_⟩
      · rw [result]
        unfold State.found
        rw [written,payload]
        exact reusable_ready input text at_time
      · rw [result]
        trivial
    · refine stageOk_calm (fun j a reserved => (alone m d j a known reserved other).2) nextId now (fun r' found => ?_) (fun anchor found => ?_)
        (inv.stages m d known)
      · rw [written] at found
        cases found
        exact ⟨_,held,rfl,.inr ⟨rfl,settled⟩⟩
      · exact nomatch unsettled.symm.trans found
  · rw [written] at found
    cases found
    rw [nextId]
    exact inv.known n c id since there mine
  · obtain ⟨d',known,reserved'⟩ := before m d j a found reserved
    rw [nextId]
    exact inv.known m d' j a known reserved'
  · obtain ⟨d',known,first⟩ := before i d j a found reserved
    obtain ⟨e',known',second⟩ := before m e j b found' reserved'
    exact inv.distinct i m d' e' j a b known known' first second
  · rcases at_calls there calls found with ⟨rfl,rfl⟩ | ⟨other,known⟩
    · rw [ends] at going
      cases going
    · rw [(alone m d j a known reserved other).2] at going
      cases going
  · rw [plants] at some_plant
    left
    unfold State.found
    rcases recordOk with ⟨messageId,at_time,text,payload,_⟩ | ⟨_,_,none_planted⟩
    · rw [written,payload]
      show (reusable ownerType input (input.ready messageId at_time)).isSome = true
      rw [reusable_ready input text at_time]
      rfl
    · exact absurd none_planted some_plant
  · rw [written] at known
    cases known
    exact settled

theorem inv_forwarded (inv : Inv ownerType input s) (there : s.calls[n]? = some c) (stage : c.stage = .forwarding)
    (change : Call → Call) (calls : t.calls = s.calls.modify n change)
    (row : t.row = s.row) (nextId : t.nextId = s.nextId) (now : t.now = s.now)
    (same : (change c).input = c.input ∧ (change c).reserved = c.reserved) {r : Record} (goes : (change c).stage = .finding r)
    (plants : t.plants.length ≤ 1) (recordOk : RecordOk input t r) : Inv ownerType input t := by
  have ok := inv.stages n c there
  unfold StageOk at ok
  rw [stage] at ok
  obtain ⟨⟨⟨id,since⟩,mine⟩,_⟩ := And.imp_left Option.isSome_iff_exists.mp ok
  have before : ∀ (m : Nat) (d : Call) (j : Nat) (a : Int), t.calls[m]? = some d → d.reserved = some (j,a) →
      ∃ d', s.calls[m]? = some d' ∧ d'.reserved = some (j,a) ∧ ended d.stage = ended d'.stage := by
    intro m d j a found reserved
    rcases at_calls there calls found with ⟨rfl,rfl⟩ | ⟨_,known⟩
    · exact ⟨c,there,same.2.symm.trans reserved,by rw [goes,stage]; rfl⟩
    · exact ⟨d,known,reserved,rfl⟩
  have held := (inv.holder n c id since there mine (by rw [stage]; rfl)).1
  refine ⟨by rw [now]; exact inv.clock,fun m d found => ?_,fun m d found => ?_,by rw [row,nextId]; exact inv.rowKnown,
    fun m d j a found reserved => ?_,fun i m d e j a b found found' reserved reserved' => ?_,
    fun m d j a found reserved going => ?_,⟨plants,fun _ => .inr ⟨n,_,at_change there calls,?_,?_⟩⟩,
    fun m d j a found reserved finished => ?_⟩
  · rcases at_calls there calls found with ⟨rfl,rfl⟩ | ⟨_,known⟩
    · rw [same.1]
      exact inv.inputs _ c there
    · exact inv.inputs m d known
  · rcases at_calls there calls found with ⟨rfl,rfl⟩ | ⟨other,known⟩
    · unfold StageOk
      rw [goes]
      exact ⟨by rw [same.2,mine]; rfl,recordOk⟩
    · -- another call that forwards or records would hold the same row
      have calm : ∀ j a, d.reserved = some (j,a) → ended d.stage = true := by
        intro j a reserved
        by_contra going
        have held' := (inv.holder m d j a known reserved (by simpa using going)).1
        cases held.symm.trans held'
        exact other (inv.distinct m n d c _ _ _ known there reserved mine)
      refine stageOk_calm calm nextId now (fun r' found => ⟨r',row ▸ found,rfl,.inl rfl⟩) (fun anchor found => ?_) (inv.stages m d known)
      unfold State.found at found ⊢
      rwa [row]
  · obtain ⟨d',known,reserved',_⟩ := before m d j a found reserved
    rw [nextId]
    exact inv.known m d' j a known reserved'
  · obtain ⟨d',known,first,_⟩ := before i d j a found reserved
    obtain ⟨e',known',second,_⟩ := before m e j b found' reserved'
    exact inv.distinct i m d' e' j a b known known' first second
  · obtain ⟨d',known,reserved',alike⟩ := before m d j a found reserved
    rw [row,now]
    exact inv.holder m d' j a known reserved' (alike ▸ going)
  · rw [same.2,mine]
    rfl
  · rw [goes]
    rfl
  · obtain ⟨d',known,reserved',alike⟩ := before m d j a found reserved
    rw [row]
    exact inv.free m d' j a known reserved' (alike ▸ finished)

/-! ### Steps -/

section
variable (inv : Inv ownerType input s) (there : s.calls[n]? = some c) (unreserved : c.reserved = none)
include inv there unreserved

theorem inv_goes {stage : Stage} (ok : StageOk ownerType input s { c with stage }) : Inv ownerType input (s.goes n stage) :=
  inv_call inv there _ rfl rfl rfl rfl rfl ⟨rfl,rfl⟩ ok fun reserved => by
    rw [unreserved] at reserved
    cases reserved

theorem inv_finish {result : Result}
    (right : ∀ anchor planted, result = .returned anchor planted → s.found ownerType input = some anchor) :
    Inv ownerType input (s.finish n c result) := by
  refine inv_call inv there _ rfl rfl rfl rfl rfl ⟨rfl,rfl⟩ ?_ fun reserved => ?_
  · unfold StageOk
    cases result with
    | returned anchor planted => exact right anchor planted rfl
    | threw failure => trivial
  · rw [unreserved] at reserved
    cases reserved

theorem inv_threw (failure : Failure) :
    Inv ownerType input (s.finish n c (.threw failure)) := inv_finish inv there unreserved fun _ _ => nofun

theorem inv_reserves (positive : 0 < since) (within : Within since s.now) {taken : Stage} (ok : StageOk ownerType input s { c with stage := taken })
    (reply : Reply) : Inv ownerType input (s.reserves n c since reply taken) := by
  have mine := inv.inputs n c there
  unfold State.reserves
  cases known : s.row with
  | some row =>
    dsimp only
    split
    · exact inv_goes inv there unreserved ok
    · exact inv_threw inv there unreserved _
  | none =>
    dsimp only
    split
    · split
      · exact inv_insert inv there known positive within _ rfl (by rw [mine]) rfl rfl rfl rfl (.inl ⟨rfl,rfl⟩)
      · exact inv_insert inv there known positive within _ rfl (by rw [mine]; rfl) rfl rfl rfl rfl (.inr ⟨⟨_,rfl⟩,unreserved⟩)
    · exact inv_threw inv there unreserved _

end

theorem verdict_reuse {now : Int} {anchor : Anchor} (said : verdict ownerType input now data = .reuse anchor) :
    reusable ownerType input data = some anchor := by
  unfold verdict at said
  split at said
  · next found =>
    cases said
    exact found
  · split at said
    · cases said
    · cases said

theorem verdict_takeOver {now : Int} (said : verdict ownerType input now data = .takeOver) :
    reusable ownerType input data = none ∧ (data.status = .pending → leaseExpired now data = true) := by
  unfold verdict at said
  split at said
  · cases said
  next unfit =>
  split at said
  · cases said
  · next expired =>
    refine ⟨unfit,fun pending => ?_⟩
    by_contra fresh
    exact expired ⟨pending,by simpa using fresh⟩

theorem inv_advance (distant : input.sourceChatId ≠ input.mainChatId) (inv : Inv ownerType input s)
    (there : s.calls[n]? = some c) (reply : Reply) (timely : Timely s.now c.stage)
    (recorded : c.reserved.isSome = true → reply = .ok) : Inv ownerType input (s.advance ownerType n c reply) := by
  have ok := inv.stages n c there
  have mine := inv.inputs n c there
  unfold State.advance
  unfold StageOk at ok
  cases at_stage : c.stage with
  | reading =>
    rw [at_stage] at ok
    dsimp only
    split
    · exact inv_threw inv there ok _
    cases found : s.found ownerType c.input with
    | some anchor =>
      exact inv_finish inv there ok fun _ _ same => by cases same; rw [← mine]; exact found
    | none =>
      rw [if_neg (by rw [mine]; exact distant)]
      cases s.inflight.get c.process with
      | some leader => exact inv_goes inv there ok ok
      | none =>
        refine inv_call inv there _ rfl rfl rfl rfl rfl ⟨rfl,rfl⟩ ok fun reserved => ?_
        rw [ok] at reserved
        cases reserved
  | joined leader =>
    rw [at_stage] at ok
    dsimp only
    split
    · next result found =>
      obtain ⟨d,known,stage⟩ := Option.map_eq_some_iff.mp found
      refine inv_finish inv there ok fun anchor planted same => ?_
      have theirs := inv.stages leader d known
      unfold StageOk at theirs
      rw [stage,same] at theirs
      exact theirs
    · exact inv
  | rechecking =>
    rw [at_stage] at ok
    dsimp only
    split
    · exact inv_threw inv there ok _
    · cases found : s.found ownerType c.input with
      | some anchor =>
        exact inv_finish inv there ok fun _ _ same => by cases same; rw [← mine]; exact found
      | none => exact inv_goes inv there ok ok
  | resolving | forwarding | ended _ => exact inv
  | inserting since =>
    rw [at_stage] at ok timely
    have requires : StageOk ownerType input s { c with stage := .requiring since } := ok
    exact inv_reserves inv there ok.1 ok.2 timely requires reply
  | requiring since =>
    rw [at_stage] at ok
    dsimp only
    split
    · exact inv_threw inv there ok.1 _
    cases known : s.row with
    | none => exact inv_threw inv there ok.1 _
    | some row =>
      dsimp only
      cases said : verdict ownerType c.input s.now row.data with
      | reuse anchor =>
        refine inv_finish inv there ok.1 fun _ _ same => ?_
        cases same
        rw [found_of_row row known,← mine]
        exact verdict_reuse said
      | wait failure => exact inv_threw inv there ok.1 _
      | takeOver =>
        rw [mine] at said
        obtain ⟨unfit,expired⟩ := verdict_takeOver said
        refine inv_goes inv there ok.1 ⟨ok.1,ok.2,unfit,inv.rowKnown row known,expired,fun r found _ => .inl ?_⟩
        rw [Option.mem_unique found known]
  | deleting since old =>
    rw [at_stage] at ok
    dsimp only
    by_cases applied : reply.applied = true
    · split
      · exact inv_delete inv there at_stage _ rfl rfl rfl rfl rfl ⟨rfl,rfl⟩ (.inl rfl)
      · exact inv_delete inv there at_stage _ rfl rfl rfl rfl rfl ⟨rfl,rfl⟩ (.inr ⟨_,rfl⟩)
    · split
      · exact inv_goes inv there ok.1 ⟨ok.1,ok.2.1⟩
      · exact inv_threw inv there ok.1 _
  | reinserting since =>
    rw [at_stage] at ok timely
    have rereads : StageOk ownerType input s { c with stage := .rereading } := ok.1
    exact inv_reserves inv there ok.1 ok.2 timely rereads reply
  | rereading =>
    rw [at_stage] at ok
    dsimp only
    split
    · exact inv_threw inv there ok _
    cases known : s.row with
    | none => exact inv_threw inv there ok _
    | some row =>
      dsimp only
      cases found : reusable ownerType c.input row.data with
      | some anchor =>
        refine inv_finish inv there ok fun _ _ same => ?_
        cases same
        rw [found_of_row row known,← mine]
        exact found
      | none => exact inv_threw inv there ok _
  | finding r =>
    rw [at_stage] at ok
    obtain ⟨⟨⟨id,since⟩,held⟩,recordOk⟩ := And.imp_left Option.isSome_iff_exists.mp ok
    have row := (inv.holder n c id since there held (by rw [at_stage]; rfl)).1
    dsimp only
    rw [if_neg (by rw [recorded ok.1]; exact not_not.mpr rfl),row]
    exact inv_call inv there _ rfl rfl rfl rfl rfl ⟨rfl,rfl⟩ ⟨⟨since,held⟩,recordOk⟩ fun _ => by rw [at_stage]; rfl
  | updating r id =>
    rw [at_stage] at ok
    obtain ⟨⟨since,held⟩,_⟩ := ok
    dsimp only
    rw [recorded (by rw [held]; rfl)]
    exact inv_record inv there at_stage _ rfl rfl rfl rfl rfl ⟨rfl,rfl⟩ rfl
  | adding r | refinding r =>
    rw [at_stage] at ok
    exact ok.elim

theorem inv_append (inv : Inv ownerType input s) (d : Call) (mine : d.input = input) (unreserved : d.reserved = none)
    (ok : StageOk ownerType input s d) : Inv ownerType input { s with calls := s.calls ++ [d] } := by
  have before : ∀ (m : Nat) (e : Call) (id : Nat) (since : Int), (s.calls ++ [d])[m]? = some e → e.reserved = some (id,since) →
      s.calls[m]? = some e := by
    intro m e id since found reserved
    rcases at_of_append found with known | ⟨_,rfl⟩
    · exact known
    · exact nomatch unreserved.symm.trans reserved
  refine ⟨inv.clock,fun m e found => ?_,fun m e found => ?_,inv.rowKnown,fun m e id since found reserved => ?_,
    fun i m e f id a b found found' reserved reserved' => ?_,fun m e id since found reserved going => ?_,
    ⟨inv.planted.1,fun some_plant => ?_⟩,fun m e id since found reserved finished => ?_⟩
  · rcases at_of_append found with known | ⟨_,rfl⟩
    · exact inv.inputs m e known
    · exact mine
  · rcases at_of_append found with known | ⟨_,rfl⟩
    · exact stageOk_same rfl rfl rfl rfl (inv.stages m e known)
    · exact stageOk_same rfl rfl rfl rfl ok
  · exact inv.known m e id since (before m e id since found reserved) reserved
  · exact inv.distinct i m e f id a b (before i e id a found reserved) (before m f id b found' reserved') reserved reserved'
  · exact inv.holder m e id since (before m e id since found reserved) reserved going
  · rcases inv.planted.2 some_plant with settled | ⟨m,e,known,reserved,going⟩
    · exact .inl settled
    · refine .inr ⟨m,e,?_,reserved,going⟩
      rw [List.getElem?_append_left (at_lt known)]
      exact known
  · exact inv.free m e id since (before m e id since found reserved) reserved finished

theorem expired_later {now later : Int} (order : now ≤ later) (expired : leaseExpired now data = true) :
    leaseExpired later data = true := by
  unfold leaseExpired at *
  rw [Bool.or_eq_true,decide_eq_true_eq,decide_eq_true_eq] at *
  exact expired.imp_right fun reached => reached.trans order

theorem inv_tick (inv : Inv ownerType input s) (ms : Nat)
    (within : ∀ c ∈ s.calls, ended c.stage = false → ∀ r ∈ c.reserved, Within r.2 (s.now + ms)) :
    Inv ownerType input { s with now := s.now + ms } := by
  have later : s.now ≤ s.now + ms := by omega
  refine ⟨lt_of_lt_of_le inv.clock later,inv.inputs,fun m d known => ?_,inv.rowKnown,inv.known,inv.distinct,
    fun m d id since known reserved going => ?_,inv.planted,inv.free⟩
  · have ok := inv.stages m d known
    obtain ⟨process,i,stage,reserved⟩ := d
    cases stage with
    | deleting since old =>
      obtain ⟨unreserved,positive,unfit,bound,expired,alike⟩ := ok
      exact ⟨unreserved,positive,unfit,bound,fun pending => expired_later later (expired pending),alike⟩
    | ended result => cases result with
      | returned anchor planted => exact ok
      | threw failure => trivial
    | _ => exact ok
  · obtain ⟨held,positive,_⟩ := inv.holder m d id since known reserved going
    exact ⟨held,positive,within d (List.mem_of_getElem? known) going (id,since) reserved⟩

theorem inv_step (distant : input.sourceChatId ≠ input.mainChatId) (inv : Inv ownerType input s) {l : Label}
    (allowed : Allowed input s l) : Inv ownerType input (step ownerType s l) := by
  obtain ⟨assumed,recorded⟩ := allowed
  cases l with
  | call process i =>
    refine inv_append inv _ assumed rfl ?_
    by_cases blank : i.sourceChatId = "" ∨ i.sourceMessageId = ""
    · rw [if_pos blank]
      trivial
    · rw [if_neg blank]
      rfl
  | go n reply =>
    unfold step
    dsimp only
    cases there : s.calls[n]? with
    | none => exact inv
    | some c => exact inv_advance distant inv there reply (assumed c there) (recorded c there)
  | bot n failure =>
    unfold step
    dsimp only
    cases there : s.calls[n]? with
    | none => exact inv
    | some c =>
      dsimp only
      split
      · next resolving =>
        have unreserved := inv.stages n c there
        unfold StageOk at unreserved
        rw [resolving] at unreserved
        cases failure with
        | some failure => exact inv_threw inv there unreserved failure
        | none => exact inv_goes inv there unreserved ⟨unreserved,inv.clock⟩
      · exact inv
  | forward n outcome =>
    unfold step
    dsimp only
    cases there : s.calls[n]? with
    | none => exact inv
    | some c =>
      dsimp only
      split
      · next forwarding =>
        have mine := inv.inputs n c there
        have ok := inv.stages n c there
        unfold StageOk at ok
        rw [forwarding] at ok
        cases outcome with
        | message id =>
          refine inv_forwarded inv there forwarding _ rfl rfl rfl rfl ⟨rfl,rfl⟩ rfl ?_ (.inl ⟨id.repr,s.now,?_,?_,rfl,?_⟩)
          · show (s.plants ++ [_]).length ≤ 1
            rw [ok.2]
            exact Nat.le_refl 1
          · exact Nat.repr_ne_empty
          · rw [mine]
          · rw [mine]
        | failed failure =>
          refine inv_forwarded inv there forwarding _ rfl rfl rfl rfl ⟨rfl,rfl⟩ rfl inv.planted.1 (.inr ⟨?_,⟨failure,rfl⟩,ok.2⟩)
          rw [mine]
      · exact inv
  | tick ms => exact inv_tick inv ms recorded

theorem inv_start (row : Option Payload) : Inv ownerType input (.start row) := by
  have nobody : ∀ (n : Nat) (c : Call), (State.start row).calls[n]? ≠ some c := fun n c found => nomatch found
  refine ⟨Int.one_pos,fun n c found => absurd found (nobody n c),fun n c found => absurd found (nobody n c),fun r found => ?_,
    fun n c id since found => absurd found (nobody n c),fun m n c d id a b found => absurd found (nobody m c),
    fun n c id since found => absurd found (nobody n c),⟨Nat.zero_le 1,fun some_plant => absurd rfl some_plant⟩,
    fun n c id since found => absurd found (nobody n c)⟩
  obtain ⟨data,_,rfl⟩ := Option.map_eq_some_iff.mp found
  exact Nat.one_pos

theorem once_of_inv (inv : Inv ownerType input s) : Once ownerType input s := by
  refine ⟨inv.planted.1,fun m n c d a b p q known known' ends ends' => ?_,
    fun n c id since known reserved finished row there here failure waits => ?_⟩
  · have first := inv.stages m c known
    have second := inv.stages n d known'
    unfold StageOk at first second
    rw [ends] at first
    rw [ends'] at second
    exact Option.mem_unique first second
  · have settled := inv.free n c id since known reserved finished row there here
    unfold verdict at waits
    split at waits
    · cases waits
    · split at waits
      · next pending => exact settled pending.1
      · cases waits

/-! ### A message that is in the main chat already -/

def ownAnchor (input : Input) : Anchor := ⟨input.mainChatId,input.sourceMessageId⟩

def OwnRecord (input : Input) (r : Record) : Prop :=
  input.sourceMessageId ≠ "" ∧ ∃ now, r = ⟨input.ready input.sourceMessageId now,false,.returned (ownAnchor input) false⟩

def DirectStage (input : Input) (anchor : Anchor) : Stage → Prop
  | .reading => input.sourceMessageId ≠ ""
  | .finding r | .updating r _ | .adding r | .refinding r => anchor = ownAnchor input ∧ OwnRecord input r
  | .ended (.returned found _) => found = anchor
  | .ended (.threw _) => True
  | _ => False

structure Direct (ownerType : OwnerType) (input : Input) (anchor : Anchor) (s : State) : Prop where
  inputs : ∀ (n : Nat) (c : Call), s.calls[n]? = some c → c.input = input
  stages : ∀ (n : Nat) (c : Call), s.calls[n]? = some c → DirectStage input anchor c.stage ∧ c.reserved = none
  unplanted : s.plants = []
  row : s.found ownerType input = some anchor ∨ anchor = ownAnchor input ∧ s.found ownerType input = none

section
variable {anchor : Anchor}

section
variable (inv : Direct ownerType input anchor s) (there : s.calls[n]? = some c)
include inv there

theorem direct_call (change : Call → Call) (calls : t.calls = s.calls.modify n change) (plants : t.plants = s.plants)
    (same : (change c).input = c.input ∧ (change c).reserved = c.reserved) (stage : DirectStage input anchor (change c).stage)
    (row : t.row = s.row ∨ t.found ownerType input = some anchor) : Direct ownerType input anchor t := by
  refine ⟨fun m d found => ?_,fun m d found => ?_,plants.trans inv.unplanted,?_⟩
  · rcases at_calls there calls found with ⟨rfl,rfl⟩ | ⟨_,known⟩
    · rw [same.1]
      exact inv.inputs _ c there
    · exact inv.inputs m d known
  · rcases at_calls there calls found with ⟨rfl,rfl⟩ | ⟨_,known⟩
    · exact ⟨stage,same.2.trans (inv.stages _ c there).2⟩
    · exact inv.stages m d known
  · rcases row with kept | written
    · unfold State.found
      rw [kept]
      exact inv.row
    · exact .inl written

theorem direct_goes {stage : Stage} (ok : DirectStage input anchor stage) : Direct ownerType input anchor (s.goes n stage) :=
  direct_call inv there _ rfl rfl ⟨rfl,rfl⟩ ok (.inl rfl)

theorem direct_finish {result : Result}
    (ok : DirectStage input anchor (.ended result)) : Direct ownerType input anchor (s.finish n c result) :=
  direct_call inv there _ rfl rfl ⟨rfl,rfl⟩ ok (.inl rfl)

end

theorem found_own {r : Record} (own : OwnRecord input r) (id : Nat) (known : s.row = some ⟨id,r.payload⟩) :
    s.found ownerType input = some (ownAnchor input) := by
  obtain ⟨text,now,rfl⟩ := own
  rw [found_of_row _ known]
  exact reusable_ready input text now

theorem direct_record (inv : Direct ownerType input anchor s) (there : s.calls[n]? = some c) {r : Record}
    (same : anchor = ownAnchor input) (own : OwnRecord input r) (calls : t.calls = s.calls) (plants : t.plants = s.plants)
    (row : t.row = s.row ∨ ∃ id, t.row = some ⟨id,r.payload⟩) : Direct ownerType input anchor (t.finish n c r.result) := by
  refine direct_call inv there (fun c => { c with stage := .ended r.result }) ?_ plants ⟨rfl,rfl⟩ ?_ ?_
  · show t.calls.modify n _ = _
    rw [calls]
  · obtain ⟨_,_,rfl⟩ := own
    exact same.symm
  · refine row.imp id fun written => ?_
    obtain ⟨id,written⟩ := written
    rw [same]
    exact found_own own id written

section
variable (near : input.sourceChatId = input.mainChatId) (inv : Direct ownerType input anchor s)
include near inv

theorem direct_advance (there : s.calls[n]? = some c) (reply : Reply) : Direct ownerType input anchor (s.advance ownerType n c reply) := by
  have ok := (inv.stages n c there).1
  have mine := inv.inputs n c there
  unfold State.advance
  cases stage : c.stage with
  | reading =>
    rw [stage] at ok
    dsimp only
    split
    · exact direct_finish inv there trivial
    cases found : s.found ownerType c.input with
    | some a =>
      refine direct_finish inv there ?_
      rw [mine] at found
      rcases inv.row with known | ⟨_,missing⟩
      · exact Option.mem_unique found known
      · cases found.symm.trans missing
    | none =>
      rw [if_pos (by rw [mine]; exact near)]
      refine direct_goes inv there ⟨?_,ok,s.now,by rw [mine]; rfl⟩
      rw [mine] at found
      rcases inv.row with known | ⟨same,_⟩
      · cases found.symm.trans known
      · exact same
  | joined _ | rechecking | inserting _ | requiring _ | deleting _ _ | reinserting _ | rereading =>
    rw [stage] at ok
    exact ok.elim
  | resolving | forwarding | ended _ => exact inv
  | finding r =>
    rw [stage] at ok
    dsimp only
    split
    · exact direct_record inv there ok.1 ok.2 rfl rfl (.inl rfl)
    · cases s.row with
      | some row | none => exact direct_goes inv there ok
  | updating r id =>
    rw [stage] at ok
    dsimp only
    split
    · refine direct_record inv there ok.1 ok.2 rfl rfl ?_
      unfold State.write
      cases known : s.row with
      | none => exact .inl rfl
      | some row =>
        dsimp only [Option.map_some]
        split
        · exact .inr ⟨row.id,rfl⟩
        · exact .inl rfl
    · exact direct_record inv there ok.1 ok.2 rfl rfl (.inl rfl)
  | adding r =>
    rw [stage] at ok
    cases s.row with
    | some row =>
      dsimp only
      split
      · exact direct_goes inv there ok
      · exact direct_record inv there ok.1 ok.2 rfl rfl (.inl rfl)
    | none =>
      dsimp only
      split
      · exact direct_record inv there ok.1 ok.2 rfl rfl (.inr ⟨_,rfl⟩)
      · exact direct_record inv there ok.1 ok.2 rfl rfl (.inl rfl)
  | refinding r =>
    rw [stage] at ok
    dsimp only
    split
    · exact direct_record inv there ok.1 ok.2 rfl rfl (.inl rfl)
    · cases s.row with
      | some row => exact direct_goes inv there ok
      | none => exact direct_record inv there ok.1 ok.2 rfl rfl (.inl rfl)

theorem direct_step {l : Label} (assumed : Assumed input s l) : Direct ownerType input anchor (step ownerType s l) := by
  unfold step
  cases l with
  | call process i =>
    refine ⟨fun m d found => ?_,fun m d found => ?_,inv.unplanted,inv.row⟩
    · rcases at_of_append found with known | ⟨_,rfl⟩
      · exact inv.inputs m d known
      · exact assumed
    · rcases at_of_append found with known | ⟨_,rfl⟩
      · exact inv.stages m d known
      refine ⟨?_,rfl⟩
      split
      · trivial
      · next named =>
        rw [not_or] at named
        rw [← show i = input from assumed]
        exact named.2
  | go n reply =>
    dsimp only
    cases there : s.calls[n]? with
    | none => exact inv
    | some c => exact direct_advance near inv there reply
  | bot n failure =>
    dsimp only
    cases there : s.calls[n]? with
    | none => exact inv
    | some c =>
      dsimp only
      split
      · next resolving => exact (resolving ▸ (inv.stages n c there).1 : DirectStage input anchor .resolving).elim
      · exact inv
  | forward n outcome =>
    dsimp only
    cases there : s.calls[n]? with
    | none => exact inv
    | some c =>
      dsimp only
      split
      · next forwarding => exact (forwarding ▸ (inv.stages n c there).1 : DirectStage input anchor .forwarding).elim
      · exact inv
  | tick ms => exact { inv with }

end

theorem direct_start (row : Option Payload) : ∃ anchor, Direct ownerType input anchor (.start row) := by
  have nobody : ∀ (n : Nat) (c : Call), (State.start row).calls[n]? ≠ some c := fun n c found => nomatch found
  cases found : (State.start row).found ownerType input with
  | some anchor =>
    exact ⟨anchor,fun n c there => absurd there (nobody n c),fun n c there => absurd there (nobody n c),rfl,.inl found⟩
  | none =>
    exact ⟨ownAnchor input,fun n c there => absurd there (nobody n c),fun n c there => absurd there (nobody n c),rfl,.inr ⟨rfl,found⟩⟩

theorem once_of_direct (inv : Direct ownerType input anchor s) : Once ownerType input s := by
  refine ⟨by rw [inv.unplanted]; exact Nat.zero_le 1,fun m n c d a b p q known known' ends ends' => ?_,
    fun n c id since known reserved => ?_⟩
  · have first := (inv.stages m c known).1
    have second := (inv.stages n d known').1
    rw [ends] at first
    rw [ends'] at second
    exact first.trans second.symm
  · exact nomatch (inv.stages n c known).2.symm.trans reserved

end

abbrev Reached (ownerType : OwnerType) (input : Input) (row : Option Payload) : State → Prop :=
  Reachable (step ownerType) (Allowed input) (.start row)

end

def kept : Input := ⟨"main","private","7"⟩

def planting (process n : Nat) (id : Nat) : List Label :=
  [.call process kept,.go n .ok,.go n .ok,.bot n none,.go n .ok,.forward n (.message id)]

def planted : List Label :=
  planting 0 0 41 ++ [Label.call 1 kept,.go 1 .ok,.go 1 .ok,.bot 1 none,.go 1 .ok,.go 1 .ok,.go 0 .ok,.go 0 .ok,.call 1 kept,.go 2 .ok]

/-- The forward succeeds, but this is not written down; the lease runs out and the message is forwarded again. -/
def forgotten : List Label :=
  planting 0 0 41 ++ [Label.go 0 .ok,.go 0 (.threw false),.tick 300000,.call 0 kept,.go 1 .ok,.go 1 .ok,.bot 1 none,.go 1 .ok,.go 1 .ok,
    .go 1 .ok,.go 1 .ok,.forward 1 (.message 42)]

end Tgtc.AnchorOnce
