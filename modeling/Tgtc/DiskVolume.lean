import Tgtc.DiskLedger

/-!
The volume under the coordinator. Admission compares a probe of the volume, in which written bytes are gone already,
with a ledger of bytes not yet reported as written.
-/
namespace Tgtc.DiskVolume
open Numbers Resources DiskQueue DiskMoves DiskLedger Coordinator Runs
open Store (amount total total_open total_close total_modify amount_of_found total_le_total total_differ_at)

structure Volume where
  service : Service
  free : Int
  written : Nat → Int
  /-- What it has passed to `consume`. -/
  reported : Nat → Int

inductive Label
  | call (world : World) (op : Op)
  | write (reservation bytes : Nat)
  | consume (reservation bytes : Nat)
  | freed (bytes : Nat)

/-- `amounts` with more at one place. -/
def raise (amounts : Nat → Int) (id : Nat) (bytes : Int) : Nat → Int :=
  fun other => if other = id then amounts other + bytes else amounts other

def act (v : Volume) : Label → Volume
  | .call world op => { v with service := step { v.service with world := world } op }
  | .write id bytes => { v with free := v.free - bytes, written := raise v.written id bytes }
  | .consume id bytes =>
    { v with service := step v.service (.consume id (.whole bytes)), reported := raise v.reported id bytes }
  | .freed bytes => { v with free := v.free + bytes }

/-- An operation other than `configure`; `consume` has its own label and every call brings its own readings. -/
def FixedConfig : Op → Prop
  | .configure _ | .consume _ _ | .observe _ => False
  | _ => True

/-- Only holders of active reservations write, never more than they were granted, and report it. -/
def Allowed (v : Volume) : Label → Prop
  | .call world op => (probeFreeBytes world = v.free ∨ world.statfs = none) ∧ FixedConfig op
  | .write id bytes => isActive v.service.disk id = true ∧ v.written id + bytes ≤ grantedBytes v.service.disk id
  | .consume id bytes => v.reported id + bytes ≤ v.written id
  | .freed _ => True

def start (config : Config) (world : World) (evictionHook : Bool) (free : Int) : Volume :=
  ⟨Coordinator.fresh config world evictionHook,free,fun _ => 0,fun _ => 0⟩

def owedPart (written : Nat → Int) (id : Nat) (record : ReservationRecord) : Int := record.grantedBytes - written id

def owed (written : Nat → Int) (d : Disk) : Int := total (owedPart written) d.records d.reservations

/-- Holders stay within their grant and report no more than they wrote, and all
    they may still write fits under the limit. -/
structure Covered (limit : ℚ) (written reported : Nat → Int) (d : Disk) : Prop where
  ledger : Ledger d
  unwritten : ∀ id, d.records.length ≤ id → written id = 0
  honest : ∀ id, 0 ≤ reported id ∧ reported id ≤ written id
  used : ∀ (id : Nat) (record : ReservationRecord), d.records[id]? = some record → record.active = true →
    record.grantedBytes - record.remainingBytes ≤ reported id ∧ written id ≤ record.grantedBytes
  fits : d.reservations ≠ [] → (owed written d : ℚ) ≤ limit

variable {d : Disk} {limit : ℚ} {written : Nat → Int} {ctx : Context}

theorem owed_le_pending {reported : Nat → Int}
    (covered : Covered limit written reported d) : owed written d ≤ d.reservedPendingBytes := by
  rw [covered.ledger.pending]
  apply total_le_total
  intro id member
  obtain ⟨record,found⟩ := ledger_record covered.ledger member
  rw [amount_of_found _ found,amount_of_found _ found]
  have active := (covered.ledger.live id record found).mp member
  obtain ⟨reportedPart,_⟩ := covered.used id record found active
  have honest := (covered.honest id).2
  simp only [owedPart,pendingPart]
  omega

theorem owed_nonneg {reported : Nat → Int}
    (covered : Covered limit written reported d) : 0 ≤ owed written d := by
  apply List.sum_nonneg
  intro part inside
  obtain ⟨id,member,rfl⟩ := List.mem_map.mp inside
  obtain ⟨record,found⟩ := ledger_record covered.ledger member
  rw [amount_of_found _ found]
  have active := (covered.ledger.live id record found).mp member
  have within := (covered.used id record found active).2
  simp only [owedPart]
  omega

theorem covered_open {reported : Nat → Int}
    (covered : Covered limit written reported d)
    (reads : 0 ≤ probeAdmissionFreeBytes ctx →
      (probeAdmissionFreeBytes ctx : ℚ) - ctx.config.minFreeBytes ≤ limit)
    (key : String) {bytes : Int} (positive : 0 < bytes) {counts : Bool} (admitted : Admitted ctx d bytes counts) :
    Covered limit written reported (createReservation ctx d key bytes counts) := by
  have unwritten : written d.records.length = 0 := covered.unwritten _ (le_refl _)
  refine ⟨ledger_open ctx covered.ledger key positive counts,?_,covered.honest,?_,?_⟩
  · intro id beyond
    apply covered.unwritten
    simp only [createReservation,List.length_append] at beyond
    omega
  · intro id record found active
    simp only [createReservation] at found
    rcases Nat.lt_trichotomy id d.records.length with old | new | beyond
    · rw [List.getElem?_append_left old] at found
      exact covered.used id record found active
    · subst new
      simp only [List.getElem?_concat_length,Option.some.injEq] at found
      subst found
      have honest := (covered.honest d.records.length).1
      exact ⟨by show bytes - bytes ≤ _; omega,by rw [unwritten]; show 0 ≤ bytes; omega⟩
    · rw [List.getElem?_eq_none (by simp; omega)] at found
      cases found
  · intro _
    have room := ((evaluateGrant_iff _ _ _ _ _).mp admitted.2).2.1
    have before := owed_le_pending covered
    have after : owed written (createReservation ctx d key bytes counts) = owed written d + bytes := by
      simp only [owed,createReservation]
      rw [total_open _ covered.ledger.known]
      simp [owedPart,unwritten]
    have limit_reads := reads admitted.1
    rw [after]
    push_cast
    have cast : (owed written d : ℚ) ≤ d.reservedPendingBytes := by exact_mod_cast before
    linarith

theorem covered_retire {reported : Nat → Int}
    (covered : Covered limit written reported d) {id : Nat} {record : ReservationRecord}
    (found : d.records[id]? = some record) (active : record.active = true) :
    Covered limit written reported (retire d id record) := by
  have member : id ∈ d.reservations := (covered.ledger.live id record found).mpr active
  have off : id ∉ d.reservations.filter (· ≠ id) := by simp
  refine ⟨ledger_retire covered.ledger found active,?_,covered.honest,?_,?_⟩
  · intro other beyond
    exact covered.unwritten other (by simpa [retire] using beyond)
  · intro other r at_other on
    obtain ⟨old,before,rfl⟩ := modify_found at_other
    by_cases same : id = other
    · simp [same] at on
    · simp only [same] at on ⊢
      exact covered.used other old before on
  · intro _
    have before := covered.fits (List.ne_nil_of_mem member)
    have within := (covered.used id record found active).2
    have after : owed written (retire d id record) = owed written d - (record.grantedBytes - written id) := by
      simp only [owed,retire]
      rw [Store.total_modify_absent _ off,total_close _ covered.ledger.distinct member,amount_of_found _ found]
      rfl
    have smaller : owed written (retire d id record) ≤ owed written d := by omega
    have cast : (owed written (retire d id record) : ℚ) ≤ owed written d := by exact_mod_cast smaller
    linarith

theorem move_covered {reported : Nat → Int}
    (reads : 0 ≤ probeAdmissionFreeBytes ctx →
      (probeAdmissionFreeBytes ctx : ℚ) - ctx.config.minFreeBytes ≤ limit)
    (kind : Kind) (d d' : Disk) (undrawn : kind ≠ .drawn) (move : Move ctx kind d d')
    (covered : Covered limit written reported d) : Covered limit written reported d' := by
  have ledger := move_ledger ctx kind d d' move covered.ledger
  cases move with
  | grant _ key bytes counts positive admitted | hold _ key bytes counts positive admitted =>
    have opened := covered_open covered reads key positive admitted
    exact ⟨ledger,opened.unwritten,opened.honest,opened.used,opened.fits⟩
  | serve _ head rest queue admitted =>
    have positive := covered.ledger.asked head (by simp [queue])
    have opened := covered_open covered reads head.sessionKey positive admitted
    exact ⟨ledger,opened.unwritten,opened.honest,opened.used,opened.fits⟩
  | retire _ id record found active => exact covered_retire covered found active
  | consume => exact absurd rfl undrawn
  | _ => exact ⟨ledger,covered.unwritten,covered.honest,covered.used,covered.fits⟩

theorem covered_consume {reported : Nat → Int}
    (covered : Covered limit written reported d) {id bytes : Nat} (honest : reported id + bytes ≤ written id) :
    Covered limit written (raise reported id bytes) (consumeReservation d id (.whole bytes)) := by
  have honestly : ∀ other, 0 ≤ raise reported id bytes other ∧ raise reported id bytes other ≤ written other := by
    intro other
    have before := covered.honest other
    unfold raise
    split
    · next same => subst same; omega
    · exact before
  have more : ∀ other, reported other ≤ raise reported id bytes other := by
    intro other
    unfold raise
    split <;> omega
  rcases consumeReservation_cases ⟨defaultConfig,volume 0 0⟩ d id (.whole bytes) with
    same | ⟨record,found,active,positive,most,move,changed⟩
  · rw [same]
    refine ⟨covered.ledger,covered.unwritten,honestly,?_,covered.fits⟩
    intro other r at_other on
    have before := covered.used other r at_other on
    have grown := more other
    exact ⟨by omega,before.2⟩
  · have ledger := move_ledger _ _ _ _ move covered.ledger
    have member : id ∈ d.reservations := (covered.ledger.live id record found).mpr active
    rw [changed] at ledger ⊢
    refine ⟨ledger,by simpa using covered.unwritten,honestly,?_,?_⟩
    · intro other r at_other on
      obtain ⟨old,before,rfl⟩ := modify_found at_other
      by_cases same : id = other
      · subst same
        rw [found] at before
        cases before
        have spent : consumedBytes record (.whole bytes) ≤ bytes := by
          simp only [consumedBytes,Number.whole]
          split
          · omega
          · exact (min_le_right _ _).trans (by simp)
        have used := covered.used id record found active
        simp only [↓reduceIte,raise]
        exact ⟨by omega,used.2⟩
      · simp only [same,↓reduceIte] at on ⊢
        have used := covered.used other old before on
        have grown := more other
        exact ⟨by omega,used.2⟩
    · intro holders
      have unchanged : total (owedPart written) (d.records.modify id
          (fun r => { r with remainingBytes := r.remainingBytes - consumedBytes record (.whole bytes) }))
          d.reservations = owed written d := by
        rw [total_modify _ covered.ledger.distinct member found]
        simp only [owedPart,owed]
        omega
      simp only [owed,unchanged]
      exact covered.fits holders

theorem covered_write {reported : Nat → Int}
    (covered : Covered limit written reported d) {id bytes : Nat} (active : isActive d id = true)
    (within : written id + bytes ≤ grantedBytes d id) :
    Covered (limit - bytes) (raise written id bytes) reported d := by
  obtain ⟨record,found,on⟩ := isActive_known active
  have member : id ∈ d.reservations := (covered.ledger.live id record found).mpr on
  have granted : grantedBytes d id = record.grantedBytes := by simp [grantedBytes,found]
  have more : ∀ other, written other ≤ raise written id bytes other := by
    intro other
    unfold raise
    split <;> omega
  refine ⟨covered.ledger,?_,?_,?_,?_⟩
  · intro other beyond
    have known : id < d.records.length := covered.ledger.known id member
    have different : other ≠ id := by omega
    simp only [raise,different]
    exact covered.unwritten other beyond
  · intro other
    have before := covered.honest other
    have grown := more other
    omega
  · intro other r at_other on_other
    have before := covered.used other r at_other on_other
    refine ⟨before.1,?_⟩
    unfold raise
    split
    · next same =>
      subst same
      rw [found] at at_other
      cases at_other
      omega
    · exact before.2
  · intro holders
    -- The bytes leave the volume and what the holder may still write together.
    have others : ∀ other, other ≠ id →
        amount (owedPart (raise written id bytes)) d.records other = amount (owedPart written) d.records other := by
      intro other different
      have same : owedPart (raise written id bytes) other = owedPart written other := by
        funext r
        simp [owedPart,raise,different]
      rw [amount,amount,same]
    have after := total_differ_at (owedPart (raise written id bytes)) (owedPart written) covered.ledger.distinct member
      others
    rw [amount_of_found _ found,amount_of_found _ found] at after
    simp only [owedPart,raise,↓reduceIte] at after
    have fits := covered.fits holders
    have lower : owed (raise written id bytes) d = owed written d - bytes := by
      simp only [owed]
      omega
    rw [lower]
    push_cast
    linarith

/-- The ledgers right after a grant are within the configured and the published limits. -/
def WithinLimits (config : Config) (grant : DiskGrant) : Prop :=
  (0 < config.maxReservedBytes → (grant.reservedPendingBytes : ℚ) ≤ config.maxReservedBytes) ∧
  (grant.countsTowardCache = true → ∀ cache, grant.capacity = some cache →
    cache.committedBytes + grant.cacheReservedBytes ≤ cache.maxBytes)

/-- Every reservation ever granted was within the limits. -/
def GrantsWithin (config : Config) (d : Disk) : Prop :=
  ∀ event ∈ d.log, ∀ grant, event.grant = some grant → WithinLimits config grant

theorem admitted_withinLimits {bytes : Int} {counts : Bool}
    (admitted : Admitted ctx d bytes counts) (key : String) :
    WithinLimits ctx.config (diskGrant ctx d key bytes counts) := by
  obtain ⟨_,_,bounded,cached⟩ := (evaluateGrant_iff _ _ _ _ _).mp admitted.2
  refine ⟨?_,?_⟩
  · intro positive
    simp only [diskGrant,createReservation]
    push_cast
    exact bounded positive
  · intro counting cache published
    have counting' : counts = true := counting
    have room := (cached counting' cache published).2
    simp only [diskGrant,createReservation,counting',↓reduceIte]
    omega

theorem move_grantsWithin {kind : Kind} {d' : Disk} (move : Move ctx kind d d')
    (bounded : GrantsWithin ctx.config d) : GrantsWithin ctx.config d' := by
  rcases move_log move with same | ⟨event,extended,admitted⟩
  · unfold GrantsWithin
    rw [same]
    exact bounded
  · intro other member grant reported
    rw [extended] at member
    rcases List.mem_append.mp member with old | new
    · exact bounded other old grant reported
    · rw [List.mem_singleton.mp new] at reported
      obtain ⟨key,bytes,counts,passed,rfl⟩ := admitted grant reported
      exact admitted_withinLimits passed key

structure Safe (config : Config) (v : Volume) : Prop where
  configured : v.service.config = config
  unsettled : Unsettled v.service.disk
  covered : Covered (v.free - peerReserve config - config.minFreeBytes) v.written v.reported v.service.disk
  bounded : GrantsWithin config v.service.disk

theorem step_ctx (s : Service) (op : Op) (fixed : FixedConfig op) : (step s op).ctx = s.ctx := by
  cases op with
  | configure | observe => exact fixed.elim
  | handOffToSession key id => rw [step]; split <;> rfl
  | shutdown => rw [step,Coordinator.shutdown]; split <;> rfl
  | _ => rfl

theorem does_undrawn {op : Op} (fixed : FixedConfig op) {kind : Kind} (does : Does op kind) : kind ≠ .drawn := by
  rintro rfl
  cases op with
  | consume => exact fixed
  | _ => exact does

theorem probe_reads {free : Int} (reads : probeFreeBytes ctx.world = free ∨ ctx.world.statfs = none)
    (probed : 0 ≤ probeAdmissionFreeBytes ctx) :
    (probeAdmissionFreeBytes ctx : ℚ) - ctx.config.minFreeBytes ≤
      free - peerReserve ctx.config - ctx.config.minFreeBytes := by
  unfold probeAdmissionFreeBytes at probed ⊢
  rcases reads with read | failed
  · rw [read] at probed ⊢
    simp only at probed ⊢
    split
    · next negative => omega
    · push_cast; linarith
  · have broken : probeFreeBytes ctx.world = -1 := by simp [probeFreeBytes,failed]
    rw [broken] at probed
    simp at probed

theorem call_safe {config : Config} {v : Volume} (safe : Safe config v) (world : World)
    (reads : probeFreeBytes world = v.free ∨ world.statfs = none) (op : Op) (fixed : FixedConfig op) :
    Safe config (act v (.call world op)) := by
  obtain ⟨⟨before,_,shuttingDown,disk,upstream⟩,free,written,reported⟩ := v
  obtain ⟨configured,unsettled,covered,bounded⟩ := safe
  simp only at configured reads
  subst configured
  have path := step_path ⟨before,world,shuttingDown,disk,upstream⟩ op unsettled
  have same := step_ctx ⟨before,world,shuttingDown,disk,upstream⟩ op fixed
  rw [same] at path
  refine ⟨congrArg Context.config same,path_unsettled path unsettled,?_,?_⟩
  · refine chain_invariant path ?_ covered
    intro kind d d' does move holds
    exact move_covered (probe_reads reads) kind d d' (does_undrawn fixed does) move holds
  · exact chain_invariant path (fun _ _ _ _ move => move_grantsWithin move) bounded

theorem act_safe {config : Config} (v : Volume) (label : Label) (safe : Safe config v) (allowed : Allowed v label) :
    Safe config (act v label) := by
  cases label with
  | call world op => exact call_safe safe world allowed.1 op allowed.2
  | write id bytes =>
    refine ⟨safe.configured,safe.unsettled,?_,safe.bounded⟩
    have after := covered_write safe.covered allowed.1 allowed.2
    have limit : ((v.free - bytes : Int) : ℚ) - peerReserve config - config.minFreeBytes =
        v.free - peerReserve config - config.minFreeBytes - bytes := by push_cast; ring
    simp only [act]
    rw [limit]
    exact after
  | consume id bytes =>
    have path := step_path v.service (.consume id (.whole bytes)) safe.unsettled
    refine ⟨safe.configured,path_unsettled path safe.unsettled,covered_consume safe.covered allowed,?_⟩
    have sameConfig := safe.configured
    subst sameConfig
    exact chain_invariant path (fun _ _ _ _ move => move_grantsWithin move) safe.bounded
  | freed bytes =>
    refine ⟨safe.configured,safe.unsettled,?_,safe.bounded⟩
    obtain ⟨ledger,unwritten,honest,used,fits⟩ := safe.covered
    refine ⟨ledger,unwritten,honest,used,fun holders => (fits holders).trans ?_⟩
    simp only [act]
    push_cast
    linarith

theorem start_safe (config : Config) (world : World) (evictionHook : Bool) (free : Int) :
    Safe config (start config world evictionHook free) := by
  refine ⟨rfl,by simp [Unsettled,start,Coordinator.fresh,DiskQueue.fresh],?_,?_⟩
  · refine ⟨ledger_fresh evictionHook,fun _ _ => rfl,fun _ => ⟨le_refl _,le_refl _⟩,?_,fun holders => absurd rfl holders⟩
    intro id record found
    cases found
  · intro event member
    cases member

/-- What the holders may still write fits above the floor and the peer reserve, and every grant was
within the limits. -/
theorem volume_never_overcommitted (config : Config) (world : World) (evictionHook : Bool) (free : Int) (v : Volume)
    (reach : Reachable act Allowed (start config world evictionHook free) v) :
    (v.service.disk.reservations ≠ [] →
      (owed v.written v.service.disk : ℚ) ≤ v.free - peerReserve config - config.minFreeBytes ∧
      config.minFreeBytes + peerReserve config ≤ v.free) ∧
    GrantsWithin config v.service.disk := by
  have safe := reachable_invariant (start_safe config world evictionHook free) act_safe reach
  refine ⟨fun holders => ⟨safe.covered.fits holders,?_⟩,safe.bounded⟩
  have fits := safe.covered.fits holders
  have nonneg : (0 : ℚ) ≤ owed v.written v.service.disk := by exact_mod_cast owed_nonneg safe.covered
  linarith

def oneGrant : List Label := [.call (volume 0 11) (.reserve ⟨"file:1",.whole 11,false,.absent⟩)]

theorem volume_covered_after_grant :
    (owed (oneGrant.foldl act (start defaultConfig (volume 0 11) false 11)).written
      (oneGrant.foldl act (start defaultConfig (volume 0 11) false 11)).service.disk : ℚ) ≤
        (oneGrant.foldl act (start defaultConfig (volume 0 11) false 11)).free - peerReserve defaultConfig -
          defaultConfig.minFreeBytes :=
  ((volume_never_overcommitted defaultConfig (volume 0 11) false 11 _
    (reachable_run .start oneGrant (by simp [oneGrant,Legal,Allowed,FixedConfig,probeFreeBytes,volume,start]))).1
    (by decide +kernel)).1

/-- Half a byte kept for the peers is not kept. -/
theorem half_byte_of_peer_reserve_granted :
    ∃ v, Reachable act Allowed (start { defaultConfig with volumePeerReserveBytes := 1 / 2 } (volume 0 11) false 11) v ∧
      v.service.disk.reservations ≠ [] ∧
      ¬ ((owed v.written v.service.disk : ℚ) ≤ v.free - v.service.config.volumePeerReserveBytes -
        v.service.config.minFreeBytes) := by
  refine ⟨oneGrant.foldl act (start { defaultConfig with volumePeerReserveBytes := 1 / 2 } (volume 0 11) false 11),
    reachable_run .start oneGrant (by simp [oneGrant,Legal,Allowed,FixedConfig,probeFreeBytes,volume,start]),?_,?_⟩
  · decide +kernel
  · decide +kernel

end Tgtc.DiskVolume
