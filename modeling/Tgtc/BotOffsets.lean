import Mathlib.Order.Nat
import Tgtc.Maps
import Tgtc.Runs

/-!
Where the updates of the Bots are read from. A process reads those of one Bot, or of each account of the pool in a
loop of its own, and writes down how far it has come: under one key, or under a key for each account.
-/
namespace Tgtc.BotOffsets
open Maps Runs
open List (mem_append mem_append_left mem_cons mem_filter mem_map mem_of_getElem? mem_singleton not_mem_nil)

abbrev Bot := String

abbrev Update := Bot × Nat

inductive Key where
  /-- `BOT_UPDATE_OFFSET_KEY` -/
  | global
  /-- `offsetKeyFor` -/
  | account (id : String)
deriving DecidableEq

inductive Setup where
  /-- with the Bot of `TELEGRAM_BOT_TOKEN` -/
  | single (bot : Bot)
  /-- with the Bots of the accounts, and `primaryAccountId` -/
  | pooled (pool : OrderedMap String Bot) (primary : Option String)

inductive Stage where
  | polling
  | handling (bot : Bot) (updates : List Nat)
  | persisting
  | ended
deriving DecidableEq

/-- `loop`, or the `accountLoop` of an account. -/
structure Loop where
  key : Key
  offset : Nat
  stage : Stage

structure Process where
  /-- of `TELEGRAM_BOT_TOKEN` -/
  main : Bot
  pool : OrderedMap String Bot
  primary : Option String
  waiting : List String
  loops : List Loop
  running : Bool

structure State where
  arrived : List Update
  dropped : List Update
  /-- what has been passed to `handleUpdate` -/
  handled : List Update
  offsets : OrderedMap Key Nat
  /-- `BOT_UPDATE_OFFSET_OWNER_KEY` -/
  owner : Option String
  process : Option Process

def initial : State := ⟨[],[],[],.empty,none,none⟩

structure Calls where
  own : Bool
  owner : Bool
  global : Bool
  save : Bool
  mark : Bool

def loadOffset (offsets : OrderedMap Key Nat) (ok : Bool) (key : Key) : Nat := if ok then (offsets.get key).getD 0 else 0

def persistOffset (offsets : OrderedMap Key Nat) (ok : Bool) (key : Key) (value : Nat) : OrderedMap Key Nat :=
  if ok then offsets.set key value else offsets

def loadOwnerMarker (owner : Option String) (ok : Bool) : Option String := if ok then owner else none

def persistOwnerMarker (owner : Option String) (ok : Bool) (id : String) : Option String := if ok then some id else owner

def belongsTo (owner primary : Option String) (id : String) : Bool := match owner with
  | some owner => owner = id
  | none => primary = some id

def resolveInitialOffset (s : State) (primary : Option String) (id : String) (ok : Calls) : Nat × OrderedMap Key Nat × Option String :=
  let own := loadOffset s.offsets ok.own (.account id)
  let inherited := loadOffset s.offsets ok.global .global
  if 0 < own || !belongsTo (loadOwnerMarker s.owner ok.owner) primary id || inherited ≤ own then (own,s.offsets,s.owner)
  else (inherited,persistOffset s.offsets ok.save (.account id) inherited,persistOwnerMarker s.owner ok.mark id)

/-- `onModuleInit`, up to the first loop. -/
def begin (s : State) (ok : Calls) : Setup → State
  | .single bot => { s with
      owner := persistOwnerMarker s.owner ok.mark bot
      process := some ⟨bot,.empty,none,[],[⟨.global,loadOffset s.offsets ok.global .global,.polling⟩],true⟩ }
  | .pooled pool primary => { s with process := some ⟨"",pool,primary,pool.entries.map Prod.fst,[],true⟩ }

def startLoop (s : State) (p : Process) (ok : Calls) : State := match p.waiting with
  | id :: waiting =>
    let (offset,offsets,owner) := resolveInitialOffset s p.primary id ok
    { s with offsets, owner, process := some { p with waiting, loops := p.loops ++ [⟨.account id,offset,.polling⟩] } }
  | [] => s

def Process.botOf (p : Process) : Key → Option Bot
  | .global => some p.main
  | .account id => p.pool.get id

def pending (s : State) (bot : Bot) (offset : Nat) : List Nat :=
  (s.arrived.filter fun u => u.1 = bot && offset ≤ u.2 && u ∉ s.dropped).map Prod.snd

def State.goes (s : State) (p : Process) (i : Nat) (loop : Loop) : State :=
  { s with process := some { p with loops := p.loops.set i loop } }

def getUpdates (s : State) (bot : Bot) (offset : Nat) : State :=
  { s with dropped := s.dropped ++ s.arrived.filter fun u => u.1 = bot && u.2 < offset }

def poll (s : State) (p : Process) (i : Nat) (loop : Loop) (limit : Nat) (answered : Bool) : State :=
  if !p.running then s.goes p i { loop with stage := .ended }
  else match p.botOf loop.key with
    | none => s.goes p i { loop with stage := .ended }
    | some bot =>
      let updates := (pending s bot loop.offset).take limit
      let s := getUpdates s bot loop.offset
      if answered && updates ≠ [] then s.goes p i { loop with stage := .handling bot updates } else s

/-- The next update of the answer; at the end of it, or when the service stops, the offset is written down. -/
def handle (s : State) (p : Process) (i : Nat) (loop : Loop) : State := match loop.stage with
  | .handling bot (u :: rest) =>
    if !p.running then s.goes p i { loop with stage := .persisting }
    else { s.goes p i { loop with
        offset := if loop.offset ≤ u then u + 1 else loop.offset
        stage := .handling bot rest } with handled := s.handled ++ [(bot,u)] }
  | .handling _ [] => s.goes p i { loop with stage := .persisting }
  | _ => s

def persist (s : State) (p : Process) (i : Nat) (loop : Loop) (ok : Bool) : State :=
  { s.goes p i { loop with stage := .polling } with offsets := persistOffset s.offsets ok loop.key loop.offset }

inductive Label where
  | arrive (bot : Bot) (id : Nat)
  | start (setup : Setup) (ok : Calls)
  | startLoop (ok : Calls)
  | refresh (pool : OrderedMap String Bot)
  | poll (i : Nat) (limit : Nat) (answered : Bool)
  | handle (i : Nat)
  | persist (i : Nat) (ok : Bool)
  | shutdown
  | exit

def step (s : State) : Label → State
  | .arrive bot id => { s with arrived := s.arrived ++ [(bot,id)] }
  | .start setup ok => match s.process with
    | none => begin s ok setup
    | some _ => s
  | .startLoop ok => match s.process with
    | some p => startLoop s p ok
    | none => s
  | .refresh pool => match s.process with
    | some p => { s with process := some { p with pool } }
    | none => s
  | .poll i limit answered => match s.process with
    | some p => match p.loops[i]? with
      | some loop => if loop.stage = .polling then poll s p i loop limit answered else s
      | none => s
    | none => s
  | .handle i => match s.process with
    | some p => match p.loops[i]? with
      | some loop => handle s p i loop
      | none => s
    | none => s
  | .persist i ok => match s.process with
    | some p => match p.loops[i]? with
      | some loop => if loop.stage = .persisting then persist s p i loop ok else s
      | none => s
    | none => s
  | .shutdown => match s.process with
    | some p => { s with process := some { p with running := false } }
    | none => s
  | .exit => { s with process := none }

def NoneSkipped (s : State) : Prop := ∀ u ∈ s.dropped, u ∈ s.handled

instance (s : State) : Decidable (NoneSkipped s) := inferInstanceAs (Decidable (∀ u ∈ s.dropped, u ∈ s.handled))

def Numbered (s : State) : Label → Prop
  | .arrive bot id => ∀ u ∈ s.arrived, u.1 = bot → u.2 < id
  | _ => True

/-- Each account is the Bot that it always is, and whoever may take up the offset of the main Bot is the main Bot. -/
def Named (main : Bot) (botOf : String → Bot) (pool : OrderedMap String Bot) (primary : Option String) : Prop :=
  ∀ e ∈ pool.entries, e.2 = botOf e.1 ∧ (e.1 = main ∨ primary = some e.1 → e.2 = main)

/-- `TELEGRAM_BOT_TOKEN` is always that of one Bot, and so is the token of an account. -/
def Steady (main : Bot) (botOf : String → Bot) (s : State) : Label → Prop
  | .arrive bot id => ∀ u ∈ s.arrived, u.1 = bot → u.2 < id
  | .start (.single bot) _ => bot = main
  | .start (.pooled pool primary) _ => Named main botOf pool primary
  | .refresh pool => ∀ p ∈ s.process, Named main botOf pool p.primary
  | _ => True

instance (s : State) (l : Label) : Decidable (Numbered s l) := by
  cases l <;> unfold Numbered <;> infer_instance

instance (main : Bot) (botOf : String → Bot) (pool : OrderedMap String Bot) (primary : Option String) :
    Decidable (Named main botOf pool primary) := by
  unfold Named
  infer_instance

instance (main : Bot) (botOf : String → Bot) (s : State) (l : Label) : Decidable (Steady main botOf s l) := by
  cases l with
  | arrive bot id => exact inferInstanceAs (Decidable (∀ u ∈ s.arrived, _ → _))
  | start setup ok =>
    cases setup with
    | single bot => exact inferInstanceAs (Decidable (bot = main))
    | pooled pool primary => exact inferInstanceAs (Decidable (Named main botOf pool primary))
  | refresh pool => exact inferInstanceAs (Decidable (∀ p ∈ s.process, Named main botOf pool p.primary))
  | _ => exact isTrue trivial

/-- The offset is that of the Bot: what is below it has been passed on, and what is to come is not. -/
structure Covered (arrived handled : List Update) (bot : Bot) (offset : Nat) : Prop where
  passed : ∀ u, (bot,u) ∈ arrived → u < offset → (bot,u) ∈ handled
  reached : offset = 0 ∨ ∃ u, (bot,u) ∈ arrived ∧ offset = u + 1

structure Served (arrived handled : List Update) (bot : Bot) (updates : List Nat) : Prop where
  sorted : updates.Pairwise (· < ·)
  known : ∀ x ∈ updates, (bot,x) ∈ arrived
  between : ∀ u, (bot,u) ∈ arrived → ∀ x ∈ updates, u ≤ x → (bot,u) ∈ handled ∨ u ∈ updates

def Key.bot (main : Bot) (botOf : String → Bot) : Key → Bot
  | .global => main
  | .account id => botOf id

section
variable {main : Bot} {botOf : String → Bot} {s : State} {arrived handled handled' : List Update} {bot bot' : Bot}
  {offset id i : Nat} {updates : List Nat} {p : Process} {loop : Loop} {l : Label} {key : Key}

theorem covered_zero : Covered arrived handled bot 0 := ⟨fun _ _ below => absurd below (Nat.not_lt_zero _),.inl rfl⟩

theorem covered_more (covered : Covered arrived handled bot offset) (more : ∀ u ∈ handled, u ∈ handled') : Covered arrived handled' bot offset :=
  ⟨fun u member below => more _ (covered.passed u member below),covered.reached⟩

theorem covered_arrive (covered : Covered arrived handled bot offset) (upwards : ∀ u ∈ arrived, u.1 = bot' → u.2 < id) :
    Covered (arrived ++ [(bot',id)]) handled bot offset := by
  constructor
  · intro u member below
    rcases mem_append.mp member with old | new
    · exact covered.passed u old below
    · obtain ⟨rfl,rfl⟩ := Prod.mk.inj (mem_singleton.mp new)
      rcases covered.reached with rfl | ⟨last,there,rfl⟩
      · exact absurd below (Nat.not_lt_zero _)
      · have := upwards _ there rfl
        omega
  · exact covered.reached.imp_right fun ⟨u,there,at_⟩ => ⟨u,mem_append_left _ there,at_⟩

theorem served_more (served : Served arrived handled bot updates) (more : ∀ u ∈ handled, u ∈ handled') : Served arrived handled' bot updates :=
  ⟨served.sorted,served.known,fun u member x left le => (served.between u member x left le).imp_left (more _)⟩

theorem served_arrive (served : Served arrived handled bot updates) (upwards : ∀ u ∈ arrived, u.1 = bot' → u.2 < id) :
    Served (arrived ++ [(bot',id)]) handled bot updates := by
  refine ⟨served.sorted,fun x left => mem_append_left _ (served.known x left),fun u member x left le => ?_⟩
  rcases mem_append.mp member with old | new
  · exact served.between u old x left le
  · obtain ⟨rfl,rfl⟩ := Prod.mk.inj (mem_singleton.mp new)
    have := upwards _ (served.known x left) rfl
    omega

variable {u : Nat} {primary : Option String}

theorem covered_next {rest : List Nat} (covered : Covered arrived handled bot offset) (served : Served arrived handled bot (u :: rest)) :
    Covered arrived (handled ++ [(bot,u)]) bot (if offset ≤ u then u + 1 else offset) := by
  have more : ∀ v ∈ handled, v ∈ handled ++ [(bot,u)] := fun v member => mem_append_left _ member
  split
  · next ahead =>
    refine ⟨fun v member below => ?_,.inr ⟨u,served.known u (.head _),rfl⟩⟩
    rcases served.between v member u (.head _) (by omega) with done | left
    · exact more _ done
    · rcases mem_cons.mp left with rfl | later
      · exact List.mem_append_right _ (mem_singleton.mpr rfl)
      · have := List.rel_of_pairwise_cons served.sorted later
        omega
  · exact covered_more covered more

theorem served_next {rest : List Nat} (served : Served arrived handled bot (u :: rest)) :
    Served arrived (handled ++ [(bot,u)]) bot rest := by
  refine ⟨served.sorted.of_cons,fun x left => served.known x (.tail _ left),fun v member x left le => ?_⟩
  rcases served.between v member x (.tail _ left) le with done | waits
  · exact .inl (mem_append_left _ done)
  · rcases mem_cons.mp waits with rfl | later
    · exact .inl (List.mem_append_right _ (mem_singleton.mpr rfl))
    · exact .inr later

theorem mem_pending : u ∈ pending s bot offset ↔ (bot,u) ∈ s.arrived ∧ offset ≤ u ∧ (bot,u) ∉ s.dropped := by
  simp only [pending,mem_map,mem_filter,Bool.and_eq_true,decide_eq_true_eq]
  constructor
  · rintro ⟨⟨bot',u'⟩,⟨member,⟨rfl,le⟩,left⟩,rfl⟩
    exact ⟨member,le,left⟩
  · rintro ⟨member,le,left⟩
    exact ⟨(bot,u),⟨member,⟨rfl,le⟩,left⟩,rfl⟩

theorem pending_sorted (bot : Bot) (offset : Nat) (numbered : s.arrived.Pairwise fun u v => u.1 = v.1 → u.2 < v.2) : (pending s bot offset).Pairwise (· < ·) := by
  refine List.pairwise_map.mpr ((List.Pairwise.filter _ numbered).imp_of_mem fun {u v} first second rises => ?_)
  have own : u.1 = bot := by simpa using (Bool.and_eq_true_iff.mp (Bool.and_eq_true_iff.mp (mem_filter.mp first).2).1).1
  have own' : v.1 = bot := by simpa using (Bool.and_eq_true_iff.mp (Bool.and_eq_true_iff.mp (mem_filter.mp second).2).1).1
  exact rises (own.trans own'.symm)

theorem served_answer (numbered : s.arrived.Pairwise fun u v => u.1 = v.1 → u.2 < v.2) (skipped : NoneSkipped s)
    (covered : Covered s.arrived s.handled bot offset) (limit : Nat) :
    Served s.arrived s.handled bot ((pending s bot offset).take limit) := by
  have sorted := pending_sorted bot offset numbered
  refine ⟨sorted.sublist (List.take_sublist _ _),fun x taken => (mem_pending.mp (List.mem_of_mem_take taken)).1,fun u member x taken le => ?_⟩
  by_cases below : u < offset
  · exact .inl (covered.passed u member below)
  by_cases gone : (bot,u) ∈ s.dropped
  · exact .inl (skipped _ gone)
  · have left : u ∈ pending s bot offset := mem_pending.mpr ⟨member,by omega,gone⟩
    rw [← List.take_append_drop limit (pending s bot offset)] at left sorted
    refine .inr ((mem_append.mp left).resolve_right fun later => ?_)
    have := (List.pairwise_append.mp sorted).2.2 x taken u later
    omega

structure Tracked (main : Bot) (botOf : String → Bot) (s : State) (loop : Loop) : Prop where
  covered : Covered s.arrived s.handled (loop.key.bot main botOf) loop.offset
  served : ∀ bot updates, loop.stage = .handling bot updates → bot = loop.key.bot main botOf ∧ Served s.arrived s.handled bot updates

structure Held (main : Bot) (botOf : String → Bot) (s : State) (p : Process) : Prop where
  pool : ∀ id bot, p.pool.get id = some bot → bot = botOf id
  waiting : ∀ id ∈ p.waiting, id = main ∨ p.primary = some id → botOf id = main
  global : ∀ loop ∈ p.loops, loop.key = .global → p.main = main
  tracked : ∀ loop ∈ p.loops, Tracked main botOf s loop

structure Sound (main : Bot) (botOf : String → Bot) (s : State) : Prop where
  numbered : s.arrived.Pairwise fun u v => u.1 = v.1 → u.2 < v.2
  skipped : NoneSkipped s
  stored : ∀ key offset, s.offsets.get key = some offset → Covered s.arrived s.handled (key.bot main botOf) offset
  owner : ∀ id, s.owner = some id → id = main ∨ botOf id = main
  held : ∀ p, s.process = some p → Held main botOf s p

theorem covered_load (sound : Sound main botOf s) (ok : Bool) (key : Key) :
    Covered s.arrived s.handled (key.bot main botOf) (loadOffset s.offsets ok key) := by
  unfold loadOffset
  split
  · cases found : s.offsets.get key with
    | none => exact covered_zero
    | some offset => exact sound.stored key offset found
  · exact covered_zero

theorem stored_persist (sound : Sound main botOf s) (ok : Bool) (key : Key) (covered : Covered s.arrived s.handled (key.bot main botOf) offset) :
    ∀ key' offset', (persistOffset s.offsets ok key offset).get key' = some offset' →
      Covered s.arrived s.handled (key'.bot main botOf) offset' := by
  intro key' offset' found
  unfold persistOffset at found
  split at found
  · rcases get_of_set found with ⟨rfl,rfl⟩ | ⟨_,old⟩
    · exact covered
    · exact sound.stored key' offset' old
  · exact sound.stored key' offset' found

theorem pool_named {pool : OrderedMap String Bot} (named : Named main botOf pool primary) (id : String) (bot : Bot)
    (found : pool.get id = some bot) : bot = botOf id := (named _ ((get_eq_some_iff _ _ _).mp found)).1

section
variable (sound : Sound main botOf s)
include sound

theorem sound_begin {setup : Setup} {ok : Calls} (steady : Steady main botOf s (.start setup ok)) :
    Sound main botOf (begin s ok setup) := by
  cases setup with
  | single bot =>
    cases (show bot = main from steady)
    refine ⟨sound.numbered,sound.skipped,sound.stored,fun id marked => ?_,fun p started => ?_⟩
    · replace marked : persistOwnerMarker s.owner ok.mark main = some id := marked
      unfold persistOwnerMarker at marked
      split at marked
      · cases marked
        exact .inl rfl
      · exact sound.owner id marked
    · cases started
      refine ⟨nofun,nofun,fun _ _ _ => rfl,fun loop member => ?_⟩
      rw [mem_singleton.mp member]
      exact ⟨covered_load sound ok.global .global,nofun⟩
  | pooled pool primary =>
    refine ⟨sound.numbered,sound.skipped,sound.stored,sound.owner,fun p started => ?_⟩
    cases started
    refine ⟨pool_named steady,fun id member own => ?_,nofun,
      nofun⟩
    obtain ⟨e,listed,rfl⟩ := mem_map.mp member
    exact (steady e listed).1.symm.trans ((steady e listed).2 own)

theorem mainBot_of_belongs {id : String} (own : id = main ∨ primary = some id → botOf id = main) (ok : Bool)
    (belongs : belongsTo (loadOwnerMarker s.owner ok) primary id = true) : botOf id = main := by
  unfold belongsTo at belongs
  split at belongs
  · next marker marked =>
    obtain rfl : marker = id := by simpa using belongs
    unfold loadOwnerMarker at marked
    split at marked
    · rcases sound.owner _ marked with same | known
      · exact own (.inl same)
      · exact known
    · cases marked
  · exact own (.inr (by simpa using belongs))

theorem covered_resolve {id : String} (own : id = main ∨ primary = some id → botOf id = main) (ok : Calls) :
    Covered s.arrived s.handled (botOf id) (resolveInitialOffset s primary id ok).1 ∧
    (∀ key offset, (resolveInitialOffset s primary id ok).2.1.get key = some offset →
      Covered s.arrived s.handled (key.bot main botOf) offset) ∧
    ∀ marker, (resolveInitialOffset s primary id ok).2.2 = some marker → marker = main ∨ botOf marker = main := by
  unfold resolveInitialOffset
  dsimp only
  split
  · exact ⟨covered_load sound ok.own (.account id),sound.stored,sound.owner⟩
  next inherits =>
  simp only [Bool.or_eq_true,Bool.not_eq_true',not_or,Bool.not_eq_false] at inherits
  have mainBot := mainBot_of_belongs sound own ok.owner inherits.1.2
  have covered : Covered s.arrived s.handled (botOf id) (loadOffset s.offsets ok.global .global) := by
    rw [mainBot]
    exact covered_load sound ok.global .global
  refine ⟨covered,stored_persist sound ok.save (.account id) covered,fun marker marked => ?_⟩
  unfold persistOwnerMarker at marked
  split at marked
  · cases marked
    exact .inr mainBot
  · exact sound.owner marker marked

theorem sound_startLoop (there : s.process = some p) (ok : Calls) : Sound main botOf (startLoop s p ok) := by
  have held := sound.held p there
  unfold startLoop
  split
  · next id waiting next =>
    obtain ⟨covered,stored,owner⟩ := covered_resolve sound (held.waiting id (by rw [next]; exact .head _)) ok
    refine ⟨sound.numbered,sound.skipped,stored,owner,fun p' started => ?_⟩
    cases started
    refine ⟨held.pool,fun id' member => held.waiting id' (by rw [next]; exact .tail _ member),fun loop member global => ?_,fun loop member => ?_⟩
    · rcases mem_append.mp member with old | new
      · exact held.global loop old global
      · rw [mem_singleton.mp new] at global
        cases global
    · rcases mem_append.mp member with old | new
      · exact ⟨(held.tracked loop old).covered,(held.tracked loop old).served⟩
      · rw [mem_singleton.mp new]
        exact ⟨covered,nofun⟩
  · exact sound

end

section
variable (sound : Sound main botOf s)
include sound

theorem sound_goes (there : s.process = some p) (listed : p.loops[i]? = some loop) (loop' : Loop)
    (same : loop'.key = loop.key) (tracked : Tracked main botOf s loop') : Sound main botOf (s.goes p i loop') := by
  have held := sound.held p there
  refine ⟨sound.numbered,sound.skipped,sound.stored,sound.owner,fun p' started => ?_⟩
  cases started
  refine ⟨held.pool,held.waiting,fun other member global => ?_,fun other member => ?_⟩
  · rcases List.mem_or_eq_of_mem_set member with old | rfl
    · exact held.global other old global
    · exact held.global loop (mem_of_getElem? listed) (same.symm.trans global)
  · rcases List.mem_or_eq_of_mem_set member with old | rfl
    · exact ⟨(held.tracked other old).covered,(held.tracked other old).served⟩
    · exact ⟨tracked.covered,tracked.served⟩

theorem sound_getUpdates (covered : Covered s.arrived s.handled bot offset) : Sound main botOf (getUpdates s bot offset) := by
  refine ⟨sound.numbered,fun u member => ?_,sound.stored,sound.owner,fun p started => ?_⟩
  · rcases mem_append.mp member with old | new
    · exact sound.skipped u old
    · obtain ⟨bot',n⟩ := u
      obtain ⟨there,below⟩ := mem_filter.mp new
      simp only [Bool.and_eq_true,decide_eq_true_eq] at below
      obtain ⟨rfl,below⟩ := below
      exact covered.passed n there below
  · have held := sound.held p started
    exact ⟨held.pool,held.waiting,held.global,fun loop member => ⟨(held.tracked loop member).covered,(held.tracked loop member).served⟩⟩

theorem sound_handled (handled' : List Update) (more : ∀ u ∈ s.handled, u ∈ handled') : Sound main botOf { s with handled := handled' } := by
  refine ⟨sound.numbered,fun u member => more u (sound.skipped u member),
    fun key offset found => covered_more (sound.stored key offset found) more,sound.owner,fun p started => ?_⟩
  have held := sound.held p started
  refine ⟨held.pool,held.waiting,held.global,fun loop member => ⟨covered_more (held.tracked loop member).covered more,fun bot updates handling => ?_⟩⟩
  obtain ⟨own,served⟩ := (held.tracked loop member).served bot updates handling
  exact ⟨own,served_more served more⟩

section
variable (there : s.process = some p) (listed : p.loops[i]? = some loop)
include there listed

theorem sound_poll (limit : Nat) (answered : Bool) : Sound main botOf (poll s p i loop limit answered) := by
  have held := sound.held p there
  have tracked := held.tracked loop (mem_of_getElem? listed)
  unfold poll
  split
  · exact sound_goes sound there listed _ rfl ⟨tracked.covered,nofun⟩
  split
  · exact sound_goes sound there listed _ rfl ⟨tracked.covered,nofun⟩
  next bot token =>
  have own : bot = loop.key.bot main botOf := by
    cases key : loop.key with
    | global =>
      rw [key] at token
      cases token
      exact held.global loop (mem_of_getElem? listed) key
    | account id =>
      rw [key] at token
      exact held.pool id bot token
  cases own
  dsimp only
  have asked := sound_getUpdates sound tracked.covered
  split
  · refine sound_goes asked there listed _ rfl ⟨tracked.covered,fun bot updates handling => ?_⟩
    cases handling
    exact ⟨rfl,served_answer sound.numbered sound.skipped tracked.covered limit⟩
  · exact asked

theorem sound_handle : Sound main botOf (handle s p i loop) := by
  have tracked := (sound.held p there).tracked loop (mem_of_getElem? listed)
  unfold handle
  split
  · next bot u rest handling =>
    split
    · exact sound_goes sound there listed _ rfl ⟨tracked.covered,nofun⟩
    · obtain ⟨rfl,served⟩ := tracked.served _ _ handling
      have passed := sound_handled sound (s.handled ++ [(loop.key.bot main botOf,u)]) fun v member => mem_append_left _ member
      refine sound_goes passed there listed _ rfl ⟨covered_next tracked.covered served,fun bot updates handling' => ?_⟩
      cases handling'
      exact ⟨rfl,served_next served⟩
  · exact sound_goes sound there listed _ rfl ⟨tracked.covered,nofun⟩
  · exact sound

theorem sound_persist (ok : Bool) : Sound main botOf (persist s p i loop ok) := by
  have tracked := (sound.held p there).tracked loop (mem_of_getElem? listed)
  have went := sound_goes sound there listed { loop with stage := .polling } rfl ⟨tracked.covered,nofun⟩
  exact ⟨went.numbered,went.skipped,stored_persist sound ok loop.key tracked.covered,went.owner,
    fun p' started => ⟨(went.held p' started).pool,(went.held p' started).waiting,(went.held p' started).global,
      fun other member => ⟨((went.held p' started).tracked other member).covered,((went.held p' started).tracked other member).served⟩⟩⟩

end

end

theorem sound_initial : Sound main botOf initial :=
  ⟨List.Pairwise.nil,nofun,nofun,nofun,nofun⟩

theorem sound_arrive (sound : Sound main botOf s) (upwards : ∀ u ∈ s.arrived, u.1 = bot → u.2 < id) :
    Sound main botOf { s with arrived := s.arrived ++ [(bot,id)] } := by
  refine ⟨?_,sound.skipped,fun key offset found => covered_arrive (sound.stored key offset found) upwards,sound.owner,fun p started => ?_⟩
  · refine List.pairwise_append.mpr ⟨sound.numbered,List.pairwise_singleton _ _,fun u old v new same => ?_⟩
    cases mem_singleton.mp new
    exact upwards u old same
  · have held := sound.held p started
    refine ⟨held.pool,held.waiting,held.global,fun loop member => ⟨covered_arrive (held.tracked loop member).covered upwards,fun bot' updates handling => ?_⟩⟩
    obtain ⟨own,served⟩ := (held.tracked loop member).served bot' updates handling
    exact ⟨own,served_arrive served upwards⟩

theorem sound_step (sound : Sound main botOf s) (steady : Steady main botOf s l) : Sound main botOf (step s l) := by
  unfold step
  cases l with
  | arrive bot id => exact sound_arrive sound steady
  | start setup ok =>
    dsimp only
    split
    · exact sound_begin sound steady
    · exact sound
  | startLoop ok =>
    dsimp only
    split
    · next p there => exact sound_startLoop sound there ok
    · exact sound
  | refresh pool =>
    dsimp only
    split
    · next p there =>
      have held := sound.held p there
      refine ⟨sound.numbered,sound.skipped,sound.stored,sound.owner,fun p' started => ?_⟩
      cases started
      exact ⟨pool_named (steady p there),held.waiting,held.global,
        fun loop member => ⟨(held.tracked loop member).covered,(held.tracked loop member).served⟩⟩
    · exact sound
  | poll i limit answered =>
    dsimp only
    split
    · next p there =>
      split
      · next loop listed =>
        split
        · exact sound_poll sound there listed limit answered
        · exact sound
      · exact sound
    · exact sound
  | handle i =>
    dsimp only
    split
    · next p there =>
      split
      · next loop listed => exact sound_handle sound there listed
      · exact sound
    · exact sound
  | persist i ok =>
    dsimp only
    split
    · next p there =>
      split
      · next loop listed =>
        split
        · exact sound_persist sound there listed ok
        · exact sound
      · exact sound
    · exact sound
  | shutdown =>
    dsimp only
    split
    · next p there =>
      have held := sound.held p there
      refine ⟨sound.numbered,sound.skipped,sound.stored,sound.owner,fun p' started => ?_⟩
      cases started
      exact ⟨held.pool,held.waiting,held.global,fun loop member => ⟨(held.tracked loop member).covered,(held.tracked loop member).served⟩⟩
    · exact sound
  | exit => exact ⟨sound.numbered,sound.skipped,sound.stored,sound.owner,nofun⟩

/-- As long as every token is always that of one Bot, no update is dropped before it has been passed on. -/
theorem none_skipped (main : Bot) (botOf : String → Bot) (reach : Reachable step (Steady main botOf) initial s) : NoneSkipped s :=
  (reachable_invariant sound_initial (fun _ _ sound steady => sound_step sound steady) reach).skipped

end

def fine : Calls := ⟨true,true,true,true,true⟩

def read (bot : Bot) (id : Nat) : List Label :=
  [.arrive bot id,.poll 0 100 true,.handle 0,.handle 0,.persist 0 true,.poll 0 100 true]

def toPool : List Label :=
  Label.start (.single "100") fine :: read "100" 7 ++ [Label.exit,.start (.pooled (OrderedMap.empty.set "100" "100") (some "100")) fine,.startLoop fine] ++
    read "100" 8

theorem none_skipped_toPool : NoneSkipped (toPool.foldl step initial) :=
  none_skipped "100" id (reachable_run .start toPool (by decide +kernel))

def otherToken : List Label :=
  Label.start (.single "100") fine :: read "100" 7 ++ [Label.exit,.arrive "200" 3,.start (.single "200") fine,.poll 0 100 true]

theorem skipped_otherToken : ¬ ∀ s, Reachable step Numbered initial s → NoneSkipped s := by
  intro always
  have legal : Legal step Numbered initial otherToken := by decide +kernel
  exact absurd (always _ (reachable_run .start _ legal)) (by decide +kernel)

end Tgtc.BotOffsets
