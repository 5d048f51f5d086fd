import Tgtc.Maps
import Tgtc.Runs

/-!
The configuration as one process reads and writes it. What has been read is kept for a while, reads of one key that
meet share one look-up, and a write puts its value where the reads find it.
-/
namespace Tgtc.ConfigCache
open Runs Maps

section
universe u
variable {Value : Type u}

def setAll (m : OrderedMap String Value) : List (String × Value) → OrderedMap String Value
  | [] => m
  | (key,value) :: rest => setAll (m.set key value) rest

def valueAt (key : String) : List (String × Value) → Option Value
  | [] => none
  | (other,value) :: rest => (valueAt key rest).orElse fun _ => if other = key then some value else none

theorem get_setAll (m : OrderedMap String Value) (entries : List (String × Value)) (key : String) :
    (setAll m entries).get key = (valueAt key entries).orElse fun _ => m.get key := by
  induction entries generalizing m with
  | nil => rfl
  | cons e rest ih =>
    obtain ⟨other,value⟩ := e
    rw [setAll,valueAt,ih]
    cases valueAt key rest with
    | some later => rfl
    | none =>
      by_cases here : other = key
      · subst here
        simp [get_set_same]
      · simp [here,get_set_other m value (Ne.symm here)]

theorem valueAt_map {Other : Type u} (f : Value → Other) (entries : List (String × Value)) (key : String) :
    valueAt key (entries.map fun e => (e.1,f e.2)) = (valueAt key entries).map f := by
  induction entries with
  | nil => rfl
  | cons e rest ih =>
    obtain ⟨other,value⟩ := e
    rw [List.map_cons,valueAt,valueAt,ih]
    cases valueAt key rest with
    | some later => rfl
    | none => by_cases here : other = key <;> simp [here]

end

structure CacheEntry where
  value : String
  expiresAt : Nat

inductive ReadStage where
  | asking
  | found (value : Option String)
  | resolved (value : Option String)
  | failed
deriving DecidableEq

structure Read where
  key : String
  defaultValue : String
  stage : ReadStage
  overtaken : Bool

inductive Source where
  | cached (value : String)
  | shared (read : Nat)
deriving DecidableEq

/-- A call of `get`. -/
structure Get where
  key : String
  defaultValue : String
  source : Source
  /-- what the last write of the key has written, when it had returned before the call began and no other has begun since -/
  expected : Option String

inductive WriteStage where
  | upserting | caching | returned | failed
deriving DecidableEq

/-- A call of `set`, or of `setBatch`. -/
structure Write where
  configs : List (String × String)
  stage : WriteStage

structure State where
  database : OrderedMap String String
  cache : OrderedMap String CacheEntry
  pendingGets : OrderedMap String Nat
  reads : List Read
  gets : List Get
  writes : List Write
  lastBegun : OrderedMap String Nat
  now : Nat

def State.start (database : OrderedMap String String) : State := ⟨database,.empty,.empty,[],[],[],.empty,0⟩

def State.lastReturned (s : State) (key : String) : Option String :=
  ((s.lastBegun.get key).bind fun i => s.writes[i]?).bind fun w => if w.stage = .returned then valueAt key w.configs else none

def State.answer (s : State) (g : Get) : Option String := match g.source with
  | .cached value => some value
  | .shared r => s.reads[r]?.bind fun read => match read.stage with
    | .resolved value => some (value.getD read.defaultValue)
    | _ => none

def State.hit (s : State) (key : String) : Option CacheEntry := (s.cache.get key).filter fun e => s.now < e.expiresAt

/-! ### Steps -/

def State.get (s : State) (key defaultValue : String) : State := match s.hit key with
  | some e => { s with gets := s.gets ++ [⟨key,defaultValue,.cached e.value,s.lastReturned key⟩] }
  | none => match s.pendingGets.get key with
    | some r => { s with gets := s.gets ++ [⟨key,defaultValue,.shared r,s.lastReturned key⟩] }
    | none => { s with
        reads := s.reads ++ [⟨key,defaultValue,.asking,false⟩], pendingGets := s.pendingGets.set key s.reads.length
        gets := s.gets ++ [⟨key,defaultValue,.shared s.reads.length,s.lastReturned key⟩] }

def State.begin (s : State) (configs : List (String × String)) : State := { s with
  writes := s.writes ++ [⟨configs,.upserting⟩], lastBegun := setAll s.lastBegun (configs.map fun e => (e.1,s.writes.length))
  gets := s.gets.map fun g => if (valueAt g.key configs).isSome && (s.answer g).isNone then { g with expected := none } else g }

inductive Label where
  | tick (ms : Nat)
  | get (key defaultValue : String)
  | set (configs : List (String × String))
  /-- the look-up is carried out, its promise is resolved, and it is not pending any more -/
  | read (r : Nat)
  | resolve (r : Nat)
  | settle (r : Nat)
  | failRead (r : Nat)
  | upsert (i : Nat)
  | put (i : Nat)
  | failWrite (i : Nat)
  | invalidate (keys : List String)

def State.setRead (s : State) (r : Nat) (read : Read) (stage : ReadStage) : State :=
  { s with reads := s.reads.set r { read with stage } }

def State.setWrite (s : State) (i : Nat) (w : Write) (stage : WriteStage) : State :=
  { s with writes := s.writes.set i { w with stage } }

/-- `CACHE_TTL` is configured. -/
def step (CACHE_TTL : Nat) (s : State) : Label → State
  | .tick ms => { s with now := s.now + ms }
  | .get key defaultValue => s.get key defaultValue
  | .set configs => s.begin configs
  | .read r => match s.reads[r]? with
    | some read => if read.stage = .asking then s.setRead r read (.found (s.database.get read.key)) else s
    | none => s
  | .resolve r => match s.reads[r]? with
    | some read => match read.stage with
      | .found (some value) => { s.setRead r read (.resolved (some value)) with
          cache := s.cache.set read.key ⟨value,s.now + CACHE_TTL⟩ }
      | .found none => s.setRead r read (.resolved none)
      | _ => s
    | none => s
  | .settle r => match s.reads[r]? with
    | some read => match read.stage with
      -- once, by the call that has begun the look-up
      | .resolved _ | .failed => if s.pendingGets.get read.key = some r then { s with pendingGets := s.pendingGets.delete read.key } else s
      | _ => s
    | none => s
  | .failRead r => match s.reads[r]? with
    | some read => if read.stage = .asking then s.setRead r read .failed else s
    | none => s
  | .upsert i => match s.writes[i]? with
    | some w => if w.stage = .upserting then { s.setWrite i w .caching with database := setAll s.database w.configs } else s
    | none => s
  | .put i => match s.writes[i]? with
    | some w => if w.stage = .caching then { s.setWrite i w .returned with
        cache := setAll s.cache (w.configs.map fun e => (e.1,⟨e.2,s.now + CACHE_TTL⟩))
        reads := s.reads.map fun read => if (valueAt read.key w.configs).isSome && read.stage ≠ .asking then { read with overtaken := true } else read }
      else s
    | none => s
  | .failWrite i => match s.writes[i]? with
    | some w => if w.stage = .upserting then s.setWrite i w .failed else s
    | none => s
  | .invalidate keys => { s with cache := s.cache.filter fun e => !keys.contains e.1 }

def meets (v w : Write) : Bool := v.configs.any fun e => (valueAt e.1 w.configs).isSome

/-- No look-up that a write has overtaken fills the cache, who shares a look-up has one default, and
writes of a key are carried out and cached in their order. -/
def Orderly (s : State) : Label → Prop
  | .get key defaultValue => (s.hit key).isSome ∨ ∀ r ∈ s.pendingGets.get key, ∀ read ∈ s.reads[r]?,
      read.overtaken = false ∧ (read.stage = .resolved none → defaultValue = read.defaultValue)
  | .resolve r => ∀ read ∈ s.reads[r]?, match read.stage with
    | .found (some _) => read.overtaken = false
    | .found none => ∀ g ∈ s.gets, g.source = .shared r → g.defaultValue = read.defaultValue
    | _ => True
  | .upsert i => ∀ w ∈ s.writes[i]?, ∀ v ∈ s.writes.drop (i + 1), meets w v = true → v.stage = .upserting ∨ v.stage = .failed
  | .put i => ∀ w ∈ s.writes[i]?, ∀ v ∈ s.writes.drop (i + 1), meets w v = true → v.stage ≠ .returned
  | _ => True

instance (s : State) (l : Label) : Decidable (Orderly s l) := by
  cases l with
  | get key defaultValue => exact inferInstanceAs (Decidable (_ ∨ ∀ r ∈ s.pendingGets.get key, ∀ read ∈ s.reads[r]?, _ ∧ _))
  | resolve r =>
    refine @Option.decidableForallMem _ _ (fun read => ?_) _
    obtain ⟨_,_,stage,_⟩ := read
    match stage with
    | .found (some _) => dsimp only; infer_instance
    | .found none => dsimp only; infer_instance
    | .asking | .resolved _ | .failed => exact isTrue trivial
  | upsert i | put i => exact inferInstanceAs (Decidable (∀ w ∈ s.writes[i]?, ∀ v ∈ s.writes.drop (i + 1), _ → _))
  | _ => exact isTrue trivial

/-- The caller gets its own default when nothing has been found. -/
def State.Own (s : State) (g : Get) : Prop := match g.source with
  | .cached _ => True
  | .shared r => ∀ read ∈ s.reads[r]?, read.stage = .resolved none → s.answer g = some g.defaultValue

/-- Who reads after a write has returned gets what it has written, and who finds nothing gets what it has asked for. -/
def Seen (s : State) : Prop := ∀ g ∈ s.gets, (∀ value ∈ g.expected, ∀ answer ∈ s.answer g, answer = value) ∧ s.Own g

instance (s : State) (g : Get) : Decidable (s.Own g) := by
  obtain ⟨_,_,source,_⟩ := g
  cases source with
  | cached _ => exact isTrue trivial
  | shared r => exact inferInstanceAs (Decidable (∀ read ∈ s.reads[r]?, _ → _))

instance (s : State) : Decidable (Seen s) := inferInstanceAs (Decidable (∀ g ∈ s.gets, _ ∧ _))

section
variable {s s' : State} {key : String} {value : String} {r i : Nat} {read : Read} {w : Write} {configs : List (String × String)} {CACHE_TTL : Nat}

def Settled (s : State) (key value : String) : Prop := ∃ i w, s.lastBegun.get key = some i ∧ s.writes[i]? = some w ∧
  valueAt key w.configs = some value ∧ w.stage = .returned

theorem settled_of_lastReturned (returned : s.lastReturned key = some value) : Settled s key value := by
  obtain ⟨w,there,written⟩ := Option.bind_eq_some_iff.mp returned
  obtain ⟨i,last,there⟩ := Option.bind_eq_some_iff.mp there
  split at written
  · next stage => exact ⟨i,w,last,there,written,stage⟩
  · cases written

def Bears (s : State) (key value : String) : ReadStage → Prop
  | .asking => Settled s key value
  | .found found | .resolved found => found = some value
  | .failed => True

def Told (s : State) (g : Get) : Prop := match g.source with
  | .cached found => ∀ value ∈ g.expected, found = value
  | .shared r => ∃ read, s.reads[r]? = some read ∧ read.key = g.key ∧ (∀ value ∈ g.expected, Bears s g.key value read.stage) ∧
    (read.stage = .resolved none → g.defaultValue = read.defaultValue)

structure Inv (s : State) : Prop where
  listed : ∀ key i, s.lastBegun.get key = some i → ∃ w, s.writes[i]? = some w ∧ (valueAt key w.configs).isSome
  last : ∀ (j : Nat) (w : Write) (key : String), s.writes[j]? = some w → (valueAt key w.configs).isSome →
    ∃ i, s.lastBegun.get key = some i ∧ j ≤ i
  stored : ∀ (key : String) (i : Nat) (w : Write), s.lastBegun.get key = some i → s.writes[i]? = some w →
    w.stage = .caching ∨ w.stage = .returned → s.database.get key = valueAt key w.configs
  cached : ∀ key value, Settled s key value → ∀ e ∈ s.cache.get key, e.value = value
  pending : ∀ key r, s.pendingGets.get key = some r → ∃ read, s.reads[r]? = some read ∧ read.key = key
  live : ∀ (r : Nat) (read : Read), s.reads[r]? = some read → (∀ found, read.stage ≠ .resolved found) → read.stage ≠ .failed →
    s.pendingGets.get read.key = some r
  current : ∀ key value, Settled s key value → ∀ r, s.pendingGets.get key = some r → ∀ (read : Read), s.reads[r]? = some read →
    read.overtaken = false → Bears s key value read.stage
  told : ∀ g ∈ s.gets, Told s g

theorem inv_start (database : OrderedMap String String) : Inv (.start database) where
  listed _ _ found := nomatch found
  last _ _ _ there := nomatch there
  stored _ _ _ found := nomatch found
  cached _ _ _ _ there := nomatch there
  pending _ _ found := nomatch found
  live _ _ there := nomatch there
  current _ _ _ _ found := nomatch found
  told _ member := nomatch member

theorem seen_of_inv (inv : Inv s) : Seen s := by
  intro g member
  have told := inv.told g member
  unfold Told at told
  unfold State.Own State.answer
  cases source : g.source with
  | cached found =>
    rw [source] at told
    exact ⟨fun value expected answer answered => (Option.some.inj answered) ▸ told value expected,trivial⟩
  | shared r =>
    rw [source] at told
    obtain ⟨read,there,_,bears,own⟩ := told
    simp only [there]
    refine ⟨fun value expected answer answered => ?_,?_⟩
    · have bears := bears value expected
      cases stage : read.stage with
      | resolved found =>
        rw [stage] at bears
        have bears : found = some value := bears
        simpa [stage,bears] using answered.symm
      | _ => simp [stage] at answered
    · rintro read' ⟨⟩ missing
      simp [missing,own missing]

theorem told_mono {g : Get} (same : ∀ (r : Nat) (read : Read), s.reads[r]? = some read → ∃ read', s'.reads[r]? = some read' ∧
    read'.key = read.key ∧ read'.defaultValue = read.defaultValue ∧ read'.stage = read.stage)
    (settled : ∀ value ∈ g.expected, Settled s g.key value → Settled s' g.key value) (told : Told s g) : Told s' g := by
  unfold Told at told ⊢
  split
  · next source => rw [source] at told; exact told
  next r source =>
  rw [source] at told
  obtain ⟨read,there,key,bears,own⟩ := told
  obtain ⟨read',there',key',default_,stage⟩ := same r read there
  refine ⟨read',there',key'.trans key,fun value expected => ?_,by rw [stage,default_]; exact own⟩
  have bears := bears value expected
  rw [stage]
  cases here : read.stage with
  | asking => rw [here] at bears; exact settled value expected bears
  | found found | resolved found => rw [here] at bears; exact bears
  | failed => trivial

theorem reads_same (s : State) : ∀ (r : Nat) (read : Read), s.reads[r]? = some read → ∃ read', s.reads[r]? = some read' ∧
    read'.key = read.key ∧ read'.defaultValue = read.defaultValue ∧ read'.stage = read.stage :=
  fun _ read there => ⟨read,there,rfl,rfl,rfl⟩

theorem inv_get {defaultValue : String} (inv : Inv s) (orderly : Orderly s (.get key defaultValue)) : Inv (s.get key defaultValue) := by
  have expects : ∀ value ∈ s.lastReturned key, Settled s key value := fun value found => settled_of_lastReturned found
  unfold State.get
  cases hit : s.hit key with
  | some e =>
    refine ⟨inv.listed,inv.last,inv.stored,inv.cached,inv.pending,inv.live,inv.current,fun g member => ?_⟩
    rcases List.mem_append.mp member with old | new
    · exact inv.told g old
    · rw [List.mem_singleton.mp new]
      exact fun value expected => inv.cached key value (expects value expected) e (Option.filter_eq_some_iff.mp hit).1
  | none =>
    cases pending : s.pendingGets.get key with
    | some r =>
      refine ⟨inv.listed,inv.last,inv.stored,inv.cached,inv.pending,inv.live,inv.current,fun g member => ?_⟩
      rcases List.mem_append.mp member with old | new
      · exact inv.told g old
      · rw [List.mem_singleton.mp new]
        obtain ⟨read,there,same⟩ := inv.pending key r pending
        obtain ⟨recent,own⟩ := orderly.resolve_left (by simp [hit]) r pending read there
        exact ⟨read,there,same,fun value expected => inv.current key value (expects value expected) r pending read there recent,own⟩
    | none =>
      have known : ∀ (r : Nat) (read : Read), s.reads[r]? = some read → (s.reads ++ [⟨key,defaultValue,.asking,false⟩])[r]? = some read :=
        fun r read there => by rw [List.getElem?_append_left (at_lt there)]; exact there
      have new : (s.reads ++ [⟨key,defaultValue,.asking,false⟩])[s.reads.length]? = some (⟨key,defaultValue,.asking,false⟩ : Read) := by simp
      refine ⟨inv.listed,inv.last,inv.stored,inv.cached,fun key' r found => ?_,fun r read there open_ fails => ?_,
        fun key' value settled r found read there recent => ?_,fun g member => ?_⟩
      · rcases get_of_set found with ⟨rfl,rfl⟩ | ⟨_,old⟩
        · exact ⟨_,new,rfl⟩
        · obtain ⟨read,there,same⟩ := inv.pending key' r old
          exact ⟨read,known r read there,same⟩
      · rcases at_of_append there with old | ⟨rfl,rfl⟩
        · have before := inv.live r read old open_ fails
          have other : read.key ≠ key := fun same => by rw [same,pending] at before; cases before
          exact (get_set_other _ _ other).trans before
        · exact get_set_same _ _ _
      · rcases get_of_set found with ⟨rfl,rfl⟩ | ⟨_,old⟩
        · rw [new] at there
          cases there
          exact settled
        · obtain ⟨read',there',_⟩ := inv.pending key' r old
          have same := known r read' there'
          rw [there] at same
          cases same
          exact inv.current key' value settled r old read there' recent
      · rcases List.mem_append.mp member with old | new'
        · exact told_mono (s := s) (fun r read there => ⟨read,known r read there,rfl,rfl,rfl⟩) (fun _ _ => id) (inv.told g old)
        · rw [List.mem_singleton.mp new']
          exact ⟨_,new,rfl,expects,nofun⟩

theorem lastBegun_begin (key : String) : (s.begin configs).lastBegun.get key =
    if (valueAt key configs).isSome then some s.writes.length else s.lastBegun.get key := by
  unfold State.begin
  rw [get_setAll,valueAt_map (fun _ => s.writes.length)]
  cases valueAt key configs <;> simp

theorem settled_begin (settled : Settled (s.begin configs) key value) : valueAt key configs = none ∧ Settled s key value := by
  obtain ⟨i,w,last,there,written,returned⟩ := settled
  rw [lastBegun_begin] at last
  rcases at_of_append there with old | ⟨_,rfl⟩
  · split at last
    · cases last
      exact absurd (at_lt old) (Nat.lt_irrefl _)
    · next untouched => exact ⟨by simpa using untouched,i,w,last,old,written,returned⟩
  · cases returned

theorem inv_begin (inv : Inv s) : Inv (s.begin configs) := by
  have old : ∀ {i : Nat} {w : Write}, s.writes[i]? = some w → (s.writes ++ [⟨configs,.upserting⟩])[i]? = some w := fun there => by
    rw [List.getElem?_append_left (at_lt there)]
    exact there
  refine ⟨fun key i last => ?_,fun j w key there has => ?_,fun key i w last there done => ?_,
    fun key value settled => inv.cached key value (settled_begin settled).2,inv.pending,inv.live,fun key value settled r pending read there recent => ?_,
    fun g member => ?_⟩
  · rw [lastBegun_begin] at last
    split at last
    · next touched =>
      cases last
      exact ⟨⟨configs,.upserting⟩,by simp [State.begin],touched⟩
    · obtain ⟨w,there,has⟩ := inv.listed key i last
      exact ⟨w,old there,has⟩
  · rw [lastBegun_begin]
    rcases at_of_append there with before | ⟨rfl,rfl⟩
    · split
      · exact ⟨_,rfl,Nat.le_of_lt (at_lt before)⟩
      · exact inv.last j w key before has
    · exact ⟨_,if_pos has,Nat.le_refl _⟩
  · rw [lastBegun_begin] at last
    rcases at_of_append there with before | ⟨_,rfl⟩
    · split at last
      · cases last
        exact absurd (at_lt before) (Nat.lt_irrefl _)
      · exact inv.stored key i w last before done
    · simp at done
  · have bears := inv.current key value (settled_begin settled).2 r pending read there recent
    cases stage : read.stage with
    | asking => exact settled
    | found found | resolved found => rw [stage] at bears; exact bears
    | failed => trivial
  · obtain ⟨g',member',rfl⟩ := List.mem_map.mp member
    have told := inv.told g' member'
    split
    · -- it waits for the key, and nothing is expected of it any more
      unfold Told at told ⊢
      split
      · intros; contradiction
      · next r source =>
        rw [source] at told
        obtain ⟨read,there,same,_,own⟩ := told
        exact ⟨read,there,same,(by intros; contradiction),own⟩
    · next untouched =>
      simp only [Bool.and_eq_true,not_and] at untouched
      unfold Told at told ⊢
      split
      · next found source => rw [source] at told; exact told
      next r source =>
      rw [source] at told
      obtain ⟨read,there,same,bears,own⟩ := told
      refine ⟨read,there,same,fun value expected => ?_,own⟩
      have bears := bears value expected
      cases stage : read.stage with
      | asking =>
        rw [stage] at bears
        obtain ⟨i,w,last,there',rest⟩ := bears
        have free : valueAt g'.key configs = none := by
          by_contra touched
          have answered := untouched (Option.isSome_iff_ne_none.mpr touched)
          simp [State.answer,source,there,stage] at answered
        exact ⟨i,w,by rw [lastBegun_begin,free]; exact last,old there',rest⟩
      | found found | resolved found => rw [stage] at bears; exact bears
      | failed => trivial

/-! ### Look-ups -/

theorem inv_setRead {stage : ReadStage} (inv : Inv s) (there : s.reads[r]? = some read)
    (live : (∀ found, stage ≠ .resolved found) → stage ≠ .failed → s.pendingGets.get read.key = some r)
    (bears : ∀ value, Bears s read.key value read.stage → Bears s read.key value stage)
    (own : ∀ g ∈ s.gets, g.source = .shared r → stage = .resolved none → g.defaultValue = read.defaultValue) :
    Inv (s.setRead r read stage) := by
  refine ⟨inv.listed,inv.last,inv.stored,inv.cached,fun key r' found => ?_,fun r' read' there' open_ fails => ?_,
    fun key value settled r' found read' there' recent => ?_,fun g member => ?_⟩
  · obtain ⟨read',there',same⟩ := inv.pending key r' found
    by_cases here : r' = r
    · subst here
      cases there.symm.trans there'
      exact ⟨_,at_set there,same⟩
    · exact ⟨read',by rw [State.setRead,List.getElem?_set_ne (Ne.symm here)]; exact there',same⟩
  · rcases at_of_set there' with ⟨rfl,rfl⟩ | ⟨_,old⟩
    · exact live open_ fails
    · exact inv.live r' read' old open_ fails
  · rcases at_of_set there' with ⟨rfl,rfl⟩ | ⟨_,old⟩
    · obtain ⟨_,there'',same⟩ := inv.pending key r' found
      cases there.symm.trans there''
      subst same
      exact bears value (inv.current _ value settled r' found read there recent)
    · exact inv.current key value settled r' found read' old recent
  · have told := inv.told g member
    unfold Told at told ⊢
    split
    · next source => rw [source] at told; exact told
    next r' source =>
    rw [source] at told
    obtain ⟨read',there',same,bears',own'⟩ := told
    by_cases here : r' = r
    · subst here
      cases there.symm.trans there'
      exact ⟨_,at_set there,same,fun value expected => same ▸ bears value (same.symm ▸ bears' value expected),own g member source⟩
    · exact ⟨read',by rw [State.setRead,List.getElem?_set_ne (Ne.symm here)]; exact there',same,bears',own'⟩

theorem stored_settled (inv : Inv s) (settled : Settled s key value) : s.database.get key = some value := by
  obtain ⟨i,w,last,there,written,returned⟩ := settled
  rw [inv.stored key i w last there (.inr returned),written]

theorem inv_read (inv : Inv s) : Inv (step CACHE_TTL s (.read r)) := by
  unfold step
  dsimp only
  split
  · next read there =>
    split
    · next asking =>
      refine inv_setRead inv there (fun _ _ => inv.live r read there (by simp [asking]) (by simp [asking])) (fun value bears => ?_) (by intros; contradiction)
      rw [asking] at bears
      exact stored_settled inv bears
    · exact inv
  · exact inv

theorem inv_resolve (inv : Inv s) (orderly : Orderly s (.resolve r)) : Inv (step CACHE_TTL s (.resolve r)) := by
  unfold step
  dsimp only
  split
  · next read there =>
    have orderly := orderly read there
    split
    · next found stage =>
      rw [stage] at orderly
      have after : Inv (s.setRead r read (.resolved (some found))) :=
        inv_setRead inv there (fun open_ _ => absurd rfl (open_ _)) (fun value bears => by rw [stage] at bears; exact bears) nofun
      refine ⟨after.listed,after.last,after.stored,fun key value settled e cached => ?_,after.pending,after.live,after.current,after.told⟩
      rcases get_of_set cached with ⟨rfl,rfl⟩ | ⟨_,old⟩
      · have pending := inv.live r read there (by simp [stage]) (by simp [stage])
        have bears := inv.current read.key value settled r pending read there orderly
        rw [stage] at bears
        exact Option.some.inj bears
      · exact inv.cached key value settled e old
    · next stage =>
      rw [stage] at orderly
      exact inv_setRead inv there (fun open_ _ => absurd rfl (open_ _)) (fun value bears => by rw [stage] at bears; exact bears) fun g member source _ => orderly g member source
    · exact inv
  · exact inv

theorem inv_settle (inv : Inv s) : Inv (step CACHE_TTL s (.settle r)) := by
  have gone : ∀ read, s.reads[r]? = some read → (∀ r' read', s.reads[r']? = some read' → (∀ found, read'.stage ≠ .resolved found) →
      read'.stage ≠ .failed → r' ≠ r) → s.pendingGets.get read.key = some r → Inv { s with pendingGets := s.pendingGets.delete read.key } := by
    intro read there apart pending
    refine ⟨inv.listed,inv.last,inv.stored,inv.cached,fun key r' found => inv.pending key r' (get_of_delete found).2,fun r' read' there' open_ fails => ?_,
      fun key value settled r' found => inv.current key value settled r' (get_of_delete found).2,inv.told⟩
    have before := inv.live r' read' there' open_ fails
    have other : read'.key ≠ read.key := fun same => by
      rw [same,pending] at before
      exact apart r' read' there' open_ fails (Option.some.inj before).symm
    exact (get_delete_other _ other).trans before
  unfold step
  dsimp only
  split
  · next read there =>
    split
    · next found stage =>
      split
      · next pending =>
        refine gone read there (fun r' read' there' open_ _ same => ?_) pending
        subst same
        cases there.symm.trans there'
        exact open_ found stage
      · exact inv
    · next stage =>
      split
      · next pending =>
        refine gone read there (fun r' read' there' _ fails same => ?_) pending
        subst same
        cases there.symm.trans there'
        exact fails stage
      · exact inv
    · exact inv
  · exact inv

theorem inv_failRead (inv : Inv s) : Inv (step CACHE_TTL s (.failRead r)) := by
  unfold step
  dsimp only
  split
  · next read there =>
    split
    · exact inv_setRead inv there (fun _ fails => absurd rfl fails) (fun _ _ => trivial) nofun
    · exact inv
  · exact inv

/-! ### Writes -/

theorem settled_setWrite {stage : WriteStage} (there : s.writes[i]? = some w) (open_ : w.stage ≠ .returned) (goes : stage ≠ .returned) :
    Settled (s.setWrite i w stage) key value ↔ Settled s key value := by
  constructor
  · rintro ⟨j,v,last,found,written,returned⟩
    rcases at_of_set found with ⟨_,rfl⟩ | ⟨_,old⟩
    · exact absurd returned goes
    · exact ⟨j,v,last,old,written,returned⟩
  · rintro ⟨j,v,last,found,written,returned⟩
    have other : i ≠ j := by
      rintro rfl
      cases there.symm.trans found
      exact open_ returned
    exact ⟨j,v,last,by rw [State.setWrite,List.getElem?_set_ne other]; exact found,written,returned⟩

theorem bears_settled {stage : ReadStage} (settled : ∀ value, Settled s key value → Settled s' key value) (bears : Bears s key value stage) :
    Bears s' key value stage := by
  cases stage with
  | asking => exact settled value bears
  | found _ | resolved _ => exact bears
  | failed => trivial

section
variable (inv : Inv s) (there : s.writes[i]? = some w)
include inv there

theorem last_meets {last : Nat} (lastBegun : s.lastBegun.get key = some last)
    (has : (valueAt key w.configs).isSome) : i = last ∨ ∃ v ∈ s.writes.drop (i + 1), meets w v = true ∧ s.writes[last]? = some v := by
  obtain ⟨last',found,le⟩ := inv.last i w key there has
  cases lastBegun.symm.trans found
  obtain ⟨v,there',has'⟩ := inv.listed key last lastBegun
  by_cases same : i = last
  · exact .inl same
  refine .inr ⟨v,List.mem_of_getElem? (i := last - (i + 1)) ?_,?_,there'⟩
  · rw [List.getElem?_drop,show i + 1 + (last - (i + 1)) = last by omega]
    exact there'
  · have member : ∀ configs : List (String × String), (valueAt key configs).isSome → ∃ e ∈ configs, e.1 = key := by
      intro configs has
      induction configs with
      | nil => cases has
      | cons e rest ih =>
        by_cases here : e.1 = key
        · exact ⟨e,List.mem_cons_self,here⟩
        · obtain ⟨e',member,same⟩ := ih (by simpa [valueAt,here] using has)
          exact ⟨e',List.mem_cons_of_mem _ member,same⟩
    obtain ⟨e,listed,rfl⟩ := member w.configs has
    exact List.any_eq_true.mpr ⟨e,listed,has'⟩

theorem listed_set {j : Nat} {w' : Write} (same : w'.configs = w.configs)
    (last : s.lastBegun.get key = some j) : ∃ v, (s.writes.set i w')[j]? = some v ∧ (valueAt key v.configs).isSome := by
  obtain ⟨v,found,has⟩ := inv.listed key j last
  by_cases here : j = i
  · subst here
    cases there.symm.trans found
    exact ⟨w',at_set there,same ▸ has⟩
  · exact ⟨v,by rw [List.getElem?_set_ne (Ne.symm here)]; exact found,has⟩

theorem last_set {j : Nat} {v w' : Write} (found : (s.writes.set i w')[j]? = some v) (same : w'.configs = w.configs) (has : (valueAt key v.configs).isSome) : ∃ k, s.lastBegun.get key = some k ∧ j ≤ k := by
  rcases at_of_set found with ⟨rfl,rfl⟩ | ⟨_,old⟩
  · exact inv.last j w key there (same ▸ has)
  · exact inv.last j v key old has

theorem inv_setWrite {stage : WriteStage} {database : OrderedMap String String} (open_ : w.stage ≠ .returned) (goes : stage ≠ .returned)
    (stored : ∀ (key : String) (j : Nat) (v : Write), s.lastBegun.get key = some j → (s.writes.set i { w with stage })[j]? = some v →
      v.stage = .caching ∨ v.stage = .returned → database.get key = valueAt key v.configs) :
    Inv { s.setWrite i w stage with database } := by
  have settled : ∀ {key value}, Settled (s.setWrite i w stage) key value ↔ Settled s key value := settled_setWrite there open_ goes
  exact ⟨fun key j last => listed_set inv there rfl last,fun j v key found has => last_set (s := s) inv there found rfl has,stored,
    fun key value held => inv.cached key value (settled.mp held),inv.pending,inv.live,
    fun key value held r pending read found recent => bears_settled (fun _ => settled.mpr) (inv.current key value (settled.mp held) r pending read found recent),
    fun g member => told_mono (s := s) (reads_same s) (fun _ _ => settled.mpr) (inv.told g member)⟩

end

theorem inv_upsert (inv : Inv s) (orderly : Orderly s (.upsert i)) : Inv (step CACHE_TTL s (.upsert i)) := by
  unfold step
  dsimp only
  split
  · next w there =>
    split
    · next stage =>
      refine inv_setWrite inv there (by simp [stage]) nofun fun key j v last found done => ?_
      rw [get_setAll]
      rcases at_of_set found with ⟨rfl,rfl⟩ | ⟨other,old⟩
      · obtain ⟨w',there',has⟩ := inv.listed key j last
        cases there.symm.trans there'
        obtain ⟨value,written⟩ := Option.isSome_iff_exists.mp has
        simp [written]
      · have untouched : valueAt key w.configs = none := by
          by_contra has
          rcases last_meets inv there last (Option.isSome_iff_ne_none.mpr has) with same | ⟨v',later,meet,there'⟩
          · exact other same.symm
          · cases there'.symm.trans old
            rcases orderly w there v later meet with open_ | fails
            · simp [open_] at done
            · simp [fails] at done
        rw [untouched]
        exact inv.stored key j v last old done
    · exact inv
  · exact inv

theorem inv_failWrite (inv : Inv s) : Inv (step CACHE_TTL s (.failWrite i)) := by
  unfold step
  dsimp only
  split
  · next w there =>
    split
    · next stage =>
      refine inv_setWrite inv there (by simp [stage]) nofun fun key j v last found done => ?_
      rcases at_of_set found with ⟨rfl,rfl⟩ | ⟨_,old⟩
      · simp at done
      · exact inv.stored key j v last old done
    · exact inv
  · exact inv

theorem untouched_settled (inv : Inv s) (orderly : Orderly s (.put i)) (there : s.writes[i]? = some w) (caching : w.stage = .caching)
    (settled : Settled s key value) : valueAt key w.configs = none := by
  obtain ⟨j,v,last,found,_,returned⟩ := settled
  by_contra has
  rcases last_meets inv there last (Option.isSome_iff_ne_none.mpr has) with rfl | ⟨v',later,meet,there'⟩
  · cases there.symm.trans found
    rw [caching] at returned
    cases returned
  · cases found.symm.trans there'
    exact orderly w there v later meet returned

def State.putting (s : State) (CACHE_TTL i : Nat) (w : Write) : State := { s.setWrite i w .returned with
  cache := setAll s.cache (w.configs.map fun e => (e.1,⟨e.2,s.now + CACHE_TTL⟩))
  reads := s.reads.map fun read => if (valueAt read.key w.configs).isSome && read.stage ≠ .asking then { read with overtaken := true } else read }

theorem settled_putting (there : s.writes[i]? = some w) (caching : w.stage = .caching) : Settled (s.putting CACHE_TTL i w) key value ↔
    Settled s key value ∨ s.lastBegun.get key = some i ∧ valueAt key w.configs = some value := by
  constructor
  · rintro ⟨j,v,last,found,written,returned⟩
    rcases at_of_set found with ⟨rfl,rfl⟩ | ⟨_,old⟩
    · exact .inr ⟨last,written⟩
    · exact .inl ⟨j,v,last,old,written,returned⟩
  · rintro (⟨j,v,last,found,written,returned⟩ | ⟨last,written⟩)
    · have other : i ≠ j := by
        rintro rfl
        cases there.symm.trans found
        rw [caching] at returned
        cases returned
      exact ⟨j,v,last,by rw [State.putting,State.setWrite,List.getElem?_set_ne other]; exact found,written,returned⟩
    · exact ⟨i,_,last,at_set there,written,rfl⟩

theorem reads_putting {read' : Read} (found : (s.putting CACHE_TTL i w).reads[r]? = some read') : ∃ read, s.reads[r]? = some read ∧
    read'.key = read.key ∧ read'.stage = read.stage ∧
      (read'.overtaken = false → read.overtaken = false ∧ ((valueAt read.key w.configs).isSome → read.stage = .asking)) := by
  simp only [State.putting,List.getElem?_map,Option.map_eq_some_iff] at found
  obtain ⟨read,there,rfl⟩ := found
  refine ⟨read,there,?_⟩
  split
  · exact ⟨rfl,rfl,nofun⟩
  · next recent => exact ⟨rfl,rfl,fun same => ⟨same,by simpa using recent⟩⟩

theorem inv_put (inv : Inv s) (orderly : Orderly s (.put i)) : Inv (step CACHE_TTL s (.put i)) := by
  unfold step
  dsimp only
  split
  · next w there =>
    split
    · next caching =>
      have settled : ∀ {key value}, Settled (s.putting CACHE_TTL i w) key value ↔ _ := settled_putting there caching
      refine ⟨fun key j last => listed_set inv there rfl last,fun j v key found has => last_set (s := s) inv there found rfl has,fun key j v last found done => ?_,
        fun key value held e cached => ?_,fun key r pending => ?_,fun r read found open_ fails => ?_,fun key value held r pending read found recent => ?_,
        fun g member => told_mono (s := s) (fun r read found => ?_) (fun _ _ before => settled.mpr (.inl before)) (inv.told g member)⟩
      · rcases at_of_set found with ⟨rfl,rfl⟩ | ⟨_,old⟩
        · exact inv.stored key j w last there (.inl caching)
        · exact inv.stored key j v last old done
      · have cached : ((valueAt key w.configs).map fun value => (⟨value,s.now + CACHE_TTL⟩ : CacheEntry)).orElse (fun _ => s.cache.get key) = some e := by
          rw [← valueAt_map (fun value => (⟨value,s.now + CACHE_TTL⟩ : CacheEntry)),← get_setAll]
          exact cached
        rcases settled.mp held with before | ⟨_,written⟩
        · rw [untouched_settled inv orderly there caching before] at cached
          exact inv.cached key value before e cached
        · rw [written] at cached
          cases cached
          rfl
      · obtain ⟨read,found,same⟩ := inv.pending key r pending
        refine ⟨_,by simp only [List.getElem?_map,found]; rfl,?_⟩
        dsimp only
        split <;> exact same
      · obtain ⟨old,there',key,stage,_⟩ := reads_putting found
        rw [key]
        exact inv.live r old there' (stage ▸ open_) (stage ▸ fails)
      · obtain ⟨old,there',same,stage,recent'⟩ := reads_putting found
        obtain ⟨recent',asks⟩ := recent' recent
        obtain ⟨old',there'',known⟩ := inv.pending key r pending
        cases there'.symm.trans there''
        rw [stage]
        rcases settled.mp held with before | ⟨_,written⟩
        · exact bears_settled (fun _ before => settled.mpr (.inl before)) (inv.current key value before r pending old there' recent')
        · rw [asks (by rw [known,written]; rfl)]
          exact held
      · refine ⟨_,by simp only [List.getElem?_map,found]; rfl,?_⟩
        dsimp only
        split <;> exact ⟨rfl,rfl,rfl⟩
    · exact inv
  · exact inv

theorem inv_step (inv : Inv s) (l : Label) (orderly : Orderly s l) : Inv (step CACHE_TTL s l) := by
  cases l with
  | tick ms => exact { inv with }
  | get key defaultValue => exact inv_get inv orderly
  | set configs => exact inv_begin inv
  | read r => exact inv_read inv
  | resolve r => exact inv_resolve inv orderly
  | settle r => exact inv_settle inv
  | failRead r => exact inv_failRead inv
  | upsert i => exact inv_upsert inv orderly
  | put i => exact inv_put inv orderly
  | failWrite i => exact inv_failWrite inv
  | invalidate keys =>
    refine ⟨inv.listed,inv.last,inv.stored,fun key value settled e cached => ?_,inv.pending,inv.live,inv.current,inv.told⟩
    have cached : (s.cache.filter fun e => !keys.contains e.1).get key = some e := cached
    rw [get_filter] at cached
    exact inv.cached key value settled e (Option.filter_eq_some_iff.mp cached).1

/-- Reads see the writes that have returned before them, and everyone has its own default. -/
theorem writes_seen {database : OrderedMap String String} (reach : Reachable (step CACHE_TTL) Orderly (.start database) s) : Seen s :=
  seen_of_inv (reachable_invariant (inv_start database) (fun _ l inv ok => inv_step inv l ok) reach)

def readWriteRead : List Label := [.get "limit" "5",.read 0,.resolve 0,.settle 0,.set [("limit","9"),("window","60")],.upsert 0,.put 0,.get "limit" "5"]

theorem read_write_read : ∃ s, Reachable (step 30000) Orderly (.start .empty) s ∧ s.gets.map s.answer = [some "5",some "9"] ∧ Seen s :=
  have reach := reachable_run .start readWriteRead (by decide +kernel)
  ⟨_,reach,by decide +kernel,writes_seen reach⟩

def filledLate : List Label :=
  [.set [("limit","9")],.upsert 0,.put 0,.tick 30000,.get "limit" "5",.read 0,.set [("limit","1")],.upsert 1,.put 1,.resolve 0,.settle 0,.get "limit" "5"]

theorem filled_late_unseen : ¬ ∀ s, Reachable (step 30000) (fun _ _ => True) (.start .empty) s → Seen s := by
  intro always
  have legal : Legal (step 30000) (fun _ _ => True) (.start .empty) filledLate := by decide +kernel
  exact absurd (always _ (reachable_run .start filledLate legal)) (by decide +kernel)

def sharedDefault : List Label := [.get "limit" "5",.get "limit" "60",.read 0,.resolve 0,.settle 0]

example : ¬ Seen (sharedDefault.foldl (step 30000) (.start .empty)) := by decide +kernel

end
end Tgtc.ConfigCache
