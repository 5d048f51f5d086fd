import Mathlib.Data.Rat.Floor
import Tgtc.Maps

/-!
Direct relays, which read the upstream from its first byte on and pass on the bytes that were asked for. Whoever ends
a relay releases what it holds, in any order and as often as they like.
-/
namespace Tgtc.DirectRelay
open Maps
universe u

def DIRECT_WINDOW_MIN_BYTES : Nat := 1 * 1024 * 1024

def DIRECT_WINDOW_MAX_BYTES : Nat := 4 * 1024 * 1024

def normalizeDirectWindow (directWindowBytes : ℚ) (override : Option ℚ) : Nat :=
  let candidate := match override with
    | some bytes => if bytes > 0 then bytes else directWindowBytes
    | none => directWindowBytes
  min DIRECT_WINDOW_MAX_BYTES (max DIRECT_WINDOW_MIN_BYTES ⌊candidate⌋.toNat)

/-- `start` and `end` of a request. -/
structure Range where
  start : Nat
  last : Option Nat

def Range.past (range : Range) (chunkStart : Nat) : Bool := range.last.any (chunkStart > ·)

def Range.slice {Byte : Type u} (range : Range) (chunkStart : Nat) (chunk : List Byte) : Option (List Byte) :=
  let sliceStart := if chunkStart < range.start then min chunk.length (range.start - chunkStart) else 0
  if sliceStart ≥ chunk.length then none
  else
    let sliceEnd := match range.last with
      | none => chunk.length
      | some last => min chunk.length (last - chunkStart + 1)
    if sliceEnd ≤ sliceStart then none else some ((chunk.take sliceEnd).drop sliceStart)

inductive Stage
  | running | completed | failed | closed | refused
deriving DecidableEq

structure Relay (Byte : Type u) where
  range : Range
  windowBytes : Nat
  /-- all that the upstream sends, and what of it has not been read yet -/
  chunks : List (List Byte)
  upstream : List (List Byte)
  offset : Nat
  /-- where the chunks began that have been read -/
  consumed : List Nat
  yielded : List (List Byte)
  stage : Stage
  released : Bool
  /-- how often the lease was released, and whether the caller has done so -/
  leaseReleases : Nat
  byCaller : Bool

structure State (Byte : Type u) where
  activeDirectStreams : Nat
  activeDirectWindowBytes : Nat
  relays : List (Relay Byte)

inductive Label (Byte : Type u)
  /-- a call that has got its lease; the fetch fails where there are no chunks -/
  | getDirectStream (range : Range) (directWindowBytes : ℚ) (override : Option ℚ) (fetched : Option (List (List Byte)))
  | next (i : Nat)
  /-- reading the upstream throws -/
  | fail (i : Nat)
  /-- the stream is closed: a generator that still runs is told to return -/
  | close (i : Nat)
  | release (i : Nat)

variable {Byte : Type u}

def State.start : State Byte := ⟨0,0,[]⟩

def Relay.turn (r : Relay Byte) : Relay Byte := match r.upstream with
  | [] => { r with stage := .completed }
  | chunk :: rest =>
    let read := { r with upstream := rest, offset := r.offset + chunk.length, consumed := r.consumed ++ [r.offset] }
    if r.range.past r.offset then { read with stage := .completed }
    else match r.range.slice r.offset chunk with
      | none => read
      | some buffer => { read with yielded := r.yielded ++ [buffer] }

def State.put (s : State Byte) (i : Nat) (r : Relay Byte) : State Byte := { s with relays := s.relays.set i r }

/-- `release`: only the first call does anything; the upstream is destroyed by it. -/
def State.release (s : State Byte) (i : Nat) (r : Relay Byte) : State Byte :=
  if r.released then s.put i r
  else
    { activeDirectStreams := s.activeDirectStreams - 1
      activeDirectWindowBytes := s.activeDirectWindowBytes - r.windowBytes
      relays := s.relays.set i { r with released := true, leaseReleases := r.leaseReleases + 1 } }

def State.join (s : State Byte) (range : Range) (windowBytes : Nat) : Option (List (List Byte)) → State Byte
  | none => { s with relays := s.relays ++ [⟨range,windowBytes,[],[],0,[],[],.refused,true,1,false⟩] }
  | some chunks =>
    { activeDirectStreams := s.activeDirectStreams + 1
      activeDirectWindowBytes := s.activeDirectWindowBytes + windowBytes
      relays := s.relays ++ [⟨range,windowBytes,chunks,chunks,0,[],[],.running,false,0,false⟩] }

def State.act (s : State Byte) (i : Nat) (r : Relay Byte) : Label Byte → State Byte
  | .next _ =>
    -- a destroyed upstream sends nothing more, but its end may have come before
    if r.stage ≠ .running ∨ r.released = true ∧ r.upstream ≠ [] then s
    else if r.turn.stage = .running then s.put i r.turn else s.release i r.turn
  | .fail _ => if r.stage = .running then s.release i { r with stage := .failed } else s
  | .close _ => s.release i (if r.stage = .running then { r with stage := .closed } else r)
  | .release _ => s.release i { r with byCaller := true }
  | .getDirectStream .. => s

def step (s : State Byte) (l : Label Byte) : State Byte := match l with
  | .getDirectStream range directWindowBytes override fetched =>
    s.join range (normalizeDirectWindow directWindowBytes override) fetched
  | .next i | .fail i | .close i | .release i => match s.relays[i]? with
    | some r => s.act i r l
    | none => s

def Range.bytes (range : Range) (content : List Byte) : List Byte := match range.last with
  | none => content.drop range.start
  | some last => (content.take (last + 1)).drop range.start

section
variable {range : Range} {front chunk buffer : List Byte}

theorem sliceStart_eq (length start chunkStart : Nat) :
    (if chunkStart < start then min length (start - chunkStart) else 0) = min length (start - chunkStart) := by
  split_ifs <;> omega

theorem slice_nonempty (sliced : range.slice chunkStart chunk = some buffer) : buffer ≠ [] := by
  unfold Range.slice at sliced
  simp only [sliceStart_eq] at sliced
  split_ifs at sliced with skipped narrow
  obtain rfl := Option.some.inj sliced
  intro empty
  have short := List.drop_eq_nil_iff.mp empty
  rw [List.length_take] at short
  cases last : range.last <;> simp only [last] at narrow short <;> omega

theorem bytes_prefix (range : Range) (front rest : List Byte) : range.bytes front <+: range.bytes (front ++ rest) := by
  unfold Range.bytes
  split
  · rw [List.drop_append]
    exact List.prefix_append _ _
  · rw [List.take_append,List.drop_append]
    exact List.prefix_append _ _

theorem bytes_past (past : range.past front.length = true) (rest : List Byte) :
    range.bytes (front ++ rest) = range.bytes front := by
  unfold Range.past at past
  unfold Range.bytes
  cases known : range.last with
  | none => simp [known] at past
  | some last =>
    have before : last < front.length := by simpa [known] using past
    simp only [List.take_append_of_le_length (show last + 1 ≤ front.length from before)]

/-- Only the place of the chunk in the content matters, not how the range lies to its ends. -/
theorem bytes_chunk (near : range.past front.length = false) (chunk : List Byte) :
    range.bytes (front ++ chunk) = range.bytes front ++ (range.slice front.length chunk).getD [] := by
  unfold Range.past at near
  unfold Range.bytes Range.slice
  simp only [sliceStart_eq]
  cases known : range.last with
  | none =>
    simp only [List.drop_append,List.take_length]
    congr 1
    split_ifs with skipped
    · exact List.drop_eq_nil_of_le (by omega)
    · rw [Nat.min_eq_right (by omega)]
      rfl
  | some last =>
    have within : front.length ≤ last := by simpa [known] using near
    have ends : chunk.take (min chunk.length (last - front.length + 1)) = chunk.take (last + 1 - front.length) := by
      rw [Nat.min_comm,← List.take_eq_take_min,Nat.sub_add_comm within]
    simp only [List.take_append,List.take_of_length_le (show front.length ≤ last + 1 by omega),List.drop_append,ends]
    congr 1
    split_ifs with skipped narrow
    · exact List.drop_eq_nil_of_le (by rw [List.length_take]; omega)
    · exact List.drop_eq_nil_of_le (by rw [List.length_take]; omega)
    · rw [Nat.min_eq_right (by omega)]
      rfl

end

/-- What a relay has read and passed on. -/
structure Relay.Carried (r : Relay Byte) : Prop where
  nonempty : ∀ buffer ∈ r.yielded, buffer ≠ []
  beyond : r.consumed.countP r.range.past ≤ if r.stage = .running then 0 else 1
  bytes : r.yielded.flatten <+: r.range.bytes r.chunks.flatten
  whole : r.stage = .completed → r.yielded.flatten = r.range.bytes r.chunks.flatten
  course : r.stage = .running → ∃ read, r.chunks = read ++ r.upstream ∧ r.offset = read.flatten.length ∧
    r.yielded.flatten = r.range.bytes read.flatten

structure Relay.Booked (r : Relay Byte) : Prop where
  once : r.leaseReleases = if r.released then 1 else 0
  ended : r.released = true ↔ r.stage ≠ .running ∨ r.byCaller = true

def State.held (s : State Byte) (amount : Relay Byte → Nat) : Nat :=
  (s.relays.map fun r => if r.released then 0 else amount r).sum

structure Inv (s : State Byte) : Prop where
  carried : ∀ r ∈ s.relays, r.Carried
  booked : ∀ r ∈ s.relays, r.Booked
  streams : s.activeDirectStreams = s.held fun _ => 1
  window : s.activeDirectWindowBytes = s.held Relay.windowBytes

section
variable {s : State Byte} {i : Nat} {r r' : Relay Byte}

theorem turn_kept (r : Relay Byte) : r.turn.released = r.released ∧ r.turn.leaseReleases = r.leaseReleases ∧
    r.turn.byCaller = r.byCaller ∧ r.turn.windowBytes = r.windowBytes := by
  unfold Relay.turn
  split
  · exact ⟨rfl,rfl,rfl,rfl⟩
  · split
    · exact ⟨rfl,rfl,rfl,rfl⟩
    · split <;> exact ⟨rfl,rfl,rfl,rfl⟩

theorem carried_turn (carried : r.Carried) (running : r.stage = .running) : r.turn.Carried := by
  obtain ⟨read,chunks,offset,yielded⟩ := carried.course running
  have beyond := carried.beyond
  rw [if_pos running] at beyond
  unfold Relay.turn
  split
  · next finished =>
    rw [finished,List.append_nil] at chunks
    have whole : r.yielded.flatten = r.range.bytes r.chunks.flatten := chunks ▸ yielded
    exact ⟨carried.nonempty,beyond.trans (Nat.zero_le 1),carried.bytes,fun _ => whole,nofun⟩
  · next chunk rest upstream =>
    have chunks' : r.chunks = (read ++ [chunk]) ++ rest := by rw [chunks,upstream,List.append_assoc,List.singleton_append]
    have offset' : r.offset + chunk.length = (read ++ [chunk]).flatten.length := by simp [offset]
    by_cases past : r.range.past r.offset = true
    · rw [if_pos past]
      have whole : r.yielded.flatten = r.range.bytes r.chunks.flatten := by
        rw [yielded,chunks,List.flatten_append,bytes_past (by rw [← offset]; exact past)]
      refine ⟨carried.nonempty,?_,carried.bytes,fun _ => whole,nofun⟩
      simpa [past] using beyond
    · rw [if_neg past]
      have near : r.range.past r.offset = false := Bool.eq_false_iff.mpr past
      have more := bytes_chunk (offset ▸ near) chunk
      rw [← yielded,← offset] at more
      have carries : ∀ buffers : List (List Byte), (∀ buffer ∈ buffers, buffer ≠ []) →
          buffers.flatten = r.range.bytes (read.flatten ++ chunk) → Relay.Carried { r with
            upstream := rest, offset := r.offset + chunk.length, consumed := r.consumed ++ [r.offset], yielded := buffers } := by
        intro buffers nonempty passed
        have passed : buffers.flatten = r.range.bytes (read ++ [chunk]).flatten := by simpa using passed
        refine ⟨nonempty,?_,?_,fun done => absurd (running.symm.trans done) nofun,fun _ => ⟨_,chunks',offset',passed⟩⟩
        · rw [if_pos running]
          simpa [near] using beyond
        · have longer := bytes_prefix r.range (read ++ [chunk]).flatten rest.flatten
          rwa [← List.flatten_append,← chunks',← passed] at longer
      cases sliced : r.range.slice r.offset chunk with
      | none =>
        rw [sliced] at more
        exact carries _ carried.nonempty (by rw [more]; simp)
      | some buffer =>
        rw [sliced] at more
        refine carries _ (fun b member => ?_) (by rw [more]; simp)
        rcases List.mem_append.mp member with old | new
        · exact carried.nonempty b old
        · rw [List.mem_singleton.mp new]
          exact slice_nonempty sliced

theorem carried_ended (carried : r.Carried) {stage : Stage} (ended : stage ≠ .running) (short : stage ≠ .completed) :
    Relay.Carried { r with stage } :=
  ⟨carried.nonempty,carried.beyond.trans (by split <;> omega),carried.bytes,fun done => absurd done short,
    fun running => absurd running ended⟩

theorem held_set (there : s.relays[i]? = some r) (amount : Relay Byte → Nat) (relay : Relay Byte) :
    (s.put i relay).held amount + (if r.released then 0 else amount r) =
      s.held amount + (if relay.released then 0 else amount relay) := by
  obtain ⟨before,after⟩ := perm_replace (y := relay) there
  unfold State.held State.put
  rw [(before.map _).sum_eq,(after.map _).sum_eq,List.map_cons,List.map_cons,List.sum_cons,List.sum_cons]
  omega

theorem inv_put (inv : Inv s) (there : s.relays[i]? = some r) (carried : r'.Carried) (booked : r'.Booked)
    (released : r'.released = r.released) (window : r'.windowBytes = r.windowBytes) : Inv (s.put i r') := by
  have one := held_set there (fun _ => 1) r'
  have all := held_set there Relay.windowBytes r'
  rw [released] at one all
  rw [window] at all
  refine ⟨fun q member => ?_,fun q member => ?_,inv.streams.trans (by omega),inv.window.trans (by omega)⟩
  · rcases List.mem_or_eq_of_mem_set member with old | rfl
    · exact inv.carried q old
    · exact carried
  · rcases List.mem_or_eq_of_mem_set member with old | rfl
    · exact inv.booked q old
    · exact booked

/-- Whatever has become of a relay, it is released by whoever comes first. -/
theorem inv_release (inv : Inv s) (there : s.relays[i]? = some r) (carried : r'.Carried)
    (kept : r'.released = r.released ∧ r'.leaseReleases = r.leaseReleases ∧ r'.windowBytes = r.windowBytes)
    (ended : r'.stage ≠ .running ∨ r'.byCaller = true) : Inv (s.release i r') := by
  obtain ⟨released,releases,window⟩ := kept
  have booked := inv.booked r (List.mem_of_getElem? there)
  unfold State.release
  by_cases before : r'.released = true
  · rw [if_pos before]
    exact inv_put inv there carried ⟨by rw [releases,released]; exact booked.once,⟨fun _ => ended,fun _ => before⟩⟩ released window
  have held : r.released = false := by rw [← released]; exact Bool.eq_false_iff.mpr before
  have once := booked.once
  rw [held] at once
  rw [if_neg before]
  have one := held_set there (fun _ => 1) { r' with released := true, leaseReleases := r'.leaseReleases + 1 }
  have all := held_set there Relay.windowBytes { r' with released := true, leaseReleases := r'.leaseReleases + 1 }
  simp only [held] at one all
  refine ⟨fun q member => ?_,fun q member => ?_,?_,?_⟩
  · rcases List.mem_or_eq_of_mem_set member with old | rfl
    · exact inv.carried q old
    · exact { carried with }
  · rcases List.mem_or_eq_of_mem_set member with old | rfl
    · exact inv.booked q old
    · exact ⟨by simp [releases,once],⟨fun _ => ended,fun _ => rfl⟩⟩
  · exact (congrArg (· - 1) inv.streams).trans (Nat.sub_eq_of_eq_add one.symm)
  · exact (congrArg₂ (· - ·) inv.window window).trans (Nat.sub_eq_of_eq_add all.symm)

/-- What the step of a label does, where there is something to do. -/
theorem inv_act (inv : Inv s) (there : s.relays[i]? = some r) (l : Label Byte) : Inv (s.act i r l) := by
  have carried := inv.carried r (List.mem_of_getElem? there)
  have booked := inv.booked r (List.mem_of_getElem? there)
  cases l with
  | getDirectStream => exact inv
  | next =>
    simp only [State.act]
    split_ifs with idle on
    · exact inv
    · have running : r.stage = .running := not_not.mp fun ended => idle (.inl ended)
      obtain ⟨released,releases,byCaller,window⟩ := turn_kept r
      refine inv_put inv there (carried_turn carried running) ⟨by rw [releases,released]; exact booked.once,?_⟩ released window
      rw [released,byCaller,booked.ended,on,running]
    · have running : r.stage = .running := not_not.mp fun ended => idle (.inl ended)
      obtain ⟨released,releases,_,window⟩ := turn_kept r
      exact inv_release inv there (carried_turn carried running) ⟨released,releases,window⟩ (.inl on)
  | fail =>
    simp only [State.act]
    split_ifs
    · exact inv_release inv there (carried_ended carried nofun nofun) ⟨rfl,rfl,rfl⟩ (.inl nofun)
    · exact inv
  | close =>
    simp only [State.act]
    split_ifs with running
    · exact inv_release inv there (carried_ended carried nofun nofun) ⟨rfl,rfl,rfl⟩ (.inl nofun)
    · exact inv_release inv there carried ⟨rfl,rfl,rfl⟩ (.inl running)
  | release => exact inv_release inv there { carried with } ⟨rfl,rfl,rfl⟩ (.inr rfl)

theorem inv_append (inv : Inv s) (carried : r.Carried) (booked : r.Booked) :
    Inv ⟨s.activeDirectStreams + if r.released then 0 else 1,s.activeDirectWindowBytes + if r.released then 0 else r.windowBytes,
      s.relays ++ [r]⟩ := by
  refine ⟨fun q member => ?_,fun q member => ?_,?_,?_⟩
  · rcases List.mem_append.mp member with old | new
    · exact inv.carried q old
    · rwa [List.mem_singleton.mp new]
  · rcases List.mem_append.mp member with old | new
    · exact inv.booked q old
    · rwa [List.mem_singleton.mp new]
  · simp [State.held,inv.streams]
  · simp [State.held,inv.window]

theorem inv_join (inv : Inv s) (range : Range) (windowBytes : Nat) (fetched : Option (List (List Byte))) :
    Inv (s.join range windowBytes fetched) := by
  have nothing : range.bytes ([] : List Byte) = [] := by
    unfold Range.bytes
    split <;> simp
  cases fetched with
  | none =>
    exact inv_append (r := ⟨range,windowBytes,[],[],0,[],[],.refused,true,1,false⟩) inv
      ⟨nofun,Nat.zero_le _,List.nil_prefix,nofun,nofun⟩ ⟨rfl,⟨fun _ => .inl nofun,fun _ => rfl⟩⟩
  | some chunks =>
    exact inv_append (r := ⟨range,windowBytes,chunks,chunks,0,[],[],.running,false,0,false⟩) inv
      ⟨nofun,Nat.zero_le _,List.nil_prefix,nofun,fun _ => ⟨[],rfl,rfl,nothing.symm⟩⟩
      ⟨rfl,⟨nofun,nofun⟩⟩

theorem inv_step (inv : Inv s) (l : Label Byte) : Inv (step s l) := by
  cases l with
  | getDirectStream range directWindowBytes override fetched => exact inv_join inv ..
  | next i | fail i | close i | release i =>
    simp only [step]
    split
    · next there => exact inv_act inv there _
    · exact inv

theorem inv_run (inv : Inv s) (labels : List (Label Byte)) : Inv (labels.foldl step s) := by
  induction labels generalizing s with
  | nil => exact inv
  | cons l rest ih => exact ih (inv_step inv l)

theorem turn_on (running : r.turn.stage = .running) : r.turn.upstream.length + 1 = r.upstream.length := by
  unfold Relay.turn at running ⊢
  split at running
  · cases running
  · next chunk rest upstream =>
    rw [upstream]
    split_ifs at running ⊢
    split <;> rfl

theorem turn_stage (running : r.stage = .running) : r.turn.stage = .running ∨ r.turn.stage = .completed := by
  unfold Relay.turn
  split
  · exact .inr rfl
  · split_ifs
    · exact .inr rfl
    · split <;> exact .inl running

theorem released_at (there : s.relays[i]? = some r) (relay : Relay Byte) :
    ∃ r', (s.release i relay).relays[i]? = some r' ∧ r'.stage = relay.stage ∧ r'.released = true := by
  unfold State.release
  split_ifs with released
  · exact ⟨relay,at_set there,rfl,released⟩
  · exact ⟨_,at_set there,rfl,rfl⟩

theorem stays (there : s.relays[i]? = some r) (ended : r.stage ≠ .running) :
    ∀ n, (List.replicate n (Label.next i)).foldl step s = s := by
  intro n
  induction n with
  | zero => rfl
  | succ n ih =>
    have nothing : step s (.next i) = s := by simp [step,there,State.act,ended]
    rw [List.replicate_succ,List.foldl_cons,nothing,ih]

/-- A relay that nobody disturbs comes to its end. -/
theorem completes (n : Nat) (there : s.relays[i]? = some r) (running : r.stage = .running) (held : r.released = false)
    (left : r.upstream.length ≤ n) :
    ∃ r', ((List.replicate (n + 1) (Label.next i)).foldl step s).relays[i]? = some r' ∧ r'.stage = .completed := by
  induction n generalizing s r with
  | zero | succ n ih =>
    rw [List.replicate_succ,List.foldl_cons]
    have next : step s (.next i) = if r.turn.stage = .running then s.put i r.turn else s.release i r.turn := by
      simp [step,there,State.act,running,held]
    rw [next]
    split_ifs with on
    · have fewer := turn_on on
      first
      | omega
      | exact ih (at_set there) on ((turn_kept r).1.trans held) (by omega)
    · have done := (turn_stage running).resolve_left on
      obtain ⟨r',there',same,_⟩ := released_at there r.turn
      rw [stays there' (by rw [same,done]; nofun)]
      exact ⟨r',there',same.trans done⟩

theorem disturbed (there : s.relays[i]? = some r) (running : r.stage = .running) :
    ∀ l ∈ [.fail i,.close i,Label.release i], ∃ r', (step s l).relays[i]? = some r' ∧ r'.released = true := by
  intro l member
  simp only [List.mem_cons,List.not_mem_nil,or_false] at member
  rcases member with rfl | rfl | rfl
  all_goals
    simp only [step,there,State.act,running]
    obtain ⟨r',there',_,released⟩ := released_at there _
    exact ⟨r',there',released⟩

end

end Tgtc.DirectRelay
