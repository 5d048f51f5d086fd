import Tgtc.Maps
import Tgtc.Runs

/-!
`useCursorPagination`: pages are fetched one after the other, each with the cursor of the one before. A reset starts
anew while fetches from before it may still end.
-/
namespace Tgtc.CursorPages
open Maps Runs
universe u

section
variable {T FetchFn : Type u}

structure CursorPageResult (T : Type u) where
  data : List T
  nextCursor : Option String
  hasMore : Bool

/-- What an aborted signal does is up to the `fetchFn`, which may end in any way. -/
structure Fetch (FetchFn : Type u) where
  fetchFn : FetchFn
  cursorBefore : Option String
  generation : Nat
  running : Bool

structure Obtained (T : Type u) where
  generation : Nat
  cursorBefore : Option String
  result : CursorPageResult T

structure State (T FetchFn : Type u) where
  data : List T
  nextCursor : Option String
  hasMore : Bool
  loading : Bool
  generation : Nat
  pendingFetchFn : Option FetchFn
  fetches : List (Fetch FetchFn)
  obtained : List (Obtained T)

def start : State T FetchFn := ⟨[],none,true,false,0,none,[],[]⟩

def State.loadMore (s : State T FetchFn) (fetchFn : FetchFn) : State T FetchFn :=
  if !s.hasMore then s
  else if s.loading then { s with pendingFetchFn := some fetchFn }
  else { s with loading := true, fetches := s.fetches ++ [⟨fetchFn,s.nextCursor,s.generation,true⟩] }

def State.reset (s : State T FetchFn) : State T FetchFn :=
  { s with generation := s.generation + 1, pendingFetchFn := none, data := [], nextCursor := none, hasMore := true, loading := false }

/-- A page is dropped that is empty, or whose cursor has not advanced. -/
def accepts (cursorBefore : Option String) (result : CursorPageResult T) : Bool :=
  !result.data.isEmpty && !(result.nextCursor ≠ none && result.nextCursor = cursorBefore)

def State.receive (s : State T FetchFn) (f : Fetch FetchFn) (result : CursorPageResult T) : State T FetchFn :=
  let s : State T FetchFn := { s with obtained := s.obtained ++ [⟨f.generation,f.cursorBefore,result⟩] }
  if f.generation ≠ s.generation then s
  else if accepts f.cursorBefore result then
    { s with data := s.data ++ result.data, nextCursor := result.nextCursor, hasMore := result.hasMore }
  else { s with hasMore := false }

/-- The `finally` block. -/
def State.settle (s : State T FetchFn) (f : Fetch FetchFn) : State T FetchFn :=
  if f.generation = s.generation then
    let s' := { s with loading := false, pendingFetchFn := none }
    match s.pendingFetchFn with
    | some queued => if s.hasMore then s'.loadMore queued else s'
    | none => s'
  else s

def State.stop (s : State T FetchFn) (n : Nat) (f : Fetch FetchFn) : State T FetchFn :=
  { s with fetches := s.fetches.set n { f with running := false } }

inductive Label (T FetchFn : Type u) where
  | loadMore (fetchFn : FetchFn)
  | reset
  /-- without a result, if the fetch fails -/
  | ends (n : Nat) (result : Option (CursorPageResult T))

def step (s : State T FetchFn) : Label T FetchFn → State T FetchFn
  | .loadMore fetchFn => s.loadMore fetchFn
  | .reset => s.reset
  | .ends n result => match s.fetches[n]? with
    | some f => if f.running then (result.elim (s.stop n f) ((s.stop n f).receive f)).settle f else s
    | none => s

def Reached (s : State T FetchFn) : Prop := Reachable step (fun _ _ => True) start s

def pages (generation : Nat) (obtained : List (Obtained T)) : List (Obtained T) :=
  obtained.filter fun o => o.generation = generation && accepts o.cursorBefore o.result

/-- Each page was asked for with the cursor of the one before; the last cursor is the second one given. -/
def Follows : Option String → List (Obtained T) → Option String → Prop
  | cursor,[],last => cursor = last
  | cursor,o :: rest,last => o.cursorBefore = cursor ∧ Follows o.result.nextCursor rest last

def Running (s : State T FetchFn) (n : Nat) : Prop := ∃ f,s.fetches[n]? = some f ∧ f.running ∧ f.generation = s.generation

structure Tidy (s : State T FetchFn) : Prop where
  data : s.data = (pages s.generation s.obtained).flatMap fun o => o.result.data
  follows : Follows none (pages s.generation s.obtained) s.nextCursor
  one : ∀ m n,Running s m → Running s n → m = n
  loading : s.loading = true ↔ ∃ n,Running s n

/-- The fetches, when nothing is known of the one that `loading` tells of. -/
structure Settled (s : State T FetchFn) : Prop where
  fetches : ∀ (n : Nat) (f : Fetch FetchFn),s.fetches[n]? = some f → f.generation ≤ s.generation
  obtained : ∀ o ∈ s.obtained,o.generation ≤ s.generation
  data : s.data = (pages s.generation s.obtained).flatMap fun o => o.result.data
  follows : Follows none (pages s.generation s.obtained) s.nextCursor

structure Inv (s : State T FetchFn) : Prop extends Settled s where
  one : ∀ n f,s.fetches[n]? = some f → f.running → f.generation = s.generation →
    s.loading = true ∧ n + 1 = s.fetches.length ∧ f.cursorBefore = s.nextCursor
  loading : s.loading = true → s.hasMore = true ∧ ∃ n,Running s n

variable {s : State T FetchFn} {f : Fetch FetchFn} {o : Obtained T} {n m : Nat} {l : Label T FetchFn}
  {result : CursorPageResult T} {fetchFn : FetchFn}

theorem follows_append {cursor : Option String} {list : List (Obtained T)} (follows : Follows cursor list o.cursorBefore) :
    Follows cursor (list ++ [o]) o.result.nextCursor := by
  induction list generalizing cursor with
  | nil => exact ⟨Eq.symm follows,rfl⟩
  | cons first rest ih => exact ⟨follows.1,ih follows.2⟩

theorem pages_append {generation : Nat} {list : List (Obtained T)} : pages generation (list ++ [o]) = pages generation list ++
    if o.generation = generation && accepts o.cursorBefore o.result then [o] else [] := by
  rw [pages,List.filter_append,List.filter_cons,List.filter_nil]
  rfl

theorem inv_loadMore (inv : Inv s) : Inv (s.loadMore fetchFn) := by
  unfold State.loadMore
  split
  · exact inv
  split
  · exact { inv with }
  next more idle =>
  refine ⟨⟨fun n f found => ?_,inv.obtained,inv.data,inv.follows⟩,fun n f found running current => ?_,fun _ => ⟨by simpa using more,?_⟩⟩
  · rcases at_of_append found with old | ⟨_,rfl⟩
    · exact inv.fetches n f old
    · exact Nat.le_refl _
  · rcases at_of_append found with old | ⟨rfl,rfl⟩
    · exact absurd (inv.one n f old running current).1 idle
    · exact ⟨rfl,by simp,rfl⟩
  · exact ⟨s.fetches.length,_,List.getElem?_concat_length,rfl,rfl⟩

theorem inv_reset (inv : Inv s) : Inv s.reset := by
  have none : pages (s.generation + 1) s.obtained = [] := by
    refine List.filter_eq_nil_iff.mpr fun o member => ?_
    have old := inv.obtained o member
    have other : o.generation ≠ s.generation + 1 := by omega
    simp [other]
  refine ⟨⟨fun n f found => Nat.le_succ_of_le (inv.fetches n f found),fun o member => Nat.le_succ_of_le (inv.obtained o member),
    congrArg (List.flatMap _) none.symm,none ▸ rfl⟩,fun n f found _ current => ?_,nofun⟩
  have old := inv.fetches n f found
  simp only [State.reset] at current
  omega

/-- The fetch of the current generation has ended. -/
theorem inv_settle (settled : Settled s) (current : f.generation = s.generation) (ended : ∀ n,¬Running s n) : Inv (s.settle f) := by
  unfold State.settle
  rw [if_pos current]
  have idle : Inv { s with loading := false, pendingFetchFn := none } :=
    { settled with one := fun n f found running current => absurd ⟨f,found,running,current⟩ (ended n), loading := nofun }
  dsimp only
  split
  · split
    · exact inv_loadMore idle
    · exact idle
  · exact idle

theorem settled_stop (settled : Settled s) (found : s.fetches[n]? = some f) : Settled (s.stop n f) := by
  refine { settled with fetches := fun m g found' => ?_ }
  rcases at_of_set found' with ⟨rfl,rfl⟩ | ⟨_,old⟩
  · exact settled.fetches _ f found
  · exact settled.fetches m g old

theorem settled_receive (settled : Settled s) (current : f.generation = s.generation) (asked : f.cursorBefore = s.nextCursor) :
    Settled (s.receive f result) := by
  have obtained (o : Obtained T) (member : o ∈ s.obtained ++ [⟨f.generation,f.cursorBefore,result⟩]) : o.generation ≤ s.generation := by
    rcases List.mem_append.mp member with old | new
    · exact settled.obtained o old
    · rw [List.mem_singleton.mp new]
      exact Nat.le_of_eq current
  have more : pages s.generation (s.obtained ++ [⟨f.generation,f.cursorBefore,result⟩]) = _ := pages_append
  rw [decide_eq_true current,Bool.true_and] at more
  unfold State.receive
  dsimp only
  rw [if_neg (not_not.mpr current)]
  split
  · next accepted =>
    rw [if_pos accepted] at more
    refine ⟨settled.fetches,obtained,?_,?_⟩
    · simp only [more,List.flatMap_append,← settled.data,List.flatMap_singleton]
    · simp only [more]
      exact follows_append (o := ⟨_,_,_⟩) (asked ▸ settled.follows)
  · next dropped =>
    rw [if_neg dropped,List.append_nil] at more
    exact ⟨settled.fetches,obtained,more.symm ▸ settled.data,more.symm ▸ settled.follows⟩

theorem receive_kept (s : State T FetchFn) (f : Fetch FetchFn) (result : CursorPageResult T) :
    (s.receive f result).generation = s.generation ∧ (s.receive f result).fetches = s.fetches ∧
    (s.receive f result).pendingFetchFn = s.pendingFetchFn := by
  unfold State.receive
  dsimp only
  split_ifs <;> exact ⟨rfl,rfl,rfl⟩

theorem running_stop (found : s.fetches[n]? = some f) : Running (s.stop n f) m ↔ m ≠ n ∧ Running s m := by
  constructor
  · rintro ⟨g,found',running,current⟩
    rcases at_of_set found' with ⟨rfl,rfl⟩ | ⟨other,old⟩
    · cases running
    · exact ⟨other,g,old,running,current⟩
  · rintro ⟨other,g,old,rest⟩
    exact ⟨g,(List.getElem?_set_ne other.symm).trans old,rest⟩

theorem one_running (inv : Inv s) (first : Running s m) (second : Running s n) : m = n := by
  obtain ⟨f,found,runs,current⟩ := first
  obtain ⟨g,found',runs',current'⟩ := second
  have last := (inv.one m f found runs current).2.1
  have last' := (inv.one n g found' runs' current').2.1
  omega

/-- An end is the end of the fetch under way, or of an earlier one, which leaves all but the fetches. -/
theorem ends_cases (s : State T FetchFn) (n : Nat) (result : Option (CursorPageResult T)) : step s (.ends n result) = s ∨
    ∃ f,s.fetches[n]? = some f ∧ f.running ∧ (f.generation = s.generation ∧
        step s (.ends n result) = (result.elim (s.stop n f) ((s.stop n f).receive f)).settle f ∨
      f.generation ≠ s.generation ∧ ∃ more : List (Obtained T),(∀ o ∈ more,o.generation = f.generation) ∧
        step s (.ends n result) = { s.stop n f with obtained := s.obtained ++ more }) := by
  unfold step
  dsimp only
  split
  · next f found =>
    split
    · next running =>
      refine .inr ⟨f,found,running,?_⟩
      by_cases current : f.generation = s.generation
      · exact .inl ⟨current,rfl⟩
      · refine .inr ⟨current,result.toList.map fun page => ⟨f.generation,f.cursorBefore,page⟩,by simp,?_⟩
        cases result <;> simp [State.settle,State.receive,State.stop,current]
    · exact .inl rfl
  · exact .inl rfl

theorem inv_stale (inv : Inv s) (found : s.fetches[n]? = some f) (stale : f.generation ≠ s.generation)
    {more : List (Obtained T)} (past : ∀ o ∈ more,o.generation = f.generation) : Inv { s.stop n f with obtained := s.obtained ++ more } := by
  have dropped : more.filter (fun o => o.generation = s.generation && accepts o.cursorBefore o.result) = [] :=
    List.filter_eq_nil_iff.mpr fun o member => by simp [past o member,stale]
  have same : pages s.generation (s.obtained ++ more) = pages s.generation s.obtained := by
    simp [pages,List.filter_append,dropped]
  refine ⟨⟨(settled_stop inv.toSettled found).fetches,fun o member => ?_,same.symm ▸ inv.data,same.symm ▸ inv.follows⟩,
    fun m g found' running current => ?_,fun loads => ?_⟩
  · rcases List.mem_append.mp member with old | new
    · exact inv.obtained o old
    · rw [past o new]
      exact inv.fetches n f found
  · rcases at_of_set found' with ⟨rfl,rfl⟩ | ⟨_,old⟩
    · cases running
    · simpa [State.stop] using inv.one m g old running current
  · obtain ⟨hasMore,m,g,known,running,current⟩ := inv.loading loads
    refine ⟨hasMore,m,(running_stop found).mpr ⟨?_,g,known,running,current⟩⟩
    rintro rfl
    exact stale (Option.mem_unique found known ▸ current)

theorem inv_ends (inv : Inv s) (result : Option (CursorPageResult T)) : Inv (step s (.ends n result)) := by
  rcases ends_cases s n result with same | ⟨f,found,running,⟨current,ends⟩ | ⟨stale,more,past,ends⟩⟩
  · rwa [same]
  · rw [ends]
    have settled := settled_stop inv.toSettled found
    have ended (m : Nat) (there : Running (s.stop n f) m) : False :=
      have there := (running_stop found).mp there
      there.1 (one_running inv there.2 ⟨f,found,running,current⟩)
    cases result with
    | none => exact inv_settle settled current ended
    | some result =>
      have kept := receive_kept (s.stop n f) f result
      refine inv_settle (settled_receive settled current (inv.one n f found running current).2.2) (current.trans kept.1.symm)
        fun m ⟨g,known,runs,now⟩ => ended m ⟨g,kept.2.1 ▸ known,runs,now.trans kept.1⟩
  · rw [ends]
    exact inv_stale inv found stale past

theorem inv_step (inv : Inv s) (l : Label T FetchFn) : Inv (step s l) := by
  cases l with
  | loadMore fetchFn => exact inv_loadMore inv
  | reset => exact inv_reset inv
  | ends n result => exact inv_ends inv result

theorem inv_start : Inv (start : State T FetchFn) where
  fetches _ _ found := by cases found
  obtained _ member := by cases member
  data := rfl
  follows := rfl
  one _ _ found := by cases found
  loading := nofun

theorem waits_step (inv : Inv s) (running : Running s n) (waits : s.pendingFetchFn.isSome ∨ ∃ fetchFn,l = .loadMore fetchFn)
    (stays : l ≠ .reset ∧ ∀ result,l ≠ .ends n result) : Running (step s l) n ∧ (step s l).pendingFetchFn.isSome := by
  cases l with
  | loadMore fetchFn =>
    obtain ⟨f,found,runs,current⟩ := id running
    have loads := (inv.one n f found runs current).1
    have merged : step s (.loadMore fetchFn) = { s with pendingFetchFn := some fetchFn } := by
      simp [step,State.loadMore,loads,(inv.loading loads).1]
    rw [merged]
    exact ⟨running,rfl⟩
  | reset => exact absurd rfl stays.1
  | ends m result =>
    have waits := waits.resolve_right nofun
    have other : n ≠ m := by
      rintro rfl
      exact stays.2 result rfl
    rcases ends_cases s m result with same | ⟨g,found,runs,⟨current,_⟩ | ⟨_,more,_,ends⟩⟩
    · rw [same]
      exact ⟨running,waits⟩
    · exact absurd (one_running inv running ⟨g,found,runs,current⟩) other
    · rw [ends]
      exact ⟨(running_stop found).mpr ⟨other,running⟩,waits⟩

theorem waits_run {ls : List (Label T FetchFn)} (inv : Inv s) (running : Running s n) (waits : s.pendingFetchFn.isSome)
    (stay : ∀ l ∈ ls,l ≠ .reset ∧ ∀ result,l ≠ .ends n result) :
    Running (ls.foldl step s) n ∧ (ls.foldl step s).pendingFetchFn.isSome := by
  induction ls generalizing s with
  | nil => exact ⟨running,waits⟩
  | cons l ls ih =>
    obtain ⟨running,waits⟩ := waits_step inv running (.inl waits) (stay l List.mem_cons_self)
    exact ih (inv_step inv l) running waits fun l member => stay l (List.mem_cons_of_mem _ member)

theorem settle_follows (current : f.generation = s.generation) (waits : s.pendingFetchFn.isSome) (more : (s.settle f).hasMore = true) :
    Running (s.settle f) s.fetches.length := by
  obtain ⟨queued,there⟩ := Option.isSome_iff_exists.mp waits
  unfold State.settle at more ⊢
  rw [if_pos current,there] at more ⊢
  dsimp only at more ⊢
  split at more
  · next has =>
    simp only [State.loadMore,has,Bool.not_true,Bool.false_eq_true,if_false,if_true]
    exact ⟨_,List.getElem?_concat_length,rfl,rfl⟩
  · next none => exact absurd more none

theorem ends_follows (running : Running s n) (waits : s.pendingFetchFn.isSome) (result : Option (CursorPageResult T))
    (more : (step s (.ends n result)).hasMore = true) : Running (step s (.ends n result)) s.fetches.length := by
  obtain ⟨f,found,runs,current⟩ := running
  have ends : step s (.ends n result) = (result.elim (s.stop n f) ((s.stop n f).receive f)).settle f := by
    simp [step,found,runs]
  rw [ends] at more ⊢
  cases result with
  | none => simpa [State.stop] using settle_follows (s := s.stop n f) current waits more
  | some result =>
    have kept := receive_kept (s.stop n f) f result
    have follows := settle_follows (current.trans kept.1.symm) (kept.2.2.symm ▸ waits) more
    rw [kept.2.1] at follows
    simpa [State.stop] using follows

/-- Whatever ends when, the pages are those that followed each other since the last reset, and a request that was merged
into a fetch is made when that has ended. -/
theorem cursor_pages (reach : Reached s) : Tidy s ∧ ∀ n,Running s n → ∀ (fetchFn : FetchFn) (ls : List (Label T FetchFn)),
    (∀ l ∈ ls,l ≠ .reset ∧ ∀ result,l ≠ .ends n result) → ∀ result,
      (step (ls.foldl step (step s (.loadMore fetchFn))) (.ends n result)).hasMore = true →
        Running (step (ls.foldl step (step s (.loadMore fetchFn))) (.ends n result))
          (ls.foldl step (step s (.loadMore fetchFn))).fetches.length := by
  have inv : Inv s := reachable_invariant inv_start (fun _ l inv _ => inv_step inv l) reach
  refine ⟨⟨inv.data,inv.follows,fun m n => one_running inv,fun loads => (inv.loading loads).2,fun ⟨n,f,found,runs,current⟩ =>
    (inv.one n f found runs current).1⟩,fun n running fetchFn ls stay result more => ?_⟩
  obtain ⟨running,waits⟩ := waits_step inv running (.inr ⟨fetchFn,rfl⟩) ⟨nofun,nofun⟩
  obtain ⟨running,waits⟩ := waits_run (inv_step inv _) running waits stay
  exact ends_follows running waits result more

/-- The second page has the cursor it was asked for with. -/
def stuck : List (Label Nat Unit) :=
  [.loadMore (),.ends 0 (some ⟨[1],some "a",true⟩),.loadMore (),.ends 1 (some ⟨[2],some "a",true⟩)]

theorem cursor_pages_stuck : Tidy (stuck.foldl step start) := (cursor_pages (reachable_run .start stuck (by simp [Legal,stuck]))).1

theorem stuck_page_dropped : ¬∀ s : State Nat Unit,Reached s →
    s.data = (s.obtained.filter fun o => o.generation = s.generation).flatMap fun o => o.result.data := by
  intro always
  have same := always _ (reachable_run .start stuck (by simp [Legal,stuck]))
  revert same
  decide +kernel

end

end Tgtc.CursorPages
