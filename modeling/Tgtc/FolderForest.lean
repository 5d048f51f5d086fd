import Tgtc.FolderMoves

/-!
The folders as a forest. What a transaction finds out is right as long as nobody else commits meanwhile; the locks do
not keep in place what lies between a folder and its new parent.
-/
namespace Tgtc.FolderForest
open Runs Maps Forests FolderMoves
open Option (bind_eq_some_iff mem_unique some_ne_none)

structure Forest (folders : List Folder) : Prop where
  acyclic : Acyclic (parentOf folders)
  shallow : Bounded (parentOf folders) MAX_FOLDER_DEPTH

theorem forest_of_bounded {folders : List Folder} (bounded : Bounded (parentOf folders) MAX_FOLDER_DEPTH) : Forest folders :=
  ⟨acyclic_of_bounded bounded,bounded⟩

def Room (folders : List Folder) (p : Nat) : Prop :=
  ∀ j ≤ MAX_FOLDER_DEPTH, up (parentOf folders) j p ≠ none → j + 1 ≤ MAX_FOLDER_DEPTH

/-- The parent is not below the folder, nor too deep for the folder and what is below it. -/
def Fits (folders : List Folder) (id p : Nat) : Prop :=
  (∀ k ≤ MAX_FOLDER_DEPTH, up (parentOf folders) k p ≠ some id) ∧
    ∀ j ≤ MAX_FOLDER_DEPTH, ∀ k ≤ MAX_FOLDER_DEPTH, ∀ f ∈ folders, up (parentOf folders) j p ≠ none →
      up (parentOf folders) k f.id = some id → j + 1 + k ≤ MAX_FOLDER_DEPTH

instance (folders : List Folder) (p : Nat) : Decidable (Room folders p) := by
  unfold Room
  infer_instance

instance (folders : List Folder) (id p : Nat) : Decidable (Fits folders id p) := by
  unfold Fits
  infer_instance

/-- What the checks of a request ask, of the folders as they are. -/
def Stands (folders : List Folder) : Request → Prop
  | .create _ (some p) => Room folders p
  | .move _ id (some p) => Fits folders id p
  | _ => True

instance (folders : List Folder) (r : Request) : Decidable (Stands folders r) := by
  unfold Stands
  split <;> infer_instance

/-- What a transaction has found out still stands when it commits after another one. -/
def Settled (s : State) : Label → Prop
  | .go n => ∀ t ∈ s.tasks[n]?, t.stage = .committing → t.disturbed = true → Stands s.folders t.request
  | _ => True

instance (s : State) (l : Label) : Decidable (Settled s l) := by
  cases l <;> unfold Settled <;> infer_instance

abbrev Reached (folders : List Folder) : State → Prop := Reachable step Settled (.start folders)

section
variable {folders : List Folder} {id p a : Nat}

def There (folders : List Folder) (id : Nat) : Prop := ∃ f ∈ folders, f.id = id

theorem there_of_owned {ownerId : Nat} (found : owned folders id ownerId = true) : There folders id := by
  obtain ⟨f,member,fits⟩ := List.any_eq_true.mp found
  simp only [Bool.and_eq_true,decide_eq_true_eq] at fits
  exact ⟨f,member,fits.1.1⟩

theorem parentOf_known {b : Nat} (above : parentOf folders a = some b) : ∃ f ∈ folders, f.id = a ∧ f.parentId = some b := by
  obtain ⟨f,found,parent⟩ := bind_eq_some_iff.mp above
  exact ⟨f,List.mem_of_find?_eq_some found,by simpa using List.find?_some found,parent⟩

theorem mem_level (there : There folders id) {k : Nat} {d : Nat} (below : up (parentOf folders) k d = some id) :
    d ∈ level folders id k := by
  induction k generalizing d with
  | zero =>
    cases below
    obtain ⟨f,member,rfl⟩ := there
    exact List.mem_map.mpr ⟨f,List.mem_filter.mpr ⟨member,decide_eq_true rfl⟩,rfl⟩
  | succ k ih =>
    obtain ⟨b,above,onward⟩ := bind_eq_some_iff.mp below
    obtain ⟨f,member,rfl,parent⟩ := parentOf_known above
    refine List.mem_map.mpr ⟨f,List.mem_filter.mpr ⟨member,?_⟩,rfl⟩
    rw [parent]
    exact decide_eq_true (ih onward)

theorem level_empty {k : Nat} (empty : level folders id k = []) (more : Nat) : level folders id (k + more) = [] := by
  induction more with
  | zero => exact empty
  | succ more ih =>
    show ((folders.filter fun f => f.parentId.any fun q => q ∈ level folders id (k + more)).map Folder.id) = []
    rw [ih]
    simp

theorem below_height (there : There folders id) {height k d : Nat} (known : getSubtreeHeight folders id = some height)
    (below : up (parentOf folders) k d = some id) : k ≤ height := by
  by_contra farther
  obtain ⟨more,rfl⟩ := Nat.exists_eq_add_of_lt (Nat.lt_of_not_le farther)
  have empty : level folders id (height + 1) = [] := List.isEmpty_iff.mp (by simpa using List.find?_some known)
  have member := mem_level there below
  rw [Nat.add_right_comm,level_empty empty more] at member
  cases member

theorem parentOf_move (folders : List Folder) (id a : Nat) (parentId : Option Nat) (there : There folders id) :
    parentOf (folders.map fun f => if f.id = id then { f with parentId } else f) a =
      if a = id then parentId else parentOf folders a := by
  unfold parentOf
  rw [List.find?_map]
  have same : ((fun f : Folder => decide (f.id = a)) ∘ fun f => if f.id = id then { f with parentId } else f) =
      fun f : Folder => decide (f.id = a) := by
    funext f
    show decide ((if f.id = id then { f with parentId } else f).id = a) = decide (f.id = a)
    split <;> rfl
  rw [same]
  split
  · next here =>
    subst here
    obtain ⟨f,member,here⟩ := there
    cases found : folders.find? (fun f => decide (f.id = a)) with
    | none => exact absurd here (by simpa using List.find?_eq_none.mp found f member)
    | some g =>
      have named : g.id = a := by simpa using List.find?_some found
      show (if g.id = a then { g with parentId } else g).parentId = parentId
      rw [if_pos named]
  · next other =>
    cases found : folders.find? (fun f => decide (f.id = a)) with
    | none => rfl
    | some g =>
      have named : g.id = a := by simpa using List.find?_some found
      show (if g.id = id then { g with parentId } else g).parentId = g.parentId
      rw [if_neg (by rw [named]; exact other)]

theorem parentOf_create (folders : List Folder) (new : Folder) (fresh : ∀ f ∈ folders, f.id ≠ new.id) (a : Nat) :
    parentOf (folders ++ [new]) a = if a = new.id then new.parentId else parentOf folders a := by
  unfold parentOf
  rw [List.find?_append]
  split
  · next here =>
    subst here
    rw [List.find?_eq_none.mpr fun f member => by simpa using fresh f member]
    simp
  · next other =>
    have not_new : [new].find? (fun f => decide (f.id = a)) = none := by simp [Ne.symm other]
    rw [not_new,Option.or_none]

theorem room_all (bounded : Bounded (parentOf folders) MAX_FOLDER_DEPTH) (room : Room folders p) (j : Nat)
    (above : up (parentOf folders) j p ≠ none) : j + 1 ≤ MAX_FOLDER_DEPTH := room j (bounded j p above) above

theorem fits_all (bounded : Bounded (parentOf folders) MAX_FOLDER_DEPTH) (there : There folders id) (fits : Fits folders id p) :
    (∀ k, up (parentOf folders) k p ≠ some id) ∧ ∀ (j k d : Nat), up (parentOf folders) j p ≠ none →
      up (parentOf folders) k d = some id → j + 1 + k ≤ MAX_FOLDER_DEPTH := by
  refine ⟨fun k below => ?_,fun j k d above below => ?_⟩
  · exact fits.1 k (bounded k p (by rw [below]; exact some_ne_none id)) below
  · have short : k ≤ MAX_FOLDER_DEPTH := bounded k d (by rw [below]; exact some_ne_none id)
    cases k with
    | zero =>
      obtain ⟨f,member,rfl⟩ := there
      exact fits.2 j (bounded j p above) 0 short f member above rfl
    | succ k =>
      obtain ⟨b,onward,_⟩ := bind_eq_some_iff.mp below
      obtain ⟨f,member,rfl,_⟩ := parentOf_known onward
      exact fits.2 j (bounded j p above) (k + 1) short f member above below

theorem there_applied {s : State} {r : Request} (there : There s.folders id) : There (applied s r) id := by
  obtain ⟨f,member,rfl⟩ := there
  cases r with
  | create ownerId parentId => exact ⟨f,List.mem_append_left _ member,rfl⟩
  | move ownerId id parentId =>
    refine ⟨_,List.mem_map_of_mem member,?_⟩
    split <;> rfl

def Founded (folders : List Folder) (r : Request) : Prop := ∀ id, r.parentId = some id ∨ r.moved = some id → There folders id

theorem fresh_parent {nextId : Nat} (fresh : ∀ f ∈ folders, f.id < nextId ∧ ∀ q ∈ f.parentId, q < nextId) (k : Nat) :
    up (parentOf folders) k a = some nextId → k = 0 ∧ a = nextId := by
  intro reaches
  cases k with
  | zero => exact ⟨rfl,Option.some.inj reaches⟩
  | succ k =>
    obtain ⟨b,before⟩ := up_below (Nat.le_succ k) (by rw [reaches]; exact some_ne_none _)
    rw [up_succ before] at reaches
    obtain ⟨f,member,_,parent⟩ := parentOf_known reaches
    exact absurd rfl (Nat.ne_of_lt ((fresh f member).2 nextId parent))

theorem bounded_applied {s : State} {r : Request} (bounded : Bounded (parentOf s.folders) MAX_FOLDER_DEPTH)
    (fresh : ∀ f ∈ s.folders, f.id < s.nextId ∧ ∀ q ∈ f.parentId, q < s.nextId) (founded : Founded s.folders r) :
    Bounded (parentOf (applied s r)) MAX_FOLDER_DEPTH ↔ Stands s.folders r := by
  have absent : ∀ f ∈ s.folders, f.id ≠ s.nextId := fun f member => Nat.ne_of_lt (fresh f member).1
  cases r with
  | create ownerId parentId =>
    have now := parentOf_create s.folders ⟨s.nextId,ownerId,parentId,false⟩ absent
    have same : ∀ a, a ≠ s.nextId → parentOf (applied s (.create ownerId parentId)) a = parentOf s.folders a :=
      fun a other => (now a).trans (if_neg other)
    have put : parentOf (applied s (.create ownerId parentId)) s.nextId = parentId := (now _).trans (if_pos rfl)
    cases parentId with
    | none =>
      exact ⟨fun _ => trivial,fun _ => bounded_cut bounded same put⟩
    | some p =>
      refine ⟨fun after j _ above => ?_,fun room => ?_⟩
      · exact fits_of_bounded after (acyclic_of_bounded bounded) same put above (rfl : up _ 0 s.nextId = some s.nextId)
      · refine bounded_reparent bounded same put (fun k reaches => ?_) fun j k d above below => ?_
        · obtain ⟨f,member,here⟩ := founded p (.inl rfl)
          exact absent f member (here.trans (fresh_parent fresh k reaches).2)
        · rw [(fresh_parent fresh k below).1]
          exact room_all bounded room j above
  | move ownerId id parentId =>
    have there := founded id (.inr rfl)
    have same : ∀ a, a ≠ id → parentOf (applied s (.move ownerId id parentId)) a = parentOf s.folders a :=
      fun a other => (parentOf_move s.folders id a parentId there).trans (if_neg other)
    have put : parentOf (applied s (.move ownerId id parentId)) id = parentId :=
      (parentOf_move s.folders id id parentId there).trans (if_pos rfl)
    cases parentId with
    | none => exact ⟨fun _ => trivial,fun _ => bounded_cut bounded same put⟩
    | some p =>
      refine ⟨fun after => ⟨fun k _ => apart_of_bounded after same put k,fun j _ k _ f _ above below =>
        fits_of_bounded after (acyclic_of_bounded bounded) same put above below⟩,fun fits => ?_⟩
      obtain ⟨apart,room⟩ := fits_all bounded there fits
      exact bounded_reparent bounded same put apart room

def Apart (folders : List Folder) (r : Request) (p : Nat) : Prop := ∀ id ∈ r.moved, ∀ k, up (parentOf folders) k p ≠ some id

def OnTheWay (folders : List Folder) (p current : Nat) (seen : List Nat) (depth : Nat) : Prop :=
  up (parentOf folders) depth p = some current ∧ ∀ c ∈ seen, ∃ i ≤ depth, up (parentOf folders) i p = some c

/-- What the stage of a transaction says of the folders, unless they have been changed under its feet. -/
def FoundOut (folders : List Folder) (r : Request) : Stage → Prop
  | .climbing current seen => ∀ p ∈ r.parentId, ∃ depth, OnTheWay folders p current seen depth ∧
      ∀ id ∈ r.moved, ∀ i ≤ depth, up (parentOf folders) i p ≠ some id
  | .measuring current seen depth => ∀ p ∈ r.parentId, OnTheWay folders p current seen depth ∧ Apart folders r p
  | .sizing depth => ∀ p ∈ r.parentId, (∀ j, up (parentOf folders) j p ≠ none → j ≤ depth) ∧ Apart folders r p
  | .naming | .committing => Stands folders r
  | _ => True

structure TaskOk (folders : List Folder) (t : Task) : Prop where
  founded : t.stage.relies = true → Founded folders t.request
  locking : ∀ p, t.stage = .locking p → t.request.parentId = some p ∧ ∀ id ∈ t.request.moved, There folders id
  foundOut : t.disturbed = false → FoundOut folders t.request t.stage

variable {r : Request}

theorem way_ends {current depth : Nat} (reaches : up (parentOf folders) depth p = some current)
    (top : parentOf folders current = none) (j : Nat) (above : up (parentOf folders) j p ≠ none) : j ≤ depth := by
  by_contra farther
  obtain ⟨b,next⟩ := up_below (Nat.succ_le_of_lt (Nat.lt_of_not_le farther)) above
  rw [up_succ reaches,top] at next
  cases next

theorem onTheWay_next {current depth c : Nat} {seen : List Nat} (way : OnTheWay folders p current seen depth)
    (above : parentOf folders current = some c) : OnTheWay folders p c (c :: seen) (depth + 1) := by
  have next : up (parentOf folders) (depth + 1) p = some c := (up_succ way.1).trans above
  refine ⟨next,fun d member => ?_⟩
  rcases List.mem_cons.mp member with rfl | before
  · exact ⟨depth + 1,Nat.le_refl _,next⟩
  · obtain ⟨i,less,reaches⟩ := way.2 d before
    exact ⟨i,Nat.le_succ_of_le less,reaches⟩

theorem unseen (acyclic : Acyclic (parentOf folders)) {current depth c : Nat} {seen : List Nat}
    (way : OnTheWay folders p current seen depth) (above : parentOf folders current = some c) : c ∉ seen := by
  intro member
  obtain ⟨i,less,reaches⟩ := way.2 c member
  have same := up_unique acyclic reaches ((up_succ way.1).trans above)
  omega

theorem foundOut_start (apart : Apart folders r p) : OnTheWay folders p p [p] 0 ∧ Apart folders r p := by
  refine ⟨⟨rfl,fun c member => ⟨0,Nat.le_refl 0,?_⟩⟩,apart⟩
  rw [List.mem_singleton.mp member]
  rfl

theorem foundOut_climb (acyclic : Acyclic (parentOf folders)) (moved : r.moved = some id) (parent : r.parentId = some p)
    {current : Nat} {seen : List Nat} (found : FoundOut folders r (.climbing current seen)) :
    FoundOut folders r (climbTo id p (parentOf folders current) seen) := by
  obtain ⟨depth,way,apart⟩ := found p parent
  unfold climbTo
  cases above : parentOf folders current with
  | none =>
    intro q parent'
    cases mem_unique parent parent'
    refine foundOut_start fun id' moved' k below => ?_
    have short := way_ends way.1 above k (by rw [below]; exact some_ne_none id')
    exact apart id' moved' k short below
  | some c =>
    have next : up (parentOf folders) (depth + 1) p = some c := (up_succ way.1).trans above
    dsimp only
    split
    · trivial
    next other =>
    rw [if_neg (unseen acyclic way above)]
    intro q parent'
    cases mem_unique parent parent'
    refine ⟨depth + 1,onTheWay_next way above,fun id' moved' i less below => ?_⟩
    cases mem_unique moved moved'
    rcases Nat.lt_or_eq_of_le less with earlier | rfl
    · exact apart id moved i (Nat.le_of_lt_succ earlier) below
    · exact other (Option.mem_unique next below)

theorem foundOut_begin (folders : List Folder) (id : Nat) (parent : r.parentId = some p) :
    FoundOut folders r (climbTo id p (some p) []) ∨ r.moved ≠ some id := by
  by_cases moved : r.moved = some id
  · left
    unfold climbTo
    dsimp only
    split
    · trivial
    next other =>
    intro q parent'
    cases mem_unique parent parent'
    refine ⟨0,⟨rfl,fun c member => ⟨0,Nat.le_refl 0,?_⟩⟩,fun id' moved' i less below => ?_⟩
    · rw [List.mem_singleton.mp member]
      rfl
    · cases mem_unique moved moved'
      obtain rfl := Nat.le_zero.mp less
      exact other (Option.some.inj below)
  · exact .inr moved

theorem foundOut_measure (acyclic : Acyclic (parentOf folders)) {current depth : Nat} {seen : List Nat}
    (found : FoundOut folders r (.measuring current seen depth)) :
    FoundOut folders r (measureTo r (parentOf folders current) seen depth) := by
  unfold measureTo
  cases above : parentOf folders current with
  | none =>
    unfold measured
    cases r with
    | create ownerId parentId =>
      dsimp only
      split
      · trivial
      next room =>
      cases parentId with
      | none => trivial
      | some q =>
        intro j _ farther
        have short := way_ends (found q rfl).1.1 above j farther
        omega
    | move ownerId id parentId =>
      intro q parent
      exact ⟨way_ends (found q parent).1.1 above,(found q parent).2⟩
  | some c =>
    dsimp only
    split
    · next member =>
      cases parent : r.parentId with
      | none =>
        unfold measured
        cases r with
        | create ownerId parentId =>
          cases parent
          dsimp only
          split <;> trivial
        | move ownerId id parentId =>
          cases parent
          exact nofun
      | some q => exact absurd member (unseen acyclic (found q parent).1 above)
    · exact fun q parent => ⟨onTheWay_next (found q parent).1 above,(found q parent).2⟩

theorem foundOut_size (moved : r.moved = some id) (there : There folders id) {depth height : Nat}
    (known : getSubtreeHeight folders id = some height) (found : FoundOut folders r (.sizing depth))
    (room : ¬ MAX_FOLDER_DEPTH < depth + 1 + height) : FoundOut folders r .naming := by
  cases r with
  | create ownerId parentId => cases moved
  | move ownerId id' parentId =>
    cases moved
    cases parentId with
    | none => trivial
    | some q =>
      obtain ⟨deep,apart⟩ := found q rfl
      refine ⟨fun k _ => apart id rfl k,fun j _ k _ f _ above below => ?_⟩
      have shallow := deep j above
      have short := below_height there known below
      omega

structure Inv (s : State) : Prop where
  bounded : Bounded (parentOf s.folders) MAX_FOLDER_DEPTH
  fresh : ∀ f ∈ s.folders, f.id < s.nextId ∧ ∀ q ∈ f.parentId, q < s.nextId
  tasks : ∀ (n : Nat) (t : Task), s.tasks[n]? = some t → TaskOk s.folders t

variable {s : State} {n : Nat} {t : Task}

theorem taskOk_ended {t : Task} {result : Result} (ended : t.stage = .ended result) : TaskOk folders t := by
  refine ⟨fun relies => ?_,fun p locking => ?_,fun _ => ?_⟩
  · rw [ended] at relies
    cases relies
  · rw [ended] at locking
    cases locking
  · rw [ended]
    trivial

theorem inv_task (inv : Inv s) (t' : Task) (ok : TaskOk s.folders t') : Inv { s with tasks := s.tasks.set n t' } := by
  refine ⟨inv.bounded,inv.fresh,fun m d found => ?_⟩
  rcases at_of_set found with ⟨_,rfl⟩ | ⟨_,known⟩
  · exact ok
  · exact inv.tasks m d known

theorem inv_ends (inv : Inv s) (t : Task) (result : Result) : Inv (s.ends n t result) := inv_task inv _ (taskOk_ended rfl)

theorem inv_proceeds (inv : Inv s) (t : Task) {stage : Stage} (ok : TaskOk s.folders { t with stage }) : Inv (s.proceeds n t stage) := by
  cases stage with
  | ended result => exact inv_ends inv t result
  | _ => exact inv_task inv _ ok

theorem inv_reads (inv : Inv s) (t : Task) {stage : Stage} (founded : Founded s.folders t.request) (unlocked : ∀ q, stage ≠ .locking q)
    (found : t.disturbed = false → FoundOut s.folders t.request stage) : Inv (s.proceeds n t stage) :=
  inv_proceeds inv t ⟨fun _ => founded,fun q locking => absurd locking (unlocked q),found⟩

theorem climbTo_unlocked (id p : Nat) (next : Option Nat) (seen : List Nat) (q : Nat) : climbTo id p next seen ≠ .locking q := by
  unfold climbTo measureFrom
  split
  · exact nofun
  · split
    · exact nofun
    · split <;> exact nofun

theorem measured_unlocked (r : Request) (depth q : Nat) : measured r depth ≠ .locking q := by
  unfold measured
  split
  · split <;> exact nofun
  · exact nofun

theorem measureTo_unlocked (r : Request) (next : Option Nat) (seen : List Nat) (depth q : Nat) :
    measureTo r next seen depth ≠ .locking q := by
  unfold measureTo
  split
  · exact measured_unlocked r depth q
  · split
    · exact measured_unlocked r (depth + 1) q
    · exact nofun

theorem inv_locks (inv : Inv s) {ownerId : Nat} {next : Stage}
    (ok : There s.folders id → TaskOk s.folders { t with stage := next }) : Inv (s.locks n t id ownerId next) := by
  unfold State.locks
  split
  · exact inv
  · split
    · next found =>
      have held := ok (there_of_owned found)
      exact inv_proceeds inv { t with held := id :: t.held } { held with }
    · exact inv_ends inv t _

theorem fresh_applied (inv : Inv s) {r : Request} (founded : Founded s.folders r) :
    ∀ f ∈ applied s r, f.id < s.nextId + 1 ∧ ∀ q ∈ f.parentId, q < s.nextId + 1 := by
  have known : ∀ q, There s.folders q → q < s.nextId + 1 := by
    rintro q ⟨g,among,rfl⟩
    exact Nat.lt_succ_of_lt (inv.fresh g among).1
  have before : ∀ f ∈ s.folders, f.id < s.nextId + 1 ∧ ∀ q ∈ f.parentId, q < s.nextId + 1 := fun f member =>
    ⟨Nat.lt_succ_of_lt (inv.fresh f member).1,fun q parent => Nat.lt_succ_of_lt ((inv.fresh f member).2 q parent)⟩
  intro f member
  cases r with
  | create ownerId parentId =>
    rcases List.mem_append.mp member with old | new
    · exact before f old
    · rw [List.mem_singleton.mp new]
      exact ⟨Nat.lt_succ_self _,fun q parent => known q (founded q (.inl parent))⟩
  | move ownerId id parentId =>
    obtain ⟨g,old,rfl⟩ := List.mem_map.mp member
    split
    · exact ⟨(before g old).1,fun q parent => known q (founded q (.inl parent))⟩
    · exact before g old

theorem inv_commits (inv : Inv s) (stands : Stands s.folders t.request) (founded : Founded s.folders t.request) :
    Inv (s.commits n t) := by
  refine ⟨(bounded_applied inv.bounded inv.fresh founded).mpr stands,fresh_applied inv founded,fun m d found => ?_⟩
  · rcases at_of_set found with ⟨_,rfl⟩ | ⟨_,known⟩
    · exact taskOk_ended rfl
    rw [List.getElem?_map] at known
    obtain ⟨e,before,rfl⟩ := Option.map_eq_some_iff.mp known
    have ok := inv.tasks m e before
    refine ⟨fun relies id refers => there_applied (ok.founded relies id refers),fun q locking => ?_,fun calm => ?_⟩
    · obtain ⟨parent,there⟩ := ok.locking q locking
      exact ⟨parent,fun id moved => there_applied (there id moved)⟩
    · -- whoever relies on what it has read is disturbed
      have idle : e.stage.relies = false := (Bool.or_eq_false_iff.mp (show (e.disturbed || e.stage.relies) = false from calm)).2
      show FoundOut _ e.request e.stage
      cases stage : e.stage with
      | beginning | locking _ | ended _ => trivial
      | climbing | measuring | sizing | naming | committing =>
        rw [stage] at idle
        cases idle

theorem founded_none {r : Request} (parent : r.parentId = none) (there : ∀ id ∈ r.moved, There folders id) : Founded folders r := by
  rintro id (below | moved)
  · exact nomatch parent.symm.trans below
  · exact there id moved

theorem inv_advance (inv : Inv s) (there : s.tasks[n]? = some t)
    (settled : t.stage = .committing → t.disturbed = true → Stands s.folders t.request) : Inv (s.advance n t) := by
  have ok := inv.tasks n t there
  have acyclic := acyclic_of_bounded inv.bounded
  unfold State.advance
  cases stage : t.stage with
  | beginning =>
    cases asked : t.request with
    | create ownerId parentId => cases parentId with
      | none =>
        refine inv_task inv _ ⟨fun _ => ?_,(fun q locking => nomatch locking),fun _ => ?_⟩
        · exact founded_none (by rw [asked]; rfl) fun id moved => by rw [asked] at moved; cases moved
        · rw [asked]
          trivial
      | some p =>
        dsimp only
        split
        · next found =>
          refine inv_task inv _ ⟨fun _ id refers => ?_,(fun q locking => nomatch locking),fun _ q parent => ?_⟩
          · rcases refers with parent | moved
            · rw [show t.request = _ from asked] at parent
              cases parent
              exact there_of_owned found
            · rw [show t.request = _ from asked] at moved
              cases moved
          · rw [show t.request = _ from asked] at parent
            cases parent
            exact foundOut_start fun id moved => by
              rw [show t.request = _ from asked] at moved
              cases moved
        · exact inv_ends inv t _
    | move ownerId id parentId => cases parentId with
      | none =>
        refine inv_locks inv fun known => ⟨fun _ => ?_,(fun q locking => nomatch locking),fun _ => ?_⟩
        · exact founded_none (by rw [asked]; rfl) fun id' moved => by
            rw [asked] at moved
            cases moved
            exact known
        · rw [asked]
          trivial
      | some p =>
        refine inv_locks inv fun known => ?_
        split
        · exact taskOk_ended rfl
        refine ⟨(nofun),fun q locking => ?_,fun _ => trivial⟩
        cases locking
        refine ⟨by rw [asked]; rfl,fun id' moved => ?_⟩
        rw [show t.request = _ from asked] at moved
        cases moved
        exact known
  | locking p =>
    obtain ⟨parent,movedThere⟩ := ok.locking p stage
    cases asked : t.request with
    | create ownerId parentId => exact inv
    | move ownerId id parentId =>
      have moved : t.request.moved = some id := by rw [asked]; rfl
      refine inv_locks inv fun known => ⟨fun _ q refers => ?_,fun q locking => absurd locking (climbTo_unlocked id p (some p) [] q),fun _ => ?_⟩
      · rcases refers with above | below
        · cases mem_unique parent above
          exact known
        · exact movedThere q below
      · rcases foundOut_begin s.folders id parent with found | other
        · exact found
        · exact absurd moved other
  | climbing current seen =>
    cases asked : t.request with
    | create ownerId parentId => exact inv
    | move ownerId id parentId => cases parentId with
      | none => exact inv
      | some p =>
        refine inv_reads inv t (ok.founded (by rw [stage]; rfl)) (climbTo_unlocked _ _ _ _) fun calm => ?_
        exact foundOut_climb acyclic (by rw [asked]; rfl) (by rw [asked]; rfl) (stage ▸ ok.foundOut calm)
  | measuring current seen depth =>
    exact inv_reads inv t (ok.founded (by rw [stage]; rfl)) (measureTo_unlocked _ _ _ _) fun calm =>
      foundOut_measure acyclic (stage ▸ ok.foundOut calm)
  | sizing depth =>
    have founded := ok.founded (by rw [stage]; rfl)
    cases known : t.request.moved.bind (getSubtreeHeight s.folders) with
    | none => exact inv
    | some height =>
      obtain ⟨id,moved,size⟩ := bind_eq_some_iff.mp known
      dsimp only
      split
      · exact inv_ends inv t _
      · next room =>
        exact inv_reads inv t founded (fun q => nofun) fun calm =>
          foundOut_size moved (founded id (.inr moved)) size (stage ▸ ok.foundOut calm) room
  | naming | ended _ => exact inv
  | committing =>
    refine inv_commits inv ?_ (ok.founded (by rw [stage]; rfl))
    cases calm : t.disturbed with
    | true => exact settled stage calm
    | false =>
      have found := ok.foundOut calm
      rw [stage] at found
      exact found

theorem inv_step (inv : Inv s) {l : Label} (settled : Settled s l) : Inv (step s l) := by
  unfold step
  cases l with
  | request r =>
    refine ⟨inv.bounded,inv.fresh,fun m d found => ?_⟩
    rcases at_of_append found with known | ⟨_,rfl⟩
    · exact inv.tasks m d known
    · exact ⟨(nofun),(fun q locking => nomatch locking),fun _ => trivial⟩
  | go n =>
    dsimp only
    cases there : s.tasks[n]? with
    | none => exact inv
    | some t => exact inv_advance inv there (settled t there)
  | named n free =>
    dsimp only
    cases there : s.tasks[n]? with
    | none => exact inv
    | some t =>
      dsimp only
      split
      · next naming =>
        have ok := inv.tasks n t there
        split
        · refine inv_task inv _ ⟨fun _ => ok.founded (by rw [naming]; rfl),(fun q locking => nomatch locking),fun calm => ?_⟩
          have found := ok.foundOut calm
          rw [naming] at found
          exact found
        · exact inv_ends inv t _
      · exact inv
  | abort n =>
    dsimp only
    cases there : s.tasks[n]? with
    | none => exact inv
    | some t =>
      dsimp only
      split
      · exact inv_ends inv t _
      · exact inv

theorem unused_above (folders : List Folder) : ∀ f ∈ folders, f.id < unused folders ∧ ∀ q ∈ f.parentId, q < unused folders := by
  induction folders with
  | nil => exact nofun
  | cons g rest ih =>
    intro f member
    have bound : unused (g :: rest) = max (unused rest) (max (g.id + 1) (g.parentId.getD 0 + 1)) := rfl
    rcases List.mem_cons.mp member with rfl | later
    · refine ⟨by omega,fun q parent => ?_⟩
      rw [show f.parentId = some q from parent] at bound
      simp only [Option.getD_some] at bound
      omega
    · obtain ⟨below,parents⟩ := ih f later
      exact ⟨by omega,fun q parent => by have := parents q parent; omega⟩

theorem inv_start {folders : List Folder} (forest : Forest folders) : Inv (.start folders) :=
  ⟨forest.shallow,unused_above folders,nofun⟩

end

/-- The folders stay a forest, and a commit keeps it exactly when its checks stand. -/
theorem folders_forest {folders : List Folder} (forest : Forest folders) {s : State} (reach : Reached folders s) :
    Forest s.folders ∧ ∀ (n : Nat) (t : Task), s.tasks[n]? = some t → t.stage = .committing →
      (Forest (step s (.go n)).folders ↔ Stands s.folders t.request) := by
  have inv : Inv s := reachable_invariant (inv_start forest) (fun _ _ inv settled => inv_step inv settled) reach
  refine ⟨forest_of_bounded inv.bounded,fun n t there committing => ?_⟩
  have founded := (inv.tasks n t there).founded (by rw [committing]; rfl)
  have after : (step s (.go n)).folders = applied s t.request := by
    unfold step
    dsimp only
    rw [there]
    dsimp only
    unfold State.advance
    rw [committing]
    rfl
  rw [after,← bounded_applied inv.bounded inv.fresh founded]
  exact ⟨Forest.shallow,forest_of_bounded⟩

theorem forest_nil : Forest [] := forest_of_bounded fun k a above => by
  cases k with
  | zero => exact Nat.zero_le _
  | succ k => exact absurd rfl above

def creating (n : Nat) : Option Nat → List Label
  | none => [.request (.create 7 none),.go n,.named n true,.go n]
  | some p => [.request (.create 7 (some p)),.go n,.go n,.named n true,.go n]

def checking (n reads : Nat) : List Label := List.replicate reads (Label.go n) ++ [Label.named n true]

def movedBelow : List Label :=
  creating 0 none ++ creating 1 (some 0) ++ creating 2 none ++ [Label.request (.move 7 0 (some 2))] ++ checking 3 5 ++ [Label.go 3]

theorem folders_forest_movedBelow :
    (Forest (movedBelow.foldl step (.start [])).folders ∧ ∀ (n : Nat) (t : Task),
      (movedBelow.foldl step (.start [])).tasks[n]? = some t → t.stage = .committing →
        (Forest (step (movedBelow.foldl step (.start [])) (.go n)).folders ↔
          Stands (movedBelow.foldl step (.start [])).folders t.request)) ∧
      (movedBelow.foldl step (.start [])).folders =
        [⟨0,7,some 2,false⟩,⟨1,7,some 0,false⟩,⟨2,7,none,false⟩] :=
  ⟨folders_forest forest_nil (reachable_run .start movedBelow (by decide +kernel)),by decide +kernel⟩

def crossed : List Label :=
  creating 0 none ++ creating 1 (some 0) ++ creating 2 none ++ creating 3 (some 2) ++
    [Label.request (.move 7 0 (some 3)),.request (.move 7 2 (some 1))] ++ checking 4 7 ++ checking 5 7 ++ [Label.go 4,.go 5]

theorem crossed_moves : ¬ ∀ folders, Forest folders → ∀ s : State,
    Reachable step (fun _ _ => True) (.start folders) s → Forest s.folders := by
  intro always
  have acyclic := (always [] forest_nil _ (reachable_run .start crossed (by decide +kernel))).acyclic 4 0 (by decide)
  revert acyclic
  decide +kernel

end Tgtc.FolderForest
