import Mathlib
import Tgtc.DirectoryChanges
import Tgtc.FolderForest
import Tgtc.Forests
import Tgtc.Maps
import Tgtc.Runs

/-!
What lies below a folder in the trash. A deletion takes all that is below the folder, and a restoration brings back
what was taken at the same time, when nothing above the folder is in the trash.
-/
namespace Tgtc.DirectoryTrash
open Runs Maps Forests Directory DirectoryChanges
open FolderMoves (parentOf level getSubtreeHeight)
open FolderForest (parentOf_known level_empty)
open List (find?_map find?_some mem_cons mem_cons_of_mem mem_cons_self mem_filter mem_map mem_map_of_mem mem_singleton)

inductive Listed (s : State) (ownerId : Nat) : Option Nat → Prop
  | top : Listed s ownerId none
  | inside {f : Folder} (there : f ∈ s.folders) (owner : f.ownerId = ownerId) (live : f.isDeleted = false)
      (above : Listed s ownerId f.parentId) : Listed s ownerId (some f.id)

/-- Every folder on the way up from a place is there, the owner's, and not in the trash. -/
def Clear (s : State) (ownerId : Nat) (folderId : Option Nat) : Prop :=
  ∀ p ∈ folderId, ∀ k a, up (parentOf (rows s.folders)) k p = some a → Owned s ownerId a

/-- Nothing that is not in the trash is below something that is. -/
structure Visible (s : State) : Prop where
  folders : ∀ f ∈ s.folders, f.isDeleted = false → Clear s f.ownerId f.parentId ∧ Listed s f.ownerId f.parentId
  files : ∀ f ∈ s.files, f.isDeleted = false → Clear s f.uploaderId f.folderId ∧ Listed s f.uploaderId f.folderId

def Live (s : State) (id : Nat) : Prop := ∃ f ∈ s.folders, f.id = id ∧ f.isDeleted = false

instance (s : State) (id : Nat) : Decidable (Live s id) := inferInstanceAs (Decidable (∃ f ∈ s.folders, _ ∧ _))

instance (s : State) (ownerId id : Nat) : Decidable (Owned s ownerId id) := by
  unfold Owned
  infer_instance

/-- What is restored goes to a folder outside the trash, and an administrator's deletion comes back only
with the folder it lies in. -/
def Places (nameKey : String → String) (s : State) : Label → Prop
  | .restoreFolder ownerId id => (restoreFolder nameKey s ownerId id).toBool = true →
      ∀ folder ∈ s.folders, folder.id = id → ∀ folderIds ∈ collectSubtreeIds s.folders id, ∀ f ∈ s.files,
        f.deletedByAdmin = true → within folderIds f.folderId = true → folder.batch f.deleteRequestedAt f.deleteScheduledAt = true →
          ∀ g ∈ s.folders, f.folderId = some g.id → g.isDeleted = true → folder.batch g.deleteRequestedAt g.deleteScheduledAt = true
  | .restoreDelete id user => (restoreDelete nameKey s id user).toBool = true →
      ∀ f ∈ s.files, f.id = id → ∀ p ∈ f.folderId, Live s p
  | .uploadToTelegram n => ∀ job ∈ s.jobs[n]?, (uploadToTelegram nameKey (s.takes n) job).toBool = true →
      ∀ p ∈ job.folderId, Owned s job.user.id p
  | _ => True

instance (nameKey : String → String) (s : State) (l : Label) : Decidable (Places nameKey s l) := by
  induction l using Label.casesOn <;> unfold Places <;> infer_instance

abbrev Reached (nameKey : String → String) : State → Prop := Reachable (step nameKey) (Places nameKey) .start

section
variable {nameKey : String → String} {s s' : State} {l : Label}

variable {ownerId : Nat} {folderIds : List Nat} {folders : List Folder} {isDeleted : Bool} {g : Folder} {folderId scheduled : Option Nat} {p : Nat} {f : Folder} {rootId : Nat} {folder : Folder} {deleteScheduledAt : Option Nat} {a k : Nat} {isDeleted' : Bool} {scheduled' : Option Nat} {t : Nat}

theorem parentOf_same {change : Folder → Folder} (same : ∀ f, (change f).id = f.id)
    (parent : ∀ f, (change f).parentId = f.parentId) : parentOf (rows (folders.map change)) = parentOf (rows folders) := by
  funext a
  unfold parentOf rows
  rw [List.map_map,find?_map,find?_map]
  have pick : ((fun f : FolderMoves.Folder => decide (f.id = a)) ∘ Folder.toFolder ∘ change) =
      (fun f : FolderMoves.Folder => decide (f.id = a)) ∘ Folder.toFolder := by
    funext f
    show decide ((change f).id = a) = decide (f.id = a)
    rw [same f]
  rw [pick]
  cases folders.find? ((fun f : FolderMoves.Folder => decide (f.id = a)) ∘ Folder.toFolder) with
  | none => rfl
  | some f => exact parent f

theorem parentOf_there (above : parentOf (rows s.folders) a = some p) :
    ∃ f ∈ s.folders, f.id = a ∧ f.parentId = some p := by
  obtain ⟨row,member,here,parent⟩ := parentOf_known above
  obtain ⟨f,there,rfl⟩ := mem_map.mp member
  exact ⟨f,there,here,parent⟩

theorem parentOf_folder (ids : Ids s) (there : f ∈ s.folders) : parentOf (rows s.folders) f.id = f.parentId := by
  unfold parentOf rows
  rw [find?_map]
  cases found : s.folders.find? ((fun row : FolderMoves.Folder => decide (row.id = f.id)) ∘ Folder.toFolder) with
  | none => exact absurd (List.find?_eq_none.mp found f there) (by simp)
  | some g =>
    have here : g.id = f.id := by simpa using find?_some found
    exact congrArg (fun h : Folder => h.parentId) (folder_unique ids (List.mem_of_find?_eq_some found) there here)

/-! ### What is not below a folder -/

theorem climbs_apart {x : Nat} {rounds current : Nat} {seen : List Nat}
    (apart : climbs folders x rounds seen current = false) (unseen : x ∉ seen)
    (climbed : ∀ a ∈ seen, ∀ q, parentOf (rows folders) a = some q → q ∈ seen ∨ q = current)
    (distinct : seen.Nodup) (known : seen ⊆ (rows folders).map FolderMoves.Folder.id)
    (enough : folders.length < rounds + seen.length) :
    ∃ met : List Nat, current ∈ met ∧ x ∉ met ∧ ∀ a ∈ met, ∀ q, parentOf (rows folders) a = some q → q ∈ met := by
  induction rounds generalizing seen current with
  | zero =>
    have bound := (List.subperm_of_subset distinct known).length_le
    simp only [rows,List.length_map] at bound
    omega
  | succ rounds ih =>
    unfold climbs at apart
    split at apart
    · cases apart
    next other =>
    split at apart
    · next again =>
      refine ⟨seen,again,unseen,fun a among q above => ?_⟩
      rcases climbed a among q above with member | rfl
      · exact member
      · exact again
    · next fresh =>
      have unmet : x ∉ current :: seen := by
        intro among
        rcases mem_cons.mp among with rfl | member
        · exact other rfl
        · exact unseen member
      cases above : parentOf (rows folders) current with
      | none =>
        refine ⟨current :: seen,mem_cons_self,unmet,fun a among q parent => ?_⟩
        rcases mem_cons.mp among with rfl | member
        · rw [above] at parent
          cases parent
        · rcases climbed a member q parent with member | rfl
          · exact mem_cons_of_mem _ member
          · exact mem_cons_self
      | some p =>
        rw [above] at apart
        obtain ⟨row,listed,here,_⟩ := parentOf_known above
        have onward := ih apart unmet
          (by
            intro a among q parent
            rcases mem_cons.mp among with rfl | member
            · rw [above] at parent
              exact .inr (Option.some.inj parent).symm
            · rcases climbed a member q parent with member | rfl
              · exact .inl (mem_cons_of_mem _ member)
              · exact .inl mem_cons_self)
          (List.nodup_cons.mpr ⟨fresh,distinct⟩)
          (List.cons_subset.mpr ⟨here ▸ mem_map_of_mem listed,known⟩)
          (by simp only [List.length_cons]; omega)
        obtain ⟨met,next,unmet,closed⟩ := onward
        refine ⟨current :: met,mem_cons_self,?_,fun a among q parent => ?_⟩
        · intro among
          rcases mem_cons.mp among with rfl | member
          · exact other rfl
          · exact unmet member
        · rcases mem_cons.mp among with rfl | member
          · rw [above] at parent
            cases parent
            exact mem_cons_of_mem _ next
          · exact mem_cons_of_mem _ (closed a member q parent)

theorem apart_of_descendant {x : Nat} (apart : isDescendantOf folders p x = false) (k : Nat) :
    up (parentOf (rows folders)) k p ≠ some x := by
  obtain ⟨met,start,unmet,closed⟩ := climbs_apart apart List.not_mem_nil (nofun) List.nodup_nil
    (List.nil_subset _) (by omega)
  have stays : ∀ k a b, a ∈ met → up (parentOf (rows folders)) k a = some b → b ∈ met := by
    intro k
    induction k with
    | zero =>
      rintro a b among ⟨⟩
      exact among
    | succ k ih =>
      intro a b among above
      obtain ⟨q,parent,onward⟩ := Option.bind_eq_some_iff.mp above
      exact ih q b (closed a among q parent) onward
  exact fun there => unmet (stays k p x start there)

theorem mem_level_zero {id : Nat} (among : id ∈ level (rows folders) rootId 0) : id = rootId := by
  obtain ⟨row,there,rfl⟩ := mem_map.mp among
  exact of_decide_eq_true (mem_filter.mp there).2

theorem mem_level_succ {id : Nat} :
    id ∈ level (rows folders) rootId (k + 1) ↔
      ∃ f ∈ folders, f.id = id ∧ ∃ p, f.parentId = some p ∧ p ∈ level (rows folders) rootId k := by
  constructor
  · intro among
    obtain ⟨row,there,rfl⟩ := mem_map.mp among
    obtain ⟨listed,parent⟩ := mem_filter.mp there
    obtain ⟨f,member,rfl⟩ := mem_map.mp listed
    obtain ⟨p,above,below⟩ := (Option.any_eq_true _ _).mp parent
    exact ⟨f,member,rfl,p,above,of_decide_eq_true below⟩
  · rintro ⟨f,member,rfl,p,above,below⟩
    refine mem_map.mpr ⟨f.toFolder,mem_filter.mpr ⟨mem_map_of_mem member,?_⟩,rfl⟩
    rw [above]
    exact decide_eq_true below

theorem collected_levels
    (collected : collectSubtreeIds folders rootId = some folderIds) :
    ∃ height, level (rows folders) rootId (height + 1) = [] ∧
      ∀ id, id ∈ folderIds ↔ ∃ k ≤ height, id ∈ level (rows folders) rootId k := by
  obtain ⟨height,measured,rfl⟩ := Option.map_eq_some_iff.mp collected
  refine ⟨height,List.isEmpty_iff.mp (by simpa using find?_some measured),fun id => ?_⟩
  rw [List.mem_flatMap]
  constructor
  · rintro ⟨k,less,member⟩
    exact ⟨k,Nat.le_of_lt_succ (List.mem_range.mp less),member⟩
  · rintro ⟨k,less,member⟩
    exact ⟨k,List.mem_range.mpr (Nat.lt_succ_of_le less),member⟩

theorem collected_child
    (collected : collectSubtreeIds folders rootId = some folderIds) (there : f ∈ folders) (parent : f.parentId = some p)
    (among : p ∈ folderIds) : f.id ∈ folderIds := by
  obtain ⟨height,empty,levels⟩ := collected_levels collected
  obtain ⟨k,less,member⟩ := (levels p).mp among
  have next : f.id ∈ level (rows folders) rootId (k + 1) := mem_level_succ.mpr ⟨f,there,rfl,p,parent,member⟩
  rcases Nat.lt_or_eq_of_le less with lower | rfl
  · exact (levels f.id).mpr ⟨k + 1,lower,next⟩
  · rw [empty] at next
    cases next

theorem collected_parent (ids : Ids s)
    (collected : collectSubtreeIds s.folders rootId = some folderIds) (there : f ∈ s.folders) (among : f.id ∈ folderIds) :
    f.id = rootId ∨ ∃ p, f.parentId = some p ∧ p ∈ folderIds := by
  obtain ⟨height,_,levels⟩ := collected_levels collected
  obtain ⟨k,less,member⟩ := (levels f.id).mp among
  cases k with
  | zero => exact .inl (mem_level_zero member)
  | succ k =>
    obtain ⟨g,listed,same,p,parent,below⟩ := mem_level_succ.mp member
    rw [folder_unique ids listed there same] at parent
    exact .inr ⟨p,parent,(levels p).mpr ⟨k,Nat.le_of_succ_le less,below⟩⟩

structure Under (g : Folder) (ownerId : Nat) (isDeleted : Bool) (deleteScheduledAt : Option Nat) : Prop where
  owner : g.ownerId = ownerId
  gone : g.isDeleted = true → isDeleted = true
  sooner : g.isDeleted = true → ∀ t ∈ deleteScheduledAt, ∀ u ∈ g.deleteScheduledAt, t ≤ u

def Lies (folders : List Folder) (folderId : Option Nat) (ownerId : Nat) (isDeleted : Bool) (deleteScheduledAt : Option Nat) : Prop :=
  ∀ p ∈ folderId, ∃ g ∈ folders, g.id = p ∧ Under g ownerId isDeleted deleteScheduledAt

def deletion (f : File) : Option Nat := if f.deletedByAdmin then none else f.deleteScheduledAt

structure Inv (s : State) : Prop where
  ids : Ids s
  grounded : Grounded (parentOf (rows s.folders))
  folders : ∀ f ∈ s.folders, Lies s.folders f.parentId f.ownerId f.isDeleted f.deleteScheduledAt
  files : ∀ f ∈ s.files, Lies s.folders f.folderId f.uploaderId f.isDeleted (deletion f)
  scheduled : ∀ f ∈ s.folders, f.isDeleted = true → ∃ t, f.deleteScheduledAt = some t
  foldersUntil : ∀ f ∈ s.folders, ∀ t ∈ f.deleteScheduledAt, t ≤ s.now + FILE_DELETE_GRACE_MS
  filesUntil : ∀ f ∈ s.files, ∀ t ∈ f.deleteScheduledAt, t ≤ s.now + FILE_DELETE_GRACE_MS

theorem under_live (live : g.isDeleted = false)
    (owner : g.ownerId = ownerId) : Under g ownerId isDeleted deleteScheduledAt where
  owner := owner
  gone gone := absurd gone (by rw [live]; exact Bool.false_ne_true)
  sooner gone := absurd gone (by rw [live]; exact Bool.false_ne_true)

theorem lies_placed (placed : Placed s ownerId folderId) :
    Lies s.folders folderId ownerId isDeleted deleteScheduledAt := by
  intro p given
  obtain ⟨g,there,here,owner,live⟩ := placed p given
  exact ⟨g,there,here,under_live live owner⟩

theorem lies_live
    (lies : Lies folders folderId ownerId false deleteScheduledAt) : Lies folders folderId ownerId isDeleted scheduled := by
  intro p given
  obtain ⟨g,there,here,under⟩ := lies p given
  exact ⟨g,there,here,under_live (eq_false_of_ne_true fun gone => nomatch under.gone gone) under.owner⟩

theorem lies_map {change : Folder → Folder}
    (id : ∀ g ∈ folders, (change g).id = g.id) (owner : ∀ g ∈ folders, (change g).ownerId = g.ownerId)
    (deleted : ∀ g ∈ folders, (change g).isDeleted = g.isDeleted)
    (scheduled : ∀ g ∈ folders, (change g).deleteScheduledAt = g.deleteScheduledAt)
    (lies : Lies folders folderId ownerId isDeleted deleteScheduledAt) :
    Lies (folders.map change) folderId ownerId isDeleted deleteScheduledAt := by
  intro p given
  obtain ⟨g,there,here,under⟩ := lies p given
  refine ⟨change g,mem_map_of_mem there,(id g there).trans here,⟨(owner g there).trans under.owner,?_,?_⟩⟩
  · rw [deleted g there]
    exact under.gone
  · rw [deleted g there,scheduled g there]
    exact under.sooner

theorem inv_files (inv : Inv s) (ids : Ids s') (folders : s'.folders = s.folders) (now : s'.now = s.now)
    (files : ∀ f ∈ s'.files, f ∈ s.files ∨ Lies s.folders f.folderId f.uploaderId f.isDeleted (deletion f) ∧
      ∀ t ∈ f.deleteScheduledAt, t ≤ s.now + FILE_DELETE_GRACE_MS) : Inv s' where
  ids := ids
  grounded := folders ▸ inv.grounded
  folders := folders ▸ inv.folders
  files f there := by
    rw [folders]
    rcases files f there with before | ⟨lies,_⟩
    · exact inv.files f before
    · exact lies
  scheduled := folders ▸ inv.scheduled
  foldersUntil := by
    rw [folders,now]
    exact inv.foldersUntil
  filesUntil f there := by
    rw [now]
    rcases files f there with before | ⟨_,deadline⟩
    · exact inv.filesUntil f before
    · exact deadline

theorem inv_saveFile (inv : Inv s) (ids : Ids s') {g : File} (folders : s'.folders = s.folders) (now : s'.now = s.now)
    (files : s'.files = saveFile s.files g) (lies : Lies s.folders g.folderId g.uploaderId g.isDeleted (deletion g))
    (deadline : ∀ t ∈ g.deleteScheduledAt, t ≤ s.now + FILE_DELETE_GRACE_MS) : Inv s' := by
  refine inv_files inv ids folders now fun f there => ?_
  rw [files] at there
  rcases (mem_save File.id).mp there with ⟨rfl,_⟩ | ⟨before,_⟩
  · exact .inr ⟨lies,deadline⟩
  · exact .inl before

/-! ### Folders -/

theorem up_there (inv : Inv s) (start : ∃ f ∈ s.folders, f.id = p) (above : up (parentOf (rows s.folders)) k p = some a) :
    ∃ f ∈ s.folders, f.id = a := by
  induction k generalizing p with
  | zero =>
    cases above
    exact start
  | succ k ih =>
    obtain ⟨q,parent,onward⟩ := Option.bind_eq_some_iff.mp above
    obtain ⟨f,there,_,given⟩ := parentOf_there parent
    obtain ⟨g,known,here,_⟩ := inv.folders f there q given
    exact ih ⟨g,known,here⟩ onward

theorem inv_createFolder (inv : Inv s) (ids : Ids s') (next : f.id = s.nextId) (live : f.isDeleted = false)
    (unscheduled : f.deleteScheduledAt = none) (placed : Placed s f.ownerId f.parentId) (folders : s'.folders = s.folders ++ [f])
    (files : s'.files = s.files) (now : s'.now = s.now) : Inv s' := by
  have fresh : ∀ g ∈ s.folders, g.id ≠ f.id := fun g member =>
    Nat.ne_of_lt (next ▸ inv.ids.fresh g.id (List.mem_append_left _ (mem_map_of_mem (f := fun h : Folder => h.id) member)))
  have more : ∀ {folderId ownerId isDeleted deleteScheduledAt}, Lies s.folders folderId ownerId isDeleted deleteScheduledAt →
      Lies s'.folders folderId ownerId isDeleted deleteScheduledAt := by
    intro folderId ownerId isDeleted deleteScheduledAt lies p given
    obtain ⟨g,there,found⟩ := lies p given
    exact ⟨g,folders ▸ List.mem_append_left _ there,found⟩
  have split : ∀ g ∈ s'.folders, g ∈ s.folders ∨ g = f := by
    intro g there
    rw [folders] at there
    exact (List.mem_append.mp there).imp_right mem_singleton.mp
  have parents : ∀ a, parentOf (rows s'.folders) a = if a = f.id then f.parentId else parentOf (rows s.folders) a := by
    intro a
    have appended : rows s'.folders = rows s.folders ++ [f.toFolder] := by
      rw [folders]
      exact List.map_append
    rw [appended]
    refine FolderForest.parentOf_create (rows s.folders) f.toFolder (fun row member => ?_) a
    obtain ⟨g,there,rfl⟩ := mem_map.mp member
    exact fresh g there
  refine ⟨ids,?_,fun g there => ?_,fun g there => ?_,fun g there gone => ?_,fun g there => ?_,fun g there => ?_⟩
  · refine grounded_reparent (x := f.id) inv.grounded (fun a other => by rw [parents,if_neg other]) fun q above k there => ?_
    rw [parents,if_pos rfl] at above
    obtain ⟨g,known,here,_⟩ := placed q above
    obtain ⟨h,listed,same⟩ := up_there inv ⟨g,known,here⟩ there
    exact fresh h listed same
  · rcases split g there with before | rfl
    · exact more (inv.folders g before)
    · exact more (lies_placed placed)
  · rw [files] at there
    exact more (inv.files g there)
  · rcases split g there with before | rfl
    · exact inv.scheduled g before gone
    · rw [live] at gone
      cases gone
  · rw [now]
    rcases split g there with before | rfl
    · exact inv.foldersUntil g before
    · rw [unscheduled]
      exact nofun
  · rw [files] at there
    rw [now]
    exact inv.filesUntil g there

theorem inv_saveFolder (inv : Inv s) (ids : Ids s') {name : String} {parentId : Option Nat} (there : f ∈ s.folders)
    (placed : parentId = f.parentId ∨ Placed s f.ownerId parentId ∧ ∀ p ∈ parentId, isDescendantOf s.folders p f.id = false)
    (folders : s'.folders = saveFolder s.folders { f with name, parentId }) (files : s'.files = s.files) (now : s'.now = s.now) :
    Inv s' := by
  have kept : ∀ g ∈ s.folders, g.id = f.id → g = f := fun g member same => folder_unique inv.ids member there same
  have more : ∀ {folderId ownerId isDeleted deleteScheduledAt}, Lies s.folders folderId ownerId isDeleted deleteScheduledAt →
      Lies s'.folders folderId ownerId isDeleted deleteScheduledAt := by
    intro folderId ownerId isDeleted deleteScheduledAt lies
    rw [folders]
    refine lies_map (fun g member => ?_) (fun g member => ?_) (fun g member => ?_) (fun g member => ?_) lies
    all_goals
      split
      · next same => rw [kept g member same]
      · rfl
  have split : ∀ g ∈ s'.folders, g ∈ s.folders ∨ g = { f with name, parentId } := by
    intro g listed
    rw [folders] at listed
    rcases (mem_save fun h : Folder => h.id).mp listed with ⟨rfl,_⟩ | ⟨before,_⟩
    · exact .inr rfl
    · exact .inl before
  have saved : ({ f with name, parentId } : Folder) ∈ s'.folders := by
    rw [folders]
    exact (mem_save fun h : Folder => h.id).mpr (.inl ⟨rfl,f,there,rfl⟩)
  have here : parentOf (rows s'.folders) f.id = parentId := parentOf_folder ids saved
  have elsewhere : ∀ a, a ≠ f.id → parentOf (rows s'.folders) a = parentOf (rows s.folders) a := by
    intro a other
    apply Option.ext
    intro p
    constructor
    · intro above
      obtain ⟨g,listed,rfl,parent⟩ := parentOf_there above
      rcases split g listed with before | rfl
      · exact (parentOf_folder inv.ids before).trans parent
      · exact absurd rfl other
    · intro above
      obtain ⟨g,listed,rfl,parent⟩ := parentOf_there above
      have stays : g ∈ s'.folders := by
        rw [folders]
        exact (mem_save fun h : Folder => h.id).mpr (.inr ⟨listed,other⟩)
      exact (parentOf_folder ids stays).trans parent
  refine ⟨ids,?_,fun g listed => ?_,fun g listed => ?_,fun g listed gone => ?_,fun g listed => ?_,fun g listed => ?_⟩
  · rcases placed with same | ⟨_,apart⟩
    · have equal : parentOf (rows s'.folders) = parentOf (rows s.folders) := by
        funext a
        by_cases own : a = f.id
        · rw [own,here,parentOf_folder inv.ids there,same]
        · exact elsewhere a own
      rw [equal]
      exact inv.grounded
    · refine grounded_reparent (x := f.id) inv.grounded elsewhere fun q above => ?_
      rw [here] at above
      exact apart_of_descendant (apart q above)
  · rcases split g listed with before | rfl
    · exact more (inv.folders g before)
    · rcases placed with same | ⟨place,_⟩
      · rw [show ({ f with name, parentId } : Folder).parentId = f.parentId from same]
        exact more (inv.folders f there)
      · exact more (lies_placed place)
  · rw [files] at listed
    exact more (inv.files g listed)
  · rcases split g listed with before | rfl
    · exact inv.scheduled g before gone
    · exact inv.scheduled f there gone
  · rw [now]
    rcases split g listed with before | rfl
    · exact inv.foldersUntil g before
    · exact inv.foldersUntil f there
  · rw [files] at listed
    rw [now]
    exact inv.filesUntil g listed

/-! ### A deletion -/

theorem under_trash {now : Nat}
    (under : Under g ownerId isDeleted scheduled)
    (deadline : ∀ t ∈ scheduled, t ≤ now + FILE_DELETE_GRACE_MS)
    (goes : g.id ∈ folderIds → isDeleted = false → isDeleted' = true ∧ ∀ t ∈ scheduled', t ≤ now + FILE_DELETE_GRACE_MS)
    (stays : isDeleted = true → isDeleted' = true ∧ scheduled' = scheduled) :
    Under (g.trashWithin now folderIds) ownerId isDeleted' scheduled' := by
  unfold Folder.trashWithin
  split
  · next inside =>
    cases before : isDeleted with
    | false =>
      obtain ⟨gone,sooner⟩ := goes inside.1 before
      refine ⟨under.owner,fun _ => gone,fun _ t given u trashed => ?_⟩
      cases trashed
      exact sooner t given
    | true =>
      obtain ⟨gone,same⟩ := stays before
      refine ⟨under.owner,fun _ => gone,fun _ t given u trashed => ?_⟩
      rw [same] at given
      cases trashed
      exact deadline t given
  · refine ⟨under.owner,fun gone => (stays (under.gone gone)).1,fun gone => ?_⟩
    rw [(stays (under.gone gone)).2]
    exact under.sooner gone

theorem deletion_le {f : File} {bound : Nat} (deadline : ∀ t ∈ f.deleteScheduledAt, t ≤ bound) : ∀ t ∈ deletion f, t ≤ bound := by
  unfold deletion
  split
  · exact nofun
  · exact deadline

theorem trash_folder_goes {now : Nat} :
    (f.id ∈ folderIds → f.isDeleted = false → f.trashWithin now folderIds = f.trash now) ∧
      (f.isDeleted = true → f.trashWithin now folderIds = f) := by
  refine ⟨fun among live => if_pos ⟨among,live⟩,fun gone => if_neg fun inside => ?_⟩
  rw [gone] at inside
  exact nomatch inside.2

theorem trash_file_goes {now : Nat} {byAdmin : Bool} {f : File} :
    (within folderIds f.folderId = true → f.isDeleted = false → f.trashWithin now folderIds byAdmin = f.trash now byAdmin) ∧
      (f.isDeleted = true → f.trashWithin now folderIds byAdmin = f) := by
  refine ⟨fun among live => if_pos ⟨among,live⟩,fun gone => if_neg fun inside => ?_⟩
  rw [gone] at inside
  exact nomatch inside.2

theorem within_some : within folderIds (some p) = true ↔ p ∈ folderIds :=
  decide_eq_true_iff

theorem trash_folder_frame (now : Nat) (folderIds : List Nat) (f : Folder) :
    (f.trashWithin now folderIds).ownerId = f.ownerId ∧ (f.trashWithin now folderIds).parentId = f.parentId := by
  unfold Folder.trashWithin
  split
  · exact ⟨rfl,rfl⟩
  · exact ⟨rfl,rfl⟩

theorem inv_trash (inv : Inv s) (ids : Ids s') {byAdmin : Bool}
    (collected : collectSubtreeIds s.folders rootId = some folderIds)
    (folders : s'.folders = s.folders.map (Folder.trashWithin s.now folderIds))
    (files : s'.files = s.files.map (File.trashWithin s.now folderIds byAdmin)) (now : s'.now = s.now) : Inv s' := by
  have among_folders : ∀ g ∈ s'.folders, ∃ f ∈ s.folders, f.trashWithin s.now folderIds = g := fun g listed =>
    mem_map.mp (folders ▸ listed)
  have among_files : ∀ g ∈ s'.files, ∃ f ∈ s.files, f.trashWithin s.now folderIds byAdmin = g := fun g listed =>
    mem_map.mp (files ▸ listed)
  refine ⟨ids,?_,fun g listed => ?_,fun g listed => ?_,fun g listed gone => ?_,fun g listed => ?_,fun g listed => ?_⟩
  · rw [folders,parentOf_same (trashWithin_id _ _) fun f => (trash_folder_frame _ _ f).2]
    exact inv.grounded
  · obtain ⟨f,there,rfl⟩ := among_folders g listed
    obtain ⟨owner,parent⟩ := trash_folder_frame s.now folderIds f
    rw [owner,parent,folders]
    intro p given
    obtain ⟨q,known,here,under⟩ := inv.folders f there p given
    refine ⟨q.trashWithin s.now folderIds,mem_map_of_mem known,(trashWithin_id _ _ q).trans here,?_⟩
    refine under_trash under (inv.foldersUntil f there) (fun among live => ?_) fun gone => ?_
    · rw [trash_folder_goes.1 (collected_child collected there given (here ▸ among)) live]
      refine ⟨rfl,?_⟩
      rintro t ⟨⟩
      exact Nat.le_refl _
    · rw [trash_folder_goes.2 gone]
      exact ⟨gone,rfl⟩
  · obtain ⟨f,there,rfl⟩ := among_files g listed
    have same := trashWithin_file s.now folderIds byAdmin f
    rw [folderId_of_params same,show (f.trashWithin s.now folderIds byAdmin).uploaderId = f.uploaderId from
      congrArg NamespaceAcquireParams.ownerId same,folders]
    intro p given
    obtain ⟨q,known,here,under⟩ := inv.files f there p given
    refine ⟨q.trashWithin s.now folderIds,mem_map_of_mem known,(trashWithin_id _ _ q).trans here,?_⟩
    refine under_trash under (deletion_le (inv.filesUntil f there)) (fun among live => ?_) fun gone => ?_
    · have inside : within folderIds f.folderId = true := by
        rw [show f.folderId = some p from given]
        exact within_some.mpr (here ▸ among)
      rw [trash_file_goes.1 inside live]
      refine ⟨rfl,deletion_le ?_⟩
      rintro t ⟨⟩
      exact Nat.le_refl _
    · rw [trash_file_goes.2 gone]
      exact ⟨gone,rfl⟩
  · obtain ⟨f,there,rfl⟩ := among_folders g listed
    unfold Folder.trashWithin at gone ⊢
    split
    · exact ⟨_,rfl⟩
    · next outside =>
      rw [if_neg outside] at gone
      exact inv.scheduled f there gone
  · obtain ⟨f,there,rfl⟩ := among_folders g listed
    rw [now]
    unfold Folder.trashWithin
    split
    · rintro t ⟨⟩
      exact Nat.le_refl _
    · exact inv.foldersUntil f there
  · obtain ⟨f,there,rfl⟩ := among_files g listed
    rw [now]
    unfold File.trashWithin
    split
    · rintro t ⟨⟩
      exact Nat.le_refl _
    · exact inv.filesUntil f there

/-! ### A restoration -/

theorem collected_gone (inv : Inv s) (there : folder ∈ s.folders) (gone : folder.isDeleted = true)
    (scheduledThen : folder.deleteScheduledAt = some t) (listed : g ∈ s.folders)
    (among : g.id ∈ level (rows s.folders) folder.id k) : g.isDeleted = true ∧ ∀ u ∈ g.deleteScheduledAt, u ≤ t := by
  induction k generalizing g with
  | zero =>
    rw [folder_unique inv.ids listed there (mem_level_zero among),scheduledThen]
    refine ⟨gone,?_⟩
    rintro u ⟨⟩
    exact Nat.le_refl _
  | succ k ih =>
    obtain ⟨f,known,same,p,parent,below⟩ := mem_level_succ.mp among
    rw [folder_unique inv.ids known listed same] at parent
    obtain ⟨q,member,rfl,under⟩ := inv.folders g listed p parent
    obtain ⟨above,sooner⟩ := ih member below
    obtain ⟨v,scheduled⟩ := inv.scheduled q member above
    exact ⟨under.gone above,fun u given => Nat.le_trans (under.sooner above u given v scheduled) (sooner v scheduled)⟩

theorem ancestor_live (ids : Ids s) {rounds : Nat} (clear : ancestorDeleted s.folders (rounds + 1) (some p) = some false)
    (there : g ∈ s.folders) (here : g.id = p) : g.isDeleted = false := by
  unfold ancestorDeleted at clear
  cases found : s.folders.find? fun f => f.id = p with
  | none => exact absurd here (by simpa using List.find?_eq_none.mp found g there)
  | some f =>
    rw [found] at clear
    have named : f.id = p := by simpa using find?_some found
    rw [folder_unique ids (List.mem_of_find?_eq_some found) there (named.trans here.symm)] at clear
    by_contra gone
    dsimp only at clear
    rw [if_pos (eq_true_of_ne_false gone)] at clear
    cases clear

theorem batch_scheduled (scheduledThen : folder.deleteScheduledAt = some t) {requested : Option Nat} :
    folder.batch requested scheduled = true ↔ scheduled = some t := by
  unfold Folder.batch
  rw [scheduledThen]
  exact decide_eq_true_iff

theorem parent_back (inv : Inv s) (there : folder ∈ s.folders)
    (gone : folder.isDeleted = true) (scheduledThen : folder.deleteScheduledAt = some t)
    (collected : collectSubtreeIds s.folders folder.id = some folderIds) (listed : g ∈ s.folders)
    (among : g.id ∈ folderIds) (under : Under g ownerId isDeleted scheduled)
    (batch : scheduled = some t) : (Folder.restoreWithin folder folderIds g).isDeleted = false := by
  obtain ⟨height,_,levels⟩ := collected_levels collected
  obtain ⟨k,_,member⟩ := (levels g.id).mp among
  obtain ⟨trashed,sooner⟩ := collected_gone inv there gone scheduledThen listed member
  obtain ⟨u,known⟩ := inv.scheduled g listed trashed
  have same : u = t := Nat.le_antisymm (sooner u known) (under.sooner trashed t batch u known)
  rw [same] at known
  have back : Folder.restoreWithin folder folderIds g = g.bringBack := if_pos ⟨among,(batch_scheduled scheduledThen).mpr known⟩
  rw [back]
  rfl

theorem restore_gone (gone : (Folder.restoreWithin folder folderIds g).isDeleted = true) :
    Folder.restoreWithin folder folderIds g = g ∧ g.isDeleted = true := by
  unfold Folder.restoreWithin at gone ⊢
  split at gone
  · cases gone
  · next outside =>
    rw [if_neg outside]
    exact ⟨rfl,gone⟩

theorem under_restore
    (under : Under g ownerId isDeleted scheduled)
    (stays : (Folder.restoreWithin folder folderIds g).isDeleted = true → isDeleted' = isDeleted ∧ scheduled' = scheduled) :
    Under (Folder.restoreWithin folder folderIds g) ownerId isDeleted' scheduled' := by
  cases kept : (Folder.restoreWithin folder folderIds g).isDeleted with
  | false =>
    refine under_live kept ?_
    rw [show (Folder.restoreWithin folder folderIds g).ownerId = g.ownerId by unfold Folder.restoreWithin; split <;> rfl]
    exact under.owner
  | true =>
    obtain ⟨deleted,scheduledThen⟩ := stays kept
    rw [(restore_gone kept).1,deleted,scheduledThen]
    exact under

theorem restore_folder_frame (folder : Folder) (folderIds : List Nat) (f : Folder) :
    (Folder.restoreWithin folder folderIds f).ownerId = f.ownerId ∧
      (Folder.restoreWithin folder folderIds f).parentId = f.parentId := by
  unfold Folder.restoreWithin
  split
  · exact ⟨rfl,rfl⟩
  · exact ⟨rfl,rfl⟩

theorem inv_restore (inv : Inv s) (ids : Ids s') (there : folder ∈ s.folders)
    (gone : folder.isDeleted = true) (above : ancestorDeleted s.folders (s.folders.length + 1) folder.parentId = some false)
    (collected : collectSubtreeIds s.folders folder.id = some folderIds)
    (together : ∀ f ∈ s.files, f.deletedByAdmin = true → within folderIds f.folderId = true →
      folder.batch f.deleteRequestedAt f.deleteScheduledAt = true → ∀ g ∈ s.folders, f.folderId = some g.id → g.isDeleted = true →
        folder.batch g.deleteRequestedAt g.deleteScheduledAt = true)
    (folders : s'.folders = s.folders.map (Folder.restoreWithin folder folderIds))
    (files : s'.files = s.files.map (File.restoreWithin folder folderIds)) (now : s'.now = s.now) : Inv s' := by
  obtain ⟨t,scheduledThen⟩ := inv.scheduled folder there gone
  have among_folders : ∀ g ∈ s'.folders, ∃ f ∈ s.folders, Folder.restoreWithin folder folderIds f = g := fun g listed =>
    mem_map.mp (folders ▸ listed)
  have among_files : ∀ g ∈ s'.files, ∃ f ∈ s.files, f.restoreWithin folder folderIds = g := fun g listed =>
    mem_map.mp (files ▸ listed)
  refine ⟨ids,?_,fun g listed => ?_,fun g listed => ?_,fun g listed trashed => ?_,fun g listed => ?_,fun g listed => ?_⟩
  · rw [folders,parentOf_same (restoreWithin_id _ _) fun f => (restore_folder_frame _ _ f).2]
    exact inv.grounded
  · obtain ⟨f,known,rfl⟩ := among_folders g listed
    obtain ⟨owner,parent⟩ := restore_folder_frame folder folderIds f
    rw [owner,parent,folders]
    intro p given
    obtain ⟨q,member,here,under⟩ := inv.folders f known p given
    refine ⟨Folder.restoreWithin folder folderIds q,mem_map_of_mem member,(restoreWithin_id _ _ q).trans here,?_⟩
    refine under_restore under fun kept => ?_
    unfold Folder.restoreWithin
    split
    · next back =>
      -- the folder would come back while its parent stays in the trash
      rcases collected_parent inv.ids collected known back.1 with root | ⟨p',parent,among⟩
      · have own : f = folder := folder_unique inv.ids known there root
        rw [← own,show f.parentId = some p from given] at above
        have trashed := (restore_gone kept).2
        rw [ancestor_live inv.ids above member here] at trashed
        cases trashed
      · rw [show f.parentId = some p from given] at parent
        cases parent
        rw [parent_back inv there gone scheduledThen collected member (here ▸ among) under
          ((batch_scheduled scheduledThen).mp back.2)] at kept
        cases kept
    · exact ⟨rfl,rfl⟩
  · obtain ⟨f,known,rfl⟩ := among_files g listed
    have same := restoreWithin_file folder folderIds f
    rw [folderId_of_params same,show (f.restoreWithin folder folderIds).uploaderId = f.uploaderId from
      congrArg NamespaceAcquireParams.ownerId same,folders]
    intro p given
    obtain ⟨q,member,here,under⟩ := inv.files f known p given
    refine ⟨Folder.restoreWithin folder folderIds q,mem_map_of_mem member,(restoreWithin_id _ _ q).trans here,?_⟩
    refine under_restore under fun kept => ?_
    unfold File.restoreWithin
    split
    · next back =>
      have among : q.id ∈ folderIds := by
        rw [here]
        exact within_some.mp ((show f.folderId = some p from given) ▸ back.1)
      cases admin : f.deletedByAdmin with
      | true =>
        obtain ⟨_,trashed⟩ := restore_gone kept
        have along := together f known admin back.1 back.2 q member ((show f.folderId = some p from given).trans (here ▸ rfl)) trashed
        rw [show Folder.restoreWithin folder folderIds q = q.bringBack from if_pos ⟨among,along⟩] at kept
        cases kept
      | false =>
        have dated : deletion f = some t := by
          unfold deletion
          rw [admin]
          exact (batch_scheduled scheduledThen).mp back.2
        rw [parent_back inv there gone scheduledThen collected member among under dated] at kept
        cases kept
    · exact ⟨rfl,rfl⟩
  · obtain ⟨f,known,rfl⟩ := among_folders g listed
    obtain ⟨same,before⟩ := restore_gone trashed
    rw [same]
    exact inv.scheduled f known before
  · obtain ⟨f,known,rfl⟩ := among_folders g listed
    rw [now]
    unfold Folder.restoreWithin
    split
    · exact nofun
    · exact inv.foldersUntil f known
  · obtain ⟨f,known,rfl⟩ := among_files g listed
    rw [now]
    unfold File.restoreWithin
    split
    · exact nofun
    · exact inv.filesUntil f known

/-! ### Steps -/

theorem lies_gone
    (lies : Lies folders folderId ownerId isDeleted scheduled) : Lies folders folderId ownerId true scheduled := by
  intro p given
  obtain ⟨g,there,here,under⟩ := lies p given
  exact ⟨g,there,here,under.owner,fun _ => rfl,under.sooner⟩

theorem lies_marked
    (lies : Lies folders folderId ownerId isDeleted scheduled) : Lies folders folderId ownerId true none := by
  intro p given
  obtain ⟨g,there,here,under⟩ := lies p given
  exact ⟨g,there,here,under.owner,(fun _ => rfl),nofun⟩

theorem lies_restored (ids : Ids s)
    (lies : Lies s.folders folderId ownerId isDeleted scheduled)
    (live : ∀ p ∈ folderId, Live s p) : Lies s.folders folderId ownerId isDeleted' scheduled' := by
  intro p given
  obtain ⟨g,there,here,under⟩ := lies p given
  obtain ⟨h,listed,same,lives⟩ := live p given
  rw [folder_unique ids listed there (same.trans here.symm)] at lives
  exact ⟨g,there,here,under_live lives under.owner⟩

theorem inv_passed (inv : Inv s) {now : Nat} (later : s.now ≤ now) (jobs : List UploadJob) : Inv { s with now, jobs } where
  ids := ids_sublist inv.ids (List.Sublist.refl _) rfl
  grounded := inv.grounded
  folders := inv.folders
  files := inv.files
  scheduled := inv.scheduled
  foldersUntil f there t given := Nat.le_trans (inv.foldersUntil f there t given) (Nat.add_le_add_right later _)
  filesUntil f there t given := Nat.le_trans (inv.filesUntil f there t given) (Nat.add_le_add_right later _)

theorem inv_change (inv : Inv s) (places : Places nameKey s l) (change : Change nameKey s l s') : Inv s' := by
  have later : Ids s' := ids_change inv.ids change
  cases change with
  | passed now onward jobs => exact inv_passed inv onward jobs
  | folderCreated placed named => exact inv_createFolder inv later rfl rfl rfl placed rfl rfl rfl
  | folderSaved there live placed named => exact inv_saveFolder inv later there placed rfl rfl rfl
  | folderTrashed byAdmin collected => exact inv_trash inv later collected rfl rfl rfl
  | @folderRestored ownerId folder folderIds names asked taken there gone above collected named =>
    subst asked
    obtain ⟨_,taken⟩ := taken
    have together := places (by rw [taken]; rfl) folder there rfl folderIds collected
    exact inv_restore inv later there gone above collected together rfl rfl rfl
  | fileCreated placed named =>
    refine inv_files inv later rfl rfl fun f listed => ?_
    rcases List.mem_append.mp listed with before | new
    · exact .inl before
    rw [mem_singleton.mp new]
    refine .inr ⟨lies_placed ?_,nofun⟩
    rcases placed with placed | ⟨n,job,asked,queued,⟨_,arrived⟩,rfl,rfl⟩
    · exact placed
    · subst asked
      exact places job queued (by rw [arrived]; rfl)
  | @fileSaved f g names jobs there same owner live lives scheduled placed named =>
    refine inv_saveFile inv later rfl rfl rfl ?_ (scheduled ▸ inv.filesUntil f there)
    rcases placed with folder | placed
    · have lies := inv.files f there
      rw [live] at lies
      rw [folder,owner]
      exact lies_live lies
    · exact lies_placed placed
  | @fileReused user originalName folderId overwriteFileId target asked permitted found there live =>
    exact inv_saveFile inv later rfl rfl rfl (inv.files target there) (inv.filesUntil target there)
  | fileWorked worked same =>
    refine inv_files inv later rfl rfl fun g listed => ?_
    obtain ⟨f,there,rfl⟩ := mem_map.mp listed
    obtain ⟨params,deleted,admin,scheduled⟩ := same f
    have owner : (worked f).uploaderId = f.uploaderId := congrArg NamespaceAcquireParams.ownerId params
    have dated : deletion (worked f) = deletion f := by
      unfold deletion
      rw [admin,scheduled]
    rw [folderId_of_params params,owner,deleted,dated,scheduled]
    exact .inr ⟨inv.files f there,inv.filesUntil f there⟩
  | fileCancelled asked =>
    refine inv_files inv later rfl rfl fun g listed => ?_
    obtain ⟨f,there,rfl⟩ := mem_map.mp listed
    split
    · exact .inr ⟨lies_gone (inv.files f there),inv.filesUntil f there⟩
    · exact .inl there
  | fileTrashed there live =>
    refine inv_saveFile inv later rfl rfl rfl (lies_live (live ▸ inv.files _ there)) ?_
    rintro t ⟨⟩
    exact Nat.le_refl _
  | @fileMarked id user f deleteCooldownUntil asked there here first =>
    refine inv_saveFile inv later rfl rfl rfl (lies_marked (inv.files f there)) ?_
    rintro t ⟨⟩
    exact Nat.le_refl _
  | fileRemoved id => exact inv_files inv later rfl rfl fun f listed => .inl (mem_filter.mp listed).1
  | @fileRestored id user f names asked there here gone named restored =>
    subst asked
    obtain ⟨_,taken⟩ := restored
    have live := places (by rw [taken]; rfl) f there here
    exact inv_saveFile inv later rfl rfl rfl (lies_restored inv.ids (inv.files f there) live) nofun

theorem inv_start : Inv .start where
  ids := ids_start
  grounded a := ⟨a,nofun⟩
  folders _ there := nomatch there
  files _ there := nomatch there
  scheduled _ there := nomatch there
  foldersUntil _ there := nomatch there
  filesUntil _ there := nomatch there

theorem clear_folder (inv : Inv s) (there : g ∈ s.folders) (live : g.isDeleted = false) (k : Nat)
    (above : up (parentOf (rows s.folders)) k g.id = some a) : Owned s g.ownerId a := by
  induction k generalizing g with
  | zero =>
    cases above
    exact ⟨g,there,rfl,rfl,live⟩
  | succ k ih =>
    obtain ⟨p,parent,onward⟩ := Option.bind_eq_some_iff.mp above
    rw [parentOf_folder inv.ids there] at parent
    obtain ⟨q,known,rfl,under⟩ := inv.folders g there p parent
    have lives : q.isDeleted = false := eq_false_of_ne_true fun gone => by
      rw [under.gone gone] at live
      cases live
    exact under.owner ▸ ih known lives onward

theorem listed_folder (inv : Inv s) (there : g ∈ s.folders) (live : g.isDeleted = false) :
    Listed s g.ownerId (some g.id) := by
  obtain ⟨id,named⟩ : ∃ id, g.id = id := ⟨g.id,rfl⟩
  induction inv.grounded id generalizing g with
  | intro id _ ih =>
    refine .inside there rfl live ?_
    cases parent : g.parentId with
    | none => exact .top
    | some p =>
      obtain ⟨q,known,rfl,under⟩ := inv.folders g there p parent
      have lives : q.isDeleted = false := eq_false_of_ne_true fun gone => by
        rw [under.gone gone] at live
        cases live
      refine under.owner ▸ ih q.id ?_ known lives rfl
      rw [← named,parentOf_folder inv.ids there]
      exact parent

theorem seen_of_lies (inv : Inv s)
    (lies : Lies s.folders folderId ownerId false deleteScheduledAt) : Clear s ownerId folderId ∧ Listed s ownerId folderId := by
  cases folderId with
  | none => exact ⟨(nofun),.top⟩
  | some p =>
    obtain ⟨g,there,rfl,under⟩ := lies p rfl
    have live : g.isDeleted = false := eq_false_of_ne_true fun gone => nomatch under.gone gone
    rw [← under.owner]
    refine ⟨?_,listed_folder inv there live⟩
    rintro _ ⟨⟩ k a above
    exact clear_folder inv there live k above

theorem visible_of_inv (inv : Inv s) : Visible s := by
  refine ⟨fun f there live => ?_,fun f there live => ?_⟩
  · have lies := inv.folders f there
    rw [live] at lies
    exact seen_of_lies inv lies
  · have lies := inv.files f there
    rw [live] at lies
    exact seen_of_lies inv lies

/-! ### What goes wrong otherwise -/

theorem owned_of_clear (clear : Clear s ownerId folderId) (given : folderId = some p) :
    Owned s ownerId p := clear p given 0 p rfl

theorem places_restoreDelete (inv : Inv s) {id : Nat} {user : User}
    (after : Visible (step nameKey s (.restoreDelete id user))) : Places nameKey s (.restoreDelete id user) := by
  intro taken f there here p given
  change Visible (s.after (restoreDelete nameKey s id user)) at after
  cases ok : restoreDelete nameKey s id user with
  | error refusal =>
    rw [ok] at taken
    cases taken
  | ok s' =>
    rw [ok] at after
    obtain ⟨g,known,ok⟩ := bind_ok ok
    obtain ⟨_,_,ok⟩ := bind_ok ok
    obtain ⟨_,_,ok⟩ := bind_ok ok
    obtain ⟨_,_,ok⟩ := bind_ok ok
    obtain ⟨_,_,ok⟩ := bind_ok ok
    obtain ⟨names,_,ok⟩ := bind_ok ok
    cases ok
    have found := demand_ok known
    have fits := find?_some found
    simp only [Bool.and_eq_true,decide_eq_true_eq] at fits
    have same : g = f := file_unique inv.ids (List.mem_of_find?_eq_some found) there (fits.1.trans here.symm)
    subst same
    have seen := (after.files _ ((mem_save File.id).mpr (.inl ⟨rfl,g,there,rfl⟩)) rfl).1
    obtain ⟨q,listed,named,_,live⟩ := owned_of_clear seen given
    exact ⟨q,listed,named,live⟩

theorem places_uploadToTelegram {n : Nat} (after : Visible (step nameKey s (.uploadToTelegram n))) :
    Places nameKey s (.uploadToTelegram n) := by
  intro job queued taken p given
  have result : step nameKey s (.uploadToTelegram n) = (s.takes n).after (uploadToTelegram nameKey (s.takes n) job) := by
    unfold step
    dsimp only
    rw [show s.jobs[n]? = some job from queued]
  rw [result] at after
  cases ok : uploadToTelegram nameKey (s.takes n) job with
  | error refusal =>
    rw [ok] at taken
    cases taken
  | ok s' =>
    rw [ok] at after
    unfold uploadToTelegram at ok
    cases found : overwrites (s.takes n) job.overwriteFileId job.user job.folderId with
    | none =>
      rw [found] at ok
      obtain ⟨names,_,ok⟩ := bind_ok ok
      cases ok
      exact owned_of_clear (after.files _ (List.mem_append_right _ (mem_singleton.mpr rfl)) rfl).1 given
    | some target =>
      rw [found] at ok
      obtain ⟨names,_,ok⟩ := bind_ok ok
      cases ok
      obtain ⟨there,live,owner,folder⟩ := overwrites_found found
      have seen := (after.files _ ((mem_save File.id).mpr (.inl ⟨rfl,target,there,rfl⟩)) live).1
      have owned := owned_of_clear seen (folder.trans given)
      rw [show ({ target with originalName := job.originalName, uploadVersion := target.uploadVersion + 1 } : File).uploaderId =
        job.user.id from owner] at owned
      exact owned

theorem places_restoreFolder (inv : Inv s) {id : Nat} (after : Visible (step nameKey s (.restoreFolder ownerId id))) :
    Places nameKey s (.restoreFolder ownerId id) := by
  intro taken folder there here folderIds collected f known admin inside batch g listed given gone
  change Visible (s.after (restoreFolder nameKey s ownerId id)) at after
  cases ok : restoreFolder nameKey s ownerId id with
  | error refusal =>
    rw [ok] at taken
    cases taken
  | ok s' =>
    rw [ok] at after
    obtain ⟨folder',asked,ok⟩ := bind_ok ok
    obtain ⟨_,_,ok⟩ := bind_ok ok
    obtain ⟨_,_,ok⟩ := bind_ok ok
    obtain ⟨folderIds',collected',ok⟩ := bind_ok ok
    obtain ⟨_,_,ok⟩ := bind_ok ok
    obtain ⟨names,_,ok⟩ := bind_ok ok
    cases ok
    have found := demand_ok asked
    have fits := find?_some found
    simp only [Bool.and_eq_true,decide_eq_true_eq] at fits
    have same : folder' = folder := folder_unique inv.ids (List.mem_of_find?_eq_some found) there (fits.1.1.trans here.symm)
    cases (demand_ok collected').symm.trans collected
    subst same
    have back : f.restoreWithin folder' folderIds = f.bringBack := if_pos ⟨inside,batch⟩
    have seen := (after.files _ (mem_map_of_mem known) (by rw [back]; rfl)).1
    obtain ⟨h',among,named,_,live⟩ := owned_of_clear seen ((folderId_of_params (restoreWithin_file folder' folderIds f)).trans given)
    obtain ⟨h,member,rfl⟩ := mem_map.mp among
    rw [restoreWithin_id] at named
    rw [folder_unique inv.ids member listed named] at live
    by_contra apart
    rw [show Folder.restoreWithin folder' folderIds g = g from if_neg fun both => apart both.2,gone] at live
    cases live

theorem places_of_visible (inv : Inv s) (after : Visible (step nameKey s l)) : Places nameKey s l := by
  cases l with
  | restoreFolder ownerId id => exact places_restoreFolder inv after
  | restoreDelete id user => exact places_restoreDelete inv after
  | uploadToTelegram n => exact places_uploadToTelegram after
  | _ => trivial

/-- Nothing is left below a folder in the trash, and a step keeps it so exactly when it restores and places as it should. -/
theorem nothing_below_trash (nameKey : String → String) {s : State} (reach : Reached nameKey s) :
    Visible s ∧ ∀ l, Visible (step nameKey s l) ↔ Places nameKey s l := by
  have inv : Inv s :=
    reachable_invariant inv_start (fun s l inv places => inv_change inv places (step_change nameKey s l)) reach
  refine ⟨visible_of_inv inv,fun l => ⟨places_of_visible inv,fun places => ?_⟩⟩
  exact visible_of_inv (inv_change inv places (step_change nameKey s l))

end

def owner : User := ⟨7,false⟩

def tidied : List Label :=
  [.createFolder 7 "docs" none,.createFolder 7 "old" (some 0),.createProcessingFile owner "a" (some 1) none,
    .uploadAsync ⟨owner,"b",some 1,none⟩,.uploadToTelegram 0,.deleteFile 3 owner,.tick 1000,.softDeleteFolder 7 0 false,.tick 1000,
    .restoreFolder 7 1,.restoreFolder 7 0,.restoreDelete 3 owner]

theorem nothing_below_trash_tidied : (Visible (tidied.foldl (step id) .start) ∧
    ∀ l, Visible (step id (tidied.foldl (step id) .start) l) ↔ Places id (tidied.foldl (step id) .start) l) ∧
    (tidied.foldl (step id) .start).folders.map (fun f => f.isDeleted) = [false,false] ∧
    (tidied.foldl (step id) .start).files.map File.isDeleted = [false,false] :=
  ⟨nothing_below_trash id (reachable_run .start tidied (by decide +kernel)),by decide +kernel,by decide +kernel⟩

def orphaned : List Label :=
  [.createFolder 7 "docs" none,.createProcessingFile owner "a" (some 0) none,.softDeleteFolder 7 0 false,.restoreDelete 1 owner]

theorem restored_below_trash : ¬ ∀ (nameKey : String → String) (s : State),
    Reachable (step nameKey) (fun _ _ => True) .start s → Visible s := by
  intro always
  have holds := always id _ (reachable_run .start orphaned (by decide +kernel))
  have clear := (holds.files ⟨1,7,some 0,"a",.processing,1,false,false,none,none,none⟩ (by decide +kernel) rfl).1
  obtain ⟨f,there,_,_,live⟩ := clear 0 rfl 0 0 rfl
  have only : ∀ f ∈ (orphaned.foldl (step id) .start).folders, f.isDeleted = true := by decide +kernel
  rw [only f there] at live
  cases live

end Tgtc.DirectoryTrash
