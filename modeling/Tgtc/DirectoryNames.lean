import Mathlib.Data.List.Nodup
import Tgtc.DirectoryChanges
import Tgtc.Maps
import Tgtc.Runs

/-!
Who owns the names of a directory. Every operation that places a folder or a file asks for its name, and the index
admits it only when nobody has it; the trash gives names back.
-/
namespace Tgtc.DirectoryNames
open Runs Maps Directory DirectoryChanges
open List (filter_filter filter_sublist map_map mem_append mem_append_left mem_append_right mem_filter mem_map mem_map_of_mem
  mem_singleton)

section
variable {nameKey : String → String}

def FolderEntry (folders : List Folder) (e : NamespaceAcquireParams) : Prop := ∃ f ∈ folders, f.isDeleted = false ∧ f.params = e

def FileEntry (files : List File) (e : NamespaceAcquireParams) : Prop := ∃ f ∈ files, f.isDeleted = false ∧ f.params = e

def Entry (s : State) (e : NamespaceAcquireParams) : Prop := FolderEntry s.folders e ∨ FileEntry s.files e

/-- Every entry has its row, no two entries have one name in one directory, and no row is left over. -/
structure NamesOwned (nameKey : String → String) (s : State) : Prop where
  owned : ∀ e, Entry s e → rowOf nameKey e ∈ active s.names
  apart : ∀ a b, Entry s a → Entry s b → a.ownerId = b.ownerId → a.folderId = b.folderId →
    nameKey a.name = nameKey b.name → a = b
  live : ∀ r ∈ active s.names, ∃ e, Entry s e ∧ e.toNamespaceEntityRef = r.toNamespaceEntityRef

/-- An overwritten file that waits for its content keeps its name, what is cancelled is being processed,
and the administration deletes from the trash. -/
def Keeps (nameKey : String → String) (s : State) : Label → Prop
  | .createProcessingFile user originalName folderId overwriteFileId =>
    ∀ target ∈ overwrites s overwriteFileId user folderId, assertUploadFolder s folderId user.id = .ok () →
      nameKey originalName = nameKey target.originalName
  | .softDeleteProcessingFile id => ∀ f ∈ s.files, f.id = id → f.isDeleted = false → f.status = .processing
  | .adminDeleteFile id _ => ∀ f ∈ s.files, f.id = id → f.isDeleted = true
  | _ => True

instance (s : State) (l : Label) : Decidable (Keeps nameKey s l) := by
  cases l <;> unfold Keeps <;> infer_instance

abbrev Reached (nameKey : String → String) : State → Prop := Reachable (step nameKey) (Keeps nameKey) .start

structure Matches (nameKey : String → String) (names : List DirectoryName) (entry : NamespaceAcquireParams → Prop) : Prop where
  unique : UniqueNames names
  rows : ∀ r, r ∈ active names ↔ ∃ e, entry e ∧ rowOf nameKey e = r

theorem mem_active {names : List DirectoryName} {r : DirectoryName} : r ∈ active names ↔ r ∈ names ∧ r.isDeleted = false := by
  unfold active
  rw [mem_filter,Bool.not_eq_true']

variable {names names' : List DirectoryName} {params e : NamespaceAcquireParams} {r : DirectoryName}
  {entry entry' : NamespaceAcquireParams → Prop}

theorem matches_congr (matched : Matches nameKey names entry) (same : ∀ e, entry' e ↔ entry e) : Matches nameKey names entry' := by
  have equal : entry' = entry := funext fun e => propext (same e)
  rwa [equal]

theorem mem_occupy : r ∈ active (occupy nameKey names params) ↔
    r = rowOf nameKey params ∨ r ∈ active names ∧ r.toNamespaceEntityRef ≠ params.toNamespaceEntityRef := by
  unfold occupy
  rw [mem_active,mem_active]
  split
  · next known =>
    obtain ⟨old,member,same⟩ := List.any_eq_true.mp known
    rw [mem_map]
    constructor
    · rintro ⟨⟨q,among,rfl⟩,live⟩
      split at live
      · next here => exact .inl (if_pos here)
      · next other =>
        rw [if_neg other]
        exact .inr ⟨⟨among,live⟩,other⟩
    · rintro (rfl | ⟨⟨among,live⟩,other⟩)
      · exact ⟨⟨old,member,if_pos (of_decide_eq_true same)⟩,rfl⟩
      · exact ⟨⟨r,among,if_neg other⟩,live⟩
  · next unknown =>
    rw [mem_append,mem_singleton]
    constructor
    · rintro ⟨among | rfl,live⟩
      · refine .inr ⟨⟨among,live⟩,fun same => unknown (List.any_eq_true.mpr ⟨r,among,?_⟩)⟩
        exact decide_eq_true same
      · exact .inl rfl
    · rintro (rfl | ⟨⟨among,live⟩,_⟩)
      · exact ⟨.inr rfl,rfl⟩
      · exact ⟨.inl among,live⟩

theorem acquire_ok (ok : acquire nameKey names params = .ok names') :
    UniqueNames names' ∧ names' = occupy nameKey names params := by
  unfold acquire at ok
  split at ok
  · next unique =>
    cases ok
    exact ⟨unique,rfl⟩
  · cases ok

theorem acquire_matches (matched : Matches nameKey names entry) (ok : acquire nameKey names params = .ok names') :
    Matches nameKey names' fun e => e = params ∨ entry e ∧ e.toNamespaceEntityRef ≠ params.toNamespaceEntityRef := by
  obtain ⟨unique,rfl⟩ := acquire_ok ok
  refine ⟨unique,fun r => ?_⟩
  rw [mem_occupy,matched.rows]
  constructor
  · rintro (rfl | ⟨⟨e,there,rfl⟩,other⟩)
    · exact ⟨params,.inl rfl,rfl⟩
    · exact ⟨e,.inr ⟨there,other⟩,rfl⟩
  · rintro ⟨e,rfl | ⟨there,other⟩,rfl⟩
    · exact .inl rfl
    · exact .inr ⟨⟨e,there,rfl⟩,other⟩

theorem acquireAll_matches {all : List NamespaceAcquireParams} (matched : Matches nameKey names entry)
    (distinct : (all.map NamespaceAcquireParams.toNamespaceEntityRef).Nodup) (ok : acquireAll nameKey names all = .ok names') :
    Matches nameKey names' fun e => e ∈ all ∨ entry e ∧ e.toNamespaceEntityRef ∉ all.map NamespaceAcquireParams.toNamespaceEntityRef := by
  induction all generalizing names entry with
  | nil =>
    cases ok
    exact matches_congr matched fun e => by simp
  | cons params rest ih =>
    obtain ⟨between,acquired,onward⟩ := bind_ok ok
    obtain ⟨absent,later⟩ := List.nodup_cons.mp distinct
    refine matches_congr (ih (acquire_matches matched acquired) later onward) fun e => ?_
    simp only [List.mem_cons,List.map_cons,not_or]
    constructor
    · rintro ((rfl | member) | ⟨there,other,others⟩)
      · exact .inr ⟨.inl rfl,absent⟩
      · exact .inl member
      · exact .inr ⟨.inr ⟨there,other⟩,others⟩
    · rintro (member | ⟨rfl | ⟨there,other⟩,others⟩)
      · exact .inl (.inr member)
      · exact .inl (.inl rfl)
      · exact .inr ⟨there,other,others⟩

theorem active_retire (gone : DirectoryName → Prop) [DecidablePred gone] (names : List DirectoryName) :
    active (names.map fun r => if gone r then retire r else r) = (active names).filter fun r => ¬ gone r := by
  unfold active
  rw [List.filter_map,filter_filter]
  have kept : ((fun row : DirectoryName => !row.isDeleted) ∘ fun r => if gone r then retire r else r) =
      fun r => decide (¬ gone r) && !r.isDeleted := by
    funext r
    by_cases out : gone r
    · simp [out,retire]
    · simp [out]
  rw [kept]
  conv_rhs => rw [← List.map_id (List.filter _ names)]
  refine List.map_congr_left fun r member => if_neg ?_
  obtain ⟨stays,_⟩ := Bool.and_eq_true_iff.mp (mem_filter.mp member).2
  exact of_decide_eq_true stays

theorem retire_matches {gone : DirectoryName → Prop} [DecidablePred gone] (matched : Matches nameKey names entry) :
    Matches nameKey (names.map fun r => if gone r then retire r else r) fun e => entry e ∧ ¬ gone (rowOf nameKey e) := by
  have left := active_retire gone names
  refine ⟨?_,fun r => ?_⟩
  · unfold UniqueNames
    rw [left]
    exact matched.unique.sublist (filter_sublist.map slot)
  · rw [left,mem_filter,matched.rows,decide_eq_true_eq]
    constructor
    · rintro ⟨⟨e,there,rfl⟩,stays⟩
      exact ⟨e,⟨there,stays⟩,rfl⟩
    · rintro ⟨e,⟨there,stays⟩,rfl⟩
      exact ⟨⟨e,there,rfl⟩,stays⟩

theorem remove_matches {ref : NamespaceEntityRef} (matched : Matches nameKey names entry) :
    Matches nameKey (remove names ref) fun e => entry e ∧ e.toNamespaceEntityRef ≠ ref := by
  have left : active (remove names ref) = (active names).filter fun r => r.toNamespaceEntityRef ≠ ref := by
    unfold active remove
    rw [filter_filter,filter_filter]
    exact List.filter_congr fun r _ => Bool.and_comm _ _
  refine ⟨?_,fun r => ?_⟩
  · unfold UniqueNames
    rw [left]
    exact matched.unique.sublist (filter_sublist.map slot)
  · rw [left,mem_filter,matched.rows,decide_eq_true_eq]
    constructor
    · rintro ⟨⟨e,there,rfl⟩,stays⟩
      exact ⟨e,⟨there,stays⟩,rfl⟩
    · rintro ⟨e,⟨there,stays⟩,rfl⟩
      exact ⟨⟨e,there,rfl⟩,stays⟩

variable {s s' : State}

theorem folder_ref {f g : Folder} : f.params.toNamespaceEntityRef = g.params.toNamespaceEntityRef ↔ f.id = g.id := by
  simp [Folder.params]

variable {f : File} {folderIds : List Nat} {byAdmin : Bool} {folder : Folder}

theorem file_ref {g : File} : f.params.toNamespaceEntityRef = g.params.toNamespaceEntityRef ↔ f.id = g.id := by
  simp [File.params]

theorem folder_ref_ne (f : Folder) (g : File) : f.params.toNamespaceEntityRef ≠ g.params.toNamespaceEntityRef := by
  simp [Folder.params,File.params]

theorem entry_unique (inv : Ids s) {a b : NamespaceAcquireParams} (first : Entry s a) (second : Entry s b)
    (same : a.toNamespaceEntityRef = b.toNamespaceEntityRef) : a = b := by
  rcases first with ⟨f,memberA,_,rfl⟩ | ⟨f,memberA,_,rfl⟩
  · rcases second with ⟨g,memberB,_,rfl⟩ | ⟨g,memberB,_,rfl⟩
    · exact congrArg Folder.params (folder_unique inv memberA memberB (folder_ref.mp same))
    · exact absurd same (folder_ref_ne f g)
  · rcases second with ⟨g,memberB,_,rfl⟩ | ⟨g,memberB,_,rfl⟩
    · exact absurd same.symm (folder_ref_ne g f)
    · exact congrArg File.params (file_unique inv memberA memberB (file_ref.mp same))

theorem entry_saveFolder {f : Folder} (folders : s'.folders = saveFolder s.folders f) (files : s'.files = s.files)
    (there : ∃ g ∈ s.folders, g.id = f.id) (live : f.isDeleted = false) (e : NamespaceAcquireParams) :
    Entry s' e ↔ e = f.params ∨ Entry s e ∧ e.toNamespaceEntityRef ≠ f.params.toNamespaceEntityRef := by
  unfold Entry
  rw [folders,files]
  constructor
  · rintro (⟨g,member,lives,rfl⟩ | ⟨g,member,lives,rfl⟩)
    · rcases (mem_save fun h : Folder => h.id).mp member with ⟨rfl,_⟩ | ⟨member,other⟩
      · exact .inl rfl
      · exact .inr ⟨.inl ⟨g,member,lives,rfl⟩,fun same => other (folder_ref.mp same)⟩
    · exact .inr ⟨.inr ⟨g,member,lives,rfl⟩,fun same => folder_ref_ne f g same.symm⟩
  · rintro (rfl | ⟨⟨g,member,lives,rfl⟩ | there,other⟩)
    · exact .inl ⟨f,(mem_save fun h : Folder => h.id).mpr (.inl ⟨rfl,there⟩),live,rfl⟩
    · exact .inl ⟨g,(mem_save fun h : Folder => h.id).mpr (.inr ⟨member,fun same => other (folder_ref.mpr same)⟩),lives,rfl⟩
    · exact .inr there

section
variable (folders : s'.folders = s.folders) (files : s'.files = saveFile s.files f)
include folders files

theorem entry_saveFile (there : ∃ g ∈ s.files, g.id = f.id) (live : f.isDeleted = false) (e : NamespaceAcquireParams) :
    Entry s' e ↔ e = f.params ∨ Entry s e ∧ e.toNamespaceEntityRef ≠ f.params.toNamespaceEntityRef := by
  unfold Entry
  rw [folders,files]
  constructor
  · rintro (⟨g,member,lives,rfl⟩ | ⟨g,member,lives,rfl⟩)
    · exact .inr ⟨.inl ⟨g,member,lives,rfl⟩,folder_ref_ne g f⟩
    · rcases (mem_save File.id).mp member with ⟨rfl,_⟩ | ⟨member,other⟩
      · exact .inl rfl
      · exact .inr ⟨.inr ⟨g,member,lives,rfl⟩,fun same => other (file_ref.mp same)⟩
  · rintro (rfl | ⟨there | ⟨g,member,lives,rfl⟩,other⟩)
    · exact .inr ⟨f,(mem_save File.id).mpr (.inl ⟨rfl,there⟩),live,rfl⟩
    · exact .inl there
    · exact .inr ⟨g,(mem_save File.id).mpr (.inr ⟨member,fun same => other (file_ref.mpr same)⟩),lives,rfl⟩

theorem entry_dropFile (gone : f.isDeleted = true) (e : NamespaceAcquireParams) :
    Entry s' e ↔ Entry s e ∧ e.toNamespaceEntityRef ≠ fileRef f.id := by
  unfold Entry
  rw [folders,files]
  constructor
  · rintro (⟨g,member,lives,rfl⟩ | ⟨g,member,lives,rfl⟩)
    · exact ⟨.inl ⟨g,member,lives,rfl⟩,folder_ref_ne g f⟩
    · rcases (mem_save File.id).mp member with ⟨rfl,_⟩ | ⟨member,other⟩
      · rw [gone] at lives
        cases lives
      · exact ⟨.inr ⟨g,member,lives,rfl⟩,fun same => other (file_ref.mp same)⟩
  · rintro ⟨there | ⟨g,member,lives,rfl⟩,other⟩
    · exact .inl there
    · exact .inr ⟨g,(mem_save File.id).mpr (.inr ⟨member,fun same => other (file_ref.mpr same)⟩),lives,rfl⟩

theorem entry_hidden (gone : f.isDeleted = true) (hidden : ∀ g ∈ s.files, g.id = f.id → g.isDeleted = true) (e : NamespaceAcquireParams) :
    Entry s' e ↔ Entry s e := by
  rw [entry_dropFile folders files gone e]
  refine ⟨And.left,fun there => ⟨there,fun same => ?_⟩⟩
  rcases there with ⟨g,_,_,rfl⟩ | ⟨g,listed,live,rfl⟩
  · exact folder_ref_ne g f same
  · rw [hidden g listed (file_ref.mp same)] at live
    cases live

end

theorem entry_createFolder (inv : Ids s) {f : Folder} (next : f.id = s.nextId) (live : f.isDeleted = false)
    (folders : s'.folders = s.folders ++ [f]) (files : s'.files = s.files) (e : NamespaceAcquireParams) :
    Entry s' e ↔ e = f.params ∨ Entry s e ∧ e.toNamespaceEntityRef ≠ f.params.toNamespaceEntityRef := by
  have fresh : ∀ g ∈ s.folders, g.id ≠ f.id := fun g member =>
    Nat.ne_of_lt (next ▸ inv.fresh g.id (mem_append_left _ (mem_map_of_mem (f := fun h : Folder => h.id) member)))
  unfold Entry
  rw [folders,files]
  constructor
  · rintro (⟨g,member,lives,rfl⟩ | ⟨g,member,lives,rfl⟩)
    · rcases mem_append.mp member with before | new
      · exact .inr ⟨.inl ⟨g,before,lives,rfl⟩,fun same => fresh g before (folder_ref.mp same)⟩
      · exact .inl (congrArg Folder.params (mem_singleton.mp new))
    · exact .inr ⟨.inr ⟨g,member,lives,rfl⟩,fun same => folder_ref_ne f g same.symm⟩
  · rintro (rfl | ⟨⟨g,member,lives,rfl⟩ | there,_⟩)
    · exact .inl ⟨f,mem_append_right _ (mem_singleton.mpr rfl),live,rfl⟩
    · exact .inl ⟨g,mem_append_left _ member,lives,rfl⟩
    · exact .inr there

theorem entry_createFile (inv : Ids s) (next : f.id = s.nextId) (live : f.isDeleted = false)
    (folders : s'.folders = s.folders) (files : s'.files = s.files ++ [f]) (e : NamespaceAcquireParams) :
    Entry s' e ↔ e = f.params ∨ Entry s e ∧ e.toNamespaceEntityRef ≠ f.params.toNamespaceEntityRef := by
  have fresh : ∀ g ∈ s.files, g.id ≠ f.id := fun g member =>
    Nat.ne_of_lt (next ▸ inv.fresh g.id (mem_append_right _ (mem_map_of_mem (f := File.id) member)))
  unfold Entry
  rw [folders,files]
  constructor
  · rintro (⟨g,member,lives,rfl⟩ | ⟨g,member,lives,rfl⟩)
    · exact .inr ⟨.inl ⟨g,member,lives,rfl⟩,folder_ref_ne g f⟩
    · rcases mem_append.mp member with before | new
      · exact .inr ⟨.inr ⟨g,before,lives,rfl⟩,fun same => fresh g before (file_ref.mp same)⟩
      · exact .inl (congrArg File.params (mem_singleton.mp new))
  · rintro (rfl | ⟨there | ⟨g,member,lives,rfl⟩,_⟩)
    · exact .inr ⟨f,mem_append_right _ (mem_singleton.mpr rfl),live,rfl⟩
    · exact .inl there
    · exact .inr ⟨g,mem_append_left _ member,lives,rfl⟩

theorem collected_there {folders : List Folder} {rootId id : Nat}
    (collected : collectSubtreeIds folders rootId = some folderIds) (among : id ∈ folderIds) : ∃ f ∈ folders, f.id = id := by
  obtain ⟨height,_,rfl⟩ := Option.map_eq_some_iff.mp collected
  obtain ⟨k,_,member⟩ := List.mem_flatMap.mp among
  have known : ∃ row ∈ rows folders, row.id = id := by
    cases k with
    | zero | succ k =>
      obtain ⟨row,there,rfl⟩ := mem_map.mp member
      exact ⟨row,(mem_filter.mp there).1,rfl⟩
  obtain ⟨row,there,same⟩ := known
  obtain ⟨f,listed,rfl⟩ := mem_map.mp there
  exact ⟨f,listed,same⟩

theorem trash_folder_live {now : Nat} {f : Folder}
    (live : (f.trashWithin now folderIds).isDeleted = false) :
    f.trashWithin now folderIds = f ∧ f.isDeleted = false ∧ f.id ∉ folderIds := by
  unfold Folder.trashWithin at live ⊢
  split at live
  · cases live
  · next stays =>
    rw [if_neg stays]
    exact ⟨rfl,live,fun among => stays ⟨among,live⟩⟩

theorem trash_file_live {now : Nat}
    (live : (f.trashWithin now folderIds byAdmin).isDeleted = false) :
    f.trashWithin now folderIds byAdmin = f ∧ f.isDeleted = false ∧ within folderIds f.folderId = false := by
  unfold File.trashWithin at live ⊢
  split at live
  · cases live
  · next stays =>
    rw [if_neg stays]
    exact ⟨rfl,live,eq_false_of_ne_true fun inside => stays ⟨inside,live⟩⟩

theorem mem_affected {now id : Nat} {files : List File} :
    id ∈ affectedFileIds now folderIds (files.map (File.trashWithin now folderIds byAdmin)) ↔
      ∃ g ∈ files, g.id = id ∧ within folderIds g.folderId = true ∧
        (g.trashWithin now folderIds byAdmin).deleteRequestedAt = some now := by
  have same : ∀ g : File, (g.trashWithin now folderIds byAdmin).params = g.params := trashWithin_file now folderIds byAdmin
  have place : ∀ g : File, (g.trashWithin now folderIds byAdmin).folderId = g.folderId := fun g => folderId_of_params (same g)
  unfold affectedFileIds
  rw [mem_map]
  constructor
  · rintro ⟨g',member,rfl⟩
    obtain ⟨among,fits⟩ := mem_filter.mp member
    obtain ⟨g,there,rfl⟩ := mem_map.mp among
    simp only [Bool.and_eq_true,decide_eq_true_eq] at fits
    exact ⟨g,there,(id_of_params (same g)).symm,place g ▸ fits.1,fits.2⟩
  · rintro ⟨g,there,rfl,inside,requested⟩
    refine ⟨g.trashWithin now folderIds byAdmin,mem_filter.mpr ⟨mem_map_of_mem there,?_⟩,id_of_params (same g)⟩
    simp only [Bool.and_eq_true,decide_eq_true_eq]
    exact ⟨(place g).symm ▸ inside,requested⟩

theorem entry_trash (inv : Ids s) {rootId : Nat}
    (collected : collectSubtreeIds s.folders rootId = some folderIds)
    (folders : s'.folders = s.folders.map (Folder.trashWithin s.now folderIds))
    (files : s'.files = s.files.map (File.trashWithin s.now folderIds byAdmin)) {refs : List NamespaceEntityRef}
    (released : refs = folderIds.map folderRef ++
      (affectedFileIds s.now folderIds (s.files.map (File.trashWithin s.now folderIds byAdmin))).map fileRef)
    (e : NamespaceAcquireParams) :
    Entry s' e ↔ Entry s e ∧ ¬ (e.entityType ∈ refs.map NamespaceEntityRef.entityType ∧
      e.entityId ∈ refs.map NamespaceEntityRef.entityId) := by
  have entityId : ∀ id, id ∈ refs.map NamespaceEntityRef.entityId ↔ id ∈ folderIds ∨
      id ∈ affectedFileIds s.now folderIds (s.files.map (File.trashWithin s.now folderIds byAdmin)) := by
    subst released
    simp [folderRef,fileRef]
  have folderType : ∀ id ∈ folderIds, DirectoryNameEntityType.folder ∈ refs.map NamespaceEntityRef.entityType := by
    intro id among
    subst released
    exact mem_map.mpr ⟨folderRef id,mem_append_left _ (mem_map_of_mem among),rfl⟩
  have fileType : ∀ id ∈ affectedFileIds s.now folderIds (s.files.map (File.trashWithin s.now folderIds byAdmin)),
      DirectoryNameEntityType.file ∈ refs.map NamespaceEntityRef.entityType := by
    intro id among
    subst released
    exact mem_map.mpr ⟨fileRef id,mem_append_right _ (mem_map_of_mem among),rfl⟩
  unfold Entry
  rw [folders,files]
  constructor
  · rintro (⟨f',member,lives,rfl⟩ | ⟨g',member,lives,rfl⟩)
    · obtain ⟨f,there,rfl⟩ := mem_map.mp member
      obtain ⟨same,live,outside⟩ := trash_folder_live lives
      rw [same]
      refine ⟨.inl ⟨f,there,live,rfl⟩,fun gone => ?_⟩
      rcases (entityId f.id).mp gone.2 with inside | among
      · exact outside inside
      · obtain ⟨g,listed,clash,_⟩ := mem_affected.mp among
        exact folder_ne_file inv there listed clash.symm
    · obtain ⟨g,there,rfl⟩ := mem_map.mp member
      obtain ⟨same,live,outside⟩ := trash_file_live lives
      rw [same]
      refine ⟨.inr ⟨g,there,live,rfl⟩,fun gone => ?_⟩
      rcases (entityId g.id).mp gone.2 with inside | among
      · obtain ⟨f,listed,clash⟩ := collected_there collected inside
        exact folder_ne_file inv listed there clash
      · obtain ⟨h,listed,clash,inside,_⟩ := mem_affected.mp among
        rw [file_unique inv listed there clash,outside] at inside
        cases inside
  · rintro ⟨⟨f,there,live,rfl⟩ | ⟨g,there,live,rfl⟩,stays⟩
    · have outside : f.id ∉ folderIds := fun among => stays ⟨folderType f.id among,(entityId f.id).mpr (.inl among)⟩
      have same : f.trashWithin s.now folderIds = f := if_neg fun inside => outside inside.1
      exact .inl ⟨f,mem_map.mpr ⟨f,there,same⟩,live,rfl⟩
    · have outside : ¬ (within folderIds g.folderId = true ∧ g.isDeleted = false) := by
        intro inside
        have trashed : g.trashWithin s.now folderIds byAdmin = g.trash s.now byAdmin := if_pos inside
        have among := mem_affected.mpr ⟨g,there,rfl,inside.1,congrArg File.deleteRequestedAt trashed⟩
        exact stays ⟨fileType g.id among,(entityId g.id).mpr (.inr among)⟩
      exact .inr ⟨g,mem_map.mpr ⟨g,there,if_neg outside⟩,live,rfl⟩

theorem restore_folder {f : Folder} :
    (Folder.restoreWithin folder folderIds f).params = f.params ∧
      (Folder.restoreWithin folder folderIds f = f ∨
        f.id ∈ folderIds ∧ (Folder.restoreWithin folder folderIds f).isDeleted = false ∧
          (Folder.restoreWithin folder folderIds f).deleteRequestedAt = none) := by
  unfold Folder.restoreWithin
  split
  · next inside => exact ⟨rfl,.inr ⟨inside.1,rfl,rfl⟩⟩
  · exact ⟨rfl,.inl rfl⟩

theorem restore_file :
    f.restoreWithin folder folderIds = f ∨
      within folderIds f.folderId = true ∧ (f.restoreWithin folder folderIds).isDeleted = false ∧
        (f.restoreWithin folder folderIds).deleteRequestedAt = none := by
  unfold File.restoreWithin
  split
  · next inside => exact .inr ⟨inside.1,rfl,rfl⟩
  · exact .inl rfl

theorem mem_restored {folders : List Folder} {files : List File} :
    e ∈ restored folderIds folders files ↔
      (∃ f ∈ folders, (f.id ∈ folderIds ∧ f.isDeleted = false ∧ f.deleteRequestedAt = none) ∧ f.params = e) ∨
        ∃ f ∈ files, (within folderIds f.folderId = true ∧ f.isDeleted = false ∧ f.deleteRequestedAt = none) ∧ f.params = e := by
  unfold restored
  simp only [mem_append,mem_map,mem_filter,decide_eq_true_eq,and_assoc]

theorem restored_distinct (inv : Ids s) (folderIds : List Nat) :
    ((restored folderIds s.folders s.files).map NamespaceAcquireParams.toNamespaceEntityRef).Nodup := by
  refine List.Nodup.of_map NamespaceEntityRef.entityId ?_
  unfold restored
  rw [List.map_append,List.map_append,map_map,map_map,map_map,map_map]
  exact inv.distinct.sublist (List.Sublist.append (filter_sublist.map _) (filter_sublist.map _))

theorem entry_restore (inv : Ids s')
    (folders : s'.folders = s.folders.map (Folder.restoreWithin folder folderIds))
    (files : s'.files = s.files.map (File.restoreWithin folder folderIds)) (e : NamespaceAcquireParams) :
    Entry s' e ↔ e ∈ restored folderIds s'.folders s'.files ∨ Entry s e ∧
      e.toNamespaceEntityRef ∉ (restored folderIds s'.folders s'.files).map NamespaceAcquireParams.toNamespaceEntityRef := by
  constructor
  · intro there
    by_cases among : e ∈ restored folderIds s'.folders s'.files
    · exact .inl among
    refine .inr ⟨?_,fun again => ?_⟩
    · rcases there with ⟨f',member,lives,rfl⟩ | ⟨g',member,lives,rfl⟩
      · rw [folders] at member
        obtain ⟨f,listed,rfl⟩ := mem_map.mp member
        rcases restore_folder.2 with same | back
        · rw [same] at lives ⊢
          exact .inl ⟨f,listed,lives,rfl⟩
        · refine absurd (mem_restored.mpr (.inl ⟨_,folders ▸ mem_map_of_mem listed,⟨?_,back.2⟩,rfl⟩)) among
          rw [restoreWithin_id]
          exact back.1
      · rw [files] at member
        obtain ⟨g,listed,rfl⟩ := mem_map.mp member
        rcases restore_file with same | back
        · rw [same] at lives ⊢
          exact .inr ⟨g,listed,lives,rfl⟩
        · refine absurd (mem_restored.mpr (.inr ⟨_,files ▸ mem_map_of_mem listed,⟨?_,back.2⟩,rfl⟩)) among
          rw [folderId_of_params (restoreWithin_file folder folderIds g)]
          exact back.1
    · obtain ⟨e',restored,same⟩ := mem_map.mp again
      have entry : Entry s' e' := by
        rcases mem_restored.mp restored with ⟨f,listed,back,rfl⟩ | ⟨f,listed,back,rfl⟩
        · exact .inl ⟨f,listed,back.2.1,rfl⟩
        · exact .inr ⟨f,listed,back.2.1,rfl⟩
      exact among (entry_unique inv entry there same ▸ restored)
  · rintro (among | ⟨there,_⟩)
    · rcases mem_restored.mp among with ⟨f,listed,back,rfl⟩ | ⟨f,listed,back,rfl⟩
      · exact .inl ⟨f,listed,back.2.1,rfl⟩
      · exact .inr ⟨f,listed,back.2.1,rfl⟩
    · rcases there with ⟨f,listed,live,rfl⟩ | ⟨f,listed,live,rfl⟩
      · refine .inl ⟨Folder.restoreWithin folder folderIds f,folders ▸ mem_map_of_mem listed,?_,restore_folder.1⟩
        rcases restore_folder.2 with same | back
        · rw [same]
          exact live
        · exact back.2.1
      · refine .inr ⟨f.restoreWithin folder folderIds,files ▸ mem_map_of_mem listed,?_,restoreWithin_file folder folderIds f⟩
        rcases restore_file with same | back
        · rw [same]
          exact live
        · exact back.2.1

structure Inv (nameKey : String → String) (s : State) : Prop where
  ids : Ids s
  matched : Matches nameKey s.names (Entry s)

theorem matches_put (matched : Matches nameKey s.names (Entry s)) (named : acquire nameKey s.names params = .ok names)
    (same : ∀ e, Entry s' e ↔ e = params ∨ Entry s e ∧ e.toNamespaceEntityRef ≠ params.toNamespaceEntityRef) :
    Matches nameKey names (Entry s') :=
  matches_congr (acquire_matches matched named) same

theorem matches_reuse (inv : Inv nameKey s) {g : File} (there : f ∈ s.files) (live : f.isDeleted = false)
    (row : rowOf nameKey g.params = rowOf nameKey f.params)
    (same : ∀ e, Entry s' e ↔ e = g.params ∨ Entry s e ∧ e.toNamespaceEntityRef ≠ g.params.toNamespaceEntityRef) :
    Matches nameKey s.names (Entry s') := by
  have entry : Entry s f.params := .inr ⟨f,there,live,rfl⟩
  have ref : g.params.toNamespaceEntityRef = f.params.toNamespaceEntityRef :=
    congrArg DirectoryName.toNamespaceEntityRef row
  refine ⟨inv.matched.unique,fun r => ?_⟩
  rw [inv.matched.rows]
  constructor
  · rintro ⟨e,before,rfl⟩
    by_cases here : e.toNamespaceEntityRef = g.params.toNamespaceEntityRef
    · rw [entry_unique inv.ids before entry (here.trans ref)]
      exact ⟨g.params,(same _).mpr (.inl rfl),row⟩
    · exact ⟨e,(same e).mpr (.inr ⟨before,here⟩),rfl⟩
  · rintro ⟨e,after,rfl⟩
    rcases (same e).mp after with rfl | ⟨before,_⟩
    · exact ⟨f.params,entry,row.symm⟩
    · exact ⟨e,before,rfl⟩

theorem entry_worked {worked : File → File} (same : ∀ f, (worked f).params = f.params ∧ (worked f).isDeleted = f.isDeleted)
    (folders : s'.folders = s.folders) (files : s'.files = s.files.map worked) (e : NamespaceAcquireParams) :
    Entry s' e ↔ Entry s e := by
  unfold Entry FileEntry
  rw [folders,files]
  refine or_congr_right ⟨?_,?_⟩
  · rintro ⟨g,member,live,rfl⟩
    obtain ⟨f,listed,rfl⟩ := mem_map.mp member
    exact ⟨f,listed,(same f).2.symm.trans live,(same f).1.symm⟩
  · rintro ⟨f,listed,live,rfl⟩
    exact ⟨worked f,mem_map_of_mem listed,(same f).2.trans live,(same f).1⟩

theorem entry_cancel {id : Nat} (processing : ∀ f ∈ s.files, f.id = id → f.isDeleted = false → f.status = .processing)
    (e : NamespaceAcquireParams) :
    Entry (softDeleteProcessingFile s id) e ↔ Entry s e ∧ e.toNamespaceEntityRef ≠ fileRef id := by
  constructor
  · rintro (⟨f,listed,live,rfl⟩ | ⟨g,member,live,rfl⟩)
    · exact ⟨.inl ⟨f,listed,live,rfl⟩,by simp [Folder.params,fileRef]⟩
    · obtain ⟨f,listed,rfl⟩ := mem_map.mp member
      split at live
      · cases live
      · next other =>
        rw [if_neg other]
        refine ⟨.inr ⟨f,listed,live,rfl⟩,fun same => ?_⟩
        have here : f.id = id := congrArg NamespaceEntityRef.entityId same
        exact other ⟨here,processing f listed here live⟩
  · rintro ⟨there | ⟨f,listed,live,rfl⟩,other⟩
    · exact .inl there
    · have apart : ¬ (f.id = id ∧ f.status = .processing) := fun both => other (congrArg fileRef both.1)
      exact .inr ⟨f,mem_map.mpr ⟨f,listed,if_neg apart⟩,live,rfl⟩

theorem entry_remove {id : Nat} (folders : s'.folders = s.folders) (files : s'.files = s.files.filter fun f => f.id ≠ id)
    (e : NamespaceAcquireParams) : Entry s' e ↔ Entry s e ∧ e.toNamespaceEntityRef ≠ fileRef id := by
  unfold Entry FileEntry
  rw [folders,files]
  constructor
  · rintro (⟨f,listed,live,rfl⟩ | ⟨g,member,live,rfl⟩)
    · exact ⟨.inl ⟨f,listed,live,rfl⟩,by simp [Folder.params,fileRef]⟩
    · obtain ⟨listed,other⟩ := mem_filter.mp member
      exact ⟨.inr ⟨g,listed,live,rfl⟩,fun same => of_decide_eq_true other (congrArg NamespaceEntityRef.entityId same)⟩
  · rintro ⟨there | ⟨f,listed,live,rfl⟩,other⟩
    · exact .inl there
    · exact .inr ⟨f,mem_filter.mpr ⟨listed,decide_eq_true fun here => other (congrArg fileRef here)⟩,live,rfl⟩

theorem inv_change (inv : Inv nameKey s) {l : Label} (keeps : Keeps nameKey s l) (change : Change nameKey s l s') :
    Inv nameKey s' := by
  have later : Ids s' := ids_change inv.ids change
  refine ⟨later,?_⟩
  cases change with
  | passed => exact inv.matched
  | folderCreated placed named => exact matches_put inv.matched named (entry_createFolder inv.ids rfl rfl rfl rfl)
  | folderSaved there live placed named =>
    exact matches_put inv.matched named (entry_saveFolder rfl rfl ⟨_,there,rfl⟩ live)
  | folderTrashed byAdmin collected =>
    exact matches_congr (retire_matches inv.matched) (entry_trash inv.ids collected rfl rfl rfl)
  | folderRestored asked taken there gone above collected named =>
    exact matches_congr (acquireAll_matches inv.matched (restored_distinct later _) named) (entry_restore later rfl rfl)
  | fileCreated placed named => exact matches_put inv.matched named (entry_createFile inv.ids rfl rfl rfl rfl)
  | fileSaved there same owner live lives scheduled placed named =>
    exact matches_put inv.matched named (entry_saveFile rfl rfl ⟨_,there,same.symm⟩ lives)
  | fileReused asked permitted found there live =>
    subst asked
    show Matches nameKey s.names _
    refine matches_reuse inv there live ?_ (entry_saveFile rfl rfl ⟨_,there,rfl⟩ live)
    exact congrArg (fun key => DirectoryName.mk _ _ _ key _) (keeps _ found permitted)
  | fileWorked worked same =>
    exact matches_congr inv.matched (entry_worked (fun f => ⟨(same f).1,(same f).2.1⟩) rfl rfl)
  | fileCancelled asked =>
    subst asked
    exact matches_congr (retire_matches inv.matched) (entry_cancel keeps)
  | @fileTrashed f deleteCooldownUntil there live =>
    exact matches_congr (retire_matches inv.matched)
      (entry_dropFile (f := { f.trash s.now false with deleteCooldownUntil }) rfl rfl rfl)
  | @fileMarked id user f deleteCooldownUntil asked there here first =>
    subst asked here
    exact matches_congr inv.matched
      (entry_hidden (f := { f.trash s.now true with deleteCooldownUntil }) rfl rfl rfl keeps)
  | fileRemoved id => exact matches_congr (remove_matches inv.matched) (entry_remove rfl rfl)
  | fileRestored asked there here gone named restored =>
    exact matches_put inv.matched named (entry_saveFile rfl rfl ⟨_,there,rfl⟩ rfl)

theorem inv_start : Inv nameKey .start :=
  ⟨ids_start,List.nodup_nil,fun _ => ⟨(nofun),fun ⟨_,there,_⟩ => by
    rcases there with ⟨_,listed,_⟩ | ⟨_,listed,_⟩ <;> cases listed⟩⟩

theorem owned_of_inv (inv : Inv nameKey s) : NamesOwned nameKey s where
  owned e there := (inv.matched.rows _).mpr ⟨e,there,rfl⟩
  apart a b first second owner folder key := by
    have rowA := (inv.matched.rows _).mpr ⟨a,first,rfl⟩
    have rowB := (inv.matched.rows _).mpr ⟨b,second,rfl⟩
    have slots : slot (rowOf nameKey a) = slot (rowOf nameKey b) := by
      simp only [slot,rowOf,owner,folder,key]
    have row := List.inj_on_of_nodup_map inv.matched.unique rowA rowB slots
    exact entry_unique inv.ids first second (congrArg DirectoryName.toNamespaceEntityRef row)
  live r among := by
    obtain ⟨e,there,rfl⟩ := (inv.matched.rows r).mp among
    exact ⟨e,there,rfl⟩

theorem keeps_reuse (inv : Inv nameKey s) {user : User} {originalName : String} {folderId overwriteFileId : Option Nat} {target : File}
    (found : overwrites s overwriteFileId user folderId = some target) (permitted : assertUploadFolder s folderId user.id = .ok ())
    (after : NamesOwned nameKey (step nameKey s (.createProcessingFile user originalName folderId overwriteFileId))) :
    nameKey originalName = nameKey target.originalName := by
  have ran : createProcessingFile nameKey s user originalName folderId overwriteFileId = .ok (reuseTarget s target originalName) := by
    unfold createProcessingFile
    rw [permitted,found]
    rfl
  have result : step nameKey s (.createProcessingFile user originalName folderId overwriteFileId) =
      reuseTarget s target originalName := by
    show s.after (createProcessingFile nameKey s user originalName folderId overwriteFileId) = _
    rw [ran]
    rfl
  rw [result] at after
  obtain ⟨there,live,_⟩ := overwrites_found found
  have entry : Entry (reuseTarget s target originalName) { target.params with name := originalName } :=
    .inr ⟨_,(mem_save File.id).mpr (.inl ⟨rfl,target,there,rfl⟩),live,rfl⟩
  obtain ⟨e,before,row⟩ := (inv.matched.rows _).mp (after.owned _ entry)
  have same : e = target.params :=
    entry_unique inv.ids before (.inr ⟨target,there,live,rfl⟩) (congrArg DirectoryName.toNamespaceEntityRef row)
  rw [same] at row
  exact (congrArg DirectoryName.nameKey row).symm

theorem keeps_cancel (inv : Inv nameKey s) {id : Nat} (after : NamesOwned nameKey (step nameKey s (.softDeleteProcessingFile id)))
    (there : f ∈ s.files) (here : f.id = id) (live : f.isDeleted = false) : f.status = .processing := by
  by_contra other
  have stays : Entry (softDeleteProcessingFile s id) f.params :=
    .inr ⟨f,mem_map.mpr ⟨f,there,if_neg fun both => other both.2⟩,live,rfl⟩
  have retired : Matches nameKey (release s.names (fileRef id)) _ := retire_matches inv.matched
  obtain ⟨e,⟨_,apart⟩,row⟩ := (retired.rows _).mp (after.owned _ stays)
  have same : (rowOf nameKey e).toNamespaceEntityRef = fileRef f.id := congrArg DirectoryName.toNamespaceEntityRef row
  rw [here] at same
  exact apart same

theorem keeps_mark (inv : Inv nameKey s) {id : Nat} {user : User} (after : NamesOwned nameKey (step nameKey s (.adminDeleteFile id user)))
    (there : f ∈ s.files) (here : f.id = id) : f.isDeleted = true := by
  by_contra live
  have row := (inv.matched.rows _).mpr ⟨f.params,.inr ⟨f,there,eq_false_of_ne_true live,rfl⟩,rfl⟩
  cases known : s.files.find? fun g => g.id = id with
  | none => exact absurd here (by simpa using List.find?_eq_none.mp known f there)
  | some g =>
    have same : g = f := file_unique inv.ids (List.mem_of_find?_eq_some known) there
      ((by simpa using List.find?_some known : g.id = id).trans here.symm)
    have result : step nameKey s (.adminDeleteFile id user) = { s with
        files := saveFile s.files { f.trash s.now true with deleteCooldownUntil := some (s.now + FILE_DELETE_COOLDOWN_MS) } } := by
      show s.after (adminDeleteFile s id user) = _
      unfold adminDeleteFile findFile
      rw [known,same]
      show s.after (if (f.isDeleted && f.deletedByAdmin) = true then _ else _) = _
      rw [eq_false_of_ne_true live]
      rfl
    rw [result] at after
    obtain ⟨e,entry,ref⟩ := after.live _ row
    refine ((entry_dropFile (s := s)
      (f := { f.trash s.now true with deleteCooldownUntil := some (s.now + FILE_DELETE_COOLDOWN_MS) }) ?_ ?_ ?_ e).mp entry).2 ref
    · rfl
    · rfl
    · rfl

theorem keeps_of_owned (inv : Inv nameKey s) {l : Label} (after : NamesOwned nameKey (step nameKey s l)) : Keeps nameKey s l := by
  cases l with
  | createProcessingFile user originalName folderId overwriteFileId =>
    exact fun target found permitted => keeps_reuse inv found permitted after
  | softDeleteProcessingFile id => exact fun f there here live => keeps_cancel inv after there here live
  | adminDeleteFile id user => exact fun f there here => keeps_mark inv after there here
  | _ => trivial

/-- Everything has its name, and a step keeps it so exactly when the names of the files it touches are kept. -/
theorem names_owned (nameKey : String → String) {s : State} (reach : Reached nameKey s) :
    NamesOwned nameKey s ∧ ∀ l, NamesOwned nameKey (step nameKey s l) ↔ Keeps nameKey s l := by
  have inv : Inv nameKey s :=
    reachable_invariant inv_start (fun s l inv keeps => inv_change inv keeps (step_change nameKey s l)) reach
  refine ⟨owned_of_inv inv,fun l => ⟨keeps_of_owned inv,fun keeps => ?_⟩⟩
  exact owned_of_inv (inv_change inv keeps (step_change nameKey s l))

def owner : User := ⟨7,false⟩

/-- Files come to a folder, one of them is overwritten under its name, and the folder goes to the trash and back. -/
def tidied : List Label :=
  [.createFolder 7 "docs" none,.upload owner "a",.createProcessingFile owner "b" (some 0) none,.finished 2 1 .ready,
    .createProcessingFile owner "b" (some 0) (some 2),.moveFile 7 1 (some 0),.softDeleteFolder 7 0 false,.tick 1000,
    .restoreFolder 7 0,.renameFile 7 1 "c"]

theorem names_owned_tidied :
    (NamesOwned id (tidied.foldl (step id) .start) ∧
      ∀ l, NamesOwned id (step id (tidied.foldl (step id) .start) l) ↔ Keeps id (tidied.foldl (step id) .start) l) ∧
      (active (tidied.foldl (step id) .start).names).map slot = [(7,none,"docs"),(7,some 0,"c"),(7,some 0,"b")] :=
  ⟨names_owned id (reachable_run .start tidied (by decide +kernel)),by decide +kernel⟩

def overwritten : List Label := [.upload owner "a",.createProcessingFile owner "b" none (some 0),.upload owner "b"]

theorem two_of_one_name : ¬ ∀ (nameKey : String → String) (s : State),
    Reachable (step nameKey) (fun _ _ => True) .start s → NamesOwned nameKey s := by
  intro always
  have holds := always id _ (reachable_run .start overwritten (by decide +kernel))
  have first : Entry (overwritten.foldl (step id) .start) ⟨⟨.file,0⟩,7,none,"b"⟩ :=
    .inr ⟨⟨0,7,none,"b",.processing,2,false,false,none,none,none⟩,by decide +kernel,rfl,rfl⟩
  have second : Entry (overwritten.foldl (step id) .start) ⟨⟨.file,1⟩,7,none,"b"⟩ :=
    .inr ⟨⟨1,7,none,"b",.ready,1,false,false,none,none,none⟩,by decide +kernel,rfl,rfl⟩
  exact absurd (holds.apart _ _ first second rfl rfl rfl) (by decide)

end
end Tgtc.DirectoryNames
