import Mathlib.Data.List.Chain
import Tgtc.Maps
import Tgtc.ShareLinks

/-!
Files and folders as somebody looks at them through a link. A folder belongs to what is shared
when the way up from it comes to the folder that is shared, through folders of the one who shares.
-/
namespace Tgtc.ShareFolders
open Maps ShareLinks

structure HttpError where
  status : Nat
  message : String
deriving DecidableEq

def badRequest (message : String) : HttpError := ⟨400,message⟩
def forbidden (message : String) : HttpError := ⟨403,message⟩
def notFound (message : String) : HttpError := ⟨404,message⟩
def tooManyRequests (message : String) : HttpError := ⟨429,message⟩

def internalError : HttpError := ⟨500,"Internal server error"⟩

structure Folder where
  name : String
  parentId : Option Nat
  ownerId : Nat
  createdAt : Nat
  isDeleted : Bool

structure File where
  originalName : String
  mimeType : String
  size : Nat
  createdAt : Nat
  uploadVersion : Nat
  status : String
  uploaderId : Nat
  folderId : Option Nat
  isDeleted : Bool

structure Tables where
  files : OrderedMap Nat File
  folders : OrderedMap Nat Folder

def Tables.file (t : Tables) (id : Nat) : Option File := (t.files.get id).filter fun file => !file.isDeleted

def Tables.folder (t : Tables) (id : Nat) : Option Folder := (t.folders.get id).filter fun folder => !folder.isDeleted

def MAX_SHARE_FOLDER_DEPTH : Nat := 20

def outside : HttpError := forbidden "文件夹不在此分享的子树内"

def climb (t : Tables) (link : ShareLink) : Nat → List Nat → List (Nat × Folder) → Option Nat → Except HttpError (List (Nat × Folder))
  | 0, _, _, _ => .error outside
  | _ + 1, _, _, none => .error outside
  | rounds + 1, seen, path, some currentId =>
    if currentId ∈ seen then .error outside
    else match t.folder currentId with
      | none => .error (if path.isEmpty then notFound "文件夹不存在或已被删除" else outside)
      | some folder =>
        if folder.ownerId ≠ link.creatorId then .error outside
        else if currentId = link.targetId then .ok ((currentId,folder) :: path)
        else climb t link rounds (currentId :: seen) ((currentId,folder) :: path) folder.parentId

def resolveFolderPathInShare (t : Tables) (link : ShareLink) (folderId : Nat) : Except HttpError (List (Nat × Folder)) :=
  climb t link (MAX_SHARE_FOLDER_DEPTH + 1) [] [] (some folderId)

def assertFolderInShare (t : Tables) (link : ShareLink) (folderId : Nat) : Except HttpError Unit :=
  (resolveFolderPathInShare t link folderId).map fun _ => ()

def assertFileInShare (t : Tables) (link : ShareLink) (fileId : Nat) : Except HttpError Unit := match link.targetType with
  | .file => if fileId ≠ link.targetId then .error (forbidden "文件不属于此分享") else .ok ()
  | .folder => match t.file fileId with
    | none => .error (notFound "文件不存在")
    | some file => match file.folderId with
      | none => .error (forbidden "文件不在此分享的文件夹下")
      | some folderId =>
        if file.uploaderId ≠ link.creatorId then .error (forbidden "文件不在此分享的文件夹下")
        else ((resolveFolderPathInShare t link folderId).map fun _ => ()).mapError fun _ => forbidden "文件不在此分享的文件夹下"

structure FileInfo where
  id : Nat
  name : String
  size : Nat
  mimeType : String
  createdAt : Nat
  expiresAt : Option Nat
  uploadVersion : Nat
  downloadUrl : String
deriving DecidableEq

structure FileEntry where
  id : Nat
  name : String
  size : Nat
  mimeType : String
  createdAt : Nat
  uploadVersion : Nat
  status : String
  downloadUrl : String
deriving DecidableEq

structure Contents where
  subfolders : List (Nat × String × Nat)
  files : List FileEntry
  page : Int
  limit : Int
  total : Nat
  hasMore : Bool
deriving DecidableEq

structure FolderInfo where
  id : Nat
  name : String
  createdAt : Nat
  expiresAt : Option Nat
  contents : Contents
  breadcrumb : List (Nat × String)
deriving DecidableEq

def downloadUrl (link : ShareLink) (fileId : Nat) : String := "/api/s/" ++ link.token ++ "/download/" ++ toString fileId

def getFileInfoForShare (t : Tables) (link : ShareLink) : Except HttpError FileInfo := match t.file link.targetId with
  | none => .error (notFound "文件已被删除")
  | some file => .ok ⟨link.targetId,file.originalName,file.size,file.mimeType,file.createdAt,link.expiresAt,file.uploadVersion,
      downloadUrl link link.targetId⟩

/-- `before` is the order of names in the database. -/
def listFolderContentsForShare (before : String → String → Bool) (t : Tables) (link : ShareLink) (folderId : Nat)
    (page limit : Option Int) : Except HttpError Contents := do
  assertFolderInShare t link folderId
  let page := max 1 (page.getD 1)
  let limit := min 100 (max 1 (limit.getD 100))
  let subfolders := (t.folders.entries.filter fun e =>
    e.2.ownerId = link.creatorId && e.2.parentId = some folderId && !e.2.isDeleted).mergeSort fun e e' => before e.2.name e'.2.name
  let files := t.files.entries.filter fun e => e.2.uploaderId = link.creatorId && e.2.folderId = some folderId && !e.2.isDeleted
  let shown := ((files.mergeSort fun e e' => before e.2.originalName e'.2.originalName).drop ((page - 1) * limit).toNat).take limit.toNat
  return ⟨subfolders.map fun e => (e.1,e.2.name,e.2.createdAt),
    shown.map fun e => ⟨e.1,e.2.originalName,e.2.size,e.2.mimeType,e.2.createdAt,e.2.uploadVersion,e.2.status,downloadUrl link e.1⟩,
    page,limit,files.length,page * limit < files.length⟩

def getFolderInfoForShare (before : String → String → Bool) (t : Tables) (link : ShareLink) : Except HttpError FolderInfo := do
  match ← resolveFolderPathInShare t link link.targetId with
  | [] => throw internalError
  | (id,root) :: _ =>
    let contents ← listFolderContentsForShare before t link id none none
    return ⟨id,root.name,root.createdAt,link.expiresAt,contents,[(id,root.name)]⟩

def getFolderBreadcrumbForShare (t : Tables) (link : ShareLink) (folderId : Nat) : Except HttpError (List (Nat × String)) :=
  (resolveFolderPathInShare t link folderId).map fun path => path.map fun e => (e.1,e.2.name)

section
variable {t : Tables} {link : ShareLink} {folderId : Nat}

def Owned (t : Tables) (link : ShareLink) (e : Nat × Folder) : Prop := t.folder e.1 = some e.2 ∧ e.2.ownerId = link.creatorId

def Downward : List (Nat × Folder) → Prop := List.IsChain fun e e' => e'.2.parentId = some e.1

/-- A way from the folder that is shared down to a folder. It may lead in circles. -/
structure Chain (t : Tables) (link : ShareLink) (folderId : Nat) (chain : List (Nat × Folder)) : Prop where
  owned : ∀ e ∈ chain, Owned t link e
  downward : Downward chain
  root : chain.head?.map Prod.fst = some link.targetId
  last : chain.getLast?.map Prod.fst = some folderId

def Straight (link : ShareLink) (path : List (Nat × Folder)) : Prop := ∀ e ∈ path.tail, e.1 ≠ link.targetId

structure Path (t : Tables) (link : ShareLink) (path : List (Nat × Folder)) (currentId : Option Nat) : Prop where
  owned : ∀ e ∈ path, Owned t link e
  downward : Downward path
  below : ∀ e ∈ path, e.1 ≠ link.targetId
  next : ∀ e ∈ path.head?, e.2.parentId = currentId

theorem climb_path (rounds : Nat) : ∀ {seen path currentId result}, Path t link path currentId →
    climb t link rounds seen path currentId = .ok result →
    (∀ e ∈ result, Owned t link e) ∧ Downward result ∧ result.head?.map Prod.fst = some link.targetId ∧ path <:+ result ∧
      (path = [] → result.getLast?.map Prod.fst = currentId) ∧ Straight link result ∧ result.length ≤ rounds + path.length := by
  induction rounds with
  | zero => intro seen path currentId result _ climbed; cases climbed
  | succ rounds ih =>
    intro seen path currentId result found climbed
    cases currentId with
    | none => cases climbed
    | some currentId =>
      unfold climb at climbed
      split at climbed
      · cases climbed
      split at climbed
      · cases climbed
      next folder there =>
      split at climbed
      · cases climbed
      next owner =>
      have owned : ∀ e ∈ (currentId,folder) :: path, Owned t link e := by
        intro e member
        rcases List.mem_cons.mp member with rfl | old
        · exact ⟨there,by simpa using owner⟩
        · exact found.owned e old
      have downward : Downward ((currentId,folder) :: path) :=
        List.isChain_cons.mpr ⟨fun e first => found.next e first,found.downward⟩
      split at climbed
      · next target =>
        cases climbed
        refine ⟨owned,downward,by simp [target],List.suffix_cons _ _,?_,found.below,by rw [List.length_cons]; omega⟩
        rintro rfl
        rfl
      · next elsewhere =>
        have more : Path t link ((currentId,folder) :: path) folder.parentId :=
          ⟨owned,downward,List.forall_mem_cons.mpr ⟨elsewhere,found.below⟩,fun e first => by cases first; rfl⟩
        obtain ⟨owned,downward,root,longer,_,straight,short⟩ := ih more climbed
        refine ⟨owned,downward,root,(List.suffix_cons _ _).trans longer,?_,straight,by simp at short; omega⟩
        rintro rfl
        obtain ⟨front,rfl⟩ := longer
        simp

theorem resolved_path {result : List (Nat × Folder)} (resolved : resolveFolderPathInShare t link folderId = .ok result) :
    Chain t link folderId result ∧ Straight link result ∧ result.length ≤ MAX_SHARE_FOLDER_DEPTH + 1 := by
  have start : Path t link [] (some folderId) := ⟨nofun,List.isChain_nil,nofun,nofun⟩
  obtain ⟨owned,downward,root,_,last,straight,short⟩ := climb_path _ start resolved
  exact ⟨⟨owned,downward,root,last rfl⟩,straight,short⟩

/-- The ways up from a folder are parts of one way. -/
theorem prefix_of_start : ∀ {up up' : List (Nat × Folder)}, (∀ e ∈ up, t.folder e.1 = some e.2) → (∀ e ∈ up', t.folder e.1 = some e.2) →
    up.IsChain (fun e e' => e.2.parentId = some e'.1) → up'.IsChain (fun e e' => e.2.parentId = some e'.1) →
    (∀ e ∈ up.head?, ∀ e' ∈ up'.head?, e.1 = e'.1) → up.length ≤ up'.length → up <+: up'
  | [], _, _, _, _, _, _, _ => List.nil_prefix
  | _ :: _, [], _, _, _, _, _, short => absurd short (by simp)
  | (id,folder) :: up, (id',folder') :: up', known, known', up_chain, up_chain', start, short => by
    obtain rfl : id = id' := start _ rfl _ rfl
    obtain rfl : folder = folder' :=
      Option.some.inj ((known _ List.mem_cons_self).symm.trans (known' _ List.mem_cons_self))
    obtain ⟨first,rest⟩ := List.isChain_cons.mp up_chain
    obtain ⟨first',rest'⟩ := List.isChain_cons.mp up_chain'
    refine List.cons_prefix_cons.mpr ⟨rfl,prefix_of_start (fun e member => known e (.tail _ member))
      (fun e member => known' e (.tail _ member)) rest rest' (fun e there e' there' => ?_) (by simpa using short)⟩
    exact Option.some.inj ((first e there).symm.trans (first' e' there'))

theorem Chain.suffix {chain chain' : List (Nat × Folder)} (one : Chain t link folderId chain) (other : Chain t link folderId chain')
    (short : chain.length ≤ chain'.length) : chain <:+ chain' := by
  refine List.reverse_prefix.mp (prefix_of_start (fun e member => (one.owned e (List.mem_reverse.mp member)).1)
    (fun e member => (other.owned e (List.mem_reverse.mp member)).1) (List.isChain_reverse.mpr one.downward)
    (List.isChain_reverse.mpr other.downward) (fun e there e' there' => ?_) (by simpa using short))
  rw [List.head?_reverse] at there there'
  have same := one.last.trans other.last.symm
  rw [Option.mem_def.mp there,Option.mem_def.mp there'] at same
  exact Option.some.inj same

/-- The part of a straight path that starts at the folder that is shared is all of it. -/
theorem Straight.whole {chain path : List (Nat × Folder)} (straight : Straight link path) (part : chain <:+ path)
    (root : chain.head?.map Prod.fst = some link.targetId) : chain = path := by
  obtain ⟨front,rfl⟩ := part
  cases front with
  | nil => rfl
  | cons e front =>
    obtain ⟨first,there,target⟩ := Option.map_eq_some_iff.mp root
    exact absurd target (straight first (List.mem_append_right _ (List.mem_of_mem_head? there)))

theorem exists_straight : ∀ {chain : List (Nat × Folder)}, (∃ e ∈ chain, e.1 = link.targetId) →
    ∃ path, path <:+ chain ∧ path.head?.map Prod.fst = some link.targetId ∧ Straight link path
  | [], met => absurd met (by simp)
  | e :: chain, met => by
    by_cases later : ∃ e ∈ chain, e.1 = link.targetId
    · obtain ⟨path,part,rest⟩ := exists_straight later
      exact ⟨path,part.trans (List.suffix_cons _ _),rest⟩
    · have here : e.1 = link.targetId := by simpa [later] using met
      exact ⟨e :: chain,List.suffix_rfl,by simp [here],fun e' member target => later ⟨e',member,target⟩⟩

theorem climb_chain (rounds : Nat) : ∀ {seen path front currentId}, Chain t link folderId (front ++ path) →
    Straight link (front ++ path) → front.getLast?.map Prod.fst = some currentId → (∀ i ∈ seen, ∃ e ∈ path, e.1 = i) →
    front.length ≤ rounds → climb t link rounds seen path (some currentId) = .ok (front ++ path) := by
  induction rounds with
  | zero =>
    intro seen path front currentId _ _ last _ short
    rw [List.length_eq_zero_iff.mp (Nat.le_zero.mp short)] at last
    cases last
  | succ rounds ih =>
    intro seen path front currentId chain straight last earlier short
    obtain rfl | ⟨upper,⟨id,folder⟩,rfl⟩ := List.eq_nil_or_concat front
    · cases last
    obtain rfl : id = currentId := by simpa using last
    rw [List.concat_eq_append] at chain straight short ⊢
    obtain ⟨there,owner⟩ := chain.owned (id,folder) (by simp)
    have fresh : id ∉ seen := by
      -- the way up from here would come round to here again, and past the folder that is shared
      intro again
      obtain ⟨e,member,same⟩ := earlier id again
      obtain ⟨lower,rest,rfl⟩ := List.append_of_mem member
      have around : Chain t link id (upper ++ [(id,folder)] ++ (lower ++ [e])) := by
        have part : upper ++ [(id,folder)] ++ (lower ++ [e]) <+: upper ++ [(id,folder)] ++ (lower ++ e :: rest) := ⟨rest,by simp⟩
        refine ⟨fun e' member => chain.owned e' (part.subset member), List.IsChain.prefix chain.downward part,by simpa using chain.root,?_⟩
        rw [← List.append_assoc,List.getLast?_concat,Option.map_some,same]
      have direct : Chain t link id (upper ++ [(id,folder)]) := by
        have part := List.prefix_append (upper ++ [(id,folder)]) (lower ++ e :: rest)
        refine ⟨fun e' member => chain.owned e' (part.subset member), List.IsChain.prefix chain.downward part,by simpa using chain.root,by simp⟩
      have bare : Straight link (upper ++ [(id,folder)] ++ (lower ++ [e])) := by
        intro e' member
        refine straight e' ?_
        cases upper with
        | nil => simp at member ⊢; grind
        | cons => simp at member ⊢; grind
      have equal := congrArg List.length (bare.whole (direct.suffix around (by simp)) direct.root)
      simp at equal
    unfold climb
    simp only [fresh,there,show folder.ownerId = link.creatorId from owner,ne_eq]
    obtain rfl | ⟨upper,⟨parentId,parent⟩,rfl⟩ := List.eq_nil_or_concat upper
    · have target : id = link.targetId := by simpa using chain.root
      rw [if_pos target]
      rfl
    · rw [List.concat_eq_append] at chain straight short ⊢
      have below : id ≠ link.targetId := by
        refine straight (id,folder) ?_
        cases upper with
        | nil => simp
        | cons => simp
      have up : folder.parentId = some parentId := by
        have step : Downward ([(parentId,parent),(id,folder)]) := chain.downward.infix ⟨upper,path,by simp⟩
        exact (List.isChain_cons.mp step).1 _ rfl
      rw [if_neg below,up,List.append_assoc _ [(id,folder)] path]
      refine ih (by simpa using chain) (by simpa using straight) (by rw [List.getLast?_concat]; rfl) ?_
        (by simp at short ⊢; omega)
      intro i member
      rcases List.mem_cons.mp member with rfl | old
      · exact ⟨_,List.mem_cons_self,rfl⟩
      · obtain ⟨e,known,same⟩ := earlier i old
        exact ⟨e,.tail _ known,same⟩

theorem chain_resolved {chain : List (Nat × Folder)} (reaches : Chain t link folderId chain)
    (short : chain.length ≤ MAX_SHARE_FOLDER_DEPTH + 1) :
    ∃ path, resolveFolderPathInShare t link folderId = .ok path ∧ path <:+ chain := by
  obtain ⟨first,there,target⟩ := Option.map_eq_some_iff.mp reaches.root
  obtain ⟨path,part,root,straight⟩ := exists_straight ⟨first,List.mem_of_mem_head? there,target⟩
  have last : path.getLast?.map Prod.fst = some folderId := by
    obtain ⟨front,rfl⟩ := part
    obtain ⟨e,head,_⟩ := Option.map_eq_some_iff.mp root
    rw [← reaches.last,List.getLast?_append_of_ne_nil _ (by rintro rfl; cases head)]
  have whole : Chain t link folderId path :=
    ⟨fun e member => reaches.owned e (part.subset member),reaches.downward.suffix part,root,last⟩
  have climbed := @climb_chain t link folderId (MAX_SHARE_FOLDER_DEPTH + 1) [] [] path folderId
    (by simpa using whole) (by simpa using straight) last nofun (part.length_le.trans short)
  rw [List.append_nil] at climbed
  exact ⟨path,climbed,part⟩

end

/-- The file that is shared, or a file of the one who shares, below the folder that is shared. -/
def Contained (t : Tables) (link : ShareLink) (fileId : Nat) : Prop := match link.targetType with
  | .file => fileId = link.targetId
  | .folder => ∃ file folderId chain, t.file fileId = some file ∧ file.uploaderId = link.creatorId ∧ file.folderId = some folderId ∧
      Chain t link folderId chain ∧ chain.length ≤ MAX_SHARE_FOLDER_DEPTH + 1

theorem assertFileInShare_iff (t : Tables) (link : ShareLink) (fileId : Nat) :
    assertFileInShare t link fileId = .ok () ↔ Contained t link fileId := by
  unfold assertFileInShare Contained
  cases link.targetType with
  | file => by_cases same : fileId = link.targetId <;> simp [same]
  | folder =>
    cases there : t.file fileId with
    | none => simp
    | some row =>
      cases at_ : row.folderId with
      | none => simp [at_]
      | some folderId =>
        by_cases uploader : row.uploaderId = link.creatorId
        · have reaches : (∃ path, resolveFolderPathInShare t link folderId = .ok path) ↔
              ∃ chain, Chain t link folderId chain ∧ chain.length ≤ MAX_SHARE_FOLDER_DEPTH + 1 := by
            constructor
            · rintro ⟨path,resolved⟩
              exact ⟨path,(resolved_path resolved).1,(resolved_path resolved).2.2⟩
            · rintro ⟨chain,reaches,short⟩
              obtain ⟨path,resolved,_⟩ := chain_resolved reaches short
              exact ⟨path,resolved⟩
          cases resolved : resolveFolderPathInShare t link folderId with
          | error e => simpa [at_,uploader,resolved,Except.map,Except.mapError] using reaches
          | ok path => simpa [at_,uploader,resolved,Except.map,Except.mapError] using reaches
        · simp [at_,uploader]

theorem getFolderBreadcrumbForShare_iff (t : Tables) (link : ShareLink) (folderId : Nat) (crumbs : List (Nat × String)) :
    getFolderBreadcrumbForShare t link folderId = .ok crumbs ↔
      ∃ chain, Chain t link folderId chain ∧ chain.length ≤ MAX_SHARE_FOLDER_DEPTH + 1 ∧
        (∀ chain', Chain t link folderId chain' → chain <:+ chain') ∧ crumbs = chain.map fun e => (e.1,e.2.name) := by
  unfold getFolderBreadcrumbForShare
  constructor
  · intro shown
    cases resolved : resolveFolderPathInShare t link folderId with
    | error e => rw [resolved] at shown; cases shown
    | ok path =>
      rw [resolved] at shown
      cases shown
      obtain ⟨chain,straight,short⟩ := resolved_path resolved
      refine ⟨path,chain,short,fun chain' other => ?_,rfl⟩
      rcases Nat.le_total path.length chain'.length with shorter | longer
      · exact chain.suffix other shorter
      · exact straight.whole (other.suffix chain longer) other.root ▸ List.suffix_rfl
  · rintro ⟨chain,reaches,short,least,rfl⟩
    obtain ⟨path,resolved,part⟩ := chain_resolved reaches short
    rw [resolved,part.eq_of_length_le (least path (resolved_path resolved).1).length_le]
    rfl

/-- A listing through a link to a file takes a folder with the id of the file. -/
theorem listed_contained {before : String → String → Bool} {t : Tables} {link : ShareLink} {folderId : Nat} {page limit : Option Int}
    {contents : Contents} (listed : listFolderContentsForShare before t link folderId page limit = .ok contents) :
    ∀ e ∈ contents.files, assertFileInShare t link e.id = .ok () ∨ link.targetType = .file ∧ (t.folder link.targetId).isSome := by
  unfold listFolderContentsForShare assertFolderInShare at listed
  cases resolved : resolveFolderPathInShare t link folderId with
  | error e => rw [resolved] at listed; cases listed
  | ok path =>
    rw [resolved] at listed
    cases listed
    obtain ⟨chain,_,short⟩ := resolved_path resolved
    intro e member
    cases kind : link.targetType with
    | file =>
      obtain ⟨root,there,target⟩ := Option.map_eq_some_iff.mp chain.root
      have known := (chain.owned root (List.mem_of_mem_head? there)).1
      rw [target] at known
      exact .inr ⟨rfl,by simp [known]⟩
    | folder =>
      obtain ⟨⟨fileId,file⟩,shown,rfl⟩ := List.mem_map.mp member
      have row := List.mem_mergeSort.mp (List.mem_of_mem_drop (List.mem_of_mem_take shown))
      obtain ⟨stored,passes⟩ := List.mem_filter.mp row
      simp only [Bool.and_eq_true,decide_eq_true_eq] at passes
      refine .inl ((assertFileInShare_iff ..).mpr ?_)
      unfold Contained
      rw [kind]
      refine ⟨file,folderId,path,?_,passes.1.1,passes.1.2,chain,short⟩
      unfold Tables.file
      rw [(get_eq_some_iff ..).mpr stored]
      simpa using passes.2

end Tgtc.ShareFolders
