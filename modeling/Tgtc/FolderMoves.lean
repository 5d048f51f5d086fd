import Tgtc.Forests
import Tgtc.Maps
import Tgtc.Runs

/-!
Creating and moving folders. A move locks the folder and its new parent and follows parents and children to see where
they are; a creation looks how deep its parent is, without a lock.
-/
namespace Tgtc.FolderMoves
open Runs Maps Forests

def MAX_FOLDER_DEPTH : Nat := 20

structure Folder where
  id : Nat
  ownerId : Nat
  parentId : Option Nat
  isDeleted : Bool
deriving DecidableEq

def parentOf (folders : List Folder) (id : Nat) : Option Nat := (folders.find? fun f => f.id = id).bind Folder.parentId

/-- `assertFolderOwned`, and what the locking queries look for -/
def owned (folders : List Folder) (id ownerId : Nat) : Bool :=
  folders.any fun f => f.id = id && f.ownerId = ownerId && !f.isDeleted

def level (folders : List Folder) (id : Nat) : Nat → List Nat
  | 0 => (folders.filter fun f => f.id = id).map Folder.id
  | k + 1 => (folders.filter fun f => f.parentId.any fun p => p ∈ level folders id k).map Folder.id

/-- `getSubtreeHeightInManager`. Over a cycle the query does not return. -/
def getSubtreeHeight (folders : List Folder) (id : Nat) : Option Nat :=
  (List.range (folders.length + 1)).find? fun k => (level folders id (k + 1)).isEmpty

inductive Request where
  | create (ownerId : Nat) (parentId : Option Nat)
  | move (ownerId id : Nat) (parentId : Option Nat)

def Request.parentId : Request → Option Nat
  | .create _ parentId | .move _ _ parentId => parentId

def Request.moved : Request → Option Nat
  | .create _ _ => none
  | .move _ id _ => some id

inductive Refusal where
  | notFound (text : String)
  | badRequest (text : String)
  | conflict (text : String)
deriving DecidableEq

inductive Result where
  | saved (id : Nat)
  | refused (refusal : Refusal)
  | aborted
deriving DecidableEq

inductive Stage where
  | beginning
  | locking (parentId : Nat)
  /-- `isDescendantOfInManager` -/
  | climbing (current : Nat) (seen : List Nat)
  /-- `getFolderDepth` -/
  | measuring (current : Nat) (seen : List Nat) (depth : Nat)
  /-- `getSubtreeHeightInManager` -/
  | sizing (depth : Nat)
  | naming
  | committing
  | ended (result : Result)
deriving DecidableEq

def Stage.relies : Stage → Bool
  | .beginning | .locking _ | .ended _ => false
  | _ => true

structure Task where
  request : Request
  stage : Stage
  held : List Nat
  disturbed : Bool

structure State where
  folders : List Folder
  nextId : Nat
  tasks : List Task

def unused (folders : List Folder) : Nat := folders.foldr (fun f bound => max bound (max (f.id + 1) (f.parentId.getD 0 + 1))) 0

def State.start (folders : List Folder) : State := ⟨folders,unused folders,[]⟩

def notFound : Refusal := .notFound "文件夹不存在或无权访问"

def tooDeep (prefixed : String) : Refusal := .badRequest (prefixed ++ "文件夹嵌套层级不能超过 " ++ MAX_FOLDER_DEPTH.repr ++ " 层")

/-- `getFolderDepth` begins. -/
def measureFrom (parentId : Nat) : Stage := .measuring parentId [parentId] 0

/-- The next round of `isDescendantOfInManager`. -/
def climbTo (id parentId : Nat) (next : Option Nat) (seen : List Nat) : Stage := match next with
  | none => measureFrom parentId
  | some current =>
    if current = id then .ended (.refused (.badRequest "不能把文件夹移入其自身子树"))
    else if current ∈ seen then measureFrom parentId
    else .climbing current (current :: seen)

def measured (request : Request) (depth : Nat) : Stage := match request with
  | .create _ _ => if MAX_FOLDER_DEPTH < depth + 1 then .ended (.refused (tooDeep "")) else .naming
  | .move _ _ _ => .sizing depth

/-- The next round of `getFolderDepth`. -/
def measureTo (request : Request) (next : Option Nat) (seen : List Nat) (depth : Nat) : Stage := match next with
  | none => measured request depth
  | some current => if current ∈ seen then measured request (depth + 1) else .measuring current (current :: seen) (depth + 1)

def State.locked (s : State) (n id : Nat) : Bool :=
  (List.range s.tasks.length).any fun m => m ≠ n && (s.tasks[m]?).any fun t => id ∈ t.held

def State.goes (s : State) (n : Nat) (t : Task) (stage : Stage) : State := { s with tasks := s.tasks.set n { t with stage } }

def State.ends (s : State) (n : Nat) (t : Task) (result : Result) : State :=
  { s with tasks := s.tasks.set n { t with stage := .ended result, held := [] } }

def State.proceeds (s : State) (n : Nat) (t : Task) : Stage → State
  | .ended result => s.ends n t result
  | stage => s.goes n t stage

def State.locks (s : State) (n : Nat) (t : Task) (id ownerId : Nat) (next : Stage) : State :=
  if s.locked n id then s
  else if owned s.folders id ownerId then s.proceeds n { t with held := id :: t.held } next
  else s.ends n t (.refused notFound)

def Task.disturb (t : Task) : Task := { t with disturbed := t.disturbed || t.stage.relies }

def applied (s : State) : Request → List Folder
  | .create ownerId parentId => s.folders ++ [⟨s.nextId,ownerId,parentId,false⟩]
  | .move _ id parentId => s.folders.map fun f => if f.id = id then { f with parentId } else f

def State.commits (s : State) (n : Nat) (t : Task) : State :=
  { folders := applied s t.request
    nextId := s.nextId + 1
    tasks := (s.tasks.map Task.disturb).set n { t with stage := .ended (.saved (t.request.moved.getD s.nextId)), held := [] } }

def State.advance (s : State) (n : Nat) (t : Task) : State := match t.stage with
  | .beginning => match t.request with
    | .create _ none => s.goes n t .naming
    | .create ownerId (some parentId) =>
      if owned s.folders parentId ownerId then s.goes n t (measureFrom parentId) else s.ends n t (.refused notFound)
    | .move ownerId id none => s.locks n t id ownerId .naming
    | .move ownerId id (some parentId) => s.locks n t id ownerId
      (if parentId = id then .ended (.refused (.badRequest "不能把文件夹移入自身")) else .locking parentId)
  | .locking parentId => match t.request with
    | .move ownerId id _ => s.locks n t parentId ownerId (climbTo id parentId (some parentId) [])
    | .create _ _ => s
  | .climbing current seen => match t.request with
    | .move _ id (some parentId) => s.proceeds n t (climbTo id parentId (parentOf s.folders current) seen)
    | _ => s
  | .measuring current seen depth => s.proceeds n t (measureTo t.request (parentOf s.folders current) seen depth)
  | .sizing depth => match t.request.moved.bind (getSubtreeHeight s.folders) with
    | some height => s.proceeds n t
      (if MAX_FOLDER_DEPTH < depth + 1 + height then .ended (.refused (tooDeep "移动后")) else .naming)
    | none => s
  -- answered by `named`
  | .naming => s
  | .committing => s.commits n t
  | .ended _ => s

def taken : Request → Refusal
  | .create _ _ => .conflict "同层级下已存在同名文件夹"
  | .move _ _ _ => .badRequest "目标层级下已存在同名文件夹"

inductive Label where
  | request (r : Request)
  | go (n : Nat)
  | named (n : Nat) (free : Bool)
  | abort (n : Nat)

def step (s : State) : Label → State
  | .request r => { s with tasks := s.tasks ++ [⟨r,.beginning,[],false⟩] }
  | .go n => match s.tasks[n]? with
    | some t => s.advance n t
    | none => s
  | .named n free => match s.tasks[n]? with
    | some t =>
      if t.stage = .naming then
        if free then s.goes n t .committing else s.ends n t (.refused (taken t.request))
      else s
    | none => s
  | .abort n => match s.tasks[n]? with
    | some t => if t.stage.relies ∨ t.held ≠ [] then s.ends n t .aborted else s
    | none => s

end Tgtc.FolderMoves
