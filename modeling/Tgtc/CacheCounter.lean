import Mathlib
import Tgtc.CacheDirectory
import Tgtc.TwoBooks

/-!
The size counter against the directory. Every operation changes the directory and the counter in two steps with other
operations in between, a read that discards a file the counter first, everything else the directory first.
-/
namespace Tgtc.CacheCounter
open Maps Runs CacheDirectory TwoBooks
open Function (comp_def update_eq_self update_of_ne update_self)

def sizes (s : Cache) (name : String) : Option Nat := (s.files.get name).map (·.size)

def half (task : Task) : Option (Half String) :=
  match task.cont, task.answer with
  | .published fileId size, some (.done true) => some (.ahead fileId (some size))
  | .readUnlinked fileId, none => some (.ahead fileId none)
  | .evictUnlinked _ _ _ _ entry _, some (.done true) => some (.behind entry.name entry.size)
  | .cleanupUnlinked _ name size _ _, some (.done true) => some (.behind name size)
  | .invalidateUnlinked fileId (some size), some _ => some (.behind fileId size)
  | .invalidateSwept fileId (some size), _ => some (.behind fileId size)
  | _, _ => none

def scans (task : Task) : Bool :=
  match task.cont with
  | .scanListed => task.answer.isSome
  | .scanStatted _ _ => true
  | _ => false

def Scanning (s : Cache) : Prop := ∃ task ∈ s.tasks, ∃ t ∈ task, scans t = true

def HalfDone (s : Cache) (name : String) : Prop := ∃ task ∈ s.tasks, ∃ t ∈ task, ∃ h ∈ half t, h.key = name

instance (s : Cache) : Decidable (Scanning s) := inferInstanceAs (Decidable (∃ task ∈ s.tasks, ∃ t ∈ task, scans t = true))

instance (s : Cache) (name : String) : Decidable (HalfDone s name) := by
  unfold HalfDone
  infer_instance

def Undisturbed (s : Cache) (name : String) : Prop := ¬Scanning s ∧ ¬HalfDone s name

instance (s : Cache) (name : String) : Decidable (Undisturbed s name) := inferInstanceAs (Decidable (_ ∧ _))

def unfitRead (ttl : Nat) (s : Cache) (fileId : String) (expectedSize now : Nat) : Bool :=
  !s.noCacheMode && (s.files.get fileId).any
    (fun file => file.size ≠ expectedSize || file.size = 0 || now - file.mtimeMs > ttl)

def unfitPath (ttl : Nat) (s : Cache) (fileId : String) (now : Nat) : Bool :=
  !s.noCacheMode && (s.files.get fileId).any (fun file => file.size ≠ 0 && now - file.mtimeMs > ttl)

/-- An unlink that removes a file removes it with the size it was sampled with, undisturbed. -/
def RemovesSampled (s : Cache) (ok : Bool) (name : String) (size : Nat) : Prop :=
  ok = true → (s.files.get name).isSome = true → sizes s name = some size ∧ Undisturbed s name

instance (s : Cache) (ok : Bool) (name : String) (size : Nat) : Decidable (RemovesSampled s ok name size) :=
  inferInstanceAs (Decidable (_ → _ → _))

def OrderlyEffect (s : Cache) (task : Task) (ok : Bool) : Prop :=
  match task.cont with
  | .published fileId _ => ok = true → s.files.get fileId = none ∧ Undisturbed s fileId
  | .evictUnlinked _ _ _ _ entry _ => RemovesSampled s ok entry.name entry.size
  | .cleanupUnlinked _ name size _ _ => RemovesSampled s ok name size
  | .invalidateUnlinked fileId size => ok = true ∧ sizes s fileId = size ∧ (size.isSome → Undisturbed s fileId)
  | .readUnlinked _ => ok = true
  | .scanListed => ok = true ∧ ∀ task ∈ s.tasks, ∀ t ∈ task, half t = none
  | .scanStatted _ _ => ok = true
  | _ => True

instance (s : Cache) (task : Task) (ok : Bool) : Decidable (OrderlyEffect s task ok) := by
  unfold OrderlyEffect
  split <;> infer_instance

/-- Operations keep off a file at which another is half done, the scan counts a directory at rest, and
what the counter has been told of does happen. -/
def Orderly (ttl : Nat) (s : Cache) : Label → Prop
  | .read fileId expectedSize now => unfitRead ttl s fileId expectedSize now = true → Undisturbed s fileId
  | .lookUp fileId now => unfitPath ttl s fileId now = true → Undisturbed s fileId
  | .readRange fileId now => unfitPath ttl s fileId now = true → Undisturbed s fileId
  | .effect t ok => ∀ task ∈ s.tasks[t]?, ∀ u ∈ task, OrderlyEffect s u ok
  | _ => True

instance (ttl : Nat) (s : Cache) (l : Label) : Decidable (Orderly ttl s l) := by
  induction l using Label.casesOn <;> unfold Orderly <;> infer_instance

def taskAt (s : Cache) (t : Nat) : Option Task := (s.tasks[t]?).join

def halfAt (s : Cache) (t : Nat) : Option (Half String) := (taskAt s t).bind half

section
variable {s s' : Cache} {t : Nat} {task : Task}

theorem taskAt_some_iff : taskAt s t = some task ↔ s.tasks[t]? = some (some task) := by
  unfold taskAt
  cases s.tasks[t]? with
  | none => simp
  | some found => cases found <;> simp

theorem mem_of_taskAt (found : taskAt s t = some task) : some task ∈ s.tasks :=
  List.mem_of_getElem? (taskAt_some_iff.mp found)

theorem halfAt_some {h : Half String} (found : halfAt s t = some h) :
    ∃ task, taskAt s t = some task ∧ half task = some h := by
  exact Option.bind_eq_some_iff.mp found

theorem free_of_not_halfDone {name : String} (idle : ¬HalfDone s name) : Free (halfAt s) name := by
  intro t h found same
  obtain ⟨task,at_t,halved⟩ := halfAt_some found
  exact idle ⟨some task,mem_of_taskAt at_t,task,rfl,h,halved,same⟩

theorem taskAt_set (found : taskAt s t = some task) (next : Option Task) (tasks : s'.tasks = s.tasks.set t next) :
    taskAt s' = Function.update (taskAt s) t next := by
  have bound := (List.getElem?_eq_some_iff.mp (taskAt_some_iff.mp found)).1
  funext u
  unfold taskAt
  rw [tasks,List.getElem?_set]
  by_cases same : u = t
  · subst same
    simp [bound]
  · rw [update_of_ne same,if_neg (Ne.symm same)]

theorem taskAt_append (next : Option Task) (tasks : s'.tasks = s.tasks ++ [next]) :
    taskAt s' = Function.update (taskAt s) s.tasks.length next := by
  funext u
  unfold taskAt
  rw [tasks]
  by_cases same : u = s.tasks.length
  · subst same
    rw [update_self,List.getElem?_concat_length]
    rfl
  · rw [update_of_ne same]
    by_cases old : u < s.tasks.length
    · rw [List.getElem?_append_left old]
    · rw [List.getElem?_eq_none (by simp; omega),List.getElem?_eq_none (by omega)]

theorem halfAt_update {next : Option Task} (update : taskAt s' = Function.update (taskAt s) t next) :
    halfAt s' = Function.update (halfAt s) t (next.bind half) := by
  funext u
  unfold halfAt
  rw [update]
  by_cases same : u = t
  · rw [same,update_self,update_self]
  · rw [update_of_ne same,update_of_ne same]

end
/-! ### The invariant -/

def Fits : Op → Answer → Prop
  | .readdir, .names _ => True
  | .stat _, .stat _ => True
  | .unlink _, .done _ => True
  | .rename _ _, .done _ => True
  | _, _ => False

def Calls : Cont → Op → Prop
  | .evictListed _ _, op => op = .readdir
  | .evictStatted _ _ name _ _, op => op = .stat name
  | .evictUnlinked _ _ _ _ entry _, op => op = .unlink entry.name
  | .cleanupListed _, op => op = .readdir
  | .cleanupStatted _ name _ _, op => op = .stat name
  | .cleanupUnlinked _ name _ _ _, op => op = .unlink name
  | .invalidateStatted fileId, op => op = .stat fileId
  | .invalidateUnlinked fileId _, op => op = .unlink fileId
  | .invalidateSwept _ _, op => op = .readdir
  | .readUnlinked fileId, op => op = .unlink fileId
  | .published fileId size, op => ∃ file, op = .rename fileId file ∧ file.size = size
  | .scanListed, op => op = .readdir
  | .scanStatted _ _, op => ∃ name, op = .stat name

structure Shaped (task : Task) : Prop where
  calls : Calls task.cont task.op
  fits : ∀ answer ∈ task.answer, Fits task.op answer

def sizeOf (s : Cache) (name : String) : Nat := (sizes s name).getD 0

def totalSize (s : Cache) : Nat := total (fun file : CacheFile => file.size) s.files

def ScanSum (s : Cache) (task : Task) : Prop :=
  match task.cont, task.answer with
  | .scanListed, some (.names (some names)) => (names.map (sizeOf s)).sum = totalSize s
  | .scanStatted todo total, none => ∀ name, task.op = .stat name → total + sizeOf s name + (todo.map (sizeOf s)).sum = totalSize s
  | .scanStatted todo total, some (.stat (some file)) => total + file.size + (todo.map (sizeOf s)).sum = totalSize s
  | .scanStatted todo total, some (.stat none) => total + (todo.map (sizeOf s)).sum = totalSize s
  | _, _ => False

def publishes (task : Task) : Bool :=
  match task.cont with
  | .published _ _ => true
  | _ => false

def Books (s : Cache) : Prop :=
  ∃ ledger : OrderedMap String Nat, Balanced (halfAt s) (sizes s) ledger.get ∧
    ∀ n, s.cachedSizeBytes = some n → n = total id ledger

structure Inv (s : Cache) : Prop where
  shaped : ∀ t task, taskAt s t = some task → Shaped task
  sum : ∀ t task, taskAt s t = some task → scans task = true → ScanSum s task
  quiet : ∀ t task, taskAt s t = some task → scans task = true → ∀ u, halfAt s u = none
  known : ∀ t task, taskAt s t = some task → publishes task = true → s.cachedSizeBytes.isSome = true
  books : Books s

structure Plain (task : Task) : Prop where
  shaped : Shaped task
  whole : half task = none
  counts : scans task = false
  moves : publishes task = false

section
variable {s s' : Cache} {t : Nat} {next : Option Task}

theorem update_cases {f : Nat → Option Task} {u : Nat} {task : Task}
    (found : Function.update f t next u = some task) : next = some task ∨ u ≠ t ∧ f u = some task := by
  by_cases same : u = t
  · rw [same,update_self] at found
    exact .inl found
  · rw [update_of_ne same] at found
    exact .inr ⟨same,found⟩

theorem scanSum_files {task : Task} (files : s'.files = s.files) (sum : ScanSum s task) : ScanSum s' task := by
  have same : sizeOf s' = sizeOf s := by
    funext name
    simp only [sizeOf,sizes,files]
  have whole : totalSize s' = totalSize s := by simp only [totalSize,files]
  unfold ScanSum at sum ⊢
  rw [same,whole]
  exact sum

section
variable (inv : Inv s) (update : taskAt s' = Function.update (taskAt s) t next) (files : s'.files = s.files)
  (counter : s'.cachedSizeBytes = s.cachedSizeBytes)
include inv update files counter

theorem inv_task (same : next.bind half = halfAt s t)
    (shaped : ∀ task ∈ next, Shaped task) (sum : ∀ task ∈ next, scans task = true → ScanSum s task)
    (quiet : ∀ task ∈ next, scans task = true → ∀ u, halfAt s u = none)
    (known : ∀ task ∈ next, publishes task = true → s.cachedSizeBytes.isSome = true) : Inv s' := by
  have halves : halfAt s' = halfAt s := by
    rw [halfAt_update update,same,update_eq_self]
  refine ⟨?_,?_,?_,?_,?_⟩
  · intro u task found
    rw [update] at found
    rcases update_cases found with new | ⟨_,old⟩
    · exact shaped task new
    · exact inv.shaped u task old
  · intro u task found counting
    rw [update] at found
    rcases update_cases found with new | ⟨_,old⟩
    · exact scanSum_files files (sum task new counting)
    · exact scanSum_files files (inv.sum u task old counting)
  · intro u task found counting
    rw [update] at found
    rw [halves]
    rcases update_cases found with new | ⟨_,old⟩
    · exact quiet task new counting
    · exact inv.quiet u task old counting
  · intro u task found moving
    rw [update] at found
    rw [counter]
    rcases update_cases found with new | ⟨_,old⟩
    · exact known task new moving
    · exact inv.known u task old moving
  · obtain ⟨ledger,balanced,counted⟩ := inv.books
    refine ⟨ledger,?_,?_⟩
    · have shelf : sizes s' = sizes s := by
        funext name
        simp only [sizes,files]
      rw [halves,shelf]
      exact balanced
    · rw [counter]
      exact counted

theorem inv_plain (idle : halfAt s t = none) (plain : ∀ task ∈ next, Plain task) : Inv s' := by
  refine inv_task inv update files counter ?_ (fun task here => (plain task here).shaped)
    (fun task here counting => ?_) (fun task here counting => ?_) fun task here moving => ?_
  · rw [idle]
    cases next with
    | none => rfl
    | some task => exact (plain task rfl).whole
  · rw [(plain task here).counts] at counting
    cases counting
  · rw [(plain task here).counts] at counting
    cases counting
  · rw [(plain task here).moves] at moving
    cases moving

end

theorem inv_half (inv : Inv s) (update : taskAt s' = Function.update (taskAt s) t next)
    (still : ∀ u task, taskAt s u = some task → scans task = false)
    (counter : s.cachedSizeBytes.isSome = true → s'.cachedSizeBytes.isSome = true)
    (shaped : ∀ task ∈ next, Shaped task) (counts : ∀ task ∈ next, scans task = false)
    (known : ∀ task ∈ next, publishes task = true → s.cachedSizeBytes.isSome = true) (books : Books s') : Inv s' := by
  have nobody : ∀ u task, taskAt s' u = some task → scans task = false := by
    intro u task found
    rw [update] at found
    rcases update_cases found with new | ⟨_,old⟩
    · exact counts task new
    · exact still u task old
  refine ⟨?_,?_,?_,?_,books⟩
  · intro u task found
    rw [update] at found
    rcases update_cases found with new | ⟨_,old⟩
    · exact shaped task new
    · exact inv.shaped u task old
  · intro u task found counting
    rw [nobody u task found] at counting
    cases counting
  · intro u task found counting
    rw [nobody u task found] at counting
    cases counting
  · intro u task found moving
    rw [update] at found
    rcases update_cases found with new | ⟨_,old⟩
    · exact counter (known task new moving)
    · exact counter (inv.known u task old moving)

theorem not_scanning (idle : ¬Scanning s) : ∀ u task, taskAt s u = some task → scans task = false := by
  intro u task found
  by_contra counting
  exact idle ⟨some task,mem_of_taskAt found,task,rfl,by simpa using counting⟩

theorem still_of_half (inv : Inv s) {h : Half String} (found : halfAt s t = some h) :
    ∀ u task, taskAt s u = some task → scans task = false := by
  intro u task at_u
  by_contra counting
  have := inv.quiet u task at_u (by simpa using counting) t
  rw [found] at this
  cases this

end
/-! ### Halves -/

section
variable {s s' : Cache} {t : Nat} {name : String} {size : Nat}

theorem sizes_delete (files : s'.files = s.files.delete name) :
    sizes s' name = none ∧ ∀ other, other ≠ name → sizes s' other = sizes s other := by
  refine ⟨?_,fun other different => ?_⟩
  · simp [sizes,files,get_delete_same]
  · simp [sizes,files,get_delete_other _ different]

section
variable (books : Books s)
include books

theorem books_removing (halves : halfAt s' = Function.update (halfAt s) t (some (.behind name size)))
    (idle : halfAt s t = none) (free : Free (halfAt s) name) (sampled : sizes s name = some size)
    (files : s'.files = s.files.delete name) (counter : s'.cachedSizeBytes = s.cachedSizeBytes) : Books s' := by
  obtain ⟨ledger,balanced,counted⟩ := books
  obtain ⟨gone,others⟩ := sizes_delete files
  have listed : ledger.get name = some size := (balanced.rest name free).trans sampled
  refine ⟨ledger,?_,?_⟩
  · rw [halves]
    refine balanced_begin balanced idle free rfl others (fun _ _ => rfl) (nofun) fun size' behind => ?_
    cases behind
    exact ⟨gone,listed⟩
  · rw [counter]
    exact counted

theorem books_unregister (halves : halfAt s' = Function.update (halfAt s) t none)
    (found : halfAt s t = some (.behind name size)) (files : s'.files = s.files)
    (counter : s'.cachedSizeBytes = s.cachedSizeBytes.map (· - size)) : Books s' := by
  obtain ⟨ledger,balanced,counted⟩ := books
  obtain ⟨gone,listed⟩ := balanced.behind t name size found
  have shelf : sizes s' = sizes s := by
    funext other
    simp only [sizes,files]
  refine ⟨ledger.delete name,?_,?_⟩
  · rw [halves,shelf]
    refine balanced_finish balanced found (fun _ _ => rfl) (fun other different => get_delete_other _ different) ?_
    exact (get_delete_same ledger name).trans gone.symm
  · intro n value
    rw [counter] at value
    obtain ⟨m,before,rfl⟩ := Option.map_eq_some_iff.mp value
    have less := total_delete id listed
    rw [counted m before,← less]
    simp

theorem books_publishing (halves : halfAt s' = Function.update (halfAt s) t (some (.ahead name (some size))))
    (idle : halfAt s t = none) (free : Free (halfAt s) name) (empty : s.files.get name = none) {file : CacheFile}
    (files : s'.files = s.files.set name file) (sized : file.size = size)
    (counter : s'.cachedSizeBytes = s.cachedSizeBytes) : Books s' := by
  obtain ⟨ledger,balanced,counted⟩ := books
  have unlisted : ledger.get name = none := (balanced.rest name free).trans (by simp [sizes,empty])
  refine ⟨ledger,?_,?_⟩
  · rw [halves]
    refine balanced_begin balanced idle free rfl (fun other different => ?_) (fun _ _ => rfl) (fun size' ahead => ?_)
      (by intros; contradiction)
    · simp [sizes,files,get_set_other _ _ different]
    · cases ahead
      refine ⟨unlisted,fun n known => ?_⟩
      cases known
      simp [sizes,files,get_set_same,sized]
  · rw [counter]
    exact counted

theorem books_register (halves : halfAt s' = Function.update (halfAt s) t none)
    (found : halfAt s t = some (.ahead name (some size))) (files : s'.files = s.files)
    (known : s.cachedSizeBytes.isSome = true) (counter : s'.cachedSizeBytes = some (s.cachedSizeBytes.getD 0 + size)) :
    Books s' := by
  obtain ⟨ledger,balanced,counted⟩ := books
  obtain ⟨unlisted,there⟩ := balanced.ahead t name (some size) found
  have shelf : sizes s' = sizes s := by
    funext other
    simp only [sizes,files]
  refine ⟨ledger.set name size,?_,?_⟩
  · rw [halves,shelf]
    refine balanced_finish balanced found (fun _ _ => rfl) (fun other different => get_set_other _ _ different) ?_
    exact (get_set_same ledger name size).trans (there size rfl).symm
  · intro n value
    obtain ⟨m,before⟩ := Option.isSome_iff_exists.mp known
    rw [counter,before] at value
    cases value
    rw [total_set id size unlisted,counted m before]
    rfl

theorem books_discarding (halves : halfAt s' = Function.update (halfAt s) t (some (.ahead name none)))
    (idle : halfAt s t = none) (free : Free (halfAt s) name) (there : sizes s name = some size)
    (files : s'.files = s.files) (counter : s'.cachedSizeBytes = s.cachedSizeBytes.map (· - size)) : Books s' := by
  obtain ⟨ledger,balanced,counted⟩ := books
  have listed : ledger.get name = some size := (balanced.rest name free).trans there
  have shelf : sizes s' = sizes s := by
    funext other
    simp only [sizes,files]
  refine ⟨ledger.delete name,?_,?_⟩
  · rw [halves,shelf]
    refine balanced_begin balanced idle free rfl (fun _ _ => rfl) (fun other different => get_delete_other _ different)
      (fun size' ahead => ?_) (by intros; contradiction)
    cases ahead
    exact ⟨get_delete_same ledger name,(by intros; contradiction)⟩
  · intro n value
    rw [counter] at value
    obtain ⟨m,before,rfl⟩ := Option.map_eq_some_iff.mp value
    have less := total_delete id listed
    rw [counted m before,← less]
    simp

theorem books_discarded (halves : halfAt s' = Function.update (halfAt s) t none)
    (found : halfAt s t = some (.ahead name none)) (gone : sizes s' name = none)
    (others : ∀ other, other ≠ name → sizes s' other = sizes s other)
    (counter : s'.cachedSizeBytes = s.cachedSizeBytes) : Books s' := by
  obtain ⟨ledger,balanced,counted⟩ := books
  obtain ⟨unlisted,_⟩ := balanced.ahead t name none found
  refine ⟨ledger,?_,?_⟩
  · rw [halves]
    exact balanced_finish balanced found others (fun _ _ => rfl) (unlisted.trans gone.symm)
  · rw [counter]
    exact counted

end

theorem books_counted (halves : ∀ u, halfAt s' u = none) (counter : s'.cachedSizeBytes = some (totalSize s')) : Books s' := by
  refine ⟨mapValues (·.size) s'.files,?_,?_⟩
  · have none_half : halfAt s' = fun _ => none := funext halves
    have same : (mapValues (·.size) s'.files).get = sizes s' := by
      funext name
      exact get_mapValues _ _ _
    rw [none_half,same]
    exact balanced_start _
  · intro n value
    rw [counter] at value
    cases value
    simp [totalSize,total,mapValues,comp_def]

end
/-! ### Calls take effect -/

section
variable {s s' : Cache} {t : Nat} {task : Task}

theorem undisturbed_still {name : String} (undisturbed : Undisturbed s name) :
    ∀ u task, taskAt s u = some task → scans task = false := not_scanning undisturbed.1

theorem effect_update (found : taskAt s t = some task) (ok : Bool) :
    taskAt (effectTask s t task ok) =
      Function.update (taskAt s) t (some { task with answer := some (perform s ok task.op).2 }) := by
  apply taskAt_set found
  have tasks : (perform s ok task.op).1.tasks = s.tasks := by
    unfold perform
    split
    · rfl
    · rfl
    · split_ifs <;> rfl
    · split_ifs <;> rfl
  simp only [effectTask,tasks]

theorem perform_fits (s : Cache) (ok : Bool) (op : Op) : Fits op (perform s ok op).2 := by
  unfold perform
  split
  · trivial
  · trivial
  · split_ifs <;> trivial
  · split_ifs <;> trivial

theorem effect_shaped (shaped : Shaped task) (ok : Bool) :
    Shaped { task with answer := some (perform s ok task.op).2 } := by
  refine ⟨shaped.calls,fun answer here => ?_⟩
  cases here
  exact perform_fits s ok task.op

section
variable (inv : Inv s) (found : taskAt s t = some task)
include inv found

theorem inv_effect_aside (ok : Bool) (files : (perform s ok task.op).1.files = s.files)
    (same : half { task with answer := some (perform s ok task.op).2 } = half task)
    (counts : scans { task with answer := some (perform s ok task.op).2 } = false) : Inv (effectTask s t task ok) := by
  have counter : (perform s ok task.op).1.cachedSizeBytes = s.cachedSizeBytes := by
    unfold perform
    split
    · rfl
    · rfl
    · split_ifs <;> rfl
    · split_ifs <;> rfl
  refine inv_task inv (effect_update found ok) files counter ?_ (fun u here => ?_) (fun u here counting => ?_)
    (fun u here counting => ?_) fun u here moving => ?_
  · simp [halfAt,found,same]
  · cases here
    exact effect_shaped (inv.shaped t task found) ok
  · cases here
    rw [counts] at counting
    cases counting
  · cases here
    rw [counts] at counting
    cases counting
  · cases here
    exact inv.known t task found moving

theorem inv_effect_removes {name : String} {size : Nat} (calls : task.op = .unlink name) (idle : half task = none)
    (halved : half { task with answer := some (.done true) } = some (.behind name size))
    (counts : scans { task with answer := some (.done true) } = false) (moves : publishes task = false)
    (sampled : sizes s name = some size) (undisturbed : Undisturbed s name) : Inv (effectTask s t task true) := by
  have there : (s.files.get name).isSome = true := by
    cases known : s.files.get name with
    | none => simp [sizes,known] at sampled
    | some _ => rfl
  have answer : perform s true task.op = ({ s with files := s.files.delete name },.done true) := by
    rw [calls,perform,if_pos ⟨rfl,there⟩]
  have update := effect_update found true
  rw [answer] at update
  refine inv_half inv update (undisturbed_still undisturbed) (fun known => ?_) (fun u here => ?_) (fun u here => ?_)
    (fun u here moving => ?_) ?_
  · simp only [effectTask,answer]
    exact known
  · cases here
    have shaped := effect_shaped (s := s) (inv.shaped t task found) true
    rwa [answer] at shaped
  · cases here
    exact counts
  · cases here
    have same : publishes { task with answer := some (.done true) } = publishes task := rfl
    rw [same,moves] at moving
    cases moving
  · have halves : halfAt (effectTask s t task true) = Function.update (halfAt s) t (some (.behind name size)) := by
      rw [halfAt_update update]
      simp [halved]
    refine books_removing inv.books halves ?_ (free_of_not_halfDone undisturbed.2) sampled ?_ ?_
    · simp [halfAt,found,idle]
    · simp only [effectTask,answer]
    · simp only [effectTask,answer]

theorem inv_effect_unlink (ok : Bool) {name : String} {size : Nat} (calls : task.op = .unlink name) (idle : half task = none)
    (halved : half { task with answer := some (.done true) } = some (.behind name size))
    (failed : half { task with answer := some (.done false) } = none) (counts : ∀ answer, scans { task with answer := answer } = false)
    (moves : publishes task = false) (orderly : RemovesSampled s ok name size) : Inv (effectTask s t task ok) := by
  by_cases removes : ok = true ∧ (s.files.get name).isSome = true
  · obtain ⟨sampled,undisturbed⟩ := orderly removes.1 removes.2
    rw [removes.1]
    exact inv_effect_removes inv found calls idle halved (counts _) moves sampled undisturbed
  · have answer : perform s ok task.op = (s,.done false) := by
      rw [calls,perform,if_neg removes]
    refine inv_effect_aside inv found ok (by rw [answer]) ?_ (counts _)
    rw [answer,failed,idle]

theorem inv_effect (waiting : task.answer = none) (ok : Bool) (orderly : OrderlyEffect s task ok) : Inv (effectTask s t task ok) := by
  have shaped := inv.shaped t task found
  obtain ⟨op,answer,cont⟩ := task
  subst waiting
  have calls := shaped.calls
  cases cont with
  | evictListed caller target | evictStatted caller target name todo entries =>
    cases calls
    exact inv_effect_aside inv found ok rfl rfl rfl
  | evictUnlinked caller target freed evicted entry rest =>
    exact inv_effect_unlink inv found ok calls rfl rfl rfl (fun _ => rfl) rfl orderly
  | cleanupListed now | cleanupStatted now name todo surviving =>
    cases calls
    exact inv_effect_aside inv found ok rfl rfl rfl
  | cleanupUnlinked now name size todo surviving =>
    exact inv_effect_unlink inv found ok calls rfl rfl rfl (fun _ => rfl) rfl orderly
  | invalidateStatted fileId =>
    cases calls
    exact inv_effect_aside inv found ok rfl rfl rfl
  | invalidateUnlinked fileId size =>
    obtain ⟨rfl,sampled,undisturbed⟩ := orderly
    cases size with
    | none =>
      cases calls
      have absent : s.files.get fileId = none := by simpa [sizes] using sampled
      exact inv_effect_aside inv found true (by simp [perform,absent]) rfl rfl
    | some size =>
      exact inv_effect_removes inv found calls rfl rfl rfl rfl sampled (undisturbed rfl)
  | invalidateSwept fileId size =>
    cases calls
    refine inv_effect_aside inv found ok rfl ?_ rfl
    cases size <;> rfl
  | readUnlinked fileId =>
    have halved : halfAt s t = some (.ahead fileId none) := by simp [halfAt,found,half]
    have ok_true : ok = true := orderly
    subst ok_true
    have update := effect_update found true
    have outcome : sizes (effectTask s t ⟨op,none,.readUnlinked fileId⟩ true) fileId = none ∧
        (∀ other, other ≠ fileId → sizes (effectTask s t ⟨op,none,.readUnlinked fileId⟩ true) other = sizes s other) ∧
        (effectTask s t ⟨op,none,.readUnlinked fileId⟩ true).cachedSizeBytes = s.cachedSizeBytes := by
      rw [show op = .unlink fileId from calls]
      cases known : s.files.get fileId with
      | none => simp [effectTask,perform,known,sizes]
      | some file =>
        have files : (effectTask s t ⟨.unlink fileId,none,.readUnlinked fileId⟩ true).files = s.files.delete fileId := by
          simp [effectTask,perform,known]
        obtain ⟨gone,others⟩ := sizes_delete files
        exact ⟨gone,others,by simp [effectTask,perform,known]⟩
    refine inv_half inv update (still_of_half inv halved) (fun known => ?_) (fun u here => ?_) (fun u here => ?_)
      (fun u here moving => ?_) ?_
    · rw [outcome.2.2]
      exact known
    · cases here
      exact effect_shaped shaped true
    · cases here
      rfl
    · cases here
      cases moving
    · refine books_discarded inv.books ?_ halved outcome.1 outcome.2.1 outcome.2.2
      rw [halfAt_update update]
      rfl
  | published fileId size =>
    obtain ⟨file,rfl,sized⟩ := calls
    cases ok with
    | false => exact inv_effect_aside inv found false rfl rfl rfl
    | true =>
      obtain ⟨empty,undisturbed⟩ := orderly rfl
      have update := effect_update found true
      refine inv_half inv update (undisturbed_still undisturbed) (fun known => known) (fun u here => ?_) (fun u here => ?_)
        (fun u here moving => ?_) ?_
      · cases here
        exact effect_shaped shaped true
      · cases here
        rfl
      · exact inv.known t _ found rfl
      · have halves : halfAt (effectTask s t ⟨.rename fileId file,none,.published fileId size⟩ true) =
            Function.update (halfAt s) t (some (.ahead fileId (some size))) := by
          rw [halfAt_update update]
          rfl
        refine books_publishing inv.books halves ?_ (free_of_not_halfDone undisturbed.2) empty rfl sized rfl
        simp [halfAt,found,half]
  | scanListed =>
    cases calls
    obtain ⟨rfl,whole⟩ := orderly
    refine inv_task inv (effect_update found true) rfl rfl ?_ (fun u here => ?_) (fun u here counting => ?_)
      (fun u here counting => ?_) fun u here moving => ?_
    · simp [halfAt,found,half]
    · cases here
      exact effect_shaped shaped true
    · cases here
      exact (total_keys _ _).symm
    · intro v
      cases at_v : taskAt s v with
      | none => simp [halfAt,at_v]
      | some other =>
        simp only [halfAt,at_v]
        exact whole _ (mem_of_taskAt at_v) other rfl
    · cases here
      cases moving
  | scanStatted todo sum =>
    obtain ⟨name,rfl⟩ := calls
    have ok_true : ok = true := orderly
    subst ok_true
    refine inv_task inv (effect_update found true) rfl rfl ?_ (fun u here => ?_) (fun u here counting => ?_)
      (fun u here counting => ?_) fun u here moving => ?_
    · simp [halfAt,found,half]
    · cases here
      exact effect_shaped shaped true
    · cases here
      have before := inv.sum t _ found rfl name rfl
      cases known : s.files.get name with
      | none =>
        simpa [ScanSum,perform,known,sizeOf,sizes] using before
      | some file =>
        simpa [ScanSum,perform,known,sizeOf,sizes] using before
    · exact inv.quiet t _ found rfl
    · cases here
      cases moving

end

end
/-! ### Tasks go on -/

def PlainNext (next : Option Task) : Prop := ∀ task ∈ next, Plain task

section
variable {s s' : Cache} {ttl t : Nat} {task : Task}

theorem plain_end : PlainNext none := by
  intro task here
  cases here

theorem plain_issue {op : Op} {cont : Cont} (calls : Calls cont op) (whole : half ⟨op,none,cont⟩ = none)
    (counts : scans ⟨op,none,cont⟩ = false) (moves : publishes ⟨op,none,cont⟩ = false) : PlainNext (issue op cont) := by
  intro task here
  cases here
  exact ⟨⟨calls,nofun⟩,whole,counts,moves⟩

theorem plain_nextEvict (caller : Caller) (target freed evicted : Nat) (entries : List Entry) :
    PlainNext (nextEvict caller target freed evicted entries) := by
  cases entries with
  | nil => exact plain_end
  | cons entry rest =>
    simp only [nextEvict]
    split_ifs
    · exact plain_end
    · exact plain_issue rfl rfl rfl rfl

theorem plain_nextEvictStat (caller : Caller) (target : Nat) (entries : List Entry) (todo : List String) :
    PlainNext (nextEvictStat s caller target entries todo) := by
  induction todo with
  | nil => exact plain_nextEvict _ _ _ _ _
  | cons name todo ih =>
    simp only [nextEvictStat]
    split_ifs
    · exact ih
    · exact plain_issue rfl rfl rfl rfl

theorem plain_nextCleanup (s : Cache) (now : Nat) (surviving todo : List String) :
    PlainNext (nextCleanup s now surviving todo).2 ∧ (nextCleanup s now surviving todo).1.files = s.files ∧
      (nextCleanup s now surviving todo).1.cachedSizeBytes = s.cachedSizeBytes := by
  cases todo with
  | nil => exact ⟨plain_end,rfl,rfl⟩
  | cons name todo => exact ⟨plain_issue rfl rfl rfl rfl,rfl,rfl⟩

theorem plain_cleanupFile (now : Nat) (name : String) (file : CacheFile) (todo surviving : List String) :
    PlainNext (cleanupFile ttl s now name file todo surviving).2 ∧
      (cleanupFile ttl s now name file todo surviving).1.files = s.files ∧
      (cleanupFile ttl s now name file todo surviving).1.cachedSizeBytes = s.cachedSizeBytes := by
  unfold cleanupFile
  split_ifs
  · exact plain_nextCleanup _ _ _ _
  · exact ⟨plain_issue rfl rfl rfl rfl,rfl,rfl⟩
  · exact plain_nextCleanup _ _ _ _

theorem resume_update (ttl : Nat) (found : taskAt s t = some task) (answer : Answer) :
    taskAt (resumeTask ttl s t task answer) = Function.update (taskAt s) t (goOn ttl s task.cont answer).2 := by
  apply taskAt_set found
  simp only [resumeTask,goOn_tasks]

section
variable (inv : Inv s) (found : taskAt s t = some task)
include inv found

theorem inv_resume_plain {answer : Answer} (idle : half task = none)
    (plain : PlainNext (goOn ttl s task.cont answer).2 ∧ (goOn ttl s task.cont answer).1.files = s.files ∧
      (goOn ttl s task.cont answer).1.cachedSizeBytes = s.cachedSizeBytes) : Inv (resumeTask ttl s t task answer) :=
  inv_plain inv (resume_update ttl found answer) plain.2.1 plain.2.2 (by simp [halfAt,found,idle]) plain.1

theorem inv_resume_unregister {answer : Answer} {name : String} {size : Nat}
    (halved : half task = some (.behind name size)) (plain : PlainNext (goOn ttl s task.cont answer).2)
    (files : (goOn ttl s task.cont answer).1.files = s.files)
    (counter : (goOn ttl s task.cont answer).1.cachedSizeBytes = s.cachedSizeBytes.map (· - size)) :
    Inv (resumeTask ttl s t task answer) := by
  have update := resume_update ttl found answer
  have at_t : halfAt s t = some (.behind name size) := by simp [halfAt,found,halved]
  refine inv_half inv update (still_of_half inv at_t) (fun known => ?_) (fun u here => (plain u here).shaped)
    (fun u here => (plain u here).counts) (fun u here moving => ?_) ?_
  · show (goOn ttl s task.cont answer).1.cachedSizeBytes.isSome = true
    rw [counter]
    simpa using known
  · rw [(plain u here).moves] at moving
    cases moving
  · have halves : halfAt (resumeTask ttl s t task answer) = Function.update (halfAt s) t none := by
      rw [halfAt_update update]
      cases next : (goOn ttl s task.cont answer).2 with
      | none => rfl
      | some u => rw [Option.bind_some,(plain u next).whole]
    exact books_unregister inv.books halves at_t files counter

theorem inv_resume_scan {answer : Answer} (counting : scans task = true)
    {sum : Nat} {todo : List String} (goes : goOn ttl s task.cont answer = nextScan s sum todo)
    (so_far : sum + (todo.map (sizeOf s)).sum = totalSize s) : Inv (resumeTask ttl s t task answer) := by
  have update := resume_update ttl found answer
  have quiet := inv.quiet t task found counting
  rw [goes] at update
  cases todo with
  | nil =>
    have halves : ∀ u, halfAt (resumeTask ttl s t task answer) u = none := by
      intro u
      rw [halfAt_update update]
      by_cases same : u = t
      · rw [same,update_self]
        rfl
      · rw [update_of_ne same,quiet u]
    have files : (resumeTask ttl s t task answer).files = s.files := by simp only [resumeTask,goes,nextScan]
    have counter : (resumeTask ttl s t task answer).cachedSizeBytes = some (totalSize (resumeTask ttl s t task answer)) := by
      simp only [totalSize]
      simp only [resumeTask,goes,nextScan]
      simp only [totalSize] at so_far
      simpa using so_far
    have old : ∀ u other, taskAt (resumeTask ttl s t task answer) u = some other → taskAt s u = some other := by
      intro u other at_u
      rw [update] at at_u
      rcases update_cases at_u with new | ⟨_,old⟩
      · cases new
      · exact old
    refine ⟨fun u other at_u => inv.shaped u other (old u other at_u),fun u other at_u counts => ?_,
      fun _ _ _ _ => halves,fun _ _ _ _ => by rw [counter]; rfl,books_counted halves counter⟩
    exact scanSum_files files (inv.sum u other (old u other at_u) counts)
  | cons name todo =>
    have same : (nextScan s sum (name :: todo)).1 = s := rfl
    refine inv_task inv update ?_ ?_ ?_ (fun u here => ?_) (fun u here counts => ?_) (fun u here counts => quiet)
      fun u here moving => ?_
    · simp only [resumeTask,goes,same]
    · simp only [resumeTask,goes,same]
    · rw [quiet t]
      rfl
    · cases here
      exact ⟨⟨name,rfl⟩,nofun⟩
    · cases here
      intro other calls
      cases calls
      rw [List.map_cons,List.sum_cons,← Nat.add_assoc] at so_far
      exact so_far
    · cases here
      cases moving

theorem inv_resume {answer : Answer} (answered : task.answer = some answer) : Inv (resumeTask ttl s t task answer) := by
  have shaped := inv.shaped t task found
  have sum := inv.sum t task found
  have known := inv.known t task found
  obtain ⟨op,state,cont⟩ := task
  subst answered
  have calls := shaped.calls
  have fits := shaped.fits answer rfl
  cases cont with
  | evictListed caller target =>
    refine inv_resume_plain inv found rfl ?_
    cases calls
    cases answer with
    | names names => cases names with
      | none => exact ⟨plain_end,rfl,rfl⟩
      | some names => exact ⟨plain_nextEvictStat _ _ _ _,rfl,rfl⟩
    | stat _ | done _ => cases fits
  | evictStatted caller target name todo entries =>
    refine inv_resume_plain inv found rfl ?_
    cases calls
    cases answer with
    | stat file => cases file with
      | none | some file => exact ⟨plain_nextEvictStat _ _ _ _,rfl,rfl⟩
    | names _ | done _ => cases fits
  | evictUnlinked caller target freed evicted entry rest =>
    cases calls
    cases answer with
    | done ok => cases ok with
      | false => exact inv_resume_plain inv found rfl ⟨plain_nextEvict _ _ _ _ _,rfl,rfl⟩
      | true => exact inv_resume_unregister inv found rfl (plain_nextEvict _ _ _ _ _) rfl rfl
    | names _ | stat _ => cases fits
  | cleanupListed now =>
    refine inv_resume_plain inv found rfl ?_
    cases calls
    cases answer with
    | names names => cases names with
      | none => exact ⟨plain_end,rfl,rfl⟩
      | some names => exact plain_nextCleanup _ _ _ _
    | stat _ | done _ => cases fits
  | cleanupStatted now name todo surviving =>
    refine inv_resume_plain inv found rfl ?_
    cases calls
    cases answer with
    | stat file => cases file with
      | none => exact plain_nextCleanup _ _ _ _
      | some file => exact plain_cleanupFile _ _ _ _ _
    | names _ | done _ => cases fits
  | cleanupUnlinked now name size todo surviving =>
    cases calls
    cases answer with
    | done ok => cases ok with
      | false => exact inv_resume_plain inv found rfl (plain_nextCleanup _ _ _ _)
      | true =>
        obtain ⟨plain,files,counter⟩ := plain_nextCleanup
          (unregisterCache { s with fileAccessMap := s.fileAccessMap.delete name } size) now surviving todo
        exact inv_resume_unregister inv found rfl plain files counter
    | names _ | stat _ => cases fits
  | invalidateStatted fileId =>
    refine inv_resume_plain inv found rfl ?_
    cases calls
    cases answer with
    | stat file => exact ⟨plain_issue rfl (by cases file <;> rfl) rfl rfl,rfl,rfl⟩
    | names _ | done _ => cases fits
  | invalidateUnlinked fileId size =>
    cases calls
    cases answer with
    | done ok =>
      refine inv_task inv (resume_update ttl found _) rfl rfl ?_ (fun u here => ?_) (fun u here counts => ?_)
        (fun u here counts => ?_) fun u here moving => ?_
      · simp only [halfAt,found]
        cases size <;> rfl
      · cases here
        exact ⟨rfl,nofun⟩
      · cases here
        cases counts
      · cases here
        cases counts
      · cases here
        cases moving
    | names _ | stat _ => cases fits
  | invalidateSwept fileId size =>
    cases calls
    cases answer with
    | names names => cases size with
      | none => exact inv_resume_plain inv found rfl ⟨plain_end,rfl,rfl⟩
      | some size => exact inv_resume_unregister inv found rfl plain_end rfl rfl
    | stat _ | done _ => cases fits
  | readUnlinked fileId =>
    exact inv_resume_plain inv found rfl ⟨by cases answer <;> exact plain_end,by cases answer <;> rfl,by cases answer <;> rfl⟩
  | published fileId size =>
    obtain ⟨file,rfl,_⟩ := calls
    cases answer with
    | done ok => cases ok with
      | false => exact inv_resume_plain inv found rfl ⟨plain_end,rfl,rfl⟩
      | true =>
        have update := resume_update ttl found (.done true)
        have at_t : halfAt s t = some (.ahead fileId (some size)) := by simp [halfAt,found,half]
        refine inv_half inv update (still_of_half inv at_t) (fun _ => rfl) (fun u here => (plain_end u here).shaped)
          (fun u here => (plain_end u here).counts) (fun u here moving => by rw [(plain_end u here).moves] at moving; cases moving) ?_
        refine books_register inv.books ?_ at_t rfl (known rfl) rfl
        rw [halfAt_update update]
        rfl
    | names _ | stat _ => cases fits
  | scanListed =>
    cases calls
    cases answer with
    | names names => cases names with
      | none => exact absurd (sum rfl) id
      | some names =>
        refine inv_resume_scan inv found rfl rfl ?_
        rw [Nat.zero_add]
        exact sum rfl
    | stat _ | done _ => cases fits
  | scanStatted todo sofar =>
    obtain ⟨name,rfl⟩ := calls
    cases answer with
    | stat file => cases file with
      | none | some file => exact inv_resume_scan inv found rfl rfl (sum rfl)
    | names _ | done _ => cases fits

end

end
/-! ### Requests -/

section
variable {s s' : Cache} {ttl : Nat} {fileId : String}

theorem halfAt_length (s : Cache) : halfAt s s.tasks.length = none := by
  simp [halfAt,taskAt]

section
variable (inv : Inv s)
include inv

theorem inv_untouched (tasks : s'.tasks = s.tasks) (files : s'.files = s.files)
    (counter : s'.cachedSizeBytes = s.cachedSizeBytes) : Inv s' := by
  have same : taskAt s' = taskAt s := by
    funext u
    simp only [taskAt,tasks]
  have update : taskAt s' = Function.update (taskAt s) s.tasks.length none := by
    have ended : taskAt s s.tasks.length = none := by simp [taskAt]
    rw [same,← ended,update_eq_self]
  exact inv_plain inv update files counter (halfAt_length s) plain_end

theorem inv_spawn_plain {op : Op} {cont : Cont} (plain : PlainNext (issue op cont)) : Inv (spawn s op cont) :=
  inv_plain inv (taskAt_append _ rfl) rfl rfl (halfAt_length s) plain

theorem inv_publish (file : CacheFile) (known : s.cachedSizeBytes.isSome = true) :
    Inv (spawn s (.rename fileId file) (.published fileId file.size)) := by
  refine inv_task inv (taskAt_append _ rfl) rfl rfl ?_ (fun u here => ?_) (fun u here counts => ?_)
    (fun u here counts => ?_) fun u here moving => known
  · rw [halfAt_length]
    rfl
  · cases here
    exact ⟨⟨file,rfl,rfl⟩,nofun⟩
  · cases here
    cases counts
  · cases here
    cases counts

theorem inv_discard {file : CacheFile} (there : s.files.get fileId = some file)
    (undisturbed : Undisturbed s fileId) : Inv (discard s fileId file) := by
  have update : taskAt (discard s fileId file) =
      Function.update (taskAt s) s.tasks.length (issue (.unlink fileId) (.readUnlinked fileId)) := taskAt_append _ rfl
  refine inv_half inv update (undisturbed_still undisturbed) (fun known => ?_) (fun u here => ?_) (fun u here => ?_)
    (fun u here moving => ?_) ?_
  · simpa [CacheDirectory.discard,spawn,unregisterCache] using known
  · cases here
    exact ⟨rfl,nofun⟩
  · cases here
    rfl
  · cases here
    cases moving
  · have sized : sizes s fileId = some file.size := by simp [sizes,there]
    refine books_discarding inv.books ?_ (halfAt_length s) (free_of_not_halfDone undisturbed.2) sized rfl rfl
    rw [halfAt_update update]
    rfl

theorem inv_read {expectedSize now : Nat} (orderly : unfitRead ttl s fileId expectedSize now = true → Undisturbed s fileId) :
    Inv (getCachedReadStream ttl s fileId expectedSize now) := by
  unfold getCachedReadStream
  split_ifs with mode
  · exact inv
  · cases there : s.files.get fileId with
    | none => exact inv
    | some file =>
      have unfit : unfitRead ttl s fileId expectedSize now =
          (file.size ≠ expectedSize || file.size = 0 || now - file.mtimeMs > ttl) := by
        simp [unfitRead,mode,there]
      dsimp only
      split_ifs with wrong expired
      · refine inv_discard inv there (orderly ?_)
        rw [unfit]
        rcases wrong with wrong | wrong <;> simp [wrong]
      · refine inv_discard inv there (orderly ?_)
        rw [unfit]
        simp [expired]
      · exact inv_untouched inv rfl rfl rfl

theorem inv_lookUp {now : Nat} (orderly : unfitPath ttl s fileId now = true → Undisturbed s fileId) :
    Inv (getCachedPath ttl s fileId now).1 := by
  unfold getCachedPath
  split_ifs with mode
  · exact inv
  · cases there : s.files.get fileId with
    | none => exact inv
    | some file =>
      dsimp only
      split_ifs with empty expired
      · exact inv
      · refine inv_discard inv there (orderly ?_)
        simp [unfitPath,mode,there,empty,expired]
      · exact inv_untouched inv rfl rfl rfl

theorem inv_readRange {now : Nat} (orderly : unfitPath ttl s fileId now = true → Undisturbed s fileId) :
    Inv (readRange ttl s fileId now) := by
  have looked := inv_lookUp inv orderly
  unfold readRange
  cases found : getCachedPath ttl s fileId now with
  | mk s' there =>
    rw [found] at looked
    cases there with
    | false => exact looked
    | true => exact inv_untouched looked rfl rfl rfl

end

/-! ### Runs -/

theorem step_inv (inv : Inv s) (l : Label) (allowed : Allowed s l) (orderly : Orderly ttl s l) : Inv (step ttl s l) := by
  cases l with
  | read fileId expectedSize now => exact inv_read inv orderly
  | lookUp fileId now => exact inv_lookUp inv orderly
  | readRange fileId now => exact inv_readRange inv orderly
  | closeReader fileId | startBuild fileId | endBuild fileId | setNoCacheMode value => exact inv_untouched inv rfl rfl rfl
  | publish fileId file => exact inv_publish inv file allowed
  | evict caller target | cleanup now | invalidate fileId | scan => exact inv_spawn_plain inv (plain_issue rfl rfl rfl rfl)
  | effect t ok =>
    obtain ⟨task,found,waiting⟩ := allowed
    simp only [Option.mem_def] at found
    cases task with
    | none => cases waiting
    | some task =>
      simp only [step,found]
      refine inv_effect inv (taskAt_some_iff.mpr found) ?_ ok (orderly _ found task rfl)
      simpa [Waiting] using waiting
  | resume t =>
    obtain ⟨task,found,answered⟩ := allowed
    simp only [Option.mem_def] at found
    cases task with
    | none => cases answered
    | some task =>
      simp only [step,found]
      split
      · next answer given => exact inv_resume inv (taskAt_some_iff.mpr found) given
      · exact inv

theorem initial_inv (files : OrderedMap String CacheFile) : Inv (initial files) := by
  have nothing : ∀ t, taskAt (initial files) t = none := fun t => rfl
  refine ⟨fun t task found => ?_,fun t task found => ?_,fun t task found => ?_,fun t task found => ?_,
    mapValues (·.size) files,?_,nofun⟩
  · cases found
  · cases found
  · cases found
  · cases found
  · have same : (mapValues (·.size) files).get = sizes (initial files) := by
      funext name
      exact get_mapValues _ _ _
    rw [same]
    exact balanced_start _

theorem reachable_inv {files : OrderedMap String CacheFile}
    (reach : Reachable (step ttl) (fun s l => Allowed s l ∧ Orderly ttl s l) (initial files) s) : Inv s :=
  reachable_invariant (initial_inv files) (fun _ l inv ok => step_inv inv l ok.1 ok.2) reach

end

def AtRest (s : Cache) : Prop := ∀ task ∈ s.tasks, task = none

instance (s : Cache) : Decidable (AtRest s) := inferInstanceAs (Decidable (∀ task ∈ s.tasks, task = none))

/-- In every run in which operations keep off each other's files, the counter is the size of the directory whenever
nothing is under way. -/
theorem counter_is_directory_size {ttl : Nat} {files : OrderedMap String CacheFile} {s : Cache}
    (reach : Reachable (step ttl) (fun s l => Allowed s l ∧ Orderly ttl s l) (initial files) s) (rest : AtRest s) :
    ∀ n ∈ s.cachedSizeBytes, n = totalSize s := by
  intro n counted
  obtain ⟨ledger,balanced,total_eq⟩ := (reachable_inv reach).books
  have idle : ∀ t h, halfAt s t = some h → False := by
    intro t h found
    obtain ⟨task,at_t,_⟩ := halfAt_some found
    cases rest _ (mem_of_taskAt at_t)
  have same : ∀ name, ledger.get name = (mapValues (·.size) s.files).get name := by
    intro name
    rw [balanced.rest name fun t h found => (idle t h found).elim,get_mapValues]
    rfl
  rw [total_eq n counted,total_eq_of_get same]
  simp [totalSize,total,mapValues,comp_def]

/-- The directory is scanned, a build publishes, the service evicts the file that was there before, and a read discards
the new one. -/
def orderlyDay : List Label :=
  [.scan,.effect 0 true,.resume 0,.effect 0 true,.resume 0,
    .publish "b" ⟨5,90,90⟩,.effect 1 true,.resume 1,
    .evict .service 8,.effect 2 true,.resume 2,.effect 2 true,.resume 2,.effect 2 true,.resume 2,.effect 2 true,.resume 2,
    .publish "c" ⟨7,95,95⟩,.effect 3 true,.resume 3,
    .read "b" 5 200,.effect 4 true,.resume 4]

theorem counter_is_directory_size_orderly :
    let s := orderlyDay.foldl (step 100) (initial (OrderedMap.empty.set "a" ⟨8,0,0⟩))
    s.cachedSizeBytes = some 7 ∧ s.files.entries.map Prod.fst = ["c"] ∧ ∀ n ∈ s.cachedSizeBytes, n = totalSize s := by
  have legal : Legal (step 100) (fun s l => Allowed s l ∧ Orderly 100 s l)
      (initial (OrderedMap.empty.set "a" ⟨8,0,0⟩)) orderlyDay := by decide +kernel
  exact ⟨by decide +kernel,by decide +kernel,
    counter_is_directory_size (reachable_run .start orderlyDay legal) (by decide +kernel)⟩

def publishedTwice : List Label :=
  [.scan,.effect 0 true,.resume 0,.publish "a" ⟨8,0,0⟩,.effect 1 true,.resume 1,.publish "a" ⟨8,1,1⟩,.effect 2 true,.resume 2]

def slowScan : List Label :=
  [.scan,.scan,.effect 0 true,.effect 1 true,.resume 0,.publish "a" ⟨8,0,0⟩,.effect 2 true,.resume 2,.resume 1]

/-- The counter is above the size of the directory after the one and below it after the other. -/
theorem counter_drifts :
    let twice := publishedTwice.foldl (step 100) (initial .empty)
    let slow := slowScan.foldl (step 100) (initial .empty)
    (Reachable (step 100) Allowed (initial .empty) twice ∧ AtRest twice ∧ twice.cachedSizeBytes = some 16 ∧
      totalSize twice = 8) ∧
    Reachable (step 100) Allowed (initial .empty) slow ∧ AtRest slow ∧ slow.cachedSizeBytes = some 0 ∧
      totalSize slow = 8 := by
  have legal : Legal (step 100) Allowed (initial .empty) publishedTwice := by decide +kernel
  have legalSlow : Legal (step 100) Allowed (initial .empty) slowScan := by decide +kernel
  exact ⟨⟨reachable_run .start publishedTwice legal,by decide +kernel,by decide +kernel,by decide +kernel⟩,
    reachable_run .start slowScan legalSlow,by decide +kernel,by decide +kernel,by decide +kernel⟩

end Tgtc.CacheCounter
