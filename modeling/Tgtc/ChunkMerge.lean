import Tgtc.Doubles
import Tgtc.UploadSessions
import Mathlib.Algebra.BigOperators.Group.Finset.Basic
import Mathlib.Algebra.Order.Floor.Ring
import Mathlib.Tactic.FieldSimp

/-!
The arithmetic of chunks, with doubles, and the two ways to merge them: by concatenation in memory or, from ten
megabytes on, by a generator that streams one chunk after the other.
-/
namespace Tgtc.ChunkMerge
open Doubles UploadSessions
universe u

/-- `Number.isSafeInteger` of a finite number. -/
def isSafeInteger (q : ℚ) : Bool := q.den = 1 && |q.num| ≤ 9007199254740991

inductive Refusal where
  | http (error : HttpError)
  | tooLarge (megabytes : ℚ)
deriving DecidableEq

/-- The checks of a new upload and its session; `further` answers for those that do not look at the
numbers. -/
def init (maxFileSize : ℚ) (fileSize totalChunks chunkSize : Int) (userId : String) (further : Except HttpError Unit) :
    Except Refusal ChunkSession :=
  if fileSize ≤ 0 then .error (.http ⟨400,"非法的 fileSize"⟩)
  else if (fileSize : ℚ) > maxFileSize then .error (.tooLarge (rounded (rounded (maxFileSize / 1024) / 1024)))
  else
    let declaredCapacity := rounded (totalChunks * chunkSize)
    if isSafeInteger declaredCapacity = false ∨ declaredCapacity < fileSize then
      .error (.http ⟨400,"totalChunks 与 chunkSize 不足以容纳声明的 fileSize"⟩)
    else if totalChunks ≠ ⌈rounded (fileSize / chunkSize)⌉ then
      .error (.http ⟨400,"totalChunks 必须与 fileSize/chunkSize 精确匹配"⟩)
    else match further with
      | .error e => .error (.http e)
      | .ok _ => .ok ⟨fileSize,chunkSize,totalChunks,userId,.pending,none,none,false⟩

def expectedSize (session : ChunkSession) (chunkIndex : Int) : ℚ :=
  if chunkIndex = session.totalChunks - 1 then
    rounded (session.fileSize - rounded (session.chunkSize * rounded (session.totalChunks - 1)))
  else session.chunkSize

abbrev Dir (Byte : Type u) := Nat → Option (List Byte)

section
variable {Byte : Type u}

/-- Moves a received chunk to its place; `incoming` is the file the request was received in. -/
def saveChunkFromPath (session : ChunkSession) (dir : Dir Byte) (chunkIndex : Int) (incoming : Option (List Byte))
    (actualSize : Int) : Except HttpError (Dir Byte) :=
  if chunkIndex < 0 ∨ chunkIndex ≥ session.totalChunks then
    let last := session.totalChunks - 1
    .error ⟨400,s!"分片索引 {chunkIndex} 超出范围 [0, {last}]"⟩
  else
    let expected := expectedSize session chunkIndex
    if expected ≤ 0 ∨ (actualSize : ℚ) ≠ expected then .error ⟨400,s!"分片大小校验失败: 期望 {expected}, 实际 {actualSize}"⟩
    else match incoming with
      | none => .error ⟨500,"ENOENT"⟩
      | some bytes =>
        if (bytes.length : Int) ≠ actualSize then .error ⟨400,"分片临时文件大小不一致"⟩
        else .ok (Function.update dir chunkIndex.toNat (some bytes))

def chunkOf (session : ChunkSession) (content : List Byte) (i : Nat) : List Byte :=
  (content.drop (i * session.chunkSize.toNat)).take session.chunkSize.toNat

def uploadChunks (session : ChunkSession) (content : List Byte) (dir : Dir Byte) : List Nat → Except HttpError (Dir Byte)
  | [] => .ok dir
  | i :: rest =>
    match saveChunkFromPath session dir i (some (chunkOf session content i)) (chunkOf session content i).length with
    | .error e => .error e
    | .ok dir => uploadChunks session content dir rest

inductive Poll where
  | chunk (i : Nat) | buffer (i j : Nat) | write

abbrev Signal := Poll → Bool

def calm : Signal := fun _ => false

/-- The loop of `doMergeSmall` from chunk `i` on. -/
def readChunks (dir : Dir Byte) (signal : Signal) : Nat → Nat → List (List Byte) → Except String (List (List Byte))
  | _, 0, buffers => .ok buffers
  | i, left + 1, buffers =>
    if signal (.chunk i) then .error "分片合并已取消"
    else match dir i with
      | none => .error s!"分片 {i} 缺失，请重新上传"
      | some buf =>
        if buf.length = 0 then .error s!"分片 {i} 为空"
        else readChunks dir signal (i + 1) left (buffers ++ [buf])

def sizeMismatch (expected : Int) (actual : Nat) : String := s!"文件大小校验失败: 期望 {expected}, 实际 {actual}"

def doMergeSmall (session : ChunkSession) (dir : Dir Byte) (signal : Signal) : Except String (List Byte) :=
  match readChunks dir signal 0 session.totalChunks.toNat [] with
  | .error e => .error e
  | .ok buffers =>
    let merged := buffers.flatten
    if (merged.length : Int) ≠ session.fileSize then .error (sizeMismatch session.fileSize merged.length)
    else if signal .write then .error "分片合并已取消"
    else .ok merged

structure ReadStream (Byte : Type u) where
  buffers : Nat → List Byte → List (List Byte)
  whole : ∀ i bytes, (buffers i bytes).flatten = bytes

structure Written (Byte : Type u) where
  written : Nat
  output : List Byte

/-- The buffers of chunk `i` from the `j`-th on. -/
def yieldBuffers (signal : Signal) (i : Nat) : Nat → List (List Byte) → Written Byte → Except String (Written Byte)
  | _, [], w => .ok w
  | j, buf :: rest, w =>
    if signal (.buffer i j) then .error "分片合并已取消"
    else yieldBuffers signal i (j + 1) rest ⟨w.written + buf.length,w.output ++ buf⟩

/-- The generator from chunk `i` on. -/
def chunkSequence (dir : Dir Byte) (stream : ReadStream Byte) (signal : Signal) :
    Nat → Nat → Written Byte → Except String (Written Byte)
  | _, 0, w => .ok w
  | i, left + 1, w =>
    if signal (.chunk i) then .error "分片合并已取消"
    else match dir i with
      | none => .error s!"分片 {i} 缺失，请重新上传"
      | some bytes =>
        if bytes.length = 0 then .error s!"分片 {i} 为空"
        else match yieldBuffers signal i 0 (stream.buffers i bytes) w with
          | .error e => .error e
          | .ok w => chunkSequence dir stream signal (i + 1) left w

def doMergeStreaming (session : ChunkSession) (dir : Dir Byte) (stream : ReadStream Byte) (signal : Signal) :
    Except String (List Byte) :=
  match chunkSequence dir stream signal 0 session.totalChunks.toNat ⟨0,[]⟩ with
  | .error e => .error e
  | .ok w =>
    if (w.written : Int) ≠ session.fileSize then .error (sizeMismatch session.fileSize w.written)
    else .ok w.output

def doMerge (session : ChunkSession) (dir : Dir Byte) (stream : ReadStream Byte) (signal : Signal) :
    Except String (List Byte) :=
  if session.fileSize < 10 * 1024 * 1024 then doMergeSmall session dir signal
  else doMergeStreaming session dir stream signal

end

structure Fitting (session : ChunkSession) : Prop where
  chunk : 0 < session.chunkSize
  size : 0 < session.fileSize
  capacity : session.fileSize ≤ session.totalChunks * session.chunkSize
  exact : (session.totalChunks - 1) * session.chunkSize < session.fileSize
  safe : session.totalChunks * session.chunkSize ≤ 9007199254740991

theorem isSafeInteger_le {q : ℚ} (safe : isSafeInteger q = true) : q ≤ 9007199254740991 := by
  simp only [isSafeInteger,Bool.and_eq_true,decide_eq_true_eq] at safe
  have whole : (q.num : ℚ) = q := Rat.den_eq_one_iff q |>.mp safe.1
  have bound : q.num ≤ 9007199254740991 := (abs_le.mp safe.2).2
  rw [← whole]
  exact_mod_cast bound

theorem product_exact {a b : Int} (safe : isSafeInteger (rounded (a * b)) = true) (positive : 0 < rounded (a * b)) :
    rounded (a * b) = a * b ∧ a * b ≤ 9007199254740991 := by
  have small : a * b ≤ 9007199254740991 := by
    by_contra large
    have crossed : ((2 ^ 53 : ℤ) : ℚ) ≤ rounded (a * b) := by
      refine le_rounded (representable_whole (by norm_num) le_rfl) ?_
      exact_mod_cast (by omega : (2 ^ 53 : ℤ) ≤ a * b)
    have := isSafeInteger_le safe
    norm_num at crossed
    linarith
  have above : 0 ≤ a * b := by
    by_contra negative
    have below : rounded (a * b) ≤ ((0 : ℤ) : ℚ) := by
      refine rounded_le (representable_whole le_rfl (by norm_num)) ?_
      exact_mod_cast (by omega : a * b ≤ 0)
    norm_num at below
    linarith
  have whole := rounded_of_representable (representable_whole above (by omega))
  rw [Int.cast_mul] at whole
  exact ⟨whole,small⟩

theorem quotient_passes {size chunk count : Int} (positive : 0 < chunk) (bits : count ≤ 2 ^ 53) (size_pos : 0 < size)
    (passed : (count : ℚ) < rounded (size / chunk)) : count * chunk < size := by
  by_contra reached
  have chunk_pos : (0 : ℚ) < chunk := by exact_mod_cast positive
  have quotient : (size : ℚ) / chunk ≤ count := by
    rw [div_le_iff₀ chunk_pos]
    exact_mod_cast (by omega : size ≤ count * chunk)
  have nonneg : 0 ≤ count := by
    have : (0 : ℚ) ≤ size / chunk := div_nonneg (by exact_mod_cast size_pos.le) chunk_pos.le
    exact_mod_cast this.trans quotient
  have := rounded_le (representable_whole nonneg bits) quotient
  linarith

theorem init_fitting {maxFileSize : ℚ} {fileSize totalChunks chunkSize : Int} {userId : String}
    {further : Except HttpError Unit} {session : ChunkSession}
    (accepted : init maxFileSize fileSize totalChunks chunkSize userId further = .ok session) (positive : 0 < chunkSize) :
    session = ⟨fileSize,chunkSize,totalChunks,userId,.pending,none,none,false⟩ ∧ Fitting session := by
  unfold init at accepted
  simp only at accepted
  split_ifs at accepted with no_size over_limit no_capacity mismatch
  rw [not_or,Bool.not_eq_false,not_lt] at no_capacity
  cases further with
  | error e => cases accepted
  | ok _ =>
    cases accepted
    have size_pos : 0 < fileSize := by omega
    have capacity_pos : 0 < rounded (totalChunks * chunkSize) :=
      lt_of_lt_of_le (by exact_mod_cast size_pos) no_capacity.2
    obtain ⟨exact_product,small⟩ := product_exact no_capacity.1 capacity_pos
    have capacity : fileSize ≤ totalChunks * chunkSize := by
      have enough := no_capacity.2
      rw [exact_product] at enough
      exact_mod_cast enough
    have count : totalChunks ≤ totalChunks * chunkSize := by
      nlinarith
    have passed : ((totalChunks - 1 : ℤ) : ℚ) < rounded (fileSize / chunkSize) := Int.lt_ceil.mp (by omega)
    have last : (totalChunks - 1) * chunkSize < fileSize := quotient_passes positive (by omega) size_pos passed
    exact ⟨rfl,⟨positive,size_pos,capacity,last,small⟩⟩

section
variable {session : ChunkSession} {Byte : Type u}

theorem fitting_chunks (fitting : Fitting session) : 0 < session.totalChunks :=
  (pos_iff_pos_of_mul_pos (lt_of_lt_of_le fitting.size fitting.capacity)).mpr fitting.chunk

theorem expectedSize_last (fitting : Fitting session) :
    expectedSize session (session.totalChunks - 1) =
      ((session.fileSize - (session.totalChunks - 1) * session.chunkSize : ℤ) : ℚ) := by
  have count := fitting_chunks fitting
  have capacity := fitting.capacity
  have exact := fitting.exact
  have safe := fitting.safe
  have chunk := fitting.chunk
  have bound : session.totalChunks ≤ session.totalChunks * session.chunkSize := by nlinarith
  have before : 0 ≤ (session.totalChunks - 1) * session.chunkSize := mul_nonneg (by omega) chunk.le
  have first := rounded_of_representable (representable_whole (n := session.totalChunks - 1) (by omega) (by omega))
  have second := rounded_of_representable
    (representable_whole (n := (session.totalChunks - 1) * session.chunkSize) before (by omega))
  have third := rounded_of_representable
    (representable_whole (n := session.fileSize - (session.totalChunks - 1) * session.chunkSize) (by omega) (by omega))
  push_cast at first second third ⊢
  rw [expectedSize,if_pos rfl,first,mul_comm (session.chunkSize : ℚ),second,third]

theorem expectedSize_other {i : Int} (other : i ≠ session.totalChunks - 1) :
    expectedSize session i = session.chunkSize := if_neg other

/-- The sizes of the chunks are those of the pieces of the file. -/
structure ChunkSizes (session : ChunkSession) : Prop where
  each : ∀ i : Int, 0 ≤ i → i < session.totalChunks →
    0 < expectedSize session i ∧ expectedSize session i ≤ session.chunkSize
  total : ∑ i ∈ Finset.range session.totalChunks.toNat, expectedSize session (i : Int) = session.fileSize

theorem chunkSizes (fitting : Fitting session) : ChunkSizes session := by
  have count := fitting_chunks fitting
  have chunk := fitting.chunk
  have capacity := fitting.capacity
  have exact := fitting.exact
  refine ⟨fun i nonneg bound => ?_,?_⟩
  · by_cases last : i = session.totalChunks - 1
    · rw [last,expectedSize_last fitting]
      have split : session.totalChunks * session.chunkSize =
          (session.totalChunks - 1) * session.chunkSize + session.chunkSize := by ring
      constructor
      · exact_mod_cast (by omega : 0 < session.fileSize - (session.totalChunks - 1) * session.chunkSize)
      · exact_mod_cast (by omega : session.fileSize - (session.totalChunks - 1) * session.chunkSize ≤ session.chunkSize)
    · rw [expectedSize_other last]
      exact ⟨by exact_mod_cast chunk,le_rfl⟩
  · obtain ⟨n,whole⟩ : ∃ n : Nat, session.totalChunks = n + 1 := ⟨(session.totalChunks - 1).toNat,by omega⟩
    have length : session.totalChunks.toNat = n + 1 := by omega
    have same : ∀ i ∈ Finset.range n, expectedSize session (i : Int) = session.chunkSize := by
      intro i member
      have := Finset.mem_range.mp member
      exact expectedSize_other (by omega)
    have final : ((n : Int)) = session.totalChunks - 1 := by omega
    rw [length,Finset.sum_range_succ,Finset.sum_congr rfl same,final,expectedSize_last fitting]
    simp only [Finset.sum_const,Finset.card_range,whole]
    push_cast
    ring

variable {content : List Byte}

section
variable (fitting : Fitting session) (length : (content.length : Int) = session.fileSize)
include fitting length

theorem chunkOf_length {i : Nat} (bound : (i : Int) < session.totalChunks) :
    ((chunkOf session content i).length : ℚ) = expectedSize session i := by
  have chunk := fitting.chunk
  obtain ⟨c,size⟩ : ∃ c : Nat, session.chunkSize = c := ⟨session.chunkSize.toNat,by omega⟩
  have capacity := fitting.capacity
  have exact := fitting.exact
  have cut : (chunkOf session content i).length = min c (content.length - i * c) := by
    simp [chunkOf,size]
  by_cases last : (i : Int) = session.totalChunks - 1
  · rw [last,expectedSize_last fitting,cut,← last]
    have split : session.totalChunks * session.chunkSize = i * session.chunkSize + session.chunkSize := by
      rw [show session.totalChunks = i + 1 by omega]
      ring
    rw [← last] at exact
    rw [size] at exact split capacity ⊢
    have value : ((min c (content.length - i * c) : ℕ) : ℤ) = session.fileSize - i * c := by omega
    exact_mod_cast value
  · rw [expectedSize_other last,cut,size]
    have enough : (i + 1) * c ≤ content.length := by
      have earlier : ((i : Int) + 1) * session.chunkSize ≤ (session.totalChunks - 1) * session.chunkSize :=
        mul_le_mul_of_nonneg_right (by omega) chunk.le
      rw [size] at earlier exact
      have cast : (((i + 1) * c : ℕ) : ℤ) = (i + 1) * c := by rfl
      omega
    have room : c ≤ content.length - i * c := by
      rw [Nat.add_mul] at enough
      omega
    rw [Nat.min_eq_left room]
    rfl

theorem save_chunkOf (dir : Dir Byte) {i : Nat} (bound : (i : Int) < session.totalChunks) :
    saveChunkFromPath session dir i (some (chunkOf session content i)) (chunkOf session content i).length =
      .ok (Function.update dir i (some (chunkOf session content i))) := by
  have size := chunkOf_length fitting length bound
  have positive := ((chunkSizes fitting).each i (by omega) bound).1
  have inside : ¬((i : Int) < 0 ∨ (i : Int) ≥ session.totalChunks) := by omega
  have fits : ¬(expectedSize session i ≤ 0 ∨ (((chunkOf session content i).length : Int) : ℚ) ≠ expectedSize session i) := by
    rw [not_or,not_le,not_not]
    exact ⟨positive,by exact_mod_cast size⟩
  simp only [saveChunkFromPath]
  rw [if_neg inside,if_neg fits]
  simp

theorem uploadChunks_done : ∀ (order : List Nat) (dir : Dir Byte), (∀ i ∈ order, (i : Int) < session.totalChunks) →
      ∃ after, uploadChunks session content dir order = .ok after ∧
        ∀ i, after i = if i ∈ order then some (chunkOf session content i) else dir i := by
  intro order
  induction order with
  | nil => intro dir _; exact ⟨dir,rfl,fun i => by simp⟩
  | cons first rest ih =>
    intro dir bounds
    have saved := save_chunkOf fitting length dir (bounds first (by simp))
    obtain ⟨after,uploaded,places⟩ := ih (Function.update dir first (some (chunkOf session content first)))
      fun i member => bounds i (List.mem_cons_of_mem _ member)
    refine ⟨after,by simp only [uploadChunks,saved,uploaded],fun i => ?_⟩
    rw [places i]
    by_cases later : i ∈ rest
    · simp [later]
    · by_cases here : i = first
      · simp [here]
      · simp [here]

end

theorem yieldBuffers_calm (i : Nat) : ∀ (buffers : List (List Byte)) (j : Nat) (w : Written Byte),
    yieldBuffers calm i j buffers w = .ok ⟨w.written + buffers.flatten.length,w.output ++ buffers.flatten⟩ := by
  intro buffers
  induction buffers with
  | nil => simp [yieldBuffers]
  | cons buf rest ih =>
    intro j w
    rw [yieldBuffers,if_neg (by simp [calm]),ih]
    simp only [List.flatten_cons,List.length_append]
    rw [List.append_assoc,Nat.add_assoc]

theorem chunkSequence_reads (dir : Dir Byte) (stream : ReadStream Byte) :
    ∀ (left i : Nat) (buffers : List (List Byte)),
      chunkSequence dir stream calm i left ⟨buffers.flatten.length,buffers.flatten⟩ =
        (readChunks dir calm i left buffers).map fun read => ⟨read.flatten.length,read.flatten⟩ := by
  intro left
  induction left with
  | zero => intro i buffers; rfl
  | succ left ih =>
    intro i buffers
    simp only [chunkSequence,readChunks,calm,Bool.false_eq_true,if_false]
    cases dir i with
    | none => rfl
    | some bytes =>
      dsimp only
      split_ifs with blank
      · rfl
      · have yielded := yieldBuffers_calm i (stream.buffers i bytes) 0 ⟨buffers.flatten.length,buffers.flatten⟩
        rw [stream.whole] at yielded
        have next := ih (i + 1) (buffers ++ [bytes])
        rw [List.flatten_append,List.flatten_singleton,List.length_append] at next
        rw [yielded]
        exact next

theorem merges_agree (session : ChunkSession) (dir : Dir Byte) (stream : ReadStream Byte) :
    doMergeStreaming session dir stream calm = doMergeSmall session dir calm := by
  have same := chunkSequence_reads dir stream session.totalChunks.toNat 0 []
  simp only [doMergeStreaming,doMergeSmall]
  rw [List.flatten_nil,List.length_nil] at same
  rw [same]
  cases readChunks dir calm 0 session.totalChunks.toNat [] with
  | error e => rfl
  | ok buffers =>
    simp only [Except.map]
    split_ifs <;> simp_all [calm]

theorem readChunks_full (dir : Dir Byte) (chunks : Nat → List Byte) :
    ∀ (left i : Nat) (buffers : List (List Byte)),
      (∀ j, i ≤ j → j < i + left → dir j = some (chunks j) ∧ (chunks j).length ≠ 0) →
      readChunks dir calm i left buffers = .ok (buffers ++ (List.range' i left).map chunks) := by
  intro left
  induction left with
  | zero => simp [readChunks]
  | succ left ih =>
    intro i buffers full
    obtain ⟨here,filled⟩ := full i le_rfl (by omega)
    have rest := ih (i + 1) (buffers ++ [chunks i]) fun j above below => full j (by omega) (by omega)
    simp only [readChunks,here,if_neg filled,rest]
    simp [calm,List.range'_succ]

theorem chunks_flatten (session : ChunkSession) (content : List Byte) (n : Nat) :
    ((List.range n).map (chunkOf session content)).flatten = content.take (n * session.chunkSize.toNat) := by
  induction n with
  | zero => simp
  | succ n ih =>
    rw [List.range_succ,List.map_append,List.flatten_append,ih,Nat.add_mul,List.take_add]
    simp [chunkOf]

theorem doMergeSmall_content (fitting : Fitting session)
    (length : (content.length : Int) = session.fileSize) {dir : Dir Byte}
    (full : ∀ i : Nat, (i : Int) < session.totalChunks → dir i = some (chunkOf session content i)) :
    doMergeSmall session dir calm = .ok content := by
  have read : readChunks dir calm 0 session.totalChunks.toNat [] =
      .ok ((List.range session.totalChunks.toNat).map (chunkOf session content)) := by
    have reads := readChunks_full dir (chunkOf session content) session.totalChunks.toNat 0 [] ?_
    · rwa [← List.range_eq_range'] at reads
    · intro j _ below
      have bound : (j : Int) < session.totalChunks := by omega
      refine ⟨full j bound,fun blank => ?_⟩
      have size := chunkOf_length fitting length bound
      have positive := ((chunkSizes fitting).each j (by omega) bound).1
      rw [← size,blank] at positive
      simp at positive
  have all : content.take (session.totalChunks.toNat * session.chunkSize.toNat) = content := by
    apply List.take_of_length_le
    have capacity := fitting.capacity
    have chunk := fitting.chunk
    have count := fitting_chunks fitting
    have cast : ((session.totalChunks.toNat * session.chunkSize.toNat : ℕ) : ℤ) =
        session.totalChunks * session.chunkSize := by
      rw [Nat.cast_mul,Int.toNat_of_nonneg count.le,Int.toNat_of_nonneg chunk.le]
    omega
  simp only [doMergeSmall,read,chunks_flatten,all]
  rw [if_neg (by simpa using length)]
  simp [calm]

end

/-- The chunks of an accepted upload are positive, at most the chunk size, and add up to the file;
whatever the order and repetitions of uploading, both ways of merging produce the content or stop alike.
-/
theorem accepted_upload_merges {Byte : Type u} {maxFileSize : ℚ} {fileSize totalChunks chunkSize : Int} {userId : String}
    {further : Except HttpError Unit} {session : ChunkSession}
    (accepted : init maxFileSize fileSize totalChunks chunkSize userId further = .ok session) (positive : 0 < chunkSize) :
    ChunkSizes session ∧
    (∀ (content : List Byte) (order : List Nat) (dir : Dir Byte), (content.length : Int) = fileSize →
      (∀ i ∈ order, (i : Int) < totalChunks) → (∀ i : Nat, (i : Int) < totalChunks → i ∈ order) →
      ∃ after, uploadChunks session content dir order = .ok after ∧ doMergeSmall session after calm = .ok content ∧
        ∀ stream, doMergeStreaming session after stream calm = .ok content ∧ doMerge session after stream calm = .ok content) ∧
    ∀ (dir : Dir Byte) (stream : ReadStream Byte),
      doMergeStreaming session dir stream calm = doMergeSmall session dir calm := by
  obtain ⟨rfl,fitting⟩ := init_fitting accepted positive
  refine ⟨chunkSizes fitting,?_,merges_agree _⟩
  intro content order dir length bounds covers
  obtain ⟨after,uploaded,places⟩ := uploadChunks_done fitting length order dir bounds
  have merged : doMergeSmall _ after calm = .ok content := doMergeSmall_content fitting length fun i bound => by
    rw [places i,if_pos (covers i bound)]
  refine ⟨after,uploaded,merged,fun stream => ?_⟩
  have streamed := (merges_agree _ after stream).trans merged
  refine ⟨streamed,?_⟩
  unfold doMerge
  split_ifs
  · exact merged
  · exact streamed

/-- Five bytes in chunks of two, the last and the first uploaded twice. -/
theorem accepted_upload_merges_five :
    let session : ChunkSession := ⟨5,2,3,"u",.pending,none,none,false⟩
    init 100 5 3 2 "u" (.ok ()) = .ok session ∧ ChunkSizes session ∧
      (∃ after, uploadChunks session [1,2,3,4,5] (fun _ => none) [2,0,1,2,0] = .ok after ∧
        doMergeSmall session after calm = .ok [1,2,3,4,5]) ∧
      ∀ (dir : Dir Nat) (stream : ReadStream Nat), doMergeStreaming session dir stream calm = doMergeSmall session dir calm := by
  intro session
  have accepted : init 100 5 3 2 "u" (.ok ()) = .ok session := by decide +kernel
  obtain ⟨sizes,merges,agree⟩ := accepted_upload_merges accepted (by decide)
  obtain ⟨after,uploaded,merged,_⟩ := merges [1,2,3,4,5] [2,0,1,2,0] (fun _ => none) (by decide) (by decide) (by
    intro i bound
    have : i = 0 ∨ i = 1 ∨ i = 2 := by omega
    rcases this with rfl | rfl | rfl <;> decide)
  exact ⟨accepted,sizes,⟨after,uploaded,merged⟩,agree⟩

end Tgtc.ChunkMerge
