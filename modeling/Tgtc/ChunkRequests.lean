import Mathlib.Algebra.Order.BigOperators.Group.List
import Tgtc.Numbers
import Tgtc.Runs
import Tgtc.Tally
import Tgtc.TwoBooks
import Tgtc.UploadSessions

/-!
Requests that bring a chunk. A request finds its session, waits for a look at the free disk space, and is then
counted, or refused: by user, by session, and over all with the bytes it may bring.
-/
namespace Tgtc.ChunkRequests
open Maps Runs Tally Numbers UploadSessions
open TwoBooks (mapValues)

structure Limits where
  maxConcurrentRequestsPerUser : Int
  maxInFlightRequests : Int
  maxInFlightBytes : Int
  minFreeDiskBytes : Int
  positive : 0 < maxConcurrentRequestsPerUser ∧ 0 < maxInFlightRequests ∧ 0 < maxInFlightBytes ∧ 0 < minFreeDiskBytes

def readPositiveConfig (value : Number) (fallback : Int) : Int :=
  match value.safeInteger with
  | some n => if n > 0 then n else fallback
  | none => fallback

theorem readPositiveConfig_positive (value : Number) {fallback : Int} (positive : 0 < fallback) :
    0 < readPositiveConfig value fallback := by
  unfold readPositiveConfig
  split
  · split_ifs with whole
    · exact whole
    · exact positive
  · exact positive

def Limits.read (user global bytes free : Number) : Limits :=
  { maxConcurrentRequestsPerUser := readPositiveConfig user 3
    maxInFlightRequests := readPositiveConfig global 24
    maxInFlightBytes := readPositiveConfig bytes (256 * 1024 * 1024)
    minFreeDiskBytes := readPositiveConfig free (1024 * 1024 * 1024)
    positive := ⟨readPositiveConfig_positive _ (by decide),readPositiveConfig_positive _ (by decide),
      readPositiveConfig_positive _ (by decide),readPositiveConfig_positive _ (by decide)⟩ }

structure ReceivingSession extends ChunkSession where
  strictDiskLease : Bool
  sized : 0 < chunkSize

structure Refusal where
  status : Nat
  message : String
  code : Option String
  retryAfterMs : Option Nat

def refusal (status : Nat) (message : String) : Refusal := ⟨status,message,none,none⟩

structure Ask where
  uploadId : String
  userId : String
  strictDiskLease : Bool
  reservedBytes : Int
  positive : 0 < reservedBytes

def reservedBytes (chunkSize : Int) (contentLength : Number) : Int :=
  match contentLength.safeInteger with
  | some n => if n > 0 then n else chunkSize
  | none => chunkSize

theorem reservedBytes_positive {chunkSize : Int} (sized : 0 < chunkSize) (contentLength : Number) :
    0 < reservedBytes chunkSize contentLength := by
  unfold reservedBytes
  split
  · split_ifs with positive
    · exact positive
    · exact sized
  · exact sized

def askFor (uploadId userId : String) (strictDiskLease : Bool) (chunkSize : Int) (sized : 0 < chunkSize)
    (contentLength : Number) : Except Refusal Ask :=
  if reservedBytes chunkSize contentLength > chunkSize + 1024 * 1024 then .error (refusal 400 "请求体超过声明的分片大小")
  else .ok ⟨uploadId,userId,strictDiskLease,reservedBytes chunkSize contentLength,reservedBytes_positive sized contentLength⟩

/-- `acquireChunkRequest` up to the look at the disk. -/
def acquireChunkRequest (sessions : OrderedMap String ReceivingSession) (uploadId userId : String)
    (contentLength : Number) : Except Refusal Ask :=
  match getSession (mapValues (·.toChunkSession) sessions) uploadId userId, sessions.get uploadId with
  | .error e, _ => .error (refusal e.status e.message)
  | .ok _, none => .error (refusal 404 "上传会话不存在或已过期")
  | .ok _, some session =>
    askFor uploadId userId session.strictDiskLease session.chunkSize session.sized contentLength

/-- `none` where the file system cannot be asked. -/
def ensureDiskSpace (limits : Limits) (freeBytes : Option Int) (requiredBytes : Int) : Except Refusal Unit :=
  match freeBytes with
  | none => .error (refusal 503 "无法确认上传临时磁盘空间")
  | some free =>
    if free - requiredBytes < limits.minFreeDiskBytes then .error (refusal 507 "上传临时磁盘空间不足，请稍后重试")
    else .ok ()

structure Grant where
  uploadId : String
  userId : String
  strictDiskLease : Bool
  reservedBytes : Int
  released : Bool

structure InFlight where
  inFlightRequests : Int
  inFlightBytes : Int
  inFlightRequestsByUser : OrderedMap String Int
  inFlightRequestsBySession : OrderedMap String Int
  grants : List Grant

def InFlight.fresh : InFlight := ⟨0,0,.empty,.empty,[]⟩

def tooMany (strictDiskLease : Bool) : Refusal :=
  if strictDiskLease then ⟨429,"服务器正在接收上一分片，请稍候",some "UPLOAD_DISK_BUDGET_BUSY",some 5000⟩
  else refusal 429 "上传请求过多，请稍后重试"

/-- `acquireChunkRequest` after the look at the disk. -/
def InFlight.admitRequest (limits : Limits) (f : InFlight) (ask : Ask) : Except Refusal InFlight :=
  let userRequests := countOr f.inFlightRequestsByUser ask.userId 0
  let sessionRequests := countOr f.inFlightRequestsBySession ask.uploadId 0
  if userRequests ≥ limits.maxConcurrentRequestsPerUser ∨ f.inFlightRequests ≥ limits.maxInFlightRequests ∨
      f.inFlightBytes + ask.reservedBytes > limits.maxInFlightBytes ∨ ask.strictDiskLease = true ∧ sessionRequests ≥ 1 then
    .error (tooMany ask.strictDiskLease)
  else .ok {
    inFlightRequests := f.inFlightRequests + 1
    inFlightBytes := f.inFlightBytes + ask.reservedBytes
    inFlightRequestsByUser := f.inFlightRequestsByUser.set ask.userId (userRequests + 1)
    inFlightRequestsBySession := f.inFlightRequestsBySession.set ask.uploadId (sessionRequests + 1)
    grants := f.grants ++ [⟨ask.uploadId,ask.userId,ask.strictDiskLease,ask.reservedBytes,false⟩] }

/-- The release of the `n`-th grant. -/
def InFlight.release (f : InFlight) (n : Nat) : InFlight :=
  match f.grants[n]? with
  | some g =>
    if g.released then f
    else {
      inFlightRequests := max 0 (f.inFlightRequests - 1)
      inFlightBytes := max 0 (f.inFlightBytes - g.reservedBytes)
      inFlightRequestsByUser := down f.inFlightRequestsByUser g.userId
      inFlightRequestsBySession := down f.inFlightRequestsBySession g.uploadId
      grants := f.grants.set n { g with released := true } }
  | none => f

structure State where
  sessions : OrderedMap String ReceivingSession
  /-- the requests that wait for the look at the disk; `none` once it has been taken -/
  asking : List (Option Ask)
  inFlight : InFlight

def initial : State := ⟨.empty,[],.fresh⟩

inductive Label where
  | session (uploadId : String) (value : Option ReceivingSession)
  | ask (uploadId userId : String) (contentLength : Number)
  | look (n : Nat) (freeBytes : Option Int)
  | release (n : Nat)

def answered (limits : Limits) (f : InFlight) (ask : Ask) (freeBytes : Option Int) : Except Refusal InFlight :=
  match ensureDiskSpace limits freeBytes ask.reservedBytes with
  | .error e => .error e
  | .ok _ => f.admitRequest limits ask

def step (limits : Limits) (s : State) : Label → State
  | .session uploadId (some value) => { s with sessions := s.sessions.set uploadId value }
  | .session uploadId none => { s with sessions := s.sessions.delete uploadId }
  | .ask uploadId userId contentLength =>
    match acquireChunkRequest s.sessions uploadId userId contentLength with
    | .ok ask => { s with asking := s.asking ++ [some ask] }
    | .error _ => s
  | .look n freeBytes => match s.asking[n]? with
    | some (some ask) => match answered limits s.inFlight ask freeBytes with
      | .ok inFlight => { s with asking := s.asking.set n none, inFlight }
      | .error _ => { s with asking := s.asking.set n none }
    | _ => s
  | .release n => { s with inFlight := s.inFlight.release n }

def Allowed (_ : State) (_ : Label) : Prop := True

instance (s : State) (l : Label) : Decidable (Allowed s l) := inferInstanceAs (Decidable True)

def InFlight.unreleased (f : InFlight) : List Grant := f.grants.filter (fun g => !g.released)

structure Accounted (f : InFlight) : Prop where
  requests : f.inFlightRequests = f.unreleased.length
  bytes : f.inFlightBytes = (f.unreleased.map Grant.reservedBytes).sum
  users : Counts f.inFlightRequestsByUser (f.unreleased.map Grant.userId)
  sessions : Counts f.inFlightRequestsBySession (f.unreleased.map Grant.uploadId)
  sized : ∀ g ∈ f.unreleased, 0 < g.reservedBytes

section
variable {f : InFlight} {limits : Limits} {ask : Ask}

theorem fresh_accounted : Accounted .fresh := by
  refine ⟨rfl,rfl,counts_empty,counts_empty,fun g member => ?_⟩
  simp [InFlight.unreleased,InFlight.fresh] at member

structure Room (limits : Limits) (f : InFlight) (ask : Ask) : Prop where
  user : countOr f.inFlightRequestsByUser ask.userId 0 < limits.maxConcurrentRequestsPerUser
  requests : f.inFlightRequests < limits.maxInFlightRequests
  bytes : f.inFlightBytes + ask.reservedBytes ≤ limits.maxInFlightBytes
  strict : ask.strictDiskLease = true → countOr f.inFlightRequestsBySession ask.uploadId 0 < 1

theorem admitRequest_ok {f' : InFlight} (admitted : f.admitRequest limits ask = .ok f') :
    Room limits f ask ∧ f' =
      { inFlightRequests := f.inFlightRequests + 1
        inFlightBytes := f.inFlightBytes + ask.reservedBytes
        inFlightRequestsByUser := up f.inFlightRequestsByUser ask.userId
        inFlightRequestsBySession := up f.inFlightRequestsBySession ask.uploadId
        grants := f.grants ++ [⟨ask.uploadId,ask.userId,ask.strictDiskLease,ask.reservedBytes,false⟩] } := by
  unfold InFlight.admitRequest at admitted
  dsimp only at admitted
  split_ifs at admitted with full
  cases admitted
  simp only [not_or,not_and,not_le,not_lt] at full
  exact ⟨⟨full.1,full.2.1,full.2.2.1,full.2.2.2⟩,rfl⟩

def Ask.grant (ask : Ask) : Grant := ⟨ask.uploadId,ask.userId,ask.strictDiskLease,ask.reservedBytes,false⟩

theorem unreleased_admitted {f' : InFlight} (admitted : f.admitRequest limits ask = .ok f') :
    f'.unreleased = f.unreleased ++ [ask.grant] := by
  obtain ⟨_,rfl⟩ := admitRequest_ok admitted
  rw [InFlight.unreleased,List.filter_append]
  rfl

theorem accounted_admitted (accounted : Accounted f) {f' : InFlight} (admitted : f.admitRequest limits ask = .ok f') :
    Accounted f' := by
  have more := unreleased_admitted admitted
  obtain ⟨_,rfl⟩ := admitRequest_ok admitted
  have append : ∀ (keys : List String) k, (keys ++ [k]).Perm (k :: keys) := fun keys k => List.perm_append_singleton k keys
  constructor
  · rw [more,List.length_append,accounted.requests]
    rfl
  · rw [more,List.map_append,accounted.bytes]
    simp [Ask.grant]
  · rw [more,List.map_append]
    exact counts_up accounted.users (append _ _)
  · rw [more,List.map_append]
    exact counts_up accounted.sessions (append _ _)
  · intro g member
    rw [more,List.mem_append,List.mem_singleton] at member
    rcases member with member | rfl
    · exact accounted.sized g member
    · exact ask.positive

theorem release_perm {grants : List Grant} {n : Nat} {g : Grant} (found : grants[n]? = some g) (live : g.released = false) :
    (grants.filter (fun g => !g.released)).Perm
      (g :: (grants.set n { g with released := true }).filter (fun g => !g.released)) := by
  induction grants generalizing n with
  | nil => cases found
  | cons h rest ih =>
    cases n with
    | zero =>
      cases found
      rw [List.set_cons_zero,List.filter_cons_of_pos (by simp [live]),List.filter_cons_of_neg (by simp)]
    | succ n =>
      rw [List.set_cons_succ]
      cases held : h.released with
      | true =>
        rw [List.filter_cons_of_neg (by simp [held]),List.filter_cons_of_neg (by simp [held])]
        exact ih found
      | false =>
        rw [List.filter_cons_of_pos (by simp [held]),List.filter_cons_of_pos (by simp [held])]
        exact ((ih found).cons h).trans (List.Perm.swap _ _ _)

theorem release_eq (accounted : Accounted f) (n : Nat) :
    f.release n = f ∨ ∃ g fewer, f.grants[n]? = some g ∧ f.unreleased.Perm (g :: fewer) ∧
      (f.release n).unreleased = fewer ∧ f.release n =
        { inFlightRequests := f.inFlightRequests - 1
          inFlightBytes := f.inFlightBytes - g.reservedBytes
          inFlightRequestsByUser := down f.inFlightRequestsByUser g.userId
          inFlightRequestsBySession := down f.inFlightRequestsBySession g.uploadId
          grants := f.grants.set n { g with released := true } } := by
  cases found : f.grants[n]? with
  | none => exact .inl (by simp [InFlight.release,found])
  | some g =>
    cases live : g.released with
    | true => exact .inl (by simp [InFlight.release,found,live])
    | false =>
      have perm := release_perm found live
      have one : 1 ≤ f.inFlightRequests := by
        rw [accounted.requests,InFlight.unreleased,perm.length_eq,List.length_cons]
        omega
      have enough : g.reservedBytes ≤ f.inFlightBytes := by
        rw [accounted.bytes,InFlight.unreleased,(perm.map Grant.reservedBytes).sum_eq,List.map_cons,List.sum_cons]
        have rest : 0 ≤ (((f.grants.set n { g with released := true }).filter (fun g => !g.released)).map
            Grant.reservedBytes).sum := by
          apply List.sum_nonneg
          intro b member
          obtain ⟨h,listed,rfl⟩ := List.mem_map.mp member
          exact (accounted.sized h (perm.mem_iff.mpr (List.mem_cons_of_mem g listed))).le
        omega
      have same : f.release n =
          { inFlightRequests := f.inFlightRequests - 1
            inFlightBytes := f.inFlightBytes - g.reservedBytes
            inFlightRequestsByUser := down f.inFlightRequestsByUser g.userId
            inFlightRequestsBySession := down f.inFlightRequestsBySession g.uploadId
            grants := f.grants.set n { g with released := true } } := by
        simp only [InFlight.release,found,live]
        rw [max_eq_right (by omega),max_eq_right (by omega)]
        rfl
      exact .inr ⟨g,_,rfl,perm,by rw [same]; rfl,same⟩

theorem accounted_release (accounted : Accounted f) (n : Nat) : Accounted (f.release n) := by
  rcases release_eq accounted n with same | ⟨g,fewer,_,perm,left,same⟩
  · rw [same]
    exact accounted
  constructor
  · rw [left,same,accounted.requests,perm.length_eq,List.length_cons]
    push_cast
    omega
  · rw [left,same,accounted.bytes,(perm.map Grant.reservedBytes).sum_eq,List.map_cons,List.sum_cons]
    dsimp only
    omega
  · rw [left,same]
    exact counts_down accounted.users (perm.map Grant.userId)
  · rw [left,same]
    exact counts_down accounted.sessions (perm.map Grant.uploadId)
  · intro h member
    rw [left] at member
    exact accounted.sized h (perm.mem_iff.mpr (List.mem_cons_of_mem g member))

structure Within (limits : Limits) (f : InFlight) : Prop where
  user : ∀ userId n, f.inFlightRequestsByUser.get userId = some n → n ≤ limits.maxConcurrentRequestsPerUser
  requests : f.inFlightRequests ≤ limits.maxInFlightRequests
  bytes : f.inFlightBytes ≤ limits.maxInFlightBytes

theorem fresh_within (limits : Limits) : Within limits .fresh := by
  obtain ⟨_,requests,bytes,_⟩ := limits.positive
  exact ⟨nofun,requests.le,bytes.le⟩

theorem within_admitted (within : Within limits f) {f' : InFlight} (admitted : f.admitRequest limits ask = .ok f') :
    Within limits f' := by
  obtain ⟨room,rfl⟩ := admitRequest_ok admitted
  have user := room.user
  have requests := room.requests
  refine ⟨fun userId n found => ?_,by dsimp only; omega,room.bytes⟩
  rcases get_of_set found with ⟨rfl,rfl⟩ | ⟨_,found⟩
  · omega
  · exact within.user userId n found

theorem down_le {m : OrderedMap String Int} {keys keys' : List String} {k k' : String} {n : Int} (counts : Counts m keys)
    (fewer : keys.Perm (k :: keys')) (found : (down m k).get k' = some n) : ∃ n', m.get k' = some n' ∧ n ≤ n' := by
  have after := (counts_down counts fewer).entry k'
  rw [found] at after
  split_ifs at after with zero
  cases after
  have occurs : k' ∈ keys := fewer.mem_iff.mpr (List.mem_cons_of_mem k (List.count_pos_iff.mp (Nat.pos_of_ne_zero zero)))
  refine ⟨_,counts_found counts occurs,?_⟩
  rw [fewer.count_eq]
  exact_mod_cast (List.sublist_cons_self k keys').count_le k'

theorem within_release (accounted : Accounted f) (within : Within limits f) (n : Nat) : Within limits (f.release n) := by
  rcases release_eq accounted n with same | ⟨g,fewer,_,perm,_,same⟩
  · rw [same]
    exact within
  have requests := within.requests
  have bytes := within.bytes
  have sized := accounted.sized g (perm.mem_iff.mpr List.mem_cons_self)
  rw [same]
  refine ⟨fun userId n found => ?_,by dsimp only; omega,by dsimp only; omega⟩
  obtain ⟨n',before,less⟩ := down_le accounted.users (perm.map Grant.userId) found
  exact less.trans (within.user userId n' before)

end

section
variable {limits : Limits} {s : State}

theorem step_inFlight (limits : Limits) (s : State) (l : Label) :
    (step limits s l).inFlight = s.inFlight ∨
    (∃ ask, s.inFlight.admitRequest limits ask = .ok (step limits s l).inFlight) ∨
    ∃ n, (step limits s l).inFlight = s.inFlight.release n := by
  cases l with
  | session uploadId value => cases value <;> exact .inl rfl
  | ask uploadId userId contentLength =>
    simp only [step]
    split <;> exact .inl rfl
  | look n freeBytes =>
    simp only [step]
    split
    · next ask _ =>
      simp only [answered]
      split
      · next known =>
        split at known
        · cases known
        · exact .inr (.inl ⟨ask,known⟩)
      · exact .inl rfl
    · exact .inl rfl
  | release n => exact .inr (.inr ⟨n,rfl⟩)

structure Sound (limits : Limits) (s : State) : Prop where
  accounted : Accounted s.inFlight
  within : Within limits s.inFlight

theorem step_sound (sound : Sound limits s) (l : Label) : Sound limits (step limits s l) := by
  rcases step_inFlight limits s l with same | ⟨ask,admitted⟩ | ⟨n,released⟩
  · exact ⟨same ▸ sound.accounted,same ▸ sound.within⟩
  · exact ⟨accounted_admitted sound.accounted admitted,within_admitted sound.within admitted⟩
  · exact ⟨released ▸ accounted_release sound.accounted n,released ▸ within_release sound.accounted sound.within n⟩

end

/-- The counters agree with each other and with the unreleased grants. -/
structure Balanced (f : InFlight) : Prop where
  grants : f.inFlightRequests = f.unreleased.length
  users : f.inFlightRequests = sum f.inFlightRequestsByUser
  sessions : f.inFlightRequests = sum f.inFlightRequestsBySession
  bytes : f.inFlightBytes = (f.unreleased.map Grant.reservedBytes).sum
  userEntries : ∀ userId n, f.inFlightRequestsByUser.get userId = some n → 0 < n
  sessionEntries : ∀ uploadId n, f.inFlightRequestsBySession.get uploadId = some n → 0 < n

/-- The counters agree with the unreleased grants, no entry is left at zero, no limit is exceeded, and a
session under a disk lease gets one request at a time. -/
theorem chunk_requests_accounted {limits : Limits} {s : State} (reach : Reachable (step limits) Allowed initial s) :
    Balanced s.inFlight ∧ Within limits s.inFlight ∧
      ∀ l g, (step limits s l).inFlight.grants = s.inFlight.grants ++ [g] → g.strictDiskLease = true →
        (step limits s l).inFlight.inFlightRequestsBySession.get g.uploadId = some 1 := by
  have base : Sound limits initial := ⟨fresh_accounted,fresh_within limits⟩
  have sound : Sound limits s := reachable_invariant base (fun _ l sound _ => step_sound sound l) reach
  have accounted := sound.accounted
  refine ⟨⟨accounted.requests,?_,?_,accounted.bytes,fun _ _ => counts_positive accounted.users,
    fun _ _ => counts_positive accounted.sessions⟩,sound.within,fun l g more strict => ?_⟩
  · rw [accounted.users.sum,List.length_map,accounted.requests]
  · rw [accounted.sessions.sum,List.length_map,accounted.requests]
  · rcases step_inFlight limits s l with same | ⟨ask,admitted⟩ | ⟨n,released⟩
    · rw [same] at more
      exact absurd (congrArg List.length more) (by simp)
    · obtain ⟨room,after⟩ := admitRequest_ok admitted
      rw [after] at more ⊢
      cases List.append_cancel_left more
      have alone := room.strict strict
      have count := countOr_zero accounted.sessions ask.uploadId
      have entry : (up s.inFlight.inFlightRequestsBySession ask.uploadId).get ask.uploadId = some 1 := by
        rw [up,get_set_same]
        congr 1
        omega
      exact entry
    · rcases release_eq accounted n with same | ⟨h,_,_,_,_,same⟩
      · rw [released,same] at more
        exact absurd (congrArg List.length more) (by simp)
      · rw [released,same] at more
        exact absurd (congrArg List.length more) (by simp)

def traffic : List Label :=
  let upload (userId : String) (strict : Bool) : ReceivingSession := ⟨⟨8,8,1,userId,.pending,none,none,false⟩,strict,by show (0 : Int) < 8; decide⟩
  [.session "00000000-0000-4000-8000-000000000001" (some (upload "a" true)),
    .session "00000000-0000-4000-8000-000000000002" (some (upload "b" false)),
    .ask "00000000-0000-4000-8000-000000000001" "a" .nan,.ask "00000000-0000-4000-8000-000000000001" "a" (.whole 5),
    .ask "00000000-0000-4000-8000-000000000002" "b" (.whole 5),.look 1 (some 5000000000),.look 0 (some 5000000000),
    .look 2 (some 5000000000),.release 0,.release 0]

theorem chunk_requests_accounted_traffic :
    let s := traffic.foldl (step (.read .nan .nan .nan .nan)) initial
    s.inFlight.grants.map Grant.released = [true,false] ∧ s.inFlight.inFlightBytes = 5 ∧ Balanced s.inFlight := by
  have legal : Legal (step (.read .nan .nan .nan .nan)) Allowed initial traffic := by decide +kernel
  exact ⟨by decide +kernel,by decide +kernel,(chunk_requests_accounted (reachable_run .start traffic legal)).1⟩

end Tgtc.ChunkRequests
