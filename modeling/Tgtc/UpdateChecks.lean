import Mathlib.Data.List.Sort
import Tgtc.Runs
import Tgtc.SemanticVersions

/-!
Checks for updates. The server of the releases is asked for its list unless it is unchanged; the highest stable
release is verified and kept as the candidate, with what its manifest says of the running version.
-/
namespace Tgtc.UpdateChecks
open Runs Precedence SemanticVersions

structure Asset where
  name : String
  size : Int
  url : String
deriving DecidableEq

structure Release where
  id : Nat
  tagName : String
  draft : Bool
  prerelease : Bool
  publishedAt : Option String
  body : Option String
  assets : List Asset
deriving DecidableEq

structure ManifestAsset where
  name : String
  size : Int
  sha256 : String

structure ReleaseManifest where
  version : String
  publishedAt : String
  asset : ManifestAsset
  minUpgradableVersion : String
  maxUpgradableVersion : Option String
  programRollbackSafe : Bool

inductive CompatibilityReason where
  | belowMinUpgradable | aboveMaxUpgradable | rollbackUnsafe
deriving DecidableEq

structure Downloads where
  assetUrl : String
  sumsUrl : String
  sumsSha256 : String
  sumsSigUrl : String
  manifestUrl : String
  manifestSha256 : String

structure UpdateCandidate where
  releaseId : Nat
  releaseTag : String
  version : String
  publishedAt : String
  releaseNotes : String
  asset : ManifestAsset
  downloads : Downloads
  manifest : ReleaseManifest
  compatible : Bool
  compatibilityReason : Option CompatibilityReason

inductive UpdateFailureReason where
  | currentVersionUnknown | publicKeyMissing | releaseIncomplete | releaseMismatch
  | timeout | network | rateLimited | forbidden | notFound | http5xx | http4xx | malformed

/-- `verificationReasonText` and `GITHUB_FAILURE_REASON_TEXT` -/
def UpdateFailureReason.text : UpdateFailureReason → String
  | .currentVersionUnknown => "无法确定当前运行版本"
  | .publicKeyMissing => "缺少发布签名验证公钥"
  | .releaseIncomplete => "候选 Release 资产不完整"
  | .releaseMismatch => "候选 Release 可信核验未通过"
  | .timeout => "更新源请求超时"
  | .network => "更新源不可达"
  | .rateLimited => "更新源限流，请稍后重试"
  | .forbidden => "更新源拒绝访问"
  | .notFound => "更新源仓库不可用"
  | .http5xx => "更新源服务异常"
  | .http4xx => "更新源请求被拒绝"
  | .malformed => "更新源响应格式非法"

structure Host (Bytes ETag : Type) where
  verifySha256SumsSignature : Bytes → Bytes → Bool
  parseSha256Sums : Bytes → Option (String → Option String)
  parseReleaseManifest : Bytes → String → Option ReleaseManifest
  sha256Hex : Bytes → String
  etag : List Release → ETag
  etag_injective : Function.Injective etag

def compatibility (manifest : ReleaseManifest) (currentVersion : String) : Bool × Option CompatibilityReason :=
  if !manifest.programRollbackSafe then (false,some .rollbackUnsafe)
  else if (compareSemver currentVersion manifest.minUpgradableVersion).all (· < 0) then (false,some .belowMinUpgradable)
  else match manifest.maxUpgradableVersion with
    | none => (true,none)
    | some max => if (compareSemver currentVersion max).all (0 < ·) then (false,some .aboveMaxUpgradable) else (true,none)

def sanitizeReleaseNotes : Option String → String
  | none => ""
  | some body => String.ofList (body.toList.filter fun c =>
      !(c.toNat ≤ 8 || c.toNat = 0xB || c.toNat = 0xC || (0xE ≤ c.toNat && c.toNat ≤ 0x1F)))

section
variable {Bytes ETag : Type}

def verifyReleaseAssets (host : Host Bytes ETag) (publicKey : Bool) (fetchAssetBytes : String → Except UpdateFailureReason Bytes)
    (release : Release) (currentVersion : String) : Except UpdateFailureReason UpdateCandidate :=
  match versionFromTag release.tagName with
  | none => .error .releaseMismatch
  | some version => do
    if !isStableVersion version then throw .releaseMismatch
    let expectedAssetName := "tgtc-v" ++ version ++ "-linux-x64.zip"
    let byName (name : String) := release.assets.find? fun asset => asset.name = name
    match byName expectedAssetName,byName "release-manifest.json",byName "SHA256SUMS",byName "SHA256SUMS.sig" with
    | some zipAsset,some manifestAsset,some sumsAsset,some sigAsset =>
      if !publicKey then throw .publicKeyMissing
      let manifestBytes ← fetchAssetBytes manifestAsset.url
      let sumsBytes ← fetchAssetBytes sumsAsset.url
      let sigBytes ← fetchAssetBytes sigAsset.url
      if !host.verifySha256SumsSignature sumsBytes sigBytes then throw .releaseMismatch
      match (host.parseSha256Sums sumsBytes).bind (· expectedAssetName),host.parseReleaseManifest manifestBytes version with
      | none,_ => throw .releaseIncomplete
      | some _,none => throw .releaseMismatch
      | some sum,some manifest =>
        if manifest.asset.name ≠ expectedAssetName ∨ manifest.asset.sha256 ≠ sum ∨ manifest.asset.size ≠ zipAsset.size then
          throw .releaseMismatch
        let (compatible,compatibilityReason) := compatibility manifest currentVersion
        return {
          releaseId := release.id
          releaseTag := release.tagName
          version
          publishedAt := release.publishedAt.getD manifest.publishedAt
          releaseNotes := sanitizeReleaseNotes release.body
          asset := manifest.asset
          downloads := ⟨zipAsset.url,sumsAsset.url,host.sha256Hex sumsBytes,sigAsset.url,manifestAsset.url,host.sha256Hex manifestBytes⟩
          manifest
          compatible
          compatibilityReason
        }
    | _,_,_,_ => throw .releaseIncomplete

inductive UpdateCheckStatus where
  | error | upToDate | updateAvailable | stale
deriving DecidableEq

structure UpdateCheckResult where
  status : UpdateCheckStatus
  stale : Bool
  currentVersion : String
  checkedAt : Nat
  lastSuccessfulCheckAt : Option Nat
  reason : Option UpdateFailureReason
  candidate : Option UpdateCandidate
  latestStableVersion : Option String

def UpdateCheckResult.reasonText (result : UpdateCheckResult) : Option String := result.reason.map UpdateFailureReason.text

structure CheckSnapshot (ETag : Type) where
  checkedAt : Nat
  etag : Option ETag
  candidate : Option UpdateCandidate
  latestStableVersion : Option String

/-- A snapshot with the version that was running when the list was last read for it, which the service does not keep. -/
structure Kept (ETag : Type) where
  snapshot : CheckSnapshot ETag
  writtenFor : String

structure Answer where
  releases : List Release
  running : String
  result : UpdateCheckResult

structure State (ETag : Type) where
  releases : List Release
  /-- `VERSION_UNKNOWN` is none -/
  running : Option String
  snapshot : Option (Kept ETag)
  snapshotLoaded : Bool
  stored : Option (Kept ETag)
  answers : List Answer

def VERSION_UNKNOWN : String := "unknown"

def readReleaseVersion (file : Option String) : Option String := match file with
  | none => none
  | some text => if (pattern (String.ofList (ByteRange.trim text.toList))).isSome then some (String.ofList (ByteRange.trim text.toList)) else none

def stableEntries (releases : List Release) : List (Release × String) :=
  (releases.filter fun release => !release.draft && !release.prerelease).filterMap fun release =>
    ((versionFromTag release.tagName).filter isStableVersion).map fun version => (release,version)

def stableReleases (releases : List Release) : List (Release × String) :=
  (stableEntries releases).insertionSort fun a b => (compareSemver b.2 a.2).getD 0 ≤ 0

def resolveCandidateForCurrent (snapshot : Option (Kept ETag)) (currentVersion : String) : Option UpdateCandidate :=
  (snapshot.bind fun kept => kept.snapshot.candidate).filter fun candidate => (compareSemver candidate.version currentVersion).any (0 < ·)

/-- What a check meets: the time, the snapshot, and what comes of the requests and downloads. -/
structure Circumstances (Bytes : Type) where
  now : Nat
  loads : Bool
  persists : Bool
  tagged : Except UpdateFailureReason Bool
  publicKey : Bool
  fetchAssetBytes : String → Except UpdateFailureReason Bytes

def errorResult (c : Circumstances Bytes) (reason : UpdateFailureReason) (currentVersion : String) : UpdateCheckResult :=
  ⟨.error,false,currentVersion,c.now,none,some reason,none,none⟩

def staleResult (s : State ETag) (c : Circumstances Bytes) (currentVersion : String) (reason : UpdateFailureReason) : UpdateCheckResult :=
  match s.snapshot with
  | some kept => ⟨.stale,true,currentVersion,c.now,some kept.snapshot.checkedAt,some reason,
      resolveCandidateForCurrent s.snapshot currentVersion,kept.snapshot.latestStableVersion⟩
  | none => errorResult c reason currentVersion

def loadSnapshot (s : State ETag) (c : Circumstances Bytes) : State ETag :=
  if s.snapshotLoaded then s else { s with snapshotLoaded := true, snapshot := if c.loads then s.stored else none }

def persistSnapshot (s : State ETag) (c : Circumstances Bytes) (kept : Kept ETag) : State ETag :=
  { s with snapshot := some kept, stored := if c.persists then some kept else s.stored }

def succeed (s : State ETag) (c : Circumstances Bytes) (currentVersion writtenFor : String) (etag : Option ETag)
    (candidate : Option UpdateCandidate) (latestStableVersion : Option String) : State ETag × UpdateCheckResult :=
  (persistSnapshot s c ⟨⟨c.now,etag,candidate,latestStableVersion⟩,writtenFor⟩,
    ⟨if candidate.isSome then .updateAvailable else .upToDate,false,currentVersion,c.now,some c.now,none,candidate,latestStableVersion⟩)

def notModified (s : State ETag) (c : Circumstances Bytes) (currentVersion : String) (kept : Kept ETag) : State ETag × UpdateCheckResult :=
  let candidate := resolveCandidateForCurrent s.snapshot currentVersion
  succeed s c currentVersion kept.writtenFor kept.snapshot.etag candidate
    (kept.snapshot.latestStableVersion.or (candidate.map UpdateCandidate.version))

/-- The `ETag` of the list, if the response has one. -/
def responseTag (host : Host Bytes ETag) (releases : List Release) (tagged : Bool) : Option ETag :=
  if tagged then some (host.etag releases) else none

def modified (host : Host Bytes ETag) (s : State ETag) (c : Circumstances Bytes) (currentVersion : String) (tagged : Bool) :
    State ETag × UpdateCheckResult :=
  let etag := responseTag host s.releases tagged
  match stableReleases s.releases with
  | [] => succeed s c currentVersion currentVersion etag none none
  | latest :: _ =>
    if (compareSemver latest.2 currentVersion).getD 1 ≤ 0 then succeed s c currentVersion currentVersion etag none (some latest.2)
    else match verifyReleaseAssets host c.publicKey c.fetchAssetBytes latest.1 currentVersion with
      | .ok candidate => succeed s c currentVersion currentVersion etag (some candidate) (some latest.2)
      | .error reason => (s,staleResult s c currentVersion reason)

def doCheck [DecidableEq ETag] (host : Host Bytes ETag) (s : State ETag) (c : Circumstances Bytes) : State ETag × UpdateCheckResult :=
  match s.running with
  | none => (s,errorResult c .currentVersionUnknown VERSION_UNKNOWN)
  | some currentVersion =>
    let s := loadSnapshot s c
    match c.tagged with
    | .error kind => (s,staleResult s c currentVersion kind)
    | .ok tagged => match s.snapshot with
      | some kept =>
        if kept.snapshot.etag = some (host.etag s.releases) then notModified s c currentVersion kept
        else modified host s c currentVersion tagged
      | none => modified host s c currentVersion tagged

inductive Label (Bytes : Type) where
  | publish (releases : List Release)
  | check (c : Circumstances Bytes)
  | restart (file : Option String)

def step [DecidableEq ETag] (host : Host Bytes ETag) (s : State ETag) : Label Bytes → State ETag
  | .publish releases => { s with releases }
  | .check c =>
    let (s',result) := doCheck host s c
    { s' with answers := s.answers ++ [⟨s.releases,s.running.getD VERSION_UNKNOWN,result⟩] }
  | .restart file => { s with running := readReleaseVersion file, snapshot := none, snapshotLoaded := false }

def start (releases : List Release) (file : Option String) : State ETag := ⟨releases,readReleaseVersion file,none,false,none,[]⟩

structure Eligible (release : Release) (version : String) : Prop where
  released : release.draft = false ∧ release.prerelease = false
  tag : versionFromTag release.tagName = some version
  stable : isStableVersion version = true

/-- The answers that are not marked stale tell the truth. -/
structure Truthful (a : Answer) : Prop where
  upToDate : a.result.status = .upToDate → a.result.stale = false → ∀ release ∈ a.releases,∀ version,Eligible release version →
    ¬Below a.running version
  updateAvailable : a.result.status = .updateAvailable → a.result.stale = false → ∃ candidate,a.result.candidate = some candidate ∧
    (candidate.compatible,candidate.compatibilityReason) = compatibility candidate.manifest a.running ∧
    ∃ release ∈ a.releases,Eligible release candidate.version ∧ candidate.releaseId = release.id ∧ candidate.releaseTag = release.tagName ∧
      Below a.running candidate.version ∧ ∀ other ∈ a.releases,∀ version,Eligible other version → ¬Below candidate.version version

/-- The latest version kept is not above the running one without a candidate; with one, the manifest
answers as it did for the version running then. -/
def StillFits (kept : Kept ETag) (running : String) : Prop := match resolveCandidateForCurrent (some kept) running with
  | none => ∀ latest ∈ kept.snapshot.latestStableVersion,¬Below running latest
  | some candidate => compatibility candidate.manifest running = compatibility candidate.manifest kept.writtenFor

def SmallVersions (s : State ETag) : Prop :=
  (∀ version ∈ s.running,Small version) ∧ ∀ release ∈ s.releases,∀ version ∈ versionFromTag release.tagName,Small version

instance (kept : Kept ETag) (running : String) : Decidable (StillFits kept running) := by
  unfold StillFits
  split <;> infer_instance

instance (s : State ETag) : Decidable (SmallVersions s) := inferInstanceAs (Decidable (_ ∧ _))

def Fit (host : Host Bytes ETag) (s : State ETag) : Label Bytes → Prop
  | .check c => SmallVersions s ∧ ∀ running ∈ s.running,∀ kept ∈ (loadSnapshot s c).snapshot,
      kept.snapshot.etag = some (host.etag s.releases) → StillFits kept running
  | _ => True

instance [DecidableEq ETag] (host : Host Bytes ETag) (s : State ETag) (l : Label Bytes) : Decidable (Fit host s l) := by
  cases l <;> unfold Fit <;> infer_instance

structure About (kept : Kept ETag) (releases : List Release) : Prop where
  latest : kept.snapshot.latestStableVersion = (stableReleases releases).head?.map Prod.snd
  candidate : ∀ candidate,kept.snapshot.candidate = some candidate → ∃ release,
    (stableReleases releases).head? = some (release,candidate.version) ∧ candidate.releaseId = release.id ∧
    candidate.releaseTag = release.tagName ∧
      (candidate.compatible,candidate.compatibilityReason) = compatibility candidate.manifest kept.writtenFor

def KeptSound (host : Host Bytes ETag) (kept : Kept ETag) : Prop :=
  ∀ releases,kept.snapshot.etag = some (host.etag releases) → About kept releases

structure Sound (host : Host Bytes ETag) (s : State ETag) : Prop where
  running : ∀ version ∈ s.running,pattern version ≠ none
  snapshot : ∀ kept ∈ s.snapshot,KeptSound host kept
  stored : ∀ kept ∈ s.stored,KeptSound host kept
  answers : ∀ a ∈ s.answers,Truthful a

variable {host : Host Bytes ETag} {s : State ETag} {c : Circumstances Bytes} {kept : Kept ETag} {releases : List Release}
  {release : Release} {version running : String} {candidate : UpdateCandidate} {publicKey : Bool}
  {fetch : String → Except UpdateFailureReason Bytes}

theorem versionFromTag_readable {tag : String} (read : versionFromTag tag = some version) : pattern version ≠ none := by
  unfold versionFromTag at read
  split at read
  · split at read
    · rename_i parsed
      cases read
      intro none
      simp [parseSemver,none] at parsed
    · cases read
  · cases read

theorem readReleaseVersion_readable {file : Option String} (read : readReleaseVersion file = some version) : pattern version ≠ none := by
  unfold readReleaseVersion at read
  split at read
  · cases read
  · split at read
    · rename_i parsed
      cases read
      exact fun none => by simp [none] at parsed
    · cases read

theorem mem_stableEntries : (release,version) ∈ stableEntries releases ↔ release ∈ releases ∧ Eligible release version := by
  simp only [stableEntries,List.mem_filterMap,List.mem_filter,Option.map_eq_some_iff,Option.filter_eq_some_iff,Bool.and_eq_true,
    Bool.not_eq_true',Prod.mk.injEq]
  constructor
  · rintro ⟨other,⟨among,released⟩,found,⟨tag,stable⟩,rfl,rfl⟩
    exact ⟨among,released,tag,stable⟩
  · rintro ⟨among,released,tag,stable⟩
    exact ⟨release,⟨among,released⟩,version,⟨tag,stable⟩,rfl,rfl⟩

theorem latest_highest {latest : Release × String} (small : ∀ release ∈ releases,∀ version ∈ versionFromTag release.tagName,Small version)
    (first : (stableReleases releases).head? = some latest) : latest.1 ∈ releases ∧ Eligible latest.1 latest.2 ∧
      ∀ release ∈ releases,∀ version,Eligible release version → precedence version ≤ precedence latest.2 := by
  have known (e : Release × String) (member : e ∈ stableEntries releases) : pattern e.2 ≠ none ∧ Small e.2 := by
    obtain ⟨among,eligible⟩ := mem_stableEntries.mp member
    exact ⟨versionFromTag_readable eligible.tag,small e.1 among e.2 eligible.tag⟩
  obtain ⟨rest,sorted⟩ := List.head?_eq_some_iff.mp first
  have agrees (x : Release × String) (here : x ∈ stableEntries releases) (y : Release × String) (there : y ∈ stableEntries releases) :
      (compareSemver y.2 x.2).getD 0 ≤ 0 ↔ precedence y.2 ≤ precedence x.2 :=
    compareSemver_le (known y there).1 (known x here).1 (known y there).2 (known x here).2 0
  obtain ⟨among,above⟩ := head_highest agrees sorted
  obtain ⟨member,eligible⟩ := mem_stableEntries.mp among
  exact ⟨member,eligible,fun release here version eligible => above (release,version) (mem_stableEntries.mpr ⟨here,eligible⟩)⟩

theorem stableReleases_empty (none : (stableReleases releases).head? = none) : ∀ release ∈ releases,∀ version,¬Eligible release version := by
  intro release here version eligible
  have member : (release,version) ∈ stableReleases releases :=
    (List.perm_insertionSort _ _).mem_iff.mpr (mem_stableEntries.mpr ⟨here,eligible⟩)
  rw [List.head?_eq_none_iff.mp none] at member
  cases member

theorem bind_ok {α β ε : Type} {x : Except ε α} {f : α → Except ε β} {y : β} (ran : (x >>= f) = .ok y) : ∃ z,f z = .ok y := by
  cases x with
  | error => cases ran
  | ok z => exact ⟨z,ran⟩

theorem verifyReleaseAssets_candidate (tag : versionFromTag release.tagName = some version)
    (verified : verifyReleaseAssets host publicKey fetch release running = .ok candidate) :
    candidate.version = version ∧ candidate.releaseId = release.id ∧ candidate.releaseTag = release.tagName ∧
      (candidate.compatible,candidate.compatibilityReason) = compatibility candidate.manifest running := by
  unfold verifyReleaseAssets at verified
  rw [tag] at verified
  dsimp only at verified
  split at verified
  · cases verified
  split at verified
  · split at verified
    · cases verified
    obtain ⟨manifestBytes,verified⟩ := bind_ok verified
    obtain ⟨sumsBytes,verified⟩ := bind_ok verified
    obtain ⟨sigBytes,verified⟩ := bind_ok verified
    split at verified
    · cases verified
    split at verified
    · cases verified
    · cases verified
    · split at verified
      · cases verified
      · cases verified
        exact ⟨rfl,rfl,rfl,rfl⟩
  · cases verified

theorem resolve_some (resolved : resolveCandidateForCurrent (some kept) running = some candidate) :
    kept.snapshot.candidate = some candidate ∧ (compareSemver candidate.version running).any (0 < ·) = true := by
  simpa [resolveCandidateForCurrent] using resolved

structure Keeps (host : Host Bytes ETag) (s s' : State ETag) : Prop where
  running : s'.running = s.running
  answers : s'.answers = s.answers
  snapshot : ∀ kept ∈ s'.snapshot,KeptSound host kept
  stored : ∀ kept ∈ s'.stored,KeptSound host kept

theorem keeps_sound (sound : Sound host s) : Keeps host s s := ⟨rfl,rfl,sound.snapshot,sound.stored⟩

theorem loadSnapshot_sound (sound : Sound host s) (c : Circumstances Bytes) : Sound host (loadSnapshot s c) := by
  unfold loadSnapshot
  split
  · exact sound
  · refine ⟨sound.running,fun kept found => ?_,sound.stored,sound.answers⟩
    by_cases loads : c.loads
    · exact sound.stored kept (by simpa [loads] using found)
    · simp [loads] at found

section
variable {etag : Option ETag} {found : Option UpdateCandidate} {latest : Option String} {writtenFor : String}

theorem succeed_keeps (sound : Sound host s)
    (about : ∀ releases,etag = some (host.etag releases) → About ⟨⟨c.now,etag,found,latest⟩,writtenFor⟩ releases) :
    Keeps host s (succeed s c running writtenFor etag found latest).1 := by
  refine ⟨rfl,rfl,fun kept same => ?_,fun kept same => ?_⟩
  · cases same
    exact about
  · by_cases persists : c.persists
    · simp only [succeed,persistSnapshot,persists] at same
      cases same
      exact about
    · simp only [succeed,persistSnapshot,persists] at same
      exact sound.stored kept same

theorem succeed_truthful
    (current : found = none → ∀ release ∈ s.releases,∀ version,Eligible release version → ¬Below running version)
    (better : ∀ candidate,found = some candidate →
      (candidate.compatible,candidate.compatibilityReason) = compatibility candidate.manifest running ∧
      ∃ release ∈ s.releases,Eligible release candidate.version ∧ candidate.releaseId = release.id ∧
        candidate.releaseTag = release.tagName ∧ Below running candidate.version ∧
          ∀ other ∈ s.releases,∀ version,Eligible other version → ¬Below candidate.version version) :
    Truthful ⟨s.releases,running,(succeed s c running writtenFor etag found latest).2⟩ := by
  cases found with
  | none => exact ⟨fun _ _ => current rfl,fun other => nomatch other⟩
  | some candidate => exact ⟨fun other => (nomatch other),fun _ _ => ⟨candidate,rfl,better candidate rfl⟩⟩

end

theorem staleResult_truthful (reason : UpdateFailureReason) : Truthful ⟨releases,running,staleResult s c version reason⟩ := by
  unfold staleResult
  split <;> exact ⟨fun other => (nomatch other),fun other => nomatch other⟩

theorem not_below {a b : String} (le : precedence b ≤ precedence a) : ¬Below a b := fun below => not_lt.mpr le below.2

section
variable (sound : Sound host s) (current : s.running = some running) (small : SmallVersions s)
include sound current small

theorem modified_sound (tagged : Bool) :
    Keeps host s (modified host s c running tagged).1 ∧ Truthful ⟨s.releases,running,(modified host s c running tagged).2⟩ := by
  have readable := sound.running running current
  have smallRunning := small.1 running current
  have list {releases : List Release} (same : responseTag host s.releases tagged = some (host.etag releases)) : releases = s.releases := by
    unfold responseTag at same
    split at same
    · exact (host.etag_injective (Option.some.inj same)).symm
    · cases same
  unfold modified
  split
  · rename_i empty
    have none : (stableReleases s.releases).head? = none := by rw [empty]; rfl
    refine ⟨succeed_keeps sound fun releases same => ?_,succeed_truthful (fun _ release here version eligible => ?_) fun _ other => nomatch other⟩
    · rw [list same]
      exact ⟨by rw [none]; rfl,fun _ other => nomatch other⟩
    · exact absurd eligible (stableReleases_empty none release here version)
  · rename_i latest rest sorted
    have first : (stableReleases s.releases).head? = some latest := by rw [sorted]; rfl
    obtain ⟨among,eligible,above⟩ := latest_highest small.2 first
    have order := compareSemver_le (versionFromTag_readable eligible.tag) readable (small.2 _ among _ eligible.tag) smallRunning 1
    split
    · rename_i le
      refine ⟨succeed_keeps sound fun releases same => ?_,succeed_truthful (fun _ release here version good => ?_) fun _ other => nomatch other⟩
      · rw [list same]
        exact ⟨by rw [first]; rfl,fun _ other => nomatch other⟩
      · exact not_below ((above release here version good).trans (order.mp le))
    · rename_i gt
      split
      · rename_i candidate verified
        obtain ⟨version,id,tag,verdict⟩ := verifyReleaseAssets_candidate eligible.tag verified
        refine ⟨succeed_keeps sound fun releases same => ?_,succeed_truthful (fun other => nomatch other) fun other same => ?_⟩
        · rw [list same]
          refine ⟨by rw [first]; rfl,fun other same => ?_⟩
          cases same
          exact ⟨latest.1,by rw [first,version],id,tag,verdict⟩
        · cases same
          rw [version]
          exact ⟨verdict,latest.1,among,eligible,id,tag,⟨readable,not_le.mp fun le => gt (order.mpr le)⟩,
            fun other here v good => not_below (above other here v good)⟩
      · exact ⟨keeps_sound sound,staleResult_truthful _⟩

theorem notModified_sound (known : s.snapshot = some kept) (same : kept.snapshot.etag = some (host.etag s.releases)) (fits : StillFits kept running) :
    Keeps host s (notModified s c running kept).1 ∧ Truthful ⟨s.releases,running,(notModified s c running kept).2⟩ := by
  have readable := sound.running running current
  have smallRunning := small.1 running current
  have keptSound := sound.snapshot kept known
  have about := keptSound s.releases same
  unfold notModified
  rw [known]
  refine ⟨succeed_keeps sound fun releases same => ?_,succeed_truthful (fun none release here version eligible => ?_) fun candidate found => ?_⟩
  · obtain ⟨latest,candidate⟩ := keptSound releases same
    refine ⟨?_,fun other resolved => candidate other (resolve_some resolved).1⟩
    cases head : (stableReleases releases).head? with
    | none =>
      have nothing : resolveCandidateForCurrent (some kept) running = none := by
        by_contra some
        obtain ⟨other,resolved⟩ := Option.ne_none_iff_exists'.mp some
        obtain ⟨release,first,_⟩ := candidate other (resolve_some resolved).1
        rw [head] at first
        cases first
      rw [nothing]
      simp [latest,head]
    | some first => simp [latest,head]
  · simp only [StillFits,none] at fits
    cases head : (stableReleases s.releases).head? with
    | none => exact absurd eligible (stableReleases_empty head release here version)
    | some first =>
      have highest := (latest_highest small.2 head).2.2 release here version eligible
      have notAbove := fits first.2 (by rw [about.latest,head]; rfl)
      refine not_below (highest.trans (not_lt.mp fun above => notAbove ⟨readable,above⟩))
  · simp only [StillFits,found] at fits
    obtain ⟨cached,above⟩ := resolve_some found
    obtain ⟨release,first,id,tag,verdict⟩ := about.candidate candidate cached
    obtain ⟨among,eligible,highest⟩ := latest_highest small.2 first
    have greater := (compareSemver_pos (versionFromTag_readable eligible.tag) readable (small.2 _ among _ eligible.tag) smallRunning).mp above
    exact ⟨verdict.trans fits.symm,release,among,eligible,id,tag,⟨readable,greater⟩,
      fun other here v good => not_below (highest other here v good)⟩

end

theorem loadSnapshot_same (s : State ETag) (c : Circumstances Bytes) : (loadSnapshot s c).releases = s.releases ∧
    (loadSnapshot s c).running = s.running ∧ (loadSnapshot s c).answers = s.answers := by
  unfold loadSnapshot
  split <;> exact ⟨rfl,rfl,rfl⟩

theorem sound_start (releases : List Release) (file : Option String) : Sound host (start releases file) :=
  ⟨fun _ read => readReleaseVersion_readable read,fun kept found => absurd found (Option.not_mem_none kept),
    fun kept found => absurd found (Option.not_mem_none kept),fun _ told => absurd told List.not_mem_nil⟩

variable [DecidableEq ETag]

theorem doCheck_sound (sound : Sound host s) (fit : Fit host s (.check c)) :
    Keeps host s (doCheck host s c).1 ∧ Truthful ⟨s.releases,s.running.getD VERSION_UNKNOWN,(doCheck host s c).2⟩ := by
  unfold doCheck
  cases current : s.running with
  | none => exact ⟨keeps_sound sound,fun other => (nomatch other),fun other => nomatch other⟩
  | some running =>
    obtain ⟨small,fits⟩ := fit
    have loaded := loadSnapshot_sound sound c
    obtain ⟨releases,sameRunning,answers⟩ := loadSnapshot_same s c
    have carry {out : State ETag × UpdateCheckResult} (good : Keeps host (loadSnapshot s c) out.1 ∧
        Truthful ⟨(loadSnapshot s c).releases,running,out.2⟩) : Keeps host s out.1 ∧ Truthful ⟨s.releases,running,out.2⟩ :=
      ⟨⟨good.1.running.trans sameRunning,good.1.answers.trans answers,good.1.snapshot,good.1.stored⟩,releases ▸ good.2⟩
    have here : (loadSnapshot s c).running = some running := sameRunning.trans current
    have smallHere : SmallVersions (loadSnapshot s c) := by
      rw [SmallVersions,sameRunning,releases]
      exact small
    apply carry
    dsimp only
    split
    · exact ⟨keeps_sound loaded,staleResult_truthful _⟩
    split
    · rename_i kept known
      split
      · rename_i unchanged
        exact notModified_sound loaded here smallHere known unchanged (fits running current kept known (releases ▸ unchanged))
      · exact modified_sound loaded here smallHere _
    · exact modified_sound loaded here smallHere _

theorem sound_step {l : Label Bytes} (sound : Sound host s) (fit : Fit host s l) : Sound host (step host s l) := by
  cases l with
  | publish releases => exact { sound with }
  | check c =>
    obtain ⟨⟨running,answers,snapshot,stored⟩,truthful⟩ := doCheck_sound sound fit
    refine ⟨fun version known => sound.running version (running ▸ known),snapshot,stored,fun a told => ?_⟩
    rcases List.mem_append.mp told with old | new
    · exact sound.answers a old
    · rw [List.mem_singleton.mp new]
      exact truthful
  | restart file =>
    exact ⟨fun _ read => readReleaseVersion_readable read,fun kept found => absurd found (Option.not_mem_none kept),sound.stored,sound.answers⟩

end

def plainHost : Host Unit (List Release) where
  verifySha256SumsSignature _ _ := true
  parseSha256Sums _ := some fun _ => some "d2"
  parseReleaseManifest _ version :=
    some ⟨version,"2026-01-01T00:00:00Z",⟨"tgtc-v2.0.0-linux-x64.zip",1,"d2"⟩,"1.1.0",none,true⟩
  sha256Hex _ := "d1"
  etag releases := releases
  etag_injective _ _ same := same

def release2 : Release where
  id := 1
  tagName := "v2.0.0"
  draft := false
  prerelease := false
  publishedAt := none
  body := none
  assets := [⟨"tgtc-v2.0.0-linux-x64.zip",1,"a"⟩,⟨"release-manifest.json",1,"b"⟩,⟨"SHA256SUMS",1,"c"⟩,⟨"SHA256SUMS.sig",1,"d"⟩]

def plainCheck (now : Nat) : Label Unit := .check ⟨now,true,true,.ok true,true,fun _ => .ok ()⟩

def upgradeRun : List (Label Unit) := [plainCheck 1,plainCheck 2,.restart (some "2.0.0"),plainCheck 3]

def rollbackRun : List (Label Unit) := [plainCheck 1,.restart (some "1.2.0"),plainCheck 2]

end Tgtc.UpdateChecks
