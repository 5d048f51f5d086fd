import Tgtc.ShareEndpoints

/-!
What a link with a password tells to somebody who does not know it. Whatever is asked, files and
folders have no part in the answer, nor in anything else that can be seen, and no access is counted.
-/
namespace Tgtc.ShareSecrecy
open Maps RateLimits ShareLinks ShareFolders Observations ShareEndpoints

section
variable {World : Type} {services : Services World}

/-- The link with the token has a password, and what the visitor holds does not open it from now on. -/
def Locked (services : Services World) (v : Visible World) (token : String) (accessJwt : Option String) : Prop :=
  ∀ link, v.links.find token = some link → ∃ hash, truthy link.password = some hash ∧
    ∀ jwt ∈ accessJwt, ∀ n, v.looks ≤ n → verifyAccessJwt services (v.clock n) jwt link.id hash = false

def Mistaken (services : Services World) (v : Visible World) (token password : String) : Prop :=
  ∀ link, v.links.find token = some link → ∃ hash, truthy link.password = some hash ∧ services.compare password hash = false

/-- A request for a link with a password, without a valid access JWT, or with a wrong password. -/
def Outsider (services : Services World) (v : Visible World) (call : Endpoint × Request) : Prop := match call.1 with
  | .verify password => Mistaken services v call.2.token password
  | _ => Locked services v call.2.token call.2.shareAccess

def accessCounts (v : Visible World) : List (String × Nat) := v.links.rows.map fun row => (row.id,row.currentAccessCount)

structure Same (v₀ v : Visible World) : Prop where
  links : v.links = v₀.links
  clock : v.clock = v₀.clock
  looks : v₀.looks ≤ v.looks

/-- A value of some kind with the links as they were, or an error with the counts as they were. -/
def Gives {Result : Type} (v₀ : Visible World) (fits : Result → Prop) (answer : Except HttpError Result) (v : Visible World) : Prop :=
  match answer with
  | .ok a => Same v₀ v ∧ fits a
  | .error _ => accessCounts v = accessCounts v₀

variable {v₀ : Visible World} {Result Next : Type} {fits : Result → Prop} {fits' : Next → Prop} {m : Seen World Result}

theorem same_refl : Same v₀ v₀ := ⟨rfl,rfl,le_rfl⟩

theorem counts_of_same {v : Visible World} (same : Same v₀ v) : accessCounts v = accessCounts v₀ := by rw [accessCounts,same.links]; rfl

theorem keeps_then {f : Result → Seen World Next} (first : Keeps (Same v₀) m (Gives v₀ fits))
    (next : ∀ a, fits a → Keeps (Same v₀) (f a) (Gives v₀ fits')) : Keeps (Same v₀) (m >>= f) (Gives v₀ fits') :=
  keeps_bind first (fun a v held => next a held.2 v held.1) fun _ _ held => held

variable {key ip : String} {link : ShareLink} {a : Result} {e : HttpError} {windowMs : Nat} {allowExistingPreview : Bool}

theorem keeps_return (holds : fits a) : Keeps (Same v₀) (pure a : Seen World Result) (Gives v₀ fits) :=
  keeps_pure fun _ same => ⟨same,holds⟩

theorem keeps_refuse : Keeps (Same v₀) (throw e : Seen World Result) (Gives v₀ fits) :=
  keeps_throw fun _ same => counts_of_same same

def Leaves (m : Seen World Result) : Prop := ∀ v₀, Keeps (Same v₀) m (Gives v₀ fun _ => True)

theorem leaves_bind {f : Result → Seen World Next} (first : Leaves m) (next : ∀ a, Leaves (f a)) : Leaves (m >>= f) :=
  fun v₀ => keeps_then (first v₀) fun a _ => next a v₀

theorem leaves_pure : Leaves (pure a : Seen World Result) := fun _ => keeps_return trivial

theorem leaves_throw : Leaves (throw e : Seen World Result) := fun _ => keeps_refuse

theorem leaves_now : Leaves (now : Seen World Nat) :=
  fun _ _ same => ⟨⟨same.links,same.clock,same.looks.trans (Nat.le_succ _)⟩,trivial⟩

theorem leaves_configured {fallback : Nat} : Leaves (configured key fallback : Seen World Nat) :=
  fun _ _ same => ⟨same,trivial⟩

theorem leaves_modify {change : Visible World → Visible World}
    (others : ∀ v, (change v).links = v.links ∧ (change v).clock = v.clock ∧ (change v).looks = v.looks) :
    Leaves (modify change : Seen World PUnit) := by
  intro v₀ v same
  obtain ⟨links,clock,looks⟩ := others v
  exact ⟨⟨links.trans same.links,clock.trans same.clock,same.looks.trans looks.ge⟩,trivial⟩

theorem leaves_tryCheck {maxAttempts lockDurationMs : Nat} :
    Leaves (tryCheck key maxAttempts lockDurationMs windowMs : Seen World (Option Bool)) := by
  refine leaves_bind leaves_now fun asked => leaves_bind leaves_now fun time => ?_
  intro v₀ v same
  rw [outcome_bind,outcome_get]
  dsimp only
  split
  · exact ⟨same,trivial⟩
  · exact ⟨{ same with },trivial⟩

theorem leaves_check {maxAttempts lockDurationMs : Nat} :
    Leaves (check key maxAttempts lockDurationMs windowMs : Seen World Bool) := by
  refine leaves_bind leaves_tryCheck fun allowed => ?_
  cases allowed with
  | none => exact leaves_throw
  | some allowed => exact leaves_pure

theorem leaves_count {threshold : Nat} : Leaves (count key threshold windowMs : Seen World (Nat × Bool)) := by
  refine leaves_bind leaves_now fun asked => leaves_bind leaves_now fun time => ?_
  intro v₀ v same
  rw [outcome_bind,outcome_get]
  dsimp only
  split
  · exact counts_of_same same
  · exact ⟨{ same with },trivial⟩

theorem leaves_forget : Leaves (forget key : Seen World Unit) := leaves_modify fun _ => ⟨rfl,rfl,rfl⟩

theorem leaves_audit {entry : Audit} : Leaves (audit entry : Seen World Unit) := leaves_modify fun _ => ⟨rfl,rfl,rfl⟩

theorem leaves_setCookie {name value : String} : Leaves (setCookie name value : Seen World Unit) := leaves_modify fun _ => ⟨rfl,rfl,rfl⟩

theorem leaves_assertLimit {times : Nat} : Leaves (assertLimit key times : Seen World Unit) := by
  refine leaves_bind leaves_configured fun limit => leaves_bind leaves_configured fun window => leaves_bind leaves_configured fun lock => ?_
  refine leaves_bind leaves_check fun allowed => ?_
  cases allowed with
  | false => exact leaves_throw
  | true => exact leaves_pure

theorem leaves_mapM {Item : Type} {act : Item → Seen World Next} (each : ∀ item, Leaves (act item)) (items : List Item) :
    Leaves (items.mapM act) := by
  induction items with
  | nil => exact leaves_pure
  | cons item rest ih =>
    rw [List.mapM_cons]
    exact leaves_bind (each item) fun _ => leaves_bind ih fun _ => leaves_pure

theorem leaves_checkPasswordAttemptAllowed {token : String} : Leaves (checkPasswordAttemptAllowed ip token : Seen World Bool) := by
  refine leaves_bind (leaves_mapM (fun key => leaves_tryCheck) _) fun results => ?_
  split
  · exact leaves_throw
  · exact leaves_pure

theorem leaves_isIPBanned : Leaves (isIPBanned ip : Seen World Bool) :=
  leaves_bind leaves_now fun _ => fun _ _ same => ⟨same,trivial⟩

theorem leaves_recordFailedAttempt : Leaves (recordFailedAttempt ip : Seen World Unit) := by
  refine leaves_bind leaves_configured fun limit => leaves_bind leaves_configured fun duration => leaves_bind leaves_count fun counted => ?_
  dsimp only
  split
  · refine leaves_bind leaves_count fun banned => leaves_bind leaves_now fun time => ?_
    refine leaves_bind (leaves_modify fun _ => ⟨rfl,rfl,rfl⟩) fun _ => ?_
    split
    · exact leaves_bind leaves_forget fun _ => leaves_forget
    · exact leaves_forget
  · exact leaves_pure

theorem leaves_recordTokenFailedAttempt {token : String} : Leaves (recordTokenFailedAttempt token : Seen World Unit) := by
  refine leaves_bind leaves_count fun counted => ?_
  dsimp only
  split
  · exact leaves_bind leaves_check fun _ => leaves_forget
  · exact leaves_pure

theorem leaves_getOrCreateVisitorHash {request : Request} : Leaves (getOrCreateVisitorHash services request : Seen World String) := by
  unfold getOrCreateVisitorHash
  split
  · exact leaves_pure
  · exact leaves_bind leaves_setCookie fun _ => leaves_pure

theorem keeps_findLink {token : String} {missing : HttpError} :
    Keeps (Same v₀) (findLink token missing) (Gives v₀ fun link => v₀.links.find token = some link) := by
  intro v same
  unfold findLink
  rw [outcome_bind,outcome_get]
  dsimp only
  split
  · exact counts_of_same same
  · next link found => exact ⟨same,by rw [← same.links]; exact found⟩

theorem counts_saveLink {mine : ShareLink} {status : ShareLinkStatus} {v : Visible World} (there : link ∈ v.links.rows)
    (marked : mine = { link with status }) : accessCounts (outcome (saveLink mine) v).2 = accessCounts v := by
  subst marked
  simp only [accessCounts,saveLink,outcome_modify,LinkTable.update,List.map_map]
  refine List.map_congr_left fun row member => ?_
  simp only [Function.comp,changeRow]
  split
  · next same =>
    -- there is one row with the id only
    obtain rfl : row = link := List.inj_on_of_nodup_map v.links.distinct member there same
    simp [saved]
  · rfl

theorem keeps_assertUsable {token : String} (found : v₀.links.find token = some link) :
    Keeps (Same v₀) (assertUsable link allowExistingPreview) (Gives v₀ fun _ => True) := by
  refine keeps_then (leaves_now v₀) fun time _ => ?_
  split
  · exact keeps_return trivial
  next useless refused =>
  split
  · next mine saves =>
    obtain ⟨status,marked⟩ := useless_saves refused saves
    intro v same
    have there : link ∈ v.links.rows := same.links ▸ List.mem_of_find?_eq_some found
    exact (counts_saveLink there marked).trans (counts_of_same same)
  · exact keeps_refuse

theorem keeps_hasAccess {token : String} {accessJwt : Option String} (locked : Locked services v₀ token accessJwt)
    (found : v₀.links.find token = some link) : Keeps (Same v₀) (hasAccess services link accessJwt) (Gives v₀ fun opens => opens = false) := by
  obtain ⟨hash,password,invalid⟩ := locked link found
  unfold hasAccess
  rw [password]
  cases given : truthy accessJwt with
  | none => exact keeps_return rfl
  | some jwt =>
    have given : accessJwt = some jwt := (Option.filter_eq_some_iff.mp given).1
    intro v same
    refine ⟨⟨same.links,same.clock,same.looks.trans (Nat.le_succ _)⟩,?_⟩
    have refused := invalid jwt given v.looks same.looks
    rwa [← same.clock] at refused

theorem keeps_authorise {token : String} {accessJwt : Option String}
    (locked : Locked services v₀ token accessJwt) :
    Keeps (Same v₀) (authorise services token accessJwt allowExistingPreview) (Gives v₀ fun _ => False) := by
  refine keeps_then keeps_findLink fun link found => keeps_then (keeps_assertUsable found) fun _ _ => ?_
  split
  · exact keeps_refuse
  · refine keeps_then (keeps_hasAccess locked found) fun opens closed => ?_
    subst closed
    exact keeps_refuse

theorem keeps_comparePassword {token password hash : String} (protects : truthy link.password = some hash)
    (wrong : services.compare password hash = false) :
    Keeps (Same v₀) (comparePassword services link token password ip) (Gives v₀ fun _ => False) := by
  have recorded (entry : Audit) : Keeps (Same v₀) (do
      recordTokenFailedAttempt token
      audit entry
      throw (badRequest "无法验证分享密码") : Seen World String) (Gives v₀ fun _ => False) :=
    keeps_then (leaves_recordTokenFailedAttempt v₀) fun _ _ => keeps_then (leaves_audit v₀) fun _ _ => keeps_refuse
  unfold comparePassword
  rw [protects]
  dsimp only
  rw [if_neg (by simp [wrong])]
  split
  · exact keeps_then (leaves_recordFailedAttempt v₀) fun _ _ => recorded _
  · exact recorded _

theorem keeps_verifyPassword {token password : String} (mistaken : Mistaken services v₀ token password) :
    Keeps (Same v₀) (verifyPassword services token password ip) (Gives v₀ fun _ => False) := by
  refine keeps_then (leaves_checkPasswordAttemptAllowed v₀) fun allowed _ => ?_
  dsimp only
  split
  · exact keeps_refuse
  refine keeps_then keeps_findLink fun link found => keeps_then (keeps_assertUsable found) fun _ _ => ?_
  obtain ⟨hash,protects,wrong⟩ := mistaken link found
  split
  · refine keeps_then (leaves_isIPBanned v₀) fun banned _ => ?_
    split
    · exact keeps_refuse
    · exact keeps_comparePassword protects wrong
  · exact keeps_comparePassword protects wrong

/-- Blind to files and folders, with a value of some kind and the links as they were, or an error and the counts as they were. -/
def Ignores (v₀ : Visible World) (task : Task World Result) (fits : Result → Prop) : Prop :=
  Blind Database.visible (Same v₀) task (Gives v₀ fits)

theorem ignores_seen (kept : Keeps (Same v₀) m (Gives v₀ fits)) : Ignores v₀ (seen m) fits := blind_zoom (fun _ _ => rfl) kept

theorem ignores_then {task : Task World Result} {f : Result → Task World Next} (first : Ignores v₀ task fits)
    (next : ∀ a, fits a → Ignores v₀ (f a) fits') : Ignores v₀ (task >>= f) fits' :=
  blind_bind first (fun a db db' same held => next a held.2 db db' same held.1) fun _ _ held => held

theorem ignores_refused {task : Task World Result} {f : Result → Task World Next} (first : Ignores v₀ task fun _ => False) :
    Ignores v₀ (task >>= f) fits' := ignores_then first fun _ never => never.elim

theorem ignores_return (holds : fits a) : Ignores v₀ (pure a : Task World Result) fits := blind_pure fun _ same => ⟨same,holds⟩

theorem ignores_throw : Ignores v₀ (throw e : Task World Result) fits :=
  fun _ _ same held => ⟨rfl,same,counts_of_same held⟩

variable {token : String} {accessJwt : Option String} {request : Request} {endpoint : Endpoint}

theorem ignores_getSharePublicInfo (locked : Locked services v₀ token accessJwt) :
    Ignores v₀ (getSharePublicInfo services token accessJwt) fun response => response = .requiresPassword := by
  refine ignores_then (ignores_seen keeps_findLink) fun link found => ignores_then (ignores_seen (keeps_assertUsable found)) fun _ _ => ?_
  refine ignores_then (ignores_seen (keeps_hasAccess locked found)) fun opens closed => ?_
  subst closed
  exact ignores_return rfl

theorem ignores_getShareMediaTicketFile {fileId : Nat} (locked : Locked services v₀ token accessJwt) :
    Ignores v₀ (getShareMediaTicketFile services token fileId accessJwt) fun _ => False := by
  refine ignores_then (ignores_seen keeps_findLink) fun link found => ignores_then (ignores_seen (keeps_assertUsable found)) fun _ _ => ?_
  refine ignores_then (ignores_seen (keeps_hasAccess locked found)) fun opens closed => ?_
  subst closed
  exact ignores_throw

theorem ignores_browse {show_ : ShareLink → Task World Response} (locked : Locked services v₀ request.token request.shareAccess) :
    Ignores v₀ (browse services request show_) fun response => response = .requiresPassword := by
  refine ignores_then (ignores_seen (leaves_assertLimit v₀)) fun _ _ => ?_
  refine ignores_then (ignores_seen keeps_findLink) fun link found => ignores_then (ignores_seen (keeps_assertUsable found)) fun _ _ => ?_
  refine ignores_then (ignores_seen (keeps_hasAccess locked found)) fun opens closed => ?_
  subst closed
  exact ignores_return rfl

theorem ignores_authorised {f : ShareLink → Task World Result} (locked : Locked services v₀ token accessJwt) :
    Ignores v₀ (seen (authorise services token accessJwt allowExistingPreview) >>= f) fun _ => False :=
  ignores_refused (ignores_seen (keeps_authorise locked))

theorem ignores_handle (outsider : Outsider services v₀ (endpoint,request)) :
    Ignores v₀ (handle services request endpoint) fun response => response = .requiresPassword := by
  have limited (key : String) (times : Nat) : Ignores v₀ (seen (assertLimit key times)) fun _ => True := ignores_seen (leaves_assertLimit v₀)
  cases endpoint with
  | info => exact ignores_then (limited _ _) fun _ _ => ignores_getSharePublicInfo outsider
  | verify password => exact ignores_seen (keeps_then (keeps_verifyPassword outsider) fun _ never => never.elim)
  | thumbnail fileId | hdThumbnail fileId | cacheStatus fileId | download fileId rangeHeader ifRange =>
    exact ignores_then (limited _ _) fun _ _ => ignores_refused (ignores_authorised outsider)
  | mediaTicket fileId => exact ignores_then (limited _ _) fun _ _ => ignores_refused (ignores_getShareMediaTicketFile outsider)
  | preview fileId rangeHeader ifRange =>
    refine blind_adapt ?_ fun _ _ held => held
    refine ignores_then (limited _ _) fun _ _ => ignores_then (ignores_seen (leaves_getOrCreateVisitorHash v₀)) fun visitorHash _ => ?_
    exact ignores_refused (ignores_authorised outsider)
  | contents folderId page limit | breadcrumb folderId => exact ignores_browse outsider

/-- Without the password of a link the answers and the access counts are the same whatever files and
folders there are. -/
theorem target_unseen {db db' : Database World} (same : db.visible = db'.visible) (outsider : Outsider services db.visible (endpoint,request)) :
    (outcome (handle services request endpoint) db).1 = (outcome (handle services request endpoint) db').1 ∧
      (outcome (handle services request endpoint) db).2.visible = (outcome (handle services request endpoint) db').2.visible ∧
      accessCounts (outcome (handle services request endpoint) db).2.visible = accessCounts db.visible := by
  obtain ⟨answers,visible,held⟩ := ignores_handle outsider db db' same same_refl
  refine ⟨answers,visible,?_⟩
  generalize (outcome (handle services request endpoint) db).1 = answer at held
  cases answer with
  | ok response => exact counts_of_same held.1
  | error e => exact held

end

/-- Secrets that tell themselves, and a file service that sends empty files. -/
def plainServices : Services Unit where
  jwtVerify _ jwt := if jwt = "opened" then some ⟨some "link",some "share-access",some "hash"⟩ else none
  jwtSign _ _ := "opened"
  hmac text := text
  compare password hash := password = "secret" && hash = "hash"
  sha256 text := text
  issueTicket _ fileId uploadVersion subject := toString fileId ++ "." ++ toString uploadVersion ++ "." ++ subject
  before name name' := name ≤ name'
  getExistingMediaThumbnailStream _ := return ⟨"image/webp",[]⟩
  getExistingHdMediaThumbnailStream _ := return ⟨"image/webp",[]⟩
  isFileCached _ := return false
  getShareDownloadStreamWithRange _ _ _ _ := return none
  getSharePreviewStreamWithRange _ _ _ _ := return none
  getStreamForShareDownload fileId _ _ := do
    let file ← looked fun t => match t.file fileId with
      | none => .error (notFound "文件不存在")
      | some file => .ok file
    return ⟨file.mimeType,file.originalName,file.size,none,none,none,[]⟩

def lockedLink : ShareLink := ⟨"link","token",.file,1,7,some "hash",3,0,none,none,.active,false⟩

def onlyLink : Visible Unit := ⟨⟨[lockedLink],by simp⟩,.empty,.empty,.empty,fun _ => 0,[],[],fun n => n,0,()⟩

def bare : Database Unit := ⟨onlyLink,⟨.empty,.empty⟩⟩

def stocked : Database Unit := ⟨onlyLink,⟨OrderedMap.empty.set 1 ⟨"film.mp4","video/mp4",100,0,1,"ready",7,none,false⟩,.empty⟩⟩

def visit (shareAccess : Option String) : Request := ⟨"token","10.0.0.1",shareAccess,none,"random"⟩

theorem film_unseen : Outsider plainServices onlyLink (.download 1 none none,visit (some "forged")) ∧
    (outcome (handle plainServices (visit (some "forged")) (.download 1 none none)) bare).1 = .error (forbidden "访问凭证已失效，请重新输入密码") ∧
    (outcome (handle plainServices (visit (some "forged")) (.download 1 none none)) stocked).1 =
      .error (forbidden "访问凭证已失效，请重新输入密码") := by
  have outsider : Outsider plainServices onlyLink (.download 1 none none,visit (some "forged")) := by
    intro link found
    obtain rfl : lockedLink = link := Option.some.inj ((show onlyLink.links.find "token" = some lockedLink by decide +kernel).symm.trans found)
    refine ⟨"hash",by decide,fun jwt held n _ => ?_⟩
    cases held
    rfl
  have refused : (outcome (handle plainServices (visit (some "forged")) (.download 1 none none)) bare).1 =
      .error (forbidden "访问凭证已失效，请重新输入密码") := by decide +kernel
  have same : bare.visible = stocked.visible := rfl
  exact ⟨outsider,refused,(target_unseen same outsider).1.symm.trans refused⟩

/-- Who knows the password sees the difference. -/
example : (outcome (handle plainServices (visit (some "opened")) (.download 1 none none)) bare).1 ≠
    (outcome (handle plainServices (visit (some "opened")) (.download 1 none none)) stocked).1 := by decide +kernel

end Tgtc.ShareSecrecy
