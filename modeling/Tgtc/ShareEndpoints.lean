import Mathlib
import Tgtc.IpBans
import Tgtc.Observations
import Tgtc.PasswordLock
import Tgtc.PreviewSessions
import Tgtc.ShareFolders

/-!
What anyone may ask of a link: what it is about, its thumbnails and whether it is cached, downloads and previews,
tickets for players, the contents of folders and the way to them, and to have a password verified.
-/
namespace Tgtc.ShareEndpoints
open Maps RateLimits ShareLinks ShareFolders Observations
open IpBans (BannedIP BAN_6H BAN_COUNT_LIMIT BAN_WINDOW PWD_WINDOW)
open PasswordLock (PRECHECK_WINDOW PRECHECK_MAX_ATTEMPTS PRECHECK_LOCK_DURATION TOKEN_FAIL_WINDOW TOKEN_FAIL_LOCK_THRESHOLD
  TOKEN_FAIL_LOCK_DURATION_MS MAX_SAFE_INTEGER)
open PreviewSessions (Session PREVIEW_SESSION_WINDOW_MS refusal)

structure LinkTable where
  rows : List ShareLink
  distinct : (rows.map (·.id)).Nodup

def LinkTable.row (t : LinkTable) (id : String) : Option ShareLink := t.rows.find? fun row => row.id = id

def LinkTable.find (t : LinkTable) (token : String) : Option ShareLink := t.rows.find? fun row => row.token = token && !row.isDeleted

def changeRow (id : String) (change : ShareLink → ShareLink) (row : ShareLink) : ShareLink :=
  if row.id = id then { change row with id := row.id } else row

def LinkTable.update (t : LinkTable) (id : String) (change : ShareLink → ShareLink) : LinkTable where
  rows := t.rows.map (changeRow id change)
  distinct := by
    have ids : (t.rows.map (changeRow id change)).map (·.id) = t.rows.map (·.id) := by
      rw [List.map_map]
      refine List.map_congr_left fun row _ => ?_
      simp only [Function.comp,changeRow]
      split <;> rfl
    rw [ids]
    exact t.distinct

structure Audit where
  action : String
  resourceId : String
  failure : Bool
  metadata : List (String × String)

/-- All but files and folders. What the file service works with besides, its caches and its logs, is `world`. -/
structure Visible (World : Type) where
  links : LinkTable
  sessions : OrderedMap (String × PreviewSessions.Key) Session
  rateLimits : OrderedMap String RateLimit
  bannedIps : OrderedMap String (BannedIP × String)
  config : String → Nat
  audits : List Audit
  setCookies : List (String × String)
  clock : Nat → Nat
  looks : Nat
  world : World

structure Database (World : Type) where
  visible : Visible World
  tables : Tables

abbrev Seen (World : Type) : Type → Type := Action (Visible World) HttpError

abbrev Task (World : Type) : Type → Type := Action (Database World) HttpError

section
variable {World : Type}

def seen {Result : Type} (m : Seen World Result) : Task World Result := zoom Database.visible (fun visible db => { db with visible }) m

def looked {Result : Type} (look : Tables → Except HttpError Result) : Task World Result := do
  match look (← get).tables with
  | .ok a => return a
  | .error e => throw e

structure AccessPayload where
  sid : Option String
  typ : Option String
  pv : Option String

structure Image where
  contentType : String
  content : List UInt8
deriving DecidableEq

structure FileStream where
  contentType : String
  filename : String
  size : Nat
  range : Option (Nat × Nat × Nat)
  accessLogId : Option String
  etag : Option String
  content : List UInt8
deriving DecidableEq

/-- Cryptography with the secrets that are configured, the order of names in the database, and the file service. -/
structure Services (World : Type) where
  /-- `jwt.verify`, at a time; nothing when it throws -/
  jwtVerify : Nat → String → Option AccessPayload
  jwtSign : Nat → AccessPayload → String
  hmac : String → String
  compare : String → String → Bool
  sha256 : String → String
  issueTicket : Nat → Nat → Nat → String → String
  before : String → String → Bool
  getExistingMediaThumbnailStream : Nat → Task World Image
  getExistingHdMediaThumbnailStream : Nat → Task World Image
  isFileCached : Nat → Task World Bool
  getShareDownloadStreamWithRange : Nat → String → String → Option String → Task World (Option FileStream)
  getSharePreviewStreamWithRange : Nat → String → String → Option String → Task World (Option FileStream)
  getStreamForShareDownload : Nat → String → String → Task World FileStream

def now : Seen World Nat := do
  let v ← get
  set { v with looks := v.looks + 1 }
  return v.clock v.looks

/-- `Number(await get(key, fallback)) || fallback` -/
def configured (key : String) (fallback : Nat) : Seen World Nat := do
  let v ← get
  return if v.config key = 0 then fallback else v.config key

def audit (entry : Audit) : Seen World Unit := modify fun v => { v with audits := v.audits ++ [entry] }

def setCookie (name value : String) : Seen World Unit := modify fun v => { v with setCookies := v.setCookies ++ [(name,value)] }

def truthy (text : Option String) : Option String := text.filter (· ≠ "")

def maskToken (token : String) : String := (token.take 4).toString

def tryCheck (key : String) (maxAttempts lockDurationMs windowMs : Nat) : Seen World (Option Bool) := do
  let asked ← now
  let time ← now
  let v ← get
  match checkAndIncrement asked time v.rateLimits key maxAttempts lockDurationMs windowMs with
  | none => return none
  | some (rateLimits,allowed) =>
    set { v with rateLimits }
    return some allowed

def check (key : String) (maxAttempts lockDurationMs windowMs : Nat) : Seen World Bool := do
  match ← tryCheck key maxAttempts lockDurationMs windowMs with
  | none => throw internalError
  | some allowed => return allowed

def count (key : String) (threshold windowMs : Nat) : Seen World (Nat × Bool) := do
  let asked ← now
  let time ← now
  let v ← get
  match incrementCounter asked time v.rateLimits key threshold windowMs with
  | none => throw internalError
  | some (rateLimits,counted) =>
    set { v with rateLimits }
    return counted

def forget (key : String) : Seen World Unit := modify fun v => { v with rateLimits := reset v.rateLimits key }

def assertLimit (key : String) (times : Nat) : Seen World Unit := do
  let limit ← configured "sec_share_rate_limit" 60
  let window ← configured "sec_share_rate_window" 60
  let lock ← configured "sec_share_rate_ban" 60
  if !(← check key (limit * times) (lock * 1000) (window * 1000)) then throw (tooManyRequests "访问过于频繁，请稍后再试")

def assertShareRateLimit (token ip : String) : Seen World Unit := assertLimit ("share:" ++ ip ++ ":" ++ token) 1

def assertSharePreviewRateLimit (token ip : String) : Seen World Unit := assertLimit ("share_preview:" ++ ip ++ ":" ++ token) 3

def findLink (token : String) (missing : HttpError) : Seen World ShareLink := do
  match (← get).links.find token with
  | none => throw missing
  | some link => return link

/-- `save`, of a row that is there. -/
def saveLink (link : ShareLink) : Seen World Unit :=
  modify fun v => { v with links := v.links.update link.id fun row => saved link row row }

def getShareLinkByToken (token : String) : Seen World ShareLink := findLink token (notFound "分享不存在或已被取消")

def assertUsable (link : ShareLink) (allowExistingPreview : Bool) : Seen World Unit := do
  match assertShareUsable (← now) link allowExistingPreview with
  | .ok _ => return
  | .error useless =>
    if let some mine := useless.saves then saveLink mine
    throw (notFound useless.text)

def updateWhere (id : String) (passes : ShareLink → Bool) (change : ShareLink → ShareLink) : Seen World Bool := do
  let v ← get
  match (v.links.row id).filter fun row => !row.isDeleted && passes row with
  | none => return false
  | some _ =>
    set { v with links := v.links.update id change }
    return true

def startClock (link : ShareLink) : Seen World Unit := do
  if link.unstarted then
    let time ← now
    if !(← updateWhere link.id (fun _ => true) (startExpiryClock time)) then throw (notFound "分享不存在或已被取消")

def exhaust (link : ShareLink) : Seen World Unit := do
  modify fun v => { v with links := v.links.update link.id fun row => { row with status := .exhausted } }
  throw (notFound "分享访问次数已耗尽")

def tryIncrementAccessCount (link : ShareLink) : Seen World Bool := do
  if link.maxAccessCount < 0 then
    let _ ← updateWhere link.id (fun _ => true) ShareLink.counted
    return true
  else updateWhere link.id (fun row => (row.currentAccessCount : Int) < row.maxAccessCount) ShareLink.counted

def consumeShareAccess (link : ShareLink) : Seen World Unit := do
  startClock link
  if !(← tryIncrementAccessCount link) then exhaust link

def consumePreviewAccess (link : ShareLink) (fileId : Nat) (visitorHash : String) : Seen World Bool := do
  let time ← now
  let v ← get
  match refusal time ((v.links.row link.id).filter fun row => !row.isDeleted) with
  | some text => throw (notFound text)
  | none =>
    let key := (link.id,(fileId,visitorHash))
    if (v.sessions.get key).any (Session.valid time) then return true
    else if ← updateWhere link.id ShareLink.admits ShareLink.counted then
      modify fun v => { v with sessions := v.sessions.set key ⟨true,time + PREVIEW_SESSION_WINDOW_MS⟩ }
      return true
    else return false

def consumeSharePreviewAccess (link : ShareLink) (fileId : Nat) (visitorHash : String) : Seen World Unit := do
  startClock link
  if !(← consumePreviewAccess link fileId visitorHash) then exhaust link

variable (services : Services World)

def verifyAccessJwt (time : Nat) (accessJwt shareId passwordHash : String) : Bool := match services.jwtVerify time accessJwt with
  | none => false
  | some payload => payload.typ = some "share-access" && payload.sid = some shareId && payload.pv = some (services.hmac passwordHash)

def hasAccess (link : ShareLink) (accessJwt : Option String) : Seen World Bool := do
  match truthy link.password with
  | none => return true
  | some hash => match truthy accessJwt with
    | none => return false
    | some jwt => return verifyAccessJwt services (← now) jwt link.id hash

def authorise (token : String) (accessJwt : Option String) (allowExistingPreview : Bool) : Seen World ShareLink := do
  let link ← findLink token (notFound "分享不存在")
  assertUsable link allowExistingPreview
  if (truthy link.password).isSome && (truthy accessJwt).isNone then throw (forbidden "此分享需要密码")
  if !(← hasAccess services link accessJwt) then throw (forbidden "访问凭证已失效，请重新输入密码")
  return link

def includes (text pattern : String) : Bool := decide (pattern.toList <:+: text.toList)

def checkPasswordAttemptAllowed (ip shareToken : String) : Seen World Bool := do
  let keys := ("share-password:token:" ++ shareToken) :: (if ip ≠ "" then ["share-password:ip:" ++ ip] else []) ++
    ["share-password:token-lock:" ++ shareToken]
  let results ← keys.mapM fun key => tryCheck key
    (if includes key "share-password:token-lock" then MAX_SAFE_INTEGER else PRECHECK_MAX_ATTEMPTS) PRECHECK_LOCK_DURATION PRECHECK_WINDOW
  if results.any Option.isNone then throw internalError
  return results.all (· == some true)

def isIPBanned (ip : String) : Seen World Bool := do
  let time ← now
  let v ← get
  return (v.bannedIps.get ip).any fun (ban,_) => ban.unbannedAt.isNone && (ban.isPermanent || ban.expiresAt.any (time < ·))

def recordFailedAttempt (ip : String) : Seen World Unit := do
  let pwdErrorLimit ← configured "sec_pwd_error_limit" 5
  let pwdBanDuration ← configured "sec_pwd_ban_duration" 5
  let (_,reached) ← count ("pwd:" ++ ip) pwdErrorLimit PWD_WINDOW
  if reached then
    let (bans,_) ← count ("ban:" ++ ip) BAN_COUNT_LIMIT BAN_WINDOW
    let time ← now
    let reason := "分享密码错误" ++ toString pwdErrorLimit ++ "次，1小时内第" ++ toString bans ++ "次触发封禁"
    let ban := if BAN_COUNT_LIMIT ≤ bans then (IpBans.banned (some (time + BAN_6H)),reason ++ "，升级为6小时")
      else (IpBans.banned (some (time + pwdBanDuration * 60 * 1000)),reason)
    modify fun v => { v with bannedIps := v.bannedIps.set ip ban }
    if BAN_COUNT_LIMIT ≤ bans then forget ("ban:" ++ ip)
    forget ("pwd:" ++ ip)

def recordTokenFailedAttempt (shareToken : String) : Seen World Unit := do
  let failKey := "share-password:token-fail:" ++ shareToken
  let (failures,_) ← count failKey 1 TOKEN_FAIL_WINDOW
  if TOKEN_FAIL_LOCK_THRESHOLD ≤ failures then
    let _ ← check ("share-password:token-lock:" ++ shareToken) 1 TOKEN_FAIL_LOCK_DURATION_MS TOKEN_FAIL_WINDOW
    forget failKey

/-- The end of `verifyPassword`: an access JWT for the right password, and a record of a wrong one. -/
def comparePassword (link : ShareLink) (token password ip : String) : Seen World String := do
  match truthy link.password with
  | none => throw (badRequest "此分享无需密码")
  | some hash =>
    if services.compare password hash then
      return services.jwtSign (← now) ⟨some link.id,some "share-access",some (services.hmac hash)⟩
    else
      if ip ≠ "" then recordFailedAttempt ip
      recordTokenFailedAttempt token
      audit ⟨"share_link_password_failed",link.id,true,[("ip",ip)]⟩
      throw (badRequest "无法验证分享密码")

def verifyPassword (token password ip : String) : Seen World String := do
  if !(← checkPasswordAttemptAllowed ip token) then throw (badRequest "无法验证分享密码，请稍后重试")
  let link ← findLink token (badRequest "无法验证分享密码")
  assertUsable link false
  if ip ≠ "" then
    if ← isIPBanned ip then throw (badRequest "无法验证分享密码，请稍后重试")
  comparePassword services link token password ip

inductive Response where
  | requiresPassword
  | fileInfo (info : FileInfo)
  | folderInfo (info : FolderInfo)
  | verified
  | thumbnail (image : Image) (cacheControl : String)
  | cacheStatus (cached : Bool)
  | stream (disposition : String) (stream : FileStream)
  | mediaTicket (ticket : String) (expiresIn : Nat)
  | contents (contents : Contents)
  | breadcrumb (breadcrumb : List (Nat × String))
deriving DecidableEq

def getSharePublicInfo (token : String) (accessJwt : Option String) : Task World Response := do
  let link ← seen (getShareLinkByToken token)
  seen (assertUsable link false)
  if !(← seen (hasAccess services link accessJwt)) then return .requiresPassword
  seen (audit ⟨"share_link_access",link.id,false,[("tokenPrefix",maskToken token)]⟩)
  match link.targetType with
  | .file => return .fileInfo (← looked (getFileInfoForShare · link))
  | .folder =>
    let info ← looked (getFolderInfoForShare services.before · link)
    seen (audit ⟨"share_link_access",link.id,false,[("browseFolderId",toString info.id),("totalFiles",toString info.contents.total)]⟩)
    return .folderInfo info

def getShareThumbnailStream (token : String) (fileId : Nat) (accessJwt : Option String) : Task World Image := do
  let link ← seen (authorise services token accessJwt false)
  looked (assertFileInShare · link fileId)
  services.getExistingMediaThumbnailStream fileId

def getShareHdThumbnailStream (token : String) (fileId : Nat) (accessJwt : Option String) : Task World Image := do
  let link ← seen (authorise services token accessJwt false)
  looked (assertFileInShare · link fileId)
  services.getExistingHdMediaThumbnailStream fileId

def getShareCacheStatus (token : String) (fileId : Nat) (accessJwt : Option String) : Task World Bool := do
  let link ← seen (authorise services token accessJwt false)
  looked (assertFileInShare · link fileId)
  services.isFileCached fileId

def getShareDownloadStream (token : String) (fileId : Nat) (accessJwt : Option String) (ip : String)
    (rangeHeader ifRange : Option String) : Task World FileStream := do
  let link ← seen (authorise services token accessJwt false)
  looked (assertFileInShare · link fileId)
  seen (consumeShareAccess link)
  seen (audit ⟨"share_link_download",link.id,false,[("tokenPrefix",maskToken token),("fileId",toString fileId),("ip",ip)]⟩)
  if let some rangeHeader := truthy rangeHeader then
    if let some stream ← services.getShareDownloadStreamWithRange fileId rangeHeader ip ifRange then return stream
  services.getStreamForShareDownload fileId ip link.token

def getSharePreviewStream (token : String) (fileId : Nat) (accessJwt : Option String) (ip : String) (rangeHeader : Option String)
    (visitorHash : String) (ifRange : Option String) : Task World FileStream := do
  let link ← seen (authorise services token accessJwt true)
  looked (assertFileInShare · link fileId)
  seen (audit ⟨"share_link_preview",link.id,false,[("tokenPrefix",maskToken token),("fileId",toString fileId),("ip",ip)]⟩)
  seen (consumeSharePreviewAccess link fileId visitorHash)
  if let some rangeHeader := truthy rangeHeader then
    if let some stream ← services.getSharePreviewStreamWithRange fileId rangeHeader ip ifRange then return stream
  services.getStreamForShareDownload fileId ip link.token

def getShareMediaTicketFile (token : String) (fileId : Nat) (accessJwt : Option String) : Task World Nat := do
  let link ← seen (getShareLinkByToken token)
  seen (assertUsable link false)
  if !(← seen (hasAccess services link accessJwt)) then throw (forbidden "访问凭证已失效，请重新输入密码")
  looked (assertFileInShare · link fileId)
  match (← get).tables.file fileId with
  | none => throw (notFound "文件不存在")
  | some file => return file.uploadVersion

structure Request where
  token : String
  ip : String
  shareAccess : Option String
  shareVisitor : Option String
  random : String

inductive Endpoint where
  | info
  | verify (password : String)
  | thumbnail (fileId : Nat)
  | hdThumbnail (fileId : Nat)
  | cacheStatus (fileId : Nat)
  | download (fileId : Nat) (rangeHeader ifRange : Option String)
  | mediaTicket (fileId : Nat)
  | preview (fileId : Nat) (rangeHeader ifRange : Option String)
  | contents (folderId : Nat) (page limit : Option Int)
  | breadcrumb (folderId : Nat)

def getOrCreateVisitorHash (request : Request) : Seen World String := do
  match request.shareVisitor.filter fun visitor => 32 ≤ visitor.length with
  | some visitor => return services.sha256 ("share-visitor:" ++ visitor)
  | none =>
    setCookie "share_visitor" request.random
    return services.sha256 ("share-visitor:" ++ request.random)

def cacheControl (accessJwt : Option String) : String := if (truthy accessJwt).isSome then "private, max-age=300" else "public, max-age=300"

/-- What `handleError` tells a client. -/
def handleError (fallbackMessage : String) (error : HttpError) : HttpError :=
  if 500 ≤ error.status then { error with message := fallbackMessage } else error

def browse (request : Request) (show_ : ShareLink → Task World Response) : Task World Response := do
  seen (assertShareRateLimit request.token request.ip)
  let link ← seen (getShareLinkByToken request.token)
  seen (assertUsable link false)
  if !(← seen (hasAccess services link request.shareAccess)) then return .requiresPassword
  show_ link

def handle (request : Request) : Endpoint → Task World Response
  | .info => do
    seen (assertShareRateLimit request.token request.ip)
    getSharePublicInfo services request.token request.shareAccess
  | .verify password => seen do
    let accessJwt ← verifyPassword services request.token password request.ip
    setCookie "share_access" accessJwt
    return .verified
  | .thumbnail fileId => do
    seen (assertShareRateLimit request.token request.ip)
    return .thumbnail (← getShareThumbnailStream services request.token fileId request.shareAccess) (cacheControl request.shareAccess)
  | .hdThumbnail fileId => do
    seen (assertShareRateLimit request.token request.ip)
    return .thumbnail (← getShareHdThumbnailStream services request.token fileId request.shareAccess) (cacheControl request.shareAccess)
  | .cacheStatus fileId => do
    seen (assertShareRateLimit request.token request.ip)
    return .cacheStatus (← getShareCacheStatus services request.token fileId request.shareAccess)
  | .download fileId rangeHeader ifRange => do
    seen (assertShareRateLimit request.token request.ip)
    return .stream "attachment"
      (← getShareDownloadStream services request.token fileId request.shareAccess request.ip rangeHeader ifRange)
  | .mediaTicket fileId => do
    seen (assertSharePreviewRateLimit request.token request.ip)
    let uploadVersion ← getShareMediaTicketFile services request.token fileId request.shareAccess
    let link ← seen (getShareLinkByToken request.token)
    return .mediaTicket (services.issueTicket (← seen now) fileId uploadVersion link.id) 300
  | .preview fileId rangeHeader ifRange => ExceptT.adapt (handleError "预览失败") do
    seen (assertSharePreviewRateLimit request.token request.ip)
    let visitorHash ← seen (getOrCreateVisitorHash services request)
    return .stream "inline"
      (← getSharePreviewStream services request.token fileId request.shareAccess request.ip rangeHeader visitorHash ifRange)
  | .contents folderId page limit => browse services request fun link => do
    looked (assertFolderInShare · link folderId)
    seen (consumeShareAccess link)
    let contents ← looked (listFolderContentsForShare services.before · link folderId page limit)
    seen (audit ⟨"share_link_access",link.id,false,[("browseFolderId",toString folderId),("totalFiles",toString contents.total)]⟩)
    return .contents contents
  | .breadcrumb folderId => browse services request fun link =>
    return .breadcrumb (← looked (getFolderBreadcrumbForShare · link folderId))

end
end Tgtc.ShareEndpoints
