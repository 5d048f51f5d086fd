import Mathlib.Data.List.Nodup
import Tgtc.BotDocuments

/-!
The links that documents are answered with. A message is known again by its sender, its chat and its number, and two
Bots may number different messages alike.
-/
namespace Tgtc.BotLinks
open BotDocuments Runs

/-- The link of every reply is that of a grant for the file of the message. -/
def Rightful (env : Env) (s : State) : Prop := ∀ h ∈ s.handlers, ∀ token ∈ h.link,
  ∃ grant ∈ findByToken env.crypto s.grants token, grant.telegramFileId = (h.message env).document.file_id

def SameMessage (h h' : Handler) : Prop := h.account = h'.account ∧ h.chatId = h'.chatId ∧ h.messageId = h'.messageId

/-- However often a Bot gets a message, the links are those of one grant. -/
def Idempotent (env : Env) (s : State) : Prop := ∀ h ∈ s.handlers, ∀ h' ∈ s.handlers, SameMessage h h' →
  ∀ token ∈ h.link, ∀ token' ∈ h'.link, findByToken env.crypto s.grants token = findByToken env.crypto s.grants token'

instance (h h' : Handler) : Decidable (SameMessage h h') := inferInstanceAs (Decidable (_ ∧ _))

instance (env : Env) (s : State) : Decidable (Rightful env s) := by
  unfold Rightful
  infer_instance

/-- A message for which a grant is found has come to the Bot of the grant. -/
def Own (env : Env) (s : State) : Label → Prop
  | .go i _ => ∀ h ∈ s.handlers[i]?, h.stage = .looking → ∀ existing ∈ findByMessage s.grants (h.key env),
      existing.sourceAccountId = h.account
  | _ => True

instance (env : Env) (s : State) (l : Label) : Decidable (Own env s l) := by
  cases l <;> unfold Own <;> infer_instance

def lasting (grant : Grant) : Grant := { grant with revokedAt := none }

structure Genuine (env : Env) (row : Grant) : Prop where
  file : row.telegramFileId = (env.messageOf row.sourceAccountId row.chatId row.messageId).document.file_id
  token : ∀ token ∈ replayToken env.crypto row, env.crypto.hashToken token = row.tokenHash

structure Filed (env : Env) (table : List Grant) : Prop where
  genuine : ∀ row ∈ table, Genuine env row
  keys : (table.map Grant.key).Nodup
  hashes : (table.map Grant.tokenHash).Nodup

def Owns (env : Env) (h : Handler) (row : Grant) : Prop := row.key = h.key env ∧ row.sourceAccountId = h.account

structure Answered (env : Env) (table : List Grant) (h : Handler) : Prop where
  replaying : ∀ existing, h.stage = .replaying existing → lasting existing ∈ table ∧ Owns env h (lasting existing)
  linked : ∀ token ∈ h.link, ∃ row ∈ table, row.tokenHash = env.crypto.hashToken token ∧ Owns env h row

section
variable {env : Env} {s s' : State} {table grants : List Grant} {grant row : Grant} {h : Handler} {stage : Stage}
  {key : String × String × String} {token : String} {i : Nat} {l : Label}

theorem findByMessage_some (found : findByMessage grants key = some grant) : grant ∈ grants ∧ grant.key = key :=
  ⟨List.mem_of_find?_eq_some found,by simpa using List.find?_some found⟩

theorem findByToken_some {crypto : TokenCrypto} (found : findByToken crypto grants token = some grant) :
    grant ∈ grants ∧ grant.tokenHash = crypto.hashToken token :=
  ⟨List.mem_of_find?_eq_some found,by simpa using List.find?_some found⟩

theorem insertGrant_some {grants' : List Grant} (saved : insertGrant grants grant = some grants') :
    grants' = grants ++ [grant] ∧ ∀ other ∈ grants, other.key ≠ grant.key ∧ other.tokenHash ≠ grant.tokenHash := by
  unfold insertGrant at saved
  split at saved
  · cases saved
  · next free =>
    cases saved
    refine ⟨rfl,fun other member => ?_⟩
    simp only [List.any_eq_true,Bool.or_eq_true,decide_eq_true_eq,not_exists,not_and,not_or] at free
    exact free other member

theorem lasting_new (unrevoked : row.revokedAt = none) : lasting row = row := by
  cases row
  cases unrevoked
  rfl

theorem newGrant_genuine (ttlHours now : Nat) : Genuine env (newGrant env h ttlHours now token) := by
  refine ⟨rfl,fun token' replayed => ?_⟩
  obtain ⟨cipher,encrypted,decrypted⟩ := Option.bind_eq_some_iff.mp replayed
  rw [env.crypto.faithful token cipher encrypted token' decrypted]
  rfl

theorem filed_add (filed : Filed env table) (genuine : Genuine env row)
    (apart : ∀ other ∈ table, other.key ≠ row.key ∧ other.tokenHash ≠ row.tokenHash) : Filed env (table ++ [row]) := by
  constructor
  · intro row' member
    rcases List.mem_append.mp member with old | new
    · exact filed.genuine row' old
    · rw [List.mem_singleton.mp new]
      exact genuine
  · rw [List.map_append,List.nodup_append]
    refine ⟨filed.keys,List.nodup_singleton _,fun x old y new => ?_⟩
    obtain ⟨other,member,rfl⟩ := List.mem_map.mp old
    rw [List.mem_singleton.mp new]
    exact (apart other member).1
  · rw [List.map_append,List.nodup_append]
    refine ⟨filed.hashes,List.nodup_singleton _,fun x old y new => ?_⟩
    obtain ⟨other,member,rfl⟩ := List.mem_map.mp old
    rw [List.mem_singleton.mp new]
    exact (apart other member).2

theorem answered_silent (silent : stage.Silent) : Answered env table { h with stage } := by
  constructor
  · intro existing replaying
    cases replaying
    exact silent.elim
  · intro token link
    cases stage with
    | answered reply =>
      replace link : reply.token = some token := link
      rw [show reply.token = none from silent] at link
      cases link
    | _ => cases link

theorem answered_more {new : List Grant} (answered : Answered env table h) : Answered env (table ++ new) h := by
  constructor
  · intro existing replaying
    obtain ⟨member,owns⟩ := answered.replaying existing replaying
    exact ⟨List.mem_append_left _ member,owns⟩
  · intro token link
    obtain ⟨row,member,same,owns⟩ := answered.linked token link
    exact ⟨row,List.mem_append_left _ member,same,owns⟩

theorem answered_replay (filed : Filed env table) {existing : Grant} {config : Config} {now : Nat} (member : lasting existing ∈ table)
    (owns : Owns env h (lasting existing)) : Answered env table { h with stage := .answered (replay env config now existing) } := by
  constructor
  · exact nofun
  · intro token link
    unfold replay at link
    split at link
    · next token' origin replayed _ =>
      split at link
      · cases link
        exact ⟨_,member,((filed.genuine _ member).token token replayed).symm,owns⟩
      · cases link
    · cases link

structure Sound (env : Env) (s : State) : Prop where
  filed : Filed env (s.grants.map lasting)
  answered : ∀ h ∈ s.handlers, Answered env (s.grants.map lasting) h

theorem sound_goes (sound : Sound env s) (answered : Answered env (s.grants.map lasting) { h with stage }) : Sound env (s.goes i h stage) := by
  refine ⟨sound.filed,fun h' member => ?_⟩
  rcases List.mem_or_eq_of_mem_set member with old | rfl
  · exact sound.answered h' old
  · exact answered

theorem sound_silent (sound : Sound env s) (i : Nat) (h : Handler) (stage : Stage) (silent : stage.Silent) : Sound env (s.goes i h stage) :=
  sound_goes sound (answered_silent silent)

theorem sound_start (config : Config) : Sound env (State.start config) where
  filed := ⟨nofun,List.nodup_nil,List.nodup_nil⟩
  answered := nofun

theorem sound_step (sound : Sound env s) (own : Own env s l) : Sound env (step env s l) := by
  have move := step_moves env s l
  generalize step env s l = s' at move ⊢
  cases move with
  | tick | configure | whitelist | stay => exact ⟨sound.filed,sound.answered⟩
  | @revoke key till =>
    have same : ∀ grant : Grant, lasting (if grant.key = key then { grant with revokedAt := till grant.revokedAt } else grant) =
        lasting grant := by
      intro grant
      split <;> rfl
    constructor
    · simpa only [List.map_map,Function.comp_def,same] using sound.filed
    · simpa only [List.map_map,Function.comp_def,same] using sound.answered
  | @deliver account chatId messageId =>
    refine ⟨sound.filed,fun h member => ?_⟩
    rcases List.mem_append.mp member with old | new
    · exact sound.answered h old
    · rw [List.mem_singleton.mp new]
      refine answered_silent (h := arrive env account chatId messageId) ?_
      split <;> trivial
  | @found i token h existing there looking found =>
    obtain ⟨member,key⟩ := findByMessage_some found
    refine sound_goes sound ⟨fun existing' replaying => ?_,nofun⟩
    cases replaying
    exact ⟨List.mem_map_of_mem member,key,own h there looking existing found⟩
  | replay there replaying =>
    obtain ⟨member,owns⟩ := (sound.answered _ (List.mem_of_getElem? there)).replaying _ replaying
    exact sound_goes sound (answered_replay sound.filed member owns)
  | @configured i token h origin date there configuring =>
    exact sound_silent sound i h (.judging ⟨origin,s.config,date⟩) trivial
  | @ensure i token h terms there ensuring =>
    obtain ⟨filed,answered⟩ := sound_silent sound i h (.charging terms) trivial
    exact ⟨filed,answered⟩
  | @charge i token h terms usage there charging charged =>
    obtain ⟨filed,answered⟩ := sound_silent sound i h (.metering terms true) trivial
    exact ⟨filed,answered⟩
  | @lose i h terms there metering => exact sound_silent sound i h .dropped trivial
  | @refund l i h terms there refunding =>
    obtain ⟨filed,answered⟩ := sound_silent sound i h (.answered .internalError) rfl
    exact ⟨filed,answered⟩
  | @pass l i h stage there silent held offered => exact sound_silent sound i h stage silent
  | @issue i token h terms quotaConsumed grants there issuing saved =>
    obtain ⟨rfl,apart⟩ := insertGrant_some saved
    have table : (s.grants ++ [newGrant env h terms.config.linkTtlHours s.now token]).map lasting =
        s.grants.map lasting ++ [newGrant env h terms.config.linkTtlHours s.now token] := by
      rw [List.map_append,List.map_singleton,lasting_new rfl]
    constructor
    · rw [table]
      refine filed_add sound.filed (newGrant_genuine _ _) fun other member => ?_
      obtain ⟨grant,old,rfl⟩ := List.mem_map.mp member
      exact apart grant old
    · intro h' member
      rw [table]
      rcases List.mem_or_eq_of_mem_set member with old | rfl
      · exact answered_more (sound.answered h' old)
      · refine ⟨fun existing replaying => (by cases replaying),fun token' link => ?_⟩
        cases link
        exact ⟨_,List.mem_append_right _ (List.mem_singleton.mpr rfl),rfl,rfl,rfl⟩

theorem findByToken_row (filed : Filed env (s.grants.map lasting)) (member : row ∈ s.grants.map lasting)
    (same : row.tokenHash = env.crypto.hashToken token) :
    ∃ grant ∈ findByToken env.crypto s.grants token, lasting grant = row := by
  obtain ⟨grant,there,rfl⟩ := List.mem_map.mp member
  cases found : findByToken env.crypto s.grants token with
  | none =>
    have other : grant.tokenHash ≠ env.crypto.hashToken token := by simpa using List.find?_eq_none.mp found grant there
    exact absurd same other
  | some grant' =>
    obtain ⟨there',same'⟩ := findByToken_some found
    refine ⟨grant',rfl,?_⟩
    exact List.inj_on_of_nodup_map filed.hashes (List.mem_map_of_mem there') (List.mem_map_of_mem there) (same'.trans same.symm)

theorem rightful_of_sound (sound : Sound env s) : Rightful env s := by
  intro h member token link
  obtain ⟨row,there,same,key,source⟩ := (sound.answered h member).linked token link
  obtain ⟨grant,found,rfl⟩ := findByToken_row sound.filed there same
  refine ⟨grant,found,?_⟩
  have chat : (lasting grant).chatId = h.chatId := congrArg (·.2.1) key
  have number : (lasting grant).messageId = h.messageId := congrArg (·.2.2) key
  have file := (sound.filed.genuine _ there).file
  rw [source,chat,number] at file
  exact file

theorem idempotent_of_sound (sound : Sound env s) : Idempotent env s := by
  intro h member h' member' ⟨account,chat,number⟩ token link token' link'
  obtain ⟨row,there,same,key,_⟩ := (sound.answered h member).linked token link
  obtain ⟨row',there',same',key',_⟩ := (sound.answered h' member').linked token' link'
  have keys : h.key env = h'.key env := by simp only [Handler.key,Handler.user,Handler.message,account,chat,number]
  have rows : row = row' := List.inj_on_of_nodup_map sound.filed.keys there there' ((key.trans keys).trans key'.symm)
  have hashes : env.crypto.hashToken token = env.crypto.hashToken token' := by rw [← same,← same',rows]
  simp only [findByToken,hashes]

/-- As long as no Bot finds the grant of another one, links are those of the files of their messages, and of one grant for each
message. -/
theorem links_rightful (config : Config) (reach : Reachable (step env) (Own env) (State.start config) s) :
    Rightful env s ∧ Idempotent env s := by
  have sound := reachable_invariant (sound_start config) (fun _ _ sound own => sound_step sound own) reach
  exact ⟨rightful_of_sound sound,idempotent_of_sound sound⟩

end

/-- Tokens as they are, one site, and two Bots that both have had a message of the user under the number 7. -/
def twoBots : Env where
  messageOf account _ _ := ⟨⟨"42",none,none⟩,⟨account ++ "-file",none,none,none,none⟩⟩
  crypto := ⟨id,some,some,fun _ _ encrypted _ decrypted => (Option.some.inj decrypted).symm.trans (Option.some.inj encrypted).symm⟩
  businessDate _ _ := "2025-01-01"
  isValidSiteOrigin _ := true
  normalizeOrigin := id
  APP_URL := "https://site"

def usual : Config := ⟨4,5,"Asia/Shanghai",false,""⟩

def handled (account : String) (i : Nat) (token : String) : List Label :=
  .deliver account "42" "7" :: List.replicate 9 (.go i token)

theorem links_rightful_redelivered :
    Rightful twoBots ((handled "100" 0 "a" ++ handled "100" 1 "b").foldl (step twoBots) (State.start usual)) ∧
    Idempotent twoBots ((handled "100" 0 "a" ++ handled "100" 1 "b").foldl (step twoBots) (State.start usual)) :=
  links_rightful usual (reachable_run .start (handled "100" 0 "a" ++ handled "100" 1 "b") (by decide +kernel))

/-- The second Bot replies the link of the file that the first one has got. -/
theorem numbered_alike : ¬ ∀ s, Reachable (step twoBots) (fun _ _ => True) (State.start usual) s → Rightful twoBots s := by
  intro always
  have legal : Legal (step twoBots) (fun _ _ => True) (State.start usual) (handled "100" 0 "a" ++ handled "200" 1 "b") := by
    decide +kernel
  exact absurd (always _ (reachable_run .start _ legal)) (by decide +kernel)

end Tgtc.BotLinks
