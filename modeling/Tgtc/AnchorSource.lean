import Mathlib
import Tgtc.MainChatAnchor

/-!
Which message an anchor stands for. A row keeps the message that it was planted from, and is reused for this message
only.
-/
namespace Tgtc.AnchorSource
open Runs Maps MainChatAnchor

structure Source where
  chatId : String
  messageId : String
deriving DecidableEq

def Source.named (source : Source) : Prop := source.chatId ≠ "" ∧ source.messageId ≠ ""

def inputSource (input : Input) : Source := ⟨input.sourceChatId,input.sourceMessageId⟩

def dataSource (data : Payload) : Source := ⟨data.sourceChatId,data.sourceMessageId⟩

/-- The anchor is the message itself, or has been forwarded from it. -/
def From (plants : List Plant) (source : Source) (anchor : Anchor) : Prop :=
  anchor = ⟨source.chatId,source.messageId⟩ ∨
    ∃ p ∈ plants, inputSource p.input = source ∧ anchor = ⟨p.input.mainChatId,p.messageId⟩

instance (plants : List Plant) (source : Source) (anchor : Anchor) : Decidable (From plants source anchor) := by
  unfold From
  infer_instance

def Owned (s : State) : Prop := ∀ (n : Nat) (c : Call) (anchor : Anchor) (planted : Bool), s.calls[n]? = some c →
  c.stage = .ended (.returned anchor planted) → From s.plants (inputSource c.input) anchor

def joins (s : State) (c : Call) (reply : Reply) : Option Nat :=
  if c.stage = .reading ∧ reply = .ok ∧ s.found .file c.input = none ∧ c.input.sourceChatId ≠ c.input.mainChatId then
    s.inflight.get c.process
  else none

/-- Calls join only such as plant the message of their own. -/
def Alike (s : State) : Label → Prop
  | .go n reply => ∀ c ∈ s.calls[n]?, ∀ leader ∈ joins s c reply, ∃ d ∈ s.calls[leader]?, inputSource d.input = inputSource c.input
  | _ => True

instance (s : State) (l : Label) : Decidable (Alike s l) := by
  induction l using Label.casesOn <;> unfold Alike <;> infer_instance

abbrev Reached : State → Prop := Reachable (step .file) Alike (.start none)

def Truthful (plants : List Plant) (data : Payload) : Prop := data.status = .ready →
  (dataSource data).named ∧ From plants (dataSource data) ⟨data.anchorChatId,data.anchorMessageId⟩

def Answers (plants : List Plant) (source : Source) : Result → Prop
  | .returned anchor _ => From plants source anchor
  | .threw _ => True

def StageOk (s : State) (c : Call) : Prop := match c.stage with
  | .ended result => Answers s.plants (inputSource c.input) result
  | .finding r | .updating r _ | .adding r | .refinding r =>
    (inputSource c.input).named ∧ Truthful s.plants r.payload ∧ Answers s.plants (inputSource c.input) r.result
  | .joined leader => (inputSource c.input).named ∧ ∃ d, s.calls[leader]? = some d ∧ inputSource d.input = inputSource c.input
  | _ => (inputSource c.input).named

structure Inv (s : State) : Prop where
  stages : ∀ (n : Nat) (c : Call), s.calls[n]? = some c → StageOk s c
  row : ∀ row, s.row = some row → Truthful s.plants row.data

section
variable {s t : State} {n : Nat} {c : Call} {plants more : List Plant} {source : Source}

variable {anchor : Anchor} {data : Payload} {input : Input}

theorem from_later (before : From plants source anchor) : From (plants ++ more) source anchor :=
  before.imp_right fun ⟨p,known,rest⟩ => ⟨p,List.mem_append_left more known,rest⟩

theorem truthful_later (before : Truthful plants data) : Truthful (plants ++ more) data :=
  fun ready => (before ready).imp_right from_later

theorem answers_later {result : Result} (before : Answers plants source result) : Answers (plants ++ more) source result := by
  cases result with
  | returned anchor planted => exact from_later before
  | threw failure => trivial

theorem stageOk_later (more : List Plant) (plants : t.plants = s.plants ++ more)
    (calls : ∀ (m : Nat) (d : Call), s.calls[m]? = some d → ∃ d', t.calls[m]? = some d' ∧ d'.input = d.input)
    (ok : StageOk s c) : StageOk t c := by
  obtain ⟨process,input,stage,reserved⟩ := c
  unfold StageOk at ok ⊢
  cases stage with
  | ended result =>
    rw [plants]
    exact answers_later ok
  | finding r | updating r id | adding r | refinding r =>
    rw [plants]
    exact ⟨ok.1,truthful_later ok.2.1,answers_later ok.2.2⟩
  | joined leader =>
    obtain ⟨named,d,known,same⟩ := ok
    obtain ⟨d',known',input'⟩ := calls leader d known
    exact ⟨named,d',known',by rw [input']; exact same⟩
  | _ => exact ok

theorem fingerprint_named (named : (inputSource input).named) (dataNamed : (dataSource data).named)
    (fits : isSourceFingerprintMatch .file input data = true) : inputSource input = dataSource data := by
  obtain ⟨chat,message⟩ := named
  obtain ⟨dataChat,dataMessage⟩ := dataNamed
  unfold inputSource at chat message
  unfold dataSource at dataChat dataMessage
  simp only [isSourceFingerprintMatch,chat,message,dataChat,dataMessage,ne_eq,not_true_eq_false,decide_false,Bool.false_or,
    Bool.and_eq_true,decide_eq_true_eq] at fits
  unfold inputSource dataSource
  rw [fits.1,fits.2]

theorem from_reusable (named : (inputSource input).named) (truthful : Truthful plants data)
    (found : reusable .file input data = some anchor) : From plants (inputSource input) anchor := by
  unfold reusable at found
  split at found
  · next fits =>
    obtain ⟨ready,chat,_,fingerprint⟩ := fits
    obtain ⟨dataNamed,origin⟩ := truthful ready
    cases found
    rw [fingerprint_named named dataNamed fingerprint,← chat]
    exact origin
  · cases found

theorem from_found (inv : Inv s) (named : (inputSource input).named)
    (found : s.found .file input = some anchor) : From s.plants (inputSource input) anchor := by
  obtain ⟨row,known,reused⟩ := Option.bind_eq_some_iff.mp found
  exact from_reusable named (inv.row row known) reused

theorem calls_stay {change : Call → Call} (there : s.calls[n]? = some c) (calls : t.calls = s.calls.modify n change)
    (same : (change c).input = c.input) (m : Nat) (d : Call) (known : s.calls[m]? = some d) :
    ∃ d', t.calls[m]? = some d' ∧ d'.input = d.input := by
  by_cases here : m = n
  · subst here
    cases there.symm.trans known
    exact ⟨_,at_change there calls,same⟩
  · exact ⟨d,(at_other calls here).trans known,rfl⟩

section
variable (inv : Inv s) (there : s.calls[n]? = some c)
include inv there

theorem inv_call (change : Call → Call) (calls : t.calls = s.calls.modify n change)
    (more : List Plant) (plants : t.plants = s.plants ++ more) (same : (change c).input = c.input)
    (stage : StageOk t (change c)) (row : ∀ r, t.row = some r → Truthful t.plants r.data) : Inv t := by
  refine ⟨fun m d found => ?_,row⟩
  rcases at_calls there calls found with ⟨rfl,rfl⟩ | ⟨_,known⟩
  · exact stage
  · exact stageOk_later more plants (calls_stay there calls same) (inv.stages m d known)

theorem inv_quiet (change : Call → Call) (calls : t.calls = s.calls.modify n change)
    (plants : t.plants = s.plants) (same : (change c).input = c.input) (stage : StageOk s (change c))
    (row : ∀ r, t.row = some r → s.row = some r ∨ Truthful s.plants r.data) : Inv t := by
  have grown : t.plants = s.plants ++ [] := by rw [plants,List.append_nil]
  refine inv_call inv there change calls [] grown same (stageOk_later [] grown (calls_stay there calls same) stage) fun r found => ?_
  rw [plants]
  rcases row r found with kept | written
  · exact inv.row r kept
  · exact written

theorem inv_goes {stage : Stage} (ok : StageOk s { c with stage }) :
    Inv (s.goes n stage) := inv_quiet inv there _ rfl rfl rfl ok fun _ => .inl

theorem inv_finish {result : Result} (ok : Answers s.plants (inputSource c.input) result) : Inv (s.finish n c result) :=
  inv_quiet inv there _ rfl rfl rfl ok fun _ => .inl

end

theorem truthful_reservation (input : Input) (since : Int) : Truthful plants (input.reservation since) := nofun

section
variable (inv : Inv s) (there : s.calls[n]? = some c)
include inv there

theorem inv_reserves (since : Int) (reply : Reply) {taken : Stage}
    (named : (inputSource c.input).named) (ok : StageOk s { c with stage := taken }) : Inv (s.reserves n c since reply taken) := by
  have reserved : ∀ r, some (Row.mk s.nextId (c.input.reservation since)) = some r → s.row = some r ∨ Truthful s.plants r.data := by
    rintro r ⟨⟩
    exact .inr (truthful_reservation c.input since)
  unfold State.reserves
  cases s.row with
  | some row =>
    dsimp only
    split
    · exact inv_goes inv there ok
    · exact inv_finish inv there trivial
  | none =>
    dsimp only
    split
    · split
      · exact inv_quiet inv there _ rfl rfl rfl named reserved
      · exact inv_quiet inv there (fun c => { c with stage := .ended (unavailable .blocked) }) rfl rfl rfl trivial reserved
    · exact inv_finish inv there trivial

theorem inv_record {r : Record} (calls : t.calls = s.calls) (plants : t.plants = s.plants)
    (answers : Answers s.plants (inputSource c.input) r.result) (truthful : Truthful s.plants r.payload)
    (row : ∀ r', t.row = some r' → s.row = some r' ∨ r'.data = r.payload) : Inv (t.finish n c r.result) := by
  refine inv_quiet inv there (fun c => { c with stage := .ended r.result }) ?_ plants rfl answers fun r' found => ?_
  · show t.calls.modify n _ = _
    rw [calls]
  · refine (row r' found).imp id fun written => ?_
    rw [written]
    exact truthful

theorem inv_advance (reply : Reply)
    (alike : ∀ leader ∈ joins s c reply, ∃ d ∈ s.calls[leader]?, inputSource d.input = inputSource c.input) :
    Inv (s.advance .file n c reply) := by
  have ok := inv.stages n c there
  unfold StageOk at ok
  unfold State.advance
  cases stage : c.stage with
  | reading =>
    rw [stage] at ok
    dsimp only
    split
    · exact inv_finish inv there trivial
    next answered =>
    cases found : s.found .file c.input with
    | some anchor => exact inv_finish inv there (from_found inv ok found)
    | none =>
      dsimp only
      split
      · next near =>
        have own : From s.plants (inputSource c.input) ⟨c.input.mainChatId,c.input.sourceMessageId⟩ := .inl (by rw [← near]; rfl)
        exact inv_goes inv there ⟨ok,fun _ => ⟨ok,own⟩,own⟩
      · next distant =>
        cases leading : s.inflight.get c.process with
        | some leader =>
          obtain ⟨d,known,same⟩ := alike leader (by
            unfold joins
            rw [if_pos ⟨stage,not_not.mp answered,found,distant⟩]
            exact leading)
          exact inv_goes inv there ⟨ok,d,known,same⟩
        | none => exact inv_quiet inv there _ rfl rfl rfl ok fun _ => .inl
  | joined leader =>
    rw [stage] at ok
    obtain ⟨_,d,known,same⟩ := ok
    dsimp only
    rw [known]
    dsimp only [Option.map_some]
    have theirs := inv.stages leader d known
    unfold StageOk at theirs
    cases at_stage : d.stage with
    | ended result =>
      rw [at_stage,same] at theirs
      exact inv_finish inv there theirs
    | _ => exact inv
  | rechecking =>
    rw [stage] at ok
    dsimp only
    split
    · exact inv_finish inv there trivial
    · cases found : s.found .file c.input with
      | some anchor => exact inv_finish inv there (from_found inv ok found)
      | none => exact inv_goes inv there ok
  | resolving | forwarding | ended _ => exact inv
  | inserting since | reinserting since =>
    rw [stage] at ok
    exact inv_reserves inv there since reply ok ok
  | requiring since =>
    rw [stage] at ok
    dsimp only
    split
    · exact inv_finish inv there trivial
    cases known : s.row with
    | none => exact inv_finish inv there trivial
    | some row =>
      dsimp only
      unfold verdict
      cases found : reusable .file c.input row.data with
      | some anchor => exact inv_finish inv there (from_reusable ok (inv.row row known) found)
      | none =>
        dsimp only
        split
        · next pending =>
          split at pending
          · cases pending
          · cases pending
        · exact inv_finish inv there trivial
        · exact inv_goes inv there ok
  | deleting since old =>
    rw [stage] at ok
    dsimp only
    have remains : ∀ r, (s.row.filter fun row => ¬ (row.id = old.id ∧ row.data.status = old.data.status)) = some r →
        s.row = some r ∨ Truthful s.plants r.data := fun r found => .inl (Option.filter_eq_some_iff.mp found).1
    by_cases applied : reply.applied = true
    · split
      · exact inv_quiet inv there _ rfl rfl rfl ok remains
      · exact inv_quiet inv there (fun c => { c with stage := .ended (unavailable .blocked) }) rfl rfl rfl trivial remains
    · split
      · exact inv_goes inv there ok
      · exact inv_finish inv there trivial
  | rereading =>
    rw [stage] at ok
    dsimp only
    split
    · exact inv_finish inv there trivial
    cases known : s.row with
    | none => exact inv_finish inv there trivial
    | some row =>
      dsimp only
      cases found : reusable .file c.input row.data with
      | some anchor => exact inv_finish inv there (from_reusable ok (inv.row row known) found)
      | none => exact inv_finish inv there trivial
  | finding r =>
    rw [stage] at ok
    dsimp only
    split
    · exact inv_finish inv there ok.2.2
    · cases s.row with
      | some row | none => exact inv_goes inv there ok
  | updating r id =>
    rw [stage] at ok
    dsimp only
    split
    · refine inv_record inv there rfl rfl ok.2.2 ok.2.1 fun r' found => ?_
      obtain ⟨row,known,written⟩ := Option.map_eq_some_iff.mp (show s.row.map _ = some r' from found)
      split at written
      · exact .inr (by rw [← written])
      · exact .inl (by rw [known,written])
    · exact inv_finish inv there ok.2.2
  | adding r =>
    rw [stage] at ok
    cases s.row with
    | some row =>
      dsimp only
      split
      · exact inv_goes inv there ok
      · exact inv_finish inv there ok.2.2
    | none =>
      dsimp only
      split
      · refine inv_record inv there rfl rfl ok.2.2 ok.2.1 fun r' found => .inr ?_
        cases found
        rfl
      · exact inv_finish inv there ok.2.2
  | refinding r =>
    rw [stage] at ok
    dsimp only
    split
    · exact inv_finish inv there ok.2.2
    · cases s.row with
      | some row => exact inv_goes inv there ok
      | none => exact inv_finish inv there ok.2.2

end

theorem inv_append (inv : Inv s) (d : Call) (ok : StageOk s d) : Inv { s with calls := s.calls ++ [d] } := by
  have later : ∀ e : Call, StageOk s e → StageOk { s with calls := s.calls ++ [d] } e := fun e =>
    stageOk_later [] (by simp) fun m d' known => ⟨d',by
      rw [List.getElem?_append_left (at_lt known)]
      exact known,rfl⟩
  refine ⟨fun m e found => ?_,inv.row⟩
  rcases at_of_append found with known | ⟨_,rfl⟩
  · exact later e (inv.stages m e known)
  · exact later e ok

theorem inv_forwarded (inv : Inv s) (there : s.calls[n]? = some c) (forwarding : c.stage = .forwarding) (outcome : Forwarded) :
    Inv (s.forwarded n c outcome) := by
  have named := inv.stages n c there
  unfold StageOk at named
  rw [forwarding] at named
  cases outcome with
  | message id =>
    have origin : From (s.plants ++ [⟨c.input,id.repr⟩]) (inputSource c.input) ⟨c.input.mainChatId,id.repr⟩ :=
      .inr ⟨_,List.mem_append_right _ (List.mem_singleton_self _),rfl,rfl⟩
    exact inv_call inv there _ rfl [⟨c.input,id.repr⟩] rfl rfl ⟨named,fun _ => ⟨named,origin⟩,origin⟩ fun r known =>
      truthful_later (inv.row r known)
  | failed failure => exact inv_goes inv there ⟨named,(nofun),trivial⟩

theorem inv_step (inv : Inv s) {l : Label} (alike : Alike s l) : Inv (step .file s l) := by
  unfold step
  cases l with
  | call process input =>
    refine inv_append inv _ ?_
    by_cases blank : input.sourceChatId = "" ∨ input.sourceMessageId = ""
    · rw [if_pos blank]
      trivial
    · rw [if_neg blank]
      exact not_or.mp blank
  | go n reply =>
    dsimp only
    cases there : s.calls[n]? with
    | none => exact inv
    | some c => exact inv_advance inv there reply (alike c there)
  | bot n failure =>
    dsimp only
    cases there : s.calls[n]? with
    | none => exact inv
    | some c =>
      dsimp only
      split
      · next resolving =>
        have named := inv.stages n c there
        unfold StageOk at named
        rw [resolving] at named
        cases failure with
        | some failure => exact inv_finish inv there trivial
        | none => exact inv_goes inv there named
      · exact inv
  | forward n outcome =>
    dsimp only
    cases there : s.calls[n]? with
    | none => exact inv
    | some c =>
      dsimp only
      split
      · next forwarding => exact inv_forwarded inv there forwarding outcome
      · exact inv
  | tick ms => exact ⟨inv.stages,inv.row⟩

end

theorem inv_start : Inv (.start none) := ⟨(nofun),(nofun)⟩

theorem anchors_owned {s : State} (reach : Reached s) : Owned s := by
  have inv : Inv s := reachable_invariant inv_start (fun _ _ inv alike => inv_step inv alike) reach
  intro n c anchor planted there ends
  have ok := inv.stages n c there
  unfold StageOk at ok
  rw [ends] at ok
  exact ok

def oldVersion : Input := ⟨"main","private","7"⟩
def newVersion : Input := ⟨"main","private","9"⟩

def reserving (process : Nat) (input : Input) (n : Nat) : List Label :=
  [.call process input,.go n .ok,.go n .ok,.bot n none,.go n .ok]

def replaced : List Label :=
  reserving 0 oldVersion 0 ++ [Label.forward 0 (.message 41),.go 0 .ok,.go 0 .ok] ++ reserving 0 newVersion 1 ++
    [Label.go 1 .ok,.go 1 .ok,.go 1 .ok,.forward 1 (.message 42),.go 1 .ok,.go 1 .ok]

theorem anchors_owned_replaced : Owned (replaced.foldl (step .file) (.start none)) ∧
    (replaced.foldl (step .file) (.start none)).calls.map Call.stage =
      [.ended (.returned ⟨"main","41"⟩ true),.ended (.returned ⟨"main","42"⟩ true)] :=
  ⟨anchors_owned (reachable_run .start replaced (by decide +kernel)),by decide +kernel⟩

def mixed : List Label :=
  reserving 0 oldVersion 0 ++ [Label.call 0 newVersion,.go 1 .ok,.forward 0 (.message 41),.go 0 .ok,.go 0 .ok,.go 1 .ok]

theorem another_version_returned : ¬ ∀ s : State, Reachable (step .file) (fun _ _ => True) (.start none) s → Owned s := by
  intro always
  have owned := always _ (reachable_run .start mixed (by decide +kernel)) 1
    ⟨0,newVersion,.ended (.returned ⟨"main","41"⟩ true),none⟩ ⟨"main","41"⟩ true (by decide +kernel) rfl
  revert owned
  decide +kernel

end Tgtc.AnchorSource
