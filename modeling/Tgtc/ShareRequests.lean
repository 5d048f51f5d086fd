import Mathlib
import Tgtc.Maps
import Tgtc.PreviewSessions
import Tgtc.RowLocks
import Tgtc.Runs
import Tgtc.ShareLinks

/-!
One shared link and all that is asked of it: downloads and folders, previews with a cookie or with a ticket, what is
shown without being counted, passwords, and the changes of the owner. Every statement is a step.
-/
namespace Tgtc.ShareRequests
open Runs Maps RowLocks ShareLinks
open PreviewSessions (Key Session Phase Answer turn turn_committed turn_moved turn_holding holding_holds)

def DEFAULT_TTL_SECONDS : Nat := 5 * 60

inductive Purpose where
  | consume (cookie : Option Nat)
  | preview (key : Key) (cookie : Option Nat)
  | previewTicket (key : Key) (ticket : Nat)
  /-- what is shown without being counted: the file or the folder that is shared, thumbnails, the state of the cache -/
  | peek (cookie : Option Nat)
  | issueTicket (cookie : Option Nat)
  | verifyPassword (correct : String → Bool)

inductive Change where
  | update (dto : UpdateShareDto)
  | cancel
deriving DecidableEq

inductive Stage where
  | reading (purpose : Purpose)
  | inShare (link : ShareLink) (purpose : Purpose)
  | startingClock (link : ShareLink) (purpose : Purpose)
  | incrementing (link : ShareLink) (cookie : Option Nat)
  | exhausting
  | previewing (phase : Phase) (key : Key) (purpose : Purpose)
  | ticketing
  | comparing (hash : String) (correct : Bool)
  | readingOwn (change : Change)
  | changing (link : ShareLink) (change : Change)
  | saving (mine : ShareLink) (change : Option Change)
  | updating (mine found : ShareLink) (change : Option Change)
  | closed

structure Since where
  cancelled : Bool
  /-- the cookies and the tickets that had been issued when the present password was set, if there is one -/
  password : Option (Nat × Nat)
  opened : Nat

structure Request where
  came : Nat
  since : Since
  stage : Stage

structure AccessJwt where
  pv : String
  exp : Nat

inductive Credential where
  | cookie (i : Nat)
  | ticket (i : Nat)

structure Grant where
  came : Nat
  since : Since
  credential : Option Credential
  opened : Nat
  consumed : Bool

structure State where
  link : Record ShareLink
  sessions : OrderedMap Key Session
  requests : List Request
  issued : List AccessJwt
  tickets : List Nat
  hashes : List String
  since : Since
  grants : List Grant
  now : Nat

def State.start (link : ShareLink) : State :=
  ⟨⟨some link,none⟩,.empty,[],[],[],link.password.toList,⟨false,link.password.map fun _ => (0,0),0⟩,[],0⟩

inductive Event where
  | granted (credential : Option Credential) (consumed : Bool)
  | issued (pv : String)
  | ticketed
  | changed (change : Change)

structure Outcome where
  link : Record ShareLink
  next : Stage
  event : Option Event

def State.row (s : State) : Option ShareLink := s.link.committed.filter fun row => !row.isDeleted

/-- `verifyAccessJwt`, with the version of a password for the hash it is made of. -/
def State.opens (s : State) (link : ShareLink) (cookie : Option Nat) : Bool := match link.password with
  | none => true
  | some hash => cookie.any fun i => (s.issued[i]?).any fun jwt => jwt.pv = hash && s.now / 1000 < jwt.exp

def Purpose.isPreview : Purpose → Bool
  | .preview _ _ | .previewTicket _ _ => true
  | _ => false

def State.admitted (s : State) (link : ShareLink) (purpose : Purpose) : Stage := match purpose with
  | .consume cookie | .preview _ cookie | .peek cookie | .issueTicket cookie =>
    if s.opens link cookie then .inShare link purpose else .closed
  | .previewTicket _ _ => .inShare link purpose
  | .verifyPassword correct => match link.password with
    | none => .closed
    | some hash => .comparing hash (correct hash)

def State.expired (s : State) : Purpose → Bool
  | .previewTicket _ i => !(s.tickets[i]?).any fun issued => s.now / 1000 < issued / 1000 + DEFAULT_TTL_SECONDS
  | _ => false

def State.read (s : State) (purpose : Purpose) : Stage :=
  if s.expired purpose then .closed
  else match s.row with
    | none => .closed
    | some link => match assertShareUsable s.now link purpose.isPreview with
      | .ok _ => s.admitted link purpose
      | .error useless => match useless.saves with
        | some mine => .saving mine none
        | none => .closed

def counting (link : ShareLink) : Purpose → Stage
  | .consume cookie => .incrementing link cookie
  | .preview key cookie => .previewing .locking key (.preview key cookie)
  | .previewTicket key i => .previewing .locking key (.previewTicket key i)
  | _ => .closed

def Purpose.credential : Purpose → Option Credential
  | .consume cookie | .preview _ cookie | .peek cookie | .issueTicket cookie => cookie.map .cookie
  | .previewTicket _ i => some (.ticket i)
  | .verifyPassword _ => none

def State.write (s : State) (n : Nat) (stage : Stage) (row : ShareLink) (next : Stage) (event : Option Event) : Outcome :=
  if s.link.blocked n then ⟨s.link,stage,none⟩ else ⟨s.link.put (some row),next,event⟩

def changed (now : Nat) (link : ShareLink) : Change → ShareLink
  | .update dto => updateShare now dto link
  | .cancel => cancelShare link

def State.advance (s : State) (n : Nat) (stage : Stage) : Outcome := match stage with
  | .reading purpose => ⟨s.link,s.read purpose,none⟩
  | .inShare link purpose => match purpose with
    | .peek cookie => ⟨s.link,.closed,some (.granted (cookie.map .cookie) false)⟩
    | .issueTicket _ => ⟨s.link,.ticketing,none⟩
    | _ => ⟨s.link,if link.unstarted then .startingClock link purpose else counting link purpose,none⟩
  | .startingClock link purpose => match s.row with
    | none => ⟨s.link,.closed,none⟩
    | some row => s.write n stage (startExpiryClock s.now row) (counting link purpose) none
  | .incrementing link cookie =>
    let granted : Option Event := some (.granted (cookie.map .cookie) true)
    if link.maxAccessCount < 0 then match s.row with
      | none => ⟨s.link,.closed,granted⟩
      | some row => s.write n stage row.counted .closed granted
    else match s.row.filter fun row => (row.currentAccessCount : Int) < row.maxAccessCount with
      | none => ⟨s.link,.exhausting,none⟩
      | some row => s.write n stage row.counted .closed granted
  | .exhausting => match s.link.committed with
    | none => ⟨s.link,.closed,none⟩
    | some row => s.write n stage { row with status := .exhausted } .closed none
  | .previewing phase key purpose =>
    let t := turn s.now s.link s.sessions n key phase
    match t.next with
    | .inl phase' => ⟨t.link,.previewing phase' key purpose,none⟩
    | .inr (_,.consumed) => ⟨t.link,.closed,some (.granted purpose.credential true)⟩
    | .inr (_,.idempotent) => ⟨t.link,.closed,some (.granted purpose.credential false)⟩
    | .inr (_,.exhausted) => ⟨t.link,.exhausting,none⟩
    | .inr _ => ⟨t.link,.closed,none⟩
  | .ticketing => match s.row with
    | none => ⟨s.link,.closed,none⟩
    | some _ => ⟨s.link,.closed,some .ticketed⟩
  | .comparing hash correct => ⟨s.link,.closed,if correct then some (.issued hash) else none⟩
  | .readingOwn change => match s.row with
    | none => ⟨s.link,.closed,none⟩
    | some link => ⟨s.link,.changing link change,none⟩
  | .changing link change => ⟨s.link,.saving (changed s.now link change) (some change),none⟩
  | .saving mine change => match s.link.committed with
    | none => ⟨s.link,.closed,none⟩
    | some found => ⟨s.link,.updating mine found change,none⟩
  | .updating mine found change => match s.link.committed with
    | none => ⟨s.link,.closed,none⟩
    | some row => s.write n stage (saved mine found row) .closed (change.map .changed)
  | .closed => ⟨s.link,.closed,none⟩

def Since.after (since : Since) (issued : Nat × Nat) : Change → Since
  | .cancel => { since with cancelled := true }
  | .update dto => match dto.password with
    | none => since
    | some none => { since with password := none, opened := since.opened + 1 }
    | some (some _) => { since with password := some issued }

def State.record (s : State) (r : Request) : Option Event → State
  | none => s
  | some (.granted credential consumed) => { s with grants := s.grants ++ [⟨r.came,r.since,credential,s.since.opened,consumed⟩] }
  | some (.issued pv) => { s with issued := s.issued ++ [⟨pv,s.now / 1000 + 300⟩] }
  | some .ticketed => { s with tickets := s.tickets ++ [s.now] }
  | some (.changed change) => { s with since := s.since.after (s.issued.length,s.tickets.length) change }

def State.sessionsAfter (s : State) (n : Nat) : Stage → OrderedMap Key Session
  | .previewing phase key _ => (turn s.now s.link s.sessions n key phase).sessions
  | _ => s.sessions

def State.run (s : State) (n : Nat) (r : Request) : State :=
  let o := s.advance n r.stage
  { s.record r o.event with
    link := o.link, sessions := s.sessionsAfter n r.stage, requests := s.requests.set n { r with stage := o.next } }

inductive Label where
  | tick (ms : Nat)
  | ask (purpose : Purpose)
  | change (change : Change)
  | run (n : Nat)
  | fail (n : Nat)
  | prune (keys : List Key)

def Change.hash : Change → Option String
  | .update dto => dto.password.join
  | .cancel => none

local instance lawful_key : LawfulBEq Key := Prod.instLawfulBEq

def step (s : State) : Label → State
  | .tick ms => { s with now := s.now + ms }
  | .ask purpose => { s with requests := s.requests ++ [⟨s.now,s.since,.reading purpose⟩] }
  | .change change => { s with requests := s.requests ++ [⟨s.now,s.since,.readingOwn change⟩], hashes := s.hashes ++ change.hash.toList }
  | .run n => match s.requests[n]? with
    | some r => s.run n r
    | none => s
  | .fail n => match s.requests[n]? with
    | some r => { s with link := s.link.rollback n, requests := s.requests.set n { r with stage := .closed } }
    | none => s
  | .prune keys => { s with sessions := s.sessions.filter fun e => !(e.1 ∈ keys && e.2.expiresAt < s.now) }

section
variable {s : State} {link row : ShareLink} {n m : Nat} {stage : Stage} {r : Request}

def Stage.Holding (link : Record ShareLink) (n : Nat) : Stage → Prop
  | .previewing phase _ _ => phase.Holding link n
  | _ => True

inductive Effect (s : State) : Stage → ShareLink → ShareLink → Option Event → Prop
  | reads (stage : Stage) (row : ShareLink) : Effect s stage row row none
  | peeks (link : ShareLink) (cookie : Option Nat) (row : ShareLink) :
      Effect s (.inShare link (.peek cookie)) row row (some (.granted (cookie.map .cookie) false))
  | startsClock (link : ShareLink) (purpose : Purpose) (row : ShareLink) :
      Effect s (.startingClock link purpose) row (startExpiryClock s.now row) none
  | passes (link : ShareLink) (cookie : Option Nat) (row : ShareLink) (unlimited : link.maxAccessCount < 0) :
      Effect s (.incrementing link cookie) row row (some (.granted (cookie.map .cookie) true))
  | counts (link : ShareLink) (cookie : Option Nat) (row : ShareLink)
      (below : link.maxAccessCount < 0 ∨ (row.currentAccessCount : Int) < row.maxAccessCount) :
      Effect s (.incrementing link cookie) row row.counted (some (.granted (cookie.map .cookie) true))
  | exhausts (row : ShareLink) : Effect s .exhausting row { row with status := .exhausted } none
  | charges (phase : Phase) (key : Key) (purpose : Purpose) (row : ShareLink) (admits : row.admits = true) :
      Effect s (.previewing phase key purpose) row row.counted (some (.granted purpose.credential true))
  | repeats (phase : Phase) (key : Key) (purpose : Purpose) (row : ShareLink) :
      Effect s (.previewing phase key purpose) row row (some (.granted purpose.credential false))
  | tickets (row : ShareLink) : Effect s .ticketing row row (some .ticketed)
  | issues (hash : String) (correct : Bool) (row : ShareLink) : Effect s (.comparing hash correct) row row (some (.issued hash))
  | saves (mine found : ShareLink) (change : Option Change) (row : ShareLink) :
      Effect s (.updating mine found change) row (saved mine found row) (change.map .changed)

theorem row_eq (there : s.link.committed = some row) (found : s.row = some link) : row = link ∧ row.isDeleted = false := by
  simp only [State.row,there,Option.filter_eq_some_iff,Option.some.injEq,Bool.not_eq_true'] at found
  obtain ⟨rfl,kept⟩ := found
  exact ⟨rfl,kept⟩

variable {event : Option Event} {l : Record ShareLink}

theorem write_effect {after : ShareLink} {next : Stage} (there : s.link.committed = some row)
    (effect : Effect s stage row after event) : ∃ row', (s.write n stage after next event).link.committed = some row' ∧
      Effect s stage row row' (s.write n stage after next event).event := by
  by_cases blocked : s.link.blocked n = true
  · exact ⟨row,by simpa [State.write,blocked] using there,by simpa [State.write,blocked] using .reads stage row⟩
  · exact ⟨after,by simp [State.write,blocked,Record.put],by simpa [State.write,blocked] using effect⟩

theorem advance_effect (there : s.link.committed = some row) (holding : stage.Holding s.link n) :
    ∃ row', (s.advance n stage).link.committed = some row' ∧ Effect s stage row row' (s.advance n stage).event := by
  have reads : ∃ row', s.link.committed = some row' ∧ Effect s stage row row' none := ⟨row,there,.reads stage row⟩
  cases stage with
  | inShare link purpose =>
    cases purpose with
    | peek cookie => exact ⟨row,there,.peeks link cookie row⟩
    | _ => exact reads
  | startingClock link purpose =>
    unfold State.advance
    dsimp only
    split
    · exact reads
    · next found =>
      obtain ⟨rfl,_⟩ := row_eq there found
      exact write_effect there (.startsClock link purpose _)
  | incrementing link cookie =>
    unfold State.advance
    dsimp only
    split
    · next unlimited =>
      split
      · exact ⟨row,there,.passes link cookie row unlimited⟩
      · next found =>
        obtain ⟨rfl,_⟩ := row_eq there found
        exact write_effect there (.counts link cookie _ (.inl unlimited))
    · split
      · exact reads
      · next found =>
        obtain ⟨found,below⟩ := Option.filter_eq_some_iff.mp found
        obtain ⟨rfl,_⟩ := row_eq there found
        exact write_effect there (.counts link cookie _ (.inr (by simpa using below)))
  | exhausting =>
    simp only [State.advance,there]
    exact write_effect there (.exhausts row)
  | previewing phase key purpose =>
    rcases turn_committed s.now s.sessions key there holding with ⟨time,admits,goes,counted⟩ | ⟨uncharged,same⟩
    · refine ⟨row.counted,?_,?_⟩
      · simpa [State.advance,goes] using counted
      · simpa [State.advance,goes] using .charges phase key purpose row admits
    · refine ⟨row,?_,?_⟩
      · rw [← same]
        unfold State.advance
        dsimp only
        split <;> rfl
      · unfold State.advance
        dsimp only
        split
        · exact .reads _ row
        · next goes => exact absurd goes (uncharged _)
        · exact .repeats phase key purpose row
        · exact .reads _ row
        · exact .reads _ row
  | ticketing =>
    unfold State.advance
    dsimp only
    split
    · exact reads
    · exact ⟨row,there,.tickets row⟩
  | comparing hash correct =>
    cases correct with
    | true => exact ⟨row,there,.issues hash true row⟩
    | false => exact reads
  | readingOwn change =>
    unfold State.advance
    dsimp only
    split <;> exact reads
  | saving mine change =>
    simp only [State.advance,there]
    exact ⟨row,rfl,.reads _ row⟩
  | updating mine found change =>
    simp only [State.advance,there]
    exact write_effect there (.saves mine found change row)
  | _ => exact reads

theorem write_held {next : Stage} (held : s.link.Holds m) (other : n ≠ m) :
    s.write n stage row next event = ⟨s.link,stage,none⟩ := if_pos (blocked_of_holds held other)

theorem advance_held (holding : stage.Holding s.link n) (held : s.link.Holds m) (other : n ≠ m) :
    (s.advance n stage).link = s.link := by
  unfold State.advance
  cases stage with
  | inShare link purpose => cases purpose <;> rfl
  | startingClock link purpose => dsimp only; split <;> simp [write_held held other]
  | incrementing link cookie => dsimp only; split <;> split <;> simp [write_held held other]
  | exhausting => dsimp only; split <;> simp [write_held held other]
  | previewing phase key purpose =>
    have same : (turn s.now s.link s.sessions n key phase).link = s.link := moved_other (turn_moved holding) held other
    dsimp only
    split <;> exact same
  | ticketing | readingOwn change | saving mine change => dsimp only; split <;> rfl
  | updating mine found change => dsimp only; split <;> simp [write_held held other]
  | _ => rfl

theorem advance_others {stage' : Stage} (holding : stage.Holding s.link n) (other : n ≠ m) (theirs : stage'.Holding s.link m) :
    stage'.Holding (s.advance n stage).link m := by
  cases stage' with
  | previewing phase key purpose =>
    rcases holding_holds theirs with rfl | held
    · trivial
    · rw [advance_held holding held other]
      exact theirs
  | _ => trivial

theorem holding_counting {purpose : Purpose} : (counting link purpose).Holding l n := by
  cases purpose <;> trivial

theorem holding_write {next : Stage} (before : stage.Holding l n) (after : next.Holding l n) :
    (s.write n stage row next event).next.Holding l n := by
  unfold State.write
  split
  · exact before
  · exact after

theorem holding_read {purpose : Purpose} : (s.read purpose).Holding l n := by
  unfold State.read
  split
  · trivial
  split
  · trivial
  · split
    · unfold State.admitted
      split <;> first | trivial | (split <;> trivial)
    · split <;> trivial

theorem advance_holding (holding : stage.Holding s.link n) : (s.advance n stage).next.Holding (s.advance n stage).link n := by
  cases stage with
  | reading purpose => exact holding_read
  | inShare link purpose =>
    cases purpose with
    | peek cookie | issueTicket cookie => trivial
    | _ => unfold State.advance; dsimp only; split <;> trivial
  | startingClock link purpose =>
    unfold State.advance
    dsimp only
    split
    · trivial
    · exact holding_write trivial holding_counting
  | previewing phase key purpose =>
    unfold State.advance
    dsimp only
    split
    · next goes => exact turn_holding holding goes
    all_goals trivial
  | incrementing link cookie => unfold State.advance; dsimp only; split <;> split <;> first | trivial | exact holding_write trivial trivial
  | exhausting => unfold State.advance; dsimp only; split <;> first | trivial | exact holding_write trivial trivial
  | updating mine found change => unfold State.advance; dsimp only; split <;> first | trivial | exact holding_write trivial trivial
  | ticketing | readingOwn change | saving mine change => unfold State.advance; dsimp only; split <;> trivial
  | _ => trivial

structure Locked (s : State) : Prop where
  there : ∃ row, s.link.committed = some row
  holding : ∀ (n : Nat) (r : Request), s.requests[n]? = some r → r.stage.Holding s.link n

theorem locked_start : Locked (.start link) := ⟨⟨link,rfl⟩,fun _ _ found => nomatch found⟩

theorem locked_run (locked : Locked s) (found : s.requests[n]? = some r) : Locked (s.run n r) := by
  obtain ⟨row,there⟩ := locked.there
  have holding := locked.holding n r found
  obtain ⟨after,stays,_⟩ := advance_effect there holding
  refine ⟨⟨after,stays⟩,fun m r' found' => ?_⟩
  rcases at_of_set found' with ⟨rfl,rfl⟩ | ⟨other,before⟩
  · exact advance_holding holding
  · exact advance_others holding (Ne.symm other) (locked.holding m r' before)

theorem locked_step (locked : Locked s) (l : Label) : Locked (step s l) := by
  have appended : ∀ new : Request, new.stage.Holding s.link s.requests.length →
      ∀ (n : Nat) (r : Request), (s.requests ++ [new])[n]? = some r → r.stage.Holding s.link n := by
    intro new holding n r found
    rcases at_of_append found with before | ⟨rfl,rfl⟩
    · exact locked.holding n r before
    · exact holding
  cases l with
  | ask purpose | change change => exact ⟨locked.there,appended _ trivial⟩
  | run n =>
    unfold step
    dsimp only
    split
    · next found => exact locked_run locked found
    · exact locked
  | fail n =>
    unfold step
    dsimp only
    split
    · next r found =>
      refine ⟨by simpa using locked.there,fun m r' found' => ?_⟩
      rcases at_of_set found' with ⟨rfl,rfl⟩ | ⟨other,before⟩
      · trivial
      have theirs := locked.holding m r' before
      obtain ⟨came,since,stage⟩ := r'
      cases stage with
      | previewing phase key purpose =>
        rcases holding_holds theirs with rfl | held
        · trivial
        · have same : s.link.rollback n = s.link := rollback_other held (Ne.symm other)
          exact same.symm ▸ theirs
      | _ => trivial
    · exact locked
  | _ => exact ⟨locked.there,locked.holding⟩

end
end Tgtc.ShareRequests
