import Mathlib
import Tgtc.Runs
import Tgtc.ShareRequests

/-!
What a cancelled link, or a new password, puts an end to. A cookie is bound to the hash of the password; a ticket is
not, and lets its bearer in until it is over.
-/
namespace Tgtc.ShareRevocation
open Runs Maps RowLocks ShareLinks ShareRequests

/-- The hash that a change brings has not been there before. -/
def Fresh (s : State) : Label → Prop
  | .change change => ∀ hash ∈ change.hash, hash ∉ s.hashes
  | _ => True

def Change.setsPassword : Change → Bool
  | .update dto => dto.password.isSome
  | .cancel => false

/-- Whether the link is cancelled, and its password, are written by their changes only. -/
def Stage.Faithful : Stage → Prop
  | .updating mine found change => (mine.isDeleted = found.isDeleted ∨ change = some .cancel) ∧
    (mine.password = found.password ∨ change.any Change.setsPassword = true)
  | _ => True

def Faithful (s : State) : Label → Prop
  | .run n => s.link.blocked n = true ∨ ∀ r ∈ s.requests[n]?, Stage.Faithful r.stage
  | _ => True

abbrev Reached (link : ShareLink) : State → Prop := Reachable step (fun s l => Fresh s l ∧ Faithful s l) (.start link)

instance (s : State) : ∀ l, Decidable (Fresh s l) := fun l => by
  induction l using Label.casesOn <;> unfold Fresh <;> infer_instance

instance : ∀ stage, Decidable (Stage.Faithful stage) := fun stage => by
  induction stage using Stage.casesOn <;> unfold Stage.Faithful <;> infer_instance

instance (s : State) : ∀ l, Decidable (Faithful s l) := fun l => by
  induction l using Label.casesOn <;> unfold Faithful <;> infer_instance

/-- A credential of after the password was set, when so many cookies and tickets had been issued. -/
def Renewed : Nat × Nat → Option Credential → Prop
  | (cookies,_), some (.cookie i) => cookies ≤ i
  | (_,tickets), some (.ticket i) => tickets ≤ i
  | _, none => False

instance : ∀ issued credential, Decidable (Renewed issued credential)
  | (cookies,_), some (.cookie i) => inferInstanceAs (Decidable (cookies ≤ i))
  | (_,tickets), some (.ticket i) => inferInstanceAs (Decidable (tickets ≤ i))
  | _, none => isFalse id

def Honoured (tickets : List Nat) (came : Nat) : Option Credential → Prop
  | some (.ticket i) => ∃ issued ∈ tickets[i]?, came / 1000 < issued / 1000 + DEFAULT_TTL_SECONDS
  | _ => False

/-- Nothing is granted to who comes after the link was cancelled, nor, while a password stands, to who
comes without its credential. -/
def Final (accepted : Grant → Nat × Nat → Prop) (s : State) : Prop := ∀ g ∈ s.grants, g.since.cancelled = false ∧
  ∀ issued ∈ g.since.password, g.opened = g.since.opened → accepted g issued

instance (accepted : Grant → Nat × Nat → Prop) [∀ g issued, Decidable (accepted g issued)] (s : State) : Decidable (Final accepted s) :=
  inferInstanceAs (Decidable (∀ g ∈ s.grants, _ ∧ ∀ issued ∈ g.since.password, _ → _))

section
variable {s s' : State} {n i : Nat} {link row row' : ShareLink} {stage : Stage} {event : Option Event} {r : Request}
  {purpose : Purpose} {change : Change}

structure Before (a b : Since) : Prop where
  cancelled : a.cancelled = true → b.cancelled = true
  opened : a.opened ≤ b.opened
  password : a.opened = b.opened → ∀ k ∈ a.password, ∃ k' ∈ b.password, k.1 ≤ k'.1 ∧ k.2 ≤ k'.2

theorem before_refl (a : Since) : Before a a := ⟨id,le_refl _,fun _ k found => ⟨k,found,le_refl _,le_refl _⟩⟩

theorem before_trans {a b c : Since} (first : Before a b) (second : Before b c) : Before a c where
  cancelled given := second.cancelled (first.cancelled given)
  opened := le_trans first.opened second.opened
  password same k found := by
    have one := first.opened
    have other := second.opened
    obtain ⟨k',found',le,le'⟩ := first.password (by omega) k found
    obtain ⟨k'',found'',more,more'⟩ := second.password (by omega) k' found'
    exact ⟨k'',found'',le_trans le more,le_trans le' more'⟩

theorem before_after {since : Since} {issued : Nat × Nat} (le : ∀ k ∈ since.password, k.1 ≤ issued.1 ∧ k.2 ≤ issued.2) (change : Change) :
    Before since (since.after issued change) := by
  cases change with
  | cancel => exact ⟨fun _ => rfl,le_refl _,(before_refl since).password⟩
  | update dto =>
    unfold Since.after
    dsimp only
    split
    · exact before_refl since
    · exact ⟨id,Nat.le_succ _,fun same => absurd same (Nat.ne_of_lt (Nat.lt_succ_self _))⟩
    · exact ⟨id,le_refl _,fun _ k found => ⟨issued,rfl,le k found⟩⟩

def Accepted (s : State) (came : Nat) (issued : Nat × Nat) (credential : Option Credential) : Prop :=
  Renewed issued credential ∨ Honoured s.tickets came credential

def Backed (s : State) (r : Request) (credential : Option Credential) : Prop := r.since.cancelled = false ∧
  ∀ issued ∈ r.since.password, s.since.opened = r.since.opened → Accepted s r.came issued credential

def Carries (mine : ShareLink) : Option Change → Prop
  | some (.update dto) => ∀ password ∈ dto.password, mine.password = password
  | some .cancel => mine.isDeleted = true
  | none => True

def Stage.Sound (s : State) (r : Request) : Stage → Prop
  | .inShare _ purpose | .startingClock _ purpose | .previewing _ _ purpose => Backed s r purpose.credential
  | .incrementing _ cookie => Backed s r (cookie.map .cookie)
  | .saving mine change => Carries mine change
  | .updating mine found change => Carries mine change ∧ (∀ hash ∈ change.bind Change.hash, found.password ≠ some hash) ∧
    (found.isDeleted = true → ∀ row ∈ s.link.committed, row.isDeleted = true)
  | _ => True

def Stage.pending : Stage → Option String
  | .readingOwn change | .changing _ change | .saving _ (some change) | .updating _ _ (some change) => change.hash
  | _ => none

def Stage.mentions : Stage → Option String
  | .comparing hash _ => some hash
  | stage => Stage.pending stage

structure RowSound (s : State) (row : ShareLink) : Prop where
  cancelled : s.since.cancelled = true → row.isDeleted = true
  password : ∀ k ∈ s.since.password, (k.1 ≤ s.issued.length ∧ k.2 ≤ s.tickets.length) ∧ ∃ hash, row.password = some hash ∧
    ∀ i, i < k.1 → ∀ jwt ∈ s.issued[i]?, jwt.pv ≠ hash
  known : ∀ hash ∈ row.password, hash ∈ s.hashes

structure Unused (s : State) (n : Nat) (hash : String) : Prop where
  row : ∀ row ∈ s.link.committed, row.password ≠ some hash
  issued : ∀ jwt ∈ s.issued, jwt.pv ≠ hash
  others : ∀ (m : Nat) (r : Request), m ≠ n → s.requests[m]? = some r → Stage.mentions r.stage ≠ some hash

structure Inv (s : State) : Prop where
  locked : Locked s
  row : ∃ row, s.link.committed = some row ∧ RowSound s row
  issued : ∀ jwt ∈ s.issued, jwt.pv ∈ s.hashes
  before : ∀ (n : Nat) (r : Request), s.requests[n]? = some r → r.came ≤ s.now ∧ Before r.since s.since
  sound : ∀ (n : Nat) (r : Request), s.requests[n]? = some r → Stage.Sound s r r.stage
  known : ∀ (n : Nat) (r : Request), s.requests[n]? = some r → ∀ hash ∈ Stage.mentions r.stage, hash ∈ s.hashes
  unused : ∀ (n : Nat) (r : Request), s.requests[n]? = some r → ∀ hash ∈ Stage.pending r.stage, Unused s n hash
  final : Final (fun g issued => Accepted s g.came issued g.credential) s

theorem inv_start (link : ShareLink) : Inv (.start link) where
  locked := locked_start
  row := by
    refine ⟨link,rfl,nofun,fun k found => ?_,fun hash found => by simpa [State.start] using found⟩
    simp only [State.start,Option.mem_def,Option.map_eq_some_iff] at found
    obtain ⟨hash,found,rfl⟩ := found
    exact ⟨⟨le_refl _,le_refl _⟩,hash,found,fun i below => absurd below (Nat.not_lt_zero i)⟩
  issued _ member := nomatch member
  before _ _ found := nomatch found
  sound _ _ found := nomatch found
  known _ _ found := nomatch found
  unused _ _ found := nomatch found
  final _ member := nomatch member

structure Grows (s s' : State) : Prop where
  tickets : ∀ (i : Nat) (time : Nat), s.tickets[i]? = some time → s'.tickets[i]? = some time
  since : Before s.since s'.since
  deleted : (∀ row ∈ s.link.committed, row.isDeleted = true) → ∀ row ∈ s'.link.committed, row.isDeleted = true

variable {hash : String} {credential : Option Credential}

theorem accepted_mono {came : Nat} {issued : Nat × Nat} (grows : Grows s s')
    (accepted : Accepted s came issued credential) : Accepted s' came issued credential := by
  refine accepted.imp_right fun honoured => ?_
  match credential with
  | some (.ticket i) =>
    obtain ⟨time,found,valid⟩ := honoured
    exact ⟨time,grows.tickets i time found,valid⟩
  | some (.cookie _) | none => exact honoured

theorem backed_mono (grows : Grows s s') (before : Before r.since s.since) (backed : Backed s r credential) :
    Backed s' r credential := by
  refine ⟨backed.1,fun issued found same => accepted_mono grows (backed.2 issued found ?_)⟩
  have one := before.opened
  have other := grows.since.opened
  omega

theorem sound_mono (grows : Grows s s') (before : Before r.since s.since) (sound : Stage.Sound s r stage) : Stage.Sound s' r stage := by
  cases stage with
  | inShare link purpose | startingClock link purpose | previewing phase key purpose => exact backed_mono grows before sound
  | incrementing link cookie => exact backed_mono grows before sound
  | saving mine change => exact sound
  | updating mine found change => exact ⟨sound.1,sound.2.1,fun gone => grows.deleted (sound.2.2 gone)⟩
  | _ => trivial

/-! ### What a request goes on with -/

theorem backed_read (kept : row.isDeleted = false) (sound : RowSound s row)
    (before : Before r.since s.since)
    (accepted : ∀ k ∈ s.since.password, Accepted s r.came k credential) : Backed s r credential := by
  refine ⟨?_,fun issued found same => ?_⟩
  · cases cancelled : r.since.cancelled with
    | false => rfl
    | true => rw [sound.cancelled (before.cancelled cancelled)] at kept; cases kept
  · obtain ⟨k',found',le,le'⟩ := before.password same.symm issued found
    refine (accepted k' found').imp_left fun renewed => ?_
    match credential with
    | some (.cookie i) => exact le_trans le renewed
    | some (.ticket i) => exact le_trans le' renewed
    | none => exact renewed

theorem renewed_cookie (sound : RowSound s row) {cookie : Option Nat} (opens : s.opens row cookie = true) :
    ∀ k ∈ s.since.password, Accepted s r.came k (cookie.map .cookie) := by
  intro k found
  obtain ⟨_,hash,same,older⟩ := sound.password k found
  simp only [State.opens,same,Option.any_eq_true,Bool.and_eq_true,decide_eq_true_eq] at opens
  obtain ⟨i,rfl,jwt,issued,version,_⟩ := opens
  by_contra early
  refine older i ?_ jwt issued version
  simp only [Accepted,Renewed,Option.map_some,not_or,Nat.not_le] at early
  exact early.1

theorem honoured_ticket {key : PreviewSessions.Key} (came : r.came ≤ s.now) (valid : s.expired (.previewTicket key i) = false) :
    Honoured s.tickets r.came (some (.ticket i)) := by
  simp only [State.expired,Bool.not_eq_false',Option.any_eq_true,decide_eq_true_eq] at valid
  obtain ⟨time,found,valid⟩ := valid
  exact ⟨time,found,Nat.lt_of_le_of_lt (Nat.div_le_div_right came) valid⟩

theorem sound_read (there : s.link.committed = some row) (sound : RowSound s row) (came : r.came ≤ s.now) (before : Before r.since s.since) :
    Stage.Sound s r (s.read purpose) := by
  unfold State.read
  split
  · trivial
  next valid =>
  split
  · trivial
  next found =>
  obtain ⟨rfl,kept⟩ := row_eq there found
  split
  · have cookie : ∀ cookie, s.opens row cookie = true → Backed s r (cookie.map .cookie) := fun cookie opens =>
      backed_read kept sound before (renewed_cookie sound opens)
    cases purpose with
    | previewTicket key i =>
      exact backed_read kept sound before fun _ _ => .inr (honoured_ticket came (by simpa using valid))
    | verifyPassword correct => unfold State.admitted; dsimp only; split <;> trivial
    | _ =>
      unfold State.admitted
      dsimp only
      split
      · next opens => exact cookie _ opens
      · trivial
  · split <;> trivial

theorem sound_counting (backed : Backed s r purpose.credential) : Stage.Sound s r (counting link purpose) := by
  cases purpose with
  | consume cookie | preview key cookie | previewTicket key i => exact backed
  | _ => trivial

theorem sound_write {next : Stage} (before : Stage.Sound s r stage) (after : Stage.Sound s r next) :
    Stage.Sound s r (s.write n stage row next event).next := by
  unfold State.write
  split
  · exact before
  · exact after

theorem carries_changed {now : Nat} : Carries (changed now link change) (some change) := by
  cases change with
  | cancel => rfl
  | update dto =>
    intro password given
    have given : dto.password = some password := given
    simp [changed,given]

theorem sound_advance (there : s.link.committed = some row) (rowSound : RowSound s row) (came : r.came ≤ s.now)
    (before : Before r.since s.since) (sound : Stage.Sound s r stage) (unused : ∀ hash ∈ Stage.pending stage, Unused s n hash) :
    Stage.Sound s r (s.advance n stage).next := by
  unfold State.advance
  cases stage with
  | reading purpose => exact sound_read there rowSound came before
  | inShare link purpose =>
    cases purpose with
    | peek cookie | issueTicket cookie => trivial
    | _ =>
      dsimp only
      split
      · exact sound
      · exact sound_counting sound
  | startingClock link purpose =>
    dsimp only
    split
    · trivial
    · exact sound_write sound (sound_counting sound)
  | previewing phase key purpose =>
    dsimp only
    split
    all_goals trivial
  | changing link change => exact carries_changed
  | saving mine change =>
    simp only [there]
    refine ⟨sound,fun hash found => (unused hash ?_).row row there,fun gone row' same => ?_⟩
    · cases change with
      | none => cases found
      | some change => exact found
    · obtain rfl := Option.mem_unique there same
      exact gone
  | incrementing link cookie => dsimp only; split <;> split <;> first | trivial | exact sound_write sound trivial
  | exhausting | updating mine found change => dsimp only; split <;> first | trivial | exact sound_write sound trivial
  | ticketing | readingOwn change => dsimp only; split <;> trivial
  | _ => trivial

/-! ### Hashes -/

theorem mentions_write {next : Stage} (closed : Stage.mentions next = none)
    (found : Stage.mentions (s.write n stage row next event).next = some hash) : Stage.mentions stage = some hash := by
  unfold State.write at found
  split at found
  · exact found
  · rw [closed] at found
    cases found

theorem mentions_counting : Stage.mentions (counting link purpose) = none := by cases purpose <;> rfl

theorem read_mentions (there : s.link.committed = some row) (found : Stage.mentions (s.read purpose) = some hash) :
    row.password = some hash := by
  unfold State.read at found
  split at found
  · cases found
  split at found
  · cases found
  next same =>
  obtain ⟨rfl,_⟩ := row_eq there same
  split at found
  · cases purpose with
    | verifyPassword correct =>
      simp only [State.admitted] at found
      split at found
      · cases found
      · next same => cases found; exact same
    | previewTicket key i => cases found
    | _ =>
      simp only [State.admitted] at found
      split at found <;> cases found
  · split at found <;> cases found

theorem read_pending : Stage.pending (s.read purpose) = none := by
  unfold State.read
  split
  · rfl
  split
  · rfl
  · split
    · unfold State.admitted
      split <;> first | rfl | (split <;> rfl)
    · split <;> rfl

theorem mentions_advance (there : s.link.committed = some row)
    (found : Stage.mentions (s.advance n stage).next = some hash) : Stage.mentions stage = some hash ∨
      row.password = some hash ∧ ∃ purpose, stage = .reading purpose := by
  unfold State.advance at found
  cases stage with
  | reading purpose => exact .inr ⟨read_mentions there found,purpose,rfl⟩
  | inShare link purpose =>
    cases purpose with
    | peek cookie | issueTicket cookie => cases found
    | _ => dsimp only at found; split at found <;> cases found
  | startingClock link purpose =>
    dsimp only at found
    split at found
    · cases found
    · exact .inl (mentions_write mentions_counting found)
  | previewing phase key purpose => dsimp only at found; split at found <;> cases found
  | changing link change => exact .inl found
  | saving mine change =>
    simp only [there] at found
    exact .inl (by cases change <;> exact found)
  | incrementing link cookie => dsimp only at found; split at found <;> split at found <;> first | cases found | exact .inl (mentions_write rfl found)
  | exhausting => dsimp only at found; split at found <;> first | cases found | exact .inl (mentions_write rfl found)
  | updating mine found' change => dsimp only at found; split at found <;> first | cases found | exact .inl (mentions_write rfl found)
  | ticketing => dsimp only at found; split at found <;> cases found
  | readingOwn change =>
    dsimp only at found
    split at found
    · cases found
    · exact .inl found
  | comparing _ _ | closed => cases found

theorem pending_mentions (found : Stage.pending stage = some hash) : Stage.mentions stage = some hash := by
  cases stage <;> first | exact found | cases found

theorem pending_advance (there : s.link.committed = some row)
    (found : Stage.pending (s.advance n stage).next = some hash) : Stage.pending stage = some hash := by
  rcases mentions_advance there (pending_mentions found) with mentioned | ⟨_,purpose,rfl⟩
  · cases stage with
    | comparing _ _ => cases found
    | _ => exact mentioned
  · cases read_pending.symm.trans found

section
variable (effect : Effect s stage row row' event)
include effect

theorem granted_backed {consumed : Bool} (sound : Stage.Sound s r stage) (grants : event = some (.granted credential consumed)) : Backed s r credential := by
  cases effect with
  | peeks | passes | counts | charges | repeats => cases grants; exact sound
  | saves mine found change => cases change <;> cases grants
  | _ => cases grants

theorem issued_compared {pv : String} (issues : event = some (.issued pv)) : ∃ correct, stage = .comparing pv correct := by
  cases effect with
  | issues hash correct => cases issues; exact ⟨correct,rfl⟩
  | saves mine found change => cases change <;> cases issues
  | _ => cases issues

theorem effect_frame (other : ∀ mine found change, stage ≠ .updating mine found change) :
    row'.password = row.password ∧ row'.isDeleted = row.isDeleted ∧ ∀ change, event ≠ some (.changed change) := by
  cases effect with
  | saves mine found change => exact absurd rfl (other mine found change)
  | _ => exact ⟨rfl,rfl,nofun⟩

end

structure Recorded (s : State) (r : Request) (event : Option Event) (s' : State) : Prop where
  hashes : s'.hashes = s.hashes
  now : s'.now = s.now
  tickets : ∃ more, s'.tickets = s.tickets ++ more
  issued : ∃ more, s'.issued = s.issued ++ more ∧ ∀ jwt ∈ more, event = some (.issued jwt.pv)
  grants : ∃ more, s'.grants = s.grants ++ more ∧ ∀ g ∈ more, ∃ credential consumed,
    event = some (.granted credential consumed) ∧ g = ⟨r.came,r.since,credential,s.since.opened,consumed⟩
  since : s'.since = s.since ∨ ∃ change, event = some (.changed change) ∧
    s'.since = s.since.after (s.issued.length,s.tickets.length) change

theorem recorded : Recorded s r event (s.record r event) := by
  have nothing : ∀ {α : Type} (l : List α) (P : α → Prop), ∃ more, l = l ++ more ∧ ∀ x ∈ more, P x := fun l P =>
    ⟨[],(List.append_nil l).symm,nofun⟩
  have same : ∃ more, s.tickets = s.tickets ++ more := ⟨[],(List.append_nil _).symm⟩
  match event with
  | none => exact ⟨rfl,rfl,same,nothing _ _,nothing _ _,.inl rfl⟩
  | some (.granted credential consumed) =>
    exact ⟨rfl,rfl,same,nothing _ _,⟨_,rfl,fun g member => ⟨credential,consumed,rfl,List.mem_singleton.mp member⟩⟩,.inl rfl⟩
  | some (.issued pv) => exact ⟨rfl,rfl,same,⟨_,rfl,by simp⟩,nothing _ _,.inl rfl⟩
  | some .ticketed => exact ⟨rfl,rfl,⟨_,rfl⟩,nothing _ _,nothing _ _,.inl rfl⟩
  | some (.changed change) => exact ⟨rfl,rfl,same,nothing _ _,nothing _ _,.inr ⟨change,rfl,rfl⟩⟩

/-! ### One statement -/

theorem inv_run_of (inv : Inv s) (found : s.requests[i]? = some r) (there : s.link.committed = some row)
    (after : (s.run i r).link.committed = some row') (sound : RowSound (s.run i r) row') (grows : Grows s (s.run i r))
    (origin : ∀ hash, row'.password = some hash → row.password = some hash ∨
      Stage.pending r.stage = some hash ∧ Stage.mentions (s.advance i r.stage).next = none) : Inv (s.run i r) := by
  obtain ⟨_,same,rowSound⟩ := inv.row
  obtain rfl := Option.mem_unique there same
  obtain ⟨_,_,effect⟩ := advance_effect there (inv.locked.holding i r found)
  have record : Recorded s r (s.advance i r.stage).event (s.record r (s.advance i r.stage).event) := recorded
  have hashes : (s.run i r).hashes = s.hashes := record.hashes
  have now : (s.run i r).now = s.now := record.now
  obtain ⟨came,before⟩ := inv.before i r found
  have others : ∀ (j : Nat) (q : Request), (s.run i r).requests[j]? = some q →
      j = i ∧ q = { r with stage := (s.advance i r.stage).next } ∨ j ≠ i ∧ s.requests[j]? = some q := fun j q found => at_of_set found
  obtain ⟨cookies,issued,fromIssue⟩ := record.issued
  have issued : (s.run i r).issued = s.issued ++ cookies := issued
  refine ⟨locked_run inv.locked found,⟨row',after,sound⟩,fun jwt member => ?_,fun j q found' => ?_,fun j q found' => ?_,fun j q found' hash mentioned => ?_,
    fun j q found' hash pending => ?_,fun g member => ?_⟩
  · rw [hashes]
    rw [issued] at member
    rcases List.mem_append.mp member with old | new
    · exact inv.issued jwt old
    · obtain ⟨correct,compared⟩ := issued_compared effect (fromIssue jwt new)
      exact inv.known i r found jwt.pv (by rw [compared]; rfl)
  · rw [now]
    rcases others j q found' with ⟨_,rfl⟩ | ⟨_,old⟩
    · exact ⟨came,before_trans before grows.since⟩
    · exact ⟨(inv.before j q old).1,before_trans (inv.before j q old).2 grows.since⟩
  · rcases others j q found' with ⟨rfl,rfl⟩ | ⟨_,old⟩
    · exact sound_mono grows before (sound_advance there rowSound came before (inv.sound j r found) (inv.unused j r found))
    · exact sound_mono grows (inv.before j q old).2 (inv.sound j q old)
  · rw [hashes]
    rcases others j q found' with ⟨rfl,rfl⟩ | ⟨_,old⟩
    · rcases mentions_advance there mentioned with before | ⟨there,_⟩
      · exact inv.known j r found hash before
      · exact rowSound.known hash there
    · exact inv.known j q old hash mentioned
  · rcases others j q found' with ⟨rfl,rfl⟩ | ⟨other,old⟩
    · have before := pending_advance there pending
      have unused := inv.unused j r found hash before
      refine ⟨fun row'' same written => ?_,fun jwt member version => ?_,fun m q apart found' => ?_⟩
      · obtain rfl := Option.mem_unique after same
        rcases origin hash written with there' | ⟨_,closed⟩
        · exact unused.row row there there'
        · cases closed.symm.trans (pending_mentions pending)
      · rw [issued] at member
        rcases List.mem_append.mp member with old | new
        · exact unused.issued jwt old version
        · obtain ⟨correct,compared⟩ := issued_compared effect (fromIssue jwt new)
          rw [compared] at before
          cases before
      · rcases others m q found' with ⟨rfl,_⟩ | ⟨_,old⟩
        · exact absurd rfl apart
        · exact unused.others m q apart old
    · have unused := inv.unused j q old hash pending
      refine ⟨fun row'' same written => ?_,fun jwt member version => ?_,fun m q' apart found' mentioned => ?_⟩
      · obtain rfl := Option.mem_unique after same
        rcases origin hash written with there' | ⟨mine,_⟩
        · exact unused.row row there there'
        · exact unused.others i r (Ne.symm other) found (pending_mentions mine)
      · rw [issued] at member
        rcases List.mem_append.mp member with old | new
        · exact unused.issued jwt old version
        · obtain ⟨correct,compared⟩ := issued_compared effect (fromIssue jwt new)
          exact unused.others i r (Ne.symm other) found (by rw [compared,← version]; rfl)
      · rcases others m q' found' with ⟨rfl,rfl⟩ | ⟨_,old⟩
        · rcases mentions_advance there mentioned with before | ⟨there',_⟩
          · exact unused.others m r apart found before
          · exact unused.row row there there'
        · exact unused.others m q' apart old mentioned
  · obtain ⟨more,grants,fromGrant⟩ := record.grants
    have grants : (s.run i r).grants = s.grants ++ more := grants
    rw [grants] at member
    rcases List.mem_append.mp member with old | new
    · exact ⟨(inv.final g old).1,fun issued found same => accepted_mono grows ((inv.final g old).2 issued found same)⟩
    · obtain ⟨credential,consumed,granted,rfl⟩ := fromGrant g new
      obtain ⟨kept,accepted⟩ := granted_backed effect (inv.sound i r found) granted
      exact ⟨kept,fun issued found same => accepted_mono grows (accepted issued found same)⟩

theorem grows_run (inv : Inv s) (there : s.link.committed = some row)
    (after : (s.run i r).link.committed = some row') (deleted : row.isDeleted = true → row'.isDeleted = true) : Grows s (s.run i r) := by
  have record : Recorded s r (s.advance i r.stage).event (s.record r (s.advance i r.stage).event) := recorded
  obtain ⟨_,same,rowSound⟩ := inv.row
  refine ⟨fun i time known => ?_,?_,fun gone row'' same' => ?_⟩
  · obtain ⟨more,tickets⟩ := record.tickets
    have tickets : (s.run _ r).tickets = s.tickets ++ more := tickets
    rw [tickets,List.getElem?_append_left (at_lt known)]
    exact known
  · rcases record.since with since | ⟨change,_,since⟩
    · exact since ▸ before_refl _
    · exact since ▸ before_after (fun k known => (rowSound.password k known).1) change
  · obtain rfl := Option.mem_unique after same'
    exact deleted (gone row there)

theorem rowSound_run (sound : RowSound s row) (since : (s.run i r).since = s.since)
    (password : row'.password = row.password) (deleted : row.isDeleted = true → row'.isDeleted = true) : RowSound (s.run i r) row' := by
  have record : Recorded s r (s.advance i r.stage).event (s.record r (s.advance i r.stage).event) := recorded
  obtain ⟨cookies,issued,_⟩ := record.issued
  obtain ⟨tickets,ticketed⟩ := record.tickets
  have issued : (s.run i r).issued = s.issued ++ cookies := issued
  have ticketed : (s.run i r).tickets = s.tickets ++ tickets := ticketed
  have hashes : (s.run i r).hashes = s.hashes := record.hashes
  refine ⟨fun cancelled => deleted (sound.cancelled (since ▸ cancelled)),fun k known => ?_,fun hash written => ?_⟩
  · rw [since] at known
    obtain ⟨⟨le,le'⟩,hash,same,older⟩ := sound.password k known
    refine ⟨⟨by simp [issued]; omega,by simp [ticketed]; omega⟩,hash,password.trans same,fun i below jwt found => ?_⟩
    rw [issued,List.getElem?_append_left (by omega)] at found
    exact older i below jwt found
  · rw [password] at written
    exact hashes ▸ sound.known hash written

theorem inv_other (inv : Inv s) (found : s.requests[i]? = some r) (other : ∀ mine old change, r.stage ≠ .updating mine old change) :
    Inv (s.run i r) := by
  obtain ⟨row,there,sound⟩ := inv.row
  obtain ⟨row',after,effect⟩ := advance_effect there (inv.locked.holding i r found)
  obtain ⟨password,deleted,unchanged⟩ := effect_frame effect other
  have since : (s.run i r).since = s.since := by
    rcases (recorded : Recorded s r _ (s.record r (s.advance i r.stage).event)).since with same | ⟨change,changes,_⟩
    · exact same
    · exact absurd changes (unchanged change)
  exact inv_run_of inv found there after (rowSound_run sound since password deleted.trans)
    (grows_run inv there after deleted.trans) fun hash written => .inl (password ▸ written)

section
variable {mine old : ShareLink} {given : Option Change}

theorem run_saves (there : s.link.committed = some row) (stage : r.stage = .updating mine old given) (free : s.link.blocked i = false) :
    s.run i r = { s with
      link := s.link.put (some (saved mine old row)), requests := s.requests.set i { r with stage := .closed }
      since := given.elim s.since (s.since.after (s.issued.length,s.tickets.length)) } := by
  have carried : s.advance i (.updating mine old given) = ⟨s.link.put (some (saved mine old row)),.closed,given.map .changed⟩ := by
    simp [State.advance,there,State.write,free]
  rw [State.run,stage,carried]
  cases given <;> rfl

theorem saved_deleted (faithful : Stage.Faithful (.updating mine old given)) (carries : Carries mine given)
    (gone : row.isDeleted = true) : (saved mine old row).isDeleted = true := by
  rcases faithful.1 with same | rfl
  · simpa [saved,same] using gone
  · have cancels : mine.isDeleted = true := carries
    simp [saved,column,cancels,gone]

theorem saved_password (row : ShareLink) (faithful : Stage.Faithful (.updating mine old given)) (carries : Carries mine given) :
    (saved mine old row).password = row.password ∨
      ∃ dto, given = some (.update dto) ∧ dto.password = some (saved mine old row).password := by
  rcases faithful.2 with same | sets
  · simp [saved,same]
  match given with
  | some (.update dto) =>
    obtain ⟨password,given⟩ := Option.isSome_iff_exists.mp (show dto.password.isSome = true from sets)
    have brings : mine.password = password := carries password given
    by_cases same : mine.password = old.password
    · simp [saved,same]
    · have written : (saved mine old row).password = mine.password := by simp only [saved,column,if_neg same]
      exact .inr ⟨dto,rfl,by rw [written,brings]; exact given⟩
  | some .cancel | none => cases sets

theorem rowSound_saves (there : s.link.committed = some row) (rowSound : RowSound s row) (sound : Stage.Sound s r (.updating mine old given))
    (unused : ∀ hash ∈ Stage.pending (.updating mine old given), Unused s i hash)
    (known : ∀ hash ∈ Stage.pending (.updating mine old given), hash ∈ s.hashes)
    (faithful : Stage.Faithful (.updating mine old given)) :
    RowSound { s with
      link := s.link.put (some (saved mine old row)), requests := s.requests.set i { r with stage := .closed }
      since := given.elim s.since (s.since.after (s.issued.length,s.tickets.length)) } (saved mine old row) := by
  obtain ⟨carries,other,gone⟩ := sound
  have stays : s.since.cancelled = true → (saved mine old row).isDeleted = true := fun cancelled =>
    saved_deleted faithful carries (rowSound.cancelled cancelled)
  have hashes : ∀ hash ∈ (saved mine old row).password, hash ∈ s.hashes := by
    intro hash written
    rcases saved_password row faithful carries with same | ⟨dto,rfl,brings⟩
    · exact rowSound.known hash (same ▸ written)
    · refine known hash ?_
      rw [written] at brings
      simp [Stage.pending,Change.hash,brings]
  have keeps : (saved mine old row).password = row.password → ∀ k ∈ s.since.password,
      (k.1 ≤ s.issued.length ∧ k.2 ≤ s.tickets.length) ∧ ∃ hash, (saved mine old row).password = some hash ∧
        ∀ i, i < k.1 → ∀ jwt ∈ s.issued[i]?, jwt.pv ≠ hash := fun same => same ▸ rowSound.password
  cases given with
  | none =>
    refine ⟨stays,keeps ?_,hashes⟩
    exact (saved_password row faithful carries).resolve_right (by rintro ⟨_,brings,_⟩; cases brings)
  | some change => cases change with
  | cancel =>
    refine ⟨fun _ => ?_,keeps ?_,hashes⟩
    · have cancels : mine.isDeleted = true := carries
      by_cases same : mine.isDeleted = old.isDeleted
      · rw [show (saved mine old row).isDeleted = row.isDeleted by simp [saved,same]]
        exact gone (same ▸ cancels) row there
      · simp only [saved,column,if_neg same]
        exact cancels
    · exact (saved_password row faithful carries).resolve_right (by rintro ⟨_,brings,_⟩; cases brings)
  | update dto =>
    cases given : dto.password with
    | none =>
      have same : (saved mine old row).password = row.password := by
        rcases saved_password row faithful carries with same | ⟨_,rest,brings⟩
        · exact same
        · cases rest
          cases given.symm.trans brings
      refine ⟨?_,?_,hashes⟩
      · simpa [Since.after,given] using stays
      · simpa [Since.after,given] using keeps same
    | some value => cases value with
    | none =>
      refine ⟨?_,?_,hashes⟩
      · simpa [Since.after,given] using stays
      · simp [Since.after,given]
    | some hash =>
      have pending : Stage.pending (.updating mine old (some (.update dto))) = some hash := by simp [Stage.pending,Change.hash,given]
      have brings : mine.password = some hash := carries _ given
      have fresh : old.password ≠ some hash := other hash pending
      have written : (saved mine old row).password = some hash := by
        simp only [saved,column,brings,if_neg (Ne.symm fresh)]
      refine ⟨?_,?_,hashes⟩
      · simpa [Since.after,given] using stays
      · intro k found
        have found : some (s.issued.length,s.tickets.length) = some k := by simpa [Since.after,given] using found
        obtain rfl := Option.some.inj found
        refine ⟨⟨le_refl _,le_refl _⟩,hash,written,fun j _ jwt found => ?_⟩
        exact (unused hash pending).issued jwt (List.mem_of_getElem? found)

theorem inv_saves (inv : Inv s) (found : s.requests[i]? = some r) (stage : r.stage = .updating mine old given)
    (free : s.link.blocked i = false) (faithful : Stage.Faithful (.updating mine old given)) : Inv (s.run i r) := by
  obtain ⟨row,there,rowSound⟩ := inv.row
  have result := run_saves there stage free
  have sound := inv.sound i r found
  have unused := inv.unused i r found
  have known : ∀ hash ∈ Stage.pending r.stage, hash ∈ s.hashes := fun hash pending => inv.known i r found hash (pending_mentions pending)
  rw [stage] at sound unused known
  have after : (s.run i r).link.committed = some (saved mine old row) := by rw [result]; rfl
  refine inv_run_of inv found there after (result ▸ rowSound_saves there rowSound sound unused known faithful)
    (grows_run inv there after (saved_deleted faithful sound.1)) fun hash written => ?_
  have closed : (s.advance i (.updating mine old given)).next = .closed := by simp [State.advance,there,State.write,free]
  rcases saved_password row faithful sound.1 with same | ⟨dto,rfl,brings⟩
  · exact .inl (same ▸ written)
  · rw [written] at brings
    rw [stage,closed]
    exact .inr ⟨by simp [Stage.pending,Change.hash,brings],rfl⟩

end

theorem inv_run (inv : Inv s) (found : s.requests[i]? = some r) (faithful : s.link.blocked i = true ∨ Stage.Faithful r.stage) :
    Inv (s.run i r) := by
  by_cases other : ∀ mine old change, r.stage ≠ .updating mine old change
  · exact inv_other inv found other
  simp only [not_forall,not_not] at other
  obtain ⟨mine,old,given,stage⟩ := other
  cases free : s.link.blocked i with
  | false => exact inv_saves inv found stage free (stage ▸ faithful.resolve_left (by simp [free]))
  | true =>
    -- it waits, and nothing happens
    obtain ⟨row,there,_⟩ := inv.row
    have waits : s.advance i (.updating mine old given) = ⟨s.link,.updating mine old given,none⟩ := by
      simp [State.advance,there,State.write,free]
    have keeps : s.requests.set i r = s.requests := by
      obtain ⟨bound,same⟩ := List.getElem?_eq_some_iff.mp found
      exact same ▸ List.set_getElem_self bound
    have same : s.run i r = { s with requests := s.requests.set i r } := by
      have sessions : s.sessionsAfter i r.stage = s.sessions := by rw [stage]; rfl
      rw [State.run,sessions,stage,waits,← stage]
      rfl
    rw [same,keeps]
    exact inv

/-! ### Every step -/

/-- A request that comes, or is given up, knows nothing; a hash that it brings has not been there. -/
structure New (s s' : State) (r : Request) : Prop where
  came : r.came ≤ s'.now
  before : Before r.since s.since
  sound : Stage.Sound s' r r.stage
  fresh : ∀ hash ∈ Stage.mentions r.stage, hash ∈ s'.hashes ∧ hash ∉ s.hashes

structure Idle (s s' : State) (n : Nat) : Prop where
  committed : s'.link.committed = s.link.committed
  issued : s'.issued = s.issued
  tickets : s'.tickets = s.tickets
  since : s'.since = s.since
  grants : s'.grants = s.grants
  hashes : ∃ more, s'.hashes = s.hashes ++ more
  now : s.now ≤ s'.now
  requests : ∀ (m : Nat) (r : Request), s'.requests[m]? = some r → s.requests[m]? = some r ∨ m = n ∧ New s s' r

theorem inv_idle (inv : Inv s) (locked : Locked s') (idle : Idle s s' n) : Inv s' := by
  obtain ⟨committed,issued,tickets,since,grants,⟨more,hashes⟩,now,requests⟩ := idle
  obtain ⟨row,there,rowSound⟩ := inv.row
  have kept : ∀ hash ∈ s.hashes, hash ∈ s'.hashes := fun hash member => hashes ▸ List.mem_append_left more member
  have grows : Grows s s' := ⟨fun i time found => tickets ▸ found,since ▸ before_refl _,fun gone => committed ▸ gone⟩
  refine ⟨locked,⟨row,committed.trans there,?_,?_,fun hash found => kept hash (rowSound.known hash found)⟩,?_,fun m r found => ?_,fun m r found => ?_,
    fun m r found hash mentioned => ?_,fun m r found hash pending => ⟨?_,?_,fun m' r' other found' mentioned => ?_⟩,?_⟩
  · rw [since]
    exact rowSound.cancelled
  · rw [since,issued,tickets]
    exact rowSound.password
  · rw [issued]
    exact fun jwt member => kept _ (inv.issued jwt member)
  · rw [since]
    rcases requests m r found with old | ⟨_,new⟩
    · exact ⟨le_trans (inv.before m r old).1 now,(inv.before m r old).2⟩
    · exact ⟨new.came,new.before⟩
  · rcases requests m r found with old | ⟨_,new⟩
    · exact sound_mono grows (inv.before m r old).2 (inv.sound m r old)
    · exact new.sound
  · rcases requests m r found with old | ⟨_,new⟩
    · exact kept hash (inv.known m r old hash mentioned)
    · exact (new.fresh hash mentioned).1
  · rw [committed]
    rcases requests m r found with old | ⟨_,new⟩
    · exact (inv.unused m r old hash pending).row
    · intro row' same written
      obtain rfl := Option.mem_unique there same
      exact (new.fresh hash (pending_mentions pending)).2 (rowSound.known hash written)
  · rw [issued]
    rcases requests m r found with old | ⟨_,new⟩
    · exact (inv.unused m r old hash pending).issued
    · intro jwt member version
      exact (new.fresh hash (pending_mentions pending)).2 (version ▸ inv.issued jwt member)
  · rcases requests m r found with old | ⟨here,new⟩
    · rcases requests m' r' found' with old' | ⟨_,new'⟩
      · exact (inv.unused m r old hash pending).others m' r' other old' mentioned
      · exact (new'.fresh hash mentioned).2 (inv.known m r old hash (pending_mentions pending))
    · rcases requests m' r' found' with old' | ⟨here',_⟩
      · exact (new.fresh hash (pending_mentions pending)).2 (inv.known m' r' old' hash mentioned)
      · exact other (here'.trans here.symm)
  · rw [Final,grants]
    exact fun g member => ⟨(inv.final g member).1,fun issued found same => accepted_mono grows ((inv.final g member).2 issued found same)⟩

theorem inv_step (inv : Inv s) (l : Label) (allowed : Fresh s l ∧ Faithful s l) : Inv (step s l) := by
  have locked := locked_step inv.locked l
  have nothing : ∃ more, s.hashes = s.hashes ++ more := ⟨[],(List.append_nil _).symm⟩
  cases l with
  | tick ms => exact inv_idle inv locked (n := 0) ⟨rfl,rfl,rfl,rfl,rfl,nothing,Nat.le_add_right _ _,fun _ _ found => .inl found⟩
  | ask purpose =>
    refine inv_idle inv locked (n := s.requests.length) ⟨rfl,rfl,rfl,rfl,rfl,nothing,le_refl _,fun m r found => ?_⟩
    exact (at_of_append found).imp_right fun ⟨here,same⟩ => ⟨here,same ▸ ⟨le_refl _,before_refl _,trivial,nofun⟩⟩
  | change change =>
    refine inv_idle inv locked (n := s.requests.length) ⟨rfl,rfl,rfl,rfl,rfl,⟨_,rfl⟩,le_refl _,fun m r found => ?_⟩
    refine (at_of_append found).imp_right fun ⟨here,same⟩ => ⟨here,same ▸ ⟨le_refl _,before_refl _,trivial,fun hash brings => ?_⟩⟩
    have brings : change.hash = some hash := brings
    exact ⟨List.mem_append_right _ (by simp [brings]),allowed.1 hash brings⟩
  | run i =>
    unfold step
    dsimp only
    split
    · next r found => exact inv_run inv found (allowed.2.imp_right fun faithful => faithful r found)
    · exact inv
  | fail i =>
    unfold step at locked ⊢
    dsimp only at locked ⊢
    split
    · next r found =>
      rw [found] at locked
      refine inv_idle inv locked (n := i) ⟨committed_rollback,rfl,rfl,rfl,rfl,nothing,le_refl _,fun m r' found' => ?_⟩
      rcases at_of_set found' with ⟨here,rfl⟩ | ⟨_,old⟩
      · exact .inr ⟨here,(inv.before i r found).1,(inv.before i r found).2,trivial,nofun⟩
      · exact .inl old
    · exact inv
  | prune keys => exact inv_idle inv locked (n := 0) ⟨rfl,rfl,rfl,rfl,rfl,nothing,le_refl _,fun _ _ found => .inl found⟩

/-- Cancelling is for good, and so is a new password but for the tickets, which are honoured to their end. -/
theorem revocation_final (reach : Reached link s) :
    Final (fun g issued => Renewed issued g.credential ∨ Honoured s.tickets g.came g.credential) s :=
  (reachable_invariant (inv_start link) (fun _ l inv ok => inv_step inv l ok) reach).final

def openFile : ShareLink := ⟨"share","token",.file,1,1,none,-1,0,none,none,.active,false⟩

def withPassword (hash : String) : Change := .update ⟨some (some hash),none,none⟩

def setAndCancelled : List Label :=
  [.change (withPassword "hash"),.run 0,.run 0,.run 0,.run 0,.ask (.peek none),.run 1,
    .ask (.verifyPassword fun hash => hash = "hash"),.run 2,.run 2,.ask (.peek (some 0)),.run 3,.run 3,
    .change .cancel,.run 4,.run 4,.run 4,.run 4,.ask (.peek (some 0)),.run 5]

theorem set_and_cancelled : ∃ s, Reached openFile s ∧ s.grants.length = 1 ∧
    Final (fun g issued => Renewed issued g.credential ∨ Honoured s.tickets g.came g.credential) s :=
  have reach := reachable_run .start setAndCancelled (by decide +kernel)
  ⟨_,reach,by decide +kernel,revocation_final reach⟩

def ticketBefore : List Label :=
  [.ask (.issueTicket none),.run 0,.run 0,.run 0,.change (withPassword "hash"),.run 1,.run 1,.run 1,.run 1,
    .ask (.previewTicket (1,"nonce") 0),.run 2,.run 2,.run 2,.run 2,.run 2,.run 2,.run 2]

theorem old_ticket_granted : ¬ ∀ s, Reachable step Fresh (.start openFile) s → Final (fun g issued => Renewed issued g.credential) s := by
  intro always
  have legal : Legal step Fresh (.start openFile) ticketBefore := by decide +kernel
  have final := always _ (reachable_run .start ticketBefore legal)
  exact absurd final (by decide +kernel)

end
end Tgtc.ShareRevocation
