import Tgtc.AttackBans

/-!
`handleAttacks`: all attacks share one transaction, errors are caught for each attack, and the alerts
are broadcast at the end. A statement that fails spoils the statements after it and the commit.
-/
namespace Tgtc.AttackIsolation
open AttackBans Maps
open Option (bind_eq_some_iff map_eq_some_iff)

inductive Statement where
  | findBan | upsertBan | findAlert | saveAlert | saveAudit

/-- `existingAlert` -/
def openAlert (alerts : List Alert) (attack : AttackDetectionResult) : Bool :=
  alerts.any fun alert => alert.ruleId = "ATTACK_" ++ attack.attackType.name.toUpper && !alert.acknowledged && alert.attack.ip = attack.ip

/-- What `banAndAlertInTx` sends as long as nothing fails. -/
def statements (now : Nat) (tables : Tables) (attack : AttackDetectionResult) : List Statement :=
  if (tables.bans.get attack.ip).any (active now) then [.findBan]
  else [Statement.findBan] ++ (if attack.alertOnly then [] else [.upsertBan]) ++ [.findAlert] ++
    if openAlert tables.alerts attack then [] else [.saveAlert,.saveAudit]

/-- `left` statements go through before one fails; after that there are no tables any more. -/
structure Transaction where
  tables : Option Tables
  left : Nat
  toBroadcast : List Broadcast

/-- One turn of the loop with its `catch`. -/
def attempt (input : Input) (tx : Transaction) (attack : AttackDetectionResult) : Transaction := match tx.tables with
  | none => tx
  | some tables =>
    let sent := (statements input.now tables attack).length
    match if sent ≤ tx.left then handleAttack input (tables,tx.toBroadcast) attack else none with
    | none => { tx with tables := none }
    | some done => ⟨some done.1,tx.left - sent,done.2⟩

/-- What is committed, and what is broadcast then. -/
def handleAttacks (input : Input) (tables : Tables) (left : Nat) (attacks : List AttackDetectionResult) : Tables × List Broadcast :=
  let tx := attacks.foldl (attempt input) ⟨some tables,left,[]⟩
  (tx.tables.getD tables,tx.toBroadcast)

section
variable {input : Input} {attack other : AttackDetectionResult} {before after attacks : List AttackDetectionResult}
  {tables tables' : Tables} {tx : Transaction} {left : Nat} {done done' ideal : Tables × List Broadcast}

theorem attempts_aborted (aborted : tx.tables = none) : attacks.foldl (attempt input) tx = tx := by
  induction attacks with
  | nil => rfl
  | cons attack attacks ih =>
    have same : attempt input tx attack = tx := by rw [attempt,aborted]
    rw [List.foldl_cons,same,ih]

theorem attempt_failed (failed : (attempt input tx attack).tables = none) :
    (attempt input tx attack).toBroadcast = tx.toBroadcast := by
  unfold attempt at failed ⊢
  split
  · rfl
  · dsimp only at failed ⊢
    split
    · rfl
    · next handled => simp_all

theorem attempts_ran (start : tx.tables = some tables) (ran : (attacks.foldl (attempt input) tx).tables = some tables') :
    attacks.foldlM (handleAttack input) (tables,tx.toBroadcast) = some (tables',(attacks.foldl (attempt input) tx).toBroadcast) := by
  induction attacks generalizing tx tables with
  | nil =>
    obtain rfl := Option.mem_unique start ran
    rfl
  | cons attack attacks ih =>
    rw [List.foldl_cons] at ran ⊢
    cases turn : (attempt input tx attack).tables with
    | none =>
      rw [attempts_aborted turn,turn] at ran
      cases ran
    | some between =>
      have rest := ih turn ran
      rw [List.foldlM_cons]
      unfold attempt at turn rest ⊢
      rw [start] at turn rest ⊢
      dsimp only at turn rest ⊢
      split at turn
      · cases turn
      · next done handled =>
        obtain ⟨_,handled⟩ := Option.ite_none_right_eq_some.mp handled
        cases turn
        split at rest <;> simp_all

/-- Its address is banned already, or it is for an alert only, which is open. -/
def Covered (now : Nat) (tables : Tables) (attack : AttackDetectionResult) : Prop :=
  (tables.bans.get attack.ip).any (active now) ∨ attack.alertOnly ∧ openAlert tables.alerts attack

theorem handleAttack_same (covered : Covered input.now done.1 attack) : handleAttack input done attack = some done := by
  unfold handleAttack banAndAlertInTx
  split
  · rfl
  · next free =>
    obtain ⟨only,there⟩ := covered.resolve_left free
    rw [openAlert] at there
    simp only [only,if_true,Option.map_some,there]

theorem handle_same (covered : ∀ attack ∈ attacks,Covered input.now done.1 attack) :
    attacks.foldlM (handleAttack input) done = some done := by
  induction attacks with
  | nil => rfl
  | cons attack attacks ih =>
    rw [List.foldlM_cons,handleAttack_same (covered attack List.mem_cons_self)]
    exact ih fun other member => covered other (List.mem_cons_of_mem _ member)

theorem handleAttack_alerts (ran : handleAttack input done attack = some done') :
    (∃ more,done'.1.alerts = done.1.alerts ++ more) ∧
      ((done.1.bans.get attack.ip).any (active input.now) ∨ openAlert done'.1.alerts attack) := by
  unfold handleAttack banAndAlertInTx at ran
  dsimp only at ran
  split at ran
  · next there =>
    cases ran
    exact ⟨⟨[],(List.append_nil _).symm⟩,.inl there⟩
  · obtain ⟨bans,_,rest⟩ := map_eq_some_iff.mp ran
    split at rest
    · next there =>
      cases rest
      exact ⟨⟨[],(List.append_nil _).symm⟩,.inr there⟩
    · cases rest
      exact ⟨⟨_,rfl⟩,.inr (by simp [openAlert])⟩

theorem handleAttack_covered (ran : handleAttack input done attack = some done')
    (covered : Covered input.now done.1 other ∨ other = attack) : Covered input.now done'.1 other := by
  obtain ⟨⟨more,grown⟩,told⟩ := handleAttack_alerts ran
  rcases covered with (there | ⟨only,there⟩) | rfl
  · exact .inl (by rw [handleAttack_active ran there]; exact there)
  · exact .inr ⟨only,by rw [grown,openAlert,List.any_append,Bool.or_eq_true]; exact .inl there⟩
  · cases only : other.alertOnly with
    | false => exact .inl (handleAttack_banned ran only)
    | true => exact told.imp (fun there => by rw [handleAttack_active ran there]; exact there) fun there => ⟨only,there⟩

theorem handle_covered (ran : attacks.foldlM (handleAttack input) done = some done')
    (covered : Covered input.now done.1 other ∨ other ∈ attacks) : Covered input.now done'.1 other := by
  induction attacks generalizing done with
  | nil =>
    cases ran
    exact covered.resolve_right List.not_mem_nil
  | cons attack attacks ih =>
    obtain ⟨between,first,rest⟩ := bind_eq_some_iff.mp ran
    rw [List.mem_cons,← or_assoc] at covered
    exact ih rest (covered.imp_left (handleAttack_covered first))

def Alert.broadcast (alert : Alert) : Broadcast :=
  ⟨alert.id,alert.ruleId,alert.level,alert.title,alert.message,alert.createdAt⟩

/-- The alerts that are broadcast are those that are committed, and what is committed is what the
attacks that have not failed would have written without the one that has. -/
structure Isolated (tables : Tables) (handled ideal : Tables × List Broadcast) : Prop where
  broadcast : handled.2 = (handled.1.alerts.drop tables.alerts.length).map Alert.broadcast
  bans : handled.1.bans = ideal.1.bans
  alerts : handled.1.alerts = ideal.1.alerts

theorem handleAttacks_isolated_iff (went : (before.foldl (attempt input) ⟨some tables,left,[]⟩).tables.isSome)
    (failed : ((before ++ [attack]).foldl (attempt input) ⟨some tables,left,[]⟩).tables = none)
    (others : (before ++ after).foldlM (handleAttack input) (tables,[]) = some ideal) :
    Isolated tables (handleAttacks input tables left (before ++ attack :: after)) ideal ↔
      ∀ other ∈ before ++ after,Covered input.now tables other := by
  obtain ⟨tables',there⟩ := Option.isSome_iff_exists.mp went
  rw [List.foldl_append,List.foldl_cons,List.foldl_nil] at failed
  have handled : handleAttacks input tables left (before ++ attack :: after) =
      (tables,(before.foldl (attempt input) ⟨some tables,left,[]⟩).toBroadcast) := by
    unfold handleAttacks
    rw [List.foldl_append,List.foldl_cons,attempts_aborted failed]
    exact Prod.ext (by simp only [failed,Option.getD_none]) (attempt_failed failed)
  rw [handled]
  constructor
  · intro isolated other member
    have covered := handle_covered others (.inr member)
    rwa [Covered,← isolated.bans,← isolated.alerts] at covered
  · intro covered
    obtain rfl := Option.mem_unique (handle_same covered) others
    have first : before.foldlM (handleAttack input) (tables,[]) = some (tables,[]) :=
      handle_same fun other member => covered other (List.mem_append_left after member)
    obtain ⟨_,silent⟩ := Prod.mk.inj (Option.mem_unique (attempts_ran rfl there) first)
    exact ⟨by simp [silent],rfl,rfl⟩

end

def guesses (ip : String) : AttackDetectionResult := ⟨ip,.bruteForce,.critical,[("loginAttempts",.number 20)]⟩

/-- The first address is banned and its alert saved; the audit entry of the second one is refused. -/
theorem handleAttacks_isolated_refused : ∃ ideal,
    Isolated noTables (handleAttacks guessed noTables 9 [guesses "203.0.113.9",guesses "203.0.113.10"]) ideal ↔
      ∀ other ∈ [guesses "203.0.113.9"],Covered guessed.now noTables other := by
  have others : ([guesses "203.0.113.9"].foldlM (handleAttack guessed) (noTables,[])).isSome := by decide +kernel
  obtain ⟨ideal,ran⟩ := Option.isSome_iff_exists.mp others
  exact ⟨ideal,@handleAttacks_isolated_iff guessed (guesses "203.0.113.10") [guesses "203.0.113.9"] [] noTables 9 ideal (by decide +kernel)
    (Option.isNone_iff_eq_none.mp (by decide +kernel)) ran⟩

theorem refused_not_isolated : ¬∀ (input : Input) (tables : Tables) (left : Nat) (before after : List AttackDetectionResult)
    (attack : AttackDetectionResult) (ideal : Tables × List Broadcast),
    (before.foldl (attempt input) ⟨some tables,left,[]⟩).tables.isSome →
    ((before ++ [attack]).foldl (attempt input) ⟨some tables,left,[]⟩).tables = none →
    (before ++ after).foldlM (handleAttack input) (tables,[]) = some ideal →
    Isolated tables (handleAttacks input tables left (before ++ attack :: after)) ideal := by
  intro always
  have others : ([guesses "203.0.113.9"].foldlM (handleAttack guessed) (noTables,[])).isSome := by decide +kernel
  obtain ⟨ideal,ran⟩ := Option.isSome_iff_exists.mp others
  have isolated := always guessed noTables 9 [guesses "203.0.113.9"] [] (guesses "203.0.113.10") ideal (by decide +kernel)
    (Option.isNone_iff_eq_none.mp (by decide +kernel)) ran
  have lengths : (handleAttacks guessed noTables 9 [guesses "203.0.113.9",guesses "203.0.113.10"]).2.length = 1 ∧
      (handleAttacks guessed noTables 9 [guesses "203.0.113.9",guesses "203.0.113.10"]).1.alerts.length = 0 := by decide +kernel
  have broadcast := congrArg List.length isolated.broadcast
  rw [List.length_map,List.length_drop,List.singleton_append,lengths.1,lengths.2] at broadcast
  cases broadcast

end Tgtc.AttackIsolation
