import Mathlib.Data.List.Nodup
import Tgtc.MirrorRules

/-!
What the enabled rules have in common. Enabling a rule demands a test of its chats and the main chat of the other
enabled rules, and deleting demands that it is disabled.
-/
namespace Tgtc.RuleConsistency
open Runs MirrorRules
open List (mem_append mem_map mem_singleton)

/-- The enabled rules have one main chat, and their chats have been tested. -/
structure Consistent (s : State) : Prop where
  shared : ∀ a ∈ s.rules, ∀ b ∈ s.rules, a.enabled = true → b.enabled = true → a.sourceChatId = b.sourceChatId
  checked : ∀ a ∈ s.rules, a.enabled = true → a.checked = some a.chats

/-- An update of an enabled rule leaves its chats as they are, or is refused. -/
def Keeps (s : State) : Label → Prop
  | .update id input accounts => ∀ rule ∈ s.getRuleById id, rule.enabled = true →
      validateShape accounts (rule.assign input) = .ok () → (rule.assign input).chats = rule.chats
  | _ => True

instance (s : State) (l : Label) : Decidable (Keeps s l) := by
  cases l <;> unfold Keeps <;> infer_instance

abbrev Reached : State → Prop := Reachable step Keeps .start

theorem dropWhile_rdropWhile {α : Type} (p : α → Bool) (xs : List α) :
    ((xs.dropWhile p).rdropWhile p).dropWhile p = (xs.dropWhile p).rdropWhile p := by
  rw [List.dropWhile_eq_self_iff]
  intro long
  have begins : (xs.dropWhile p).rdropWhile p <+: xs.dropWhile p := List.rdropWhile_prefix p _
  have nonempty : 0 < (xs.dropWhile p).length := Nat.lt_of_lt_of_le long begins.length_le
  have head : ((xs.dropWhile p).rdropWhile p)[0] = (xs.dropWhile p)[0] := begins.getElem long
  rw [head]
  exact List.dropWhile_get_zero_not p xs nonempty

theorem trim_trim (text : String) : trim (trim text) = trim text := by
  unfold trim
  rw [String.toList_ofList,dropWhile_rdropWhile,List.rdropWhile_idempotent]

theorem trim_empty : trim "" = "" := by decide +kernel

theorem trim_given {text : Option String} {before : String} (trimmed : trim before = before) :
    trim ((text.map trim).getD before) = (text.map trim).getD before := by
  cases text with
  | none => exact trimmed
  | some text => exact trim_trim text

theorem valid_source {accounts : Accounts} {rule : Rule} (valid : validateShape accounts rule = .ok ()) :
    trim rule.sourceChatId ≠ "" := by
  intro empty
  unfold validateShape at valid
  by_cases nameless : trim rule.name = ""
  · rw [if_pos nameless] at valid
    cases valid
  · rw [if_neg nameless,if_pos empty] at valid
    cases valid

theorem shared_of_foreign {rules : List Rule} {rule other : Rule} (none_foreign : foreign rules rule = [])
    (member : other ∈ rules) (enabled : other.enabled = true) (different : other.id ≠ rule.id) (some_chat : trim other.sourceChatId ≠ "") :
    trim other.sourceChatId = trim rule.sourceChatId := by
  by_contra apart
  have among : trim other.sourceChatId ∈ foreign rules rule := by
    unfold foreign
    simp only [List.mem_eraseDups,List.mem_filter,mem_map,decide_eq_true_eq,Bool.and_eq_true]
    exact ⟨⟨⟨other,⟨member,enabled,different⟩,rfl⟩,some_chat⟩,apart⟩
  rw [none_foreign] at among
  cases among

theorem enabling_ok {s : State} {rule : Rule} {accounts : Accounts} (permitted : enabling s rule accounts = .ok ()) :
    rule.lastTestStatus = .ok ∧ foreign s.rules rule = [] := by
  unfold enabling at permitted
  cases valid : validateShape accounts rule with
  | error refusal =>
    rw [valid] at permitted
    cases permitted
  | ok _ =>
    rw [valid] at permitted
    by_cases tested : rule.lastTestStatus = .ok
    · refine ⟨tested,?_⟩
      by_contra conflict
      have refused : assertMainChatShared s.rules rule ≠ .ok () := by
        unfold assertMainChatShared
        rw [if_neg conflict]
        exact nofun
      exact refused (by simpa [tested,bind,Except.bind] using permitted)
    · simp [tested,bind,Except.bind] at permitted

structure Inv (s : State) : Prop where
  ids : (s.rules.map Rule.id).Nodup
  known : ∀ rule ∈ s.rules, rule.id < s.nextId
  trimmed : ∀ rule ∈ s.rules, trim rule.sourceChatId = rule.sourceChatId ∧ rule.sourceChatId ≠ ""
  tested : ∀ rule ∈ s.rules, rule.lastTestStatus = .ok → rule.checked = some rule.chats
  consistent : Consistent s

section
variable {s : State} {rule saved : Rule}

theorem found_rule {id : Nat} (found : s.getRuleById id = some rule) : rule ∈ s.rules ∧ rule.id = id :=
  ⟨List.mem_of_find?_eq_some found,by simpa using List.find?_some found⟩

theorem mem_save {other : Rule} (member : other ∈ (s.save saved).rules) : other = saved ∨ other ∈ s.rules ∧ other.id ≠ saved.id := by
  obtain ⟨before,known,rfl⟩ := mem_map.mp member
  by_cases here : before.id = saved.id
  · rw [if_pos here]
    exact .inl rfl
  · rw [if_neg here]
    exact .inr ⟨known,here⟩

theorem saved_mem (member : rule ∈ s.rules) (same : rule.id = saved.id) : saved ∈ (s.save saved).rules :=
  mem_map.mpr ⟨rule,member,if_pos same⟩

theorem inv_save (inv : Inv s) (member : rule ∈ s.rules) (same : saved.id = rule.id)
    (trimmed : trim saved.sourceChatId = saved.sourceChatId ∧ saved.sourceChatId ≠ "")
    (tested : saved.lastTestStatus = .ok → saved.checked = some saved.chats)
    (enabled : saved.enabled = true → saved.checked = some saved.chats ∧
      ∀ other ∈ s.rules, other.id ≠ rule.id → other.enabled = true → other.sourceChatId = saved.sourceChatId) :
    Inv (s.save saved) := by
  have ids : (s.save saved).rules.map Rule.id = s.rules.map Rule.id := by
    unfold State.save
    rw [List.map_map]
    refine List.map_congr_left fun other _ => ?_
    show (if other.id = saved.id then saved else other).id = other.id
    split
    · next here => exact here.symm
    · rfl
  refine ⟨by rw [ids]; exact inv.ids,fun other among => ?_,fun other among => ?_,fun other among => ?_,⟨fun a first b second on on' => ?_,
    fun a among on => ?_⟩⟩
  · rcases mem_save among with rfl | ⟨known,_⟩
    · rw [same]
      exact inv.known rule member
    · exact inv.known other known
  · rcases mem_save among with rfl | ⟨known,_⟩
    · exact trimmed
    · exact inv.trimmed other known
  · rcases mem_save among with rfl | ⟨known,_⟩
    · exact tested
    · exact inv.tested other known
  · rcases mem_save first with rfl | ⟨known,apart⟩
    · rcases mem_save second with rfl | ⟨known',apart'⟩
      · rfl
      · exact ((enabled on).2 b known' (same ▸ apart') on').symm
    · rcases mem_save second with rfl | ⟨known',_⟩
      · exact (enabled on').2 a known (same ▸ apart) on
      · exact inv.consistent.shared a known b known' on on'
  · rcases mem_save among with rfl | ⟨known,_⟩
    · exact (enabled on).1
    · exact inv.consistent.checked a known on

theorem inv_create (inv : Inv s) (input : RuleInput) (accounts : Accounts) : Inv (create s input accounts).1 := by
  unfold create
  dsimp only
  cases valid : validateShape accounts ((fresh s.nextId).assign input) with
  | error refusal => exact inv
  | ok _ =>
    have shaped : ((fresh s.nextId).assign input).forget input = { (fresh s.nextId).assign input with } := by
      unfold Rule.forget
      split <;> rfl
    have trimmed : trim ((fresh s.nextId).assign input).sourceChatId = ((fresh s.nextId).assign input).sourceChatId :=
      trim_given trim_empty
    rw [shaped]
    refine ⟨?_,fun other among => ?_,fun other among => ?_,fun other among => ?_,⟨fun a first b second on on' => ?_,fun a among on => ?_⟩⟩
    · rw [List.map_append]
      refine List.nodup_append.mpr ⟨inv.ids,List.nodup_singleton _,fun id old id' new => ?_⟩
      obtain ⟨other,known,rfl⟩ := mem_map.mp old
      rw [List.map_singleton,mem_singleton] at new
      rw [new]
      exact Nat.ne_of_lt (inv.known other known)
    · rcases mem_append.mp among with known | new
      · exact Nat.lt_succ_of_lt (inv.known other known)
      · rw [mem_singleton.mp new]
        exact Nat.lt_succ_self _
    · rcases mem_append.mp among with known | new
      · exact inv.trimmed other known
      · rw [mem_singleton.mp new]
        exact ⟨trimmed,trimmed ▸ valid_source valid⟩
    · rcases mem_append.mp among with known | new
      · exact inv.tested other known
      · rw [mem_singleton.mp new]
        exact nofun
    · rcases mem_append.mp first with known | new
      · rcases mem_append.mp second with known' | new'
        · exact inv.consistent.shared a known b known' on on'
        · rw [mem_singleton.mp new'] at on'
          cases on'
      · rw [mem_singleton.mp new] at on
        cases on
    · rcases mem_append.mp among with known | new
      · exact inv.consistent.checked a known on
      · rw [mem_singleton.mp new] at on
        cases on

theorem forget_frame (rule : Rule) (input : RuleInput) : (rule.forget input).id = rule.id ∧ (rule.forget input).enabled = rule.enabled ∧
    (rule.forget input).chats = rule.chats ∧ (rule.forget input).checked = rule.checked := by
  unfold Rule.forget
  split <;> exact ⟨rfl,rfl,rfl,rfl⟩

theorem forget_ok {input : RuleInput} (tested : ((rule.assign input).forget input).lastTestStatus = .ok) :
    rule.lastTestStatus = .ok ∧ (rule.assign input).chats = rule.chats := by
  unfold Rule.forget at tested
  split at tested
  · cases tested
  next unchanged =>
  rw [Bool.or_eq_true,not_or,Option.not_isSome_iff_eq_none,Option.not_isSome_iff_eq_none] at unchanged
  refine ⟨tested,?_⟩
  unfold Rule.chats Rule.assign
  rw [unchanged.1,unchanged.2]
  rfl

theorem inv_update (inv : Inv s) {id : Nat} {input : RuleInput} {accounts : Accounts} (found : s.getRuleById id = some rule)
    (valid : validateShape accounts (rule.assign input) = .ok ())
    (keeps : rule.enabled = true → (rule.assign input).chats = rule.chats) :
    Inv (s.save ((rule.assign input).forget input)) := by
  obtain ⟨member,_⟩ := found_rule found
  obtain ⟨same,enabled,chats,checked⟩ := forget_frame (rule.assign input) input
  have source : ((rule.assign input).forget input).sourceChatId = (rule.assign input).sourceChatId := congrArg Prod.fst chats
  have trimmed : trim (rule.assign input).sourceChatId = (rule.assign input).sourceChatId := trim_given (inv.trimmed rule member).1
  refine inv_save inv member same ?_ (fun tested => ?_) fun on => ?_
  · rw [source]
    exact ⟨trimmed,trimmed ▸ valid_source valid⟩
  · obtain ⟨before,unchanged⟩ := forget_ok tested
    rw [chats,checked,unchanged]
    exact inv.tested rule member before
  · have on' : rule.enabled = true := enabled.symm.trans on
    have unchanged := keeps on'
    rw [chats,checked,source,unchanged,show (rule.assign input).sourceChatId = rule.sourceChatId from congrArg Prod.fst unchanged]
    exact ⟨inv.consistent.checked rule member on',fun other among _ others => inv.consistent.shared other among rule member others on'⟩

theorem inv_setEnabled (inv : Inv s) (id : Nat) (enabled : Bool) (accounts : Accounts) : Inv (setEnabled s id enabled accounts).1 := by
  unfold setEnabled
  cases found : s.getRuleById id with
  | none => exact inv
  | some rule =>
    obtain ⟨member,_⟩ := found_rule found
    dsimp only
    cases permitted : (if enabled then enabling s rule accounts else .ok ()) with
    | error refusal => exact inv
    | ok _ =>
      refine inv_save inv member rfl (inv.trimmed rule member) (inv.tested rule member) fun on => ?_
      rw [if_pos (show enabled = true from on)] at permitted
      obtain ⟨tested,none_foreign⟩ := enabling_ok permitted
      refine ⟨inv.tested rule member tested,fun other among apart others => ?_⟩
      obtain ⟨theirs,some_chat⟩ := inv.trimmed other among
      have same := shared_of_foreign none_foreign among others apart (by rw [theirs]; exact some_chat)
      rw [theirs,(inv.trimmed rule member).1] at same
      exact same

theorem inv_test (inv : Inv s) (id : Nat) (accounts : Accounts) (probe : Probe) : Inv (testRule s id accounts probe).1 := by
  unfold testRule
  cases found : s.getRuleById id with
  | none => exact inv
  | some rule =>
    obtain ⟨member,_⟩ := found_rule found
    dsimp only
    cases validateShape accounts rule with
    | error refusal => exact inv
    | ok _ =>
      refine inv_save inv member rfl (inv.trimmed rule member) (fun tested => if_pos tested) fun on => ⟨?_,fun other among _ others =>
        inv.consistent.shared other among rule member others on⟩
      split
      · rfl
      · exact inv.consistent.checked rule member on

theorem inv_remove (inv : Inv s) (id pending : Nat) : Inv (removeRule s id pending).1 := by
  unfold removeRule
  cases found : s.getRuleById id with
  | none => exact inv
  | some rule =>
    dsimp only
    split
    · exact inv
    split
    · exact inv
    have left_rule : ∀ other ∈ s.rules.filter (fun other => other.id ≠ id), other ∈ s.rules := fun _ member =>
      (List.mem_filter.mp member).1
    exact ⟨inv.ids.sublist (List.filter_sublist.map _),fun other among => inv.known other (left_rule other among),
      fun other among => inv.trimmed other (left_rule other among),fun other among => inv.tested other (left_rule other among),
      ⟨fun a first b second => inv.consistent.shared a (left_rule a first) b (left_rule b second),
        fun a among => inv.consistent.checked a (left_rule a among)⟩⟩

theorem inv_step (inv : Inv s) {l : Label} (keeps : Keeps s l) : Inv (step s l) := by
  cases l with
  | create input accounts => exact inv_create inv input accounts
  | update id input accounts =>
    show Inv (updateRule s id input accounts).1
    unfold updateRule
    cases found : s.getRuleById id with
    | none => exact inv
    | some rule =>
      dsimp only
      cases valid : validateShape accounts (rule.assign input) with
      | error refusal => exact inv
      | ok _ => exact inv_update inv found valid fun on => keeps rule found on valid
  | remove id pending => exact inv_remove inv id pending
  | setEnabled id enabled accounts => exact inv_setEnabled inv id enabled accounts
  | test id accounts probe => exact inv_test inv id accounts probe

theorem keeps_of_consistent (inv : Inv s) {l : Label} (after : Consistent (step s l)) : Keeps s l := by
  cases l with
  | create | remove | setEnabled | test => trivial
  | update id input accounts =>
    intro rule found on valid
    obtain ⟨member,_⟩ := found_rule found
    obtain ⟨same,enabled,chats,checked⟩ := forget_frame (rule.assign input) input
    have saved : step s (.update id input accounts) = s.save ((rule.assign input).forget input) := by
      show (updateRule s id input accounts).1 = _
      unfold updateRule
      rw [found]
      dsimp only
      rw [valid]
    rw [saved] at after
    have there := after.checked _ (saved_mem member same.symm) (enabled.trans on)
    rw [chats,checked] at there
    exact (Option.some.inj ((inv.consistent.checked rule member on).symm.trans there)).symm

theorem inv_start : Inv .start := by
  have none (rule : Rule) : rule ∉ State.start.rules := List.not_mem_nil
  exact ⟨List.nodup_nil,fun rule member => absurd member (none rule),fun rule member => absurd member (none rule),
    fun rule member => absurd member (none rule),fun rule member => absurd member (none rule),fun rule member => absurd member (none rule)⟩

end

/-- The rules are consistent, and an update of the chats of an enabled rule is what ends this. -/
theorem rules_consistent {s : State} (reach : Reached s) : Consistent s ∧ ∀ l, Consistent (step s l) ↔ Keeps s l := by
  have inv : Inv s := reachable_invariant inv_start (fun _ _ inv keeps => inv_step inv keeps) reach
  exact ⟨inv.consistent,fun l => ⟨keeps_of_consistent inv,fun keeps => (inv_step inv keeps).consistent⟩⟩

def noAccounts : Accounts := ⟨[],fun _ => none⟩

def allowed : Probe := ⟨some "1001",fun _ => .ok ⟨some "chat",some "supergroup"⟩,.unavailable⟩

def given (source target : String) : RuleInput := ⟨some "rule",some source,some target,none,none,none⟩

def setUp : List Label :=
  [.create (given "-100 " "-201") noAccounts,.create (given "-100" "-202") noAccounts,.test 0 noAccounts allowed,
    .test 1 noAccounts allowed,.setEnabled 0 true noAccounts,.setEnabled 1 true noAccounts,
    .update 0 ⟨some "first",none,none,none,none,none⟩ noAccounts]

theorem rules_consistent_setUp :
    (Consistent (setUp.foldl step .start) ∧ ∀ l, Consistent (step (setUp.foldl step .start) l) ↔ Keeps (setUp.foldl step .start) l) ∧
      (setUp.foldl step .start).rules.map (fun rule => (rule.name,rule.enabled,rule.sourceChatId)) =
        [("first",true,"-100"),("rule",true,"-100")] :=
  ⟨rules_consistent (reachable_run .start setUp (by decide +kernel)),by decide +kernel⟩

def rerouted : List Label := setUp ++ [Label.update 0 ⟨none,some "-900",none,none,none,none⟩ noAccounts]

theorem another_main_chat : ¬ ∀ s : State, Reachable step (fun _ _ => True) .start s → Consistent s := by
  intro always
  have shared := (always _ (reachable_run .start rerouted (by decide +kernel))).shared
  revert shared
  decide +kernel

end Tgtc.RuleConsistency
