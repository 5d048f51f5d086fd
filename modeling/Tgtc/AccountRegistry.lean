import Tgtc.AccountPool

/-!
One account for one Bot. The environment is read with the first of each id, the panel with the last of each id, and
what the panel brings is compared with the tokens of the environment only.
-/
namespace Tgtc.AccountRegistry
open Maps AccountPool

/-- The registry after refreshes; `none` is one that brings no accounts, since there is no source or it fails. -/
def registry (env : Environment) (results : List (Option (List Config))) : Pool :=
  results.foldl (fun p result => match result with
    | some configs => p.refresh configs
    | none => p) (boot env)

structure Proper (env : Environment) (p : Pool) : Prop where
  tokens : ∀ id id' c c', p.config id = some c → p.config id' = some c' → c.token = c'.token → id = id'
  environment : ∀ id r, (boot env).runtime id = some r → p.runtime id = some r
  primary : ∀ id id' c c', p.config id = some c → p.config id' = some c' → c.primary = true → c'.primary = true → id = id'

def accountsOf (env : Environment) : List Config :=
  if env.accountPool.configs ≠ [] then env.accountPool.configs else env.tokenConfigs

def First (configs : List Config) (c : Config) : Prop := configs.find? (·.id = c.id) = some c

structure Separate (env : Environment) : Prop where
  tokens : ∀ a b, First (accountsOf env) a → First (accountsOf env) b → a.token = b.token → a.id = b.id
  primary : ∀ a b, First (accountsOf env) a → First (accountsOf env) b →
    a.primary = true → b.primary = true → a.id = b.id
  /-- an account that says it is the main Bot is the main Bot, unless there is no place for that one -/
  main : ∀ main, env.mainBot = some main → ∀ a, First (accountsOf env) a → a.primary = true →
    a.token = main.token ∨
    (∀ c, First (accountsOf env) c → c.token ≠ main.token) ∧ ∃ c, First (accountsOf env) c ∧ c.id = main.id

/-- The last account of its id among those that the environment leaves to the panel. -/
def Offered (env : Environment) (configs : List Config) (c : Config) : Prop :=
  (configs.filter (·.token ∉ (boot env).envTokens)).reverse.find? (·.id = c.id) = some c ∧ (boot env).config c.id = none

def PanelSeparate (env : Environment) (configs : List Config) : Prop :=
  ∀ a b, Offered env configs a → Offered env configs b → a.token = b.token → a.id = b.id

section
variable {env : Environment}

theorem dedupe_fold (configs : List Config) (seen : List String) (out : List Config)
    (same : ∀ id, id ∈ seen ↔ id ∈ out.map Config.id) (distinct : (out.map Config.id).Nodup) :
    let result := (configs.foldl (fun (seen,out) config =>
      if config.id ∈ seen then (seen,out) else (config.id :: seen,out ++ [config])) (seen,out)).2
    (result.map Config.id).Nodup ∧ ∀ id, result.find? (·.id = id) = (out ++ configs).find? (·.id = id) := by
  induction configs generalizing seen out with
  | nil => exact ⟨distinct,fun id => by simp⟩
  | cons c rest ih =>
    simp only [List.foldl_cons]
    by_cases known : c.id ∈ seen
    · rw [if_pos known]
      obtain ⟨nodup,found⟩ := ih seen out same distinct
      refine ⟨nodup,fun id => (found id).trans ?_⟩
      obtain ⟨c',member,name⟩ := List.mem_map.mp ((same c.id).mp known)
      by_cases here : c.id = id
      · have there : (out.find? (·.id = id)).isSome := by
          rw [List.find?_isSome]
          exact ⟨c',member,by simp [name,here]⟩
        obtain ⟨x,first⟩ := Option.isSome_iff_exists.mp there
        simp [first]
      · simp [here]
    · rw [if_neg known]
      have fresh : c.id ∉ out.map Config.id := fun inside => known ((same c.id).mpr inside)
      obtain ⟨nodup,found⟩ := ih (c.id :: seen) (out ++ [c]) (fun id => by simp [same id,or_comm]) (by
        rw [List.map_append]
        exact distinct.append (List.nodup_singleton _) (by simpa using fresh))
      exact ⟨nodup,fun id => by simpa using found id⟩

theorem dedupe_distinct (configs : List Config) : ((dedupe configs).map Config.id).Nodup :=
  (dedupe_fold configs [] [] (by simp) (by simp)).1

theorem dedupe_find (configs : List Config) (id : String) :
    (dedupe configs).find? (·.id = id) = configs.find? (·.id = id) :=
  (dedupe_fold configs [] [] (by simp) (by simp)).2 id

variable {c : Config} {p : Pool} {a : Config} {r : Runtime}

theorem find_of_mem {configs : List Config} (distinct : (configs.map Config.id).Nodup) (member : c ∈ configs) :
    configs.find? (·.id = c.id) = some c := by
  have there : (configs.find? (·.id = c.id)).isSome := by
    rw [List.find?_isSome]
    exact ⟨c,member,by simp⟩
  obtain ⟨x,first⟩ := Option.isSome_iff_exists.mp there
  have name : x.id = c.id := by simpa using List.find?_some first
  rw [first,List.inj_on_of_nodup_map distinct (List.mem_of_find?_eq_some first) member name]

theorem loadExplicitConfigs_eq (env : Environment) : loadExplicitConfigs env = dedupe (accountsOf env) := by
  unfold loadExplicitConfigs accountsOf
  split_ifs with items tokens
  · rfl
  · rfl
  · rw [not_ne_iff.mp tokens]
    rfl

theorem explicit_distinct (env : Environment) : ((loadExplicitConfigs env).map Config.id).Nodup := by
  rw [loadExplicitConfigs_eq]
  exact dedupe_distinct _

theorem mem_explicit : c ∈ loadExplicitConfigs env ↔ First (accountsOf env) c := by
  rw [loadExplicitConfigs_eq,First,← dedupe_find]
  exact ⟨find_of_mem (dedupe_distinct _),List.mem_of_find?_eq_some⟩

theorem normalizeConfig_some {raw : Raw} (found : normalizeConfig raw = some c) :
    c.source = .env ∧ c.primary = raw.primary := by
  unfold normalizeConfig at found
  dsimp only at found
  split_ifs at found
  injection found with equal
  rw [← equal]
  exact ⟨rfl,rfl⟩

theorem mainBot_primary {main : Config} (found : env.mainBot = some main) : main.primary = true :=
  (normalizeConfig_some found).2

inductive WithMain (env : Environment) (configs : List Config) : List Config → Prop
  | none (no : env.mainBot = none) : WithMain env configs configs
  | marked {main : Config} {i : Nat} {m : Config} (bot : env.mainBot = some main) (found : configs[i]? = some m)
      (token : m.token = main.token) : WithMain env configs (configs.set i { m with primary := true })
  | taken {main c : Config} (bot : env.mainBot = some main) (other : ∀ c ∈ configs, c.token ≠ main.token)
      (member : c ∈ configs) (name : c.id = main.id) : WithMain env configs configs
  | added {main : Config} (bot : env.mainBot = some main) (other : ∀ c ∈ configs, c.token ≠ main.token)
      (free : ∀ c ∈ configs, c.id ≠ main.id) : WithMain env configs (configs ++ [main])

theorem withPrimaryBot_cases (env : Environment) (configs : List Config) : WithMain env configs (withPrimaryBot env configs) := by
  unfold withPrimaryBot
  split
  · next no => exact .none no
  next main bot =>
  split_ifs with known taken
  · have bound : configs.findIdx (·.token = main.token) < configs.length := by
      simpa using known
    have token := List.findIdx_getElem (w := bound)
    have found := List.getElem?_eq_getElem bound
    rw [List.modify_eq_set_getElem?,found]
    exact .marked bot found (by simpa using token)
  · obtain ⟨c,member,name⟩ := List.any_eq_true.mp taken
    exact .taken bot (by simpa using known) member (by simpa using name)
  · exact .added bot (by simpa using known) (by simpa using taken)

def SameBot (a c : Config) : Prop := a.id = c.id ∧ a.token = c.token ∧ a.source = c.source

theorem marked_back {configs : List Config} {i : Nat} {m : Config} (found : configs[i]? = some m)
    (member : c ∈ configs.set i { m with primary := true }) :
    ∃ a ∈ configs, SameBot a c ∧ (c.primary = true → a.primary = true ∨ a.id = m.id) := by
  rcases List.mem_or_eq_of_mem_set member with old | rfl
  · exact ⟨c,old,⟨rfl,rfl,rfl⟩,.inl⟩
  · exact ⟨m,List.mem_of_getElem? found,⟨rfl,rfl,rfl⟩,fun _ => .inr rfl⟩

theorem marked_forth {configs : List Config} {i : Nat} {m : Config} (found : configs[i]? = some m) (member : a ∈ configs) :
    ∃ c ∈ configs.set i { m with primary := true }, SameBot a c ∧ (a.primary = true ∨ a = m → c.primary = true) := by
  obtain ⟨n,there⟩ := List.mem_iff_getElem?.mp member
  by_cases here : n = i
  · subst here
    cases found.symm.trans there
    exact ⟨_,List.mem_of_getElem? (at_set found),⟨rfl,rfl,rfl⟩,fun _ => rfl⟩
  · by_cases same : a = m
    · subst same
      exact ⟨_,List.mem_of_getElem? (at_set found),⟨rfl,rfl,rfl⟩,fun _ => rfl⟩
    · refine ⟨a,?_,⟨rfl,rfl,rfl⟩,fun flag => flag.resolve_right same⟩
      exact List.mem_of_getElem? ((List.getElem?_set_ne (Ne.symm here)).trans there)

def OneEach (configs : List Config) : Prop := ∀ a ∈ configs, ∀ b ∈ configs, a.token = b.token → a.id = b.id

def OnePrimary (configs : List Config) : Prop :=
  ∀ a ∈ configs, ∀ b ∈ configs, a.primary = true → b.primary = true → a.id = b.id

variable {configs configs' : List Config}

theorem withMain_oneEach (after : WithMain env configs configs') : OneEach configs' ↔ OneEach configs := by
  cases after with
  | none | taken => exact Iff.rfl
  | marked bot found token =>
    constructor
    · intro each a member b member' same
      obtain ⟨c,inside,⟨name,tok,_⟩,_⟩ := marked_forth found member
      obtain ⟨c',inside',⟨name',tok',_⟩,_⟩ := marked_forth found member'
      rw [name,name']
      exact each c inside c' inside' (tok.symm.trans (same.trans tok'))
    · intro each c member c' member' same
      obtain ⟨a,inside,⟨name,tok,_⟩,_⟩ := marked_back found member
      obtain ⟨b,inside',⟨name',tok',_⟩,_⟩ := marked_back found member'
      rw [← name,← name']
      exact each a inside b inside' (tok.trans (same.trans tok'.symm))
  | @added main bot other free =>
    constructor
    · exact fun each a member b member' => each a (List.mem_append_left _ member) b (List.mem_append_left _ member')
    · intro each a member b member' same
      rw [List.mem_append,List.mem_singleton] at member member'
      rcases member with member | rfl
      · rcases member' with member' | rfl
        · exact each a member b member' same
        · exact absurd same (other a member)
      · rcases member' with member' | rfl
        · exact absurd same.symm (other b member')
        · rfl

/-- An account that says it is the main Bot is the main Bot, unless there is no place for that one. -/
def MainOnly (env : Environment) (configs : List Config) : Prop :=
  ∀ main, env.mainBot = some main → ∀ a ∈ configs, a.primary = true →
    a.token = main.token ∨ (∀ c ∈ configs, c.token ≠ main.token) ∧ ∃ c ∈ configs, c.id = main.id

theorem withMain_onePrimary (after : WithMain env configs configs') (each : OneEach configs)
    (distinct : (configs.map Config.id).Nodup) :
    OnePrimary configs' ↔ OnePrimary configs ∧ MainOnly env configs := by
  cases after with
  | none no =>
    refine ⟨fun one => ⟨one,fun main bot => ?_⟩,And.left⟩
    rw [no] at bot
    cases bot
  | @marked main i m bot found token =>
    have inside_m := List.mem_of_getElem? found
    constructor
    · intro one
      have old : ∀ a ∈ configs, a.primary = true → a.id = m.id := by
        intro a member flag
        obtain ⟨c,inside,⟨name,_⟩,mark⟩ := marked_forth found member
        obtain ⟨c',inside',⟨name',_⟩,mark'⟩ := marked_forth found inside_m
        rw [name,name']
        exact one c inside c' inside' (mark (.inl flag)) (mark' (.inr rfl))
      refine ⟨fun a member b member' flag flag' => (old a member flag).trans (old b member' flag').symm,?_⟩
      intro main' bot' a member flag
      cases bot.symm.trans bot'
      have same : a = m := List.inj_on_of_nodup_map distinct member inside_m (old a member flag)
      exact .inl (same ▸ token)
    · rintro ⟨one,only⟩
      have to_m : ∀ a ∈ configs, a.primary = true → a.id = m.id := by
        intro a member flag
        rcases only main bot a member flag with same | ⟨other,_⟩
        · exact each a member m inside_m (same.trans token.symm)
        · exact absurd token (other m inside_m)
      intro c member c' member' flag flag'
      obtain ⟨a,inside,⟨name,_⟩,back⟩ := marked_back found member
      obtain ⟨b,inside',⟨name',_⟩,back'⟩ := marked_back found member'
      have a_m : a.id = m.id := (back flag).elim (to_m a inside) id
      have b_m : b.id = m.id := (back' flag').elim (to_m b inside') id
      rw [← name,← name',a_m,b_m]
  | @taken main c bot other member name =>
    refine ⟨fun one => ⟨one,fun main' bot' a _ _ => .inr ?_⟩,And.left⟩
    cases bot.symm.trans bot'
    exact ⟨other,c,member,name⟩
  | @added main bot other free =>
    have flag := mainBot_primary bot
    constructor
    · intro one
      have none_of : ∀ a ∈ configs, a.primary ≠ true := by
        intro a member mark
        exact free a member (one a (List.mem_append_left _ member) main (by simp) mark flag)
      refine ⟨fun a member _ _ mark _ => absurd mark (none_of a member),fun _ _ a member mark => ?_⟩
      exact absurd mark (none_of a member)
    · rintro ⟨_,only⟩
      have none_of : ∀ a ∈ configs, a.primary ≠ true := by
        intro a member mark
        rcases only main bot a member mark with same | ⟨_,c,member',name⟩
        · exact other a member same
        · exact free c member' name
      intro a member b member' mark mark'
      rw [List.mem_append,List.mem_singleton] at member member'
      rcases member with member | rfl
      · exact absurd mark (none_of a member)
      · rcases member' with member' | rfl
        · exact absurd mark' (none_of b member')
        · rfl

theorem withMain_distinct (after : WithMain env configs configs') (distinct : (configs.map Config.id).Nodup) :
    (configs'.map Config.id).Nodup := by
  cases after with
  | none | taken => exact distinct
  | @marked main i m bot found token =>
    have same : (configs.set i { m with primary := true }).map Config.id = configs.map Config.id := by
      rw [List.map_set]
      refine List.ext_getElem? fun n => ?_
      by_cases here : i = n
      · subst here
        have there : (configs.map Config.id)[i]? = some m.id := by rw [List.getElem?_map,found]; rfl
        rw [at_set there,there]
      · rw [List.getElem?_set_ne here]
    rw [same]
    exact distinct
  | added bot other free =>
    rw [List.map_append]
    refine distinct.append (List.nodup_singleton _) ?_
    simp only [List.map_cons,List.map_nil,List.disjoint_singleton]
    rintro member
    obtain ⟨c,inside,name⟩ := List.mem_map.mp member
    exact free c inside name

theorem boot_fold (configs : List Config) (distinct : (configs.map Config.id).Nodup) (p : Pool) (id : String) :
    (configs.foldl Pool.add p).runtime id =
      match configs.find? (·.id = id) with
      | some c => some (createRuntime c)
      | none => p.runtime id := by
  induction configs generalizing p with
  | nil => rfl
  | cons c rest ih =>
    obtain ⟨absent,later⟩ := List.nodup_cons.mp distinct
    rw [List.foldl_cons,ih later,runtime_add]
    by_cases here : c.id = id
    · have none_later : rest.find? (·.id = id) = none := by
        rw [List.find?_eq_none]
        intro c' member same
        exact absent (here.trans (by simpa using same : c'.id = id).symm ▸ List.mem_map_of_mem member)
      simp [here,none_later]
    · simp [here,Ne.symm here]

theorem loadConfigs_distinct (env : Environment) : ((loadConfigs env).map Config.id).Nodup :=
  withMain_distinct (withPrimaryBot_cases env _) (explicit_distinct env)

theorem boot_config {id : String} : (boot env).config id = some c ↔ c ∈ loadConfigs env ∧ c.id = id := by
  have distinct := loadConfigs_distinct env
  rw [Pool.config,boot,boot_fold _ distinct]
  constructor
  · intro found
    cases first : (loadConfigs env).find? (·.id = id) with
    | none =>
      rw [first] at found
      cases found
    | some c' =>
      rw [first] at found
      cases found
      have name : c'.id = id := by simpa using List.find?_some first
      exact ⟨List.mem_of_find?_eq_some first,name⟩
  · rintro ⟨member,rfl⟩
    rw [find_of_mem distinct member]
    rfl

theorem accounts_env (first : First (accountsOf env) c) : c.source = .env := by
  have member := List.mem_of_find?_eq_some first
  unfold accountsOf at member
  have items : c ∈ env.accountPool.configs → c.source = .env := by
    intro inside
    unfold PoolSetting.configs at inside
    split at inside
    · cases inside
    · cases inside
    · split_ifs at inside
      · obtain ⟨_,_,found⟩ := List.mem_filterMap.mp inside
        obtain ⟨raw,_,found⟩ := Option.bind_eq_some_iff.mp found
        exact (normalizeConfig_some found).1
      · cases inside
  split_ifs at member
  · exact items member
  · obtain ⟨raw,_,found⟩ := List.mem_filterMap.mp member
    exact (normalizeConfig_some found).1

theorem loadConfigs_env (member : c ∈ loadConfigs env) : c.source = .env := by
  have after := withPrimaryBot_cases env (loadExplicitConfigs env)
  change c ∈ withPrimaryBot env (loadExplicitConfigs env) at member
  generalize withPrimaryBot env (loadExplicitConfigs env) = configs' at after member
  cases after with
  | none | taken => exact accounts_env (mem_explicit.mp member)
  | marked _ found _ =>
    obtain ⟨a,inside,⟨_,_,source⟩,_⟩ := marked_back found member
    exact source ▸ accounts_env (mem_explicit.mp inside)
  | added bot =>
    rw [List.mem_append,List.mem_singleton] at member
    rcases member with member | rfl
    · exact accounts_env (mem_explicit.mp member)
    · exact (normalizeConfig_some bot).1

theorem boot_env {id : String} (found : (boot env).config id = some c) : c.source = .env :=
  loadConfigs_env (boot_config.mp found).1

theorem proper_boot : Proper env (boot env) ↔ Separate env := by
  have after := withPrimaryBot_cases env (loadExplicitConfigs env)
  have each := withMain_oneEach after
  have one := fun tokens => withMain_onePrimary after tokens (explicit_distinct env)
  constructor
  · intro proper
    have tokens : OneEach (loadExplicitConfigs env) := each.mp fun a member b member' =>
      proper.tokens _ _ a b (boot_config.mpr ⟨member,rfl⟩) (boot_config.mpr ⟨member',rfl⟩)
    obtain ⟨primary,main⟩ := (one tokens).mp fun a member b member' =>
      proper.primary _ _ a b (boot_config.mpr ⟨member,rfl⟩) (boot_config.mpr ⟨member',rfl⟩)
    refine ⟨fun a b first first' => tokens a (mem_explicit.mpr first) b (mem_explicit.mpr first'),
      fun a b first first' => primary a (mem_explicit.mpr first) b (mem_explicit.mpr first'),
      fun m bot a first mark => ?_⟩
    rcases main m bot a (mem_explicit.mpr first) mark with same | ⟨other,c,member,name⟩
    · exact .inl same
    · exact .inr ⟨fun c first => other c (mem_explicit.mpr first),c,mem_explicit.mp member,name⟩
  · intro separate
    have tokens : OneEach (loadExplicitConfigs env) := fun a member b member' =>
      separate.tokens a b (mem_explicit.mp member) (mem_explicit.mp member')
    have main : MainOnly env (loadExplicitConfigs env) := by
      intro m bot a member mark
      rcases separate.main m bot a (mem_explicit.mp member) mark with same | ⟨other,c,first,name⟩
      · exact .inl same
      · exact .inr ⟨fun c member => other c (mem_explicit.mp member),c,mem_explicit.mpr first,name⟩
    have primary := (one tokens).mpr ⟨fun a member b member' =>
      separate.primary a b (mem_explicit.mp member) (mem_explicit.mp member'),main⟩
    refine ⟨fun id id' c c' found found' same => ?_,fun _ _ => id,fun id id' c c' found found' mark mark' => ?_⟩
    · obtain ⟨member,rfl⟩ := boot_config.mp found
      obtain ⟨member',rfl⟩ := boot_config.mp found'
      exact each.mpr tokens c member c' member' same
    · obtain ⟨member,rfl⟩ := boot_config.mp found
      obtain ⟨member',rfl⟩ := boot_config.mp found'
      exact primary c member c' member' mark mark'

structure Grown (env : Environment) (p : Pool) : Prop where
  environment : ∀ id r, (boot env).runtime id = some r → p.runtime id = some r
  panel : ∀ id c, p.config id = some c → (boot env).config id = some c ∨
    (boot env).config id = none ∧ c.source = .panel ∧ c.primary = false

theorem sync_env {config : Config} {id : String} (found : p.runtime id = some r)
    (fixed : r.config.source ≠ .panel) : (p.sync config).runtime id = some r := by
  unfold Pool.sync
  split
  · next k existing known existing_found =>
    split_ifs with other
    · exact found
    · rw [runtime_modify,if_neg]
      · exact found
      · intro there
        cases runtimes_injective there known
        cases found.symm.trans existing_found
        exact other fixed
  · next missing =>
    rw [runtime_add,if_neg]
    · exact found
    · rintro rfl
      rw [runtime_none.mpr (unregistered missing)] at found
      cases found

theorem refresh_env {id : String} (found : p.runtime id = some r)
    (fixed : r.config.source ≠ .panel) (configs : List Config) : (p.refresh configs).runtime id = some r := by
  have syncs : ∀ (entries : List (String × Config)) (p : Pool), p.runtime id = some r →
      (entries.foldl (fun p e => p.sync e.2) p).runtime id = some r := by
    intro entries
    induction entries with
    | nil => exact fun _ found => found
    | cons e rest ih => exact fun p found => ih _ (sync_env found fixed)
  refine syncs _ _ ?_
  obtain ⟨k,known,there⟩ := runtime_some.mp found
  rw [runtime_keep,known]
  simp [Option.filter_some,there,fixed]

theorem boot_config_of {id : String} (found : (boot env).runtime id = some r) :
    (boot env).config id = some r.config := by
  rw [Pool.config,found]
  rfl

theorem grown_tokens (grown : Grown env p) (token : String) :
    token ∈ p.envTokens ↔ token ∈ (boot env).envTokens := by
  rw [mem_envTokens,mem_envTokens]
  constructor
  · rintro ⟨id,c,found,fixed,rfl⟩
    rcases grown.panel id c found with there | ⟨_,panel,_⟩
    · exact ⟨id,c,there,fixed,rfl⟩
    · exact absurd panel fixed
  · rintro ⟨id,c,found,fixed,rfl⟩
    obtain ⟨r,known,rfl⟩ := Option.map_eq_some_iff.mp found
    exact ⟨id,r.config,by rw [Pool.config,grown.environment id r known]; rfl,fixed,rfl⟩

theorem grown_incoming (grown : Grown env p) (configs : List Config) :
    incoming p.envTokens configs = incoming (boot env).envTokens configs := by
  have same : ∀ c : Config, decide (c.token ∉ p.envTokens) = decide (c.token ∉ (boot env).envTokens) := fun c =>
    decide_eq_decide.mpr (not_congr (grown_tokens grown c.token))
  simp only [incoming,same]

theorem refresh_config (grown : Grown env p) (configs : List Config) {id : String}
    (found : (p.refresh configs).config id = some c) : (boot env).config id = some c ∨
      ∃ a, Offered env configs a ∧ a.id = id ∧ a.token = c.token ∧ c.source = .panel ∧ c.primary = false := by
  have offered : ∀ a, (incoming (boot env).envTokens configs).get id = some a → (boot env).config id = none →
      ∃ b, Offered env configs b ∧ b.id = id ∧ b.token = a.token := by
    intro a come free
    rw [incoming_get] at come
    obtain ⟨b,last,rfl⟩ := Option.map_eq_some_iff.mp come
    have name : b.id = id := by simpa using List.find?_some last
    subst name
    exact ⟨b,⟨last,free⟩,rfl,rfl⟩
  rw [config_refresh,grown_incoming grown] at found
  cases old : p.config id with
  | none =>
    rw [old] at found
    have free : (boot env).config id = none := by
      cases there : (boot env).config id with
      | none => rfl
      | some c' =>
        obtain ⟨r,known,_⟩ := Option.map_eq_some_iff.mp there
        rw [Pool.config,grown.environment id r known] at old
        cases old
    obtain ⟨_,source,primary,_⟩ := incoming_panel found
    obtain ⟨b,here,name,token⟩ := offered c found free
    exact .inr ⟨b,here,name,token,source,primary⟩
  | some existing =>
    rw [old] at found
    dsimp only at found
    rcases grown.panel id existing old with there | ⟨free,panel,_⟩
    · have fixed : existing.source ≠ .panel := by rw [boot_env there]; decide
      rw [if_pos fixed] at found
      cases found
      exact .inl there
    · rw [if_neg (not_not.mpr panel)] at found
      obtain ⟨a,come,rfl⟩ := Option.map_eq_some_iff.mp found
      obtain ⟨_,source,primary,_⟩ := incoming_panel come
      obtain ⟨b,here,name,token⟩ := offered a come free
      exact .inr ⟨b,here,name,token,source,primary⟩

theorem refresh_offered (grown : Grown env p) (configs : List Config) (offered : Offered env configs a) :
    ∃ c, (p.refresh configs).config a.id = some c ∧ c.token = a.token := by
  obtain ⟨last,free⟩ := offered
  have come : (incoming p.envTokens configs).get a.id = some (asPanel a) := by
    rw [grown_incoming grown,incoming_get,last]
    rfl
  rw [config_refresh,come]
  cases old : p.config a.id with
  | none => exact ⟨_,rfl,rfl⟩
  | some existing =>
    rcases grown.panel a.id existing old with there | ⟨_,panel,_⟩
    · rw [free] at there
      cases there
    · dsimp only
      rw [if_neg (not_not.mpr panel)]
      exact ⟨_,rfl,rfl⟩

theorem grown_boot (env : Environment) : Grown env (boot env) := ⟨fun _ _ => id,fun _ _ => .inl⟩

theorem grown_refresh (grown : Grown env p) (configs : List Config) : Grown env (p.refresh configs) := by
  constructor
  · intro id r found
    refine refresh_env (grown.environment id r found) ?_ configs
    rw [boot_env (boot_config_of found)]
    decide
  · intro id c found
    rcases refresh_config grown configs found with there | ⟨a,⟨_,free⟩,rfl,_,source,primary⟩
    · exact .inl there
    · exact .inr ⟨free,source,primary⟩

theorem offered_token {configs : List Config} {id : String} (offered : Offered env configs a)
    (there : (boot env).config id = some c) : a.token ≠ c.token := by
  intro same
  have passes := List.mem_of_find?_eq_some offered.1
  rw [List.mem_reverse,List.mem_filter] at passes
  have out : a.token ∉ (boot env).envTokens := by simpa using passes.2
  refine out ((mem_envTokens _).mpr ⟨id,c,there,?_,same.symm⟩)
  rw [boot_env there]
  decide

theorem proper_refresh (grown : Grown env p) (separate : Separate env) (configs : List Config)
    (panel : PanelSeparate env configs) : Proper env (p.refresh configs) := by
  have start := proper_boot.mpr separate
  refine ⟨fun id id' c c' found found' same => ?_,(grown_refresh grown configs).environment,
    fun id id' c c' found found' mark mark' => ?_⟩
  · rcases refresh_config grown configs found with there | ⟨a,offered,rfl,token,_⟩
    · rcases refresh_config grown configs found' with there' | ⟨b,offered',rfl,token',_⟩
      · exact start.tokens id id' c c' there there' same
      · exact absurd (token'.trans same.symm) (offered_token offered' there)
    · rcases refresh_config grown configs found' with there' | ⟨b,offered',rfl,token',_⟩
      · exact absurd (token.trans same) (offered_token offered there')
      · exact panel a b offered offered' (token.trans (same.trans token'.symm))
  · rcases refresh_config grown configs found with there | ⟨_,_,_,_,_,primary⟩
    · rcases refresh_config grown configs found' with there' | ⟨_,_,_,_,_,primary⟩
      · exact start.primary id id' c c' there there' mark mark'
      · rw [primary] at mark'
        cases mark'
    · rw [primary] at mark
      cases mark

theorem registry_append (results : List (Option (List Config))) (result : Option (List Config)) :
    registry env (results ++ [result]) = match result with
      | some configs => (registry env results).refresh configs
      | none => registry env results := by
  rw [registry,List.foldl_append]
  rfl

theorem grown_registry (results : List (Option (List Config))) : Grown env (registry env results) := by
  induction results using List.reverseRecOn with
  | nil =>
    rw [registry,List.foldl_nil]
    exact grown_boot env
  | append_singleton results result ih =>
    rw [registry_append]
    cases result with
    | none => exact ih
    | some configs => exact grown_refresh ih configs

theorem proper_registry (separate : Separate env) (results : List (Option (List Config)))
    (panel : ∀ configs, some configs ∈ results → PanelSeparate env configs) : Proper env (registry env results) := by
  induction results using List.reverseRecOn with
  | nil =>
    rw [registry,List.foldl_nil]
    exact proper_boot.mpr separate
  | append_singleton results result ih =>
    rw [registry_append]
    cases result with
    | none => exact ih fun configs member => panel configs (List.mem_append_left _ member)
    | some configs => exact proper_refresh (grown_registry results) separate configs (panel configs (by simp))

/-- There is one account for each Bot, those of the environment stay, and at most one is the main Bot's,
exactly when the lists are without repetitions. -/
theorem one_account_per_bot (env : Environment) (results : List (Option (List Config))) :
    (∀ n, Proper env (registry env (results.take n))) ↔
      Separate env ∧ ∀ configs, some configs ∈ results → PanelSeparate env configs := by
  constructor
  · intro proper
    have start := proper 0
    rw [List.take_zero,registry,List.foldl_nil] at start
    refine ⟨proper_boot.mp start,fun configs member a b offered offered' same => ?_⟩
    obtain ⟨i,there⟩ := List.mem_iff_getElem?.mp member
    have after := proper (i + 1)
    rw [List.take_add_one,there,Option.toList_some,registry_append] at after
    obtain ⟨c,found,token⟩ := refresh_offered (grown_registry (results.take i)) configs offered
    obtain ⟨c',found',token'⟩ := refresh_offered (grown_registry (results.take i)) configs offered'
    exact after.tokens _ _ c c' found found' (token.trans (same.trans token'.symm))
  · rintro ⟨separate,panel⟩ n
    exact proper_registry separate _ fun configs member => panel configs (List.mem_of_mem_take member)

end

/-- A token that the environment names twice is registered twice. -/
theorem token_registered_twice : ¬ ∀ (env : Environment) (results : List (Option (List Config))),
    Proper env (registry env results) := by
  intro always
  have proper := always ⟨.blank,"1:a,1:a","",""⟩ []
  have first : (registry ⟨.blank,"1:a,1:a","",""⟩ []).config "bot1" = some ⟨"bot1","1:a","",16,none,true,.env,false⟩ := by
    decide +kernel
  have second : (registry ⟨.blank,"1:a,1:a","",""⟩ []).config "bot2" = some ⟨"bot2","1:a","",16,none,true,.env,false⟩ := by
    decide +kernel
  have same := proper.tokens _ _ _ _ first second rfl
  exact absurd same (by decide)

end Tgtc.AccountRegistry
