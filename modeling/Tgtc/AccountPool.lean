import Mathlib.Data.List.Induction
import Tgtc.Maps
import Tgtc.Numbers
import Tgtc.UploadWorker

/-!
The accounts of the Bots. Those of the environment are read once, from a list of accounts or a list of tokens together
with the main Bot; those of the panel come with every refresh and go when a refresh does not bring them any more.
-/
namespace Tgtc.AccountPool
open Maps Numbers
open UploadWorker (isWhite)

inductive Source where
  | env | panel
deriving DecidableEq

/-- `TelegramAccountConfig`; weights and notes are left out. -/
structure Config where
  id : String
  token : String
  chatId : String
  maxInflight : Int
  maxLargeInflight : Option Number
  enabled : Bool
  source : Source
  primary : Bool
deriving DecidableEq

structure Raw where
  id : Option String
  token : String
  chatId : String
  maxInflight : Number
  maxLargeInflight : Number
  enabled : Bool
  primary : Bool

def defaultMaxInflight : Int := 16
def largeInflightDefault : Int := 1

def trim (text : String) : String :=
  String.ofList (((text.toList.dropWhile isWhite).reverse.dropWhile isWhite).reverse)

/-- `text || fallback`. -/
def orElse (text fallback : String) : String := if text = "" then fallback else text

def positive (value : Number) : Option Int := value.safeInteger.filter (0 < ·)

def normalizeConfig (raw : Raw) : Option Config :=
  let token := trim raw.token
  if token = "" || !token.toList.contains ':' then none
  else
    let botId := String.ofList (token.toList.takeWhile (· ≠ ':'))
    some {
      id := orElse (trim (raw.id.getD botId)) botId
      token
      chatId := trim raw.chatId
      maxInflight := (positive raw.maxInflight).getD defaultMaxInflight
      maxLargeInflight := (positive raw.maxLargeInflight).map Number.whole
      enabled := raw.enabled
      source := .env
      primary := raw.primary }

def dedupe (configs : List Config) : List Config :=
  (configs.foldl (fun (seen,out) config =>
    if config.id ∈ seen then (seen,out) else (config.id :: seen,out ++ [config]))
    (([] : List String),([] : List Config))).2

/-- `TELEGRAM_ACCOUNT_POOL`. -/
inductive PoolSetting where
  | blank
  | invalid
  /-- the items of an array; `none` where an item has no fields to be read -/
  | items (list : List (Option Raw))

structure Environment where
  accountPool : PoolSetting
  /-- `TELEGRAM_BOT_TOKENS` -/
  botTokens : String
  /-- `TELEGRAM_BOT_TOKEN` -/
  botToken : String
  /-- `TELEGRAM_CHAT_ID` -/
  chatId : String

/-- The accounts of `TELEGRAM_ACCOUNT_POOL`. -/
def PoolSetting.configs : PoolSetting → List Config
  | .blank | .invalid => []
  | .items list =>
    -- reading a field of `null` throws
    if list.all Option.isSome then list.filterMap (·.bind normalizeConfig) else []

def tokensOf (text : String) : List String :=
  ((text.toList.splitOn ',').map (fun item => trim (String.ofList item))).filter (· ≠ "")

def tokenRaw (chatId : String) (token : String) (index : Nat) : Raw :=
  ⟨some ("bot" ++ toString (index + 1)),token,chatId,.nan,.nan,true,false⟩

/-- The accounts of `TELEGRAM_BOT_TOKENS`. -/
def Environment.tokenConfigs (env : Environment) : List Config :=
  ((tokensOf env.botTokens).zipIdx.map (fun (token,index) => tokenRaw (trim env.chatId) token index)).filterMap
    normalizeConfig

def loadExplicitConfigs (env : Environment) : List Config :=
  if env.accountPool.configs ≠ [] then dedupe env.accountPool.configs
  else if env.tokenConfigs ≠ [] then dedupe env.tokenConfigs
  else []

def Environment.mainBot (env : Environment) : Option Config :=
  normalizeConfig ⟨none,env.botToken,trim env.chatId,.nan,.nan,true,true⟩

def withPrimaryBot (env : Environment) (configs : List Config) : List Config :=
  match env.mainBot with
  | none => configs
  | some main =>
    if configs.any (·.token = main.token) then
      configs.modify (configs.findIdx (·.token = main.token)) (fun config => { config with primary := true })
    else if configs.any (·.id = main.id) then configs
    else configs ++ [main]

def loadConfigs (env : Environment) : List Config := withPrimaryBot env (loadExplicitConfigs env)

/-- `TelegramAccountRuntime`; the averages and totals are left out. -/
structure Runtime where
  config : Config
  inflight : Int
  largeInflight : Int
  consecutiveFailures : Nat
  cooldownUntilMs : Int
deriving DecidableEq

def createRuntime (config : Config) : Runtime := ⟨config,0,0,0,0⟩

def maxLargeInflightOf (config : Config) : Int := (config.maxLargeInflight.bind positive).getD largeInflightDefault

structure Pool where
  objects : List Runtime
  runtimes : OrderedMap String Nat
  named : ∀ id k, runtimes.get id = some k → ∃ r, objects[k]? = some r ∧ r.config.id = id

def Pool.empty : Pool := ⟨[],.empty,nofun⟩

def Pool.runtime (p : Pool) (id : String) : Option Runtime := (p.runtimes.get id).bind (p.objects[·]?)

def Pool.config (p : Pool) (id : String) : Option Config := (p.runtime id).map Runtime.config

def Pool.modify (p : Pool) (k : Nat) (f : Runtime → Runtime) (keeps : ∀ r, (f r).config.id = r.config.id) : Pool where
  objects := p.objects.modify k f
  runtimes := p.runtimes
  named id n found := by
    obtain ⟨r,known,name⟩ := p.named id n found
    rw [List.getElem?_modify,known]
    refine ⟨_,rfl,?_⟩
    split_ifs
    · exact (keeps r).trans name
    · exact name

def Pool.add (p : Pool) (config : Config) : Pool where
  objects := p.objects ++ [createRuntime config]
  runtimes := p.runtimes.set config.id p.objects.length
  named id n found := by
    rcases get_of_set found with ⟨rfl,rfl⟩ | ⟨_,known⟩
    · exact ⟨_,List.getElem?_concat_length,rfl⟩
    · obtain ⟨r,there,name⟩ := p.named id n known
      exact ⟨r,by rw [List.getElem?_append_left (at_lt there),there],name⟩

def Pool.keep (p : Pool) (stays : String × Nat → Bool) : Pool where
  objects := p.objects
  runtimes := p.runtimes.filter stays
  named id n found := by
    rw [get_filter,Option.filter_eq_some_iff] at found
    exact p.named id n found.1

def boot (env : Environment) : Pool := (loadConfigs env).foldl Pool.add .empty

def Pool.envTokens (p : Pool) : List String :=
  ((p.runtimes.entries.filterMap (fun e => p.objects[e.2]?)).filter (fun r => r.config.source ≠ .panel)).map
    (·.config.token)

def asPanel (config : Config) : Config := { config with source := .panel, primary := false }

def incoming (envTokens : List String) (configs : List Config) : OrderedMap String Config :=
  (configs.filter (·.token ∉ envTokens)).foldl (fun m config => m.set config.id (asPanel config)) .empty

/-- `{ ...existing, ...config }`, for a configuration of the same id. -/
def Config.merge (existing config : Config) : Config :=
  { config with id := existing.id, maxLargeInflight := config.maxLargeInflight.or existing.maxLargeInflight }

def Runtime.configure (config : Config) (r : Runtime) : Runtime := { r with config := r.config.merge config }

theorem configure_id (config : Config) (r : Runtime) : (r.configure config).config.id = r.config.id := rfl

def Pool.sync (p : Pool) (config : Config) : Pool :=
  match p.runtimes.get config.id, p.runtime config.id with
  | some k, some existing =>
    if existing.config.source ≠ .panel then p
    else p.modify k (.configure config) (configure_id config)
  | _, _ => p.add config

/-- `refreshExternalAccounts`, when the accounts of the panel are there. -/
def Pool.refresh (p : Pool) (configs : List Config) : Pool :=
  let incoming := incoming p.envTokens configs
  let kept := p.keep (fun e => match p.objects[e.2]? with
    | some r => r.config.source ≠ .panel || (incoming.get e.1).isSome
    | none => false)
  incoming.entries.foldl (fun p e => p.sync e.2) kept

section
variable {p : Pool} {id : String} {k : Nat} {r : Runtime}

theorem runtime_some : p.runtime id = some r ↔ ∃ k, p.runtimes.get id = some k ∧ p.objects[k]? = some r := by
  simp [Pool.runtime,Option.bind_eq_some_iff]

theorem runtime_id (found : p.runtime id = some r) : r.config.id = id := by
  obtain ⟨k,known,there⟩ := runtime_some.mp found
  obtain ⟨r',there',name⟩ := p.named id k known
  cases there.symm.trans there'
  exact name

theorem runtimes_injective {id' : String} (here : p.runtimes.get id = some k) (there : p.runtimes.get id' = some k) :
    id = id' := by
  obtain ⟨r,known,name⟩ := p.named id k here
  obtain ⟨r',known',name'⟩ := p.named id' k there
  cases known.symm.trans known'
  exact name.symm.trans name'

theorem runtime_none : p.runtime id = none ↔ p.runtimes.get id = none := by
  constructor
  · intro missing
    cases known : p.runtimes.get id with
    | none => rfl
    | some k =>
      obtain ⟨r,there,_⟩ := p.named id k known
      rw [runtime_some.mpr ⟨k,known,there⟩] at missing
      cases missing
  · intro missing
    simp [Pool.runtime,missing]

theorem unregistered (missing : ∀ k r, p.runtimes.get id = some k → p.runtime id = some r → False) :
    p.runtimes.get id = none := by
  cases known : p.runtimes.get id with
  | none => rfl
  | some k =>
    obtain ⟨r,there,_⟩ := p.named id k known
    exact (missing k r known (runtime_some.mpr ⟨k,known,there⟩)).elim

theorem runtime_modify {f : Runtime → Runtime} {keeps : ∀ r, (f r).config.id = r.config.id} :
    (p.modify k f keeps).runtime id = if p.runtimes.get id = some k then (p.runtime id).map f else p.runtime id := by
  unfold Pool.runtime Pool.modify
  cases known : p.runtimes.get id with
  | none => rfl
  | some n =>
    simp only [Option.bind_some,List.getElem?_modify,Option.some.injEq]
    split_ifs with here there there
    · rfl
    · exact absurd here.symm there
    · exact absurd there.symm here
    · simp

theorem runtime_add {config : Config} :
    (p.add config).runtime id = if id = config.id then some (createRuntime config) else p.runtime id := by
  unfold Pool.runtime Pool.add
  split_ifs with here
  · rw [here,get_set_same,Option.bind_some,List.getElem?_concat_length]
  · rw [get_set_other _ _ here]
    cases known : p.runtimes.get id with
    | none => rfl
    | some n =>
      obtain ⟨r,there,_⟩ := p.named id n known
      exact List.getElem?_append_left (at_lt there)

theorem runtime_keep {stays : String × Nat → Bool} :
    (p.keep stays).runtime id = ((p.runtimes.get id).filter (fun k => stays (id,k))).bind (p.objects[·]?) := by
  rw [Pool.runtime,Pool.keep,get_filter]

def joined (old : Option Config) (config : Config) : Config :=
  match old with
  | some existing => if existing.source ≠ .panel then existing else existing.merge config
  | none => config

theorem config_sync (config : Config) (id : String) :
    (p.sync config).config id = if id = config.id then some (joined (p.config id) config) else p.config id := by
  unfold Pool.sync
  split
  · next k existing known found =>
    have here : p.config config.id = some existing.config := by rw [Pool.config,found]; rfl
    split_ifs with fixed same same
    · rw [same,here,joined,if_pos fixed]
    · rfl
    · rw [same,here,joined,if_neg fixed,Pool.config,runtime_modify,if_pos known,found]
      rfl
    · rw [Pool.config,Pool.config,runtime_modify,if_neg]
      exact fun there => same (runtimes_injective there known)
  · next missing =>
    have absent := unregistered missing
    split_ifs with same
    · rw [same,Pool.config,Pool.config,runtime_add,if_pos rfl,runtime_none.mpr absent]
      rfl
    · rw [Pool.config,Pool.config,runtime_add,if_neg same]

theorem mem_envTokens (token : String) :
    token ∈ p.envTokens ↔ ∃ id c, p.config id = some c ∧ c.source ≠ .panel ∧ c.token = token := by
  simp only [Pool.envTokens,List.mem_map,List.mem_filter,List.mem_filterMap,Pool.config]
  constructor
  · rintro ⟨r,⟨⟨⟨id,k⟩,member,there⟩,fixed⟩,rfl⟩
    have found := runtime_some.mpr ⟨k,(get_eq_some_iff _ _ _).mpr member,there⟩
    exact ⟨id,r.config,by rw [found]; rfl,by simpa using fixed,rfl⟩
  · rintro ⟨id,c,found,fixed,rfl⟩
    obtain ⟨r,known,rfl⟩ := Option.map_eq_some_iff.mp found
    obtain ⟨k,registered,there⟩ := runtime_some.mp known
    exact ⟨r,⟨⟨(id,k),(get_eq_some_iff _ _ _).mp registered,there⟩,by simpa using fixed⟩,rfl⟩

theorem incoming_get (envTokens : List String) (configs : List Config) (id : String) :
    (incoming envTokens configs).get id =
      ((configs.filter (·.token ∉ envTokens)).reverse.find? (·.id = id)).map asPanel := by
  unfold incoming
  induction configs.filter (·.token ∉ envTokens) using List.reverseRecOn with
  | nil => rfl
  | append_singleton rest config ih =>
    rw [List.foldl_append,List.reverse_append,List.reverse_singleton,List.singleton_append]
    simp only [List.foldl_cons,List.foldl_nil]
    by_cases same : config.id = id
    · subst same
      rw [get_set_same]
      simp
    · rw [get_set_other _ _ (Ne.symm same),ih]
      simp [same]

theorem incoming_panel {envTokens : List String} {configs : List Config} {config : Config}
    (found : (incoming envTokens configs).get id = some config) :
    config.id = id ∧ config.source = .panel ∧ config.primary = false ∧ config.token ∉ envTokens := by
  rw [incoming_get] at found
  obtain ⟨c,last,rfl⟩ := Option.map_eq_some_iff.mp found
  have passes := List.mem_of_find?_eq_some last
  rw [List.mem_reverse,List.mem_filter] at passes
  have name : c.id = id := by simpa using List.find?_some last
  have fresh : c.token ∉ envTokens := by simpa using passes.2
  exact ⟨name,rfl,rfl,fresh⟩

theorem config_syncs (entries : List (String × Config)) (distinct : (entries.map Prod.fst).Nodup)
    (names : ∀ e ∈ entries, e.2.id = e.1) (p : Pool) (id : String) :
    (entries.foldl (fun p e => p.sync e.2) p).config id =
      match (entries.find? (fun e => e.1 = id)).map Prod.snd with
      | some config => some (joined (p.config id) config)
      | none => p.config id := by
  induction entries generalizing p with
  | nil => rfl
  | cons e rest ih =>
    obtain ⟨absent,later⟩ := List.nodup_cons.mp distinct
    have name : e.2.id = e.1 := names e (by simp)
    rw [List.foldl_cons,ih later fun e' member => names e' (List.mem_cons_of_mem _ member),config_sync,name]
    by_cases here : e.1 = id
    · have none_later : rest.find? (fun e' => e'.1 = id) = none := by
        rw [List.find?_eq_none]
        intro e' member same
        exact absent (here.trans (by simpa using same : e'.1 = id).symm ▸ List.mem_map_of_mem member)
      simp [here,none_later]
    · simp [here,Ne.symm here]

theorem config_refresh (p : Pool) (configs : List Config) (id : String) :
    (p.refresh configs).config id = match p.config id with
      | some old =>
        if old.source ≠ .panel then some old else ((incoming p.envTokens configs).get id).map old.merge
      | none => (incoming p.envTokens configs).get id := by
  have names : ∀ e ∈ (incoming p.envTokens configs).entries, e.2.id = e.1 := fun e member =>
    (incoming_panel ((get_eq_some_iff _ _ _).mpr member)).1
  rw [Pool.refresh,config_syncs _ (incoming p.envTokens configs).distinct names]
  change (match (incoming p.envTokens configs).get id with | some config => _ | none => _) = _
  simp only [Pool.config,runtime_keep]
  cases known : p.runtimes.get id with
  | none =>
    rw [runtime_none.mpr known]
    cases (incoming p.envTokens configs).get id <;> rfl
  | some k =>
    obtain ⟨r,there,_⟩ := p.named id k known
    rw [runtime_some.mpr ⟨k,known,there⟩]
    by_cases fixed : r.config.source = .panel
    · cases (incoming p.envTokens configs).get id <;> simp [Option.filter_some,there,fixed,joined]
    · cases (incoming p.envTokens configs).get id <;> simp [Option.filter_some,there,fixed,joined]

end
end Tgtc.AccountPool
