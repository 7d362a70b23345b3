import AiSwitch.Adapter.Anthropic
import AiSwitch.Adapter.OpenaiCompatible
import AiSwitch.Db.ConnectionPool
import AiSwitch.Server.World
import AiSwitch.Util.Config

/-!
# The start of the program

`main` (`main.cpp`) takes a configuration from three places, the file that the arguments select, the
environment, and the defaults, makes the connection pool, and registers an adapter for each provider
whose key it has got. `Environment.start` is what it does up to the event loop.

A key and a base URL of a loaded document stand in the configuration as they stand in the document,
whatever else it holds (`Provider.settings_of_load`), and a variable of the environment goes before
the document (`Provider.given_of_start`).
-/

namespace AiSwitch

open ByteString Effect Nlohmann

/-- What the program finds: its arguments, the files that can be opened with their content, the
variables of the environment, which calls of `create_connection` succeed, and at which addresses it
can listen. -/
structure Environment where
  args : List Bytes
  file : Bytes → Option Bytes
  getenv : String → Option Bytes
  created : ℕ → Bool
  listens : Bytes → ℤ → Bool

/-- How the start ends: with an exit code, or with the event loop over a configuration and a queue
of connections. -/
inductive Startup where
  | exit (code : ℤ)
  | serving (config : AppConfig) (idle : List (Option ℕ))
deriving DecidableEq, Repr

/-! ## The arguments -/

/-- What the arguments ask for. -/
inductive Arguments where
  | help
  | run (configPath : Bytes) (userSetConfig : Bool)
deriving DecidableEq, Repr

/-- `arg == "--help" || arg == "-h"` -/
def asksHelp (arg : Bytes) : Bool := arg == utf8 "--help" || arg == utf8 "-h"

/-- The loop over the arguments. A `--config` that nothing follows is passed over. -/
def parseArguments (configPath : Bytes) (userSetConfig : Bool) : List Bytes → Arguments
  | [] => .run configPath userSetConfig
  | [arg] => if asksHelp arg then .help else .run configPath userSetConfig
  | arg :: next :: args =>
    if arg = utf8 "--config" then parseArguments next true args
    else if asksHelp arg then .help
    else parseArguments configPath userSetConfig (next :: args)

/-! ## The providers -/

/-- The providers that `main` knows. -/
inductive Provider where
  | deepseek
  | openai
  | anthropic
deriving DecidableEq, Repr

namespace Provider

/-- The name of the provider's section of the configuration file. -/
def name : Provider → String
  | deepseek => "deepseek"
  | openai => "openai"
  | anthropic => "anthropic"

/-- The variable of the environment that holds its key. -/
def keyVariable : Provider → String
  | deepseek => "DEEPSEEK_API_KEY"
  | openai => "OPENAI_API_KEY"
  | anthropic => "ANTHROPIC_API_KEY"

def modelPrefix : Provider → String
  | deepseek => "deepseek"
  | openai => "gpt"
  | anthropic => "claude"

def apiKey (config : AppConfig) : Provider → Bytes
  | deepseek => config.deepseekApiKey
  | openai => config.openaiApiKey
  | anthropic => config.anthropicApiKey

def baseUrl (config : AppConfig) : Provider → Bytes
  | deepseek => config.deepseekBaseUrl
  | openai => config.openaiBaseUrl
  | anthropic => config.anthropicBaseUrl

/-- The adapter that `main` makes of a key and a base URL. -/
def adapter (lib : Lib) (net : Network) (key url : Bytes) : Provider → Adapter
  | deepseek => (deepseekAdapter key url).toAdapter lib net
  | openai => (openaiAdapter key url).toAdapter lib net
  | anthropic => Anthropic.toAdapter { apiKey := key, baseUrl := url } lib net

end Provider

namespace AppConfig

variable (config : AppConfig) (lib : Lib) (net : Network)

/-- The registration of a provider whose key is not empty. -/
def register (factory : AdapterFactory) (pr : Provider) : AdapterFactory :=
  if pr.apiKey config ≠ [] then
    factory.registerAdapter (pr.adapter lib net (pr.apiKey config) (pr.baseUrl config))
  else factory

/-- The adapter factory of `main`. -/
def adapterFactory : AdapterFactory :=
  [Provider.deepseek, .openai, .anthropic].foldl (config.register lib net) []

/-- The providers that have a key, in the order of their registration. -/
def providers : List Provider :=
  [Provider.deepseek, .openai, .anthropic].filter fun pr => pr.apiKey config ≠ []

/-- The registrations append the adapters of the providers with keys. -/
theorem foldl_register (prs : List Provider) (factory : AdapterFactory) :
    prs.foldl (config.register lib net) factory = factory ++
      (prs.filter fun pr => pr.apiKey config ≠ []).map fun pr =>
        pr.adapter lib net (pr.apiKey config) (pr.baseUrl config) := by
  induction prs generalizing factory with
  | nil => simp
  | cons pr prs ih =>
    rw [List.foldl_cons, ih, register]
    by_cases hkey : pr.apiKey config = []
    · simp [hkey]
    · simp [hkey, AdapterFactory.registerAdapter]

/-- The adapters of the factory are those of the providers with keys, in order. -/
theorem adapterFactory_eq : config.adapterFactory lib net = config.providers.map fun pr =>
    pr.adapter lib net (pr.apiKey config) (pr.baseUrl config) :=
  config.foldl_register lib net _ _

/-- The gateway that `main` sets up. -/
def gateway (backend : Mysql.Backend) (dis : UInt32 → ℕ → Fin 16) : Gateway where
  lib := lib
  backend := backend
  dis := dis
  adapters := config.adapterFactory lib net
  adminMasterKey := config.adminMasterKey

end AppConfig

/-! ## `main` -/

namespace Environment

variable (env : Environment) (lib : Lib)

/-- What the arguments ask for. -/
def arguments : Arguments := parseArguments (utf8 "config.json") false env.args

/-- The variables of the environment laid over a configuration. -/
def overlay (config : AppConfig) : AppConfig :=
  { config with
    dbPassword := (env.getenv "DB_PASSWORD").getD config.dbPassword
    deepseekApiKey := (env.getenv "DEEPSEEK_API_KEY").getD config.deepseekApiKey
    openaiApiKey := (env.getenv "OPENAI_API_KEY").getD config.openaiApiKey
    anthropicApiKey := (env.getenv "ANTHROPIC_API_KEY").getD config.anthropicApiKey }

/-- `main` from the pool on. The exceptions of the pool and of the server are caught. -/
def serve (config : AppConfig) : Outcome Exn Startup :=
  match ConnectionPool.construct config.dbPoolSize env.created with
  | .ok idle =>
    if env.listens config.host config.port then .ok (.serving config idle) else .ok (.exit 1)
  | .throw _ => .ok (.exit 1)
  | .ub => .ub

/-- `main` up to the event loop. An exception of `from_file` is not caught. -/
def start : Outcome Exn Startup :=
  match env.arguments with
  | .help => .ok (.exit 0)
  | .run configPath userSetConfig => do
    let config ← AppConfig.fromFile lib (env.file configPath)
    if userSetConfig ∧ config.loaded = false then
      return .exit 1
    env.serve (env.overlay config)

/-- The document in the selected file, if there is one. -/
def document : Option Json :=
  match env.arguments with
  | .help => none
  | .run configPath _ => (env.file configPath).bind fun text => (lib.tryParse text).toOption

end Environment

/-! ## What a document says of the providers -/

namespace Provider

/-- The loading of the provider's section. -/
def load : Provider → Json → AppConfig.Loading
  | deepseek => AppConfig.loadDeepseek
  | openai => AppConfig.loadOpenai
  | anthropic => AppConfig.loadAnthropic

/-- The key and the base URL are those of the document, where it has them. -/
def IsSetBy (doc : Option Json) (key url : Bytes) (pr : Provider) : Prop :=
  Json.TextIs (doc.bind (·.path ["ai_models", pr.name, "api_key"])) (pr.apiKey {}) key ∧
    Json.TextIs (doc.bind (·.path ["ai_models", pr.name, "base_url"])) (pr.baseUrl {}) url

end Provider

namespace AppConfig

open Nlohmann.Json

variable {root : Json} {cfg cfg' : AppConfig}

/-- The settings of the provider stay as they are. -/
def SameFor (pr : Provider) (cfg cfg' : AppConfig) : Prop :=
  pr.apiKey cfg' = pr.apiKey cfg ∧ pr.baseUrl cfg' = pr.baseUrl cfg

/-- A configuration has the same settings of a provider as itself. -/
theorem sameFor_refl (pr : Provider) (cfg : AppConfig) : SameFor pr cfg cfg := ⟨rfl, rfl⟩

/-- To have the same settings of a provider is transitive. -/
theorem SameFor.trans {pr : Provider} {c₁ c₂ c₃ : AppConfig} (h : SameFor pr c₁ c₂)
    (h' : SameFor pr c₂ c₃) : SameFor pr c₁ c₃ :=
  ⟨h'.1.trans h.1, h'.2.trans h.2⟩

/-- An assignment to another field keeps the settings of a provider. -/
theorem sameFor_assign {α : Type} {pr : Provider} {value : AppConfig → Outcome Exn α}
    {store : AppConfig → α → AppConfig} (h : ∀ cfg v, SameFor pr cfg (store cfg v)) :
    Prog.Moves (SameFor pr) (assign value store) := by
  have htrans : ∀ c₁ c₂ c₃, SameFor pr c₁ c₂ → SameFor pr c₂ c₃ → SameFor pr c₁ c₃ :=
    fun _ _ _ => SameFor.trans
  refine Prog.Moves.bind htrans (fun cfg => sameFor_refl pr cfg) fun cfg => ?_
  exact Prog.Moves.bind htrans (Prog.moves_lift (sameFor_refl pr) _) fun v cfg => h cfg v

/-- Two loadings that keep the settings of a provider keep them together. -/
theorem sameFor_bind {pr : Provider} {x : Loading} {f : Unit → Loading}
    (hx : Prog.Moves (SameFor pr) x) (hf : Prog.Moves (SameFor pr) (f ())) :
    Prog.Moves (SameFor pr) (x >>= f) :=
  Prog.Moves.bind (R := SameFor pr) (fun _ _ _ => SameFor.trans) hx fun _ => hf

/-- Loading the section of the server keeps the settings of a provider. -/
theorem sameFor_loadServer (pr : Provider) (srv : Json) :
    Prog.Moves (SameFor pr) (loadServer srv) := by
  cases pr <;>
  exact sameFor_bind (sameFor_assign fun _ _ => ⟨rfl, rfl⟩) <|
    sameFor_bind (sameFor_assign fun _ _ => ⟨rfl, rfl⟩) <|
    sameFor_bind (sameFor_assign fun _ _ => ⟨rfl, rfl⟩) <|
    sameFor_assign fun _ _ => ⟨rfl, rfl⟩

/-- Loading the section of the database keeps the settings of a provider. -/
theorem sameFor_loadDatabase (pr : Provider) (db : Json) :
    Prog.Moves (SameFor pr) (loadDatabase db) := by
  cases pr <;>
  exact sameFor_bind (sameFor_assign fun _ _ => ⟨rfl, rfl⟩) <|
    sameFor_bind (sameFor_assign fun _ _ => ⟨rfl, rfl⟩) <|
    sameFor_bind (sameFor_assign fun _ _ => ⟨rfl, rfl⟩) <|
    sameFor_bind (sameFor_assign fun _ _ => ⟨rfl, rfl⟩) <|
    sameFor_bind (sameFor_assign fun _ _ => ⟨rfl, rfl⟩) <|
    sameFor_assign fun _ _ => ⟨rfl, rfl⟩

/-- Loading the section of the limiter keeps the settings of a provider. -/
theorem sameFor_loadRateLimiter (pr : Provider) (rl : Json) :
    Prog.Moves (SameFor pr) (loadRateLimiter rl) := by
  cases pr <;>
  exact sameFor_bind (sameFor_assign fun _ _ => ⟨rfl, rfl⟩) <|
    sameFor_assign fun _ _ => ⟨rfl, rfl⟩

/-- Loading the section of the administrator keeps the settings of a provider. -/
theorem sameFor_loadAdmin (pr : Provider) (admin : Json) :
    Prog.Moves (SameFor pr) (loadAdmin admin) := by
  cases pr <;> exact sameFor_assign fun _ _ => ⟨rfl, rfl⟩

/-- Loading the section of another provider keeps the settings of a provider. -/
theorem sameFor_load {pr other : Provider} (hne : other ≠ pr) (sec : Json) :
    Prog.Moves (SameFor pr) (other.load sec) := by
  cases pr <;> cases other <;> first
    | exact absurd rfl hne
    | exact sameFor_bind (sameFor_assign fun _ _ => ⟨rfl, rfl⟩) <|
        sameFor_assign fun _ _ => ⟨rfl, rfl⟩

/-- Loading a provider's own section sets its key and its base URL. -/
theorem values_of_load {pr : Provider} {sec : Json} (h : pr.load sec cfg = (.ok (), cfg')) :
    sec.value "api_key" getString (pr.apiKey cfg) = .ok (pr.apiKey cfg') ∧
      sec.value "base_url" getString (pr.baseUrl cfg) = .ok (pr.baseUrl cfg') := by
  cases pr <;>
  · obtain ⟨_, c, hfirst, hsecond⟩ := Prog.bind_eq_ok_iff.mp h
    obtain ⟨key, hkey, rfl⟩ := assign_eq_ok_iff.mp hfirst
    obtain ⟨url, hurl, rfl⟩ := assign_eq_ok_iff.mp hsecond
    exact ⟨hkey, hurl⟩

/-- A text that has been read is the member's, or the default. -/
theorem textIs_of_value {sec : Json} {key : String} {default s : Bytes}
    (h : sec.value key getString default = .ok s) : TextIs (sec.member key) default s := by
  cases sec with
  | object fs =>
    rw [value] at h
    rw [member]
    cases hmember : fs.lookup (utf8 key) with
    | none =>
      rw [hmember] at h
      cases h
      rfl
    | some v =>
      rw [hmember] at h
      cases v with
      | string t =>
        cases h
        rfl
      | _ => cases h
  | _ => cases h

/-- The section of a provider decides, if nothing before or after it touches the provider. -/
theorem isSetBy_of_section {pr : Provider} {c c' : AppConfig} (hbefore : SameFor pr {} c)
    (hload : pr.load (sectionOf root ["ai_models", pr.name]) c = (.ok (), c'))
    (hafter : SameFor pr c' cfg) : pr.IsSetBy (some root) (pr.apiKey cfg) (pr.baseUrl cfg) := by
  obtain ⟨hkey, hurl⟩ := values_of_load hload
  have htexts := And.intro (textIs_of_value hkey) (textIs_of_value hurl)
  rwa [member_sectionOf, member_sectionOf, hbefore.1, hbefore.2, ← hafter.1, ← hafter.2] at htexts

/-- **What a document says of a provider is what is loaded**, whatever else is in it. -/
theorem isSetBy_of_load (h : load root {} = (.ok (), cfg)) (pr : Provider) :
    pr.IsSetBy (some root) (pr.apiKey cfg) (pr.baseUrl cfg) := by
  have ran {pr : Provider} {x : Loading} {c c' : AppConfig} (hx : Prog.Moves (SameFor pr) x)
      (hrun : x c = (.ok (), c')) : SameFor pr c c' := by
    simpa only [hrun] using hx c
  rw [load_eq] at h
  obtain ⟨_, c₁, h₁, h⟩ := Prog.bind_eq_ok_iff.mp h
  obtain ⟨_, c₂, h₂, h⟩ := Prog.bind_eq_ok_iff.mp h
  obtain ⟨_, c₃, h₃, h⟩ := Prog.bind_eq_ok_iff.mp h
  obtain ⟨_, c₄, h₄, h⟩ := Prog.bind_eq_ok_iff.mp h
  obtain ⟨_, c₅, h₅, h⟩ := Prog.bind_eq_ok_iff.mp h
  obtain ⟨_, c₆, h₆, h⟩ := Prog.bind_eq_ok_iff.mp h
  obtain ⟨_, c₇, h₇, h⟩ := Prog.bind_eq_ok_iff.mp h
  have hbefore : SameFor pr {} c₃ := (ran (sameFor_loadServer pr _) h₁).trans <|
    (ran (sameFor_loadDatabase pr _) h₂).trans (ran (sameFor_loadRateLimiter pr _) h₃)
  have hlast : SameFor pr c₇ cfg := by
    cases h
    cases pr <;> exact ⟨rfl, rfl⟩
  have hafter : SameFor pr c₆ cfg := (ran (sameFor_loadAdmin pr _) h₇).trans hlast
  cases pr with
  | deepseek =>
    have h₅' : SameFor .deepseek c₄ c₅ := ran (sameFor_load (by decide : Provider.openai ≠ _) _) h₅
    have h₆' : SameFor .deepseek c₅ c₆ :=
      ran (sameFor_load (by decide : Provider.anthropic ≠ _) _) h₆
    exact isSetBy_of_section hbefore h₄ (h₅'.trans (h₆'.trans hafter))
  | openai =>
    have h₄' : SameFor .openai c₃ c₄ := ran (sameFor_load (by decide : Provider.deepseek ≠ _) _) h₄
    have h₆' : SameFor .openai c₅ c₆ :=
      ran (sameFor_load (by decide : Provider.anthropic ≠ _) _) h₆
    exact isSetBy_of_section (hbefore.trans h₄') h₅ (h₆'.trans hafter)
  | anthropic =>
    have h₄' : SameFor .anthropic c₃ c₄ :=
      ran (sameFor_load (by decide : Provider.deepseek ≠ _) _) h₄
    have h₅' : SameFor .anthropic c₄ c₅ := ran (sameFor_load (by decide : Provider.openai ≠ _) _) h₅
    exact isSetBy_of_section (hbefore.trans (h₄'.trans h₅')) h₆ hafter

end AppConfig

/-! ## What the operator has given -/

namespace Environment

variable (env : Environment) (lib : Lib)

/-- The key that the operator has given for the provider: that of the environment, or else that of
the document. -/
def Gives (pr : Provider) (key url : Bytes) : Prop :=
  match env.getenv pr.keyVariable with
  | some given => key = given ∧ ∃ own, pr.IsSetBy (env.document lib) own url
  | none => pr.IsSetBy (env.document lib) key url

variable {env lib} {config : AppConfig} {idle : List (Option ℕ)}

/-- Where the event loop is reached, the configuration is that of the selected file with the
environment laid over it. -/
theorem exists_of_start (h : env.start lib = .ok (.serving config idle)) :
    ∃ configPath userSetConfig loaded, env.arguments = .run configPath userSetConfig ∧
      AppConfig.fromFile lib (env.file configPath) = .ok loaded ∧ config = env.overlay loaded := by
  rw [start] at h
  cases hargs : env.arguments with
  | help =>
    rw [hargs] at h
    cases h
  | run configPath userSetConfig =>
    rw [hargs] at h
    obtain ⟨loaded, hfile, h⟩ := Outcome.bind_eq_ok_iff.mp h
    refine ⟨configPath, userSetConfig, loaded, rfl, hfile, ?_⟩
    split at h
    · cases h
    · unfold serve at h
      split at h
      · split at h
        · cases h
          rfl
        · cases h
      · cases h
      · cases h

/-- A file that is loaded sets the providers as its document says. -/
theorem isSetBy_of_fromFile {configPath : Bytes} {userSetConfig : Bool} {loaded : AppConfig}
    (hargs : env.arguments = .run configPath userSetConfig)
    (hfile : AppConfig.fromFile lib (env.file configPath) = .ok loaded) (pr : Provider) :
    pr.IsSetBy (env.document lib) (pr.apiKey loaded) (pr.baseUrl loaded) := by
  rw [document, hargs]
  dsimp only
  cases hcontent : env.file configPath with
  | none =>
    rw [hcontent] at hfile
    cases hfile
    exact ⟨rfl, rfl⟩
  | some text =>
    rw [hcontent] at hfile
    cases hparse : lib.tryParse text with
    | ok root =>
      rw [AppConfig.fromFile_eq_ok_iff hparse] at hfile
      rw [Option.bind_some, hparse]
      exact AppConfig.isSetBy_of_load hfile pr
    | error failure =>
      cases failure with
      | parseError what =>
        rw [AppConfig.fromFile_of_parseError hparse] at hfile
        cases hfile
        rw [Option.bind_some, hparse]
        exact ⟨rfl, rfl⟩
      | outOfRange what =>
        rw [AppConfig.fromFile_of_outOfRange hparse] at hfile
        cases hfile

/-- A variable of the environment goes before the key of the file. -/
theorem apiKey_overlay (config : AppConfig) (pr : Provider) :
    pr.apiKey (env.overlay config) = (env.getenv pr.keyVariable).getD (pr.apiKey config) := by
  cases pr <;> rfl

/-- The environment leaves the base URL of a provider as it is. -/
theorem baseUrl_overlay (config : AppConfig) (pr : Provider) :
    pr.baseUrl (env.overlay config) = pr.baseUrl config := by
  cases pr <;> rfl

/-- **The settings that are served are those that the operator has given.** -/
theorem gives_of_start (h : env.start lib = .ok (.serving config idle)) (pr : Provider) :
    env.Gives lib pr (pr.apiKey config) (pr.baseUrl config) := by
  obtain ⟨configPath, userSetConfig, loaded, hargs, hfile, rfl⟩ := exists_of_start h
  have hset := isSetBy_of_fromFile hargs hfile pr
  rw [apiKey_overlay, baseUrl_overlay, Gives]
  cases env.getenv pr.keyVariable with
  | none => exact hset
  | some given => exact ⟨rfl, _, hset⟩

end Environment

end AiSwitch
