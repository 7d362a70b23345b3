import AiSwitch.Common.JsonValue

/-!
# The configuration file

`app_config::from_file` (`util/config.cpp`) assigns the fields of a configuration one after another
from the sections of a JSON document, each by `value` with the field itself as the default. The
assignments stand in one `try` block that handles the parse error of the text alone: a value or a
section of another type leaves the function as an exception, and a number is converted to the type
of its field without a check of its range.
-/

namespace AiSwitch

open ByteString Effect Nlohmann Nlohmann.Json

/-- `app_config` -/
structure AppConfig where
  host : Bytes := utf8 "0.0.0.0"
  port : ℤ := 8080
  threadCount : ℤ := 4
  threadPoolSize : ℤ := 8
  dbHost : Bytes := utf8 "127.0.0.1"
  dbPort : ℤ := 3306
  dbUser : Bytes := utf8 "root"
  dbPassword : Bytes := []
  dbName : Bytes := utf8 "ai_switch"
  dbPoolSize : ℤ := 4
  rateLimitCapacity : ℤ := 10
  rateLimitRefillRate : ℤ := 5
  deepseekApiKey : Bytes := []
  deepseekBaseUrl : Bytes := utf8 "https://api.deepseek.com/v1"
  openaiApiKey : Bytes := []
  openaiBaseUrl : Bytes := utf8 "https://api.openai.com/v1"
  anthropicApiKey : Bytes := []
  anthropicBaseUrl : Bytes := utf8 "https://api.anthropic.com/v1"
  adminMasterKey : Bytes := utf8 "admin-master-key-001"
  loaded : Bool := false
deriving DecidableEq, Repr

namespace AppConfig

/-- A part of `from_file`. What it has assigned before an exception stays assigned. -/
abbrev Loading := Prog AppConfig Exn Unit

/-- `cfg.field = …` -/
def assign {α : Type} (value : AppConfig → Outcome Exn α) (store : AppConfig → α → AppConfig) :
    Loading := do
  let cfg ← Prog.read id
  let v ← Prog.lift (value cfg)
  Prog.modify fun cfg => store cfg v

/-- `if (j.contains(key)) { const auto& sec = j[key]; … }` -/
def ifPresent (j : Json) (key : String) (access : Json → String → Outcome Exn Json)
    (load : Json → Loading) : Loading :=
  if j.contains key then Prog.lift (access j key) >>= load else pure ()

def loadServer (srv : Json) : Loading := do
  assign (fun cfg => srv.value "host" getString cfg.host) fun cfg v => { cfg with host := v }
  assign (fun cfg => srv.value "port" (getUInt 16) cfg.port) fun cfg v => { cfg with port := v }
  assign (fun cfg => srv.value "thread_count" (getInt 32) cfg.threadCount)
    fun cfg v => { cfg with threadCount := v }
  assign (fun cfg => srv.value "thread_pool_size" (getInt 32) cfg.threadPoolSize)
    fun cfg v => { cfg with threadPoolSize := v }

def loadDatabase (db : Json) : Loading := do
  assign (fun cfg => db.value "host" getString cfg.dbHost) fun cfg v => { cfg with dbHost := v }
  assign (fun cfg => db.value "port" (getUInt 32) cfg.dbPort) fun cfg v => { cfg with dbPort := v }
  assign (fun cfg => db.value "user" getString cfg.dbUser) fun cfg v => { cfg with dbUser := v }
  assign (fun cfg => db.value "password" getString cfg.dbPassword)
    fun cfg v => { cfg with dbPassword := v }
  assign (fun cfg => db.value "db" getString cfg.dbName) fun cfg v => { cfg with dbName := v }
  assign (fun cfg => db.value "pool_size" (getInt 32) cfg.dbPoolSize)
    fun cfg v => { cfg with dbPoolSize := v }

def loadRateLimiter (rl : Json) : Loading := do
  assign (fun cfg => rl.value "default_capacity" getInt64 cfg.rateLimitCapacity)
    fun cfg v => { cfg with rateLimitCapacity := v }
  assign (fun cfg => rl.value "default_refill_rate" getInt64 cfg.rateLimitRefillRate)
    fun cfg v => { cfg with rateLimitRefillRate := v }

/-- The two fields of a model. -/
def loadModel (apiKey baseUrl : AppConfig → Bytes)
    (storeApiKey storeBaseUrl : AppConfig → Bytes → AppConfig) (model : Json) : Loading := do
  assign (fun cfg => model.value "api_key" getString (apiKey cfg)) storeApiKey
  assign (fun cfg => model.value "base_url" getString (baseUrl cfg)) storeBaseUrl

def loadDeepseek : Json → Loading :=
  loadModel (·.deepseekApiKey) (·.deepseekBaseUrl) (fun cfg v => { cfg with deepseekApiKey := v })
    fun cfg v => { cfg with deepseekBaseUrl := v }

def loadOpenai : Json → Loading :=
  loadModel (·.openaiApiKey) (·.openaiBaseUrl) (fun cfg v => { cfg with openaiApiKey := v })
    fun cfg v => { cfg with openaiBaseUrl := v }

def loadAnthropic : Json → Loading :=
  loadModel (·.anthropicApiKey) (·.anthropicBaseUrl)
    (fun cfg v => { cfg with anthropicApiKey := v }) fun cfg v => { cfg with anthropicBaseUrl := v }

def loadAiModels (models : Json) : Loading := do
  ifPresent models "deepseek" indexConst loadDeepseek
  ifPresent models "openai" indexConst loadOpenai
  ifPresent models "anthropic" indexConst loadAnthropic

def loadAdmin (admin : Json) : Loading :=
  assign (fun cfg => admin.value "master_key" getString cfg.adminMasterKey)
    fun cfg v => { cfg with adminMasterKey := v }

/-- The `try` block of `from_file` after the parsing. -/
def load (root : Json) : Loading := do
  ifPresent root "server" index loadServer
  ifPresent root "database" index loadDatabase
  ifPresent root "rate_limiter" index loadRateLimiter
  ifPresent root "ai_models" index loadAiModels
  ifPresent root "admin" index loadAdmin
  Prog.modify fun cfg => { cfg with loaded := true }

/-- `from_file`, with the content of the file or none where it cannot be opened. -/
def fromFile (lib : Lib) (content : Option Bytes) : Outcome Exn AppConfig :=
  match content with
  | none => .ok {}
  | some text =>
    match (Prog.lift (lib.parse text) >>= load : Loading) {} with
    | (.ok (), cfg) => .ok cfg
    | (.throw (.parseError _), cfg) => .ok cfg
    | (.throw e, _) => .throw e
    | (.ub, _) => .ub

/-! ## The document -/

/-- The sections that `from_file` knows. -/
def sections : List (List String) :=
  [["server"], ["database"], ["rate_limiter"], ["ai_models"], ["ai_models", "deepseek"],
    ["ai_models", "openai"], ["ai_models", "anthropic"], ["admin"]]

/-- The fields that hold a text. -/
def textFields : List (List String) :=
  [["server", "host"], ["database", "host"], ["database", "user"], ["database", "password"],
    ["database", "db"], ["ai_models", "deepseek", "api_key"], ["ai_models", "deepseek", "base_url"],
    ["ai_models", "openai", "api_key"], ["ai_models", "openai", "base_url"],
    ["ai_models", "anthropic", "api_key"], ["ai_models", "anthropic", "base_url"],
    ["admin", "master_key"]]

/-- The fields that hold a number, with the bounds of their types. -/
def numberFields : List (List String × ℤ × ℤ) :=
  [(["server", "port"], 0, 2 ^ 16), (["server", "thread_count"], -2 ^ 31, 2 ^ 31),
    (["server", "thread_pool_size"], -2 ^ 31, 2 ^ 31), (["database", "port"], 0, 2 ^ 32),
    (["database", "pool_size"], -2 ^ 31, 2 ^ 31),
    (["rate_limiter", "default_capacity"], -2 ^ 63, 2 ^ 63),
    (["rate_limiter", "default_refill_rate"], -2 ^ 63, 2 ^ 63)]

/-- Every known section and field that is present has the expected kind. -/
structure WellTyped (root : Json) : Prop where
  sections : ∀ p ∈ sections, ∀ v, root.path p = some v → v.isObject = true
  texts : ∀ p ∈ textFields, IsText (root.path p)
  numbers : ∀ f ∈ numberFields, ∀ v, root.path f.1 = some v →
    (∃ n, v = .integer n) ∨ ∃ x, v = .floating x

/-- Every number is a value of the type of its field. -/
def NumbersFit (root : Json) : Prop :=
  ∀ f ∈ numberFields, NumberFits (root.path f.1) f.2.1 f.2.2

/-- Every field is the value of the document where there is one, else its default. -/
structure Agrees (root : Json) (cfg : AppConfig) : Prop where
  host : TextIs (root.path ["server", "host"]) ({} : AppConfig).host cfg.host
  port : NumberIs (root.path ["server", "port"]) ({} : AppConfig).port cfg.port
  threadCount : NumberIs (root.path ["server", "thread_count"]) ({} : AppConfig).threadCount
    cfg.threadCount
  threadPoolSize : NumberIs (root.path ["server", "thread_pool_size"])
    ({} : AppConfig).threadPoolSize cfg.threadPoolSize
  dbHost : TextIs (root.path ["database", "host"]) ({} : AppConfig).dbHost cfg.dbHost
  dbPort : NumberIs (root.path ["database", "port"]) ({} : AppConfig).dbPort cfg.dbPort
  dbUser : TextIs (root.path ["database", "user"]) ({} : AppConfig).dbUser cfg.dbUser
  dbPassword : TextIs (root.path ["database", "password"]) ({} : AppConfig).dbPassword
    cfg.dbPassword
  dbName : TextIs (root.path ["database", "db"]) ({} : AppConfig).dbName cfg.dbName
  dbPoolSize : NumberIs (root.path ["database", "pool_size"]) ({} : AppConfig).dbPoolSize
    cfg.dbPoolSize
  rateLimitCapacity : NumberIs (root.path ["rate_limiter", "default_capacity"])
    ({} : AppConfig).rateLimitCapacity cfg.rateLimitCapacity
  rateLimitRefillRate : NumberIs (root.path ["rate_limiter", "default_refill_rate"])
    ({} : AppConfig).rateLimitRefillRate cfg.rateLimitRefillRate
  deepseekApiKey : TextIs (root.path ["ai_models", "deepseek", "api_key"])
    ({} : AppConfig).deepseekApiKey cfg.deepseekApiKey
  deepseekBaseUrl : TextIs (root.path ["ai_models", "deepseek", "base_url"])
    ({} : AppConfig).deepseekBaseUrl cfg.deepseekBaseUrl
  openaiApiKey : TextIs (root.path ["ai_models", "openai", "api_key"])
    ({} : AppConfig).openaiApiKey cfg.openaiApiKey
  openaiBaseUrl : TextIs (root.path ["ai_models", "openai", "base_url"])
    ({} : AppConfig).openaiBaseUrl cfg.openaiBaseUrl
  anthropicApiKey : TextIs (root.path ["ai_models", "anthropic", "api_key"])
    ({} : AppConfig).anthropicApiKey cfg.anthropicApiKey
  anthropicBaseUrl : TextIs (root.path ["ai_models", "anthropic", "base_url"])
    ({} : AppConfig).anthropicBaseUrl cfg.anthropicBaseUrl
  adminMasterKey : TextIs (root.path ["admin", "master_key"]) ({} : AppConfig).adminMasterKey
    cfg.adminMasterKey

/-! ## What is loaded

A section that is absent loads like an empty one.
-/

variable {root : Json}

/-- The section that a path leads to. -/
def sectionOf (root : Json) (p : List String) : Json := (root.path p).getD (.object [])

/-- The last step of a path is the access to a member. -/
theorem path_append_singleton (j : Json) (p : List String) (key : String) :
    j.path (p ++ [key]) = (j.path p).bind (·.member key) := by
  induction p generalizing j with
  | nil => simp [path]
  | cons k p ih => simp [path, ih, Option.bind_assoc]

/-- A member of a section is what the longer path leads to. -/
theorem member_sectionOf (root : Json) (p : List String) (key : String) :
    (sectionOf root p).member key = root.path (p ++ [key]) := by
  rw [sectionOf, path_append_singleton]
  cases root.path p <;> rfl

/-- Every section of a well-typed document is an object. -/
theorem WellTyped.isObject_sectionOf (h : WellTyped root) {p : List String}
    (hp : p ∈ AppConfig.sections) : (sectionOf root p).isObject = true := by
  rw [sectionOf]
  cases hpath : root.path p with
  | none => rfl
  | some v => exact h.sections p hp v hpath

/-- A section that is not there is loaded as an empty one. -/
theorem ifPresent_eq {j : Json} {key : String} {access : Json → String → Outcome Exn Json}
    {load : Json → Loading} (haccess : ∀ v, j.member key = some v → access j key = .ok v)
    (hempty : load (.object []) = pure ()) :
    ifPresent j key access load = load ((j.member key).getD (.object [])) := by
  rw [ifPresent, contains_eq_isSome_member]
  cases hmember : j.member key with
  | none => rw [if_neg (by simp), Option.getD_none, hempty]
  | some v => rw [if_pos (by simp), haccess v hmember, Prog.lift_ok_bind, Option.getD_some]

/-- A section of the document is loaded as an empty one where it is not there. -/
theorem ifPresent_index_eq (root : Json) (key : String) {load : Json → Loading}
    (hempty : load (.object []) = pure ()) :
    ifPresent root key index load = load (sectionOf root [key]) := by
  rw [ifPresent_eq (fun v => index_of_member) hempty, sectionOf, ← List.nil_append [key],
    path_append_singleton]
  rfl

/-- A section within a section is loaded as an empty one where it is not there. -/
theorem ifPresent_indexConst_eq (root : Json) (p : List String) (key : String)
    {load : Json → Loading} (hempty : load (.object []) = pure ()) :
    ifPresent (sectionOf root p) key indexConst load = load (sectionOf root (p ++ [key])) := by
  rw [ifPresent_eq (fun v => indexConst_of_member) hempty, member_sectionOf]
  rfl

/-- The section of the models is that of each provider, one after another. -/
theorem loadAiModels_eq (root : Json) : loadAiModels (sectionOf root ["ai_models"]) = (do
    loadDeepseek (sectionOf root ["ai_models", "deepseek"])
    loadOpenai (sectionOf root ["ai_models", "openai"])
    loadAnthropic (sectionOf root ["ai_models", "anthropic"])) := by
  unfold loadAiModels
  rw [ifPresent_indexConst_eq root _ "deepseek" rfl, ifPresent_indexConst_eq root _ "openai" rfl,
    ifPresent_indexConst_eq root _ "anthropic" rfl]
  rfl

/-- The assignments of the `try` block, as if every section were present. -/
theorem load_eq (root : Json) : load root = (do
    loadServer (sectionOf root ["server"])
    loadDatabase (sectionOf root ["database"])
    loadRateLimiter (sectionOf root ["rate_limiter"])
    loadDeepseek (sectionOf root ["ai_models", "deepseek"])
    loadOpenai (sectionOf root ["ai_models", "openai"])
    loadAnthropic (sectionOf root ["ai_models", "anthropic"])
    loadAdmin (sectionOf root ["admin"])
    Prog.modify fun cfg => { cfg with loaded := true }) := by
  unfold load
  rw [ifPresent_index_eq root "server" rfl, ifPresent_index_eq root "database" rfl,
    ifPresent_index_eq root "rate_limiter" rfl, ifPresent_index_eq root "ai_models" rfl,
    ifPresent_index_eq root "admin" rfl, loadAiModels_eq]
  simp only [Prog.bind_assoc]

/-- An `int` is read from the numbers of 32 bits with a sign. -/
theorem convertsTo_int : ConvertsTo (getInt 32) (-2 ^ 31) (2 ^ 31) := convertsTo_getInt (by omega)

/-- A `uint16_t` is read from the numbers of 16 bits without a sign. -/
theorem convertsTo_uint16 : ConvertsTo (getUInt 16) 0 (2 ^ 16) := convertsTo_getUInt (by omega)

/-- A `uint32_t` is read from the numbers of 32 bits without a sign. -/
theorem convertsTo_uint : ConvertsTo (getUInt 32) 0 (2 ^ 32) := convertsTo_getUInt (by omega)

section Loads

variable (htyped : WellTyped root) (hfit : NumbersFit root)

include htyped

/-- A text is loaded from a document of the expected types. -/
theorem exists_assign_text {p : List String} {key : String} (hp : p ∈ sections)
    (hkey : p ++ [key] ∈ textFields) (read : AppConfig → Bytes)
    (store : AppConfig → Bytes → AppConfig) (cfg : AppConfig) :
    ∃ s, assign (fun cfg => (sectionOf root p).value key getString (read cfg)) store cfg
        = (.ok (), store cfg s) ∧ TextIs (root.path (p ++ [key])) (read cfg) s := by
  have htext := htyped.texts _ hkey
  rw [← member_sectionOf] at htext ⊢
  obtain ⟨s, hvalue, hs⟩ := exists_value_text (htyped.isObject_sectionOf hp) htext (read cfg)
  refine ⟨s, ?_, hs⟩
  rw [assign, Prog.read_bind_apply, id, hvalue]
  rfl

include hfit

/-- A number is loaded from a document of the expected types. -/
theorem exists_assign_number {p : List String} {key : String} {get : Json → Outcome Exn ℤ}
    {lo hi : ℤ} (hget : ConvertsTo get lo hi) (hp : p ∈ sections)
    (hkey : (p ++ [key], lo, hi) ∈ numberFields) (read : AppConfig → ℤ)
    (store : AppConfig → ℤ → AppConfig) (cfg : AppConfig) :
    ∃ n, assign (fun cfg => (sectionOf root p).value key get (read cfg)) store cfg
        = (.ok (), store cfg n) ∧ NumberIs (root.path (p ++ [key])) (read cfg) n := by
  have hnumber := hfit _ hkey
  rw [← member_sectionOf] at hnumber ⊢
  obtain ⟨n, hvalue, hn⟩ := hget.exists_value (htyped.isObject_sectionOf hp) hnumber (read cfg)
  refine ⟨n, ?_, hn⟩
  rw [assign, Prog.read_bind_apply, id, hvalue]
  rfl

/-- A well-typed section of the server sets the four settings to what it says. -/
theorem exists_loadServer (cfg : AppConfig) :
    ∃ host port threadCount threadPoolSize,
      loadServer (sectionOf root ["server"]) cfg = (.ok (), { cfg with
        host := host, port := port, threadCount := threadCount
        threadPoolSize := threadPoolSize }) ∧
      TextIs (root.path ["server", "host"]) cfg.host host ∧
      NumberIs (root.path ["server", "port"]) cfg.port port ∧
      NumberIs (root.path ["server", "thread_count"]) cfg.threadCount threadCount ∧
      NumberIs (root.path ["server", "thread_pool_size"]) cfg.threadPoolSize threadPoolSize := by
  have hp : ["server"] ∈ sections := by simp [sections]
  obtain ⟨host, hhost, ht⟩ := exists_assign_text htyped hp
    (show ["server"] ++ ["host"] ∈ textFields by simp [textFields])
    (·.host) (fun cfg v => { cfg with host := v }) cfg
  obtain ⟨port, hport, hn⟩ := exists_assign_number htyped hfit convertsTo_uint16 hp
    (show (["server"] ++ ["port"], _) ∈ numberFields by simp [numberFields])
    (·.port) (fun cfg v => { cfg with port := v }) { cfg with host := host }
  obtain ⟨count, hcount, hc⟩ := exists_assign_number htyped hfit convertsTo_int hp
    (show (["server"] ++ ["thread_count"], _) ∈ numberFields by simp [numberFields])
    (·.threadCount) (fun cfg v => { cfg with threadCount := v })
    { cfg with host := host, port := port }
  obtain ⟨size, hsize, hs⟩ := exists_assign_number htyped hfit convertsTo_int hp
    (show (["server"] ++ ["thread_pool_size"], _) ∈ numberFields by simp [numberFields])
    (·.threadPoolSize) (fun cfg v => { cfg with threadPoolSize := v })
    { cfg with host := host, port := port, threadCount := count }
  refine ⟨host, port, count, size, ?_, ht, hn, hc, hs⟩
  rw [loadServer, Prog.bind_of_ok hhost, Prog.bind_of_ok hport, Prog.bind_of_ok hcount, hsize]

/-- The section of the database sets its six settings. -/
theorem exists_loadDatabase (cfg : AppConfig) :
    ∃ host port user password name poolSize,
      loadDatabase (sectionOf root ["database"]) cfg = (.ok (), { cfg with
        dbHost := host, dbPort := port, dbUser := user, dbPassword := password, dbName := name
        dbPoolSize := poolSize }) ∧
      TextIs (root.path ["database", "host"]) cfg.dbHost host ∧
      NumberIs (root.path ["database", "port"]) cfg.dbPort port ∧
      TextIs (root.path ["database", "user"]) cfg.dbUser user ∧
      TextIs (root.path ["database", "password"]) cfg.dbPassword password ∧
      TextIs (root.path ["database", "db"]) cfg.dbName name ∧
      NumberIs (root.path ["database", "pool_size"]) cfg.dbPoolSize poolSize := by
  have hp : ["database"] ∈ sections := by simp [sections]
  obtain ⟨host, hhost, h₁⟩ := exists_assign_text htyped hp
    (show ["database"] ++ ["host"] ∈ textFields by simp [textFields])
    (·.dbHost) (fun cfg v => { cfg with dbHost := v }) cfg
  obtain ⟨port, hport, h₂⟩ := exists_assign_number htyped hfit convertsTo_uint hp
    (show (["database"] ++ ["port"], _) ∈ numberFields by simp [numberFields])
    (·.dbPort) (fun cfg v => { cfg with dbPort := v }) { cfg with dbHost := host }
  obtain ⟨user, huser, h₃⟩ := exists_assign_text htyped hp
    (show ["database"] ++ ["user"] ∈ textFields by simp [textFields])
    (·.dbUser) (fun cfg v => { cfg with dbUser := v }) { cfg with dbHost := host, dbPort := port }
  obtain ⟨password, hpassword, h₄⟩ := exists_assign_text htyped hp
    (show ["database"] ++ ["password"] ∈ textFields by simp [textFields])
    (·.dbPassword) (fun cfg v => { cfg with dbPassword := v })
    { cfg with dbHost := host, dbPort := port, dbUser := user }
  obtain ⟨name, hname, h₅⟩ := exists_assign_text htyped hp
    (show ["database"] ++ ["db"] ∈ textFields by simp [textFields])
    (·.dbName) (fun cfg v => { cfg with dbName := v })
    { cfg with dbHost := host, dbPort := port, dbUser := user, dbPassword := password }
  obtain ⟨size, hsize, h₆⟩ := exists_assign_number htyped hfit convertsTo_int hp
    (show (["database"] ++ ["pool_size"], _) ∈ numberFields by simp [numberFields])
    (·.dbPoolSize) (fun cfg v => { cfg with dbPoolSize := v })
    { cfg with dbHost := host, dbPort := port, dbUser := user, dbPassword := password
               dbName := name }
  refine ⟨host, port, user, password, name, size, ?_, h₁, h₂, h₃, h₄, h₅, h₆⟩
  rw [loadDatabase, Prog.bind_of_ok hhost, Prog.bind_of_ok hport, Prog.bind_of_ok huser,
    Prog.bind_of_ok hpassword, Prog.bind_of_ok hname, hsize]

/-- The section of the limiter sets both of its settings. -/
theorem exists_loadRateLimiter (cfg : AppConfig) :
    ∃ capacity refillRate,
      loadRateLimiter (sectionOf root ["rate_limiter"]) cfg = (.ok (), { cfg with
        rateLimitCapacity := capacity, rateLimitRefillRate := refillRate }) ∧
      NumberIs (root.path ["rate_limiter", "default_capacity"]) cfg.rateLimitCapacity capacity ∧
      NumberIs (root.path ["rate_limiter", "default_refill_rate"]) cfg.rateLimitRefillRate
        refillRate := by
  have hp : ["rate_limiter"] ∈ sections := by simp [sections]
  obtain ⟨capacity, hcapacity, h₁⟩ := exists_assign_number htyped hfit convertsTo_getInt64 hp
    (show (["rate_limiter"] ++ ["default_capacity"], _) ∈ numberFields by simp [numberFields])
    (·.rateLimitCapacity) (fun cfg v => { cfg with rateLimitCapacity := v }) cfg
  obtain ⟨rate, hrate, h₂⟩ := exists_assign_number htyped hfit convertsTo_getInt64 hp
    (show (["rate_limiter"] ++ ["default_refill_rate"], _) ∈ numberFields by simp [numberFields])
    (·.rateLimitRefillRate) (fun cfg v => { cfg with rateLimitRefillRate := v })
    { cfg with rateLimitCapacity := capacity }
  refine ⟨capacity, rate, ?_, h₁, h₂⟩
  rw [loadRateLimiter, Prog.bind_of_ok hcapacity, hrate]

omit hfit

/-- A model is loaded by two stores, of which the second reads what the first leaves. -/
theorem exists_loadModel {p : List String} (hp : p ∈ sections)
    (hkey : p ++ ["api_key"] ∈ textFields) (hurl : p ++ ["base_url"] ∈ textFields)
    (apiKey baseUrl : AppConfig → Bytes) (storeApiKey storeBaseUrl : AppConfig → Bytes → AppConfig)
    (cfg : AppConfig) (hread : ∀ v, baseUrl (storeApiKey cfg v) = baseUrl cfg) :
    ∃ key url, loadModel apiKey baseUrl storeApiKey storeBaseUrl (sectionOf root p) cfg
        = (.ok (), storeBaseUrl (storeApiKey cfg key) url) ∧
      TextIs (root.path (p ++ ["api_key"])) (apiKey cfg) key ∧
      TextIs (root.path (p ++ ["base_url"])) (baseUrl cfg) url := by
  obtain ⟨key, hkey, h₁⟩ := exists_assign_text htyped hp hkey apiKey storeApiKey cfg
  obtain ⟨url, hurl, h₂⟩ := exists_assign_text htyped hp hurl baseUrl storeBaseUrl
    (storeApiKey cfg key)
  rw [hread] at h₂
  refine ⟨key, url, ?_, h₁, h₂⟩
  rw [loadModel, Prog.bind_of_ok hkey, hurl]

/-- The section of the administrator sets the master key. -/
theorem exists_loadAdmin (cfg : AppConfig) :
    ∃ key, loadAdmin (sectionOf root ["admin"]) cfg = (.ok (), { cfg with adminMasterKey := key }) ∧
      TextIs (root.path ["admin", "master_key"]) cfg.adminMasterKey key :=
  exists_assign_text htyped (show ["admin"] ∈ sections by simp [sections])
    (show ["admin"] ++ ["master_key"] ∈ textFields by simp [textFields])
    (·.adminMasterKey) (fun cfg v => { cfg with adminMasterKey := v }) cfg

include hfit

/-- A document of the expected types whose numbers fit is loaded as it is. -/
theorem exists_load : ∃ cfg, load root {} = (.ok (), cfg) ∧ cfg.loaded = true ∧
    Agrees root cfg := by
  obtain ⟨host, port, count, size, hserver, s₁, s₂, s₃, s₄⟩ := exists_loadServer htyped hfit {}
  let c₁ : AppConfig :=
    { host := host, port := port, threadCount := count, threadPoolSize := size }
  obtain ⟨dbHost, dbPort, user, password, name, pool, hdb, d₁, d₂, d₃, d₄, d₅, d₆⟩ :=
    exists_loadDatabase htyped hfit c₁
  let c₂ : AppConfig :=
    { c₁ with
      dbHost := dbHost, dbPort := dbPort, dbUser := user, dbPassword := password, dbName := name
      dbPoolSize := pool }
  obtain ⟨capacity, rate, hlimiter, l₁, l₂⟩ := exists_loadRateLimiter htyped hfit c₂
  let c₃ : AppConfig := { c₂ with rateLimitCapacity := capacity, rateLimitRefillRate := rate }
  obtain ⟨dsKey, dsUrl, hds, m₁, m₂⟩ := exists_loadModel htyped
    (show ["ai_models", "deepseek"] ∈ sections by simp [sections]) (by simp [textFields])
    (by simp [textFields]) (·.deepseekApiKey) (·.deepseekBaseUrl)
    (fun cfg v => { cfg with deepseekApiKey := v }) (fun cfg v => { cfg with deepseekBaseUrl := v })
    c₃ fun _ => rfl
  let c₄ : AppConfig := { c₃ with deepseekApiKey := dsKey, deepseekBaseUrl := dsUrl }
  obtain ⟨oaKey, oaUrl, hoa, m₃, m₄⟩ := exists_loadModel htyped
    (show ["ai_models", "openai"] ∈ sections by simp [sections]) (by simp [textFields])
    (by simp [textFields]) (·.openaiApiKey) (·.openaiBaseUrl)
    (fun cfg v => { cfg with openaiApiKey := v }) (fun cfg v => { cfg with openaiBaseUrl := v })
    c₄ fun _ => rfl
  let c₅ : AppConfig := { c₄ with openaiApiKey := oaKey, openaiBaseUrl := oaUrl }
  obtain ⟨acKey, acUrl, hac, m₅, m₆⟩ := exists_loadModel htyped
    (show ["ai_models", "anthropic"] ∈ sections by simp [sections]) (by simp [textFields])
    (by simp [textFields]) (·.anthropicApiKey) (·.anthropicBaseUrl)
    (fun cfg v => { cfg with anthropicApiKey := v })
    (fun cfg v => { cfg with anthropicBaseUrl := v }) c₅ fun _ => rfl
  let c₆ : AppConfig := { c₅ with anthropicApiKey := acKey, anthropicBaseUrl := acUrl }
  obtain ⟨adminKey, hadmin, a₁⟩ := exists_loadAdmin htyped c₆
  refine ⟨{ c₆ with adminMasterKey := adminKey, loaded := true }, ?_, rfl,
    ⟨s₁, s₂, s₃, s₄, d₁, d₂, d₃, d₄, d₅, d₆, l₁, l₂, m₁, m₂, m₃, m₄, m₅, m₆, a₁⟩⟩
  rw [load_eq, Prog.bind_of_ok hserver, Prog.bind_of_ok hdb, Prog.bind_of_ok hlimiter,
    loadDeepseek, Prog.bind_of_ok hds, loadOpenai, Prog.bind_of_ok hoa, loadAnthropic,
    Prog.bind_of_ok hac, Prog.bind_of_ok hadmin]
  rfl

end Loads

/-! ## What is in a configuration that was loaded -/

/-- Every number is a value of the type of its field. -/
structure InRange (cfg : AppConfig) : Prop where
  port : 0 ≤ cfg.port ∧ cfg.port < 2 ^ 16
  threadCount : -2 ^ 31 ≤ cfg.threadCount ∧ cfg.threadCount < 2 ^ 31
  threadPoolSize : -2 ^ 31 ≤ cfg.threadPoolSize ∧ cfg.threadPoolSize < 2 ^ 31
  dbPort : 0 ≤ cfg.dbPort ∧ cfg.dbPort < 2 ^ 32
  dbPoolSize : -2 ^ 31 ≤ cfg.dbPoolSize ∧ cfg.dbPoolSize < 2 ^ 31
  rateLimitCapacity : -2 ^ 63 ≤ cfg.rateLimitCapacity ∧ cfg.rateLimitCapacity < 2 ^ 63
  rateLimitRefillRate : -2 ^ 63 ≤ cfg.rateLimitRefillRate ∧ cfg.rateLimitRefillRate < 2 ^ 63

/-- The defaults are values of their types. -/
theorem inRange_default : InRange {} := by
  constructor <;> decide

/-- From a configuration in range the computation leaves one in range, however it ends, and what it
throws is the error of a value of the wrong type. -/
structure Regular (x : Loading) : Prop where
  inRange : ∀ cfg, InRange cfg → InRange (x cfg).2
  typeError : ∀ cfg e, (x cfg).1 = .throw e → ∃ what : String, e = .typeError (utf8 what)

/-- Two regular loadings one after the other are regular. -/
theorem Regular.bind {x : Loading} {f : Unit → Loading} (hx : Regular x)
    (hf : ∀ u, Regular (f u)) : Regular (x >>= f) := by
  constructor
  · intro cfg hcfg
    have hrange := hx.inRange cfg hcfg
    rw [Prog.bind_apply]
    rcases hrun : x cfg with ⟨u | e | _, cfg'⟩ <;> rw [hrun] at hrange
    · exact (hf u).inRange cfg' hrange
    · exact hrange
    · exact hrange
  · intro cfg e h
    have htype := hx.typeError cfg
    rw [Prog.bind_apply] at h
    rcases hrun : x cfg with ⟨u | e' | _, cfg'⟩ <;> rw [hrun] at h htype
    · exact (hf u).typeError cfg' e h
    · exact htype e h
    · cases h

/-- An assignment is regular if its conversion refuses by type and what it stores is in range. -/
theorem regular_assign {α : Type} {get : Json → Outcome Exn α} (hget : RefusesByType get)
    {sec : Json} {key : String} {read : AppConfig → α} {store : AppConfig → α → AppConfig}
    (h : ∀ cfg v, InRange cfg → sec.value key get (read cfg) = .ok v → InRange (store cfg v)) :
    Regular (assign (fun cfg => sec.value key get (read cfg)) store) := by
  constructor
  · intro cfg hcfg
    rw [assign, Prog.read_bind_apply, id]
    cases hvalue : sec.value key get (read cfg) with
    | ok v => exact h cfg v hcfg hvalue
    | throw e => exact hcfg
    | ub => exact hcfg
  · intro cfg e hthrow
    rw [assign, Prog.read_bind_apply, id] at hthrow
    cases hvalue : sec.value key get (read cfg) with
    | ok v =>
      rw [hvalue] at hthrow
      cases hthrow
    | throw e' =>
      rw [hvalue] at hthrow
      cases hthrow
      exact hget.value hvalue
    | ub =>
      rw [hvalue] at hthrow
      cases hthrow

/-- A section is loaded regularly, there or not. -/
theorem regular_ifPresent {j : Json} {key : String} {access : Json → String → Outcome Exn Json}
    {load : Json → Loading} (haccess : ∀ v, j.member key = some v → access j key = .ok v)
    (hempty : load (.object []) = pure ()) (h : ∀ sec, Regular (load sec)) :
    Regular (ifPresent j key access load) := by
  rw [ifPresent_eq haccess hempty]
  exact h _

/-- The section of the server is loaded regularly. -/
theorem regular_loadServer (srv : Json) : Regular (loadServer srv) := by
  unfold loadServer
  refine Regular.bind (regular_assign refusesByType_getString ?_) fun _ =>
    Regular.bind (regular_assign (refusesByType_getUInt 16) ?_) fun _ =>
    Regular.bind (regular_assign (refusesByType_getInt 32) ?_) fun _ =>
    regular_assign (refusesByType_getInt 32) ?_
  · exact fun cfg v h _ => { h with port := h.port }
  · exact fun cfg v h hv => { h with port := convertsTo_uint16.value_range h.port hv }
  · exact fun cfg v h hv => { h with threadCount := convertsTo_int.value_range h.threadCount hv }
  · exact fun cfg v h hv =>
      { h with threadPoolSize := convertsTo_int.value_range h.threadPoolSize hv }

/-- The section of the database is loaded regularly. -/
theorem regular_loadDatabase (db : Json) : Regular (loadDatabase db) := by
  unfold loadDatabase
  refine Regular.bind (regular_assign refusesByType_getString ?_) fun _ =>
    Regular.bind (regular_assign (refusesByType_getUInt 32) ?_) fun _ =>
    Regular.bind (regular_assign refusesByType_getString ?_) fun _ =>
    Regular.bind (regular_assign refusesByType_getString ?_) fun _ =>
    Regular.bind (regular_assign refusesByType_getString ?_) fun _ =>
    regular_assign (refusesByType_getInt 32) ?_
  · exact fun cfg v h _ => { h with port := h.port }
  · exact fun cfg v h hv => { h with dbPort := convertsTo_uint.value_range h.dbPort hv }
  · exact fun cfg v h _ => { h with port := h.port }
  · exact fun cfg v h _ => { h with port := h.port }
  · exact fun cfg v h _ => { h with port := h.port }
  · exact fun cfg v h hv => { h with dbPoolSize := convertsTo_int.value_range h.dbPoolSize hv }

/-- The section of the limiter is loaded regularly. -/
theorem regular_loadRateLimiter (rl : Json) : Regular (loadRateLimiter rl) := by
  unfold loadRateLimiter
  refine Regular.bind (regular_assign refusesByType_getInt64 ?_) fun _ =>
    regular_assign refusesByType_getInt64 ?_
  · exact fun cfg v h hv =>
      { h with rateLimitCapacity := convertsTo_getInt64.value_range h.rateLimitCapacity hv }
  · exact fun cfg v h hv =>
      { h with rateLimitRefillRate := convertsTo_getInt64.value_range h.rateLimitRefillRate hv }

/-- The section of a model, which has no numbers, is loaded regularly. -/
theorem regular_loadModel {apiKey baseUrl : AppConfig → Bytes}
    {storeApiKey storeBaseUrl : AppConfig → Bytes → AppConfig}
    (hkey : ∀ cfg v, InRange cfg → InRange (storeApiKey cfg v))
    (hurl : ∀ cfg v, InRange cfg → InRange (storeBaseUrl cfg v)) (model : Json) :
    Regular (loadModel apiKey baseUrl storeApiKey storeBaseUrl model) := by
  unfold loadModel
  refine Regular.bind (regular_assign refusesByType_getString ?_) fun _ =>
    regular_assign refusesByType_getString ?_
  · exact fun cfg v h _ => hkey cfg v h
  · exact fun cfg v h _ => hurl cfg v h

/-- The sections of the providers are loaded regularly. -/
theorem regular_loadAiModels (models : Json) : Regular (loadAiModels models) := by
  unfold loadAiModels loadDeepseek loadOpenai loadAnthropic
  refine Regular.bind (regular_ifPresent (fun v => indexConst_of_member) rfl ?_) fun _ =>
    Regular.bind (regular_ifPresent (fun v => indexConst_of_member) rfl ?_) fun _ =>
    regular_ifPresent (fun v => indexConst_of_member) rfl ?_
  all_goals
    refine regular_loadModel ?_ ?_
    · exact fun cfg v h => { h with port := h.port }
    · exact fun cfg v h => { h with port := h.port }

/-- The section of the administrator is loaded regularly. -/
theorem regular_loadAdmin (admin : Json) : Regular (loadAdmin admin) := by
  unfold loadAdmin
  refine regular_assign refusesByType_getString ?_
  exact fun cfg v h _ => { h with port := h.port }

/-- The whole document is loaded regularly. -/
theorem regular_load (root : Json) : Regular (load root) := by
  unfold load
  have hindex : ∀ {key : String} v, root.member key = some v → root.index key = .ok v :=
    fun v => index_of_member
  refine (regular_ifPresent hindex rfl regular_loadServer).bind fun _ =>
    (regular_ifPresent hindex rfl regular_loadDatabase).bind fun _ =>
    (regular_ifPresent hindex rfl regular_loadRateLimiter).bind fun _ =>
    (regular_ifPresent hindex rfl regular_loadAiModels).bind fun _ =>
    (regular_ifPresent hindex rfl regular_loadAdmin).bind fun _ => ?_
  exact ⟨fun cfg h => { h with port := h.port }, fun _ _ h => by cases h⟩

/-- An assignment succeeds where its value can be read, and stores this value. -/
theorem assign_eq_ok_iff {α : Type} {value : AppConfig → Outcome Exn α}
    {store : AppConfig → α → AppConfig} {cfg cfg' : AppConfig} {u : Unit} :
    assign value store cfg = (.ok u, cfg') ↔ ∃ v, value cfg = .ok v ∧ cfg' = store cfg v := by
  rw [assign, Prog.read_bind_apply, id]
  cases value cfg with
  | ok v =>
    constructor
    · intro h
      exact ⟨v, rfl, (Prod.mk.inj h).2.symm⟩
    · rintro ⟨v', hv', rfl⟩
      cases hv'
      rfl
  | throw e => simp
  | ub => simp

/-- A configuration that `load` returns is marked as loaded. -/
theorem loaded_of_load {cfg cfg' : AppConfig} (h : load root cfg = (.ok (), cfg')) :
    cfg'.loaded = true := by
  -- whatever the sections do, the flag is set last
  obtain ⟨-, c₁, -, h₁⟩ := Prog.bind_eq_ok_iff.mp h
  obtain ⟨-, c₂, -, h₂⟩ := Prog.bind_eq_ok_iff.mp h₁
  obtain ⟨-, c₃, -, h₃⟩ := Prog.bind_eq_ok_iff.mp h₂
  obtain ⟨-, c₄, -, h₄⟩ := Prog.bind_eq_ok_iff.mp h₃
  obtain ⟨-, c₅, -, h₅⟩ := Prog.bind_eq_ok_iff.mp h₄
  cases h₅
  rfl

/-! ## All or nothing -/

/-- `from_file` does what it is for: it returns the values of a document whose known sections and
fields all have the expected kind, and otherwise nothing but defaults. -/
def LoadsAllOrNothing (lib : Lib) (content : Option Bytes) : Prop :=
  (∀ text root, content = some text → lib.tryParse text = .ok root → WellTyped root →
    ∃ cfg, fromFile lib content = .ok cfg ∧ cfg.loaded = true ∧ Agrees root cfg) ∧
  ((¬ ∃ text root, content = some text ∧ lib.tryParse text = .ok root ∧ WellTyped root) →
    fromFile lib content = .ok {})

variable {lib : Lib} {text : Bytes}

/-- What is returned for a document is what `load` makes of it: the `catch` is for the parser. -/
theorem fromFile_eq_ok_iff (h : lib.tryParse text = .ok root) {cfg : AppConfig} :
    fromFile lib (some text) = .ok cfg ↔ load root {} = (.ok (), cfg) := by
  have hparse : lib.parse text = .ok root := by rw [Lib.parse, parseBy, h]
  rw [fromFile, hparse, Prog.lift_ok_bind]
  rcases hload : load root {} with ⟨_ | e | _, cfg'⟩
  · simp
  · obtain ⟨what, rfl⟩ := (regular_load root).typeError {} e (by rw [hload])
    simp
  · simp

/-- A file that is not JSON is answered with the defaults. -/
theorem fromFile_of_parseError {what : Bytes} (h : lib.tryParse text = .error (.parseError what)) :
    fromFile lib (some text) = .ok {} := by
  rw [fromFile, Lib.parse, parseBy, h]
  rfl

/-- A number without a value in `double` ends the loading with its exception. -/
theorem fromFile_of_outOfRange {what : Bytes} (h : lib.tryParse text = .error (.outOfRange what)) :
    fromFile lib (some text) = .throw (.outOfRange what) := by
  rw [fromFile, Lib.parse, parseBy, h]
  rfl

/-- What is returned for a document is marked as loaded and in range. -/
theorem loaded_of_fromFile (h : lib.tryParse text = .ok root) {cfg : AppConfig}
    (hcfg : fromFile lib (some text) = .ok cfg) : cfg.loaded = true ∧ InRange cfg := by
  rw [fromFile_eq_ok_iff h] at hcfg
  have hrange := (regular_load root).inRange {} inRange_default
  rw [hcfg] at hrange
  exact ⟨loaded_of_load hcfg, hrange⟩

/-- The numbers of a document fit where they are those of a configuration in range. -/
theorem Agrees.numbersFit {cfg : AppConfig} (h : Agrees root cfg) (hcfg : InRange cfg) :
    NumbersFit root := by
  intro f hf
  simp only [numberFields, List.mem_cons, List.not_mem_nil, or_false] at hf
  rcases hf with rfl | rfl | rfl | rfl | rfl | rfl | rfl
  · exact h.port.numberFits hcfg.port
  · exact h.threadCount.numberFits hcfg.threadCount
  · exact h.threadPoolSize.numberFits hcfg.threadPoolSize
  · exact h.dbPort.numberFits hcfg.dbPort
  · exact h.dbPoolSize.numberFits hcfg.dbPoolSize
  · exact h.rateLimitCapacity.numberFits hcfg.rateLimitCapacity
  · exact h.rateLimitRefillRate.numberFits hcfg.rateLimitRefillRate

/-- A document is loaded as a whole or replaced by the defaults exactly if it is well typed and its
numbers fit. -/
theorem loadsAllOrNothing_parsed_iff (h : lib.tryParse text = .ok root) :
    LoadsAllOrNothing lib (some text) ↔ WellTyped root ∧ NumbersFit root := by
  constructor
  · rintro ⟨hall, hnothing⟩
    have htyped : WellTyped root := by
      by_contra htyped
      have hdefault := hnothing fun ⟨text', root', ht, hroot, hwell⟩ => by
        cases ht
        rw [h] at hroot
        cases hroot
        exact htyped hwell
      -- a configuration that is returned for a document is marked as loaded
      have hloaded := (loaded_of_fromFile h hdefault).1
      cases hloaded
    obtain ⟨cfg, hcfg, -, hagrees⟩ := hall text root rfl h htyped
    exact ⟨htyped, hagrees.numbersFit (loaded_of_fromFile h hcfg).2⟩
  · rintro ⟨htyped, hfit⟩
    refine ⟨fun text' root' ht hroot _ => ?_, fun hnone => ?_⟩
    swap
    · exact absurd ⟨text, root, rfl, h, htyped⟩ hnone
    cases ht
    rw [h] at hroot
    cases hroot
    obtain ⟨cfg, hload, hloaded, hagrees⟩ := exists_load htyped hfit
    exact ⟨cfg, (fromFile_eq_ok_iff h).mpr hload, hloaded, hagrees⟩

/-- Where there is no document, there is nothing to load. -/
theorem loadsAllOrNothing_iff_of_no_document {content : Option Bytes}
    (h : ¬ ∃ text root, content = some text ∧ lib.tryParse text = .ok root) :
    LoadsAllOrNothing lib content ↔ fromFile lib content = .ok {} := by
  constructor
  · exact fun hall => hall.2 fun ⟨text, root, ht, hroot, _⟩ => h ⟨text, root, ht, hroot⟩
  · exact fun heq => ⟨fun text root ht hroot _ => absurd ⟨text, root, ht, hroot⟩ h, fun _ => heq⟩

/-- **Loading is total and all-or-nothing exactly where** there is no file, its text is malformed,
or it is a document whose known sections and fields all have the expected kind and whose numbers
are values of the types of their fields. -/
theorem loadsAllOrNothing_iff (lib : Lib) (content : Option Bytes) :
    LoadsAllOrNothing lib content ↔
      content = none ∨ ∃ text, content = some text ∧
        ((∃ what, lib.tryParse text = .error (.parseError what)) ∨
          ∃ root, lib.tryParse text = .ok root ∧ WellTyped root ∧ NumbersFit root) := by
  cases content with
  | none =>
    refine iff_of_true ?_ (.inl rfl)
    exact (loadsAllOrNothing_iff_of_no_document (by simp)).mpr rfl
  | some text =>
    cases h : lib.tryParse text with
    | ok root =>
      rw [loadsAllOrNothing_parsed_iff h]
      simp [h]
    | error failure =>
      rw [loadsAllOrNothing_iff_of_no_document (by simp [h])]
      cases failure with
      | parseError what => simp [h, fromFile_of_parseError h]
      | outOfRange what => simp [h, fromFile_of_outOfRange h]

/-- A port that is written as a text: the type error leaves `from_file`. -/
theorem not_loadsAllOrNothing_text_port :
    let root : Json := .obj [("server", .obj [("port", .lit "8080")])]
    let text := utf8 "\x7b\"server\":\x7b\"port\":\"8080\"\x7d\x7d"
    ¬ LoadsAllOrNothing (Lib.ofTable [(text, ⟨root, by decide +kernel⟩)]) (some text) := by
  intro root text hall
  have hparse : (Lib.ofTable [(text, ⟨root, by decide +kernel⟩)]).tryParse text = .ok root := by
    simp [Lib.ofTable, List.lookup_cons]
  obtain ⟨htyped, -⟩ := (loadsAllOrNothing_parsed_iff hparse).mp hall
  have hport := htyped.numbers (["server", "port"], 0, 2 ^ 16) (by simp [numberFields])
    (.lit "8080") rfl
  simp [lit] at hport

end AppConfig

end AiSwitch
