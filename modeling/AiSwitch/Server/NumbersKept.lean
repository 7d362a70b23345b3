import AiSwitch.Adapter.RequestBody
import AiSwitch.Server.CreateKey
import AiSwitch.Util.Config

/-!
# Numbers from documents

The limit of a new key, the maximum of tokens of a chat request and the sizes of the configuration
are read by `value`, which converts a number to the type of the default without a check of its
range, and some of them are converted once more where they are used. `Setting.keeps_iff` reduces
what the program goes on to use to these two conversions (`Setting.convert`, `Setting.use`), and
`numbers_kept_iff` says which numbers come through them unchanged.
-/

namespace AiSwitch

open ByteString Effect Nlohmann Nlohmann.Json Http

/-! ## The sizes of the configuration -/

/-- A number of the configuration by which a socket is bound or a pool is sized. -/
inductive Size where
  | port
  | threadCount
  | threadPoolSize
  | dbPort
  | dbPoolSize
deriving DecidableEq, Repr

namespace Size

open AppConfig

/-- The section of the configuration that the size stands in. -/
def sec : Size → String
  | port | threadCount | threadPoolSize => "server"
  | dbPort | dbPoolSize => "database"

/-- The key of the size in its section. -/
def key : Size → String
  | port | dbPort => "port"
  | threadCount => "thread_count"
  | threadPoolSize => "thread_pool_size"
  | dbPoolSize => "pool_size"

/-- The conversion to the type of its field. -/
def convert : Size → Json → Outcome Exn ℤ
  | port => getUInt 16
  | dbPort => getUInt 32
  | threadCount | threadPoolSize | dbPoolSize => getInt 32

def field : Size → AppConfig → ℤ
  | port => (·.port)
  | threadCount => (·.threadCount)
  | threadPoolSize => (·.threadPoolSize)
  | dbPort => (·.dbPort)
  | dbPoolSize => (·.dbPoolSize)

/-- What is done with the field: `http_server` computes `thread_count + 1` before it takes
`thread_count`, and the parameter of `thread_pool` is a `size_t`. -/
def use : Size → ℤ → Outcome Exn ℤ
  | port, m | dbPort, m | dbPoolSize, m => .ok m
  | threadCount, m => if m + 1 < 2 ^ 31 then .ok m else .ub
  | threadPoolSize, m => .ok (m % 2 ^ 64)

/-- The document that sets nothing else. -/
def document (s : Size) (v : Json) : Json := .obj [(s.sec, .obj [(s.key, v)])]

end Size

/-! ### What is loaded -/

namespace AppConfig

variable {root sec : Json} {cfg cfg' : AppConfig}

/-- The section of the server is loaded where its four members can be read, and stores them. -/
theorem loadServer_eq_ok_iff : loadServer sec cfg = (.ok (), cfg') ↔
    ∃ host port threadCount threadPoolSize,
      sec.value "host" getString cfg.host = .ok host ∧
      sec.value "port" (getUInt 16) cfg.port = .ok port ∧
      sec.value "thread_count" (getInt 32) cfg.threadCount = .ok threadCount ∧
      sec.value "thread_pool_size" (getInt 32) cfg.threadPoolSize = .ok threadPoolSize ∧
      cfg' = { cfg with
        host := host, port := port, threadCount := threadCount
        threadPoolSize := threadPoolSize } := by
  simp only [loadServer, Prog.bind_eq_ok_iff, assign_eq_ok_iff]
  constructor
  · rintro ⟨-, _, ⟨host, hhost, rfl⟩, -, _, ⟨port, hport, rfl⟩, -, _, ⟨count, hcount, rfl⟩, size,
      hsize, rfl⟩
    exact ⟨host, port, count, size, hhost, hport, hcount, hsize, rfl⟩
  · rintro ⟨host, port, count, size, hhost, hport, hcount, hsize, rfl⟩
    exact ⟨(), _, ⟨host, hhost, rfl⟩, (), _, ⟨port, hport, rfl⟩, (), _, ⟨count, hcount, rfl⟩, size,
      hsize, rfl⟩

/-- The section of the database is loaded where its six members can be read, and stores them. -/
theorem loadDatabase_eq_ok_iff : loadDatabase sec cfg = (.ok (), cfg') ↔
    ∃ host port user password name poolSize,
      sec.value "host" getString cfg.dbHost = .ok host ∧
      sec.value "port" (getUInt 32) cfg.dbPort = .ok port ∧
      sec.value "user" getString cfg.dbUser = .ok user ∧
      sec.value "password" getString cfg.dbPassword = .ok password ∧
      sec.value "db" getString cfg.dbName = .ok name ∧
      sec.value "pool_size" (getInt 32) cfg.dbPoolSize = .ok poolSize ∧
      cfg' = { cfg with
        dbHost := host, dbPort := port, dbUser := user, dbPassword := password, dbName := name
        dbPoolSize := poolSize } := by
  simp only [loadDatabase, Prog.bind_eq_ok_iff, assign_eq_ok_iff]
  constructor
  · rintro ⟨-, _, ⟨host, hhost, rfl⟩, -, _, ⟨port, hport, rfl⟩, -, _, ⟨user, huser, rfl⟩, -, _,
      ⟨password, hpassword, rfl⟩, -, _, ⟨name, hname, rfl⟩, size, hsize, rfl⟩
    exact ⟨host, port, user, password, name, size, hhost, hport, huser, hpassword, hname, hsize,
      rfl⟩
  · rintro ⟨host, port, user, password, name, size, hhost, hport, huser, hpassword, hname, hsize,
      rfl⟩
    exact ⟨(), _, ⟨host, hhost, rfl⟩, (), _, ⟨port, hport, rfl⟩, (), _, ⟨user, huser, rfl⟩, (), _,
      ⟨password, hpassword, rfl⟩, (), _, ⟨name, hname, rfl⟩, size, hsize, rfl⟩

/-- The sizes are left as they are. -/
def SameSizes (cfg cfg' : AppConfig) : Prop := ∀ s : Size, s.field cfg' = s.field cfg

/-- Doing nothing changes no size. -/
theorem sameSizes_refl (cfg : AppConfig) : SameSizes cfg cfg := fun _ => rfl

/-- Two loadings that change no size change none together. -/
theorem sameSizes_trans (c₁ c₂ c₃ : AppConfig) (h : SameSizes c₁ c₂) (h' : SameSizes c₂ c₃) :
    SameSizes c₁ c₃ := fun s => (h' s).trans (h s)

/-- An assignment to another field changes no size. -/
theorem moves_assign {α : Type} {value : AppConfig → Outcome Exn α}
    {store : AppConfig → α → AppConfig} (h : ∀ cfg v, SameSizes cfg (store cfg v)) :
    Prog.Moves SameSizes (assign value store) := by
  intro cfg
  rw [assign, Prog.read_bind_apply, id]
  cases value cfg with
  | ok v => exact h cfg v
  | throw e => exact sameSizes_refl cfg
  | ub => exact sameSizes_refl cfg

/-- What `load` does after the first two sections. -/
def loadRest (root : Json) : Loading := do
  loadRateLimiter (sectionOf root ["rate_limiter"])
  loadDeepseek (sectionOf root ["ai_models", "deepseek"])
  loadOpenai (sectionOf root ["ai_models", "openai"])
  loadAnthropic (sectionOf root ["ai_models", "anthropic"])
  loadAdmin (sectionOf root ["admin"])
  Prog.modify fun cfg => { cfg with loaded := true }

/-- What `load` does after the first two sections changes no size. -/
theorem moves_loadRest (root : Json) : Prog.Moves SameSizes (loadRest root) := by
  have hbind : ∀ {x : Loading} {f : Unit → Loading}, Prog.Moves SameSizes x →
      (∀ u, Prog.Moves SameSizes (f u)) → Prog.Moves SameSizes (x >>= f) :=
    fun hx hf => hx.bind sameSizes_trans hf
  unfold loadRest
  refine hbind (hbind (moves_assign ?_) fun _ => moves_assign ?_) fun _ =>
    hbind (hbind (moves_assign ?_) fun _ => moves_assign ?_) fun _ =>
    hbind (hbind (moves_assign ?_) fun _ => moves_assign ?_) fun _ =>
    hbind (hbind (moves_assign ?_) fun _ => moves_assign ?_) fun _ =>
    hbind (moves_assign ?_) fun _ => show Prog.Moves SameSizes (Prog.modify _) from ?_
  -- neither a store nor the flag is one of the sizes
  case refine_10 =>
    intro cfg s
    cases s <;> rfl
  all_goals
    intro cfg v s
    cases s <;> rfl

/-- After the server and the database no section holds a size. -/
theorem load_eq_loadRest (root : Json) : load root = (do
    loadServer (sectionOf root ["server"])
    loadDatabase (sectionOf root ["database"])
    loadRest root) := load_eq root

/-- **What a size is read as.** -/
theorem value_of_load (h : load root {} = (.ok (), cfg)) (s : Size) :
    (sectionOf root [s.sec]).value s.key s.convert (s.field {}) = .ok (s.field cfg) := by
  rw [load_eq_loadRest] at h
  obtain ⟨_, c₁, hserver, h⟩ := Prog.bind_eq_ok_iff.mp h
  obtain ⟨_, c₂, hdatabase, h⟩ := Prog.bind_eq_ok_iff.mp h
  have hrest := moves_loadRest root c₂ s
  rw [h] at hrest
  obtain ⟨host, port, count, size, -, hport, hcount, hsize, rfl⟩ :=
    loadServer_eq_ok_iff.mp hserver
  obtain ⟨dbHost, dbPort, user, password, name, pool, -, hdbPort, -, -, -, hpool, rfl⟩ :=
    loadDatabase_eq_ok_iff.mp hdatabase
  rw [hrest]
  cases s
  · exact hport
  · exact hcount
  · exact hsize
  · exact hdbPort
  · exact hpool

/-- A document with one size is loaded if the size converts. -/
theorem exists_load_document (s : Size) {v : Json} {m : ℤ} (h : s.convert v = .ok m) :
    ∃ cfg, load (s.document v) {} = (.ok (), cfg) := by
  have hserver : ∃ cfg, loadServer (sectionOf (s.document v) ["server"]) {} = (.ok (), cfg) := by
    cases s
    · exact ⟨_, loadServer_eq_ok_iff.mpr ⟨_, m, _, _, rfl, h, rfl, rfl, rfl⟩⟩
    · exact ⟨_, loadServer_eq_ok_iff.mpr ⟨_, _, m, _, rfl, rfl, h, rfl, rfl⟩⟩
    · exact ⟨_, loadServer_eq_ok_iff.mpr ⟨_, _, _, m, rfl, rfl, rfl, h, rfl⟩⟩
    · exact ⟨_, rfl⟩
    · exact ⟨_, rfl⟩
  obtain ⟨c₁, hserver⟩ := hserver
  have hdatabase : ∃ cfg, loadDatabase (sectionOf (s.document v) ["database"]) c₁
      = (.ok (), cfg) := by
    cases s
    · exact ⟨_, rfl⟩
    · exact ⟨_, rfl⟩
    · exact ⟨_, rfl⟩
    · exact ⟨_, loadDatabase_eq_ok_iff.mpr ⟨_, m, _, _, _, _, rfl, h, rfl, rfl, rfl, rfl, rfl⟩⟩
    · exact ⟨_, loadDatabase_eq_ok_iff.mpr ⟨_, _, _, _, _, m, rfl, rfl, rfl, rfl, rfl, h, rfl⟩⟩
  obtain ⟨c₂, hdatabase⟩ := hdatabase
  have hrest : ∃ cfg, loadRest (s.document v) c₂ = (.ok (), cfg) := by
    cases s <;> exact ⟨_, rfl⟩
  obtain ⟨cfg, hrest⟩ := hrest
  rw [load_eq_loadRest, Prog.bind_of_ok hserver, Prog.bind_of_ok hdatabase]
  exact ⟨cfg, hrest⟩

end AppConfig

/-! ## The settings -/

/-- A number that the program reads from a document. -/
inductive Setting where
  | rateLimit
  | anthropicMaxTokens
  | openaiMaxTokens
  | size (s : Size)
deriving DecidableEq, Repr

/-- The limit of a new key is `n`: of the row that a request adds, and of the key that it is
answered with. -/
def LimitsTo (v : Json) (n : ℤ) : Prop :=
  ∀ (gw : Gateway) (w w' : World) (req : Request) (body : Json) (res : Response),
    gw.verifyAdmin req.toRequestHeader = true → gw.lib.tryParse req.body = .ok body →
    body.member "rate_limit" = some v → gw.handleCreateKey req w = (.ok res, w') →
    (∀ row, w'.db.table = w.db.table ++ [row] → row.rateLimit = n) ∧
      ∀ key : ApiKeyInfo, key.apiKey ≠ [] →
        res = makeJsonResponse (gw.lib.text (Gateway.createdDocument key)) req.version
          req.keepAlive → key.rateLimit = n

/-- The maximum of tokens that is forwarded is `n`. -/
def Forwards (build : Json → Bool → Outcome Exn Json) (v : Json) (n : ℤ) : Prop :=
  ∀ request stream body, request.member "max_tokens" = some v →
    build request stream = .ok body → body.member "max_tokens" = some (.integer n)

/-- What is done with the size of a configuration is done with `n`. -/
def Size.Loads (s : Size) (v : Json) (n : ℤ) : Prop :=
  ∀ (lib : Lib) text root cfg, lib.tryParse text = .ok root → root.path [s.sec, s.key] = some v →
    AppConfig.fromFile lib (some text) = .ok cfg → s.use (s.field cfg) = .ok n

namespace Setting

/-- The conversion to the type of the default. -/
def convert : Setting → Json → Outcome Exn ℤ
  | rateLimit | anthropicMaxTokens | openaiMaxTokens => getInt 32
  | size s => s.convert

/-- What is done with the result. -/
def use : Setting → ℤ → Outcome Exn ℤ
  | rateLimit, m | anthropicMaxTokens, m | openaiMaxTokens, m => .ok m
  | size s, m => s.use m

/-- **The number is kept.** Whatever document has the value, and whatever state it meets, it is
read, and what the program goes on to use of it is `n`, unless the document is rejected. -/
def Keeps (s : Setting) (v : Json) (n : ℤ) : Prop :=
  s.convert v ≠ .ub ∧
    match s with
    | rateLimit => LimitsTo v n
    | anthropicMaxTokens => ∀ a : Anthropic, Forwards a.buildRequestBody v n
    | openaiMaxTokens => ∀ a : OpenaiCompatible, Forwards a.buildRequestBody v n
    | size s => s.Loads v n

end Setting

/-! ### What is used -/

section

variable {v : Json} {m n : ℤ}

/-- The limit of a key that is created on an empty table is the one that is read. -/
theorem eq_of_limitsTo (hv : v.isValid = true) (h : getInt 32 v = .ok m) (hlimits : LimitsTo v n) :
    m = n := by
  let body : Json := .obj [("name", .lit "k"), ("rate_limit", v)]
  have hbody : body.isValid = true := by
    rw [Json.isValid_obj_iff (by simp)]
    simpa [hv, lit] using validUtf8_utf8 "k"
  let gw : Gateway := .small [([], ⟨body, hbody⟩)] []
  let req : Request := { Gateway.createRequest [] with body := [] }
  have hadmin : gw.verifyAdmin req.toRequestHeader = true :=
    show (Gateway.small [] []).verifyAdmin (Gateway.createRequest []).toRequestHeader = true by
      decide +kernel
  have hadds : gw.Adds World.small.db (utf8 "k") m _ := ⟨rfl, rfl⟩
  obtain ⟨w', hw', htable⟩ := Gateway.createKeyWith_of_adds
    (w := { World.small with trace := World.small.trace ++ [.handler .createKey] }) hbody rfl
    (show body.value "rate_limit" (getInt 32) 60 = .ok m from h) (by decide) (by decide +kernel)
    (gw.backend.fits_of_length_le (by decide)) req.toRequestHeader hadds
  have hrun := (Gateway.handleCreateKey_of_ok (w := World.small) hadmin rfl).trans hw'
  exact (hlimits gw World.small w' req body _ hadmin rfl rfl hrun).1 _ htable

/-- The limit of a new key is the number as it is converted to 32 bits. -/
theorem limitsTo_of_getInt (h : getInt 32 v = .ok m) : LimitsTo v m := by
  rintro gw w w' req body res hadmin hparse hmember hrun
  have hlimit := (value_of_member hmember (getInt 32) 60).trans h
  rw [Gateway.handleCreateKey_of_ok hadmin hparse] at hrun
  obtain ⟨hres, htable⟩ :=
    Gateway.createKeyWith_eq_ok (gw.lib.valid_of_tryParse hparse) hlimit hrun
  constructor
  · intro row hrow
    rcases htable with htable | ⟨row', hrow', hm⟩
    · rw [hrow] at htable
      simp at htable
    · rw [hrow, List.append_cancel_left_eq, List.singleton_inj] at hrow'
      rw [hrow', hm]
  · rintro key hkey rfl
    rcases hres with hstatus | ⟨key', hkey', hres⟩
    · exact absurd rfl hstatus
    · obtain ⟨happ, -, hlim⟩ := Gateway.text_createdDocument_inj (congrArg Response.body hres)
      rcases hkey' with rfl | hkey'
      · exact absurd happ hkey
      · rw [hlim, hkey']

/-- The limit of a new key is no other than the number as it is converted to 32 bits. -/
theorem limitsTo_iff (hv : v.isValid = true) (h : getInt 32 v = .ok m) :
    LimitsTo v n ↔ m = n :=
  ⟨eq_of_limitsTo hv h, fun hmn => hmn ▸ limitsTo_of_getInt h⟩

/-- Anthropic's adapter forwards the number as it is converted to 32 bits. -/
theorem forwards_anthropic_iff (h : getInt 32 v = .ok m) :
    (∀ a : Anthropic, Forwards a.buildRequestBody v n) ↔ m = n := by
  constructor
  · intro hforwards
    let a : Anthropic := { apiKey := [] }
    let request : Json := .obj [("max_tokens", v)]
    obtain ⟨body, hbody, -, -, htokens⟩ :=
      @Anthropic.exists_buildRequestBody_eq a request false _ _ _ _ rfl
        (show request.value "max_tokens" (getInt 32) 2048 = .ok m from h) rfl rfl
    have hn := hforwards a request false body rfl hbody
    rw [htokens] at hn
    cases hn
    rfl
  · rintro rfl a request stream body hmember hbody
    exact Anthropic.member_max_tokens ((value_of_member hmember (getInt 32) 2048).trans h) hbody

/-- An OpenAI-compatible adapter forwards the number as it is converted to 32 bits. -/
theorem forwards_openai_iff (h : getInt 32 v = .ok m) :
    (∀ a : OpenaiCompatible, Forwards a.buildRequestBody v n) ↔ m = n := by
  constructor
  · intro hforwards
    let a := openaiAdapter [] []
    let request : Json := .obj [("max_tokens", v), ("messages", .array [])]
    obtain ⟨body, hbody, -, -, -, htokens, -⟩ :=
      OpenaiCompatible.exists_members_eq a false (show request.isObject = true from rfl)
        (by simp [Unconvertible, request, member, obj, lookup_insertField, utf8_inj])
        (show request.member "messages" = some (.array []) from rfl) rfl
        (show request.value "max_tokens" (getInt 32) 2048 = .ok m from h)
    have hn := hforwards a request false body rfl hbody
    rw [htokens] at hn
    cases hn
    rfl
  · rintro rfl a request stream body hmember hbody
    exact OpenaiCompatible.member_max_tokens
      ((value_of_member hmember (getInt 32) 2048).trans h) hbody

/-- A size of the configuration is loaded and used as its two conversions have it. -/
theorem Size.loads_iff (s : Size) (hv : v.isValid = true) (h : s.convert v = .ok m) :
    s.Loads v n ↔ s.use m = .ok n := by
  -- the field is the value, converted
  have hfield : ∀ {root : Json} {cfg : AppConfig}, root.path [s.sec, s.key] = some v →
      AppConfig.load root {} = (.ok (), cfg) → s.field cfg = m := by
    intro root cfg hpath hload
    have hmember : (AppConfig.sectionOf root [s.sec]).member s.key = some v :=
      (AppConfig.member_sectionOf root [s.sec] s.key).trans hpath
    have hvalue := AppConfig.value_of_load hload s
    rw [value_of_member hmember, h] at hvalue
    exact (Outcome.ok.inj hvalue).symm
  constructor
  · intro hloads
    obtain ⟨cfg, hload⟩ := AppConfig.exists_load_document s h
    have hroot : (s.document v).isValid = true := by
      rw [document, Json.isValid_obj_iff (by simp)]
      simp [Json.isValid_obj_iff, hv]
    have hparse : (Lib.ofTable [([], ⟨s.document v, hroot⟩)]).tryParse [] = .ok (s.document v) :=
      rfl
    have hpath : (s.document v).path [s.sec, s.key] = some v := by
      cases s <;> rfl
    have huse := hloads _ _ _ cfg hparse hpath ((AppConfig.fromFile_eq_ok_iff hparse).mpr hload)
    rwa [hfield hpath hload] at huse
  · intro huse lib text root cfg hparse hpath hcfg
    rw [hfield hpath ((AppConfig.fromFile_eq_ok_iff hparse).mp hcfg)]
    exact huse

/-! ### Two conversions -/

/-- A number can be serialised. -/
theorem IsNumber.isValid (h : v.IsNumber n) : v.isValid = true := by
  rcases h with rfl | rfl <;> rfl

/-- A number is not refused. -/
theorem getInt_ne_throw (h : v.IsNumber n) (w : ℕ) (e : Exn) : v.getInt w ≠ .throw e := by
  rcases h with rfl | rfl
  · simp [getInt]
  · rw [getInt]
    split <;> simp

/-- An unsigned conversion does not refuse a number. -/
theorem getUInt_ne_throw (h : v.IsNumber n) (w : ℕ) (e : Exn) : v.getUInt w ≠ .throw e := by
  rcases h with rfl | rfl
  · simp [getUInt]
  · rw [getUInt]
    split <;> simp

/-- No setting refuses a number. -/
theorem Setting.convert_ne_throw (s : Setting) (h : v.IsNumber n) (e : Exn) :
    s.convert v ≠ .throw e := by
  cases s with
  | rateLimit | anthropicMaxTokens | openaiMaxTokens => exact getInt_ne_throw h 32 e
  | size s =>
    cases s with
    | port => exact getUInt_ne_throw h 16 e
    | dbPort => exact getUInt_ne_throw h 32 e
    | threadCount | threadPoolSize | dbPoolSize => exact getInt_ne_throw h 32 e

/-- A number is kept where the two conversions keep it. -/
theorem Setting.keeps_iff (s : Setting) (hv : v.IsNumber n) :
    s.Keeps v n ↔ ∃ m, s.convert v = .ok m ∧ s.use m = .ok n := by
  unfold Keeps
  cases h : s.convert v with
  | throw e => exact absurd h (s.convert_ne_throw hv e)
  | ub => simp
  | ok m =>
    rw [and_iff_right (by simp)]
    simp only [Outcome.ok.injEq, exists_eq_left']
    cases s with
    | rateLimit => simpa [use] using limitsTo_iff (IsNumber.isValid hv) h
    | anthropicMaxTokens => simpa [use] using forwards_anthropic_iff h
    | openaiMaxTokens => simpa [use] using forwards_openai_iff h
    | size s => exact s.loads_iff (IsNumber.isValid hv) h

/-- The numbers that come through: the values of the type, but the largest `int` for `thread_count`,
and for `thread_pool_size` no negative one. Of the integers beyond `int`, the second conversion of
`thread_pool_size` undoes the first on the last `2 ^ 31` below `2 ^ 64`. -/
def Setting.Admits : Setting → Json → ℤ → Prop
  | size .port, _, n => 0 ≤ n ∧ n < 2 ^ 16
  | size .dbPort, _, n => 0 ≤ n ∧ n < 2 ^ 32
  | size .threadCount, _, n => -2 ^ 31 ≤ n ∧ n < 2 ^ 31 - 1
  | size .threadPoolSize, v, n =>
    0 ≤ n ∧ n < 2 ^ 31 ∨ v = .integer n ∧ 2 ^ 64 - 2 ^ 31 ≤ n ∧ n < 2 ^ 64
  | rateLimit, _, n | anthropicMaxTokens, _, n | openaiMaxTokens, _, n | size .dbPoolSize, _, n =>
    -2 ^ 31 ≤ n ∧ n < 2 ^ 31

/-- A fraction that is read is read as itself. -/
theorem eq_of_getInt_floating {w : ℕ} (h : (Json.floating n).getInt w = .ok m) : m = n := by
  rw [getInt] at h
  split_ifs at h
  simpa using (Outcome.ok.inj h).symm

/-- A negative `int` and the `size_t` that is made of it are one number modulo `2 ^ 64`. -/
theorem threadPoolSize_iff (hv : v.IsNumber n) :
    (∃ m, v.getInt 32 = .ok m ∧ Size.threadPoolSize.use m = .ok n) ↔
      (Setting.size .threadPoolSize).Admits v n := by
  constructor
  · rintro ⟨m, hm, huse⟩
    have hn : m % 2 ^ 64 = n := Outcome.ok.inj huse
    have hrange := AppConfig.convertsTo_int.range hm
    rcases hv with rfl | rfl
    · by_cases hpos : 0 ≤ m
      · exact .inl (by omega)
      · exact .inr ⟨rfl, by omega⟩
    · have heq := eq_of_getInt_floating hm
      exact .inl (by omega)
  · rintro (hn | ⟨rfl, hn⟩)
    · refine ⟨n, AppConfig.convertsTo_int.keeps hv ⟨by omega, hn.2⟩, ?_⟩
      rw [Size.use, Int.emod_eq_of_lt hn.1 (by omega)]
    · have hbmod : n.bmod (2 ^ 32) = n - 2 ^ 64 := by
        rw [Int.bmod_def]
        split_ifs <;> omega
      refine ⟨n - 2 ^ 64, by rw [getInt, hbmod], ?_⟩
      rw [Size.use]
      congr 1
      omega

/-- The largest `int` is too large for the hint of the event loop. -/
theorem threadCount_iff (hv : v.IsNumber n) :
    (∃ m, v.getInt 32 = .ok m ∧ Size.threadCount.use m = .ok n) ↔
      (Setting.size .threadCount).Admits v n := by
  constructor
  · rintro ⟨m, hm, huse⟩
    have hrange := AppConfig.convertsTo_int.range hm
    rw [Size.use] at huse
    split_ifs at huse with hlt
    cases huse
    exact ⟨hrange.1, by omega⟩
  · rintro ⟨hlo, hhi⟩
    refine ⟨n, AppConfig.convertsTo_int.keeps hv ⟨hlo, by omega⟩, ?_⟩
    rw [Size.use, if_pos (by omega)]

/-- **Which numbers are kept.** A number of a document that is read for a setting is what the
program goes on to use exactly if it comes through the conversions. -/
theorem numbers_kept_iff (s : Setting) {v : Json} {n : ℤ} (hv : v.IsNumber n) :
    s.Keeps v n ↔ s.Admits v n := by
  rw [s.keeps_iff hv]
  -- what is used as it was read is kept by one conversion
  have hread : ∀ {get : Json → Outcome Exn ℤ} {lo hi : ℤ}, ConvertsTo get lo hi →
      ((∃ m, get v = .ok m ∧ (.ok m : Outcome Exn ℤ) = .ok n) ↔ lo ≤ n ∧ n < hi) := by
    intro get lo hi hget
    rw [← hget.eq_ok_iff hv]
    simp
  cases s with
  | rateLimit | anthropicMaxTokens | openaiMaxTokens => exact hread AppConfig.convertsTo_int
  | size s =>
    cases s with
    | port => exact hread AppConfig.convertsTo_uint16
    | threadCount => exact threadCount_iff hv
    | threadPoolSize => exact threadPoolSize_iff hv
    | dbPort => exact hread AppConfig.convertsTo_uint
    | dbPoolSize => exact hread AppConfig.convertsTo_int

/-- The equivalence at a limit of sixty, which is kept. -/
theorem numbers_kept_iff_rate_limit_60 : Setting.rateLimit.Keeps (.integer 60) 60 :=
  (numbers_kept_iff .rateLimit (isNumber_integer 60)).mpr ⟨by decide, by decide⟩

/-- A port beyond 16 bits is bound modulo `2 ^ 16`. -/
theorem not_keeps_port_70000 : ¬ (Setting.size .port).Keeps (.integer 70000) 70000 := by
  rw [Setting.keeps_iff _ (isNumber_integer 70000)]
  rintro ⟨m, hm, huse⟩
  cases hm
  exact absurd huse (by decide)

end

end AiSwitch
