import MassDeployment.Lib.Dict
import MassDeployment.Lib.Toml

set_option autoImplicit false

/-! # The agent's configuration (`config.py`, `cli.py`)

The configuration is a table of 27 keys. It is read with a TOML parser and written by hand, so a
configuration survives being saved only as far as what is written is TOML for the same values.
-/

namespace MassDeployment.Agent

open Toml

/-- The attributes of `AgentConfig`. -/
inductive Field where
  | controllerUrl | token | nodeName | fastPool | slowPool | slowBackend | slowPath
  | fastMountRoot | coldMountRoot | usernsUser | usernsStart | usernsSize
  | dockerDataRoot | dockerDatasetName | dockerQuotaGb | seccompProfile | apparmorProfile
  | stateDb | heartbeatIntervalS | usagePublishIntervalS | labUsageIntervalS
  | usageScanIntervalS | aptUpdateEnabled | aptUpdateIntervalS | aptUpdateCheckIntervalS
  | aptUpdateTimeoutS | tlsVerify
  deriving DecidableEq

def Field.key : Field → String
  | .controllerUrl => "controller_url"
  | .token => "token"
  | .nodeName => "node_name"
  | .fastPool => "fast_pool"
  | .slowPool => "slow_pool"
  | .slowBackend => "slow_backend"
  | .slowPath => "slow_path"
  | .fastMountRoot => "fast_mount_root"
  | .coldMountRoot => "cold_mount_root"
  | .usernsUser => "userns_user"
  | .usernsStart => "userns_start"
  | .usernsSize => "userns_size"
  | .dockerDataRoot => "docker_data_root"
  | .dockerDatasetName => "docker_dataset_name"
  | .dockerQuotaGb => "docker_quota_gb"
  | .seccompProfile => "seccomp_profile"
  | .apparmorProfile => "apparmor_profile"
  | .stateDb => "state_db"
  | .heartbeatIntervalS => "heartbeat_interval_s"
  | .usagePublishIntervalS => "usage_publish_interval_s"
  | .labUsageIntervalS => "lab_usage_interval_s"
  | .usageScanIntervalS => "usage_scan_interval_s"
  | .aptUpdateEnabled => "apt_update_enabled"
  | .aptUpdateIntervalS => "apt_update_interval_s"
  | .aptUpdateCheckIntervalS => "apt_update_check_interval_s"
  | .aptUpdateTimeoutS => "apt_update_timeout_s"
  | .tlsVerify => "tls_verify"

/-- An `AgentConfig` by its attributes; nothing checks their types. -/
abbrev AgentConfig := Field → Value

/-- `setattr`. -/
def AgentConfig.set (cfg : AgentConfig) (f : Field) (v : Value) : AgentConfig :=
  Function.update cfg f v

/-- The defaults of the attributes that have one. -/
def defaults (hostname : String) : AgentConfig
  | .controllerUrl | .token => .str ""
  | .nodeName => .str hostname
  | .fastPool => .str "fast"
  | .slowPool => .str "slow"
  | .slowBackend => .str "zfs"
  | .slowPath => .str "/cold-storage"
  | .fastMountRoot => .str "/fast"
  | .coldMountRoot => .str "/cold-storage"
  | .usernsUser => .str "labdockremap"
  | .usernsStart => .int 231072
  | .usernsSize => .int 65536
  | .dockerDataRoot => .str "/var/lib/docker"
  | .dockerDatasetName => .str "docker"
  | .dockerQuotaGb => .int 1024
  | .seccompProfile => .str "/etc/lab-agent/security/lab-codex-seccomp.json"
  | .apparmorProfile => .str "lab-codex"
  | .stateDb => .str "/var/lib/lab-agent/state.db"
  | .heartbeatIntervalS => .int 15
  | .usagePublishIntervalS => .int 120
  | .labUsageIntervalS => .int 300
  | .usageScanIntervalS => .int 86400
  | .aptUpdateEnabled => .bool true
  | .aptUpdateIntervalS => .int 604800
  | .aptUpdateCheckIntervalS => .int 3600
  | .aptUpdateTimeoutS => .int 1800
  | .tlsVerify => .bool true

inductive ConfigError where
  | notFound
  /-- `TOMLDecodeError`, and `ValueError` of a number with too many digits. -/
  | notToml
  /-- `agent` is not a table. -/
  | notATable
  | missingKey (key : String)
  | slowBackend (v : Value)
  deriving DecidableEq

/-! ## Reading -/

/-- The optional overrides, in the order of `load_config`. -/
def overrides : List Field :=
  [.nodeName, .fastPool, .slowPool, .slowBackend, .slowPath, .fastMountRoot, .coldMountRoot,
    .usernsUser, .usernsStart, .usernsSize, .dockerDataRoot, .dockerDatasetName, .dockerQuotaGb,
    .seccompProfile, .apparmorProfile, .stateDb, .heartbeatIntervalS, .usagePublishIntervalS,
    .labUsageIntervalS, .usageScanIntervalS, .aptUpdateEnabled, .aptUpdateIntervalS,
    .aptUpdateCheckIntervalS, .aptUpdateTimeoutS, .tlsVerify]

/-- `agent[key]`. -/
def required (agent : Items) (f : Field) : Except ConfigError Value :=
  match agent.lookup f.key with
  | some v => .ok v
  | none => .error (.missingKey f.key)

/-- Set the attributes whose keys are there. -/
def override (agent : Items) (cfg : AgentConfig) (fields : List Field) : AgentConfig :=
  fields.foldl (fun cfg f =>
    match agent.lookup f.key with
    | some v => cfg.set f v
    | none => cfg) cfg

/-- `load_config` on the `agent` table. -/
def configOf (hostname : String) (agent : Items) : Except ConfigError AgentConfig := do
  let url ← required agent .controllerUrl
  let token ← required agent .token
  let cfg := override agent (((defaults hostname).set .controllerUrl url).set .token token)
    overrides
  if cfg .slowBackend = .str "zfs" ∨ cfg .slowBackend = .str "smb" then .ok cfg
  else .error (.slowBackend (cfg .slowBackend))

/-- `load_config`. A document that is not just the lines of the one table is read by `beyond`. -/
def loadConfig (hostname : String) (beyond : String → Except ConfigError Items) :
    Option String → Except ConfigError AgentConfig
  | none => .error .notFound
  | some text => Toml.read "[agent]" .notToml beyond text >>= configOf hostname

/-! ## Writing -/

/-- `str.replace` of one character. -/
def replaceChar (c : Char) (new : String) (s : String) : String :=
  String.ofList (s.toList.flatMap fun d => if d = c then new.toList else [d])

/-- `_toml_value`; `str` refuses a number with too many digits. -/
def tomlValue : Value → Except ConfigError String
  | .bool b => .ok (if b then "true" else "false")
  | .int n =>
    if n.natAbs.repr.toList.length ≤ maxDigits then .ok n.repr else .error .notToml
  | .str s =>
    .ok ("\"" ++ replaceChar '"' "\\\"" (replaceChar '\\' "\\\\" s) ++ "\"")
  | .other text => .ok text

/-- The keys in the order of `render_config`. -/
def rendered : List Field :=
  [.controllerUrl, .token, .nodeName, .fastPool, .slowPool, .slowBackend, .slowPath,
    .fastMountRoot, .coldMountRoot, .usernsUser, .usernsStart, .usernsSize, .dockerDataRoot,
    .dockerDatasetName, .dockerQuotaGb, .seccompProfile, .apparmorProfile, .stateDb,
    .heartbeatIntervalS, .usagePublishIntervalS, .labUsageIntervalS, .usageScanIntervalS,
    .aptUpdateEnabled, .aptUpdateIntervalS, .aptUpdateCheckIntervalS, .aptUpdateTimeoutS,
    .tlsVerify]

/-- `render_config`, and the text that `save_config` writes. -/
def renderConfig (cfg : AgentConfig) : Except ConfigError String := do
  let lines ← rendered.mapM fun f => do
    let text ← tomlValue (cfg f)
    pure (f.key ++ " = " ++ text)
  .ok (String.intercalate "\n" ("[agent]" :: lines) ++ "\n")

/-- `_cmd_set_token`: the file it leaves. -/
def setToken (hostname : String) (beyond : String → Except ConfigError Items)
    (file : Option String) (token : String) : Except ConfigError String := do
  let cfg ← loadConfig hostname beyond file
  renderConfig (cfg.set .token (.str token))

/-! ## Keys -/

theorem mem_rendered (f : Field) : f ∈ rendered := by
  cases f <;> decide

theorem mem_overrides {f : Field} (hurl : f ≠ .controllerUrl) (htoken : f ≠ .token) :
    f ∈ overrides := by
  cases f <;> first | contradiction | decide

theorem nodup_keys : (rendered.map Field.key).Nodup := by
  decide +kernel

theorem bareKey (f : Field) : BareKey f.key := by
  cases f <;> exact ⟨by decide, by decide⟩

/-- The table that the file of a configuration holds. -/
def AgentConfig.items (cfg : AgentConfig) : Items := rendered.map fun f => (f.key, cfg f)

theorem nodup_items (cfg : AgentConfig) : (cfg.items.map Prod.fst).Nodup := by
  have hkeys : cfg.items.map Prod.fst = rendered.map Field.key := by
    unfold AgentConfig.items
    rw [List.map_map]
    rfl
  rw [hkeys]
  exact nodup_keys

theorem lookup_items (cfg : AgentConfig) (f : Field) : cfg.items.lookup f.key = some (cfg f) :=
  Dict.lookup_of_mem (nodup_items cfg) (List.mem_map.mpr ⟨f, mem_rendered f, rfl⟩)

/-! ## Reading the table of a configuration -/

theorem override_items (cfg base : AgentConfig) (fields : List Field) (f : Field) :
    override cfg.items base fields f = if f ∈ fields then cfg f else base f := by
  induction fields generalizing base with
  | nil => rfl
  | cons g fields ih =>
      have hstep : override cfg.items base (g :: fields) =
          override cfg.items (base.set g (cfg g)) fields := by
        unfold override
        rw [List.foldl_cons, lookup_items]
      rw [hstep, ih]
      by_cases hf : f ∈ fields
      · rw [if_pos hf, if_pos (List.mem_cons_of_mem _ hf)]
      · rw [if_neg hf]
        by_cases hg : f = g
        · rw [hg, if_pos List.mem_cons_self]
          exact Function.update_self g _ base
        · rw [if_neg (by simp [hf, hg])]
          exact Function.update_of_ne hg _ base

theorem loadConfig_some (hostname : String) (beyond : String → Except ConfigError Items)
    (text : String) : loadConfig hostname beyond (some text) =
      (Toml.read "[agent]" .notToml beyond text >>= configOf hostname) := rfl

theorem ok_bind {ε α β : Type} (a : α) (f : α → Except ε β) : (Except.ok a >>= f) = f a := rfl

def AgentConfig.KnownBackend (cfg : AgentConfig) : Prop :=
  cfg .slowBackend = .str "zfs" ∨ cfg .slowBackend = .str "smb"

/-- What is loaded has one of the two backends. -/
theorem knownBackend_of_load {hostname : String} {beyond : String → Except ConfigError Items}
    {file : Option String} {cfg : AgentConfig} (h : loadConfig hostname beyond file = .ok cfg) :
    cfg.KnownBackend := by
  have hof : ∀ agent, configOf hostname agent = .ok cfg → cfg.KnownBackend := by
    intro agent h
    unfold configOf at h
    cases hurl : required agent .controllerUrl with
    | error e => rw [hurl] at h; cases h
    | ok url =>
        cases htoken : required agent .token with
        | error e => rw [hurl, htoken] at h; cases h
        | ok token =>
            rw [hurl, htoken] at h
            replace h : (if _ then _ else _) = Except.ok cfg := h
            split at h
            · rename_i hbackend
              cases h
              exact hbackend
            · cases h
  cases file with
  | none => cases h
  | some text =>
      rw [loadConfig_some] at h
      cases hread : Toml.read "[agent]" ConfigError.notToml beyond text with
      | error e => rw [hread] at h; cases h
      | ok agent =>
          rw [hread] at h
          exact hof agent h

/-- The table of a configuration is read as the configuration. -/
theorem configOf_items {hostname : String} {cfg : AgentConfig} (h : cfg.KnownBackend) :
    configOf hostname cfg.items = .ok cfg := by
  have hrequired : ∀ f, required cfg.items f = .ok (cfg f) := by
    intro f
    unfold required
    rw [lookup_items]
  have hcfg : override cfg.items (((defaults hostname).set .controllerUrl (cfg .controllerUrl)).set
      .token (cfg .token)) overrides = cfg := by
    funext f
    rw [override_items]
    by_cases hf : f ∈ overrides
    · rw [if_pos hf]
    · rw [if_neg hf]
      by_cases htoken : f = .token
      · rw [htoken]
        exact Function.update_self Field.token _ _
      · by_cases hurl : f = .controllerUrl
        · rw [hurl]
          exact (Function.update_of_ne (by decide) _ _).trans (Function.update_self _ _ _)
        · exact absurd (mem_overrides hurl htoken) hf
  unfold configOf
  rw [hrequired, hrequired]
  show (if _ then _ else _) = _
  rw [hcfg]
  exact if_pos h

/-! ## Writing the table -/

/-- The two replacements are the escapes. -/
theorem replaceChar_escape (s : String) :
    (replaceChar '"' "\\\"" (replaceChar '\\' "\\\\" s)).toList = escape s.toList := by
  unfold replaceChar escape
  simp only [String.toList_ofList, List.flatMap_assoc]
  congr 1
  funext c
  by_cases hback : c = '\\'
  · rw [hback]
    rfl
  · by_cases hquote : c = '"'
    · rw [hquote]
      rfl
    · simp [hback, hquote]

/-- A value is written as a line of the document has it. -/
theorem tomlValue_eq {v : Value} (h : v.Plain) :
    ∃ text, tomlValue v = .ok text ∧ text.toList = v.write := by
  cases v with
  | str s =>
      refine ⟨_, rfl, ?_⟩
      rw [String.toList_append, String.toList_append, replaceChar_escape]
      rfl
  | bool b => cases b <;> exact ⟨_, rfl, rfl⟩
  | int n => exact ⟨n.repr, if_pos h, rfl⟩
  | other text => exact h.elim

def renderLine (cfg : AgentConfig) (f : Field) : Except ConfigError String := do
  let text ← tomlValue (cfg f)
  pure (f.key ++ " = " ++ text)

theorem mapM_renderLine {cfg : AgentConfig} {fields : List Field}
    (h : ∀ f ∈ fields, (cfg f).Plain) : ∃ lines, fields.mapM (renderLine cfg) = .ok lines ∧
      lines.flatMap (fun t => t.toList ++ ['\n']) =
        (fields.map fun f => (f.key, cfg f)).flatMap line := by
  induction fields with
  | nil => exact ⟨[], rfl, rfl⟩
  | cons f fields ih =>
      obtain ⟨lines, hlines, heq⟩ := ih fun g hg => h g (List.mem_cons_of_mem _ hg)
      obtain ⟨text, htext, hwrite⟩ := tomlValue_eq (h f List.mem_cons_self)
      refine ⟨(f.key ++ " = " ++ text) :: lines, ?_, ?_⟩
      · rw [List.mapM_cons, hlines]
        unfold renderLine
        rw [htext]
        rfl
      · rw [List.flatMap_cons, List.map_cons, List.flatMap_cons, heq]
        simp [line, hwrite]

/-- Every value of a configuration that is written can be written. -/
theorem tomlValue_of_mapM {cfg : AgentConfig} {fields : List Field} {lines : List String}
    (h : fields.mapM (renderLine cfg) = .ok lines) :
    ∀ f ∈ fields, ∃ text, tomlValue (cfg f) = .ok text := by
  induction fields generalizing lines with
  | nil => exact nofun
  | cons f fields ih =>
      rw [List.mapM_cons] at h
      cases hf : tomlValue (cfg f) with
      | error e =>
          unfold renderLine at h
          rw [hf] at h
          cases h
      | ok text =>
          cases hrest : fields.mapM (renderLine cfg) with
          | error e =>
              unfold renderLine at h hrest
              rw [hf, hrest] at h
              cases h
          | ok rest =>
              intro g hg
              rcases List.mem_cons.mp hg with rfl | hg
              · exact ⟨text, hf⟩
              · exact ih hrest g hg

theorem renderConfig_eq (cfg : AgentConfig) : renderConfig cfg = (do
    let lines ← rendered.mapM (renderLine cfg)
    .ok (String.intercalate "\n" ("[agent]" :: lines) ++ "\n")) := rfl

/-! ## What survives -/

/-- The declared types of the attributes. -/
def Field.HasType : Field → Value → Prop
  | .usernsStart, v | .usernsSize, v | .dockerQuotaGb, v | .heartbeatIntervalS, v
  | .usagePublishIntervalS, v | .labUsageIntervalS, v | .usageScanIntervalS, v
  | .aptUpdateIntervalS, v | .aptUpdateCheckIntervalS, v | .aptUpdateTimeoutS, v =>
    ∃ n, v = .int n
  | .aptUpdateEnabled, v | .tlsVerify, v => ∃ b, v = .bool b
  | _, v => ∃ s, v = .str s

def AgentConfig.Typed (cfg : AgentConfig) : Prop := ∀ f : Field, f.HasType (cfg f)

/-- No string has a control character but tabs, and no number more than 4300 digits. -/
def AgentConfig.Writable (cfg : AgentConfig) : Prop := ∀ f,
  (∀ s, cfg f = .str s → ∀ c ∈ s.toList, illegal c = false) ∧
  (∀ n, cfg f = .int n → n.natAbs.repr.toList.length ≤ maxDigits)

theorem AgentConfig.Typed.not_other {cfg : AgentConfig} (h : cfg.Typed) (f : Field)
    (text : String) : cfg f ≠ .other text := by
  intro heq
  have hf := h f
  rw [heq] at hf
  cases f <;> obtain ⟨_, hf⟩ := hf <;> cases hf

theorem AgentConfig.Typed.plain_iff {cfg : AgentConfig} (h : cfg.Typed) (f : Field) :
    (cfg f).Plain ↔ ∀ n, cfg f = .int n → n.natAbs.repr.toList.length ≤ maxDigits := by
  cases hv : cfg f with
  | str s => exact iff_of_true trivial nofun
  | bool b => exact iff_of_true trivial nofun
  | other text => exact absurd hv (h.not_other f text)
  | int n =>
      constructor
      · rintro hplain _ ⟨⟩
        exact hplain
      · exact fun hlen => hlen n rfl

theorem legal_iff (v : Value) :
    v.legal = true ↔ ∀ s, v = .str s → ∀ c ∈ s.toList, illegal c = false := by
  cases v with
  | str s =>
      simp only [Value.legal, List.all_eq_true, Bool.not_eq_true']
      constructor
      · rintro h _ ⟨⟩
        exact h
      · exact fun h => h s rfl
  | int n => exact iff_of_true rfl nofun
  | bool b => exact iff_of_true rfl nofun
  | other text => exact iff_of_true rfl nofun

/-- A configuration with values of the declared types and a known backend is read back from what is
written for it if and only if it can be written. -/
theorem read_back_iff {hostname : String} {beyond : String → Except ConfigError Items}
    {cfg : AgentConfig} (htyped : cfg.Typed) (hbackend : cfg.KnownBackend) :
    (∃ saved, renderConfig cfg = .ok saved ∧
      loadConfig hostname beyond (some saved) = .ok cfg) ↔ cfg.Writable := by
  have hload : ∀ (saved : String), (∀ f, (cfg f).Plain) →
      saved.toList = ("[agent]".toList ++ ['\n']) ++ cfg.items.flatMap line →
      loadConfig hostname beyond (some saved) =
        if cfg.items.all fun w => w.2.legal then .ok cfg else .error .notToml := by
    intro saved hplain hsaved
    have hkeys : ∀ w ∈ cfg.items, BareKey w.1 ∧ w.2.Plain := by
      intro w hw
      obtain ⟨f, -, rfl⟩ := List.mem_map.mp hw
      exact ⟨bareKey f, hplain f⟩
    have hread := read_lines (fun w hw => (hkeys w hw).1) (fun w hw => (hkeys w hw).2)
      (nodup_items cfg) hsaved ConfigError.notToml beyond
    rw [loadConfig_some, hread]
    by_cases hall : (cfg.items.all fun w => w.2.legal) = true
    · rw [if_pos hall, if_pos hall, ok_bind, configOf_items hbackend]
    · rw [if_neg hall, if_neg hall]
      rfl
  have hwritten : (∀ f, (cfg f).Plain) → ∃ saved, renderConfig cfg = .ok saved ∧
      saved.toList = ("[agent]".toList ++ ['\n']) ++ cfg.items.flatMap line := by
    intro hplain
    obtain ⟨lines, hlines, heq⟩ := mapM_renderLine fun f (_ : f ∈ rendered) => hplain f
    refine ⟨String.intercalate "\n" ("[agent]" :: lines) ++ "\n", ?_, ?_⟩
    · rw [renderConfig_eq, hlines]
      rfl
    · rw [toList_join (List.cons_ne_nil _ _), List.flatMap_cons, heq]
      rfl
  have hlegal : (cfg.items.all fun w => w.2.legal) = true ↔ ∀ f, (cfg f).legal = true := by
    rw [List.all_eq_true]
    constructor
    · exact fun h f => h _ (List.mem_map.mpr ⟨f, mem_rendered f, rfl⟩)
    · intro h w hw
      obtain ⟨f, -, rfl⟩ := List.mem_map.mp hw
      exact h f
  constructor
  · rintro ⟨saved, hsaved, hback⟩
    have hplain : ∀ f, (cfg f).Plain := by
      intro f
      rw [renderConfig_eq] at hsaved
      cases hlines : rendered.mapM (renderLine cfg) with
      | error e => rw [hlines] at hsaved; cases hsaved
      | ok lines =>
          obtain ⟨text, htext⟩ := tomlValue_of_mapM hlines f (mem_rendered f)
          refine (htyped.plain_iff f).mpr fun n hn => ?_
          rw [hn] at htext
          by_contra hlong
          rw [tomlValue, if_neg hlong] at htext
          cases htext
    obtain ⟨saved', hsaved', htext⟩ := hwritten hplain
    rw [hsaved] at hsaved'
    obtain rfl := Except.ok.inj hsaved'
    rw [hload saved hplain htext] at hback
    have hall : (cfg.items.all fun w => w.2.legal) = true := by
      by_contra hnot
      rw [if_neg hnot] at hback
      cases hback
    exact fun f => ⟨(legal_iff _).mp (hlegal.mp hall f), (htyped.plain_iff f).mp (hplain f)⟩
  · intro hwritable
    have hplain : ∀ f, (cfg f).Plain := fun f => (htyped.plain_iff f).mpr (hwritable f).2
    obtain ⟨saved, hsaved, htext⟩ := hwritten hplain
    refine ⟨saved, hsaved, ?_⟩
    rw [hload saved hplain htext]
    exact if_pos (hlegal.mpr fun f => (legal_iff _).mpr (hwritable f).1)

theorem setToken_of_load {hostname : String} {beyond : String → Except ConfigError Items}
    {file : Option String} {cfg : AgentConfig} (h : loadConfig hostname beyond file = .ok cfg)
    (token : String) :
    setToken hostname beyond file token = renderConfig (cfg.set .token (.str token)) := by
  unfold setToken
  rw [h, ok_bind]

theorem AgentConfig.Typed.setToken {cfg : AgentConfig} (h : cfg.Typed) (token : String) :
    (cfg.set .token (.str token)).Typed := by
  intro f
  by_cases hf : f = .token
  · rw [hf, AgentConfig.set, Function.update_self]
    exact ⟨token, rfl⟩
  · rw [AgentConfig.set, Function.update_of_ne hf]
    exact h f

/-- **Saved configurations.** A configuration that was loaded with values of the declared types is
loaded again from what `save_config` writes if and only if it has no control characters but tabs
and no number of more than 4300 digits; and with another token, from what `set-token` writes. -/
theorem config_survives_iff (hostname : String) (beyond : String → Except ConfigError Items)
    (file : Option String) (cfg : AgentConfig) (hload : loadConfig hostname beyond file = .ok cfg)
    (htyped : cfg.Typed) :
    ((∃ saved, renderConfig cfg = .ok saved ∧
      loadConfig hostname beyond (some saved) = .ok cfg) ↔ cfg.Writable) ∧
    ∀ token, (∃ saved, setToken hostname beyond file token = .ok saved ∧
      loadConfig hostname beyond (some saved) = .ok (cfg.set .token (.str token))) ↔
        (cfg.set .token (.str token)).Writable := by
  have hbackend := knownBackend_of_load hload
  refine ⟨read_back_iff htyped hbackend, fun token => ?_⟩
  rw [setToken_of_load hload]
  refine read_back_iff (htyped.setToken token) ?_
  unfold AgentConfig.KnownBackend AgentConfig.set
  rw [Function.update_of_ne (by decide)]
  exact hbackend

/-- The file of an agent with this token, as TOML writes it. -/
def tokenFile (token : String) : String :=
  "[agent]\ncontroller_url = \"u\"\ntoken = \"" ++ token ++ "\"\n"

def tokenConfig (token : String) : AgentConfig :=
  ((defaults "h").set .controllerUrl (.str "u")).set .token (.str token)

theorem tokenConfig_typed (token : String) : (tokenConfig token).Typed := by
  intro f
  cases f <;> exact ⟨_, rfl⟩

theorem configOf_token (token : String) :
    configOf "h" [("controller_url", .str "u"), ("token", .str token)] =
      .ok (tokenConfig token) := by
  have hcfg : override [("controller_url", .str "u"), ("token", .str token)] (tokenConfig token)
      overrides = tokenConfig token := rfl
  have hbackend : tokenConfig token .slowBackend = .str "zfs" ∨
      tokenConfig token .slowBackend = .str "smb" := .inl rfl
  have hurl : required [("controller_url", .str "u"), ("token", .str token)] .controllerUrl =
      .ok (.str "u") := rfl
  have htoken : required [("controller_url", .str "u"), ("token", .str token)] .token =
      .ok (.str token) := rfl
  unfold configOf
  rw [hurl, ok_bind, htoken, ok_bind]
  dsimp only
  rw [show ((defaults "h").set .controllerUrl (.str "u")).set .token (.str token) =
    tokenConfig token from rfl, hcfg]
  exact if_pos hbackend

theorem loadConfig_token {token : String} {text : String}
    (beyond : String → Except ConfigError Items)
    (h : Toml.read "[agent]" ConfigError.notToml beyond text =
      .ok [("controller_url", .str "u"), ("token", .str token)]) :
    loadConfig "h" beyond (some text) = .ok (tokenConfig token) := by
  rw [loadConfig_some, h, ok_bind, configOf_token]

/-- A token with a quotation mark and a backslash survives. -/
theorem config_survives_quoted : ∃ saved, renderConfig (tokenConfig "\"\\") = .ok saved ∧
    loadConfig "h" (fun _ => .error .notToml) (some saved) = .ok (tokenConfig "\"\\") := by
  refine (config_survives_iff "h" (fun _ => .error .notToml) (some (tokenFile "\\\"\\\\")) _
    (loadConfig_token _ (by decide +kernel)) (tokenConfig_typed _)).1.mpr fun f => ⟨?_, ?_⟩
  · refine (legal_iff _).mp ?_
    cases f <;> rfl
  · intro n hn
    cases f <;> first
      | (obtain rfl := Value.int.inj hn
         decide)
      | exact absurd hn nofun

/-- A line feed in the token, written as an escape, is loaded. It is saved as a line feed, which
ends the line in the middle of the string. -/
theorem line_feed_lost : ∃ cfg,
    loadConfig "h" (fun _ => .error .notToml) (some (tokenFile "a\\nb")) = .ok cfg ∧ cfg.Typed ∧
      ¬ ∃ saved, renderConfig cfg = .ok saved ∧
        loadConfig "h" (fun _ => .error .notToml) (some saved) = .ok cfg := by
  have hload : loadConfig "h" (fun _ => .error .notToml) (some (tokenFile "a\\nb")) =
      .ok (tokenConfig "a\nb") := loadConfig_token _ (by decide +kernel)
  refine ⟨_, hload, tokenConfig_typed _, fun hsaved => ?_⟩
  have hwritable := (read_back_iff (tokenConfig_typed _) (knownBackend_of_load hload)).mp hsaved
  have hlegal := (hwritable .token).1 "a\nb" rfl '\n' (by decide)
  cases hlegal

end MassDeployment.Agent
