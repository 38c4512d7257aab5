import Mathlib.Data.List.Basic

namespace ReverseProxy.C
set_option autoImplicit true

structure Timeouts where
  connectTimeoutSecs : UInt64
  transferTimeoutSecs : UInt64

structure TlsConfig where
  certPath : String
  keyPath : String

structure HealthConfig where
  intervalSecs : UInt64
  timeoutSecs : UInt64
  path : String

structure Config where
  listenAddr : String
  upstreamAddrs : List String
  tls : TlsConfig
  health : HealthConfig
  timeouts : Timeouts

/-- `anyhow::ensure!`, and `with_context` on a parse whose value is dropped. An error is known by
its outermost message. -/
def ensure (holds : Bool) (message : String) : Except String Unit :=
  if holds then .ok () else .error message

def Config.validate (parseAddr : String → Option Addr) (config : Config) : Except String Unit := do
  ensure (parseAddr config.listenAddr).isSome ("invalid listen_addr: " ++ config.listenAddr)
  ensure (!config.upstreamAddrs.isEmpty) "upstream_addrs must not be empty"
  forM config.upstreamAddrs (fun addr =>
    ensure (parseAddr addr).isSome ("invalid upstream addr: " ++ addr))
  ensure (0 < config.health.intervalSecs) "health.interval_secs must be > 0"
  ensure (0 < config.health.timeoutSecs) "health.timeout_secs must be > 0"
  ensure (0 < config.timeouts.connectTimeoutSecs) "connect_timeout_secs must be > 0"
  match config.tls.certPath.isEmpty, config.tls.keyPath.isEmpty with
  | true, false | false, true =>
    .error "tls.cert_path and tls.key_path must both be provided or both be empty"
  | _, _ => .ok ()

def orError (message : String) : Option α → Except String α
  | none => .error message
  | some a => .ok a

/-- `Config::load`, given the file system and the TOML reader. -/
def Config.load (readToString : String → Option String) (fromToml : String → Option Config)
    (parseAddr : String → Option Addr) (path : String) : Except String Config := do
  let contents ← orError ("failed to read config file: " ++ path) (readToString path)
  let config ← orError "failed to parse config file" (fromToml contents)
  config.validate parseAddr
  return config

/-- `None` is the panic of an `unwrap`. -/
def Config.listenSocketAddr (parseAddr : String → Option Addr) (config : Config) : Option Addr :=
  parseAddr config.listenAddr

def Config.upstreamSocketAddrs (parseAddr : String → Option Addr) (config : Config) :
    Option (List Addr) :=
  config.upstreamAddrs.mapM parseAddr

structure Config.Valid (parseAddr : String → Option Addr) (config : Config) : Prop where
  listen : (parseAddr config.listenAddr).isSome
  nonempty : config.upstreamAddrs ≠ []
  upstreams : ∀ addr ∈ config.upstreamAddrs, (parseAddr addr).isSome
  interval : 0 < config.health.intervalSecs
  timeout : 0 < config.health.timeoutSecs
  connect : 0 < config.timeouts.connectTimeoutSecs
  tls : config.tls.certPath.isEmpty = config.tls.keyPath.isEmpty

theorem bind_eq_ok {x : Except String α} {f : α → Except String β} :
    (x >>= f) = .ok b ↔ ∃ a, x = .ok a ∧ f a = .ok b := by
  cases x with
  | error e => exact ⟨nofun, fun ⟨_, h, _⟩ => nomatch h⟩
  | ok a => exact ⟨fun h => ⟨a, rfl, h⟩, fun ⟨_, h, hf⟩ => by cases h; exact hf⟩

theorem ensure_eq_ok : ensure b message = .ok u ↔ b = true := by
  cases b with
  | false => exact ⟨nofun, nofun⟩
  | true => exact ⟨fun _ => rfl, fun _ => rfl⟩

theorem orError_eq_ok : orError message o = .ok a ↔ o = some a := by
  cases o with
  | none => exact ⟨nofun, nofun⟩
  | some b => exact ⟨fun h => by cases h; rfl, fun h => by cases h; rfl⟩

theorem load_eq_ok {α : Type} {readToString : String → Option String}
    {fromToml : String → Option α} {validate : α → Except String Unit} {config : α} :
    (do
      let contents ← orError message (readToString path)
      let config ← orError message' (fromToml contents)
      validate config
      return config) = .ok config ↔
      ∃ contents, readToString path = some contents ∧ fromToml contents = some config ∧
        validate config = .ok () := by
  simp only [bind_eq_ok, orError_eq_ok]
  constructor
  · rintro ⟨contents, hread, c, hparse, _, hv, hc⟩
    cases hc
    exact ⟨contents, hread, hparse, hv⟩
  · rintro ⟨contents, hread, hparse, hv⟩
    exact ⟨contents, hread, config, hparse, (), hv, rfl⟩

theorem forM_ensure_eq_ok {p : String → Bool} {message : String → String} {addrs : List String} :
    forM addrs (fun addr => ensure (p addr) (message addr)) = .ok u ↔
      ∀ addr ∈ addrs, p addr = true := by
  induction addrs with
  | nil => exact ⟨fun _ => nofun, fun _ => rfl⟩
  | cons addr addrs ih =>
    rw [List.forM_cons, bind_eq_ok, List.forall_mem_cons]
    constructor
    · rintro ⟨_, h, ht⟩
      exact ⟨ensure_eq_ok.1 h, ih.1 ht⟩
    · rintro ⟨h, ht⟩
      exact ⟨(), ensure_eq_ok.2 h, ih.2 ht⟩

theorem Config.validate_eq_ok {parseAddr : String → Option Addr} {config : Config} :
    config.validate parseAddr = .ok () ↔ config.Valid parseAddr := by
  simp only [Config.validate, bind_eq_ok, ensure_eq_ok, forM_ensure_eq_ok, exists_const,
    Bool.not_eq_true', decide_eq_true_eq, List.isEmpty_eq_false_iff]
  constructor
  · rintro ⟨h₁, h₂, h₃, h₄, h₅, h₆, h₇⟩
    refine ⟨h₁, h₂, h₃, h₄, h₅, h₆, ?_⟩
    split at h₇
    · cases h₇
    · cases h₇
    · next hn₁ hn₂ =>
      cases hc : config.tls.certPath.isEmpty <;> cases hk : config.tls.keyPath.isEmpty
      · rfl
      · exact (hn₂ hc hk).elim
      · exact (hn₁ hc hk).elim
      · rfl
  · intro h
    refine ⟨h.listen, h.nonempty, h.upstreams, h.interval, h.timeout, h.connect, ?_⟩
    rw [h.tls]
    cases config.tls.keyPath.isEmpty <;> rfl

theorem Config.load_valid {parseAddr : String → Option Addr}
    (h : Config.load readToString fromToml parseAddr path = .ok config) :
    config.Valid parseAddr := by
  obtain ⟨_, _, _, hv⟩ := load_eq_ok.1 h
  exact Config.validate_eq_ok.1 hv

theorem mapM_eq_some {parse : String → Option Addr} {as : List String}
    (h : ∀ a ∈ as, (parse a).isSome) :
    ∃ addrs : List Addr, as.mapM parse = some addrs ∧ as.map parse = addrs.map some := by
  induction as with
  | nil => exact ⟨[], rfl, rfl⟩
  | cons a as ih =>
    obtain ⟨addr, ha⟩ := Option.isSome_iff_exists.1 (h a (by simp))
    obtain ⟨addrs, hm, hmap⟩ := ih (fun b hb => h b (by simp [hb]))
    exact ⟨addr :: addrs, by simp [List.mapM_cons, ha, hm], by simp [ha, hmap]⟩

theorem Config.Valid.upstreamSocketAddrs {parseAddr : String → Option Addr} {config : Config}
    (h : config.Valid parseAddr) :
    ∃ addrs : List Addr, config.upstreamSocketAddrs parseAddr = some addrs ∧
      config.upstreamAddrs.map parseAddr = addrs.map some :=
  mapM_eq_some h.upstreams

end ReverseProxy.C

namespace ReverseProxy.B
open C (Timeouts ensure ensure_eq_ok orError bind_eq_ok load_eq_ok forM_ensure_eq_ok mapM_eq_some)
set_option autoImplicit true

/-- The configuration of option B, which knows neither TLS nor health checks. -/
structure Config where
  listenAddr : String
  upstreamAddrs : List String
  timeouts : Timeouts

def Config.validate (parseAddr : String → Option Addr) (config : Config) : Except String Unit := do
  ensure (parseAddr config.listenAddr).isSome ("invalid listen_addr: " ++ config.listenAddr)
  ensure (!config.upstreamAddrs.isEmpty) "upstream_addrs must not be empty"
  forM config.upstreamAddrs (fun addr =>
    ensure (parseAddr addr).isSome ("invalid upstream addr: " ++ addr))
  ensure (0 < config.timeouts.connectTimeoutSecs) "connect_timeout_secs must be greater than 0"

def Config.load (readToString : String → Option String) (fromToml : String → Option Config)
    (parseAddr : String → Option Addr) (path : String) : Except String Config := do
  let contents ← orError ("failed to read config file: " ++ path) (readToString path)
  let config ← orError "failed to parse config file" (fromToml contents)
  config.validate parseAddr
  return config

def Config.listenSocketAddr (parseAddr : String → Option Addr) (config : Config) : Option Addr :=
  parseAddr config.listenAddr

def Config.upstreamSocketAddrs (parseAddr : String → Option Addr) (config : Config) :
    Option (List Addr) :=
  config.upstreamAddrs.mapM parseAddr

structure Config.Valid (parseAddr : String → Option Addr) (config : Config) : Prop where
  listen : (parseAddr config.listenAddr).isSome
  nonempty : config.upstreamAddrs ≠ []
  upstreams : ∀ addr ∈ config.upstreamAddrs, (parseAddr addr).isSome
  connect : 0 < config.timeouts.connectTimeoutSecs

theorem Config.validate_eq_ok {parseAddr : String → Option Addr} {config : Config} :
    config.validate parseAddr = .ok () ↔ config.Valid parseAddr := by
  simp only [Config.validate, bind_eq_ok, ensure_eq_ok, forM_ensure_eq_ok, exists_const,
    Bool.not_eq_true', decide_eq_true_eq, List.isEmpty_eq_false_iff]
  constructor
  · rintro ⟨h₁, h₂, h₃, h₄⟩
    exact ⟨h₁, h₂, h₃, h₄⟩
  · intro h
    exact ⟨h.listen, h.nonempty, h.upstreams, h.connect⟩

theorem Config.load_valid {parseAddr : String → Option Addr}
    (h : Config.load readToString fromToml parseAddr path = .ok config) :
    config.Valid parseAddr := by
  obtain ⟨_, _, _, hv⟩ := load_eq_ok.1 h
  exact Config.validate_eq_ok.1 hv

theorem Config.Valid.upstreamSocketAddrs {parseAddr : String → Option Addr} {config : Config}
    (h : config.Valid parseAddr) :
    ∃ addrs : List Addr, config.upstreamSocketAddrs parseAddr = some addrs ∧
      config.upstreamAddrs.map parseAddr = addrs.map some :=
  mapM_eq_some h.upstreams

end ReverseProxy.B

namespace ReverseProxy.A
open C (Timeouts ensure ensure_eq_ok orError bind_eq_ok load_eq_ok)
set_option autoImplicit true

/-- The configuration of option A, which knows one upstream. -/
structure Config where
  listenAddr : String
  upstreamAddr : String
  timeouts : Timeouts

def Config.validate (parseAddr : String → Option Addr) (config : Config) : Except String Unit := do
  ensure (parseAddr config.listenAddr).isSome ("invalid listen_addr: " ++ config.listenAddr)
  ensure (parseAddr config.upstreamAddr).isSome ("invalid upstream_addr: " ++ config.upstreamAddr)
  ensure (0 < config.timeouts.connectTimeoutSecs) "connect_timeout_secs must be greater than 0"

def Config.load (readToString : String → Option String) (fromToml : String → Option Config)
    (parseAddr : String → Option Addr) (path : String) : Except String Config := do
  let contents ← orError ("failed to read config file: " ++ path) (readToString path)
  let config ← orError "failed to parse config file" (fromToml contents)
  config.validate parseAddr
  return config

def Config.listenSocketAddr (parseAddr : String → Option Addr) (config : Config) : Option Addr :=
  parseAddr config.listenAddr

def Config.upstreamSocketAddr (parseAddr : String → Option Addr) (config : Config) : Option Addr :=
  parseAddr config.upstreamAddr

structure Config.Valid (parseAddr : String → Option Addr) (config : Config) : Prop where
  listen : (parseAddr config.listenAddr).isSome
  upstream : (parseAddr config.upstreamAddr).isSome
  connect : 0 < config.timeouts.connectTimeoutSecs

theorem Config.validate_eq_ok {parseAddr : String → Option Addr} {config : Config} :
    config.validate parseAddr = .ok () ↔ config.Valid parseAddr := by
  simp only [Config.validate, bind_eq_ok, ensure_eq_ok, exists_const, decide_eq_true_eq]
  constructor
  · rintro ⟨h₁, h₂, h₃⟩
    exact ⟨h₁, h₂, h₃⟩
  · intro h
    exact ⟨h.listen, h.upstream, h.connect⟩

theorem Config.load_valid {parseAddr : String → Option Addr}
    (h : Config.load readToString fromToml parseAddr path = .ok config) :
    config.Valid parseAddr := by
  obtain ⟨_, _, _, hv⟩ := load_eq_ok.1 h
  exact Config.validate_eq_ok.1 hv

end ReverseProxy.A
