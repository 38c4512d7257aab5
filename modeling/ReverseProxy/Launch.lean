import ReverseProxy.Health
import ReverseProxy.Scripts

namespace ReverseProxy.C
open Scripts
set_option autoImplicit true

/-- What `main` does to its surroundings before it accepts connections. -/
inductive Effect (Addr : Type)
  | readConfig (path : String)
  | openFile (path : String)
  | spawnCheckers (upstreams : List Addr)
  | bind (addr : Addr)
deriving DecidableEq, Repr

/-- It returns an error, known by the contexts that were added to it, the outermost first, or it
panics. -/
inductive Stop
  | failed (chain : List String)
  | panicked
deriving DecidableEq, Repr

def Stop.context (message : String) : Stop → Stop
  | .failed chain => .failed (message :: chain)
  | .panicked => .panicked

/-- The files, the parsers and what is asked of the TLS library and of the network. -/
structure Outside (Addr F Cert Key A : Type) where
  readToString : String → Option String
  fromToml : String → Option Config
  parseAddr : String → Option Addr
  openFile : String → Option F
  certs : F → Option Cert
  privateKey : F → Option (Option Key)
  selfSigned : Option (Cert × Key)
  protocolVersions : Bool
  singleCert : Cert → Key → Option A
  listens : Addr → Bool

abbrev Setup (Addr α : Type) := Script (Effect Addr) Stop α

variable {Addr F Cert Key A : Type}

def orFail (message : String) (o : Option α) : Setup Addr α :=
  orStop (.failed [message]) o

def loadPem (o : Outside Addr F Cert Key A) (certPath keyPath : String) :
    Setup Addr (Cert × Key) := do
  perform (.openFile certPath)
  let certFile ← orFail ("failed to open cert file: " ++ certPath) (o.openFile certPath)
  let certs ← orFail "failed to parse certificate PEM" (o.certs certFile)
  perform (.openFile keyPath)
  let keyFile ← orFail ("failed to open key file: " ++ keyPath) (o.openFile keyPath)
  let key ← orFail "failed to parse private key PEM" (o.privateKey keyFile)
  let key ← orFail "no private key found in key file" key
  return (certs, key)

def generateSelfSigned (o : Outside Addr F Cert Key A) : Setup Addr (Cert × Key) :=
  orFail "failed to generate self-signed cert" o.selfSigned

def buildAcceptor (o : Outside Addr F Cert Key A) (cfg : TlsConfig) : Setup Addr A := do
  let (certs, key) ←
    (if cfg.certPath.isEmpty then generateSelfSigned o else loadPem o cfg.certPath cfg.keyPath)
  orFail "failed to set TLS protocol versions" (if o.protocolVersions then some () else none)
  orFail "failed to build TLS server config" (o.singleCert certs key)

structure Started (Addr A : Type) where
  config : Config
  acceptor : A
  upstreams : List Addr
  memory : Memory Addr

/-- `main` of options C and D once it has its acceptor. -/
def serve (o : Outside Addr F Cert Key A) (config : Config) (acceptor : B) :
    Setup Addr (Started Addr B) := do
  let flags := newFlags config.upstreamAddrs.length
  let checked ← orStop .panicked (config.upstreamSocketAddrs o.parseAddr)
  perform (.spawnCheckers checked)
  let upstreams ← orStop .panicked (config.upstreamSocketAddrs o.parseAddr)
  let addr ← orStop .panicked (config.listenSocketAddr o.parseAddr)
  perform (.bind addr)
  orFail ("failed to bind to " ++ config.listenAddr) (if o.listens addr then some () else none)
  return ⟨config, acceptor, upstreams, ⟨flags, spawnCheckers checked, []⟩⟩

def Outside.load (o : Outside Addr F Cert Key A) : Except String Config :=
  Config.load o.readToString o.fromToml o.parseAddr "config.toml"

def launch (o : Outside Addr F Cert Key A) (build : TlsConfig → Setup Addr B) :
    Setup Addr (Started Addr B) := do
  perform (.readConfig "config.toml")
  let config ← (ofExcept (fun message => Stop.failed [message]) o.load).mapStop
    (Stop.context "failed to load config.toml")
  let acceptor ← (build config.tls).mapStop (Stop.context "failed to build TLS acceptor")
  serve o config acceptor

def main (o : Outside Addr F Cert Key A) : Setup Addr (Started Addr A) :=
  launch o (buildAcceptor o)

end ReverseProxy.C

namespace ReverseProxy.D
open C Scripts
set_option autoImplicit true

variable {Addr F Cert Key A : Type}

/-- Option D's server configuration, with the protocols it is to offer. -/
def buildServerConfig (o : Outside Addr F Cert Key A) (cfg : TlsConfig) :
    Setup Addr (A × List String) := do
  let serverConfig ← C.buildAcceptor o cfg
  return (serverConfig, ["h2", "http/1.1"])

def main (o : Outside Addr F Cert Key A) : Setup Addr (Started Addr (A × List String)) :=
  launch o (buildServerConfig o)

end ReverseProxy.D

namespace ReverseProxy.C
open Scripts
set_option autoImplicit true

variable {Addr F Cert Key A B : Type} {o : Outside Addr F Cert Key A}

theorem loadPem_effects (h : e ∈ (loadPem o certPath keyPath).effects) :
    e = .openFile certPath ∨ e = .openFile keyPath := by
  simp only [loadPem, orFail, mem_bind, mem_perform, mem_orStop, mem_pure, false_or, and_false,
    exists_false, or_false] at h
  rcases h with h | ⟨_, _, _, _, _, _, h⟩
  · exact .inl h
  · exact .inr h

theorem orFail_ne_panicked {message : String} {x : Option α} :
    (orFail message x : Setup Addr α).result ≠ .error .panicked := by
  intro h
  cases (orStop_eq_error.1 h).2

theorem loadPem_ne_panicked : (loadPem o certPath keyPath).result ≠ .error .panicked := by
  intro h
  simp only [loadPem, Scripts.bind_eq_error, perform_ne_error, orFail_ne_panicked, pure_ne_error,
    and_false, exists_false, or_false] at h

structure Builds (build : TlsConfig → Setup Addr B) : Prop where
  opens : ∀ cfg e, cfg.certPath.isEmpty = cfg.keyPath.isEmpty → e ∈ (build cfg).effects →
    ∃ path, path ≠ "" ∧ e = .openFile path
  unpanicked : ∀ cfg, (build cfg).result ≠ .error .panicked

theorem buildAcceptor_builds (o : Outside Addr F Cert Key A) : Builds (buildAcceptor o) where
  opens cfg e hboth h := by
    simp only [buildAcceptor, orFail, mem_bind, mem_orStop, and_false, exists_false,
      or_false] at h
    split at h
    · simp only [generateSelfSigned, orFail, mem_orStop] at h
    · next hcert =>
      have hkey : ¬ cfg.keyPath.isEmpty = true := by rwa [← hboth]
      rw [String.isEmpty_iff] at hcert hkey
      rcases loadPem_effects h with rfl | rfl
      · exact ⟨_, hcert, rfl⟩
      · exact ⟨_, hkey, rfl⟩
  unpanicked cfg h := by
    simp only [buildAcceptor, Scripts.bind_eq_error, orFail_ne_panicked, and_false,
      exists_false, or_false] at h
    split at h
    · exact orFail_ne_panicked h
    · exact loadPem_ne_panicked h

theorem buildServerConfig_builds (o : Outside Addr F Cert Key A) :
    Builds (D.buildServerConfig o) where
  opens cfg e hboth h := by
    simp only [D.buildServerConfig, mem_bind, mem_pure, and_false, exists_false, or_false] at h
    exact (buildAcceptor_builds o).opens cfg e hboth h
  unpanicked cfg h := by
    simp only [D.buildServerConfig, Scripts.bind_eq_error, pure_ne_error, and_false, exists_false,
      or_false] at h
    exact (buildAcceptor_builds o).unpanicked cfg h

def ReadsOnly (effects : List (Effect Addr)) : Prop :=
  ∀ e ∈ effects, (∀ us, e ≠ .spawnCheckers us) ∧ ∀ addr, e ≠ .bind addr

/-- What `main` does and where it stops. A file is opened by a name only. Checkers are spawned for
the upstreams of a configuration that was accepted, once there is an acceptor, and a listener is
bound only behind them. When it has started, everything it was built from is there; and when it
stops, the outermost context says how far it got. -/
structure Launches (o : Outside Addr F Cert Key A) (build : TlsConfig → Setup Addr B)
    (r : Setup Addr (Started Addr B)) : Prop where
  unpanicked : r.result ≠ .error .panicked
  files : ∀ path, .openFile path ∈ r.effects → path ≠ ""
  checkers : ∀ us, .spawnCheckers us ∈ r.effects → ∃ config acceptor, o.load = .ok config ∧
    (build config.tls).result = .ok acceptor ∧ config.upstreamAddrs.map o.parseAddr = us.map some
  listener : ∀ before addr after, r.effects = before ++ .bind addr :: after →
    ∃ us, .spawnCheckers us ∈ before
  started : ∀ s, r.result = .ok s → o.load = .ok s.config ∧
    (build s.config.tls).result = .ok s.acceptor ∧
    wire o.parseAddr s.config = some (s.upstreams, s.memory) ∧ Wired s.upstreams s.memory ∧
    ∃ addr, s.config.listenSocketAddr o.parseAddr = some addr ∧ o.listens addr = true
  failed : ∀ chain, r.result = .error (.failed chain) →
    (∃ message, o.load = .error message ∧ chain = ["failed to load config.toml", message] ∧
      ReadsOnly r.effects) ∨
    (∃ config rest, o.load = .ok config ∧ (build config.tls).result = .error (.failed rest) ∧
      chain = "failed to build TLS acceptor" :: rest ∧ ReadsOnly r.effects) ∨
    ∃ config addr, o.load = .ok config ∧ config.listenSocketAddr o.parseAddr = some addr ∧
      o.listens addr = false ∧ chain = ["failed to bind to " ++ config.listenAddr] ∧
      .bind addr ∈ r.effects

theorem serve_eq {config : Config} (h : config.Valid o.parseAddr) (acceptor : B) :
    ∃ us addr mem, config.upstreamAddrs.map o.parseAddr = us.map some ∧
      config.listenSocketAddr o.parseAddr = some addr ∧
      wire o.parseAddr config = some (us, mem) ∧ Wired us mem ∧
      serve o config acceptor = ⟨[.spawnCheckers us, .bind addr],
        if o.listens addr then .ok ⟨config, acceptor, us, mem⟩
        else .error (.failed ["failed to bind to " ++ config.listenAddr])⟩ := by
  obtain ⟨us, hus, hmap⟩ := h.upstreamSocketAddrs
  obtain ⟨addr, haddr⟩ := Option.isSome_iff_exists.1 h.listen
  obtain ⟨us', mem, hwire, hwired, _⟩ := wire_wired h
  have hmem : some (us, ⟨newFlags config.upstreamAddrs.length, spawnCheckers us, []⟩) =
      some (us', mem) := by
    rw [← hwire, wire, hus]
    rfl
  cases hmem
  refine ⟨us, addr, _, hmap, haddr, hwire, hwired, ?_⟩
  have haddr' : config.listenSocketAddr o.parseAddr = some addr := haddr
  rw [serve, hus, haddr']
  cases hl : o.listens addr with
  | true =>
    rw [bind_of_ok rfl, bind_of_ok rfl, bind_of_ok rfl, bind_of_ok rfl, bind_of_ok rfl, hl]
    rfl
  | false =>
    rw [bind_of_ok rfl, bind_of_ok rfl, bind_of_ok rfl, bind_of_ok rfl, bind_of_ok rfl, hl]
    rfl

theorem launch_load_error {build : TlsConfig → Setup Addr B} (h : o.load = .error message) :
    launch o build = ⟨[.readConfig "config.toml"],
      .error (.failed ["failed to load config.toml", message])⟩ := by
  rw [launch, h]
  rfl

theorem launch_build_error {build : TlsConfig → Setup Addr B} (h : o.load = .ok config)
    (hb : (build config.tls).result = .error stop) :
    launch o build = ⟨.readConfig "config.toml" :: (build config.tls).effects,
      .error (stop.context "failed to build TLS acceptor")⟩ := by
  have hstop := (mapStop_eq_error (g := Stop.context "failed to build TLS acceptor")).2 ⟨_, hb, rfl⟩
  rw [launch, h, bind_of_ok rfl, bind_of_ok rfl, bind_of_error hstop]
  simp only [mapStop_effects]
  rfl

theorem launch_serve {build : TlsConfig → Setup Addr B} (h : o.load = .ok config)
    (hb : (build config.tls).result = .ok acceptor) :
    launch o build = ⟨.readConfig "config.toml" :: ((build config.tls).effects ++
      (serve o config acceptor).effects), (serve o config acceptor).result⟩ := by
  have hok := (mapStop_eq_ok (g := Stop.context "failed to build TLS acceptor")).2 hb
  rw [launch, h, bind_of_ok rfl, bind_of_ok rfl, bind_of_ok hok]
  simp only [mapStop_effects]
  rfl

section
variable {build : TlsConfig → Setup Addr B} {config : Config}

theorem ReadsOnly.listener {effects : List (Effect Addr)} (h : ReadsOnly effects)
    (before addr after)
    (heq : effects = before ++ .bind addr :: after) : ∃ us, .spawnCheckers us ∈ before :=
  absurd rfl ((h _ (heq ▸ List.mem_append_right _ List.mem_cons_self)).2 addr)

theorem ReadsOnly.spawns_first {effects : List (Effect Addr)} (h : ReadsOnly effects)
    (heq : effects ++ [.spawnCheckers us, .bind addr] = before ++ .bind addr' :: after) :
    .spawnCheckers us ∈ before := by
  rcases List.append_eq_append_iff.1 heq with ⟨as, rfl, has⟩ | ⟨bs, rfl, hbs⟩
  · cases as with
    | nil => cases has
    | cons a as =>
      rw [← (List.cons.inj has).1]
      exact List.mem_append_right _ List.mem_cons_self
  · cases bs with
    | nil => cases hbs
    | cons b bs =>
      rw [← (List.cons.inj hbs).1] at h
      exact absurd rfl ((h _ (List.mem_append_right _ List.mem_cons_self)).2 addr')

theorem launches_load_error (h : o.load = .error message) : Launches o build (launch o build) := by
  rw [launch_load_error h]
  have hreads : ReadsOnly ([.readConfig "config.toml"] : List (Effect Addr)) := by simp [ReadsOnly]
  refine ⟨fun hp => ?_, fun path hp => ?_, fun us hs => absurd rfl ((hreads _ hs).1 us),
    hreads.listener, fun s hs => ?_, fun chain hc => .inl ?_⟩
  · cases hp
  · simp at hp
  · cases hs
  · cases hc
    exact ⟨message, h, rfl, hreads⟩

theorem Builds.readsOnly (hb : Builds build) (hv : config.Valid o.parseAddr) :
    ReadsOnly (.readConfig "config.toml" :: (build config.tls).effects) := by
  intro e he
  rcases List.mem_cons.1 he with rfl | he
  · exact ⟨fun _ h => (by cases h), fun _ h => (by cases h)⟩
  · obtain ⟨path, _, rfl⟩ := hb.opens _ e hv.tls he
    exact ⟨fun _ h => (by cases h), fun _ h => (by cases h)⟩

theorem Builds.openFile_ne (hb : Builds build) (hv : config.Valid o.parseAddr)
    (h : .openFile path ∈ .readConfig "config.toml" :: (build config.tls).effects) : path ≠ "" := by
  rcases List.mem_cons.1 h with h | h
  · cases h
  · obtain ⟨path', hne, heq⟩ := hb.opens _ _ hv.tls h
    cases heq
    exact hne

theorem launches_build_error (hb : Builds build) (h : o.load = .ok config)
    (hbuild : (build config.tls).result = .error stop) : Launches o build (launch o build) := by
  have hreads := hb.readsOnly (Config.load_valid h)
  rw [launch_build_error h hbuild]
  cases stop with
  | panicked => exact absurd hbuild (hb.unpanicked _)
  | failed rest =>
    refine ⟨fun hp => ?_, fun path hp => hb.openFile_ne (Config.load_valid h) hp,
      fun us hs => absurd rfl ((hreads _ hs).1 us), hreads.listener, fun s hs => ?_,
      fun chain hc => .inr (.inl ?_)⟩
    · cases hp
    · cases hs
    · cases hc
      exact ⟨config, rest, h, hbuild, rfl, hreads⟩

theorem launches_serve (hb : Builds build) (h : o.load = .ok config)
    (hbuild : (build config.tls).result = .ok acceptor) : Launches o build (launch o build) := by
  have hv := Config.load_valid h
  have hreads := hb.readsOnly hv
  obtain ⟨us, addr, mem, hmap, haddr, hwire, hwired, hserve⟩ := serve_eq hv acceptor
  rw [launch_serve h hbuild, hserve, ← List.cons_append]
  have hmem {e : Effect Addr} (he : e ∈ .readConfig "config.toml" :: (build config.tls).effects ++
      [.spawnCheckers us, .bind addr]) :
      e ∈ .readConfig "config.toml" :: (build config.tls).effects ∨
        e = .spawnCheckers us ∨ e = .bind addr := by
    simpa only [List.mem_append, List.mem_cons, List.not_mem_nil, or_false] using he
  refine ⟨fun hp => ?_, fun path hp => ?_, fun us' hs => ?_,
    fun before addr' after heq => ⟨us, hreads.spawns_first heq⟩, fun s hs => ?_,
    fun chain hc => .inr (.inr ⟨config, addr, h, haddr, ?_⟩)⟩
  · change (if _ then _ else _) = _ at hp
    split at hp <;> cases hp
  · rcases hmem hp with hp | hp | hp
    · exact hb.openFile_ne hv hp
    · cases hp
    · cases hp
  · rcases hmem hs with hs | hs | hs
    · exact absurd rfl ((hreads _ hs).1 us')
    · cases hs
      exact ⟨config, acceptor, h, hbuild, hmap⟩
    · cases hs
  · change (if _ then _ else _) = _ at hs
    split at hs
    · next hl =>
      cases hs
      exact ⟨h, hbuild, hwire, hwired, addr, haddr, hl⟩
    · cases hs
  · change (if _ then _ else _) = _ at hc
    split at hc
    · cases hc
    · next hl =>
      cases hc
      exact ⟨Bool.eq_false_iff.2 hl, rfl,
        List.mem_append_right _ (List.mem_cons_of_mem _ List.mem_cons_self)⟩

theorem Builds.launches (hb : Builds build) : Launches o build (launch o build) := by
  cases hload : o.load with
  | error message => exact launches_load_error hload
  | ok config =>
    cases hbuild : (build config.tls).result with
    | error stop => exact launches_build_error hb hload hbuild
    | ok acceptor => exact launches_serve hb hload hbuild

end

/-- Both of the TLS options, whatever is in the file and whatever the libraries say. -/
theorem main_launches (o : Outside Addr F Cert Key A) : Launches o (buildAcceptor o) (main o) ∧
    Launches o (D.buildServerConfig o) (D.main o) :=
  ⟨(buildAcceptor_builds o).launches, (buildServerConfig_builds o).launches⟩

end ReverseProxy.C
