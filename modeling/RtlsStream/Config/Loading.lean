/-
  Config/Loading.lean --- which settings a process has.

  `load_config` keeps what it has built, and unless they force it the calls that follow get
  that, whatever has become of the file and of the environment since.  A forced call that
  fails leaves what there was.

  `load_backend_config` turns the port into text and back, as the environment may hold
  another.  An integer survives that; `true`, which `load_config` takes for an integer, does
  not.  Neither asks whether anything can listen on the number.
-/
import RtlsStream.Config.Settings

set_option autoImplicit false

namespace RtlsStream.Config

open RtlsStream.Foundation RtlsStream.Python RtlsStream.StreamHandler

/-! ## The calls of a process -/

/-- A call of one of the functions that read or change the cache -/
inductive Call where
  | loadConfig (configPath : Option Str) (forceReload : Bool)
  | getConfig
  | clearConfigCache
  | loadBackendConfig (configPath : Option Str)

/-- What `load_config` makes of a file. -/
def World.build (world : World) (path : Str) : Except PyError AppConfig :=
  loadRawConfig world path >>= buildConfig world.env

/-- The file that a call builds the configuration from, if it does. -/
def Call.file (cached : Bool) : Call → Option Str
  | .loadConfig configPath forceReload =>
    if cached && !forceReload then none else some (configPath.getD defaultConfigPath)
  | .getConfig => if cached then none else some defaultConfigPath
  | .clearConfigCache => none
  | .loadBackendConfig none => if cached then none else some defaultConfigPath
  | .loadBackendConfig (some path) => some path

/-- A call builds a configuration and keeps it. -/
def Call.Builds (world : World) (call : Call) (cached : Bool) (config : AppConfig) : Prop :=
  ∃ path, call.file cached = some path ∧ world.build path = .ok config

variable [Runtime]

/-- The cache after a call -/
def Call.after (world : World) (cache : Option AppConfig) : Call → Option AppConfig
  | .loadConfig configPath forceReload => (Config.loadConfig world configPath forceReload cache).2
  | .getConfig => (Config.getConfig world cache).2
  | .clearConfigCache => Config.clearConfigCache
  | .loadBackendConfig configPath => (Backend.loadBackendConfig world configPath cache).2

/-- The cache after some calls, each with the world it finds -/
def cacheAfter (calls : List (World × Call)) : Option AppConfig :=
  calls.foldl (fun cache call => call.2.after call.1 cache) none

omit [Runtime] in
theorem loadConfig_cache (world : World) (configPath : Option Str) (forceReload : Bool)
    (cache : Option AppConfig) : (Config.loadConfig world configPath forceReload cache).2 =
      if cache.isSome && !forceReload then cache
      else match world.build (configPath.getD defaultConfigPath) with
        | .ok config => some config
        | .error _ => cache := by
  have hbuild : (match loadRawConfig world (configPath.getD defaultConfigPath) >>=
        buildConfig world.env with
      | .ok config => ((.ok config, some config) : Except PyError AppConfig × Option AppConfig)
      | .error e => (.error e, cache)).2 =
      match world.build (configPath.getD defaultConfigPath) with
      | .ok config => some config
      | .error _ => cache := by
    unfold World.build
    split <;> rfl
  cases cache with
  | none => exact hbuild
  | some config =>
    cases forceReload with
    | true => exact hbuild
    | false => rfl

/-- A call leaves what it builds, or else what there was. -/
theorem after_eq (world : World) (cache : Option AppConfig) {call : Call}
    (hcall : call ≠ .clearConfigCache) :
    call.after world cache = match call.file cache.isSome with
      | some path => match world.build path with
        | .ok config => some config
        | .error _ => cache
      | none => cache := by
  cases call with
  | clearConfigCache => exact absurd rfl hcall
  | loadConfig configPath forceReload =>
    rw [Call.after, loadConfig_cache, Call.file]
    split <;> rfl
  | getConfig =>
    cases cache with
    | none => exact loadConfig_cache world none false none
    | some config => rfl
  | loadBackendConfig configPath =>
    change (Config.loadConfig world configPath configPath.isSome cache).2 = _
    rw [loadConfig_cache]
    cases configPath with
    | none => cases cache <;> rfl
    | some path => cases cache <;> rfl

theorem after_of_builds {world : World} {cache : Option AppConfig} {call : Call} {config : AppConfig}
    (h : call.Builds world cache.isSome config) : call.after world cache = some config := by
  obtain ⟨path, hfile, hbuild⟩ := h
  have hcall : call ≠ .clearConfigCache := by
    rintro rfl
    cases hfile
  simp only [after_eq world cache hcall, hfile, hbuild]

/-- A call that builds nothing changes nothing, unless it clears the cache. -/
theorem after_of_not_builds {world : World} {cache : Option AppConfig} {call : Call}
    (hcall : call ≠ .clearConfigCache) (h : ¬ ∃ config, call.Builds world cache.isSome config) :
    call.after world cache = cache := by
  rw [after_eq world cache hcall]
  split
  · rename_i path hfile
    split
    · rename_i config hbuild
      exact absurd ⟨config, path, hfile, hbuild⟩ h
    · rfl
  · rfl

theorem cacheAfter_append (calls : List (World × Call)) (world : World) (call : Call) :
    cacheAfter (calls ++ [(world, call)]) = call.after world (cacheAfter calls) := by
  rw [cacheAfter, List.foldl_append]
  rfl

/-- The call neither clears the cache nor replaces what is in it. -/
def Call.Keeps (world : World) (call : Call) : Prop :=
  call ≠ .clearConfigCache ∧ ¬ ∃ config, call.Builds world true config

/-- However files and environment change between the calls, the cache holds a configuration
just if some call has built it, forced or with nothing in the cache, and since then the cache
was not cleared and no forced call has built another. -/
theorem cached_iff (calls : List (World × Call)) (config : AppConfig) :
    cacheAfter calls = some config ↔
      ∃ before world call after, calls = before ++ (world, call) :: after ∧
        call.Builds world (cacheAfter before).isSome config ∧
        ∀ later ∈ after, later.2.Keeps later.1 := by
  constructor
  · intro h
    induction calls using List.reverseRecOn with
    | nil => cases h
    | append_singleton calls last ih =>
      obtain ⟨world, call⟩ := last
      rw [cacheAfter_append] at h
      have hcall : call ≠ .clearConfigCache := by
        rintro rfl
        cases h
      by_cases hbuilds : ∃ config, call.Builds world (cacheAfter calls).isSome config
      · obtain ⟨built, hbuilt⟩ := hbuilds
        obtain rfl := Option.some.inj ((after_of_builds hbuilt).symm.trans h)
        exact ⟨calls, world, call, [], rfl, hbuilt, by simp⟩
      · rw [after_of_not_builds hcall hbuilds] at h
        obtain ⟨before, world', call', after, rfl, hbuilt, hkeeps⟩ := ih h
        refine ⟨before, world', call', after ++ [(world, call)], by simp, hbuilt, ?_⟩
        intro later hlater
        rcases List.mem_append.mp hlater with hlater | hlater
        · exact hkeeps later hlater
        · obtain rfl := List.mem_singleton.mp hlater
          rw [h] at hbuilds
          exact ⟨hcall, hbuilds⟩
  · rintro ⟨before, world, call, after, rfl, hbuilt, hkeeps⟩
    induction after using List.reverseRecOn with
    | nil => rw [cacheAfter_append, after_of_builds hbuilt]
    | append_singleton after last ih =>
      have hsofar := ih fun later hlater => hkeeps later (List.mem_append_left _ hlater)
      obtain ⟨hcall, hbuilds⟩ := hkeeps last (by simp)
      rw [← List.cons_append, ← List.append_assoc, cacheAfter_append,
        after_of_not_builds hcall (by rwa [hsofar]), hsofar]

end RtlsStream.Config

namespace RtlsStream.Backend

open RtlsStream.Foundation RtlsStream.Config RtlsStream.Python RtlsStream.StreamHandler

variable [Runtime]

/-! ## The port -/

/-- `str` of the port is read back, unless the port is a Boolean. -/
theorem parsePort_pyStr {port : PyInt} {t : Str} (h : pyStr port.json = .ok t) (n : Int) :
    parsePort t = .ok n ↔ port = .int n := by
  cases port with
  | int k =>
    have hread := (intOfText_intText (h : strInt k = .ok t)).2
    simp [parsePort, hread]
  | bool b =>
    have hnone : intOfText t = none := by
      cases b <;> obtain rfl := Except.ok.inj h <;>
        rw [intOfText, numeral_plain (by unfold Plain; decide)] <;> rfl
    simp [parsePort, hnone]

/-- The port can be printed: `str` refuses long integers. -/
def Printable : PyInt → Prop
  | .int n => (natText n.natAbs).length ≤ maxStrDigits
  | .bool _ => True

theorem pyStr_port_iff {port : PyInt} : (∃ t, pyStr port.json = .ok t) ↔ Printable port := by
  cases port with
  | int n =>
    simp only [PyInt.json, pyStr, reprValue, strInt, Printable]
    split <;> simp [*]
  | bool b => simp [PyInt.json, pyStr, reprValue, Printable]

/-- `load_backend_config` returns a port just if the environment gives a numeral for it or gives
no port, and the document has this integer; a Boolean in the document makes it raise although
`load_config` accepts it, and so does a port too long to print, whatever the environment. -/
theorem loads_port_iff (env : Env) (appConfig : AppConfig) (n : Int) :
    (∃ backend, backendConfig env appConfig = .ok backend ∧ backend.api.port = .int n) ↔
      Printable appConfig.backend.api.port ∧
        match env.get? (text "API_PORT") with
        | some s => intOfText s = some n
        | none => appConfig.backend.api.port = .int n := by
  rw [← pyStr_port_iff]
  have hparse : ∀ s k, parsePort s = .ok k ↔ intOfText s = some k := by
    intro s k
    unfold parsePort
    split <;> simp_all
  have hread : ∀ t, pyStr appConfig.backend.api.port.json = .ok t →
      (parsePort (getenv env (text "API_PORT") t) = .ok n ↔
        match env.get? (text "API_PORT") with
        | some s => intOfText s = some n
        | none => appConfig.backend.api.port = .int n) := by
    intro t ht
    unfold getenv
    split
    · rename_i s hs
      rw [hs, Option.getD_some, hparse]
    · rename_i hs
      rw [hs, Option.getD_none, parsePort_pyStr ht]
  constructor
  · rintro ⟨backend, hbackend, hport⟩
    simp only [backendConfig, bind_eq_ok] at hbackend
    obtain ⟨t, ht, k, hk, heq⟩ := hbackend
    obtain rfl := Except.ok.inj heq
    obtain rfl := PyInt.int.inj hport
    exact ⟨⟨t, ht⟩, (hread t ht).mp hk⟩
  · rintro ⟨⟨t, ht⟩, hport⟩
    have hk := (hread t ht).mpr hport
    refine ⟨_, bind_eq_ok.mpr ⟨t, ht, bind_eq_ok.mpr ⟨n, hk, rfl⟩⟩, rfl⟩

end RtlsStream.Backend
