import Mpdscribble.Config

/-! `load_scrobbler_config`, `load_config_file` and `file_read_config` (ReadConfig.cxx).

    The source's `load_config_file` takes a path and calls `ReadIniFile` first; `loadConfigFile`
    takes the parsed file, and `fileReadConfig` reads it, from the path `get_default_config_path`
    finds when the command line gave none (`resolveConf`). The settings come from the unnamed
    section (`loadSettings`); then every section but a `username`-less unnamed one gives a
    scrobbler at the front of the list (`loadSection`).

    `loadConfigFile_keeps_set_options` is the precedence of the command line for the options read
    through `load_string` and `load_integer`; `port_overrides_command_line` shows that `port`,
    read through `load_unsigned`, does not have it. `loadConfigFile_scrobblers` describes the
    scrobbler list section by section. `loadConfigFile_ok_iff` and `fileReadConfig_ok_iff` say
    exactly which files the two accept. `fileReadConfig_unnamed_journal`: the `last.fm` scrobbler
    has no journal by default when the configuration file is named on the command line. -/

namespace Mpdscribble

/-! ### `load_scrobbler_config` -/

/-- The name and the destination of a scrobbler: `last.fm` at `AS_HOST` for the unnamed section,
    otherwise the section's name with its `file`, or else its `url`. -/
def scrobblerTarget (sectionName : Str) (sec : IniSection) : Except ConfigError ScrobblerConfig :=
  if sectionName.isEmpty then
    .ok { name := "last.fm".toList, url := asHost, username := [], password := [], journal := [], file := [] }
  else if !(getStdString sec "file".toList).isEmpty then
    .ok { name := sectionName, url := [], username := [], password := [], journal := []
          file := getStdString sec "file".toList }
  else if !(getStdString sec "url".toList).isEmpty then
    .ok { name := sectionName, url := getStdString sec "url".toList, username := [], password := []
          journal := [], file := [] }
  else .error (.neitherFileNorUrl sectionName)

/-- The `username` and `password` a scrobbler without a `file` must have. -/
def scrobblerCredentials (sec : IniSection) (scrobbler : ScrobblerConfig) :
    Except ConfigError ScrobblerConfig :=
  if !scrobbler.file.isEmpty then .ok scrobbler
  else if (getStdString sec "username".toList).isEmpty then .error .noUsername
  else if (getStdString sec "password".toList).isEmpty then .error .noPassword
  else .ok { scrobbler with
    username := getStdString sec "username".toList, password := getStdString sec "password".toList }

/-- The journal: `journal`, or for the unnamed section the older `cache`, or the default path. -/
def scrobblerJournal (env : Env) (config : Config) (sectionName : Str) (sec : IniSection) : Str :=
  if (getStdString sec "journal".toList).isEmpty && sectionName.isEmpty then
    if (getStdString sec "cache".toList).isEmpty then getDefaultCachePath env config
    else getStdString sec "cache".toList
  else getStdString sec "journal".toList

/-- `load_scrobbler_config`. -/
def loadScrobblerConfig (env : Env) (config : Config) (sectionName : Str) (sec : IniSection) :
    Except ConfigError ScrobblerConfig := do
  let scrobbler ← scrobblerTarget sectionName sec
  let scrobbler ← scrobblerCredentials sec scrobbler
  pure { scrobbler with journal := scrobblerJournal env config sectionName sec }

/-! ### `load_config_file` and `file_read_config` -/

/-- The settings `load_config_file` reads from the unnamed section, in its order. -/
def loadSettings (file : IniFile) (config : Config) : Except ConfigError Config := do
  let config := { config with
    pidfile := (loadString file "pidfile".toList config.pidfile).1
    daemonUser := (loadString file "daemon_user".toList config.daemonUser).1
    log := (loadString file "log".toList config.log).1
    host := (loadString file "host".toList config.host).1 }
  let port ← loadUnsigned file "port".toList config.port
  let config := { config with port := port.1, proxy := (loadString file "proxy".toList config.proxy).1 }
  let journalInterval ← loadUnsigned file "journal_interval".toList config.journalInterval
  let journalInterval ← (if journalInterval.2 then pure journalInterval
    else loadUnsigned file "cache_interval".toList journalInterval.1)
  let verbose ← loadInteger file "verbose".toList config.verbose
  pure { config with journalInterval := journalInterval.1, verbose := verbose.1 }

/-- One pass of the section loop of `load_config_file`: the unnamed section without a `username`
    is skipped, any other section puts its scrobbler at the front of the list. -/
def loadSection (env : Env) (config : Config) (entry : Str × IniSection) : Except ConfigError Config :=
  if entry.1.isEmpty && (entry.2.find? "username".toList).isNone then .ok config
  else (loadScrobblerConfig env config entry.1 entry.2).map
    fun scrobbler => { config with scrobblers := scrobbler :: config.scrobblers }

/-- `load_config_file` on the parsed file; the sections come in the order of the map's keys. -/
def loadConfigFile (env : Env) (config : Config) (file : IniFile) : Except ConfigError Config := do
  file.entries.foldlM (loadSection env) (← loadSettings file config)

/-- The defaults `file_read_config` fills in once the file is read: the log path, the proxy from
    `http_proxy`, and `verbose = 1`. -/
def fillDefaults (env : Env) (config : Config) : Config :=
  let config := if config.log.isEmpty then { config with log := getDefaultLogPath env } else config
  let config := if config.proxy.isEmpty then
      match env.getenv "http_proxy".toList with
      | some proxy => { config with proxy }
      | none => config
    else config
  if config.verbose = -1 then { config with verbose := 1 } else config

/-- The first lines of `file_read_config`: without a path from the command line, the one
    `get_default_config_path` finds, with `loc` as it sets it. -/
def resolveConf (env : Env) (config : Config) : Except ConfigError Config :=
  if config.conf.isEmpty then (getDefaultConfigPath env config).map fun r => { r.2 with conf := r.1 }
  else pure config

/-- `file_read_config`. -/
def fileReadConfig (env : Env) (config : Config) : Except ConfigError Config := do
  let config ← resolveConf env config
  let config ← (if !config.conf.isEmpty then
      (readIniFile env.files config.conf).mapError .read >>= loadConfigFile env config
    else pure config)
  if config.conf.isEmpty then .error .cannotFindConfigurationFile
  else if config.scrobblers.isEmpty then .error (.noAudioscrobblerHost config.conf)
  else .ok (fillDefaults env config)

/-- The configuration `file_read_config` goes on with once `resolveConf` has returned. When
    `get_default_config_path` throws, `file_read_config` throws with it, and this is the
    configuration as it was. -/
def defaultConf (env : Env) (c : Config) : Config :=
  match resolveConf env c with
  | .ok c₀ => c₀
  | .error _ => c

/-! ### Scrobblers -/

/-- A usable scrobbler: a journal `file`, or else a `url` with a `username` and a `password`. -/
def ScrobblerConfig.WellFormed (s : ScrobblerConfig) : Prop :=
  s.file ≠ [] ∨ s.url ≠ [] ∧ s.username ≠ [] ∧ s.password ≠ []

/-- `s` is the scrobbler of the section `e`: `last.fm` at `AS_HOST` without a `file` for the
    unnamed section, otherwise the section's name and its `file`, or else its `url`. -/
def EntryOf (e : Str × IniSection) (s : ScrobblerConfig) : Prop :=
  if e.1 = [] then s.name = "last.fm".toList ∧ s.url = asHost ∧ s.file = []
  else s.name = e.1 ∧ s.file = getStdString e.2 "file".toList ∧
    (s.file = [] → s.url = getStdString e.2 "url".toList)

/-- The sections that give a scrobbler: every named one, and the unnamed one when it has a
    `username`. -/
def scrobblerSections (file : IniFile) : List (Str × IniSection) :=
  file.entries.filter fun e => e.1 ≠ [] ∨ "username".toList ∈ e.2.keys

/-- `ss` is the scrobbler list of `file`: one entry per section that gives one, the last section
    first, and every entry usable. -/
def ScrobblersOf (file : IniFile) (ss : List ScrobblerConfig) : Prop :=
  (∃ l, List.Forall₂ EntryOf (scrobblerSections file) l ∧ ss = l.reverse) ∧ ∀ s ∈ ss, s.WellFormed

theorem EntryOf.congr {e : Str × IniSection} {s s' : ScrobblerConfig} (h : EntryOf e s)
    (hn : s'.name = s.name) (hu : s'.url = s.url) (hf : s'.file = s.file) : EntryOf e s' := by
  unfold EntryOf at *
  rw [hn, hu, hf]
  exact h

theorem scrobblerTarget_ok {name : Str} {sec : IniSection} {s : ScrobblerConfig}
    (h : scrobblerTarget name sec = .ok s) : EntryOf (name, sec) s ∧ (s.file = [] → s.url ≠ []) := by
  unfold scrobblerTarget at h
  split_ifs at h <;> cases h <;> simp_all [EntryOf, asHost]

theorem scrobblerCredentials_ok {sec : IniSection} {s s' : ScrobblerConfig}
    (h : scrobblerCredentials sec s = .ok s') :
    s'.name = s.name ∧ s'.url = s.url ∧ s'.file = s.file ∧
      (s.file = [] → s'.username ≠ [] ∧ s'.password ≠ []) := by
  unfold scrobblerCredentials at h
  split_ifs at h with h₁ h₂ h₃ <;> cases h
  · simp at h₁
    exact ⟨rfl, rfl, rfl, fun e => absurd e h₁⟩
  · simp at h₂ h₃
    exact ⟨rfl, rfl, rfl, fun _ => ⟨h₂, h₃⟩⟩

/-- `load_scrobbler_config` gives the entry of its section, and a usable one. -/
theorem loadScrobblerConfig_ok {env : Env} {c : Config} {name : Str} {sec : IniSection}
    {s : ScrobblerConfig} (h : loadScrobblerConfig env c name sec = .ok s) :
    EntryOf (name, sec) s ∧ s.WellFormed := by
  obtain ⟨t, ht, h⟩ := bind_eq_ok.mp h
  obtain ⟨t', ht', h⟩ := bind_eq_ok.mp h
  cases h
  obtain ⟨he, hurl⟩ := scrobblerTarget_ok ht
  obtain ⟨hn, hu, hf, hcred⟩ := scrobblerCredentials_ok ht'
  refine ⟨he.congr hn hu hf, ?_⟩
  by_cases hfile : t.file = []
  · exact .inr ⟨hu ▸ hurl hfile, hcred hfile⟩
  · exact .inl (hf ▸ hfile)

/-! ### The section loop -/

/-- The options of a configuration, all but the scrobbler list. -/
def Config.settings (c : Config) : Config := { c with scrobblers := [] }

theorem settings_eq_fields {c c' : Config} (h : c'.settings = c.settings) :
    c'.conf = c.conf ∧ c'.pidfile = c.pidfile ∧ c'.daemonUser = c.daemonUser ∧ c'.log = c.log ∧
      c'.host = c.host ∧ c'.port = c.port ∧ c'.proxy = c.proxy ∧ c'.verbose = c.verbose := by
  simp only [Config.settings, Config.mk.injEq] at h
  tauto

theorem skip_iff (e : Str × IniSection) :
    (e.1.isEmpty && (e.2.find? "username".toList).isNone) = true ↔
      ¬(e.1 ≠ [] ∨ "username".toList ∈ e.2.keys) := by
  simp [StrMap.mem_keys]

/-- The step lemma of the section loop. -/
theorem loadSection_ok {env : Env} {c c' : Config} {e : Str × IniSection}
    (h : loadSection env c e = .ok c') :
    c'.settings = c.settings ∧
      if e.1 ≠ [] ∨ "username".toList ∈ e.2.keys then
        ∃ s, EntryOf e s ∧ s.WellFormed ∧ c'.scrobblers = s :: c.scrobblers
      else c' = c := by
  unfold loadSection at h
  by_cases hg : e.1 ≠ [] ∨ "username".toList ∈ e.2.keys
  · rw [if_neg (mt (skip_iff e).mp (not_not.mpr hg))] at h
    obtain ⟨s, hs, rfl⟩ := map_eq_ok.mp h
    exact ⟨rfl, by rw [if_pos hg]; exact ⟨s, (loadScrobblerConfig_ok hs).1, (loadScrobblerConfig_ok hs).2, rfl⟩⟩
  · rw [if_pos ((skip_iff e).mpr hg)] at h
    cases h
    exact ⟨rfl, by rw [if_neg hg]⟩

/-- The run lemma of the section loop: the options stay, and the list gains one entry per
    section that gives a scrobbler, the last section first. -/
theorem foldlM_loadSection {env : Env} : ∀ {es : List (Str × IniSection)} {c c' : Config},
    es.foldlM (loadSection env) c = .ok c' →
    c'.settings = c.settings ∧ ∃ l, List.Forall₂ EntryOf
      (es.filter fun e => e.1 ≠ [] ∨ "username".toList ∈ e.2.keys) l ∧ (∀ s ∈ l, s.WellFormed) ∧
        c'.scrobblers = l.reverse ++ c.scrobblers
  | [], c, c', h => by
    cases h
    exact ⟨rfl, [], .nil, fun _ h => absurd h (List.not_mem_nil _), rfl⟩
  | e :: es, c, c', h => by
    obtain ⟨c₁, h₁, h⟩ := bind_eq_ok.mp h
    obtain ⟨hset, l, hl, hwf, hsc⟩ := foldlM_loadSection h
    obtain ⟨hset₁, hgive⟩ := loadSection_ok h₁
    refine ⟨hset.trans hset₁, ?_⟩
    split_ifs at hgive with hg
    · obtain ⟨s, hs, hs_wf, hsc₁⟩ := hgive
      refine ⟨s :: l, ?_, List.forall_mem_cons.mpr ⟨hs_wf, hwf⟩, by simp [hsc, hsc₁]⟩
      rw [List.filter_cons_of_pos (by simpa using hg)]
      exact .cons hs hl
    · subst hgive
      refine ⟨l, ?_, hwf, hsc⟩
      rwa [List.filter_cons_of_neg (by simpa using hg)]

/-! ### Settings -/

/-- What `loadSettings` stores: the `load_string` options, and the numbers the loaders return. -/
theorem loadSettings_ok {file : IniFile} {c c' : Config} (h : loadSettings file c = .ok c') :
    c'.pidfile = (loadString file "pidfile".toList c.pidfile).1 ∧
      c'.daemonUser = (loadString file "daemon_user".toList c.daemonUser).1 ∧
      c'.log = (loadString file "log".toList c.log).1 ∧
      c'.host = (loadString file "host".toList c.host).1 ∧
      c'.proxy = (loadString file "proxy".toList c.proxy).1 ∧
      (∃ b, loadUnsigned file "port".toList c.port = .ok (c'.port, b)) ∧
      (∃ b, loadInteger file "verbose".toList c.verbose = .ok (c'.verbose, b)) ∧
      c'.conf = c.conf ∧ c'.scrobblers = c.scrobblers := by
  obtain ⟨port, hp, h⟩ := bind_eq_ok.mp h
  obtain ⟨j, -, h⟩ := bind_eq_ok.mp h
  obtain ⟨j', -, h⟩ := bind_eq_ok.mp h
  obtain ⟨v, hv, h⟩ := bind_eq_ok.mp h
  cases h
  exact ⟨rfl, rfl, rfl, rfl, rfl, ⟨_, hp⟩, ⟨_, hv⟩, rfl, rfl⟩

theorem loadConfigFile_conf {env : Env} {c c' : Config} {f : IniFile}
    (h : loadConfigFile env c f = .ok c') : c'.conf = c.conf := by
  obtain ⟨c₁, h₁, h⟩ := bind_eq_ok.mp h
  exact (settings_eq_fields (foldlM_loadSection h).1).1.trans (loadSettings_ok h₁).2.2.2.2.2.2.2.1

/-- `c'` keeps each option of `c` the command line set, among those read through `load_string`
    and `load_integer`. -/
def KeepsSetOptions (c c' : Config) : Prop :=
  (c.pidfile ≠ [] → c'.pidfile = c.pidfile) ∧ (c.daemonUser ≠ [] → c'.daemonUser = c.daemonUser) ∧
    (c.log ≠ [] → c'.log = c.log) ∧ (c.host ≠ [] → c'.host = c.host) ∧
    (c.proxy ≠ [] → c'.proxy = c.proxy) ∧ (c.verbose ≠ -1 → c'.verbose = c.verbose)

/-- The options read through `load_string` and `load_integer` keep the value the command line
    gave them. -/
theorem loadConfigFile_keeps_set_options {env : Env} {c c' : Config} {f : IniFile}
    (h : loadConfigFile env c f = .ok c') : KeepsSetOptions c c' := by
  obtain ⟨c₁, h₁, h⟩ := bind_eq_ok.mp h
  obtain ⟨-, hp, hd, hl, hh, -, hx, hv⟩ := settings_eq_fields (foldlM_loadSection h).1
  obtain ⟨hp₁, hd₁, hl₁, hh₁, hx₁, -, ⟨b, hv₁⟩, -⟩ := loadSettings_ok h₁
  refine ⟨fun hne => ?_, fun hne => ?_, fun hne => ?_, fun hne => ?_, fun hne => ?_, fun hne => ?_⟩
  · rw [hp, hp₁, loadString_of_ne_nil _ _ hne]
  · rw [hd, hd₁, loadString_of_ne_nil _ _ hne]
  · rw [hl, hl₁, loadString_of_ne_nil _ _ hne]
  · rw [hh, hh₁, loadString_of_ne_nil _ _ hne]
  · rw [hx, hx₁, loadString_of_ne_nil _ _ hne]
  · rw [loadInteger_of_ne _ _ hne] at hv₁
    rw [hv, ((Prod.mk.inj (Except.ok.inj hv₁)).1).symm]

/-- The parsed file of the lines `password = p` and `username = u`. -/
def lastFmFile : IniFile :=
  ⟨[([], ⟨[("password".toList, "p".toList), ("username".toList, "u".toList)], by decide⟩)], by decide⟩

/-- The `last.fm` scrobbler of `lastFmFile`. -/
def lastFm : ScrobblerConfig :=
  { name := "last.fm".toList, url := asHost, username := "u".toList, password := "p".toList, journal := []
    file := [] }

/-- No environment variable, no file `file_exists` accepts, no systemd, and a configuration file of
    the lines `username = u` and `password = p` at every path. -/
def lastFmEnv : Env :=
  { getenv := fun _ => none, fileExists := fun _ => false
    files := fun _ => some "username = u\npassword = p\n".toList, sdBooted := false, fileConf := [] }

theorem loadConfigFile_keeps_set_options_verbose :
    loadConfigFile lastFmEnv { Config.unset with verbose := 2 } lastFmFile =
        .ok { Config.unset with verbose := 2, scrobblers := [lastFm] } ∧
      KeepsSetOptions { Config.unset with verbose := 2 } { Config.unset with verbose := 2, scrobblers := [lastFm] } := by
  have h : loadConfigFile lastFmEnv { Config.unset with verbose := 2 } lastFmFile =
      .ok { Config.unset with verbose := 2, scrobblers := [lastFm] } := rfl
  exact ⟨h, loadConfigFile_keeps_set_options h⟩

/-- The port of the file replaces the one the command line set, whatever it was. -/
theorem port_overrides_command_line (env : Env) (c : Config) :
    (loadConfigFile env c portFile).map Config.port = .ok 1234 := by
  have hv := loadInteger_of_absent portFile "verbose".toList c.verbose (by rintro sec ⟨⟩; rfl)
  have hj := loadUnsigned_of_absent portFile "journal_interval".toList c.journalInterval (by rintro sec ⟨⟩; rfl)
  have hc := loadUnsigned_of_absent portFile "cache_interval".toList c.journalInterval (by rintro sec ⟨⟩; rfl)
  have hp : loadUnsigned portFile "port".toList c.port = .ok (1234, true) := rfl
  simp only [loadConfigFile, loadSettings, hp, hj, hc, hv, bind, Except.bind, pure, Except.pure]
  rfl

/-- The parsed file of the lines `port = 4294967297` and `verbose = 4294967297`. -/
def wrapFile : IniFile :=
  ⟨[([], ⟨[("port".toList, "4294967297".toList), ("verbose".toList, "4294967297".toList)], by decide⟩)],
    by decide⟩

/-- `2^32 + 1` is stored as 1, as the `port` and as the `verbose` the command line left unset. -/
theorem numeral_wraps (env : Env) (c : Config) :
    (loadConfigFile env { c with verbose := -1 } wrapFile).map (fun c' => (c'.port, c'.verbose)) = .ok (1, 1) := by
  have hj := loadUnsigned_of_absent wrapFile "journal_interval".toList c.journalInterval (by rintro sec ⟨⟩; rfl)
  have hc := loadUnsigned_of_absent wrapFile "cache_interval".toList c.journalInterval (by rintro sec ⟨⟩; rfl)
  have hp : loadUnsigned wrapFile "port".toList c.port = .ok (1, true) := rfl
  have hv : loadInteger wrapFile "verbose".toList (-1) = .ok (1, true) := rfl
  simp only [loadConfigFile, loadSettings, hp, hj, hc, hv, bind, Except.bind, pure, Except.pure]
  rfl

/-! ### `file_read_config` -/

theorem fillDefaults_spec (env : Env) (c : Config) :
    (fillDefaults env c).conf = c.conf ∧ (fillDefaults env c).scrobblers = c.scrobblers ∧
      (fillDefaults env c).log ≠ [] ∧ (fillDefaults env c).verbose ≠ -1 := by
  -- the log step leaves a non-empty log; the proxy and verbosity steps touch neither it nor
  -- the path and the scrobblers
  obtain ⟨log, hlog, e₁⟩ : ∃ log, log ≠ [] ∧
      (if c.log.isEmpty then { c with log := getDefaultLogPath env } else c) = { c with log } := by
    split
    · exact ⟨_, by unfold getDefaultLogPath; split <;> simp, rfl⟩
    · next h => exact ⟨_, by simpa using h, rfl⟩
  have hone : (1 : Int) ≠ -1 := by decide
  unfold fillDefaults
  dsimp only
  rw [e₁]
  rcases env.getenv "http_proxy".toList with _ | p <;> dsimp only <;> split_ifs <;>
    first | exact ⟨rfl, rfl, hlog, hone⟩ | exact ⟨rfl, rfl, hlog, ‹_›⟩

/-- `resolveConf` returns exactly when it need not call `get_default_config_path` or `HOME` is set. -/
theorem resolveConf_ok_iff {env : Env} {c : Config} :
    (∃ c₀, resolveConf env c = .ok c₀) ↔ (c.conf = [] → (env.getenv "HOME".toList).isSome) := by
  unfold resolveConf
  split
  · next hc =>
    simp only [List.isEmpty_iff.mp hc, true_implies, ← getDefaultConfigPath_ok_iff env c, map_eq_ok]
    exact ⟨fun ⟨_, r, hr, _⟩ => ⟨r, hr⟩, fun ⟨r, hr⟩ => ⟨_, r, hr, rfl⟩⟩
  · next hc => exact ⟨fun _ h => absurd (List.isEmpty_iff.mpr h) hc, fun _ => ⟨c, rfl⟩⟩

/-- What `resolveConf` returns is `defaultConf`, with the scrobblers of the command line. -/
theorem resolveConf_ok {env : Env} {c c₀ : Config} (h : resolveConf env c = .ok c₀) :
    defaultConf env c = c₀ ∧ c₀.scrobblers = c.scrobblers := by
  refine ⟨by rw [defaultConf, h], ?_⟩
  unfold resolveConf at h
  split at h
  · obtain ⟨r, hr, rfl⟩ := map_eq_ok.mp h
    rcases getDefaultConfigPath_ok hr with ⟨-, he⟩ | ⟨-, loc, -, he⟩ <;> rw [he]
  · cases h
    rfl

theorem defaultConf_of_ne_nil (env : Env) {c : Config} (h : c.conf ≠ []) : defaultConf env c = c := by
  rw [defaultConf, resolveConf, if_neg (by simpa using h)]
  rfl

/-- What `file_read_config` does when it returns: it settled on a path, read the file there and
    loaded it, found a path and a scrobbler, and filled in the defaults; and conversely. -/
theorem fileReadConfig_eq_ok {env : Env} {c c' : Config} :
    fileReadConfig env c = .ok c' ↔
      ∃ c₀ f c₁, resolveConf env c = .ok c₀ ∧ readIniFile env.files c₀.conf = .ok f ∧
        loadConfigFile env c₀ f = .ok c₁ ∧ c₁.conf ≠ [] ∧ c₁.scrobblers ≠ [] ∧ c' = fillDefaults env c₁ := by
  constructor
  · intro h
    obtain ⟨c₀, h₀, h⟩ := bind_eq_ok.mp h
    obtain ⟨c₁, h₁, h⟩ := bind_eq_ok.mp h
    split_ifs at h with hconf hsc
    cases h
    split_ifs at h₁ with hread
    · obtain ⟨f, hf, hl⟩ := bind_eq_ok.mp h₁
      exact ⟨c₀, f, c₁, h₀, mapError_eq_ok.mp hf, hl, by simpa using hconf, by simpa using hsc, rfl⟩
    · cases h₁
      exact absurd (by simpa using hread) hconf
  · rintro ⟨c₀, f, c₁, h₀, hf, hl, hconf, hsc, rfl⟩
    have hc₀ : c₀.conf ≠ [] := loadConfigFile_conf hl ▸ hconf
    refine bind_eq_ok.mpr ⟨c₀, h₀, bind_eq_ok.mpr ⟨c₁, ?_, ?_⟩⟩
    · rw [if_pos (by simpa using hc₀)]
      exact bind_eq_ok.mpr ⟨f, by rw [hf]; rfl, hl⟩
    · rw [if_neg (by simpa using hconf), if_neg (by simpa using hsc)]

/-- `load_config_file` on a configuration with no scrobbler leaves the scrobbler list of the
    file. -/
theorem scrobblersOf_loadConfigFile {env : Env} {c c' : Config} {f : IniFile} (hc : c.scrobblers = [])
    (h : loadConfigFile env c f = .ok c') : ScrobblersOf f c'.scrobblers := by
  obtain ⟨c₁, h₁, h⟩ := bind_eq_ok.mp h
  obtain ⟨-, l, hl, hwf, hsc⟩ := foldlM_loadSection h
  obtain ⟨-, -, -, -, -, -, -, -, hc₁⟩ := loadSettings_ok h₁
  rw [hc₁, hc, List.append_nil] at hsc
  exact ⟨⟨l, hl, hsc⟩, fun s hs => hwf s (List.mem_reverse.mp (hsc ▸ hs))⟩

/-- Every scrobbler corresponds to a section and is usable, and `file_read_config` returns only
    with at least one. -/
theorem loadConfigFile_scrobblers {env : Env} {c c' : Config} {f : IniFile} (hc : c.scrobblers = []) :
    (loadConfigFile env c f = .ok c' → ScrobblersOf f c'.scrobblers) ∧
      (fileReadConfig env c = .ok c' →
        c'.scrobblers ≠ [] ∧ ∃ f', readIniFile env.files c'.conf = .ok f' ∧ ScrobblersOf f' c'.scrobblers) := by
  refine ⟨scrobblersOf_loadConfigFile hc, fun h => ?_⟩
  obtain ⟨c₀, f', c₁, h₀, hf, hl, -, hsc, rfl⟩ := fileReadConfig_eq_ok.mp h
  obtain ⟨hconf, hscr, -, -⟩ := fillDefaults_spec env c₁
  rw [hscr, hconf, loadConfigFile_conf hl]
  exact ⟨hsc, f', hf, scrobblersOf_loadConfigFile ((resolveConf_ok h₀).2.trans hc) hl⟩

/-- The parsed file of an unnamed section with `username = u` and `password = p`, a section `local`
    with `file = scrobbles.log`, and a section `remote` with `url = localhost`, `username = u` and
    `password = p`. -/
def threeSectionFile : IniFile :=
  ⟨[([], ⟨[("password".toList, "p".toList), ("username".toList, "u".toList)], by decide⟩),
    ("local".toList, ⟨[("file".toList, "scrobbles.log".toList)], by decide⟩),
    ("remote".toList, ⟨[("password".toList, "p".toList), ("url".toList, "localhost".toList),
      ("username".toList, "u".toList)], by decide⟩)], by decide⟩

/-- The scrobbler of the section `local` of `threeSectionFile`. -/
def localScrobbler : ScrobblerConfig :=
  { name := "local".toList, url := [], username := [], password := [], journal := []
    file := "scrobbles.log".toList }

/-- The scrobbler of the section `remote` of `threeSectionFile`. -/
def remoteScrobbler : ScrobblerConfig :=
  { name := "remote".toList, url := "localhost".toList, username := "u".toList, password := "p".toList
    journal := [], file := [] }

theorem loadConfigFile_scrobblers_three_sections :
    Config.unset.scrobblers = [] ∧
      loadConfigFile lastFmEnv Config.unset threeSectionFile =
        .ok { Config.unset with scrobblers := [remoteScrobbler, localScrobbler, lastFm] } ∧
      ScrobblersOf threeSectionFile [remoteScrobbler, localScrobbler, lastFm] := by
  have h : loadConfigFile lastFmEnv Config.unset threeSectionFile =
      .ok { Config.unset with scrobblers := [remoteScrobbler, localScrobbler, lastFm] } :=
    rfl
  exact ⟨rfl, h, (loadConfigFile_scrobblers rfl).1 h⟩

/-! ### The files `load_config_file` and `file_read_config` accept -/

/-- What `load_scrobbler_config` needs of a section: a named section a `file`, or else a `url`,
    and then a `username` and a `password`; the unnamed section only the last two. -/
def SectionLoads (name : Str) (sec : IniSection) : Prop :=
  (name ≠ [] ∧ getStdString sec "file".toList ≠ []) ∨
    ((name = [] ∨ getStdString sec "url".toList ≠ []) ∧ getStdString sec "username".toList ≠ [] ∧
      getStdString sec "password".toList ≠ [])

theorem scrobblerCredentials_ok_iff (sec : IniSection) (t : ScrobblerConfig) :
    (∃ s, scrobblerCredentials sec t = .ok s) ↔
      t.file ≠ [] ∨ getStdString sec "username".toList ≠ [] ∧ getStdString sec "password".toList ≠ [] := by
  unfold scrobblerCredentials
  split_ifs with h₁ h₂ h₃ <;> simp_all

/-- `load_scrobbler_config` fails exactly on the sections `SectionLoads` excludes. -/
theorem loadScrobblerConfig_ok_iff (env : Env) (c : Config) (name : Str) (sec : IniSection) :
    (∃ s, loadScrobblerConfig env c name sec = .ok s) ↔ SectionLoads name sec := by
  constructor
  · rintro ⟨s, h⟩
    obtain ⟨t, ht, h⟩ := bind_eq_ok.mp h
    obtain ⟨t', ht', -⟩ := bind_eq_ok.mp h
    have hc := (scrobblerCredentials_ok_iff sec t).mp ⟨t', ht'⟩
    unfold scrobblerTarget at ht
    unfold SectionLoads
    split_ifs at ht <;> cases ht <;> simp_all
  · intro h
    -- the target, whose `file` is empty only for the unnamed section or a section without one
    obtain ⟨t, ht, hfile⟩ : ∃ t, scrobblerTarget name sec = .ok t ∧
        (t.file = [] → name = [] ∨ getStdString sec "file".toList = []) := by
      unfold scrobblerTarget
      split_ifs with h₁ h₂ h₃
      · exact ⟨_, rfl, fun _ => .inl (List.isEmpty_iff.mp h₁)⟩
      · exact ⟨_, rfl, fun e => absurd e (by simpa using h₂)⟩
      · exact ⟨_, rfl, fun _ => .inr (by simpa using h₂)⟩
      · simp only [SectionLoads] at h
        simp_all
    obtain ⟨t', ht'⟩ := (scrobblerCredentials_ok_iff sec t).mpr <| by
      by_cases hf : t.file = []
      · rcases h with ⟨hn, hsf⟩ | ⟨-, hu, hp⟩
        · exact absurd ((hfile hf).resolve_left hn) hsf
        · exact .inr ⟨hu, hp⟩
      · exact .inl hf
    exact ⟨_, bind_eq_ok.mpr ⟨t, ht, bind_eq_ok.mpr ⟨t', ht', rfl⟩⟩⟩

/-- The step lemma: one pass of the section loop fails exactly on a section that gives a
    scrobbler and does not load. -/
theorem loadSection_ok_iff (env : Env) (c : Config) (e : Str × IniSection) :
    (∃ c', loadSection env c e = .ok c') ↔
      (e.1 ≠ [] ∨ "username".toList ∈ e.2.keys → SectionLoads e.1 e.2) := by
  unfold loadSection
  by_cases hg : e.1 ≠ [] ∨ "username".toList ∈ e.2.keys
  · rw [if_neg (mt (skip_iff e).mp (not_not.mpr hg)), ← loadScrobblerConfig_ok_iff env c]
    simp only [map_eq_ok, hg, true_implies]
    exact ⟨fun ⟨_, s, hs, _⟩ => ⟨s, hs⟩, fun ⟨s, hs⟩ => ⟨_, s, hs, rfl⟩⟩
  · rw [if_pos ((skip_iff e).mpr hg)]
    exact ⟨fun _ h => absurd h hg, fun _ => ⟨c, rfl⟩⟩

/-- The section loop succeeds exactly when every section that gives a scrobbler loads, whatever
    the configuration it starts from. -/
theorem foldlM_loadSection_ok_iff (env : Env) : ∀ (es : List (Str × IniSection)) (c : Config),
    (∃ c', es.foldlM (loadSection env) c = .ok c') ↔
      ∀ e ∈ es, e.1 ≠ [] ∨ "username".toList ∈ e.2.keys → SectionLoads e.1 e.2
  | [], c => ⟨fun _ _ h => absurd h (List.not_mem_nil _), fun _ => ⟨c, rfl⟩⟩
  | e :: es, c => by
    rw [List.forall_mem_cons, ← loadSection_ok_iff env c e]
    constructor
    · rintro ⟨c', h⟩
      obtain ⟨c₁, h₁, h⟩ := bind_eq_ok.mp h
      exact ⟨⟨c₁, h₁⟩, (foldlM_loadSection_ok_iff env es c₁).mp ⟨c', h⟩⟩
    · rintro ⟨⟨c₁, h₁⟩, hes⟩
      obtain ⟨c', h⟩ := (foldlM_loadSection_ok_iff env es c₁).mpr hes
      exact ⟨c', bind_eq_ok.mpr ⟨c₁, h₁, h⟩⟩

/-- The section loop over a file succeeds exactly when every section that gives a scrobbler loads. -/
theorem sectionLoop_ok_iff (env : Env) (f : IniFile) (c : Config) :
    (∃ c', f.entries.foldlM (loadSection env) c = .ok c') ↔ ∀ e ∈ scrobblerSections f, SectionLoads e.1 e.2 := by
  rw [foldlM_loadSection_ok_iff]
  simp only [scrobblerSections, List.mem_filter, decide_eq_true_eq, and_imp]

/-- `load_config_file` accepts a parsed file exactly when its settings load and every section
    that gives a scrobbler has what `load_scrobbler_config` asks of it. -/
theorem loadConfigFile_ok_iff (env : Env) (c : Config) (f : IniFile) :
    (∃ c', loadConfigFile env c f = .ok c') ↔
      (∃ c₁, loadSettings f c = .ok c₁) ∧ ∀ e ∈ scrobblerSections f, SectionLoads e.1 e.2 := by
  constructor
  · rintro ⟨c', h⟩
    obtain ⟨c₁, h₁, h⟩ := bind_eq_ok.mp h
    exact ⟨⟨c₁, h₁⟩, (sectionLoop_ok_iff env f c₁).mp ⟨c', h⟩⟩
  · rintro ⟨⟨c₁, h₁⟩, hes⟩
    obtain ⟨c', h⟩ := (sectionLoop_ok_iff env f c₁).mpr hes
    exact ⟨c', bind_eq_ok.mpr ⟨c₁, h₁, h⟩⟩

theorem loadConfigFile_scrobblers_ne_nil {env : Env} {c c' : Config} {f : IniFile}
    (h : loadConfigFile env c f = .ok c') :
    c'.scrobblers ≠ [] ↔ c.scrobblers ≠ [] ∨ scrobblerSections f ≠ [] := by
  obtain ⟨c₁, h₁, h⟩ := bind_eq_ok.mp h
  obtain ⟨-, l, hl, -, hsc⟩ := foldlM_loadSection h
  have hlen : (scrobblerSections f).length = l.length := hl.length_eq
  rw [hsc, (loadSettings_ok h₁).2.2.2.2.2.2.2.2, ne_eq, List.append_eq_nil, List.reverse_eq_nil_iff,
    ← List.length_eq_zero, ← hlen, List.length_eq_zero]
  tauto

/-- `file_read_config` returns exactly when `get_default_config_path`, if it is called, finds `HOME`
    set, a configuration file is found and parses, its settings load, every section that gives a
    scrobbler has what `load_scrobbler_config` asks of it, and there is at least one scrobbler. -/
theorem fileReadConfig_ok_iff (env : Env) (c : Config) :
    (∃ c', fileReadConfig env c = .ok c') ↔
      (c.conf = [] → (env.getenv "HOME".toList).isSome) ∧
      (defaultConf env c).conf ≠ [] ∧ ∃ f, readIniFile env.files (defaultConf env c).conf = .ok f ∧
        (∃ c₁, loadSettings f (defaultConf env c) = .ok c₁) ∧
        (∀ e ∈ scrobblerSections f, SectionLoads e.1 e.2) ∧ (c.scrobblers ≠ [] ∨ scrobblerSections f ≠ []) := by
  constructor
  · rintro ⟨_, h⟩
    obtain ⟨c₀, f, c₁, h₀, hf, hl, hconf, hsc, -⟩ := fileReadConfig_eq_ok.mp h
    obtain ⟨rfl, hs₀⟩ := resolveConf_ok h₀
    obtain ⟨c₂, h₂, hfold⟩ := bind_eq_ok.mp hl
    exact ⟨resolveConf_ok_iff.mp ⟨_, h₀⟩, loadConfigFile_conf hl ▸ hconf, f, hf, ⟨c₂, h₂⟩,
      (sectionLoop_ok_iff env f c₂).mp ⟨c₁, hfold⟩, hs₀ ▸ (loadConfigFile_scrobblers_ne_nil hl).mp hsc⟩
  · rintro ⟨hhome, hconf, f, hf, ⟨c₂, h₂⟩, hsecs, hsc⟩
    obtain ⟨c₀, h₀⟩ := resolveConf_ok_iff.mpr hhome
    obtain ⟨rfl, hs₀⟩ := resolveConf_ok h₀
    obtain ⟨c₁, hfold⟩ := (sectionLoop_ok_iff env f c₂).mpr hsecs
    have hl : loadConfigFile env (defaultConf env c) f = .ok c₁ := bind_eq_ok.mpr ⟨c₂, h₂, hfold⟩
    exact ⟨_, fileReadConfig_eq_ok.mpr ⟨_, f, c₁, h₀, hf, hl, (loadConfigFile_conf hl).symm ▸ hconf,
      (loadConfigFile_scrobblers_ne_nil hl).mpr (hs₀.symm ▸ hsc), rfl⟩⟩

/-! ### The journal of the `last.fm` scrobbler -/

theorem loadSettings_loc {file : IniFile} {c c' : Config} (h : loadSettings file c = .ok c') :
    c'.loc = c.loc := by
  obtain ⟨_, -, h⟩ := bind_eq_ok.mp h
  obtain ⟨_, -, h⟩ := bind_eq_ok.mp h
  obtain ⟨_, -, h⟩ := bind_eq_ok.mp h
  obtain ⟨_, -, h⟩ := bind_eq_ok.mp h
  cases h
  rfl

theorem getDefaultCachePath_congr (env : Env) {c c' : Config} (h : c.loc = c'.loc) :
    getDefaultCachePath env c = getDefaultCachePath env c' := by
  rw [getDefaultCachePath, getDefaultCachePath, h]

/-- The scrobbler of the unnamed section: `last.fm` at `AS_HOST`, with the journal
    `scrobblerJournal` picks. -/
theorem loadScrobblerConfig_unnamed {env : Env} {c : Config} {sec : IniSection} {s : ScrobblerConfig}
    (h : loadScrobblerConfig env c [] sec = .ok s) :
    s.name = "last.fm".toList ∧ s.url = asHost ∧ s.journal = scrobblerJournal env c [] sec := by
  obtain ⟨t, ht, h⟩ := bind_eq_ok.mp h
  obtain ⟨t', ht', h⟩ := bind_eq_ok.mp h
  cases h
  obtain rfl : (⟨"last.fm".toList, asHost, [], [], [], []⟩ : ScrobblerConfig) = t := Except.ok.inj ht
  obtain ⟨hn, hu, -⟩ := scrobblerCredentials_ok ht'
  exact ⟨hn, hu, rfl⟩

/-- The section loop loads the unnamed section, when it has a `username`, with a configuration at
    the same location as the one it started from. -/
theorem foldlM_loadSection_unnamed {env : Env} {sec : IniSection} (hu : "username".toList ∈ sec.keys) :
    ∀ {es : List (Str × IniSection)} {c c' : Config}, ([], sec) ∈ es →
      es.foldlM (loadSection env) c = .ok c' →
      ∃ c₀ s, c₀.loc = c.loc ∧ loadScrobblerConfig env c₀ [] sec = .ok s ∧ s ∈ c'.scrobblers
  | [], _, _, he, _ => absurd he (List.not_mem_nil _)
  | e :: es, c, c', he, h => by
    obtain ⟨c₁, h₁, h⟩ := bind_eq_ok.mp h
    have hloc : c₁.loc = c.loc := by
      have := congrArg Config.loc (loadSection_ok h₁).1
      exact this
    rcases List.mem_cons.mp he with rfl | he
    · -- the unnamed section itself: its scrobbler goes to the front, and the rest of the loop
      -- only adds more
      unfold loadSection at h₁
      rw [if_neg (mt (skip_iff _).mp (not_not.mpr (.inr hu)))] at h₁
      obtain ⟨s, hs, rfl⟩ := map_eq_ok.mp h₁
      obtain ⟨-, l, -, -, hsc⟩ := foldlM_loadSection h
      exact ⟨c, s, rfl, hs, by simp [hsc]⟩
    · obtain ⟨c₀, s, h₀, hs, hmem⟩ := foldlM_loadSection_unnamed hu he h
      exact ⟨c₀, s, h₀.trans hloc, hs, hmem⟩

/-- The journal of the `last.fm` scrobbler, when the unnamed section sets neither `journal` nor
    `cache`, is the default cache path of where the configuration file was found, and none at all
    when the file was named on the command line. -/
theorem fileReadConfig_unnamed_journal {env : Env} {c c' : Config} (hloc : c.loc = .fileUnknown)
    (h : fileReadConfig env c = .ok c') {f : IniFile}
    (hf : readIniFile env.files (defaultConf env c).conf = .ok f) {sec : IniSection}
    (hsec : ([], sec) ∈ f.entries) (hu : "username".toList ∈ sec.keys)
    (hj : getStdString sec "journal".toList = []) (hc : getStdString sec "cache".toList = []) :
    ∃ s ∈ c'.scrobblers, s.name = "last.fm".toList ∧ s.url = asHost ∧
      s.journal = if c.conf = [] then getDefaultCachePath env (defaultConf env c) else [] := by
  obtain ⟨c₀, f', c₁, h₀, hf', hl, -, -, rfl⟩ := fileReadConfig_eq_ok.mp h
  obtain ⟨rfl, -⟩ := resolveConf_ok h₀
  obtain rfl : f' = f := Except.ok.inj (hf'.symm.trans hf)
  obtain ⟨c₂, h₂, hfold⟩ := bind_eq_ok.mp hl
  obtain ⟨c₀, s, hloc₀, hs, hmem⟩ := foldlM_loadSection_unnamed hu hsec hfold
  obtain ⟨hn, hurl, hjour⟩ := loadScrobblerConfig_unnamed hs
  refine ⟨s, (fillDefaults_spec env c₁).2.1 ▸ hmem, hn, hurl, ?_⟩
  have hdef : s.journal = getDefaultCachePath env (defaultConf env c) := by
    rw [hjour, ← getDefaultCachePath_congr env (hloc₀.trans (loadSettings_loc h₂)), scrobblerJournal, hj, hc]
    rfl
  split_ifs with hconf
  · exact hdef
  · rw [hdef, defaultConf_of_ne_nil env hconf, getDefaultCachePath, hloc]

/-- `HOME` set to `/home/u` and no other variable, the XDG configuration file of that home the one
    file `file_exists` accepts, and the file of `lastFmEnv` at every path. -/
def homeEnv : Env :=
  { lastFmEnv with getenv := fun v => if v = "HOME".toList then some "/home/u".toList else none
                   fileExists := fun p => p == "/home/u/.config/mpdscribble/mpdscribble.conf".toList }

/-- The `last.fm` scrobbler of `lastFmFile` with the legacy home cache as its journal. -/
def homeLastFm : ScrobblerConfig := { lastFm with journal := "/home/u/.mpdscribble/mpdscribble.cache".toList }

theorem fileReadConfig_unnamed_journal_last_fm :
    (fileReadConfig lastFmEnv { Config.unset with conf := "mpdscribble.conf".toList } =
        .ok { Config.unset with
          conf := "mpdscribble.conf".toList, log := "syslog".toList, verbose := 1, scrobblers := [lastFm] } ∧
      ∃ s ∈ [lastFm], s.name = "last.fm".toList ∧ s.url = asHost ∧
        s.journal = if "mpdscribble.conf".toList = [] then
          getDefaultCachePath lastFmEnv (defaultConf lastFmEnv { Config.unset with conf := "mpdscribble.conf".toList })
        else []) ∧
    (fileReadConfig homeEnv Config.unset =
        .ok { Config.unset with
          conf := "/home/u/.config/mpdscribble/mpdscribble.conf".toList, loc := .fileHome,
          log := "syslog".toList, verbose := 1, scrobblers := [homeLastFm] } ∧
      (∃ s ∈ [homeLastFm], s.name = "last.fm".toList ∧ s.url = asHost ∧
        s.journal = if Config.unset.conf = [] then getDefaultCachePath homeEnv (defaultConf homeEnv Config.unset)
        else []) ∧
      getDefaultCachePath homeEnv (defaultConf homeEnv Config.unset) =
        "/home/u/.mpdscribble/mpdscribble.cache".toList) := by
  -- the configuration file named on the command line
  have hread : readIniFile lastFmEnv.files "mpdscribble.conf".toList = .ok lastFmFile :=
    (readIniFileLoop_eq _ _ (by decide) (by decide) _ _).trans rfl
  have h : fileReadConfig lastFmEnv { Config.unset with conf := "mpdscribble.conf".toList } =
      .ok { Config.unset with
        conf := "mpdscribble.conf".toList, log := "syslog".toList, verbose := 1, scrobblers := [lastFm] } :=
    fileReadConfig_eq_ok.mpr ⟨_, _, _, rfl, hread, rfl, by decide, by decide, rfl⟩
  -- the configuration file `get_default_config_path` finds in the home directory
  have hread' : readIniFile homeEnv.files "/home/u/.config/mpdscribble/mpdscribble.conf".toList =
      .ok lastFmFile :=
    (readIniFileLoop_eq _ _ (by decide) (by decide) _ _).trans rfl
  have h' : fileReadConfig homeEnv Config.unset =
      .ok { Config.unset with
        conf := "/home/u/.config/mpdscribble/mpdscribble.conf".toList, loc := .fileHome,
        log := "syslog".toList, verbose := 1, scrobblers := [homeLastFm] } :=
    fileReadConfig_eq_ok.mpr ⟨_, _, _, rfl, hread', rfl, by decide, by decide, rfl⟩
  exact ⟨⟨h, fileReadConfig_unnamed_journal rfl h hread (List.mem_singleton_self _) (by decide) rfl rfl⟩,
    h', fileReadConfig_unnamed_journal rfl h' hread' (List.mem_singleton_self _) (by decide) rfl rfl, rfl⟩

end Mpdscribble
