import Mpdscribble.ReadIniFile

/-! The settings of mpdscribble and the helpers of ReadConfig.cxx that read them from the parsed
    configuration file.

    `Config` and `ScrobblerConfig` are declared in headers that are not in the sources; they have
    the fields ReadConfig.cxx reads and writes. An option the command line left unset is an empty
    string, `-1` for `verbose` and 0 for `port`. The outside world (environment variables, which
    paths are regular files, file contents, systemd) is `Env`. With `HOME` unset,
    `get_default_config_path` builds `std::string` from a null pointer, which is undefined; the
    model fails there with `homeUnset`.

    `load_integer` reads a number with `strtol` into a `long` and stores it into an `int`;
    `load_unsigned` calls it on a fresh `-1` and casts the result to `unsigned`. Integers are
    `Int` and `Nat` here, with the `long` saturation and the `int` wrap written out, for an LP64
    target (a 64-bit `long`, a 32-bit `int`). -/

namespace Mpdscribble

/-- Modelled from the spec: `ScrobblerConfig` (ScrobblerConfig.hxx, not in the sources). -/
structure ScrobblerConfig where
  name : Str
  url : Str
  username : Str
  password : Str
  journal : Str
  file : Str
  deriving DecidableEq, Repr

/-- Modelled from the spec: where the configuration file was found (Config.hxx). -/
inductive ConfigLoc where
  | fileHome
  | fileEtc
  | fileUnknown
  deriving DecidableEq, Repr

/-- Modelled from the spec: `Config` (Config.hxx, not in the sources), the fields ReadConfig.cxx
    reads and writes; `port` and `journalInterval` are `unsigned`, `verbose` an `int`. -/
structure Config where
  conf : Str
  loc : ConfigLoc
  pidfile : Str
  daemonUser : Str
  log : Str
  host : Str
  port : Nat
  proxy : Str
  journalInterval : Nat
  verbose : Int
  scrobblers : List ScrobblerConfig
  deriving DecidableEq, Repr

/-- What the process reads besides the configuration file's text: `getenv`, `file_exists`, the
    bytes `fopen` gives for a path, `sd_booted()`, and `FILE_CONF` of config.h (not in the
    sources). -/
structure Env where
  getenv : Str → Option Str
  fileExists : Str → Bool
  files : Str → Option Str
  sdBooted : Bool
  fileConf : Str

/-- The exceptions of ReadConfig.cxx. -/
inductive ConfigError where
  /-- An exception of `ReadIniFile`. -/
  | read (e : ReadError)
  /-- Thrown as `Not a number: '%s'`. -/
  | notANumber (s : Str)
  /-- Thrown as `Setting '%s' must not be negative`. -/
  | mustNotBeNegative (name : Str)
  /-- Thrown as `Section '%s' has neither 'file' nor 'url'`. -/
  | neitherFileNorUrl (sectionName : Str)
  /-- Thrown as `No 'username'`. -/
  | noUsername
  /-- Thrown as `No 'password'`. -/
  | noPassword
  /-- Thrown as `cannot find configuration file`. -/
  | cannotFindConfigurationFile
  /-- Thrown as `No audioscrobbler host configured in %s`. -/
  | noAudioscrobblerHost (conf : Str)
  /-- `std::string(HOME)` in `get_default_config_path` with `HOME` unset: undefined behaviour,
      which libstdc++ reports by throwing `std::logic_error`. -/
  | homeUnset
  deriving DecidableEq, Repr

/-- A configuration no command-line option was given for. The values are those ReadConfig.cxx
    treats as unset: an empty string (`load_string`, `conf` in `file_read_config`), `-1` for
    `verbose` (`load_integer`, `file_read_config`) and `file_unknown` for `loc`; `port` and
    `journal_interval` are 0, the value Config.hxx (not in the sources) is taken to give them. -/
def Config.unset : Config :=
  { conf := [], loc := .fileUnknown, pidfile := [], daemonUser := [], log := [], host := [], port := 0,
    proxy := [], journalInterval := 0, verbose := -1, scrobblers := [] }

/-! ### Default paths -/

/-- `AS_HOST`. -/
def asHost : Str := "https://post.audioscrobbler.com/".toList

/-- `FILE_CACHE`. -/
def fileCache : Str := "/var/cache/mpdscribble/mpdscribble.cache".toList

/-- `get_default_config_path`: the path, and `config` with `loc` set when a file was found. It
    builds `std::string(HOME)` for the legacy path whatever `XDG_CONFIG_HOME` is, so it throws
    `homeUnset` when `HOME` is unset. -/
def getDefaultConfigPath (env : Env) (config : Config) : Except ConfigError (Str × Config) :=
  match env.getenv "HOME".toList with
  | none => .error .homeUnset
  | some home =>
    let fileHomeConf := match env.getenv "XDG_CONFIG_HOME".toList with
      | some xdg => xdg ++ "/mpdscribble/mpdscribble.conf".toList
      | none => home ++ "/.config/mpdscribble/mpdscribble.conf".toList
    let legacy := home ++ "/.mpdscribble/mpdscribble.conf".toList
    let file := if env.fileExists legacy && !env.fileExists fileHomeConf then legacy else fileHomeConf
    if env.fileExists file then .ok (file, { config with loc := .fileHome })
    else if !env.fileExists env.fileConf then .ok ([], config)
    else .ok (env.fileConf, { config with loc := .fileEtc })

/-- `get_default_log_path`. -/
def getDefaultLogPath (env : Env) : Str := if env.sdBooted then "-".toList else "syslog".toList

/-- `GetXdgCachePath`. -/
def getXdgCachePath (env : Env) : Str :=
  match env.getenv "XDG_CACHE_HOME".toList with
  | none => []
  | some xdg => xdg ++ "/mpdscribble/mpdscribble.cache".toList

/-- `GetLegacyHomeCachePath`. -/
def getLegacyHomeCachePath (env : Env) : Str :=
  match env.getenv "HOME".toList with
  | none => []
  | some home => home ++ "/.mpdscribble/mpdscribble.cache".toList

/-- `GetHomeCachePath`. -/
def getHomeCachePath (env : Env) : Str :=
  if (getXdgCachePath env).isEmpty || (!(getLegacyHomeCachePath env).isEmpty &&
      !env.fileExists (getXdgCachePath env) && env.fileExists (getLegacyHomeCachePath env))
  then getLegacyHomeCachePath env else getXdgCachePath env

/-- `get_default_cache_path`. -/
def getDefaultCachePath (env : Env) (config : Config) : Str :=
  match config.loc with
  | .fileHome => getHomeCachePath env
  | .fileEtc => fileCache
  | .fileUnknown => []

/-! ### Reading one setting -/

/-- `GetString`: the value under `key` as a C string, the bytes before a NUL; `none` is null. -/
def getString (sec : IniSection) (key : Str) : Option Str := (sec.find? key).map cString

/-- `GetStdString`: the value under `key`, or the empty string. -/
def getStdString (sec : IniSection) (key : Str) : Str := (sec.find? key).getD []

/-- `load_string`: the option's new value, and whether the file gave it a non-empty one. -/
def loadString (file : IniFile) (name value : Str) : Str × Bool :=
  if !value.isEmpty then (value, false)
  else
    match file.find? [] with
    | none => (value, false)
    | some sec => (getStdString sec name, !(getStdString sec name).isEmpty)

/-- `isspace` in the C locale. -/
def isSpace (c : Char) : Bool :=
  c = ' ' || c = '\t' || c = '\n' || c = '\x0b' || c = '\x0c' || c = '\r'

/-- The value of a string of decimal digits. -/
def decimalValue (digits : Str) : Nat := digits.foldl (fun v d => 10 * v + (d.toNat - '0'.toNat)) 0

/-- `LONG_MIN` on LP64 (a 64-bit `long`). -/
def longMin : Int := -2 ^ 63

/-- `LONG_MAX` on LP64 (a 64-bit `long`). -/
def longMax : Int := 2 ^ 63 - 1

/-- The sign `strtol` reads: whether it is `-`, its length, and the bytes after it. -/
def strtolSign : Str → Bool × Nat × Str
  | '-' :: rest => (true, 1, rest)
  | '+' :: rest => (false, 1, rest)
  | rest => (false, 0, rest)

/-- `strtol(s, &endptr, 10)` for the 64-bit `long` of LP64: `isspace` bytes, an optional sign, then the longest
    run of digits, its value saturated to `[LONG_MIN, LONG_MAX]`. The second component is
    `endptr - s`, 0 when there is no digit. -/
def strtol (s : Str) : Int × Nat :=
  let (neg, signLength, rest) := strtolSign (s.dropWhile isSpace)
  let digits := rest.takeWhile Char.isDigit
  if digits.isEmpty then (0, 0)
  else
    let v : Int := if neg then -(decimalValue digits : Int) else decimalValue digits
    (max longMin (min longMax v), (s.takeWhile isSpace).length + signLength + digits.length)

/-- A `long` stored into an `int`: its residue modulo `2^32` in `[-2^31, 2^31)`. -/
def toInt32 (v : Int) : Int := Int.bmod v (2 ^ 32)

/-- `load_integer`: the option's new value, and whether the file set it. -/
def loadInteger (file : IniFile) (name : Str) (value : Int) : Except ConfigError (Int × Bool) :=
  if value ≠ -1 then .ok (value, false)
  else
    match file.find? [] with
    | none => .ok (value, false)
    | some sec =>
      match getString sec name with
      | none => .ok (value, false)
      | some s =>
        if (strtol s).2 = 0 ∨ (strtol s).2 ≠ s.length then .error (.notANumber s)
        else .ok (toInt32 (strtol s).1, true)

/-- `load_unsigned`: `load_integer` on a fresh `-1`, then the cast to `unsigned`. -/
def loadUnsigned (file : IniFile) (name : Str) (value : Nat) : Except ConfigError (Nat × Bool) :=
  match loadInteger file name (-1) with
  | .error e => .error e
  | .ok (_, false) => .ok (value, false)
  | .ok (v, true) => if v < 0 then .error (.mustNotBeNegative name) else .ok (v.toNat, true)

/-! ### Results -/

theorem bind_eq_ok {ε α β : Type} {x : Except ε α} {f : α → Except ε β} {b : β} :
    x >>= f = .ok b ↔ ∃ a, x = .ok a ∧ f a = .ok b := by
  cases x <;> simp [bind, Except.bind]

theorem map_eq_ok {ε α β : Type} {x : Except ε α} {f : α → β} {b : β} :
    x.map f = .ok b ↔ ∃ a, x = .ok a ∧ f a = b := by
  cases x <;> simp [Except.map]

theorem mapError_eq_ok {ε ε' α : Type} {x : Except ε α} {f : ε → ε'} {a : α} :
    x.mapError f = .ok a ↔ x = .ok a := by
  cases x <;> simp [Except.mapError]

/-- `get_default_config_path` returns exactly when `HOME` is set. -/
theorem getDefaultConfigPath_ok_iff (env : Env) (c : Config) :
    (∃ r, getDefaultConfigPath env c = .ok r) ↔ (env.getenv "HOME".toList).isSome := by
  unfold getDefaultConfigPath
  split
  · next hh =>
    simp only [hh, Option.isSome_none, Bool.false_eq_true, iff_false]
    rintro ⟨_, ⟨⟩⟩
  · next hh =>
    simp only [hh, Option.isSome_some, iff_true]
    split_ifs <;> exact ⟨_, rfl⟩

/-- When `get_default_config_path` returns, it returns a path `file_exists` accepts and records
    where it found it, or the empty path with the configuration left alone. -/
theorem getDefaultConfigPath_ok {env : Env} {c : Config} {r : Str × Config}
    (h : getDefaultConfigPath env c = .ok r) :
    (r.1 = [] ∧ r.2 = c) ∨ (env.fileExists r.1 = true ∧ ∃ loc, loc ≠ .fileUnknown ∧ r.2 = { c with loc }) := by
  unfold getDefaultConfigPath at h
  split at h
  · cases h
  · dsimp only at h
    -- each leaf either keeps the configuration or names a file whose existence was just tested
    split_ifs at h <;> cases h <;>
      first
      | exact .inl ⟨rfl, rfl⟩
      | exact .inr ⟨‹_›, _, by decide, rfl⟩
      | exact .inr ⟨by simpa using ‹¬(!_) = true›, _, by decide, rfl⟩

/-! ### An option the command line set or the file lacks -/

theorem loadString_of_ne_nil (file : IniFile) (name : Str) {value : Str} (h : value ≠ []) :
    loadString file name value = (value, false) := by
  simp [loadString, h]

theorem loadInteger_of_ne (file : IniFile) (name : Str) {value : Int} (h : value ≠ -1) :
    loadInteger file name value = .ok (value, false) := by
  simp [loadInteger, h]

theorem loadInteger_of_absent (file : IniFile) (name : Str) (value : Int)
    (h : ∀ sec, file.find? [] = some sec → sec.find? name = none) :
    loadInteger file name value = .ok (value, false) := by
  unfold loadInteger
  split_ifs
  · rfl
  · rcases hf : file.find? [] with _ | sec
    · rfl
    · simp [getString, h sec hf]

theorem loadUnsigned_of_absent (file : IniFile) (name : Str) (value : Nat)
    (h : ∀ sec, file.find? [] = some sec → sec.find? name = none) :
    loadUnsigned file name value = .ok (value, false) := by
  rw [loadUnsigned, loadInteger_of_absent file name _ h]

/-! ### Numerals -/

/-- A decimal numeral: a non-empty string of digits. -/
def IsNumeral (s : Str) : Prop := s ≠ [] ∧ ∀ c ∈ s, c.isDigit = true

theorem isSpace_of_isDigit {c : Char} (h : c.isDigit = true) : isSpace c = false := by
  simp only [isSpace, Bool.or_eq_false_iff, decide_eq_false_iff_not]
  refine ⟨⟨⟨⟨⟨?_, ?_⟩, ?_⟩, ?_⟩, ?_⟩, ?_⟩ <;> rintro rfl <;> exact absurd h (by decide)

theorem strtolSign_of_isDigit {c : Char} (h : c.isDigit = true) (s : Str) :
    strtolSign (c :: s) = (false, 0, c :: s) := by
  have h1 : c ≠ '-' := by rintro rfl; exact absurd h (by decide)
  have h2 : c ≠ '+' := by rintro rfl; exact absurd h (by decide)
  simp [strtolSign, h1, h2]

/-- `strtol` reads a whole numeral, saturating at `LONG_MAX`. -/
theorem strtol_numeral {s : Str} (hs : IsNumeral s) :
    strtol s = (min longMax (decimalValue s : Int), s.length) := by
  obtain ⟨c, s', rfl⟩ := List.exists_cons_of_ne_nil hs.1
  have hc := hs.2 c (List.mem_cons_self _ _)
  have hmin : longMin ≤ min longMax (decimalValue (c :: s') : Int) := by
    simp only [longMin, longMax]; omega
  simp [strtol, isSpace_of_isDigit hc, strtolSign_of_isDigit hc, List.takeWhile_eq_self_iff.mpr hs.2, hmin]

theorem toInt32_of_mod_lt {n : Nat} (h : n % 2 ^ 32 < 2 ^ 31) : toInt32 n = (n % 2 ^ 32 : Nat) := by
  rw [toInt32, Int.bmod, if_pos (by omega)]
  omega

theorem toInt32_neg_of_mod_ge {n : Nat} (h : 2 ^ 31 ≤ n % 2 ^ 32) : toInt32 n < 0 := by
  rw [toInt32, Int.bmod, if_neg (by omega)]
  omega

theorem toInt32_longMax : toInt32 longMax = -1 := by decide

theorem cString_numeral {s : Str} (hs : IsNumeral s) : cString s = s :=
  cString_of_not_mem fun m => absurd (hs.2 _ m) (by decide)

/-- `load_integer` on a numeral of value `n` stores `n` narrowed to an `int`, or `-1` when
    `strtol` saturates at `LONG_MAX`. -/
theorem loadInteger_numeral {file : IniFile} {sec : IniSection} {name s : Str}
    (hsec : file.find? [] = some sec) (hs : sec.find? name = some s) (hn : IsNumeral s) :
    loadInteger file name (-1) = .ok (if decimalValue s < 2 ^ 63 then toInt32 (decimalValue s) else -1, true) := by
  have hlen : s.length ≠ 0 := fun h => hn.1 (List.length_eq_zero.mp h)
  simp only [loadInteger, ne_eq, not_true_eq_false, if_false, hsec, getString, hs, Option.map_some',
    cString_numeral hn, strtol_numeral hn, hlen, false_or]
  split_ifs
  · rw [min_eq_right (by simp only [longMax]; omega)]
  · rw [min_eq_left (by simp only [longMax]; omega), toInt32_longMax]

/-- `load_unsigned` on a numeral of value `n` stores `n mod 2^32` when `n < 2^63` and that residue
    is below `2^31`, and throws otherwise. -/
theorem loadUnsigned_numeral {file : IniFile} {sec : IniSection} {name s : Str} (value : Nat)
    (hsec : file.find? [] = some sec) (hs : sec.find? name = some s) (hn : IsNumeral s) :
    loadUnsigned file name value =
      if decimalValue s < 2 ^ 63 ∧ decimalValue s % 2 ^ 32 < 2 ^ 31 then .ok (decimalValue s % 2 ^ 32, true)
      else .error (.mustNotBeNegative name) := by
  rw [loadUnsigned, loadInteger_numeral hsec hs hn]
  by_cases h63 : decimalValue s < 2 ^ 63
  · rw [if_pos h63]
    by_cases h31 : decimalValue s % 2 ^ 32 < 2 ^ 31
    · rw [toInt32_of_mod_lt h31, if_pos ⟨h63, h31⟩]
      dsimp only
      rw [if_neg (by omega)]
      rfl
    · rw [if_neg fun h => h31 h.2]
      dsimp only
      rw [if_pos (toInt32_neg_of_mod_ge (Nat.le_of_not_lt h31))]
  · rw [if_neg h63, if_neg fun h => h63 h.1]
    rfl

/-- The unnamed section of the one line `port = 1234`. -/
def portSection : IniSection := ⟨[("port".toList, "1234".toList)], by decide⟩

/-- The parsed file of the one line `port = 1234`. -/
def portFile : IniFile := ⟨[([], portSection)], by decide⟩

theorem loadUnsigned_numeral_port :
    portFile.find? [] = some portSection ∧ portSection.find? "port".toList = some "1234".toList ∧
      IsNumeral "1234".toList ∧
      loadUnsigned portFile "port".toList 0 =
        if decimalValue "1234".toList < 2 ^ 63 ∧ decimalValue "1234".toList % 2 ^ 32 < 2 ^ 31 then
          .ok (decimalValue "1234".toList % 2 ^ 32, true)
        else .error (.mustNotBeNegative "port".toList) :=
  have hn : IsNumeral "1234".toList := ⟨by decide, by decide⟩
  ⟨rfl, rfl, hn, loadUnsigned_numeral 0 rfl rfl hn⟩

end Mpdscribble
