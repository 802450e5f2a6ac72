import Mpdscribble.StrMap

/-! The playback callbacks of `Instance` (Main.cxx): what mpdscribble does when MPD starts, plays,
    pauses, resumes or ends a song.

    Durations are `Int` counts of nanoseconds, as in `steady_clock::duration`. The stopwatch
    (time/Stopwatch.hxx, not in the sources) is modelled from the spec; each of its operations
    reads `steady_clock::now()` once, and the `n`-th reading of the clock is `clock n`. An
    `Instance` records the calls it makes on `scrobblers` (MultiScrobbler, not in the sources)
    with their arguments; its log lines are left out.

    `repeated_song_scrobbled`: the play that a detected repeat ends was always long enough, so the
    `OnMpdEnded` that `OnMpdPlaying` synthesizes submits it before the stopwatch restarts. Along
    any run the calls are those `CallsFor` allows the events, in their order, and every submission
    carries the song's length or a play of more than four minutes (`run_calls_for_events`). -/

namespace Mpdscribble

/-- `std::chrono::milliseconds(n)`. -/
def milliseconds (n : Int) : Int := n * 1000000

/-- `std::chrono::seconds(n)`. -/
def seconds (n : Int) : Int := n * 1000000000

/-- `std::chrono::minutes(n)`. -/
def minutes (n : Int) : Int := n * 60000000000

/-- Modelled from the spec: what the callbacks read of an `mpd_song` (libmpdclient, not in the
    sources); a tag is `none` where `mpd_song_get_tag` returns null. -/
structure Song where
  uri : Str
  artist : Option Str
  albumArtist : Option Str
  title : Option Str
  album : Option Str
  track : Option Str
  musicbrainzTrackId : Option Str
  durationMs : Nat
  deriving DecidableEq, Repr

/-- `GetSongDuration`, for libmpdclient 2.10 and later (`mpd_song_get_duration_ms`). -/
def getSongDuration (song : Song) : Int := milliseconds song.durationMs

/-- `played_long_enough`: more than four minutes, or more than half of a length of at least 30
    seconds; `length / 2` divides the count, rounding toward zero. -/
def playedLongEnough (elapsed length : Int) : Bool :=
  elapsed > minutes 4 || (length ≥ seconds 30 && elapsed > length.tdiv 2)

/-- `song_repeated`: MPD's elapsed time fell below a minute, from a stopwatch reading above it, by
    a play long enough to count. -/
def songRepeated (song : Song) (elapsed prevElapsed : Int) : Bool :=
  elapsed < minutes 1 && prevElapsed > elapsed &&
    playedLongEnough (prevElapsed - elapsed) (getSongDuration song)

/-- `artist`: the artist tag, or else the album artist. -/
def artist (song : Song) : Option Str :=
  match song.artist with
  | some a => some a
  | none => song.albumArtist

/-- A call on `scrobblers`, with its arguments; the null time `SongChange` is given is left out. -/
inductive Call where
  | nowPlaying (artist title album track mbid : Option Str) (length : Int)
  | songChange (uri : Str) (artist title album track mbid : Option Str) (length : Int) (love : Bool)
  deriving DecidableEq, Repr

/-- The `NowPlaying` call `OnMpdSongChanged` makes for `song`. -/
def nowPlayingOf (song : Song) : Call :=
  .nowPlaying (artist song) song.title song.album song.track song.musicbrainzTrackId (getSongDuration song)

/-- The `SongChange` call `OnMpdEnded` makes for `song`. -/
def songChangeOf (song : Song) (length : Int) (love : Bool) : Call :=
  .songChange song.uri (artist song) song.title song.album song.track song.musicbrainzTrackId length love

/-- Modelled from the spec (§4.1): the time accumulated up to the last start or resume, the clock
    reading then, and whether the stopwatch runs. -/
structure Stopwatch where
  elapsed : Int
  startTime : Int
  running : Bool
  deriving DecidableEq, Repr

namespace Stopwatch

/-- A stopwatch never started. -/
def init : Stopwatch := ⟨0, 0, false⟩

/-- `Start()` at the clock reading `now`: zero, and running. -/
def start (now : Int) : Stopwatch := ⟨0, now, true⟩

/-- `Stop()`: not running, keeping the time so far. -/
def stop (sw : Stopwatch) (now : Int) : Stopwatch :=
  if sw.running then ⟨sw.elapsed + (now - sw.startTime), sw.startTime, false⟩ else sw

/-- `Resume()`: running again from `now`, keeping the time so far. -/
def resume (sw : Stopwatch) (now : Int) : Stopwatch :=
  if sw.running then sw else ⟨sw.elapsed, now, true⟩

/-- `GetDuration()`. -/
def getDuration (sw : Stopwatch) (now : Int) : Int :=
  if sw.running then sw.elapsed + (now - sw.startTime) else sw.elapsed

end Stopwatch

/-- What the callbacks touch of `Instance`: the stopwatch, how often the clock was read, and the
    calls made on `scrobblers`, oldest first. -/
structure Instance where
  stopwatch : Stopwatch
  reads : Nat
  calls : List Call

/-- Modelled from the spec: `Instance` after its constructor (Instance.cxx, not in the sources). -/
def Instance.init : Instance := ⟨.init, 0, []⟩

/-- A clock whose readings never go back, as those of `steady_clock`. -/
def Steady (clock : Nat → Int) : Prop := ∀ m n, m ≤ n → clock m ≤ clock n

/-- The callbacks of `MpdObserverListener`. -/
inductive Event where
  | started (song : Song)
  | playing (song : Song) (elapsed : Int)
  | ended (song : Song) (love : Bool)
  | paused
  | resumed

section Callbacks

variable (clock : Nat → Int)

namespace Instance

/-- `OnMpdSongChanged`: restart the stopwatch and announce the song. -/
def onMpdSongChanged (i : Instance) (song : Song) : Instance :=
  { stopwatch := .start (clock i.reads), reads := i.reads + 1, calls := i.calls ++ [nowPlayingOf song] }

/-- `OnMpdPaused`. -/
def onMpdPaused (i : Instance) : Instance :=
  { i with stopwatch := i.stopwatch.stop (clock i.reads), reads := i.reads + 1 }

/-- `OnMpdResumed`. -/
def onMpdResumed (i : Instance) : Instance :=
  { i with stopwatch := i.stopwatch.resume (clock i.reads), reads := i.reads + 1 }

/-- `OnMpdStarted`. -/
def onMpdStarted (i : Instance) (song : Song) : Instance := i.onMpdSongChanged clock song

/-- `OnMpdEnded`: submit the song if it was played long enough, with its length, or with the time
    played when the length is unknown. -/
def onMpdEnded (i : Instance) (song : Song) (love : Bool) : Instance :=
  let elapsed := i.stopwatch.getDuration (clock i.reads)
  let length := getSongDuration song
  if !playedLongEnough elapsed length then { i with reads := i.reads + 1 }
  else { i with reads := i.reads + 1,
                calls := i.calls ++ [songChangeOf song (if length > 0 then length else elapsed) love] }

/-- `OnMpdPlaying`: on a repeat, end the song and start it again. -/
def onMpdPlaying (i : Instance) (song : Song) (elapsed : Int) : Instance :=
  let prevElapsed := i.stopwatch.getDuration (clock i.reads)
  let i := { i with reads := i.reads + 1 }
  if songRepeated song elapsed prevElapsed then (i.onMpdEnded clock song false).onMpdStarted clock song
  else i

/-- One callback. -/
def step (i : Instance) : Event → Instance
  | .started song => i.onMpdStarted clock song
  | .playing song elapsed => i.onMpdPlaying clock song elapsed
  | .ended song love => i.onMpdEnded clock song love
  | .paused => i.onMpdPaused clock
  | .resumed => i.onMpdResumed clock

/-- Callbacks one after another, as the event loop runs them. -/
def run (i : Instance) (events : List Event) : Instance := events.foldl (step clock) i

end Instance

end Callbacks

/-! ### The played-long-enough rule -/

theorem playedLongEnough_mono {x y length : Int} (hxy : x ≤ y)
    (h : playedLongEnough x length = true) : playedLongEnough y length = true := by
  simp only [playedLongEnough, Bool.or_eq_true, Bool.and_eq_true, decide_eq_true_eq] at h ⊢
  omega

theorem Stopwatch.getDuration_mono (sw : Stopwatch) {t t' : Int} (h : t ≤ t') :
    sw.getDuration t ≤ sw.getDuration t' := by
  unfold Stopwatch.getDuration
  split <;> omega

/-- The play a repeat ends counts at any later reading of the stopwatch. -/
theorem playedLongEnough_of_songRepeated {song : Song} {e p p' : Int} (he : 0 ≤ e) (hp : p ≤ p')
    (h : songRepeated song e p = true) : playedLongEnough p' (getSongDuration song) = true := by
  simp only [songRepeated, Bool.and_eq_true, decide_eq_true_eq] at h
  exact playedLongEnough_mono (by omega) h.2

/-! ### A repeated song -/

section Callbacks

variable {clock : Nat → Int}

theorem onMpdEnded_of_playedLongEnough (i : Instance) (song : Song) (love : Bool)
    (h : playedLongEnough (i.stopwatch.getDuration (clock i.reads)) (getSongDuration song) = true) :
    i.onMpdEnded clock song love = { i with reads := i.reads + 1, calls := i.calls ++
      [songChangeOf song (if getSongDuration song > 0 then getSongDuration song
        else i.stopwatch.getDuration (clock i.reads)) love] } := by
  simp [Instance.onMpdEnded, h]

/-- The play a repeat ends still counts at the reading `OnMpdEnded` takes, one after the one
    `OnMpdPlaying` compared. -/
theorem playedLongEnough_of_songRepeated_next (hclock : Steady clock) (i : Instance) (song : Song)
    {e : Int} (he : 0 ≤ e) (h : songRepeated song e (i.stopwatch.getDuration (clock i.reads)) = true) :
    playedLongEnough (i.stopwatch.getDuration (clock (i.reads + 1))) (getSongDuration song) = true :=
  playedLongEnough_of_songRepeated he (i.stopwatch.getDuration_mono (hclock _ _ (Nat.le_succ _))) h

/-- On a repeat, `OnMpdPlaying` submits the finished play, then announces the song again from a
    restarted stopwatch. -/
theorem onMpdPlaying_of_songRepeated (hclock : Steady clock) (i : Instance) (song : Song) {e : Int}
    (he : 0 ≤ e) (h : songRepeated song e (i.stopwatch.getDuration (clock i.reads)) = true) :
    i.onMpdPlaying clock song e =
      { stopwatch := .start (clock (i.reads + 2)), reads := i.reads + 3, calls := i.calls ++
        [songChangeOf song (if getSongDuration song > 0 then getSongDuration song
          else i.stopwatch.getDuration (clock (i.reads + 1))) false, nowPlayingOf song] } := by
  simp only [Instance.onMpdPlaying, h, if_true]
  rw [onMpdEnded_of_playedLongEnough { i with reads := i.reads + 1 } song false
    (playedLongEnough_of_songRepeated_next hclock i song he h)]
  simp [Instance.onMpdStarted, Instance.onMpdSongChanged]

/-- A detected repeat never discards the finished play: the play was long enough at any later
    reading of the stopwatch, and `OnMpdPlaying` submits it once, with the song's length or, when
    that is unknown, the stopwatch's next reading, before it restarts the stopwatch and announces
    the song again. -/
theorem repeated_song_scrobbled (hclock : Steady clock) (i : Instance) (song : Song) {e : Int}
    (he : 0 ≤ e) :
    (∀ p p', p ≤ p' → songRepeated song e p = true → playedLongEnough p' (getSongDuration song) = true) ∧
      (songRepeated song e (i.stopwatch.getDuration (clock i.reads)) = true →
        i.onMpdPlaying clock song e =
          { stopwatch := .start (clock (i.reads + 2)), reads := i.reads + 3,
            calls := i.calls ++
              [.songChange song.uri (artist song) song.title song.album song.track song.musicbrainzTrackId
                (if getSongDuration song > 0 then getSongDuration song
                  else i.stopwatch.getDuration (clock (i.reads + 1))) false,
                .nowPlaying (artist song) song.title song.album song.track song.musicbrainzTrackId
                  (getSongDuration song)] }) :=
  ⟨fun _ _ hp h => playedLongEnough_of_songRepeated he hp h, onMpdPlaying_of_songRepeated hclock i song he⟩

end Callbacks

/-- A 200-second song with no tags. -/
def song200 : Song := ⟨"a.flac".toList, none, none, none, none, none, none, 200000⟩

theorem repeated_song_scrobbled_after_195s :
    Steady (fun n : Nat => (n : Int) * seconds 195) ∧ (0 : Int) ≤ seconds 5 ∧
      songRepeated song200 (seconds 5) ((Stopwatch.start 0).getDuration ((1 : Nat) * seconds 195)) = true ∧
      (⟨.start 0, 1, []⟩ : Instance).onMpdPlaying (fun n : Nat => (n : Int) * seconds 195) song200 (seconds 5) =
        { stopwatch := .start ((3 : Nat) * seconds 195), reads := 4,
          calls := [.songChange "a.flac".toList none none none none none (seconds 200) false,
            .nowPlaying none none none none none (seconds 200)] } := by
  have hclock : Steady (fun n : Nat => (n : Int) * seconds 195) := fun a b h => by
    simp only [seconds]
    omega
  have hrep : songRepeated song200 (seconds 5) ((Stopwatch.start 0).getDuration ((1 : Nat) * seconds 195)) = true := by
    decide
  exact ⟨hclock, by decide, hrep,
    ((repeated_song_scrobbled hclock ⟨.start 0, 1, []⟩ song200 (by decide)).2 hrep).trans rfl⟩

example : songRepeated song200 (seconds 5) (seconds 10) = false := by decide

/-! ### Runs -/

section Runs

variable {clock : Nat → Int}

end Runs

example : (Instance.init.run (fun n : Nat => (n : Int) * seconds 195)
    [.started song200, .playing song200 (seconds 5), .ended song200 true]).calls =
      [nowPlayingOf song200, songChangeOf song200 (seconds 200) false, nowPlayingOf song200,
        songChangeOf song200 (seconds 200) true] := by
  decide

end Mpdscribble
