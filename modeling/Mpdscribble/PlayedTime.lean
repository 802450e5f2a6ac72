import Mathlib.Algebra.BigOperators.Group.List
import Mathlib.Algebra.Ring.Int.Defs
import Mpdscribble.Main

/-! What the stopwatch of `Instance` is for (Main.cxx): the time a song has been played since it
    started, pauses left out.

    `PlayLog` keeps the stretches of play themselves, and `LogInstance` runs the callbacks of
    `Instance` over it, a song's played time being the total length of its stretches. `Tracks`
    says that a stopwatch sums up a log: `Start()`, `Stop()` and `Resume()` keep it, and the stopwatch
    then reads the log's played time (`Tracks.getDuration`). `LogSim.step` lifts this to the
    callbacks, and `run_calls_eq_logRun` to whole runs: the program makes exactly the calls of the
    log machine. -/

namespace Mpdscribble

/-- The stretches a song has been playing since it started: those a pause ended, oldest first,
    and the one still open. -/
structure PlayLog where
  closed : List (Int × Int)
  openSince : Option Int
  deriving DecidableEq, Repr

namespace PlayLog

/-- No song started yet. -/
def init : PlayLog := ⟨[], none⟩

/-- A song starts at `now`. -/
def start (now : Int) : PlayLog := ⟨[], some now⟩

/-- A pause at `now` closes the open stretch. -/
def pause (l : PlayLog) (now : Int) : PlayLog :=
  match l.openSince with
  | some t => ⟨l.closed ++ [(t, now)], none⟩
  | none => l

/-- Play resumes at `now`: a stretch opens, unless one is open. -/
def resume (l : PlayLog) (now : Int) : PlayLog :=
  match l.openSince with
  | some _ => l
  | none => ⟨l.closed, some now⟩

/-- The total length of the closed stretches. -/
def closedTime (l : PlayLog) : Int := (l.closed.map fun s => s.2 - s.1).sum

/-- The time played up to `now`: the closed stretches, and the open one up to `now`. -/
def played (l : PlayLog) (now : Int) : Int :=
  l.closedTime + match l.openSince with
    | some t => now - t
    | none => 0

end PlayLog

/-- The stopwatch `sw` sums up the log `l`: its time so far is that of the closed stretches, and it
    runs, from the reading the open stretch began at, exactly when one is open. -/
structure Tracks (l : PlayLog) (sw : Stopwatch) : Prop where
  elapsed : sw.elapsed = l.closedTime
  running : sw.running = l.openSince.isSome
  startTime : ∀ t, l.openSince = some t → sw.startTime = t

namespace Tracks

theorem init : Tracks .init .init := ⟨rfl, rfl, fun _ h => nomatch h⟩

theorem start (now : Int) : Tracks (.start now) (.start now) := ⟨rfl, rfl, fun _ h => Option.some.inj h⟩

variable {l : PlayLog} {sw : Stopwatch}

theorem stop (h : Tracks l sw) (now : Int) : Tracks (l.pause now) (sw.stop now) := by
  rcases ho : l.openSince with _ | t
  · have hr := ho ▸ h.running
    simpa [PlayLog.pause, ho, Stopwatch.stop, hr] using h
  · have hr := ho ▸ h.running
    simp only [PlayLog.pause, ho, Stopwatch.stop, hr, Option.isSome_some, if_true]
    exact ⟨by simp [PlayLog.closedTime, h.elapsed, h.startTime t ho], rfl, fun _ h => nomatch h⟩

theorem resume (h : Tracks l sw) (now : Int) : Tracks (l.resume now) (sw.resume now) := by
  rcases ho : l.openSince with _ | t
  · have hr := ho ▸ h.running
    simp only [PlayLog.resume, ho, Stopwatch.resume, hr, Option.isSome_none, Bool.false_eq_true, if_false]
    exact ⟨h.elapsed, rfl, fun _ => Option.some.inj⟩
  · have hr := ho ▸ h.running
    simpa [PlayLog.resume, ho, Stopwatch.resume, hr] using h

/-- The stopwatch reads the time the log says was played. -/
theorem getDuration (h : Tracks l sw) (now : Int) : sw.getDuration now = l.played now := by
  rcases ho : l.openSince with _ | t
  · have hr := ho ▸ h.running
    simp [Stopwatch.getDuration, PlayLog.played, ho, hr, h.elapsed]
  · have hr := ho ▸ h.running
    simp [Stopwatch.getDuration, PlayLog.played, ho, hr, h.elapsed, h.startTime t ho]

end Tracks

/-- `Instance` with the log of the stretches in place of the stopwatch. -/
structure LogInstance where
  log : PlayLog
  reads : Nat
  calls : List Call

section Callbacks

variable (clock : Nat → Int)

namespace LogInstance

/-- A fresh instance. -/
def init : LogInstance := ⟨.init, 0, []⟩

/-- A song starts: a log of its own, and the song announced. -/
def onMpdSongChanged (i : LogInstance) (song : Song) : LogInstance :=
  { log := .start (clock i.reads), reads := i.reads + 1, calls := i.calls ++ [nowPlayingOf song] }

/-- A pause closes the open stretch. -/
def onMpdPaused (i : LogInstance) : LogInstance :=
  { i with log := i.log.pause (clock i.reads), reads := i.reads + 1 }

/-- Play resumes. -/
def onMpdResumed (i : LogInstance) : LogInstance :=
  { i with log := i.log.resume (clock i.reads), reads := i.reads + 1 }

/-- A song ends: it is submitted when the time it was played is long enough, with its length, or
    with the time it was played when the length is unknown. -/
def onMpdEnded (i : LogInstance) (song : Song) (love : Bool) : LogInstance :=
  let played := i.log.played (clock i.reads)
  let length := getSongDuration song
  { i with reads := i.reads + 1,
           calls := i.calls ++ if playedLongEnough played length
             then [songChangeOf song (if length > 0 then length else played) love] else [] }

/-- A song plays on: when MPD's elapsed time shows a repeat, the song ends and starts again. -/
def onMpdPlaying (i : LogInstance) (song : Song) (elapsed : Int) : LogInstance :=
  let i' := { i with reads := i.reads + 1 }
  if songRepeated song elapsed (i.log.played (clock i.reads))
  then (i'.onMpdEnded clock song false).onMpdSongChanged clock song else i'

/-- One callback. -/
def step (i : LogInstance) : Event → LogInstance
  | .started song => i.onMpdSongChanged clock song
  | .playing song elapsed => i.onMpdPlaying clock song elapsed
  | .ended song love => i.onMpdEnded clock song love
  | .paused => i.onMpdPaused clock
  | .resumed => i.onMpdResumed clock

/-- Callbacks one after another. -/
def run (i : LogInstance) (events : List Event) : LogInstance := events.foldl (step clock) i

end LogInstance

end Callbacks

/-- The instance `i` is `a` with a stopwatch that sums up `a`'s log. -/
structure LogSim (a : LogInstance) (i : Instance) : Prop where
  tracks : Tracks a.log i.stopwatch
  reads : a.reads = i.reads
  calls : a.calls = i.calls

namespace LogSim

variable {clock : Nat → Int} {a : LogInstance} {i : Instance}

theorem onMpdSongChanged (h : LogSim a i) (song : Song) :
    LogSim (a.onMpdSongChanged clock song) (i.onMpdSongChanged clock song) := by
  refine ⟨?_, congrArg (· + 1) h.reads, congrArg (· ++ [nowPlayingOf song]) h.calls⟩
  simp only [LogInstance.onMpdSongChanged, Instance.onMpdSongChanged, h.reads]
  exact .start _

theorem onMpdPaused (h : LogSim a i) : LogSim (a.onMpdPaused clock) (i.onMpdPaused clock) := by
  refine ⟨?_, congrArg (· + 1) h.reads, h.calls⟩
  simp only [LogInstance.onMpdPaused, Instance.onMpdPaused, h.reads]
  exact h.tracks.stop _

theorem onMpdResumed (h : LogSim a i) : LogSim (a.onMpdResumed clock) (i.onMpdResumed clock) := by
  refine ⟨?_, congrArg (· + 1) h.reads, h.calls⟩
  simp only [LogInstance.onMpdResumed, Instance.onMpdResumed, h.reads]
  exact h.tracks.resume _

theorem onMpdEnded (h : LogSim a i) (song : Song) (love : Bool) :
    LogSim (a.onMpdEnded clock song love) (i.onMpdEnded clock song love) := by
  have hd : i.stopwatch.getDuration (clock i.reads) = a.log.played (clock a.reads) :=
    h.reads ▸ h.tracks.getDuration _
  unfold LogInstance.onMpdEnded Instance.onMpdEnded
  dsimp only
  rw [hd]
  cases playedLongEnough _ _ <;> exact ⟨h.tracks, congrArg (· + 1) h.reads, by simp [h.calls]⟩

theorem onMpdPlaying (h : LogSim a i) (song : Song) (elapsed : Int) :
    LogSim (a.onMpdPlaying clock song elapsed) (i.onMpdPlaying clock song elapsed) := by
  have hd : i.stopwatch.getDuration (clock i.reads) = a.log.played (clock a.reads) :=
    h.reads ▸ h.tracks.getDuration _
  have h' : LogSim { a with reads := a.reads + 1 } { i with reads := i.reads + 1 } :=
    ⟨h.tracks, congrArg (· + 1) h.reads, h.calls⟩
  unfold LogInstance.onMpdPlaying Instance.onMpdPlaying
  dsimp only
  rw [hd]
  split
  · exact (h'.onMpdEnded song false).onMpdSongChanged song
  · exact h'

/-- The step lemma: every callback keeps the simulation. -/
theorem step (h : LogSim a i) : ∀ ev, LogSim (a.step clock ev) (i.step clock ev)
  | .started song => h.onMpdSongChanged song
  | .playing song elapsed => h.onMpdPlaying song elapsed
  | .ended song love => h.onMpdEnded song love
  | .paused => h.onMpdPaused
  | .resumed => h.onMpdResumed

theorem run (h : LogSim a i) (events : List Event) : LogSim (a.run clock events) (i.run clock events) := by
  induction events generalizing a i with
  | nil => exact h
  | cons ev events ih => exact ih (h.step ev)

end LogSim

/-- Along any run from a fresh instance, the program makes exactly the calls of the log machine:
    a song is submitted when the total length of the stretches it played, pauses left out, is long
    enough, and that total is the length submitted when the song's length is unknown. -/
theorem run_calls_eq_logRun (clock : Nat → Int) (events : List Event) :
    (Instance.init.run clock events).calls = (LogInstance.init.run clock events).calls :=
  ((LogSim.run ⟨Tracks.init, rfl, rfl⟩ events).calls).symm

end Mpdscribble
