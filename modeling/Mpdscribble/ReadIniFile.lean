import Mpdscribble.IniFile
import Mathlib.Algebra.Group.Int

/-! `ReadIniFile` (IniFile.cxx): the `fgets` loop that hands a configuration file to `ParseLine`.

    `fgets` copies at most 4095 bytes a call into the 4096-byte buffer, stopping after a newline,
    which it keeps. A newline is whitespace to `ParseLine`, so a line that fits the buffer parses
    as the line itself (`parseLine_append_ws`), and `readIniFile_eq_parseLines` shows the loop is
    the line-wise parse when every line fits; the line it then reports is the first one
    `ParseLine` rejects (`readIniFile_error_line`), and a blank line or a comment changes nothing
    (`readIniFile_ignores_comment`). A longer line reaches `ParseLine` in pieces and the
    counter `no` counts pieces: `long_comment_tail_parsed` is a comment whose tail is read as a
    key line. -/

namespace Mpdscribble

/-- The exceptions `ReadIniFile` throws. -/
inductive ReadError where
  /-- Thrown as `Failed to open %s`, with the errno of `fopen`. -/
  | failedToOpen (path : Str)
  /-- Thrown as `Error on %s line %u`, nesting the exception of `ParseLine`. -/
  | errorOnLine (path : Str) (no : Nat) (cause : ParseError)
  deriving DecidableEq, Repr

/-- At most `n` bytes, up to and including a newline: what `fgets` copies, and what is left. -/
def readUpTo : Nat → Str → Str × Str
  | 0, s => ([], s)
  | _ + 1, [] => ([], [])
  | n + 1, c :: s => if c = '\n' then ([c], s) else (c :: (readUpTo n s).1, (readUpTo n s).2)

/-- `fgets(buffer, size, file)` on the unread bytes of `file`; `none` at the end of the file. -/
def fgets (size : Nat) (file : Str) : Option (Str × Str) :=
  if file.isEmpty then none else some (readUpTo (size - 1) file)

/-- The C string in the buffer: `ParseLine(line)` sees the bytes before the first NUL. -/
def cString (buffer : Str) : Str := buffer.takeWhile (· != '\x00')

theorem readUpTo_rest_lt : ∀ {n : Nat} {s : Str}, 0 < n → s ≠ [] → (readUpTo n s).2.length < s.length
  | n + 1, c :: s, _, _ => by
    unfold readUpTo
    split
    · simp
    · rcases s with _ | ⟨d, s⟩
      · cases n <;> simp [readUpTo]
      · rcases n with _ | n
        · simp [readUpTo]
        · exact Nat.lt_succ_of_lt (readUpTo_rest_lt (Nat.succ_pos n) (List.cons_ne_nil d s))

theorem fgets_rest_lt {file line rest : Str} (h : fgets 4096 file = some (line, rest)) :
    rest.length < file.length := by
  unfold fgets at h
  split at h
  · cases h
  · next hne =>
    have h' : readUpTo 4095 file = (line, rest) := Option.some.inj h
    rw [show rest = (readUpTo 4095 file).2 by rw [h']]
    exact readUpTo_rest_lt (by decide) (by simpa using hne)

/-- The `while (fgets(buffer, sizeof(buffer), file))` loop of `ReadIniFile(path, file)`, from the
    line counter `no`. -/
def readIniFileLoop (path : Str) (parser : IniParser) (no : Nat) (file : Str) :
    Except ReadError IniFile :=
  match h : fgets 4096 file with
  | none => .ok parser.commit
  | some (line, rest) =>
    match parser.parseLine (cString line) with
    | .error e => .error (.errorOnLine path (no % 2 ^ 32) e)
    | .ok parser' => readIniFileLoop path parser' (no + 1) rest
termination_by file.length
decreasing_by exact fgets_rest_lt h

/-- `ReadIniFile(path, file)`: a fresh parser, `no = 1`, then `Commit`. -/
def readIniFileStream (path file : Str) : Except ReadError IniFile :=
  readIniFileLoop path .init 1 file

/-- `ReadIniFile(path)`: `fopen` gives the bytes of the file at `path`, or fails. -/
def readIniFile (files : Str → Option Str) (path : Str) : Except ReadError IniFile :=
  match files path with
  | none => .error (.failedToOpen path)
  | some file => readIniFileStream path file

/-! ### A trailing newline -/

theorem stripLeft_snoc_of_nil {s : Str} {c : Char} (hc : isWhitespaceOrNull c = true)
    (h : stripLeft s = []) : stripLeft (s ++ [c]) = [] := by
  rw [stripLeft, List.dropWhile_append, ← stripLeft, h]
  simp [hc]

theorem stripLeft_snoc {s : Str} (c : Char) (h : stripLeft s ≠ []) :
    stripLeft (s ++ [c]) = stripLeft s ++ [c] := by
  rw [stripLeft, List.dropWhile_append, ← stripLeft]
  simp [h]

theorem split_snoc {ch c : Char} (hc : c ≠ ch) (s : Str) :
    split ch (s ++ [c]) = match split ch s with
      | (_, none) => (s ++ [c], none)
      | (a, some b) => (a, some (b ++ [c])) := by
  rcases split_cases ch s with ⟨hs, e⟩ | ⟨a, b, ha, rfl, e⟩
  · rw [e, split_of_not_mem]
    simp [hs, Ne.symm hc]
  · rw [e, List.append_assoc, List.cons_append, split_append_cons ha]

theorem parseHeader_snoc (p : IniParser) (rest : Str) {c : Char} (hc : isWhitespaceOrNull c = true) :
    p.parseHeader (rest ++ [c]) = p.parseHeader rest := by
  have hc' : c ≠ ']' := by rintro rfl; simp [isWhitespaceOrNull] at hc
  unfold IniParser.parseHeader
  by_cases h : stripLeft rest = []
  · rw [stripLeft_snoc_of_nil hc h, h]
  · rw [stripLeft_snoc c h, split_snoc hc']
    rcases split_cases ']' (stripLeft rest) with ⟨-, e⟩ | ⟨a, b, -, -, e⟩
    · rw [e]
    · rw [e]
      by_cases hb : stripLeft b = []
      · simp only [stripLeft_snoc_of_nil hc hb, hb]
      · simp [stripLeft_snoc c hb, hb]

theorem parseKeyLine_snoc (p : IniParser) (line : Str) {c : Char} (hc : isWhitespaceOrNull c = true) :
    p.parseKeyLine (line ++ [c]) = p.parseKeyLine line := by
  have hc' : c ≠ '=' := by rintro rfl; simp [isWhitespaceOrNull] at hc
  unfold IniParser.parseKeyLine
  rw [split_snoc hc']
  rcases split_cases '=' line with ⟨-, e⟩ | ⟨a, b, -, -, e⟩
  · rw [e]
  · have hws : IsWs [c] := fun x hx => (List.mem_singleton.mp hx) ▸ hc
    rw [e]
    simp only [strip_append_ws b hws]

/-- A trailing whitespace byte, such as the newline `fgets` keeps, changes nothing for `ParseLine`. -/
theorem parseLine_append_ws (p : IniParser) (line : Str) {c : Char} (hc : isWhitespaceOrNull c = true) :
    p.parseLine (line ++ [c]) = p.parseLine line := by
  unfold IniParser.parseLine
  by_cases h : stripLeft line = []
  · rw [stripLeft_snoc_of_nil hc h, h]
  · rw [stripLeft_snoc c h]
    obtain ⟨front, rest, hfr⟩ := List.exists_cons_of_ne_nil h
    rw [hfr, List.cons_append]
    dsimp only
    rw [parseHeader_snoc p rest hc, ← List.cons_append, parseKeyLine_snoc p _ hc]

/-! ### Lines that fit the buffer -/

theorem readUpTo_newline (rest : Str) : ∀ {n : Nat} {l : Str}, '\n' ∉ l → l.length < n →
    readUpTo n (l ++ '\n' :: rest) = (l ++ ['\n'], rest)
  | n + 1, [], _, _ => by simp [readUpTo]
  | n + 1, c :: l, hl, hn => by
    have hc : c ≠ '\n' := fun e => hl (e ▸ List.mem_cons_self _ _)
    simp [readUpTo, hc, readUpTo_newline rest (fun m => hl (List.mem_cons_of_mem _ m))
      (Nat.lt_of_succ_lt_succ hn)]

theorem readUpTo_all : ∀ {n : Nat} {l : Str}, '\n' ∉ l → l.length ≤ n → readUpTo n l = (l, [])
  | 0, [], _, _ => rfl
  | n + 1, [], _, _ => rfl
  | n + 1, c :: l, hl, hn => by
    have hc : c ≠ '\n' := fun e => hl (e ▸ List.mem_cons_self _ _)
    simp [readUpTo, hc, readUpTo_all (fun m => hl (List.mem_cons_of_mem _ m)) (Nat.le_of_succ_le_succ hn)]

theorem cString_of_not_mem {s : Str} (h : '\x00' ∉ s) : cString s = s :=
  List.takeWhile_eq_self_iff.mpr fun _ hc => bne_iff_ne.mpr fun e => h (e ▸ hc)

theorem parseFold_singleton (p : IniParser) (line : Str) :
    parseFold p [line] = (p.parseLine line).mapError fun e => (0, e) := by
  rw [parseFold]
  cases p.parseLine line <;> rfl

/-- After a line that parses, the fold is the fold of the rest with error indices one later. -/
theorem parseFold_cons_of_ok {p p' : IniParser} {line : Str} (hp : p.parseLine line = .ok p')
    (lines : List Str) :
    parseFold p (line :: lines) = (parseFold p' lines).mapError fun x => (x.1 + 1, x.2) := by
  rw [parseFold, hp]
  dsimp only
  rcases parseFold p' lines with ⟨i, e⟩ | q <;> rfl

/-- The fold throws at line `i` (from 0) exactly when the lines before it parse and that line
    throws: the index an error carries is that of the first line `ParseLine` rejects. -/
theorem parseFold_error_iff {e : ParseError} :
    ∀ {p : IniParser} {lines : List Str} {i : Nat}, parseFold p lines = .error (i, e) ↔
      ∃ q line, parseFold p (lines.take i) = .ok q ∧ lines[i]? = some line ∧
        q.parseLine line = .error e
  | p, [], i => by simp [parseFold]
  | p, line :: lines, i => by
    rcases hp : p.parseLine line with e' | p'
    · cases i <;> simp [parseFold, hp]
    · rw [parseFold_cons_of_ok hp]
      rcases i with _ | i
      · rcases parseFold p' lines with ⟨j, e''⟩ | q <;> simp [Except.mapError, parseFold, hp]
      · -- line `i + 1` of `line :: lines` is line `i` of `lines`, read from `p'`
        rw [List.take_succ_cons, parseFold_cons_of_ok hp]
        have herr : ∀ x : Except (Nat × ParseError) IniParser,
            x.mapError (fun x => (x.1 + 1, x.2)) = .error (i + 1, e) ↔ x = .error (i, e) := by
          rintro (⟨_, _⟩ | _) <;> simp [Except.mapError]
        have hok : ∀ (x : Except (Nat × ParseError) IniParser) q,
            x.mapError (fun x => (x.1 + 1, x.2)) = .ok q ↔ x = .ok q := by
          rintro (_ | _) q <;> simp [Except.mapError]
        simp only [herr, hok, List.getElem?_cons_succ]
        exact parseFold_error_iff

theorem readIniFileLoop_nil (path : Str) (p : IniParser) (no : Nat) :
    readIniFileLoop path p no [] = .ok p.commit := by
  rw [readIniFileLoop]
  split
  · rfl
  · next hfg => simp [fgets] at hfg

/-- One pass of the loop, once `fgets` has read `line`. -/
theorem readIniFileLoop_of_fgets {path : Str} {p : IniParser} {no : Nat} {file line rest : Str}
    (h : fgets 4096 file = some (line, rest)) :
    readIniFileLoop path p no file =
      match p.parseLine (cString line) with
      | .error e => .error (.errorOnLine path (no % 2 ^ 32) e)
      | .ok p' => readIniFileLoop path p' (no + 1) rest := by
  rw [readIniFileLoop]
  split
  · next h' => rw [h] at h'; cases h'
  · next h' =>
    rw [h, Option.some.injEq, Prod.mk.injEq] at h'
    obtain ⟨rfl, rfl⟩ := h'
    rfl

/-- One pass of the loop over a line that ends in a newline and fits the buffer with it. -/
theorem readIniFileLoop_newline (path : Str) (p : IniParser) (no : Nat) {l : Str} (rest : Str)
    (hl : '\n' ∉ l) (hnul : '\x00' ∉ l) (hlen : l.length < 4095) :
    readIniFileLoop path p no (l ++ '\n' :: rest) =
      match p.parseLine l with
      | .error e => .error (.errorOnLine path (no % 2 ^ 32) e)
      | .ok p' => readIniFileLoop path p' (no + 1) rest := by
  have hfg : fgets 4096 (l ++ '\n' :: rest) = some (l ++ ['\n'], rest) := by
    simp [fgets, readUpTo_newline rest hl hlen]
  rw [readIniFileLoop_of_fgets hfg, cString_of_not_mem (by simpa using hnul),
    parseLine_append_ws p l (by decide)]

/-- The loop on a last line, with no newline, that fits the buffer. -/
theorem readIniFileLoop_last (path : Str) (p : IniParser) (no : Nat) {l : Str}
    (hl : '\n' ∉ l) (hnul : '\x00' ∉ l) (hlen : l.length < 4095) :
    readIniFileLoop path p no l =
      ((p.parseLine l).map IniParser.commit).mapError fun e => .errorOnLine path (no % 2 ^ 32) e := by
  rcases eq_or_ne l [] with rfl | hne
  · rw [readIniFileLoop_nil]
    rfl
  · have hfg : fgets 4096 l = some (l, []) := by simp [fgets, hne, readUpTo_all hl hlen.le]
    rw [readIniFileLoop_of_fgets hfg, cString_of_not_mem hnul]
    cases p.parseLine l <;> simp [readIniFileLoop_nil, Except.map, Except.mapError]

/-- The run lemma: when every line fits the buffer, the loop is the line-wise fold, the line
    counter started at `no`. -/
theorem readIniFileLoop_eq (path : Str) (c : Str) (hnul : '\x00' ∉ c)
    (hlen : ∀ l ∈ c.splitOn '\n', l.length < 4095) (p : IniParser) (no : Nat) :
    readIniFileLoop path p no c = ((parseFold p (c.splitOn '\n')).map IniParser.commit).mapError
      fun e => .errorOnLine path ((no + e.1) % 2 ^ 32) e.2 := by
  obtain ⟨n, hlc⟩ : ∃ n, c.length = n := ⟨_, rfl⟩
  induction n using Nat.strong_induction_on generalizing c p no with
  | _ n ih =>
  rcases split_cases '\n' c with ⟨hn, -⟩ | ⟨l, rest, hl, rfl, -⟩
  · -- the last line
    have hsplit : c.splitOn '\n' = [c] :=
      List.splitOnP_eq_single _ _ fun x hx e => hn (beq_iff_eq.mp e ▸ hx)
    rw [hsplit] at hlen ⊢
    rw [readIniFileLoop_last path p no hn hnul (hlen _ (List.mem_singleton_self _)), parseFold_singleton]
    cases p.parseLine c <;> rfl
  · -- a line and its newline, then the rest of the file
    have hsplit : (l ++ '\n' :: rest).splitOn '\n' = l :: rest.splitOn '\n' :=
      List.splitOnP_first (· == '\n') l (fun x hx e => hl (beq_iff_eq.mp e ▸ hx)) _ (beq_self_eq_true _) _
    rw [hsplit] at hlen ⊢
    simp only [List.mem_append, List.mem_cons, not_or] at hnul
    rw [readIniFileLoop_newline path p no rest hl hnul.1 (hlen l (List.mem_cons_self _ _))]
    rcases hp : p.parseLine l with e | p'
    · simp [parseFold, hp, Except.map, Except.mapError]
    · dsimp only
      rw [ih rest.length (by simp [← hlc]; omega) rest hnul.2.2
        (fun l' h' => hlen l' (List.mem_cons_of_mem _ h')) p' (no + 1) rfl, parseFold_cons_of_ok hp]
      rcases parseFold p' (rest.splitOn '\n') with ⟨i, e⟩ | q
      · simp [Except.map, Except.mapError, Nat.add_assoc, Nat.add_comm 1 i]
      · rfl

/-- `ReadIniFile` is the line-wise parse when no line is longer than 4094 bytes, so that each
    line and its newline fit one `fgets`; the line number it reports is the index of the rejected
    line, as an `unsigned`. -/
theorem readIniFile_eq_parseLines (path c : Str) (hnul : '\x00' ∉ c)
    (hlen : ∀ l ∈ c.splitOn '\n', l.length < 4095) :
    readIniFileStream path c = (parseLines (c.splitOn '\n')).mapError
      fun e => .errorOnLine path ((e.1 + 1) % 2 ^ 32) e.2 := by
  rw [readIniFileStream, readIniFileLoop_eq path c hnul hlen, parseLines]
  simp only [Nat.add_comm 1]

theorem readIniFile_eq_parseLines_key_line :
    '\x00' ∉ "k = v\n".toList ∧ (∀ l ∈ "k = v\n".toList.splitOn '\n', l.length < 4095) ∧
      readIniFileStream [] "k = v\n".toList = (parseLines ("k = v\n".toList.splitOn '\n')).mapError
        fun e => .errorOnLine [] ((e.1 + 1) % 2 ^ 32) e.2 :=
  ⟨by decide, by decide, readIniFile_eq_parseLines [] _ (by decide) (by decide)⟩

/-- When every line fits the buffer, `ReadIniFile` reports line `no` exactly when some line `i`
    (from 0) is the first that `ParseLine` rejects and `no` is `i + 1` as an `unsigned`. -/
theorem readIniFile_error_line (path c : Str) (hnul : '\x00' ∉ c)
    (hlen : ∀ l ∈ c.splitOn '\n', l.length < 4095) (no : Nat) (e : ParseError) :
    readIniFileStream path c = .error (.errorOnLine path no e) ↔
      ∃ i, no = (i + 1) % 2 ^ 32 ∧ ∃ q line, parseFold .init ((c.splitOn '\n').take i) = .ok q ∧
        (c.splitOn '\n')[i]? = some line ∧ q.parseLine line = .error e := by
  simp only [← parseFold_error_iff, readIniFileStream, readIniFileLoop_eq path c hnul hlen]
  rcases parseFold .init (c.splitOn '\n') with ⟨i, e'⟩ | q
  · simp [Except.map, Except.mapError, Nat.add_comm 1, and_left_comm, eq_comm]
  · simp [Except.map, Except.mapError]

theorem readIniFile_error_line_second :
    '\x00' ∉ "k = v\n[x".toList ∧ (∀ l ∈ "k = v\n[x".toList.splitOn '\n', l.length < 4095) ∧
      (readIniFileStream [] "k = v\n[x".toList = .error (.errorOnLine [] 2 .missingBracket) ↔
        ∃ i, 2 = (i + 1) % 2 ^ 32 ∧ ∃ q line,
          parseFold .init (("k = v\n[x".toList.splitOn '\n').take i) = .ok q ∧
          ("k = v\n[x".toList.splitOn '\n')[i]? = some line ∧
          q.parseLine line = .error .missingBracket) :=
  ⟨by decide, by decide, readIniFile_error_line [] _ (by decide) (by decide) 2 .missingBracket⟩

/-! ### Comments and blank lines -/

theorem not_mem_intercalate {x : Char} (hx : x ≠ '\n') :
    ∀ (ls : List Str), (∀ l ∈ ls, x ∉ l) → x ∉ ['\n'].intercalate ls
  | [], _ => List.not_mem_nil _
  | [l], h => by simpa [List.intercalate] using h l (List.mem_singleton_self _)
  | l :: l' :: ls, h => by
    have ih := not_mem_intercalate hx (l' :: ls) fun m hm => h m (List.mem_cons_of_mem _ hm)
    simp only [List.intercalate, List.intersperse_cons₂, List.flatten_cons, List.mem_append,
      List.mem_singleton, not_or] at ih ⊢
    exact ⟨h l (List.mem_cons_self _ _), hx, ih⟩

theorem toOption_mapError {ε ε' α : Type} (f : ε → ε') (x : Except ε α) :
    (x.mapError f).toOption = x.toOption := by
  cases x <;> rfl

theorem toOption_map {ε α β : Type} (f : α → β) (x : Except ε α) :
    (x.map f).toOption = x.toOption.map f := by
  cases x <;> rfl

/-- When its lines fit the buffer, a file `ReadIniFile` accepts is one whose lines all parse, and
    the map is what they build. -/
theorem readIniFileStream_toOption (path : Str) {ls : List Str} (hnl : ∀ l ∈ ls, '\n' ∉ l)
    (hnul : ∀ l ∈ ls, '\x00' ∉ l) (hlen : ∀ l ∈ ls, l.length < 4095) :
    (readIniFileStream path (['\n'].intercalate ls)).toOption =
      (parseFold .init ls).toOption.map IniParser.commit := by
  rcases eq_or_ne ls [] with rfl | hls
  · show (readIniFileStream path []).toOption = _
    rw [readIniFileStream, readIniFileLoop_nil]
    rfl
  · have hsplit := List.splitOn_intercalate ls '\n' hnl hls
    rw [readIniFileStream, readIniFileLoop_eq path _ (not_mem_intercalate (by decide) ls hnul)
      (by rw [hsplit]; exact hlen), hsplit, toOption_mapError, toOption_map]

/-- A line that `ParseLine` skips: blank, or a comment. -/
theorem parseLine_of_blank {c : Str} (hc : stripLeft c = [] ∨ ∃ t, stripLeft c = '#' :: t)
    (p : IniParser) : p.parseLine c = .ok p := by
  rcases hc with hc | ⟨t, hc⟩
  · rw [IniParser.parseLine, hc]
  · rw [IniParser.parseLine, hc]
    rfl

theorem toOption_parseFold_insert {c : Str} (hc : ∀ p : IniParser, p.parseLine c = .ok p)
    (ls₂ : List Str) : ∀ (ls₁ : List Str) (p : IniParser),
      (parseFold p (ls₁ ++ c :: ls₂)).toOption = (parseFold p (ls₁ ++ ls₂)).toOption
  | [], p => by rw [List.nil_append, parseFold_cons_of_ok (hc p), toOption_mapError, List.nil_append]
  | l :: ls₁, p => by
    rcases hp : p.parseLine l with e | p'
    · simp only [List.cons_append, parseFold, hp]
    · rw [List.cons_append, List.cons_append, parseFold_cons_of_ok hp, parseFold_cons_of_ok hp,
        toOption_mapError, toOption_mapError, toOption_parseFold_insert hc ls₂ ls₁ p']

/-- A blank line or a comment, wherever it stands, changes neither whether `ReadIniFile` accepts a
    file nor the map it returns, as long as every line fits the buffer. -/
theorem readIniFile_ignores_comment (path : Str) (ls₁ ls₂ : List Str) (c : Str)
    (hc : stripLeft c = [] ∨ ∃ t, stripLeft c = '#' :: t)
    (hnl : ∀ l ∈ ls₁ ++ c :: ls₂, '\n' ∉ l) (hnul : ∀ l ∈ ls₁ ++ c :: ls₂, '\x00' ∉ l)
    (hlen : ∀ l ∈ ls₁ ++ c :: ls₂, l.length < 4095) :
    (readIniFileStream path (['\n'].intercalate (ls₁ ++ c :: ls₂))).toOption =
      (readIniFileStream path (['\n'].intercalate (ls₁ ++ ls₂))).toOption := by
  have hsub : ls₁ ++ ls₂ ⊆ ls₁ ++ c :: ls₂ := ((List.sublist_cons_self c ls₂).append_left ls₁).subset
  rw [readIniFileStream_toOption path hnl hnul hlen, readIniFileStream_toOption path
    (fun l hl => hnl l (hsub hl)) (fun l hl => hnul l (hsub hl)) (fun l hl => hlen l (hsub hl)),
    toOption_parseFold_insert (parseLine_of_blank hc)]

theorem readIniFile_ignores_comment_between_keys :
    (stripLeft "# c".toList = [] ∨ ∃ t, stripLeft "# c".toList = '#' :: t) ∧
      (∀ l ∈ ["k=v".toList] ++ "# c".toList :: ["x=y".toList], '\n' ∉ l) ∧
      (∀ l ∈ ["k=v".toList] ++ "# c".toList :: ["x=y".toList], '\x00' ∉ l) ∧
      (∀ l ∈ ["k=v".toList] ++ "# c".toList :: ["x=y".toList], l.length < 4095) ∧
      (readIniFileStream [] (['\n'].intercalate (["k=v".toList] ++ "# c".toList :: ["x=y".toList]))).toOption =
        (readIniFileStream [] (['\n'].intercalate (["k=v".toList] ++ ["x=y".toList]))).toOption :=
  ⟨.inr ⟨_, rfl⟩, by decide, by decide, by decide,
    readIniFile_ignores_comment [] _ _ _ (.inr ⟨_, rfl⟩) (by decide) (by decide) (by decide)⟩

/-! ### A line longer than the buffer -/

theorem readUpTo_prefix (rest : Str) : ∀ {l : Str}, '\n' ∉ l → readUpTo l.length (l ++ rest) = (l, rest)
  | [], _ => rfl
  | c :: l, hl => by
    have hc : c ≠ '\n' := fun e => hl (e ▸ List.mem_cons_self _ _)
    simp [readUpTo, hc, readUpTo_prefix rest (fun m => hl (List.mem_cons_of_mem _ m))]

/-- A comment line of 4098 bytes, with no newline. -/
def longComment : Str := ('#' :: List.replicate 4094 'a') ++ "x=y".toList

theorem parseLine_comment (p : IniParser) (rest : Str) : p.parseLine ('#' :: rest) = .ok p := by
  rw [IniParser.parseLine, stripLeft_cons (by decide)]
  rfl

theorem not_mem_longComment (ch : Char) (h : ch ≠ '#' ∧ ch ≠ 'a' ∧ ch ∉ "x=y".toList) :
    ch ∉ longComment := by
  simp only [longComment, List.cons_append, List.mem_cons, List.mem_append, List.mem_replicate]
  tauto

theorem long_comment_tail_parsed :
    '\x00' ∉ longComment ∧
      (readIniFileStream [] longComment).map StrMap.keys = .ok [[]] ∧
      (parseLines (longComment.splitOn '\n')).map StrMap.keys = .ok [] := by
  have hnl : '\n' ∉ longComment := not_mem_longComment _ (by decide)
  refine ⟨not_mem_longComment _ (by decide), ?_, ?_⟩
  · have hfg : fgets 4096 longComment = some ('#' :: List.replicate 4094 'a', "x=y".toList) := by
      have h := readUpTo_prefix "x=y".toList (l := '#' :: List.replicate 4094 'a')
        (fun m => hnl (by rw [longComment]; exact List.mem_append_left _ m))
      rw [List.length_cons, List.length_replicate] at h
      rw [fgets, longComment, h]
      rfl
    rw [readIniFileStream, readIniFileLoop_of_fgets hfg, cString_of_not_mem (fun m =>
      not_mem_longComment '\x00' (by decide) (by rw [longComment]; exact List.mem_append_left _ m)),
      parseLine_comment]
    dsimp only
    rw [readIniFileLoop_eq [] _ (by decide) (by decide)]
    rfl
  · have hsplit : longComment.splitOn '\n' = [longComment] :=
      List.splitOnP_eq_single _ _ fun x hx e => hnl (beq_iff_eq.mp e ▸ hx)
    rw [hsplit, parseLines, parseFold_singleton, longComment, List.cons_append, parseLine_comment]
    rfl

end Mpdscribble
