import Mpdscribble.IniValid

/-! The configuration file of a valid map, and the format round trip.

    `render f` writes `f` back as a configuration file: for each section in iteration order its
    `[name]` header, unless it is the unnamed section (which comes first in `std::map` order and
    needs none), then one `key=value` line per entry. Reading that file gives `f` itself
    (`readIniFile_render`) when `f` is valid and each line fits the `fgets` buffer, so together
    with `readIniFile_valid` the maps `ReadIniFile` returns for files of such lines are exactly
    the valid ones.

    The proof goes through the line-wise parse: the text splits at its newlines into the rendered
    lines (`splitOn_lines`), each a line of the grammar declaring what `renderDecl` lists, whose
    sections are the entries of `f` (`sections_renderDecl`); the parser then holds a valid map
    with the meaning of `f`, and a valid map is determined by its meaning (`ValidFile.ext`). -/

namespace Mpdscribble

/-- The line `key=value`. -/
def keyLine (k v : Str) : Str := k ++ '=' :: v

/-- The line `[name]`. -/
def headerLine (n : Str) : Str := '[' :: n ++ [']']

/-- The lines of one section: its header unless it is the unnamed section, then a key line per
    entry in iteration order. -/
def sectionLines (n : Str) (sec : IniSection) : List Str :=
  (if n = [] then [] else [headerLine n]) ++ sec.entries.map fun e => keyLine e.1 e.2

/-- The lines of a file, section by section in iteration order. -/
def renderLines (f : IniFile) : List Str := f.entries.flatMap fun e => sectionLines e.1 e.2

/-- The configuration file that declares `f`: its lines, each followed by a newline. -/
def render (f : IniFile) : Str := (renderLines f).flatMap (· ++ ['\n'])

/-- What the lines of `sectionLines` declare. -/
def sectionDecl (n : Str) (sec : IniSection) : List Line :=
  (if n = [] then [] else [.header n]) ++ sec.entries.map fun e => .pair e.1 e.2

/-- What the lines of `renderLines` declare. -/
def renderDecl (f : IniFile) : List Line := f.entries.flatMap fun e => sectionDecl e.1 e.2

/-! ### Lines -/

/-- Splitting at the newlines gives back lines joined by their newlines, and the empty rest after
    the last one. -/
theorem splitOn_lines : ∀ ls : List Str, (∀ l ∈ ls, '\n' ∉ l) →
    (ls.flatMap (· ++ ['\n'])).splitOn '\n' = ls ++ [[]]
  | [], _ => rfl
  | l :: ls, h => by
    have hl : '\n' ∉ l := h l (List.mem_cons_self _ _)
    have hsplit : (l ++ '\n' :: ls.flatMap (· ++ ['\n'])).splitOn '\n' =
        l :: (ls.flatMap (· ++ ['\n'])).splitOn '\n' :=
      List.splitOnP_first (· == '\n') l (fun x hx e => hl (beq_iff_eq.mp e ▸ hx)) _ (beq_self_eq_true _) _
    rw [List.flatMap_cons, List.append_assoc, List.singleton_append, hsplit,
      splitOn_lines ls fun l' h' => h l' (List.mem_cons_of_mem _ h')]
    rfl

/-- A byte that is neither a newline nor a NUL. -/
def Plain (c : Char) : Prop := c ≠ '\n' ∧ c ≠ '\x00'

theorem plain_of_nameChar {c : Char} (h : IsNameChar c) : Plain c := by
  have hws := (nameChar_facts h).1
  exact ⟨fun e => by rw [e] at hws; exact absurd hws (by decide),
    fun e => by rw [e] at hws; exact absurd hws (by decide)⟩

theorem plain_of_validSectionName {n : Str} (h : isValidSectionName n = true) : ∀ c ∈ n, Plain c :=
  fun c hc => plain_of_nameChar (((isValidSectionName_iff n).mp h).2 c hc)

theorem plain_of_validKey {k : Str} (h : isValidKey k = true) : ∀ c ∈ k, Plain c :=
  fun c hc => plain_of_nameChar (isNameChar_of_key (((isValidKey_iff k).mp h).2 c hc))

theorem plain_of_validValue {v : Str} (h : ValidValue v) : ∀ c ∈ v, Plain c :=
  fun _ hc => ⟨fun e => h.2.1 (e ▸ hc), fun e => h.2.2 (e ▸ hc)⟩

/-- Every byte of a line of a valid file is plain. -/
theorem ValidFile.plain {f : IniFile} (hf : ValidFile f) : ∀ l ∈ renderLines f, ∀ c ∈ l, Plain c := by
  intro l hl
  obtain ⟨e, he, hl⟩ := List.mem_flatMap.mp hl
  obtain ⟨hname, hsec, -⟩ := hf.entry e he
  rcases List.mem_append.mp hl with hl | hl
  · split at hl
    · exact absurd hl (List.not_mem_nil _)
    · next hn =>
      rw [List.mem_singleton.mp hl]
      have := plain_of_validSectionName (hname.resolve_left hn)
      intro c hc
      simp only [headerLine, List.cons_append, List.mem_cons, List.mem_append, List.mem_singleton,
        List.mem_nil_iff, or_false] at hc
      rcases hc with rfl | hc | rfl
      · exact ⟨by decide, by decide⟩
      · exact this c hc
      · exact ⟨by decide, by decide⟩
  · obtain ⟨kv, hkv, rfl⟩ := List.mem_map.mp hl
    obtain ⟨hk, hv⟩ := hsec.entry kv hkv
    intro c hc
    rcases List.mem_append.mp hc with hc | hc
    · exact plain_of_validKey hk c hc
    · rcases List.mem_cons.mp hc with rfl | hc
      · exact ⟨by decide, by decide⟩
      · exact plain_of_validValue hv c hc

theorem lineOf_headerLine {n : Str} (hn : isValidSectionName n = true) : LineOf (headerLine n) (.header n) := by
  simpa [headerLine] using LineOf.header isWs_nil isWs_nil ((isValidSectionName_iff n).mp hn) isWs_nil isWs_nil

theorem lineOf_keyLine {k v : Str} (hk : isValidKey k = true) (hv : strip v = v) :
    LineOf (keyLine k v) (.pair k v) := by
  simpa [keyLine, hv] using LineOf.pair (v := v) isWs_nil ((isValidKey_iff k).mp hk) isWs_nil

theorem lineOf_sectionLines {n : Str} {sec : IniSection} (hn : n = [] ∨ isValidSectionName n = true)
    (hsec : ValidSection sec) : List.Forall₂ LineOf (sectionLines n sec) (sectionDecl n sec) := by
  refine List.rel_append ?_ (List.forall₂_map_left_iff.mpr (List.forall₂_map_right_iff.mpr
    (List.forall₂_same.mpr fun e he => lineOf_keyLine (hsec.entry e he).1 (hsec.entry e he).2.1)))
  split
  · exact .nil
  · next h => exact .cons (lineOf_headerLine (hn.resolve_left h)) .nil

/-- Each rendered line is a line of the grammar, declaring what `renderDecl` lists. -/
theorem ValidFile.lineOf {f : IniFile} (hf : ValidFile f) :
    List.Forall₂ LineOf (renderLines f) (renderDecl f) :=
  List.rel_flatMap (R := fun a b => a = b ∧ a ∈ f.entries) (List.forall₂_same.mpr fun _ h => ⟨rfl, h⟩)
    fun e _ ⟨h, he⟩ => h ▸ lineOf_sectionLines (hf.entry e he).1 (hf.entry e he).2.1

/-! ### Sections -/

theorem leadingPairs_pairs (ps : List (Str × Str)) (ls : List Line) :
    leadingPairs (ps.map (fun e => Line.pair e.1 e.2) ++ ls) = ps ++ leadingPairs ls := by
  induction ps with
  | nil => rfl
  | cons e ps ih => exact congrArg (e :: ·) ih

theorem headed_pairs (ps : List (Str × Str)) (ls : List Line) :
    headed (ps.map (fun e => Line.pair e.1 e.2) ++ ls) = headed ls := by
  induction ps with
  | nil => rfl
  | cons e ps ih => exact ih

/-- Named sections, each after its header, followed by a blank line. -/
theorem sections_named : ∀ es : List (Str × IniSection), (∀ e ∈ es, e.1 ≠ []) →
    leadingPairs ((es.flatMap fun e => sectionDecl e.1 e.2) ++ [.skip]) = [] ∧
      headed ((es.flatMap fun e => sectionDecl e.1 e.2) ++ [.skip]) = es.map fun e => (e.1, e.2.entries)
  | [], _ => ⟨rfl, rfl⟩
  | e :: es, h => by
    obtain ⟨ih₁, ih₂⟩ := sections_named es fun e' h' => h e' (List.mem_cons_of_mem _ h')
    rw [List.flatMap_cons, sectionDecl, if_neg (h e (List.mem_cons_self _ _)), List.append_assoc,
      List.append_assoc, List.singleton_append]
    refine ⟨rfl, ?_⟩
    rw [headed, leadingPairs_pairs, headed_pairs, ih₁, ih₂, List.append_nil, List.map_cons]

theorem ne_nil_of_strLess {a b : Str} (h : strLess a b = true) : b ≠ [] := by
  rintro rfl
  cases a <;> simp [strLess] at h

/-- The sections the rendered lines declare are the entries of the file. -/
theorem sections_renderDecl {f : IniFile} (hf : ValidFile f) :
    sections (renderDecl f ++ [.skip]) = f.entries.map fun e => (e.1, e.2.entries) := by
  cases f with | mk entries _ =>
  obtain ⟨hsorted, hentry⟩ := hf
  unfold renderDecl
  unfold StrMap.Sorted at hsorted
  dsimp only at hsorted hentry ⊢
  cases entries with
  | nil => rfl
  | cons e₀ es =>
    have hes : ∀ e ∈ es, e.1 ≠ [] := fun e he => ne_nil_of_strLess ((List.pairwise_cons.mp hsorted).1 e he)
    by_cases h₀ : e₀.1 = []
    · obtain ⟨ih₁, ih₂⟩ := sections_named es hes
      have hne : e₀.2.entries ≠ [] := (hentry e₀ (List.mem_cons_self _ _)).2.2 h₀
      rw [List.flatMap_cons, sectionDecl, if_pos h₀, List.nil_append, List.append_assoc, sections,
        leadingPairs_pairs, headed_pairs, ih₁, ih₂, List.append_nil, if_neg hne, List.map_cons, h₀]
      rfl
    · obtain ⟨ih₁, ih₂⟩ := sections_named (e₀ :: es) fun e he =>
        (List.mem_cons.mp he).elim (fun h => h ▸ h₀) (hes e)
      rw [sections, ih₁, ih₂, if_pos rfl, List.nil_append]

/-! ### Meaning -/

theorem lookup_map_snd {β γ : Type} (g : β → γ) (s : Str) :
    ∀ l : List (Str × β), (l.map fun e => (e.1, g e.2)).lookup s = (l.lookup s).map g
  | [] => rfl
  | (k, b) :: l => by
    rw [List.map_cons, StrMap.lookup_cons, StrMap.lookup_cons, lookup_map_snd g s l]
    split <;> rfl

theorem denote_entries (f : IniFile) : denote (f.entries.map fun e => (e.1, e.2.entries)) = f.denote := by
  funext s
  rw [denote, lookup_map_snd, StrMap.denote, StrMap.find?, Option.map_map]
  rfl

theorem wf_entries (f : IniFile) : Wf (f.entries.map fun e => (e.1, e.2.entries)) := by
  refine ⟨by simpa [List.map_map, Function.comp_def] using f.nodup, fun s hs => ?_⟩
  obtain ⟨e, -, rfl⟩ := List.mem_map.mp hs
  exact e.2.nodup

/-- A valid map is determined by its meaning. -/
theorem ValidFile.ext {f g : IniFile} (hf : ValidFile f) (hg : ValidFile g) (h : f.denote = g.denote) :
    f = g := by
  refine StrMap.ext_of_sorted hf.sorted hg.sorted fun s => ?_
  have hs := congrFun h s
  simp only [StrMap.denote] at hs
  rcases hfs : f.find? s with _ | a <;> rcases hgs : g.find? s with _ | b <;>
    simp only [hfs, hgs, Option.map_none', Option.map_some', reduceCtorEq, Option.some.injEq] at hs ⊢
  have ha := (hf.entry _ (StrMap.find?_eq_some_iff.mp hfs)).2.1.sorted
  have hb := (hg.entry _ (StrMap.find?_eq_some_iff.mp hgs)).2.1.sorted
  exact StrMap.ext_of_sorted ha hb (congrFun hs)

/-! ### The round trip -/

/-- Reading the rendering of a valid map gives the map back, when each of its lines fits the
    buffer. -/
theorem readIniFile_render {f : IniFile} (hf : ValidFile f) (hlen : ∀ l ∈ renderLines f, l.length < 4095)
    (path : Str) : readIniFileStream path (render f) = .ok f := by
  have hplain := hf.plain
  have hsplit : (render f).splitOn '\n' = renderLines f ++ [[]] :=
    splitOn_lines _ fun l hl m => (hplain l hl _ m).1 rfl
  have hnul : '\x00' ∉ render f := fun m => by
    obtain ⟨l, hl, hc⟩ := List.mem_flatMap.mp m
    exact (List.mem_append.mp hc).elim (fun hc => (hplain l hl _ hc).2 rfl) (by decide)
  have hlen' : ∀ l ∈ (render f).splitOn '\n', l.length < 4095 :=
    hsplit ▸ List.forall_mem_append.mpr ⟨hlen, by decide⟩
  have hdecl : List.Forall₂ LineOf (renderLines f ++ [[]]) (renderDecl f ++ [.skip]) :=
    List.rel_append hf.lineOf (.cons (.blank isWs_nil) .nil)
  have hw : Wf (sections ([] ++ (renderDecl f ++ [.skip]))) := by
    rw [List.nil_append, sections_renderDecl hf]; exact wf_entries f
  obtain ⟨q, hq, hsim⟩ := parseFold_complete sim_init (by simpa using wf_nil) hdecl hw
  have hread : readIniFileStream path (render f) = .ok q.data := by
    rw [readIniFileStream, readIniFileLoop_eq path _ hnul hlen', hsplit, hq]
    rfl
  have hvalid : ValidFile q.data := readIniFileLoop_valid path .init 1 _ validFile_empty hread
  rw [hread, hvalid.ext hf (by rw [hsim.denote_eq, List.nil_append, sections_renderDecl hf, denote_entries])]

/-- A map with an unnamed section holding `username = me` and a section `local` holding
    `file = scrobbles.log`. -/
def localFile : IniFile :=
  ⟨[([], ⟨[("username".toList, "me".toList)], by decide⟩),
    ("local".toList, ⟨[("file".toList, "scrobbles.log".toList)], by decide⟩)], by decide⟩

theorem readIniFile_render_local :
    ValidFile localFile ∧ (∀ l ∈ renderLines localFile, l.length < 4095) ∧
      readIniFileStream [] (render localFile) = .ok localFile :=
  have hf : ValidFile localFile := by decide
  have hlen : ∀ l ∈ renderLines localFile, l.length < 4095 := by decide
  ⟨hf, hlen, readIniFile_render hf hlen []⟩

end Mpdscribble
