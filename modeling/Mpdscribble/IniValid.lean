import Mpdscribble.IniSections
import Mpdscribble.ReadIniFile

/-! What `ReadIniFile` can return, whatever the file holds.

    Every map `ReadIniFile` returns is `ValidFile`: each section name is empty or a valid section
    name, each key a valid key, each value stripped and free of newlines and NULs (`fgets` stops
    after a newline and `Strip` drops it, the C string stops at a NUL), the unnamed section is
    never empty (it is opened only by a key line), and keys come in `std::map` order at both
    levels. This holds also for lines longer than the buffer, which reach `ParseLine` in pieces.

    `ValidFile` is an invariant of the parser: every line `ParseLine` accepts keeps it
    (`ValidFile.parseLine`), and the `fgets` loop keeps it over a whole file
    (`readIniFileLoop_valid`). -/

namespace Mpdscribble

/-- A value as `ParseLine` stores it: `Strip` leaves it as it is, and it holds no newline and no
    NUL. -/
def ValidValue (v : Str) : Prop := strip v = v ∧ '\n' ∉ v ∧ '\x00' ∉ v

instance : DecidablePred ValidValue := fun _ => inferInstanceAs (Decidable (_ ∧ _ ∧ _))

/-- A section as the parser leaves it: keys in `std::map` order, each a valid key with a valid
    value. -/
structure ValidSection (sec : IniSection) : Prop where
  sorted : sec.Sorted
  entry : ∀ e ∈ sec.entries, isValidKey e.1 = true ∧ ValidValue e.2

/-- A file as `ReadIniFile` returns it: section names in `std::map` order, each empty or valid,
    every section valid, and the unnamed one not empty. -/
structure ValidFile (f : IniFile) : Prop where
  sorted : f.Sorted
  entry : ∀ e ∈ f.entries,
    (e.1 = [] ∨ isValidSectionName e.1 = true) ∧ ValidSection e.2 ∧ (e.1 = [] → e.2.entries ≠ [])

instance (sec : IniSection) : Decidable (ValidSection sec) :=
  decidable_of_iff (sec.Sorted ∧ ∀ e ∈ sec.entries, isValidKey e.1 = true ∧ ValidValue e.2)
    ⟨fun h => ⟨h.1, h.2⟩, fun h => ⟨h.1, h.2⟩⟩

instance (f : IniFile) : Decidable (ValidFile f) :=
  decidable_of_iff (f.Sorted ∧ ∀ e ∈ f.entries,
      (e.1 = [] ∨ isValidSectionName e.1 = true) ∧ ValidSection e.2 ∧ (e.1 = [] → e.2.entries ≠ []))
    ⟨fun h => ⟨h.1, h.2⟩, fun h => ⟨h.1, h.2⟩⟩

/-! ### Values -/

theorem strip_strip (s : Str) : strip (strip s) = strip s := by
  obtain ⟨a, b, ha, hb, hs⟩ := exists_ws_strip s
  conv_rhs => rw [hs, strip_append_ws _ hb, strip_ws_append ha]

theorem mem_of_mem_strip {s : Str} {c : Char} (h : c ∈ strip s) : c ∈ s := by
  obtain ⟨a, b, -, -, hs⟩ := exists_ws_strip s
  rw [hs]
  exact List.mem_append_left _ (List.mem_append_right _ h)

theorem validValue_strip {s : Str} (hnl : '\n' ∉ s) (hnul : '\x00' ∉ s) : ValidValue (strip s) :=
  ⟨strip_strip s, fun h => hnl (mem_of_mem_strip h), fun h => hnul (mem_of_mem_strip h)⟩

/-! ### One line -/

theorem validSection_empty : ValidSection .empty :=
  ⟨StrMap.sorted_empty, fun _ h => absurd h (List.not_mem_nil _)⟩

theorem validFile_empty : ValidFile .empty :=
  ⟨StrMap.sorted_empty, fun _ h => absurd h (List.not_mem_nil _)⟩

theorem ValidSection.emplace {sec : IniSection} (h : ValidSection sec) {k v : Str}
    (hk : isValidKey k = true) (hv : ValidValue v) : ValidSection (sec.emplace k v).1 :=
  ⟨h.sorted.emplace k v, fun e he => (StrMap.mem_emplace he).elim (· ▸ ⟨hk, hv⟩) (h.entry e)⟩

/-- A header that `ParseLine` accepts keeps the file valid. -/
theorem ValidFile.emplaceSection {p p' : IniParser} (h : ValidFile p.data) {n : Str}
    (hn : isValidSectionName n = true) (hp : p.emplaceSection n = .ok p') : ValidFile p'.data := by
  unfold IniParser.emplaceSection at hp
  split at hp
  · cases hp
    refine ⟨h.sorted.emplace n .empty, fun e he => ?_⟩
    rcases StrMap.mem_emplace he with rfl | he
    · exact ⟨.inr hn, validSection_empty, fun h' => absurd ((show n = [] from h') ▸ hn) (by decide)⟩
    · exact h.entry e he
  · cases hp

/-- The parser after `openDefault`: valid, except that the unnamed section may still be empty when
    the cursor is on it. -/
theorem ValidFile.openDefault {p : IniParser} (h : ValidFile p.data) :
    p.openDefault.data.Sorted ∧ ∀ e ∈ p.openDefault.data.entries,
      (e.1 = [] ∨ isValidSectionName e.1 = true) ∧ ValidSection e.2 ∧
        (e.1 = [] → e.2.entries ≠ [] ∨ p.openDefault.cursor = []) := by
  unfold IniParser.openDefault
  split
  · refine ⟨h.sorted.emplace _ _, fun e he => ?_⟩
    rcases StrMap.mem_emplace he with rfl | he
    · exact ⟨.inl rfl, validSection_empty, fun _ => .inr rfl⟩
    · exact (h.entry e he).imp_right (And.imp_right fun h' h₀ => .inl (h' h₀))
  · exact ⟨h.sorted, fun e he => (h.entry e he).imp_right (And.imp_right fun h' h₀ => .inl (h' h₀))⟩

/-- A key line that `ParseLine` accepts keeps the file valid. -/
theorem ValidFile.emplaceKey {p p' : IniParser} (h : ValidFile p.data) {k v : Str}
    (hk : isValidKey k = true) (hv : ValidValue v) (hp : p.emplaceKey k v = .ok p') :
    ValidFile p'.data := by
  obtain ⟨hsorted, hentry⟩ := h.openDefault
  unfold IniParser.emplaceKey at hp
  dsimp only at hp
  split at hp
  · cases hp
    -- the section under the cursor, with the new key
    have hsec : ValidSection ((p.openDefault.data.find? p.openDefault.cursor).getD .empty) := by
      cases hf : p.openDefault.data.find? p.openDefault.cursor with
      | none => exact validSection_empty
      | some sec => exact (hentry _ (StrMap.find?_eq_some_iff.mp hf)).2.1
    refine ⟨hsorted.modify _ _, fun e he => ?_⟩
    obtain ⟨e', he', rfl⟩ := StrMap.mem_modify he
    obtain ⟨hname, hsec', hne⟩ := hentry e' he'
    dsimp only
    split
    · next hc =>
      exact ⟨hname, hsec.emplace hk hv, fun _ => StrMap.entries_emplace_ne_nil _ k v⟩
    · next hc => exact ⟨hname, hsec', fun h₀ => (hne h₀).resolve_right fun hcur => hc (h₀.trans hcur.symm)⟩
  · cases hp

/-- The step lemma: every line without newline and NUL that `ParseLine` accepts keeps the file
    valid. -/
theorem ValidFile.parseLine {p p' : IniParser} (h : ValidFile p.data) {line : Str}
    (hnl : '\n' ∉ line) (hnul : '\x00' ∉ line) (hp : p.parseLine line = .ok p') : ValidFile p'.data := by
  obtain ⟨l, hl⟩ := lineOf_of_parseLine_ok hp
  rw [parseLine_of_lineOf hl] at hp
  cases hl with
  | blank => cases hp; exact h
  | comment => cases hp; exact h
  | header _ _ hn => exact h.emplaceSection ((isValidSectionName_iff _).mpr hn) hp
  | @pair ws₁ k ws₂ v _ hk _ =>
    have hsub : ∀ c ∈ v, c ∈ ws₁ ++ k ++ ws₂ ++ '=' :: v :=
      fun _ hc => List.mem_append_right _ (List.mem_cons_of_mem _ hc)
    exact h.emplaceKey ((isValidKey_iff _).mpr hk)
      (validValue_strip (fun m => hnl (hsub _ m)) (fun m => hnul (hsub _ m))) hp

/-! ### The `fgets` loop -/

/-- What `fgets` copies holds a newline at most at its end. -/
theorem readUpTo_shape : ∀ (n : Nat) (s : Str),
    ∃ l, '\n' ∉ l ∧ ((readUpTo n s).1 = l ∨ (readUpTo n s).1 = l ++ ['\n'])
  | 0, _ => ⟨[], List.not_mem_nil _, .inl rfl⟩
  | _ + 1, [] => ⟨[], List.not_mem_nil _, .inl rfl⟩
  | n + 1, c :: s => by
    unfold readUpTo
    split
    · exact ⟨[], List.not_mem_nil _, .inr (by simp [*])⟩
    · next hc =>
      obtain ⟨l, hl, hs⟩ := readUpTo_shape n s
      refine ⟨c :: l, by simp [hl, Ne.symm hc], ?_⟩
      rcases hs with hs | hs <;> simp [hs]

/-- The C string of a line and its newline is the C string of the line, with the newline unless a
    NUL came first. -/
theorem cString_snoc_newline : ∀ l : Str,
    cString (l ++ ['\n']) = cString l ∨ cString (l ++ ['\n']) = cString l ++ ['\n']
  | [] => .inr rfl
  | c :: l => by
    by_cases hc : c = '\x00'
    · subst hc; exact .inl rfl
    · have hc' : (c != '\x00') = true := bne_iff_ne.mpr hc
      simp only [cString, List.cons_append, List.takeWhile_cons, hc', if_true] at *
      rcases cString_snoc_newline l with h | h
      · exact .inl (congrArg _ h)
      · exact .inr (congrArg _ h)

theorem not_mem_cString {l : Str} {c : Char} (hc : c ∈ cString l) : c ∈ l ∧ c ≠ '\x00' :=
  ⟨(List.takeWhile_sublist _).subset hc, fun e => by simpa [e] using List.mem_takeWhile_imp hc⟩

/-- One pass of the loop keeps the parser valid. -/
theorem ValidFile.parseLine_fgets {p p' : IniParser} (h : ValidFile p.data) {file line rest : Str}
    (hfg : fgets 4096 file = some (line, rest)) (hp : p.parseLine (cString line) = .ok p') :
    ValidFile p'.data := by
  have hline : line = (readUpTo 4095 file).1 := by
    unfold fgets at hfg
    split at hfg
    · cases hfg
    · exact (congrArg Prod.fst (Option.some.inj hfg)).symm
  obtain ⟨l, hl, hs⟩ := readUpTo_shape 4095 file
  rw [← hline] at hs
  have hcl : '\n' ∉ cString l ∧ '\x00' ∉ cString l :=
    ⟨fun m => hl (not_mem_cString m).1, fun m => (not_mem_cString m).2 rfl⟩
  rcases hs with rfl | rfl
  · exact h.parseLine hcl.1 hcl.2 hp
  · rcases cString_snoc_newline l with e | e <;> rw [e] at hp
    · exact h.parseLine hcl.1 hcl.2 hp
    · rw [parseLine_append_ws _ _ (by decide)] at hp
      exact h.parseLine hcl.1 hcl.2 hp

/-- The run lemma: the `fgets` loop keeps the parser valid over any file. -/
theorem readIniFileLoop_valid (path : Str) {f : IniFile} (p : IniParser) (no : Nat) (file : Str) :
    ValidFile p.data → readIniFileLoop path p no file = .ok f → ValidFile f := by
  induction p, no, file using readIniFileLoop.induct path with
  | case1 p no file hfg =>
    obtain rfl : file = [] := by simpa [fgets] using hfg
    intro hp h
    rw [readIniFileLoop_nil] at h
    cases h
    exact hp
  | case2 p no file line rest hfg e he =>
    intro _ h
    rw [readIniFileLoop_of_fgets hfg, he] at h
    cases h
  | case3 p no file line rest hfg p' hp' ih =>
    intro hp h
    rw [readIniFileLoop_of_fgets hfg, hp'] at h
    exact ih (hp.parseLine_fgets hfg hp') h

/-- Whatever the file holds, long lines included, the map `ReadIniFile` returns is valid. -/
theorem readIniFile_valid (files : Str → Option Str) (path : Str) {f : IniFile}
    (h : readIniFile files path = .ok f) : ValidFile f := by
  unfold readIniFile at h
  split at h
  · cases h
  · exact readIniFileLoop_valid path .init 1 _ validFile_empty h

theorem readIniFile_valid_two_sections :
    ∃ f, readIniFile (fun _ => some "k = v\n[s]\nx=y\n".toList) [] = .ok f ∧ ValidFile f := by
  have hread : readIniFile (fun _ => some "k = v\n[s]\nx=y\n".toList) [] = .ok _ :=
    (readIniFileLoop_eq [] _ (by decide) (by decide) _ _).trans rfl
  exact ⟨_, hread, readIniFile_valid _ _ hread⟩

end Mpdscribble
