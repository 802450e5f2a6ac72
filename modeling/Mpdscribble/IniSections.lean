import Mpdscribble.IniGrammar

/-! What a configuration file means, and that `ParseLine` folded over its lines computes it.

    `sections ls` reads the sections off the lines declaratively: the unnamed section `""` holds
    the key lines before the first header (and exists only if there are some), and each header
    holds the key lines after it up to the next header. A file is well formed (`Wf`) when no
    section name and no key within one section repeats.

    The parser is related to it by a simulation: `Sim p g` says the parser's map has the meaning
    of the sections `g` and its cursor is on the last of them. One step keeps `Sim`
    (`applyLine_spec`), `addLine` being what one more line does to `sections`
    (`sections_snoc`), and the run lemmas fold that over a whole file. -/

namespace Mpdscribble

/-- Sections in file order, each with its pairs in file order. -/
abbrev Sections := List (Str × List (Str × Str))

/-- The pairs of the key lines at the head of `ls`, up to its first header. -/
def leadingPairs : List Line → List (Str × Str)
  | [] => []
  | .skip :: ls => leadingPairs ls
  | .header _ :: _ => []
  | .pair k v :: ls => (k, v) :: leadingPairs ls

/-- Every header of `ls` with the pairs of the key lines after it, up to the next header. -/
def headed : List Line → Sections
  | [] => []
  | .header n :: ls => (n, leadingPairs ls) :: headed ls
  | _ :: ls => headed ls

/-- The sections a file declares: `""` if a key line precedes every header, then the headers. -/
def sections (ls : List Line) : Sections :=
  (if leadingPairs ls = [] then [] else [([], leadingPairs ls)]) ++ headed ls

/-- No section name twice, and no key twice within a section. -/
def Wf (g : Sections) : Prop := (g.map Prod.fst).Nodup ∧ ∀ s ∈ g, (s.2.map Prod.fst).Nodup

/-- Section name to the lookup of its keys. -/
def denote (g : Sections) (s : Str) : Option (Str → Option Str) :=
  (g.lookup s).map fun ps k => ps.lookup k

/-- The same meaning, of an `IniFile`. -/
def StrMap.denote (f : IniFile) (s : Str) : Option (Str → Option Str) :=
  (f.find? s).map StrMap.find?

/-- Append `ps` to the pairs of the last section. -/
def extendLast (ps : List (Str × Str)) : Sections → Sections
  | [] => []
  | [(n, qs)] => [(n, qs ++ ps)]
  | x :: y :: g => x :: extendLast ps (y :: g)

/-- What one more line does to the sections read so far. -/
def addLine (g : Sections) : Line → Sections
  | .skip => g
  | .header n => g ++ [(n, [])]
  | .pair k v => if g = [] then [([], [(k, v)])] else extendLast [(k, v)] g

/-! ### Reading one more line -/

theorem extendLast_concat (ps : List (Str × Str)) (n : Str) (qs : List (Str × Str)) :
    ∀ pre : Sections, extendLast ps (pre ++ [(n, qs)]) = pre ++ [(n, qs ++ ps)]
  | [] => rfl
  | [x] => rfl
  | x :: y :: pre => by
    rw [List.cons_append, List.cons_append, extendLast, ← List.cons_append, extendLast_concat ps n qs]
    rfl

theorem extendLast_nil : ∀ g : Sections, extendLast [] g = g
  | [] => rfl
  | [(n, qs)] => by simp [extendLast]
  | x :: y :: g => by rw [extendLast, extendLast_nil]

theorem extendLast_append {g : Sections} (hg : g ≠ []) (ps : List (Str × Str)) (pre : Sections) :
    extendLast ps (pre ++ g) = pre ++ extendLast ps g := by
  rcases List.eq_nil_or_concat g with rfl | ⟨g', ⟨n, qs⟩, rfl⟩
  · exact absurd rfl hg
  · rw [List.concat_eq_append, ← List.append_assoc, extendLast_concat, extendLast_concat,
      List.append_assoc]

theorem leadingPairs_append (ls ms : List Line) :
    leadingPairs (ls ++ ms) =
      if headed ls = [] then leadingPairs ls ++ leadingPairs ms else leadingPairs ls := by
  induction ls using leadingPairs.induct with
  | case1 => simp [leadingPairs, headed]
  | case2 ls ih => simpa [leadingPairs, headed] using ih
  | case3 n ls => simp [leadingPairs, headed]
  | case4 k v ls ih => by_cases h : headed ls = [] <;> simp_all [leadingPairs, headed]

theorem headed_append (ls ms : List Line) :
    headed (ls ++ ms) = extendLast (leadingPairs ms) (headed ls) ++ headed ms := by
  induction ls using headed.induct with
  | case1 => simp [headed, extendLast]
  | case2 n ls ih =>
    rw [List.cons_append, headed, headed, ih, leadingPairs_append]
    rcases hh : headed ls with _ | ⟨x, g⟩
    · simp [extendLast]
    · simp [extendLast]
  | case3 l ls hl ih => cases l <;> simp_all [headed]

theorem sections_snoc (ls : List Line) (l : Line) : sections (ls ++ [l]) = addLine (sections ls) l := by
  cases l with
  | skip => simp [sections, addLine, leadingPairs_append, headed_append, leadingPairs, headed, extendLast_nil]
  | header n => simp [sections, addLine, leadingPairs_append, headed_append, leadingPairs, headed, extendLast_nil]
  | pair k v =>
    simp only [sections, addLine, leadingPairs_append, headed_append, leadingPairs, headed,
      List.append_nil]
    by_cases hh : headed ls = []
    · by_cases hl : leadingPairs ls = [] <;> simp [hh, hl, extendLast]
    · simp [hh, extendLast_append hh]

/-! ### Well-formedness and meaning of a table -/

theorem wf_nil : Wf [] := ⟨List.nodup_nil, fun _ h => absurd h (List.not_mem_nil _)⟩

theorem wf_concat {g : Sections} {x : Str × List (Str × Str)} :
    Wf (g ++ [x]) ↔ Wf g ∧ x.1 ∉ g.map Prod.fst ∧ (x.2.map Prod.fst).Nodup := by
  simp [Wf, List.nodup_append, or_imp, forall_and]
  tauto

theorem wf_extend {pre : Sections} {n k v : Str} {qs : List (Str × Str)} :
    Wf (pre ++ [(n, qs ++ [(k, v)])]) ↔ Wf (pre ++ [(n, qs)]) ∧ k ∉ qs.map Prod.fst := by
  simp only [wf_concat, List.map_append, List.map_cons, List.map_nil, List.nodup_append,
    List.nodup_singleton, List.disjoint_singleton]
  tauto

theorem wf_of_addLine {g : Sections} {l : Line} (h : Wf (addLine g l)) : Wf g := by
  cases l with
  | skip => exact h
  | header n => exact (wf_concat.mp h).1
  | pair k v =>
    rcases List.eq_nil_or_concat g with rfl | ⟨pre, ⟨n, qs⟩, rfl⟩
    · exact wf_nil
    · rw [List.concat_eq_append] at h ⊢
      simp only [addLine, List.append_eq_nil, List.cons_ne_nil, and_false, if_false,
        extendLast_concat] at h
      exact (wf_extend.mp h).1

/-- A file whose sections are well formed has well-formed sections up to each of its lines. -/
theorem wf_sections_prefix (xs : List Line) : ∀ {ys : List Line}, Wf (sections (xs ++ ys)) → Wf (sections xs)
  | [], h => by simpa using h
  | y :: ys, h => by
    rw [← List.singleton_append, ← List.append_assoc] at h
    exact wf_of_addLine (sections_snoc xs y ▸ wf_sections_prefix (xs ++ [y]) h)

theorem lookup_concat {β : Type} {g : List (Str × β)} {x : Str × β} (hx : x.1 ∉ g.map Prod.fst)
    (s : Str) : (g ++ [x]).lookup s = if s = x.1 then some x.2 else g.lookup s := by
  obtain ⟨a, b⟩ := x
  rw [List.lookup_append, StrMap.lookup_cons]
  split_ifs with h
  · subst h; simp [StrMap.lookup_eq_none.mpr hx]
  · simp

theorem denote_concat {g : Sections} {x : Str × List (Str × Str)} (hx : x.1 ∉ g.map Prod.fst)
    (s : Str) : denote (g ++ [x]) s = if s = x.1 then some (fun k => x.2.lookup k) else denote g s := by
  rw [denote, lookup_concat hx]
  split_ifs <;> rfl

theorem StrMap.denote_emplace (f : IniFile) (k s : Str) (v : IniSection) :
    (f.emplace k v).1.denote s = if k ∉ f.keys ∧ s = k then some v.find? else f.denote s := by
  simp only [StrMap.denote, StrMap.find?_emplace]
  split_ifs <;> rfl

theorem StrMap.denote_modify (f : IniFile) (k s : Str) (h : IniSection → IniSection) :
    (f.modify k h).denote s = if s = k then (f.find? k).map (fun sec => (h sec).find?) else f.denote s := by
  simp only [StrMap.denote, StrMap.find?_modify]
  split_ifs <;> simp [Option.map_map, Function.comp_def]

/-! ### The parser holds the sections read so far -/

/-- The parser `p` holds the sections `g`: the same meaning, empty together, and the cursor on the
    last section. -/
structure Sim (p : IniParser) (g : Sections) : Prop where
  denote_eq : p.data.denote = denote g
  keys_nil : p.data.keys = [] ↔ g = []
  cursor : ∀ x ∈ g.getLast?, x.1 = p.cursor

theorem Sim.mem_keys {p : IniParser} {g : Sections} (hs : Sim p g) (n : Str) :
    n ∈ p.data.keys ↔ n ∈ g.map Prod.fst := by
  have h : (p.data.find? n).map StrMap.find? = (g.lookup n).map fun ps k => ps.lookup k :=
    congrFun hs.denote_eq n
  rw [StrMap.mem_keys, ← not_iff_not, not_not, ← StrMap.lookup_eq_none,
    ← Option.map_eq_none' (f := StrMap.find?), h, Option.map_eq_none']

theorem sim_init : Sim IniParser.init (sections []) :=
  ⟨rfl, by simp [sections, leadingPairs, headed, IniParser.init, StrMap.keys, StrMap.empty], by
    simp [sections, leadingPairs, headed]⟩

@[simp] theorem sections_nil : sections [] = [] := rfl

theorem openDefault_of_ne {p : IniParser} (h : p.data.keys ≠ []) : p.openDefault = p := by
  simp [IniParser.openDefault, StrMap.isEmpty_iff, h]

theorem emplaceSection_spec {p : IniParser} {g : Sections} (hs : Sim p g) (n : Str) :
    (n ∈ g.map Prod.fst ∧ p.emplaceSection n = .error (.duplicateSectionName n)) ∨
      (n ∉ g.map Prod.fst ∧ ∃ p', p.emplaceSection n = .ok p' ∧ Sim p' (g ++ [(n, [])])) := by
  by_cases hn : n ∈ g.map Prod.fst
  · exact .inl ⟨hn, by simp [IniParser.emplaceSection, StrMap.emplace_snd, (hs.mem_keys n).mpr hn]⟩
  · have hk : n ∉ p.data.keys := (hs.mem_keys n).not.mpr hn
    refine .inr ⟨hn, ⟨(p.data.emplace n .empty).1, n, fun _ => StrMap.mem_keys_emplace ..⟩,
      by simp [IniParser.emplaceSection, StrMap.emplace_snd, hk], ⟨?_, ?_, by simp⟩⟩
    · funext s
      rw [StrMap.denote_emplace, denote_concat hn, ← hs.denote_eq]
      by_cases h : s = n
      · simp only [h, hk, not_false_eq_true, and_self, if_true]
        congr
      · simp [h]
    · simp [List.ne_nil_of_mem (StrMap.mem_keys_emplace p.data n .empty)]

theorem emplaceKey_spec {p : IniParser} {pre : Sections} {n : Str} {qs : List (Str × Str)}
    (hs : Sim p (pre ++ [(n, qs)])) (hw : Wf (pre ++ [(n, qs)])) (k v : Str) :
    (k ∈ qs.map Prod.fst ∧ p.emplaceKey k v = .error (.duplicateKey k)) ∨
      (k ∉ qs.map Prod.fst ∧
        ∃ p', p.emplaceKey k v = .ok p' ∧ Sim p' (pre ++ [(n, qs ++ [(k, v)])])) := by
  have hn : n ∉ pre.map Prod.fst := (wf_concat.mp hw).2.1
  have hcur : p.cursor = n := (hs.cursor (n, qs) (by simp)).symm
  have hne : p.data.keys ≠ [] := by rw [ne_eq, hs.keys_nil]; simp
  obtain ⟨sec, hfind, hsec⟩ : ∃ sec, p.data.find? n = some sec ∧ sec.find? = fun k => qs.lookup k := by
    have h := congrFun hs.denote_eq n
    rw [denote_concat hn, if_pos rfl, StrMap.denote, Option.map_eq_some'] at h
    exact h
  have hmem : k ∈ sec.keys ↔ k ∈ qs.map Prod.fst := by
    rw [StrMap.mem_keys, hsec, ne_eq, StrMap.lookup_eq_none, not_not]
  have hbody : p.emplaceKey k v = if (sec.emplace k v).2 then
      .ok ⟨p.data.modify n (fun _ => (sec.emplace k v).1), n, by
        rw [StrMap.keys_modify, ← hcur]; exact p.valid⟩
      else .error (.duplicateKey k) := by
    simp only [IniParser.emplaceKey, openDefault_of_ne hne, hcur, hfind, Option.getD_some]
  rw [hbody, StrMap.emplace_snd]
  by_cases hk : k ∈ qs.map Prod.fst
  · exact .inl ⟨hk, by simp [hmem.mpr hk]⟩
  · refine .inr ⟨hk, ⟨p.data.modify n (fun _ => (sec.emplace k v).1), n, by
      rw [StrMap.keys_modify, ← hcur]; exact p.valid⟩, by simp [hmem.not.mpr hk], ⟨?_, ?_, by simp⟩⟩
    · funext s
      rw [StrMap.denote_modify, denote_concat hn, hfind]
      by_cases h : s = n
      · subst h
        simp only [if_true, Option.map_some']
        exact congrArg some (funext fun k' => by
          rw [StrMap.find?_emplace, lookup_concat hk, hsec]
          by_cases h' : k' = k <;> simp [h', hmem.not.mpr hk])
      · rw [if_neg h, if_neg h, hs.denote_eq, denote_concat hn, if_neg h]
    · simp [StrMap.keys_modify, hne]

/-- `openDefault` leaves every parser with a section. -/
theorem openDefault_keys_ne (p : IniParser) : p.openDefault.data.keys ≠ [] := by
  unfold IniParser.openDefault
  split
  · exact List.ne_nil_of_mem (StrMap.mem_keys_emplace ..)
  · next h => simpa [StrMap.isEmpty_iff] using h

theorem emplaceKey_openDefault (p : IniParser) (k v : Str) :
    p.openDefault.emplaceKey k v = p.emplaceKey k v := by
  simp only [IniParser.emplaceKey, openDefault_of_ne (openDefault_keys_ne p)]

/-- On a parser that holds no section, `openDefault` opens the empty unnamed section. -/
theorem sim_openDefault {p : IniParser} (hs : Sim p []) : Sim p.openDefault [([], [])] := by
  have hk : p.data.keys = [] := hs.keys_nil.mpr rfl
  have hopen : p.openDefault = ⟨(p.data.emplace [] .empty).1, [], fun _ => StrMap.mem_keys_emplace ..⟩ := by
    simp [IniParser.openDefault, StrMap.isEmpty_iff, hk]
  rw [hopen]
  refine ⟨funext fun s => ?_, by simp [List.ne_nil_of_mem (StrMap.mem_keys_emplace p.data [] .empty)], by simp⟩
  rw [StrMap.denote_emplace, hs.denote_eq]
  by_cases h : s = []
  · subst h
    exact (if_pos ⟨by simp [hk], rfl⟩).trans rfl
  · simp [h, denote, StrMap.lookup_cons]

/-- A key line before every header: `openDefault`, then `emplaceKey_spec` on the unnamed section. -/
theorem emplaceKey_spec_nil {p : IniParser} (hs : Sim p []) (k v : Str) :
    ∃ p', p.emplaceKey k v = .ok p' ∧ Sim p' [([], [(k, v)])] := by
  have hs' : Sim p.openDefault ([] ++ [([], [])]) := sim_openDefault hs
  rcases emplaceKey_spec hs' (wf_concat.mpr ⟨wf_nil, List.not_mem_nil _, List.nodup_nil⟩) k v with
    ⟨hk, -⟩ | ⟨-, p', hp', hs''⟩
  · exact absurd hk (List.not_mem_nil _)
  · exact ⟨p', emplaceKey_openDefault p k v ▸ hp', hs''⟩

/-- The step lemma: one line of the grammar keeps `Sim`, and fails exactly when it breaks `Wf`. -/
theorem applyLine_spec {p : IniParser} {g : Sections} (hs : Sim p g) (hw : Wf g) (l : Line) :
    (Wf (addLine g l) ∧ ∃ p', p.applyLine l = .ok p' ∧ Sim p' (addLine g l)) ∨
      (¬ Wf (addLine g l) ∧ ∃ e, p.applyLine l = .error e) := by
  cases l with
  | skip => exact .inl ⟨hw, p, rfl, hs⟩
  | header n =>
    rcases emplaceSection_spec hs n with ⟨hn, he⟩ | ⟨hn, p', hp', hs'⟩
    · exact .inr ⟨fun h => (wf_concat.mp h).2.1 hn, _, he⟩
    · exact .inl ⟨wf_concat.mpr ⟨hw, hn, List.nodup_nil⟩, p', hp', hs'⟩
  | pair k v =>
    rcases List.eq_nil_or_concat g with rfl | ⟨pre, ⟨n, qs⟩, rfl⟩
    · obtain ⟨p', hp', hs'⟩ := emplaceKey_spec_nil hs k v
      exact .inl ⟨by simp [addLine, Wf], p', hp', by simpa [addLine] using hs'⟩
    · rw [List.concat_eq_append] at hs hw ⊢
      have hadd : addLine (pre ++ [(n, qs)]) (.pair k v) = pre ++ [(n, qs ++ [(k, v)])] := by
        simp [addLine, extendLast_concat]
      rw [hadd]
      rcases emplaceKey_spec hs hw k v with ⟨hk, he⟩ | ⟨hk, p', hp', hs'⟩
      · exact .inr ⟨fun h => (wf_extend.mp h).2 hk, _, he⟩
      · exact .inl ⟨wf_extend.mpr ⟨hw, hk⟩, p', hp', hs'⟩

/-! ### Whole files -/

theorem parseFold_cons {p q : IniParser} {line : Str} {lines : List Str} :
    parseFold p (line :: lines) = .ok q ↔
      ∃ p', p.parseLine line = .ok p' ∧ parseFold p' lines = .ok q := by
  rw [parseFold]
  rcases p.parseLine line with e | p'
  · simp
  · rcases hf : parseFold p' lines with ⟨i, e⟩ | q' <;> simp [hf]

/-- The run lemma, soundness: a fold that succeeds read lines of the grammar and kept `Sim`. -/
theorem parseFold_sound {p q : IniParser} {ls₀ : List Line} (hs : Sim p (sections ls₀))
    (hw : Wf (sections ls₀)) {lines : List Str} (h : parseFold p lines = .ok q) :
    ∃ ls, List.Forall₂ LineOf lines ls ∧ Wf (sections (ls₀ ++ ls)) ∧ Sim q (sections (ls₀ ++ ls)) := by
  induction lines generalizing p ls₀ with
  | nil => cases h; exact ⟨[], .nil, by simpa using hw, by simpa using hs⟩
  | cons line lines ih =>
    obtain ⟨p', hp', hrest⟩ := parseFold_cons.mp h
    obtain ⟨l, hl⟩ := lineOf_of_parseLine_ok hp'
    rw [parseLine_of_lineOf hl] at hp'
    rcases applyLine_spec hs hw l with ⟨hw', p'', hp'', hs'⟩ | ⟨-, e, he⟩
    · cases hp'.symm.trans hp''
      rw [← sections_snoc] at hw' hs'
      obtain ⟨ls, hls, hw'', hs''⟩ := ih hs' hw' hrest
      exact ⟨l :: ls, .cons hl hls, by simpa using hw'', by simpa using hs''⟩
    · cases hp'.symm.trans he

/-- The run lemma, completeness: lines of the grammar with well-formed sections are parsed. -/
theorem parseFold_complete {p : IniParser} {ls₀ : List Line} (hs : Sim p (sections ls₀))
    (hw : Wf (sections ls₀)) {lines : List Str} {ls : List Line} (hl : List.Forall₂ LineOf lines ls)
    (hw' : Wf (sections (ls₀ ++ ls))) : ∃ q, parseFold p lines = .ok q ∧ Sim q (sections (ls₀ ++ ls)) := by
  induction hl generalizing p ls₀ with
  | nil => exact ⟨p, rfl, by simpa using hs⟩
  | @cons line l lines ls hl _ ih =>
    have hw₁ : Wf (addLine (sections ls₀) l) :=
      sections_snoc ls₀ l ▸ wf_sections_prefix (ls₀ ++ [l]) (by simpa using hw')
    rcases applyLine_spec hs hw l with ⟨-, p', hp', hs'⟩ | ⟨hn, -⟩
    · rw [← sections_snoc] at hs' hw₁
      obtain ⟨q, hq, hsq⟩ := ih hs' hw₁ (by simpa using hw')
      exact ⟨q, parseFold_cons.mpr ⟨p', (parseLine_of_lineOf hl p).trans hp', hq⟩, by simpa using hsq⟩
    · exact absurd hw₁ hn

theorem parseLines_spec (lines : List Str) :
    (∀ f, parseLines lines = .ok f →
      ∃ ls, List.Forall₂ LineOf lines ls ∧ Wf (sections ls) ∧ f.denote = denote (sections ls)) ∧
    (∀ ls, List.Forall₂ LineOf lines ls → Wf (sections ls) →
      ∃ f, parseLines lines = .ok f ∧ f.denote = denote (sections ls)) := by
  constructor
  · intro f h
    rcases hq : parseFold IniParser.init lines with e | q
    · simp [parseLines, hq, Except.map] at h
    · simp only [parseLines, hq, Except.map, Except.ok.injEq] at h
      obtain ⟨ls, hls, hw, hs⟩ := parseFold_sound sim_init (by simpa using wf_nil) hq
      exact ⟨ls, hls, by simpa using hw, by rw [← h]; simpa using hs.denote_eq⟩
  · intro ls hls hw
    obtain ⟨q, hq, hs⟩ := parseFold_complete sim_init (by simpa using wf_nil) hls (by simpa using hw)
    exact ⟨q.data, by simp [parseLines, hq, Except.map, IniParser.commit], by simpa using hs.denote_eq⟩

end Mpdscribble
