import Mpdscribble.IniFile

/-! The line grammar of the configuration file, as the spec states it, and `ParseLine` against it.

    After its leading whitespace a line is empty, a comment, a header `'[' ws* N ws* ']' ws*` with
    `N` a non-empty name over `[A-Za-z0-9_.-]`, or a key line `K ws* '=' V` with `K` a non-empty
    key over `[A-Za-z0-9_]`. `LineOf line l` builds each shape from its parts, so it says which
    strings are lines without mentioning the parser. `parseLine_of_lineOf` says what the parser does
    to a line of the grammar, and `lineOf_of_parseLine_ok` that it accepts nothing else. -/

namespace Mpdscribble

/-- What a line declares: nothing, a section, or a key with its stripped value. -/
inductive Line where
  | skip
  | header (name : Str)
  | pair (key value : Str)
  deriving DecidableEq

/-- A byte of a section name: `[A-Za-z0-9_.-]`. -/
def IsNameChar (c : Char) : Prop := c.isAlphanum ∨ c = '_' ∨ c = '-' ∨ c = '.'

/-- A section name: a non-empty string of name bytes. -/
def IsSectionName (n : Str) : Prop := n ≠ [] ∧ ∀ c ∈ n, IsNameChar c

/-- A key: a non-empty string over `[A-Za-z0-9_]`. -/
def IsKey (k : Str) : Prop := k ≠ [] ∧ ∀ c ∈ k, c.isAlphanum ∨ c = '_'

/-- The grammar of one line, each shape built from its parts. -/
inductive LineOf : Str → Line → Prop
  | blank {ws : Str} : IsWs ws → LineOf ws .skip
  | comment {ws rest : Str} : IsWs ws → LineOf (ws ++ '#' :: rest) .skip
  | header {ws₁ ws₂ n ws₃ ws₄ : Str} : IsWs ws₁ → IsWs ws₂ → IsSectionName n → IsWs ws₃ →
      IsWs ws₄ → LineOf (ws₁ ++ '[' :: (ws₂ ++ n ++ ws₃ ++ ']' :: ws₄)) (.header n)
  | pair {ws₁ k ws₂ v : Str} : IsWs ws₁ → IsKey k → IsWs ws₂ →
      LineOf (ws₁ ++ k ++ ws₂ ++ '=' :: v) (.pair k (strip v))

/-- What a line of the grammar does to the parser. -/
def IniParser.applyLine (p : IniParser) : Line → Except ParseError IniParser
  | .skip => .ok p
  | .header n => p.emplaceSection n
  | .pair k v => p.emplaceKey k v

/-! ### Bytes -/

theorem alnum_toNat {c : Char} (h : c.isAlphanum = true) :
    (65 ≤ c.toNat ∧ c.toNat ≤ 90) ∨ (97 ≤ c.toNat ∧ c.toNat ≤ 122) ∨ (48 ≤ c.toNat ∧ c.toNat ≤ 57) := by
  simpa [Char.isAlphanum, Char.isAlpha, Char.isUpper, Char.isLower, Char.isDigit, UInt32.le_def,
    BitVec.le_def, Char.toNat, UInt32.toNat, or_assoc] using h

/-- Name bytes (key bytes among them) are neither whitespace nor punctuation of the grammar. -/
theorem nameChar_facts {c : Char} (h : IsNameChar c) :
    isWhitespaceOrNull c = false ∧ c ≠ '#' ∧ c ≠ '[' ∧ c ≠ ']' ∧ c ≠ '=' := by
  rcases h with h | rfl | rfl | rfl
  · have := alnum_toNat h
    refine ⟨by simp [isWhitespaceOrNull]; omega, ?_, ?_, ?_, ?_⟩ <;> rintro rfl <;> simp at this
  all_goals decide

theorem isNameChar_of_key {c : Char} (h : c.isAlphanum ∨ c = '_') : IsNameChar c := by
  rcases h with h | h
  exacts [.inl h, .inr (.inl h)]

theorem isValidSectionName_iff (n : Str) : isValidSectionName n = true ↔ IsSectionName n := by
  simp [isValidSectionName, isValidName, IsSectionName, IsNameChar, isValidSectionNameChar,
    isAlphaNumericASCII, or_assoc]

theorem isValidKeyChar_iff (c : Char) : isValidKeyChar c = true ↔ c.isAlphanum ∨ c = '_' := by
  simp [isValidKeyChar, isAlphaNumericASCII]

theorem isValidKey_iff (k : Str) : isValidKey k = true ↔ IsKey k := by
  simp [isValidKey, isValidName, IsKey, isValidKeyChar_iff]

theorem stripLeft_name_append {a : Str} (ha : a ≠ []) (h : ∀ c ∈ a, IsNameChar c) (b : Str) :
    stripLeft (a ++ b) = a ++ b := by
  obtain ⟨c, a, rfl⟩ := List.exists_cons_of_ne_nil ha
  exact stripLeft_cons (nameChar_facts (h c (List.mem_cons_self _ _))).1 _

theorem strip_name_append {a ws : Str} (h : ∀ c ∈ a, IsNameChar c) (hws : IsWs ws) :
    strip (a ++ ws) = a := by
  rw [strip_append_ws _ hws, strip_of_none (fun c hc => (nameChar_facts (h c hc)).1)]

theorem not_mem_name_ws {ch : Char} {a ws : Str} (h : ∀ c ∈ a, IsNameChar c) (hws : IsWs ws)
    (hch : isWhitespaceOrNull ch = false) (hne : ∀ c, IsNameChar c → c ≠ ch) : ch ∉ a ++ ws := by
  rw [List.mem_append, not_or]
  exact ⟨fun m => hne ch (h ch m) rfl, fun m => by simp [hws ch m] at hch⟩

/-! ### The parser on a line of the grammar -/

theorem parseLine_of_lineOf {line : Str} {l : Line} (h : LineOf line l) (p : IniParser) :
    p.parseLine line = p.applyLine l := by
  cases h with
  | blank hws => simp [IniParser.parseLine, stripLeft_eq_nil.mpr hws, IniParser.applyLine]
  | comment hws =>
    rw [IniParser.parseLine, stripLeft_ws_append hws, stripLeft_cons (by decide)]
    rfl
  | @header ws₁ ws₂ n ws₃ ws₄ h₁ h₂ hn h₃ h₄ =>
    have hsplit : split ']' (n ++ ws₃ ++ ']' :: ws₄) = (n ++ ws₃, some ws₄) :=
      split_append_cons (not_mem_name_ws hn.2 h₃ (by decide) fun c hc => (nameChar_facts hc).2.2.2.1) _
    have hrest : stripLeft (ws₂ ++ n ++ ws₃ ++ ']' :: ws₄) = n ++ ws₃ ++ ']' :: ws₄ := by
      rw [List.append_assoc, List.append_assoc, stripLeft_ws_append h₂, ← List.append_assoc,
        List.append_assoc n, stripLeft_name_append hn.1 hn.2]
    rw [IniParser.parseLine, stripLeft_ws_append h₁, stripLeft_cons (by decide)]
    simp only [if_neg (by decide : ('[' : Char) ≠ '#'), if_true, IniParser.parseHeader, hrest, hsplit]
    simp [strip_name_append hn.2 h₃, (isValidSectionName_iff n).mpr hn, stripLeft_eq_nil.mpr h₄,
      IniParser.applyLine]
  | @pair ws₁ k ws₂ v h₁ hk h₂ =>
    have hkn : ∀ c ∈ k, IsNameChar c := fun c hc => isNameChar_of_key (hk.2 c hc)
    have hsplit : split '=' (k ++ ws₂ ++ '=' :: v) = (k ++ ws₂, some v) :=
      split_append_cons (not_mem_name_ws hkn h₂ (by decide) fun c hc => (nameChar_facts hc).2.2.2.2) _
    have hline : stripLeft (ws₁ ++ k ++ ws₂ ++ '=' :: v) = k ++ ws₂ ++ '=' :: v := by
      rw [List.append_assoc, List.append_assoc, stripLeft_ws_append h₁, stripLeft_name_append hk.1 hkn,
        List.append_assoc]
    obtain ⟨c, k', rfl⟩ := List.exists_cons_of_ne_nil hk.1
    have hc := nameChar_facts (hkn c (List.mem_cons_self _ _))
    rw [IniParser.parseLine, hline]
    simp only [List.cons_append] at hsplit ⊢
    simp only [if_neg hc.2.1, if_neg hc.2.2.1, (isValidKeyChar_iff c).mpr (hk.2 c (List.mem_cons_self _ _)),
      if_true, IniParser.parseKeyLine, hsplit]
    simp only [← List.cons_append, stripRight_append_ws _ h₂,
      stripRight_of_none fun c hc => (nameChar_facts (hkn c hc)).1, (isValidKey_iff _).mpr hk]
    rfl

/-! ### The parser accepts only lines of the grammar -/

theorem lineOf_header {p p' : IniParser} {ws rest : Str} (hws : IsWs ws)
    (h : p.parseHeader rest = .ok p') : ∃ n, LineOf (ws ++ '[' :: rest) (.header n) := by
  obtain ⟨ws₂, h₂, hrest⟩ := exists_ws_stripLeft rest
  unfold IniParser.parseHeader at h
  rcases split_cases ']' (stripLeft rest) with ⟨-, e⟩ | ⟨a, b, -, hab, e⟩
  · rw [e] at h; cases h
  · rw [e] at h
    dsimp only at h
    split_ifs at h with hn hb
    obtain ⟨x, y, hx, hy, ha⟩ := exists_ws_strip a
    have hline : rest = ws₂ ++ ((x ++ strip a ++ y) ++ ']' :: b) := by rw [← ha, ← hab]; exact hrest
    have := LineOf.header hws (isWs_append h₂ hx) ((isValidSectionName_iff _).mp (by simpa using hn))
      hy (stripLeft_eq_nil.mp (by simpa using hb))
    rw [hline]
    exact ⟨_, by simpa only [List.append_assoc] using this⟩

theorem lineOf_key {p p' : IniParser} {ws line : Str} (hws : IsWs ws)
    (h : p.parseKeyLine line = .ok p') : ∃ k v, LineOf (ws ++ line) (.pair k v) := by
  unfold IniParser.parseKeyLine at h
  rcases split_cases '=' line with ⟨-, e⟩ | ⟨a, b, -, hab, e⟩
  · rw [e] at h; cases h
  · rw [e] at h
    dsimp only at h
    split_ifs at h with hk
    obtain ⟨y, hy, ha⟩ := exists_ws_stripRight a
    have hline : line = stripRight a ++ (y ++ '=' :: b) := by rw [← List.append_assoc, ← ha]; exact hab
    have := LineOf.pair (v := b) hws ((isValidKey_iff _).mp (by simpa using hk)) hy
    rw [hline]
    exact ⟨_, _, by simpa only [List.append_assoc] using this⟩

theorem lineOf_of_parseLine_ok {p p' : IniParser} {line : Str} (h : p.parseLine line = .ok p') :
    ∃ l, LineOf line l := by
  obtain ⟨ws, hws, hline⟩ := exists_ws_stripLeft line
  unfold IniParser.parseLine at h
  split at h
  · next hnil => exact ⟨.skip, .blank (stripLeft_eq_nil.mp hnil)⟩
  · next front rest hsl =>
    rw [hline, hsl]
    split_ifs at h with h1 h2 h3
    · subst h1; exact ⟨_, .comment hws⟩
    · subst h2; obtain ⟨n, hn⟩ := lineOf_header hws h; exact ⟨_, hn⟩
    · obtain ⟨k, v, hkv⟩ := lineOf_key hws h; exact ⟨_, hkv⟩

end Mpdscribble
