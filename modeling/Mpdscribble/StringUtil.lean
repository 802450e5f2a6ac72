import Mpdscribble.StrMap
import Mathlib.Data.List.DropRight

/-! The string helpers IniFile.cxx calls: `StripLeft`, `StripRight` and `Strip`
    (util/StringStrip.hxx), `Split` (util/StringSplit.hxx) and the character classes of
    util/CharUtil.hxx. None of these files is in the sources; they are modelled on the spec's
    words: whitespace is every byte `<= 0x20`, and `Split` cuts at the first occurrence.

    The lemmas say what each helper does to a string built as the grammar builds lines:
    whitespace runs around a part with no whitespace, and a separator after a part without it. -/

namespace Mpdscribble

/-- Modelled from the spec: `IsWhitespaceOrNull` (util/CharUtil.hxx), a byte `<= 0x20`. -/
def isWhitespaceOrNull (ch : Char) : Bool := ch.toNat ≤ 0x20

/-- Modelled from the spec: `IsAlphaNumericASCII` (util/CharUtil.hxx), `[A-Za-z0-9]`. -/
def isAlphaNumericASCII (ch : Char) : Bool := ch.isAlphanum

/-- A run of whitespace: `ws*` in the grammar. -/
def IsWs (s : Str) : Prop := ∀ c ∈ s, isWhitespaceOrNull c = true

/-- Modelled from the spec: `StripLeft` drops the leading whitespace. -/
def stripLeft (s : Str) : Str := s.dropWhile isWhitespaceOrNull

/-- Modelled from the spec: `StripRight` drops the trailing whitespace. -/
def stripRight (s : Str) : Str := s.rdropWhile isWhitespaceOrNull

/-- Modelled from the spec: `Strip` drops the whitespace at both ends. -/
def strip (s : Str) : Str := stripRight (stripLeft s)

/-- Modelled from the spec: `Split(haystack, ch)` is the part before the first `ch` and the part
    after it; without a `ch` it is the whole haystack and a null view, here `none`. -/
def split (ch : Char) : Str → Str × Option Str
  | [] => ([], none)
  | c :: cs => if c = ch then ([], some cs) else (c :: (split ch cs).1, (split ch cs).2)

theorem isWs_nil : IsWs [] := fun _ h => absurd h (List.not_mem_nil _)

theorem isWs_append {a b : Str} (ha : IsWs a) (hb : IsWs b) : IsWs (a ++ b) := by
  intro c hc
  rcases List.mem_append.mp hc with h | h
  exacts [ha c h, hb c h]

theorem dropWhile_append_of_all {α : Type} {p : α → Bool} {a : List α} (h : ∀ c ∈ a, p c = true)
    (b : List α) : (a ++ b).dropWhile p = b.dropWhile p := by
  rw [List.dropWhile_append, List.dropWhile_eq_nil_iff.mpr h]; rfl

/-! ### `StripLeft` -/

theorem stripLeft_ws_append {ws : Str} (h : IsWs ws) (t : Str) : stripLeft (ws ++ t) = stripLeft t :=
  dropWhile_append_of_all h t

theorem stripLeft_cons {c : Char} (hc : isWhitespaceOrNull c = false) (t : Str) :
    stripLeft (c :: t) = c :: t :=
  List.dropWhile_cons_of_neg (by simp [hc])

theorem stripLeft_eq_nil {s : Str} : stripLeft s = [] ↔ IsWs s := List.dropWhile_eq_nil_iff

theorem exists_ws_stripLeft (s : Str) : ∃ ws, IsWs ws ∧ s = ws ++ stripLeft s :=
  ⟨_, fun _ => List.mem_takeWhile_imp, (List.takeWhile_append_dropWhile _ s).symm⟩

/-! ### `StripRight` and `Strip` -/

theorem stripRight_append_ws (t : Str) {ws : Str} (h : IsWs ws) : stripRight (t ++ ws) = stripRight t := by
  simp only [stripRight, List.rdropWhile, List.reverse_append]
  rw [dropWhile_append_of_all (by simpa [IsWs] using h)]

theorem stripRight_of_none {s : Str} (h : ∀ c ∈ s, isWhitespaceOrNull c = false) : stripRight s = s := by
  rcases List.eq_nil_or_concat s with rfl | ⟨t, c, rfl⟩
  · rfl
  · rw [List.concat_eq_append] at h ⊢
    exact List.rdropWhile_concat_neg _ _ _ (by simp [h c (by simp)])

theorem exists_ws_stripRight (s : Str) : ∃ ws, IsWs ws ∧ s = stripRight s ++ ws := by
  refine ⟨(s.reverse.takeWhile isWhitespaceOrNull).reverse, fun c hc => ?_, ?_⟩
  · exact List.mem_takeWhile_imp (List.mem_reverse.mp hc)
  · rw [stripRight, List.rdropWhile, ← List.reverse_append, List.takeWhile_append_dropWhile,
      List.reverse_reverse]

theorem stripLeft_of_none {s : Str} (h : ∀ c ∈ s, isWhitespaceOrNull c = false) : stripLeft s = s := by
  cases s with
  | nil => rfl
  | cons c t => exact stripLeft_cons (h c (by simp)) t

theorem strip_of_none {s : Str} (h : ∀ c ∈ s, isWhitespaceOrNull c = false) : strip s = s := by
  rw [strip, stripLeft_of_none h, stripRight_of_none h]

theorem strip_append_ws (t : Str) {ws : Str} (h : IsWs ws) : strip (t ++ ws) = strip t := by
  rw [strip, stripLeft, List.dropWhile_append]
  split
  · next ht =>
    have ht' : stripLeft t = [] := List.isEmpty_iff.mp ht
    rw [strip, ht', ← stripLeft, stripLeft_eq_nil.mpr h]
  · exact stripRight_append_ws _ h

theorem strip_ws_append {ws : Str} (h : IsWs ws) (t : Str) : strip (ws ++ t) = strip t := by
  rw [strip, stripLeft_ws_append h, strip]

theorem exists_ws_strip (s : Str) : ∃ a b, IsWs a ∧ IsWs b ∧ s = a ++ strip s ++ b := by
  obtain ⟨a, ha, hs⟩ := exists_ws_stripLeft s
  obtain ⟨b, hb, hl⟩ := exists_ws_stripRight (stripLeft s)
  exact ⟨a, b, ha, hb, by rw [strip, List.append_assoc, ← hl, ← hs]⟩

/-! ### `Split` -/

theorem split_append_cons {ch : Char} {a : Str} (h : ch ∉ a) (b : Str) :
    split ch (a ++ ch :: b) = (a, some b) := by
  induction a with
  | nil => simp [split]
  | cons c a ih =>
    have hc : c ≠ ch := fun e => h (e ▸ List.mem_cons_self _ _)
    simp [split, hc, ih (fun m => h (List.mem_cons_of_mem _ m))]

theorem split_of_not_mem {ch : Char} {s : Str} (h : ch ∉ s) : split ch s = (s, none) := by
  induction s with
  | nil => rfl
  | cons c s ih =>
    have hc : c ≠ ch := fun e => h (e ▸ List.mem_cons_self _ _)
    simp [split, hc, ih (fun m => h (List.mem_cons_of_mem _ m))]

/-- `Split` either finds a first separator or returns the null view. -/
theorem split_cases (ch : Char) : ∀ s : Str,
    (ch ∉ s ∧ split ch s = (s, none)) ∨
      ∃ a b, ch ∉ a ∧ s = a ++ ch :: b ∧ split ch s = (a, some b)
  | [] => .inl ⟨List.not_mem_nil _, rfl⟩
  | c :: s => by
    by_cases hc : c = ch
    · exact .inr ⟨[], s, List.not_mem_nil _, by rw [hc]; rfl, by simp [split, hc]⟩
    · rcases split_cases ch s with ⟨h, e⟩ | ⟨a, b, ha, rfl, e⟩
      · exact .inl ⟨by simp [h, Ne.symm hc], by simp [split, hc, e]⟩
      · exact .inr ⟨c :: a, b, by simp [ha, Ne.symm hc], rfl, by simp [split, hc, e]⟩

end Mpdscribble
