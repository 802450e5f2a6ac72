import Mathlib.Data.List.Nodup
import Mathlib.Data.List.Lex
import Mathlib.Data.List.Sort
import Mathlib.Data.Char

/-! The `std::map<std::string, T>` behind `IniFile` and `IniSection` (IniFile.hxx).

    A map is its list of entries in iteration order with every key once; `emplace` puts a new
    key in front of the first larger one, so iteration is in ascending key order as in
    `std::map`. Most proofs only use that keys are unique: `find?` after `emplace` and `modify`
    is all the parser and the configuration loader need. The order is an invariant too
    (`Sorted.emplace`, `Sorted.modify`), and it makes a map the only one with its lookups
    (`ext_of_sorted`). -/

namespace Mpdscribble

/-- The bytes of a `std::string` or a `std::string_view`. -/
abbrev Str := List Char

/-- `std::string`'s `operator<`: lexicographic on the bytes. -/
def strLess : Str → Str → Bool
  | _, [] => false
  | [], _ :: _ => true
  | a :: as, b :: bs => a < b || (a = b && strLess as bs)

theorem strLess_irrefl : ∀ a : Str, strLess a a = false
  | [] => rfl
  | c :: a => by simp [strLess, strLess_irrefl a]

theorem strLess_trans : ∀ {a b c : Str}, strLess a b = true → strLess b c = true → strLess a c = true
  | _, [], _, h, _ => by simp [strLess] at h
  | _, _ :: _, [], _, h => by simp [strLess] at h
  | [], _ :: _, _ :: _, _, _ => rfl
  | x :: a, y :: b, z :: c, h₁, h₂ => by
    simp only [strLess, Bool.or_eq_true, decide_eq_true_eq, Bool.and_eq_true] at h₁ h₂ ⊢
    rcases h₁ with h₁ | ⟨rfl, h₁⟩ <;> rcases h₂ with h₂ | ⟨rfl, h₂⟩
    · exact .inl (lt_trans h₁ h₂)
    · exact .inl h₁
    · exact .inl h₂
    · exact .inr ⟨rfl, strLess_trans h₁ h₂⟩

theorem strLess_total : ∀ {a b : Str}, a ≠ b → strLess a b = true ∨ strLess b a = true
  | [], [], h => absurd rfl h
  | [], _ :: _, _ => .inl rfl
  | _ :: _, [], _ => .inr rfl
  | x :: a, y :: b, h => by
    simp only [strLess, Bool.or_eq_true, decide_eq_true_eq, Bool.and_eq_true]
    rcases lt_trichotomy x y with hxy | rfl | hxy
    · exact .inl (.inl hxy)
    · rcases strLess_total (fun e => h (congrArg (x :: ·) e)) with h' | h'
      · exact .inl (.inr ⟨rfl, h'⟩)
      · exact .inr (.inr ⟨rfl, h'⟩)
    · exact .inr (.inl hxy)

/-- A `std::map<std::string, α>`: its entries in iteration order, each key once. -/
structure StrMap (α : Type) where
  entries : List (Str × α)
  nodup : (entries.map Prod.fst).Nodup

namespace StrMap

variable {α : Type}

/-- The keys, in iteration order. -/
def keys (m : StrMap α) : List Str := m.entries.map Prod.fst

/-- `std::map::find`: the value under `k`, if any. -/
def find? (m : StrMap α) (k : Str) : Option α := m.entries.lookup k

/-- The empty map. -/
def empty : StrMap α := ⟨[], List.nodup_nil⟩

/-- Put `(k, v)` in front of the first larger key. -/
def insertSorted (k : Str) (v : α) : List (Str × α) → List (Str × α)
  | [] => [(k, v)]
  | e :: es => if strLess k e.1 then (k, v) :: e :: es else e :: insertSorted k v es

theorem insertSorted_perm (k : Str) (v : α) :
    ∀ l : List (Str × α), (insertSorted k v l).Perm ((k, v) :: l)
  | [] => .refl _
  | e :: es => by
    unfold insertSorted
    split
    · exact .refl _
    · exact ((insertSorted_perm k v es).cons e).trans (.swap _ _ _)

theorem keys_insertSorted_perm (k : Str) (v : α) (l : List (Str × α)) :
    ((insertSorted k v l).map Prod.fst).Perm (k :: l.map Prod.fst) :=
  (insertSorted_perm k v l).map Prod.fst

theorem nodup_insertSorted {k : Str} {v : α} {l : List (Str × α)}
    (hl : (l.map Prod.fst).Nodup) (hk : k ∉ l.map Prod.fst) :
    ((insertSorted k v l).map Prod.fst).Nodup :=
  (keys_insertSorted_perm k v l).nodup_iff.mpr (List.nodup_cons.mpr ⟨hk, hl⟩)

/-- `std::map::emplace`: inserts `(k, v)` unless `k` is present; the flag says whether it did. -/
def emplace (m : StrMap α) (k : Str) (v : α) : StrMap α × Bool :=
  if h : k ∈ m.keys then (m, false) else (⟨insertSorted k v m.entries, nodup_insertSorted m.nodup h⟩, true)

/-- `std::map::empty`. -/
def isEmpty (m : StrMap α) : Bool := m.entries.isEmpty

/-- Apply `f` to the value under `k`, as a write through an iterator to `k` does. -/
def modify (m : StrMap α) (k : Str) (f : α → α) : StrMap α :=
  ⟨m.entries.map (fun e => (e.1, if e.1 = k then f e.2 else e.2)), by
    simpa [List.map_map, Function.comp_def] using m.nodup⟩

/-! ### Lookups -/

theorem lookup_cons (k k' : Str) (v : α) (l : List (Str × α)) :
    ((k', v) :: l).lookup k = if k = k' then some v else l.lookup k := by
  rw [List.lookup_cons]
  split <;> simp_all

theorem lookup_eq_none {β : Type} {l : List (Str × β)} {k : Str} :
    l.lookup k = none ↔ k ∉ l.map Prod.fst := by
  simp only [List.lookup_eq_none_iff, bne_iff_ne, ne_eq, List.mem_map, not_exists, not_and]
  exact ⟨fun h e he hk => h e he hk.symm, fun h e he hk => h e he hk.symm⟩

theorem lookup_insertSorted (k k' : Str) (v : α) :
    ∀ l : List (Str × α), k ∉ l.map Prod.fst →
      (insertSorted k v l).lookup k' = if k' = k then some v else l.lookup k'
  | [], _ => by simp [insertSorted, lookup_cons]
  | e :: es, hk => by
    have hne : k ≠ e.1 := fun h => hk (h ▸ List.mem_map_of_mem Prod.fst (List.mem_cons_self e es))
    have hes : k ∉ es.map Prod.fst := fun h => hk (List.mem_cons_of_mem _ h)
    simp only [insertSorted]
    split
    · simp only [lookup_cons]
    · rw [lookup_cons, lookup_insertSorted k k' v es hes, lookup_cons]
      by_cases h : k' = k
      · subst h; simp [hne]
      · simp [h]

@[simp] theorem find?_empty (k : Str) : (empty : StrMap α).find? k = none := rfl

theorem mem_keys {m : StrMap α} {k : Str} : k ∈ m.keys ↔ m.find? k ≠ none := by
  rw [find?, ne_eq, lookup_eq_none, not_not, keys]

theorem find?_emplace (m : StrMap α) (k k' : Str) (v : α) :
    (m.emplace k v).1.find? k' = if k ∉ m.keys ∧ k' = k then some v else m.find? k' := by
  unfold emplace
  split
  · simp_all
  · simp only [find?]
    rw [lookup_insertSorted k k' v _ ‹_›]
    simp_all

theorem emplace_snd (m : StrMap α) (k : Str) (v : α) : (m.emplace k v).2 = decide (k ∉ m.keys) := by
  unfold emplace; split <;> simp_all

theorem lookup_map_modify (k k' : Str) (f : α → α) : ∀ l : List (Str × α),
    (l.map (fun e => (e.1, if e.1 = k then f e.2 else e.2))).lookup k' =
      if k' = k then (l.lookup k).map f else l.lookup k'
  | [] => by simp
  | (a, b) :: es => by
    simp only [List.map_cons, lookup_cons, lookup_map_modify k k' f es]
    rcases eq_or_ne k' k with rfl | h
    · by_cases h' : k' = a
      · subst h'; simp
      · simp [h', Ne.symm h']
    · by_cases h' : k' = a
      · subst h'; simp [h]
      · simp [h, h']

theorem find?_modify (m : StrMap α) (k k' : Str) (f : α → α) :
    (m.modify k f).find? k' = if k' = k then (m.find? k).map f else m.find? k' :=
  lookup_map_modify k k' f m.entries

theorem mem_keys_emplace (m : StrMap α) (k : Str) (v : α) : k ∈ (m.emplace k v).1.keys := by
  rw [mem_keys, find?_emplace]
  split
  · simp
  · simp_all [mem_keys]

theorem entries_emplace_ne_nil (m : StrMap α) (k : Str) (v : α) : (m.emplace k v).1.entries ≠ [] :=
  fun h => by simpa [keys, h] using mem_keys_emplace m k v

theorem isEmpty_iff (m : StrMap α) : m.isEmpty = true ↔ m.keys = [] := by
  simp [isEmpty, keys]

theorem keys_modify (m : StrMap α) (k : Str) (f : α → α) : (m.modify k f).keys = m.keys := by
  simp [keys, modify, List.map_map, Function.comp_def]

theorem mem_emplace {m : StrMap α} {k : Str} {v : α} {e : Str × α}
    (h : e ∈ (m.emplace k v).1.entries) : e = (k, v) ∨ e ∈ m.entries := by
  unfold emplace at h
  split at h
  · exact .inr h
  · exact List.mem_cons.mp ((insertSorted_perm k v _).mem_iff.mp h)

theorem mem_modify {m : StrMap α} {k : Str} {f : α → α} {e : Str × α}
    (h : e ∈ (m.modify k f).entries) : ∃ e' ∈ m.entries, e = (e'.1, if e'.1 = k then f e'.2 else e'.2) :=
  List.mem_map.mp h |>.imp fun _ h => ⟨h.1, h.2.symm⟩

/-! ### Iteration order -/

/-- The entries are in ascending key order, as `std::map` iterates them. -/
def Sorted (m : StrMap α) : Prop := m.entries.Pairwise fun a b => strLess a.1 b.1 = true

theorem pairwise_insertSorted {k : Str} (v : α) :
    ∀ {l : List (Str × α)}, k ∉ l.map Prod.fst → l.Pairwise (fun a b => strLess a.1 b.1 = true) →
      (insertSorted k v l).Pairwise (fun a b => strLess a.1 b.1 = true)
  | [], _, _ => List.pairwise_singleton _ _
  | e :: es, hk, hl => by
    have hne : k ≠ e.1 := fun h => hk (h ▸ List.mem_cons_self _ _)
    have hes : k ∉ es.map Prod.fst := fun h => hk (List.mem_cons_of_mem _ h)
    obtain ⟨he, hes'⟩ := List.pairwise_cons.mp hl
    unfold insertSorted
    split
    · next hlt =>
      exact List.pairwise_cons.mpr ⟨fun x hx => (List.mem_cons.mp hx).elim (· ▸ hlt)
        fun hx => strLess_trans hlt (he x hx), hl⟩
    · next hlt =>
      have hek : strLess e.1 k = true := (strLess_total hne).resolve_left hlt
      refine List.pairwise_cons.mpr ⟨fun x hx => ?_, pairwise_insertSorted v hes hes'⟩
      rcases List.mem_cons.mp ((insertSorted_perm k v es).mem_iff.mp hx) with rfl | hx
      · exact hek
      · exact he x hx

instance (m : StrMap α) : Decidable m.Sorted := inferInstanceAs (Decidable (List.Pairwise _ _))

theorem Sorted.emplace {m : StrMap α} (h : m.Sorted) (k : Str) (v : α) : (m.emplace k v).1.Sorted := by
  unfold StrMap.emplace
  split
  · exact h
  · exact pairwise_insertSorted v ‹_› h

theorem Sorted.modify {m : StrMap α} (h : m.Sorted) (k : Str) (f : α → α) : (m.modify k f).Sorted :=
  List.Pairwise.map _ (fun _ _ => id) h

theorem sorted_empty : (empty : StrMap α).Sorted := List.Pairwise.nil

theorem lookup_eq_some_iff {β : Type} {k : Str} {v : β} :
    ∀ {l : List (Str × β)}, (l.map Prod.fst).Nodup → (l.lookup k = some v ↔ (k, v) ∈ l)
  | [], _ => by simp
  | (a, b) :: l, hn => by
    obtain ⟨ha, hl⟩ := List.nodup_cons.mp hn
    rw [lookup_cons, List.mem_cons]
    by_cases hk : k = a
    · subst hk
      rw [if_pos rfl, Option.some.injEq, Prod.mk.injEq]
      exact ⟨fun h => .inl ⟨rfl, h.symm⟩,
        fun h => h.elim (fun h => h.2.symm) fun h => absurd (List.mem_map_of_mem Prod.fst h) ha⟩
    · rw [if_neg hk, lookup_eq_some_iff hl]
      simp [hk]

theorem find?_eq_some_iff {m : StrMap α} {k : Str} {v : α} : m.find? k = some v ↔ (k, v) ∈ m.entries :=
  lookup_eq_some_iff m.nodup

/-- Two maps in `std::map` order with the same lookups are the same map. -/
theorem ext_of_sorted {m₁ m₂ : StrMap α} (h₁ : m₁.Sorted) (h₂ : m₂.Sorted)
    (h : ∀ k, m₁.find? k = m₂.find? k) : m₁ = m₂ := by
  have hperm : m₁.entries.Perm m₂.entries :=
    (List.perm_ext_iff_of_nodup (List.Nodup.of_map _ m₁.nodup) (List.Nodup.of_map _ m₂.nodup)).mpr
      fun e => by rw [← find?_eq_some_iff, ← find?_eq_some_iff, h]
  have : IsAntisymm (Str × α) fun a b => strLess a.1 b.1 = true :=
    ⟨fun a b h h' => absurd (strLess_trans h h') (by simp [strLess_irrefl])⟩
  have := List.eq_of_perm_of_sorted hperm h₁ h₂
  cases m₁; cases m₂; congr

end StrMap

end Mpdscribble
