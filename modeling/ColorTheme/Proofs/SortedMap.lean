import ColorTheme.SortedMap
import Mathlib.Data.List.Nodup

/-!
# Sorted maps and their entries

A key has a value exactly if the pair of both is an entry, and no entry stands twice in the list.
The size of a map can thus be read off any list of the same pairs.
-/

namespace ColorTheme.SortedMap

variable {α : Type}

theorem lookup_eq_some_iff {l : List (String × α)} (h : l.Pairwise fun a b => a.1 < b.1)
    {k : String} {a : α} : lookup k l = some a ↔ (k, a) ∈ l := by
  induction l with
  | nil => simp [lookup]
  | cons b rest ih =>
    obtain ⟨k', b⟩ := b
    obtain ⟨hk', hrest⟩ := List.pairwise_cons.1 h
    rw [lookup, List.mem_cons, Prod.mk.injEq]
    split
    · next hk =>
      subst hk
      -- The key stands in front, so a later entry has another one.
      have hlater : (k', a) ∉ rest := fun hmem => String.lt_irrefl k' (hk' (k', a) hmem)
      simp [hlater, eq_comm]
    · next hk => simp [ih hrest, Ne.symm hk]

theorem get?_eq_some_iff {m : SortedMap α} {k : String} {a : α} :
    m.get? k = some a ↔ (k, a) ∈ m.entries :=
  lookup_eq_some_iff m.sorted

theorem nodup_entries (m : SortedMap α) : m.entries.Nodup := by
  refine m.sorted.imp ?_
  intro a b hlt heq
  rw [heq] at hlt
  exact String.lt_irrefl b.1 hlt

theorem nodup_keys (m : SortedMap α) : (m.entries.map Prod.fst).Nodup :=
  List.pairwise_map.2 (m.sorted.imp String.ne_of_lt)

theorem get?_filterKeys (p : String → Bool) (m : SortedMap α) (k : String) :
    (m.filterKeys p).get? k = if p k then m.get? k else none := by
  rw [Option.ext_iff]
  intro a
  rw [get?_eq_some_iff, filterKeys, List.mem_filter, Option.ite_none_right_eq_some,
    get?_eq_some_iff, and_comm]

/-- Entries that are inserted go before what is there. -/
theorem get?_foldl_insert {l : List (String × α)} (h : l.Pairwise fun a b => a.1 < b.1)
    (m : SortedMap α) (k : String) :
    (l.foldl (fun m e => m.insert e.1 e.2) m).get? k = (lookup k l).or (m.get? k) := by
  induction l generalizing m with
  | nil => rfl
  | cons b rest ih =>
    obtain ⟨hb, hrest⟩ := List.pairwise_cons.1 h
    rw [List.foldl_cons, ih hrest, get?_insert, lookup]
    split
    · next hk =>
      subst hk
      -- The key does not come again, so the value of the first entry stays.
      have hlater : lookup b.1 rest = none := by
        rw [Option.eq_none_iff_forall_ne_some]
        intro a ha
        exact String.lt_irrefl b.1 (hb (b.1, a) ((lookup_eq_some_iff hrest).1 ha))
      rw [hlater, if_pos rfl]
      rfl
    · next hk => rw [if_neg (Ne.symm hk)]

/-- A list of all pairs without repetition has the entries in some order. -/
theorem perm_entries {m : SortedMap α} {l : List (String × α)} (hl : l.Nodup)
    (hmem : ∀ e, e ∈ l ↔ m.get? e.1 = some e.2) : l.Perm m.entries := by
  rw [List.perm_ext_iff_of_nodup hl m.nodup_entries]
  intro e
  rw [hmem, get?_eq_some_iff]

theorem size_eq_length {m : SortedMap α} {l : List (String × α)} (hl : l.Nodup)
    (hmem : ∀ e, e ∈ l ↔ m.get? e.1 = some e.2) : m.size = l.length :=
  (perm_entries hl hmem).length_eq.symm

theorem ext_get? {m m' : SortedMap α} (h : ∀ k, m.get? k = m'.get? k) : m = m' := by
  have hmem : ∀ e, e ∈ m.entries ↔ e ∈ m'.entries := by
    intro e
    rw [← get?_eq_some_iff, ← get?_eq_some_iff, h]
  have hperm : m.entries.Perm m'.entries :=
    (List.perm_ext_iff_of_nodup m.nodup_entries m'.nodup_entries).2 hmem
  have hentries : m.entries = m'.entries := by
    refine hperm.eq_of_pairwise ?_ m.sorted m'.sorted
    intro a b _ _ hab hba
    exact absurd hba (String.lt_asymm hab)
  cases m
  cases m'
  cases hentries
  rfl

end ColorTheme.SortedMap
