/-!
# Sorted maps

A finite map whose keys are texts, kept as the list of its entries in increasing order of the keys.
The order is that of the code points, which is also the order of the UTF-8 bytes.  There is one list
for each map, so two maps with the same entries are equal.
-/

namespace ColorTheme

/-- A finite map from texts. -/
structure SortedMap (α : Type) where
  entries : List (String × α)
  sorted : entries.Pairwise fun a b => a.1 < b.1

namespace SortedMap

variable {α : Type}

/-! ### Lists of entries -/

/-- The value of a key among entries. -/
def lookup (k : String) : List (String × α) → Option α
  | [] => none
  | (k', a) :: rest => if k' = k then some a else lookup k rest

/-- The entries with a key set to a value, at its place in the order. -/
def insertEntry (k : String) (a : α) : List (String × α) → List (String × α)
  | [] => [(k, a)]
  | (k', a') :: rest =>
    if k < k' then (k, a) :: (k', a') :: rest
    else if k' = k then (k, a) :: rest
    else (k', a') :: insertEntry k a rest

theorem mem_insertEntry {k : String} {a : α} {l : List (String × α)} {e : String × α}
    (h : e ∈ insertEntry k a l) : e = (k, a) ∨ e ∈ l := by
  induction l with
  | nil => simpa [insertEntry] using h
  | cons b rest ih =>
    simp only [insertEntry] at h
    split at h
    · simpa using h
    · split at h
      · rcases List.mem_cons.1 h with h | h
        · exact .inl h
        · exact .inr (List.mem_cons_of_mem _ h)
      · rcases List.mem_cons.1 h with h | h
        · exact .inr (h ▸ List.mem_cons_self)
        · rcases ih h with h | h
          · exact .inl h
          · exact .inr (List.mem_cons_of_mem _ h)

theorem sorted_insertEntry (k : String) (a : α) {l : List (String × α)}
    (h : l.Pairwise fun a b => a.1 < b.1) :
    (insertEntry k a l).Pairwise fun a b => a.1 < b.1 := by
  induction l with
  | nil => simp [insertEntry]
  | cons b rest ih =>
    have ⟨hb, hr⟩ := List.pairwise_cons.1 h
    simp only [insertEntry]
    split
    · next hlt =>
      refine List.pairwise_cons.2 ⟨fun e he => ?_, h⟩
      rcases List.mem_cons.1 he with rfl | he
      · exact hlt
      · exact String.lt_trans hlt (hb e he)
    · next hnlt =>
      split
      · next heq => exact List.pairwise_cons.2 ⟨fun e he => heq ▸ hb e he, hr⟩
      · next hne =>
        refine List.pairwise_cons.2 ⟨fun e he => ?_, ih hr⟩
        rcases mem_insertEntry he with rfl | he
        · by_cases hgt : b.1 < k
          · exact hgt
          · exact absurd (String.le_antisymm hnlt hgt) hne
        · exact hb e he

theorem lookup_insertEntry (k k' : String) (a : α) {l : List (String × α)}
    (h : l.Pairwise fun a b => a.1 < b.1) :
    lookup k' (insertEntry k a l) = if k' = k then some a else lookup k' l := by
  induction l with
  | nil =>
    simp only [insertEntry, lookup, eq_comm]
  | cons b rest ih =>
    have ⟨hb, hr⟩ := List.pairwise_cons.1 h
    have ih := ih hr
    grind [insertEntry, lookup]

/-! ### Maps -/

def empty : SortedMap α := ⟨[], .nil⟩

instance : Inhabited (SortedMap α) := ⟨empty⟩

def get? (m : SortedMap α) (k : String) : Option α := lookup k m.entries

def insert (m : SortedMap α) (k : String) (a : α) : SortedMap α :=
  ⟨insertEntry k a m.entries, sorted_insertEntry k a m.sorted⟩

/-- The map without the keys that a test refuses. -/
def filterKeys (p : String → Bool) (m : SortedMap α) : SortedMap α :=
  ⟨m.entries.filter fun e => p e.1, m.sorted.filter _⟩

/-- The map with the pairs set one after the other: the last value of a key stays. -/
def ofList (pairs : List (String × α)) : SortedMap α :=
  pairs.foldl (fun m e => m.insert e.1 e.2) empty

def size (m : SortedMap α) : Nat := m.entries.length

/-- The entries in increasing order of the keys. -/
def toList (m : SortedMap α) : List (String × α) := m.entries

@[simp]
theorem get?_empty (k : String) : (empty : SortedMap α).get? k = none := rfl

@[simp]
theorem get?_insert (m : SortedMap α) (k k' : String) (a : α) :
    (m.insert k a).get? k' = if k' = k then some a else m.get? k' :=
  lookup_insertEntry k k' a m.sorted

end SortedMap

end ColorTheme
