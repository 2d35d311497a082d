import ColorTheme.Proofs.SortedMap
import ColorTheme.Proofs.Text.Bytes
import ColorTheme.Style.Properties
import Mathlib.Data.List.Dedup
import Mathlib.Data.List.Induction

/-!
# Properties that were set one after the other

What a sequence of settings leaves: every name has the value that it was given last, and the names
stand in the order of their bytes.  A table that lists its entries in whatever order has the same
entries, and there is only one way to bring them in the order of their names.
-/

namespace ColorTheme

/-- The value that was given to a name last, if one was. -/
def lastValue? (settings : List (String × String)) (name : String) : Option String :=
  (settings.filter fun e => e.1 = name).getLast?.map Prod.snd

theorem lastValue?_concat (settings : List (String × String)) (e : String × String)
    (name : String) : lastValue? (settings ++ [e]) name =
      if name = e.1 then some e.2 else lastValue? settings name := by
  unfold lastValue?
  rw [List.filter_append]
  by_cases hname : name = e.1
  · simp [hname]
  · have hne : ¬ e.1 = name := fun h => hname h.symm
    simp [hname, hne]

theorem lastValue?_eq_none_iff {settings : List (String × String)} {name : String} :
    lastValue? settings name = none ↔ name ∉ settings.map Prod.fst := by
  rw [lastValue?, Option.map_eq_none_iff, List.getLast?_eq_none_iff, List.filter_eq_nil_iff]
  simp only [decide_eq_true_iff, List.mem_map, not_exists, not_and]

namespace SortedMap

theorem ofList_concat (settings : List (String × String)) (e : String × String) :
    ofList (settings ++ [e]) = (ofList settings).insert e.1 e.2 := by
  simp [ofList]

/-- **The last value stays.** -/
theorem get?_ofList (settings : List (String × String)) (name : String) :
    (ofList settings).get? name = lastValue? settings name := by
  induction settings using List.reverseRecOn with
  | nil => rfl
  | append_singleton settings e ih => rw [ofList_concat, get?_insert, lastValue?_concat, ih]

theorem mem_keys_ofList {settings : List (String × String)} {name : String} :
    name ∈ (ofList settings).entries.map Prod.fst ↔ name ∈ settings.map Prod.fst := by
  have hvalue : name ∈ (ofList settings).entries.map Prod.fst ↔
      lastValue? settings name ≠ none := by
    rw [← get?_ofList, Option.ne_none_iff_exists', List.mem_map]
    constructor
    · rintro ⟨e, he, rfl⟩
      exact ⟨e.2, get?_eq_some_iff.2 he⟩
    · rintro ⟨value, hvalue⟩
      exact ⟨(name, value), get?_eq_some_iff.1 hvalue, rfl⟩
  rw [hvalue, ne_eq, lastValue?_eq_none_iff, not_not]

/-- Each name counts once. -/
theorem size_ofList (settings : List (String × String)) :
    (ofList settings).size = (settings.map Prod.fst).dedup.length := by
  have hperm : ((ofList settings).entries.map Prod.fst).Perm (settings.map Prod.fst).dedup := by
    rw [List.perm_ext_iff_of_nodup (nodup_keys _) (List.nodup_dedup _)]
    intro name
    rw [mem_keys_ofList, List.mem_dedup]
  rw [size, ← hperm.length_eq, List.length_map]

/-- The entries come in the order of the bytes of their keys in one way only. -/
theorem eq_entries_of_ordered {m : SortedMap String} {l : List (String × String)}
    (hperm : l.Perm m.entries)
    (hl : l.Pairwise fun e e' => Text.bytes e.1 ≤ Text.bytes e'.1) : l = m.entries := by
  have hm : m.entries.Pairwise fun e e' => Text.bytes e.1 ≤ Text.bytes e'.1 :=
    m.sorted.imp fun hlt => List.le_of_lt (Text.bytes_lt_bytes_of_lt hlt)
  refine hperm.eq_of_pairwise ?_ hl hm
  intro e e' he he' hle hle'
  have hkey : e.1 = e'.1 :=
    String.le_antisymm (Text.le_of_bytes_le_bytes hle) (Text.le_of_bytes_le_bytes hle')
  exact List.inj_on_of_nodup_map m.nodup_keys (hperm.subset he) he' hkey

end SortedMap

namespace Style

open SortedMap (ofList)

/-! ### Tables without an order -/

/-- What a table may list after some settings.  A name that is there gets its new value in its place;
with a new name the entries may come into any other order. -/
inductive Listing : List (String × String) → List (String × String) → Prop
  | nothing : Listing [] []
  | overwritten {settings before after : List (String × String)} {name old value : String} :
      Listing settings (before ++ (name, old) :: after) →
      Listing (settings ++ [(name, value)]) (before ++ (name, value) :: after)
  | added {settings table table' : List (String × String)} {name value : String} :
      Listing settings table → name ∉ table.map Prod.fst → table'.Perm ((name, value) :: table) →
      Listing (settings ++ [(name, value)]) table'

namespace Listing

variable {settings table : List (String × String)}

theorem nodup_keys (h : Listing settings table) : (table.map Prod.fst).Nodup := by
  induction h with
  | nothing => exact .nil
  | overwritten _ ih =>
    rw [List.map_append, List.map_cons] at ih ⊢
    exact ih
  | added _ hnew hperm ih =>
    rw [(hperm.map Prod.fst).nodup_iff, List.map_cons, List.nodup_cons]
    exact ⟨hnew, ih⟩

theorem mem_iff_of_perm {rest : List (String × String)} {name value : String}
    (hperm : table.Perm ((name, value) :: rest)) (hnew : name ∉ rest.map Prod.fst)
    (hrest : ∀ e, e.1 ≠ name → (e ∈ rest ↔ lastValue? settings e.1 = some e.2))
    (e : String × String) :
    e ∈ table ↔ lastValue? (settings ++ [(name, value)]) e.1 = some e.2 := by
  rw [hperm.mem_iff, List.mem_cons, lastValue?_concat]
  split
  · next hname =>
    have hold : e ∉ rest := fun he => hnew (List.mem_map.2 ⟨e, he, hname⟩)
    rw [or_iff_left hold, Prod.ext_iff, Option.some.injEq, eq_comm (a := value)]
    exact and_iff_right hname
  · next hname =>
    have hother : e ≠ (name, value) := fun he => hname (congrArg Prod.fst he)
    rw [or_iff_right hother, hrest e hname]

/-- **Every name is listed with the value that it was given last.** -/
theorem mem_iff (h : Listing settings table) (e : String × String) :
    e ∈ table ↔ lastValue? settings e.1 = some e.2 := by
  induction h generalizing e with
  | nothing => simp [lastValue?]
  | @overwritten settings before after name old value hbefore ih =>
    have hkeys := hbefore.nodup_keys
    rw [List.map_append, List.map_cons, List.nodup_middle, List.nodup_cons, ← List.map_append]
      at hkeys
    refine mem_iff_of_perm List.perm_middle hkeys.1 (fun e hname => ?_) e
    have hother : e ≠ (name, old) := fun he => hname (congrArg Prod.fst he)
    rw [← ih, List.perm_middle.mem_iff, List.mem_cons, or_iff_right hother]
  | added _ hnew hperm ih => exact mem_iff_of_perm hperm hnew (fun e _ => ih e) e

theorem perm (h : Listing settings table) : table.Perm (ofList settings).toList := by
  refine SortedMap.perm_entries h.nodup_keys.of_map fun e => ?_
  rw [h.mem_iff, SortedMap.get?_ofList]

end Listing

/-- There is always one of the two ways to set a name. -/
theorem exists_listing (settings : List (String × String)) : ∃ table, Listing settings table := by
  induction settings using List.reverseRecOn with
  | nil => exact ⟨[], .nothing⟩
  | append_singleton settings e ih =>
    obtain ⟨table, htable⟩ := ih
    by_cases hname : e.1 ∈ table.map Prod.fst
    · obtain ⟨⟨name, old⟩, hold, rfl⟩ := List.mem_map.1 hname
      obtain ⟨before, after, rfl⟩ := List.append_of_mem hold
      exact ⟨_, htable.overwritten⟩
    · exact ⟨_, htable.added hname (.refl _)⟩

/-! ### The view of a map -/

theorem mem_withStart {p : Properties} {start : String} {e : String × String} :
    e ∈ (p.withStart start).toList ↔ e ∈ p.toList ∧ ∃ rest, e.1 = start ++ rest := by
  unfold Properties.withStart SortedMap.filterKeys SortedMap.toList
  rw [List.mem_filter, List.isPrefixOf_iff_prefix]
  refine and_congr_right fun _ => ?_
  constructor
  · rintro ⟨rest, hrest⟩
    refine ⟨String.ofList rest, String.toList_inj.1 ?_⟩
    rw [String.toList_append, String.toList_ofList, hrest]
  · rintro ⟨rest, hrest⟩
    rw [hrest, String.toList_append]
    exact List.prefix_append _ _

/-- **Properties in the order of their names.**  After some settings each name has the value that it
was given last, and the size is the number of the distinct names.  The list holds exactly these pairs,
strictly increasing by the bytes of the names; a table that lists them in whatever order holds the same
pairs, and brought in the order of the names it is the same list.  The properties whose names start
with a text are those of the list, in its order.  Settings with the same last values, in whatever order
and with whatever values in between, cannot be told apart. -/
theorem ordered_view (settings : List (String × String)) :
    let p : Properties := ofList settings
    (∀ name, p.get? name = lastValue? settings name) ∧
      p.size = (settings.map Prod.fst).dedup.length ∧
      (∀ name value, (name, value) ∈ p.toList ↔ lastValue? settings name = some value) ∧
      (p.toList.Pairwise fun e e' => Text.bytes e.1 < Text.bytes e'.1) ∧
      (∃ table, Listing settings table) ∧
      (∀ table, Listing settings table → table.Perm p.toList ∧
        ∀ l : List (String × String), l.Perm table →
          (l.Pairwise fun e e' => Text.bytes e.1 ≤ Text.bytes e'.1) → l = p.toList) ∧
      (∀ start, (p.withStart start).toList.Sublist p.toList ∧
        ∀ e, e ∈ (p.withStart start).toList ↔ e ∈ p.toList ∧ ∃ rest, e.1 = start ++ rest) ∧
      ∀ settings', (∀ name, lastValue? settings' name = lastValue? settings name) →
        let p' : Properties := ofList settings'
        p'.toList = p.toList ∧
          (∀ start, (p'.withStart start).toList = (p.withStart start).toList) ∧
          ∀ selector, p'.css selector = p.css selector := by
  intro p
  have hget (name : String) : p.get? name = lastValue? settings name :=
    SortedMap.get?_ofList settings name
  refine ⟨hget, SortedMap.size_ofList settings, fun name value => ?_,
    p.sorted.imp Text.bytes_lt_bytes_of_lt, exists_listing settings, fun table htable => ?_,
    fun start => ?_, ?_⟩
  · rw [← hget]
    exact SortedMap.get?_eq_some_iff.symm
  · refine ⟨htable.perm, fun l hl hordered => ?_⟩
    exact SortedMap.eq_entries_of_ordered (hl.trans htable.perm) hordered
  · exact ⟨List.filter_sublist, fun e => mem_withStart⟩
  · intro settings' hlast p'
    have hsame : p' = p := SortedMap.ext_get? fun name => by
      rw [hget, ← hlast]
      exact SortedMap.get?_ofList settings' name
    rw [hsame]
    exact ⟨rfl, fun _ => rfl, fun _ => rfl⟩

/-- One name is set twice, another one starts with it, and a third one is not ASCII. -/
theorem ordered_view_overwritten :
    let settings := [("--b", "1"), ("--é", "2"), ("--b", "3"), ("--ba", "4")]
    let settings' := [("--ba", "4"), ("--b", "0"), ("--é", "2"), ("--b", "3")]
    let table := [("--é", "2"), ("--ba", "4"), ("--b", "3")]
    let p : Properties := ofList settings
    let p' : Properties := ofList settings'
    Listing settings table ∧ (∀ name, lastValue? settings' name = lastValue? settings name) ∧
      p.toList = [("--b", "3"), ("--ba", "4"), ("--é", "2")] ∧ p.size = 3 ∧
      p.get? "--b" = some "3" ∧ p.get? "--c" = none ∧
      p'.css ":root" = p.css ":root" := by
  intro settings settings' table p p'
  obtain ⟨hget, hsize, -, -, -, htable, -, hsame⟩ := ordered_view settings
  have hlisting : Listing settings table := by
    have hfirst : Listing [("--b", "1")] [("--b", "1")] := .added .nothing (by simp) (.refl _)
    have hsecond : Listing [("--b", "1"), ("--é", "2")] ([("--é", "2")] ++ ("--b", "1") :: []) :=
      hfirst.added (by decide) (.refl _)
    exact hsecond.overwritten.added (by decide) (.swap ..)
  have hlast (name : String) : lastValue? settings' name = lastValue? settings name := by
    by_cases hb : "--b" = name
    · subst hb
      rfl
    · by_cases hba : "--ba" = name
      · subst hba
        rfl
      · simp [settings, settings', lastValue?, hb, hba]
  obtain ⟨-, hordered⟩ := htable table hlisting
  refine ⟨hlisting, hlast, ?_, hsize, hget _, hget _, (hsame settings' hlast).2.2 ":root"⟩
  exact (hordered _ (by decide) (by decide)).symm

end Style

end ColorTheme
