import ColorTheme.Policy
import ColorTheme.Proofs.Json.Members
import ColorTheme.Proofs.Json.Values

/-!
# Reading policies

What a policy is read from an object with any members, in any order and with any blanks: every slot has
a key of its own, a member under another key is skipped, and a slot takes one value at most.
-/

namespace ColorTheme.Policy

open Json Json.Reader

/-! ### Keys -/

def roleKey : Role → String
  | .primary => "primaryColor"
  | .warn => "warnColor"
  | .background => "backgroundColor"
  | .text => "fontColor"

def keyOf (role : Role) : Mode → String
  | .light => roleKey role
  | .dark => roleKey role ++ "Dark"

theorem slotOf?_keyOf (role : Role) (mode : Mode) : slotOf? (keyOf role mode) = some (role, mode) := by
  cases role <;> cases mode <;> decide

/-- **A slot is found under its own key and no other.** -/
theorem slotOf?_eq_some_iff {key : String} {role : Role} {mode : Mode} :
    slotOf? key = some (role, mode) ↔ key = keyOf role mode := by
  refine ⟨fun h => ?_, fun h => h ▸ slotOf?_keyOf role mode⟩
  have hkeys : ∀ e ∈ keys, e.1 = keyOf e.2.1 e.2.2 := by decide
  obtain ⟨⟨key', slot⟩, hfind, rfl⟩ := Option.map_eq_some_iff.1 h
  have hkey : key' = key := by simpa using List.find?_some hfind
  rw [← hkey]
  exact hkeys _ (List.mem_of_find?_eq_some hfind)

theorem keyOf_injective {r role : Role} {m mode : Mode} (h : keyOf r m = keyOf role mode) :
    r = role ∧ m = mode := by
  have hslot := slotOf?_keyOf r m
  rw [h, slotOf?_keyOf, Option.some.injEq, Prod.mk.injEq] at hslot
  exact ⟨hslot.1.symm, hslot.2.symm⟩

/-! ### Members one after the other -/

/-- What a slot holds with one value more: a second one is too many. -/
def enterSlot : Option (Option String) → Meaning → Option (Option (Option String))
  | none, m => m.value?.map some
  | some _, _ => none

/-- What is found with one member more. -/
def enter (found : Found) (entry : String × Meaning) : Option Found :=
  match slotOf? entry.1 with
  | none => some found
  | some (role, mode) => (enterSlot (found.get role mode) entry.2).map (found.set role mode)

theorem enter_of_unknown {entry : String × Meaning} (h : slotOf? entry.1 = none) (found : Found) :
    enter found entry = some found := by rw [enter, h]

theorem enter_of_known {entry : String × Meaning} {role : Role} {mode : Mode}
    (h : slotOf? entry.1 = some (role, mode)) (found : Found) :
    enter found entry = (enterSlot (found.get role mode) entry.2).map (found.set role mode) := by
  rw [enter, h]

theorem member_append {m : Meaning} (key : String) {left before cs rest : List Char}
    (hcolon : colon left = .ok (before ++ (cs ++ rest))) (hbefore : Blanks before)
    (h : Form (.value m) cs) (hrest : Delimited rest) (found : Found) :
    (member found key left).toOption = (enter found (key, m)).map fun found => (found, rest) := by
  rw [member, enter]
  cases slotOf? key with
  | none =>
    have hskip := skipValue_of_form h hbefore hrest
    simp [hcolon, hskip, Except.toOption, pure, Except.pure]
  | some slot =>
    obtain ⟨role, mode⟩ := slot
    cases hfound : found.get role mode with
    | some value => simp [hfound, Except.toOption, enterSlot]
    | none =>
      have hread := textOrNull_append h hbefore rest
      simp only [hfound, hcolon, Except.ok_bind, Except.toOption_bind, hread, if_false,
        Bool.false_eq_true, Option.isSome_none, enterSlot]
      cases m.value? <;> rfl

theorem members_blanks {blanks : List Char} (h : Blanks blanks) (fuel : Nat) (first : Bool)
    (found : Found) (cs : List Char) :
    members fuel first found (blanks ++ cs) = members fuel first found cs := by
  cases fuel with
  | zero => rfl
  | succ fuel => rw [members, members, nextKey_blanks h]

/-- **One step of the reading.** -/
theorem members_step {entry : String × Meaning} {cs rest : List Char}
    (h : Form (.part .record entry) cs) (hrest : Delimited rest) (fuel : Nat) (first : Bool)
    (found : Found) :
    (members (fuel + 1) first found (separator first ++ (cs ++ rest))).toOption =
      (enter found entry).bind fun found => (members fuel false found rest).toOption := by
  cases h with
  | @part _ key m head before cs after hhead hbefore hvalue hafter =>
    obtain ⟨left, hkey, hcolon⟩ := nextKey_append hhead first (before ++ (cs ++ (after ++ rest)))
    have hmember := member_append key hcolon hbefore hvalue (hrest.of_blanks hafter) found
    simp only [List.append_assoc]
    rw [members, hkey, Except.ok_bind]
    change (member found key left >>= fun read => members fuel false read.1 read.2).toOption = _
    rw [Except.toOption_bind, hmember, Option.bind_map]
    simp only [Function.comp_def, members_blanks hafter]

theorem members_of_parts {entries : List (String × Meaning)} {cs : List Char}
    (h : Form (.parts .record entries) cs) {fuel : Nat} (hfuel : entries.length < fuel)
    (first : Bool) (found : Found) (rest : List Char) :
    (members fuel first found (separator first ++ (cs ++ '\x7d' :: rest))).toOption =
      (entries.foldlM enter found).map fun found => (found, rest) := by
  induction entries generalizing cs fuel first found with
  | nil => cases h
  | cons entry entries ih =>
    obtain ⟨fuel, rfl⟩ : ∃ n, fuel = n + 1 := ⟨fuel - 1, by omega⟩
    have hlength : entries.length < fuel := by simpa using hfuel
    rw [List.foldlM_cons, Option.bind_eq_bind, Option.map_bind]
    cases h with
    | single hpart =>
      -- One more step finds the bracket.
      obtain ⟨fuel, rfl⟩ : ∃ n, fuel = n + 1 := ⟨fuel - 1, by simp at hlength; omega⟩
      rw [members_step hpart ⟨_, rest, rfl, by decide⟩]
      rfl
    | @cons _ _ _ cs ds hpart hparts =>
      rw [List.append_assoc, List.cons_append,
        members_step hpart ⟨',', ds ++ '\x7d' :: rest, rfl, by decide⟩]
      exact congrArg _ (funext fun found => ih hparts hlength false found)

theorem members_of_content {entries : List (String × Meaning)} {cs : List Char}
    (h : Form (.content .record entries) cs) (found : Found) (rest : List Char) :
    (members ((cs ++ '\x7d' :: rest).length + 1) true found (cs ++ '\x7d' :: rest)).toOption =
      (entries.foldlM enter found).map fun found => (found, rest) := by
  cases h with
  | empty hblanks =>
    rw [members_blanks hblanks]
    rfl
  | filled hparts =>
    refine members_of_parts hparts ?_ true found rest
    have hlength := hparts.length_le
    rw [List.length_append]
    omega

/-- **A whole object is read member by member.** -/
theorem ofJson_eq_foldlM {entries : List (String × Meaning)} {s : String}
    (h : ObjectForm entries s.toList) :
    (ofJson s).toOption = (entries.foldlM enter (.fill none)).map ofFound := by
  generalize hs : s.toList = cs at h
  obtain @⟨before, cs, after, hbefore, hform, hafter⟩ := h
  have hstart : skipBlanks (before ++ '\x7b' :: (cs ++ '\x7d' :: after)) =
      '\x7b' :: (cs ++ '\x7d' :: after) := by
    rw [skipBlanks_append hbefore]
    rfl
  rw [ofJson, Reader.whole, hs, Policy.read, hstart]
  simp only [Except.toOption_bind, members_of_content hform (.fill none) after, bind_assoc]
  cases entries.foldlM enter (.fill none) with
  | none => rfl
  | some found => simp [finish_blanks hafter, Except.toOption, pure, Except.pure]

/-! ### Slots -/

/-- The values under the key of a slot. -/
def given (entries : List (String × Meaning)) (role : Role) (mode : Mode) : List Meaning :=
  (entries.filter fun entry => entry.1 = keyOf role mode).map (·.2)

theorem given_cons (entry : String × Meaning) (entries : List (String × Meaning)) (role : Role)
    (mode : Mode) :
    given (entry :: entries) role mode =
      if entry.1 = keyOf role mode then entry.2 :: given entries role mode
      else given entries role mode := by
  simp only [given, List.filter_cons, decide_eq_true_eq]
  split <;> rfl

/-- **Each slot is filled from the values under its key**, whatever stands between them. -/
theorem foldlM_enter_eq_some_iff {entries : List (String × Meaning)} {found found' : Found} :
    entries.foldlM enter found = some found' ↔ ∀ role mode,
      (given entries role mode).foldlM enterSlot (found.get role mode) =
        some (found'.get role mode) := by
  induction entries generalizing found with
  | nil =>
    simp only [List.foldlM_nil, given, List.filter_nil, List.map_nil, Option.pure_def,
      Option.some.injEq]
    exact ⟨fun h role mode => h ▸ rfl, Slots.ext_get⟩
  | cons entry entries ih =>
    simp only [List.foldlM_cons, given_cons]
    cases hslot : slotOf? entry.1 with
    | none =>
      have hunknown (role : Role) (mode : Mode) : entry.1 ≠ keyOf role mode := by
        intro hkey
        rw [hkey, slotOf?_keyOf] at hslot
        cases hslot
      simp only [enter_of_unknown hslot, hunknown, if_false]
      exact ih
    | some slot =>
      obtain ⟨role, mode⟩ := slot
      have hkey := slotOf?_eq_some_iff.1 hslot
      rw [enter_of_known hslot]
      cases hvalue : enterSlot (found.get role mode) entry.2 with
      | none =>
        refine iff_of_false (by simp) fun h => ?_
        have hnone := h role mode
        rw [if_pos hkey, List.foldlM_cons, hvalue] at hnone
        cases hnone
      | some value =>
        refine ih.trans (forall₂_congr fun r m => ?_)
        rw [Slots.get_set]
        split
        · next hsame =>
          obtain ⟨rfl, rfl⟩ := hsame
          rw [if_pos hkey, List.foldlM_cons, hvalue]
          rfl
        · next hother =>
          rw [if_neg fun h => hother (keyOf_injective (h.symm.trans hkey))]

theorem foldlM_enterSlot_iff {ms : List Meaning} {color : Option String} :
    (∃ value, ms.foldlM enterSlot none = some value ∧ value.getD none = color) ↔
      ms.length ≤ 1 ∧ .other ∉ ms ∧ ∀ t, color = some t ↔ .text t ∈ ms := by
  have hnull : none = color ↔ ∀ t, color ≠ some t :=
    eq_comm.trans Option.eq_none_iff_forall_ne_some
  have htext (s : String) : some s = color ↔ ∀ t, color = some t ↔ t = s := by
    rw [Option.ext_iff]
    simp [eq_comm, iff_comm]
  match ms with
  | [] => simpa using hnull
  | [.null] => simpa [enterSlot, Meaning.value?] using hnull
  | [.text s] => simpa [enterSlot, Meaning.value?] using htext s
  | [.other] => simp [enterSlot, Meaning.value?]
  | m :: m' :: ms =>
    have hnone : (m :: m' :: ms).foldlM enterSlot none = none := by
      cases m <;> rfl
    simp [hnone]

theorem get_ofFound (found : Found) (role : Role) (mode : Mode) :
    (ofFound found).colors.get role mode = (found.get role mode).getD none :=
  Slots.get_ofFn _ role mode

/-- **What is read is settled slot by slot.** -/
theorem ofJson_eq_ok_iff {entries : List (String × Meaning)} {s : String}
    (h : ObjectForm entries s.toList) {p : Policy} :
    ofJson s = .ok p ↔ ∀ role mode, (given entries role mode).length ≤ 1 ∧
      .other ∉ given entries role mode ∧
      ∀ t, p.colors.get role mode = some t ↔ .text t ∈ given entries role mode := by
  simp only [← foldlM_enterSlot_iff, ← Except.toOption_eq_some_iff, ofJson_eq_foldlM h,
    Option.map_eq_some_iff, foldlM_enter_eq_some_iff, Slots.get_fill]
  constructor
  · rintro ⟨found, hfound, rfl⟩ role mode
    exact ⟨found.get role mode, hfound role mode, (get_ofFound found role mode).symm⟩
  · intro hslots
    choose value hvalue hcolor using hslots
    refine ⟨.ofFn value, fun role mode => by rw [hvalue, Slots.get_ofFn], ?_⟩
    obtain ⟨colors⟩ := p
    refine congrArg Policy.mk (Slots.ext_get fun role mode => ?_)
    exact (get_ofFound _ role mode).trans (by rw [Slots.get_ofFn, hcolor])

/-- Every key of a slot occurs at most once. -/
def KnownOnce (entries : List (String × Meaning)) : Prop :=
  ∀ role mode, (given entries role mode).length ≤ 1

/-- The keys of the slots have texts and `null` as values. -/
def Readable (entries : List (String × Meaning)) : Prop :=
  ∀ role mode, .other ∉ given entries role mode

/-- The members under the keys of the slots. -/
def known (entries : List (String × Meaning)) : List (String × Meaning) :=
  entries.filter fun entry => entry.1 ∈ keys.map (·.1)

theorem given_known (entries : List (String × Meaning)) (role : Role) (mode : Mode) :
    given (known entries) role mode = given entries role mode := by
  have hmem : keyOf role mode ∈ keys.map (·.1) := by cases role <;> cases mode <;> decide
  rw [given, known, List.filter_filter]
  refine congrArg _ (List.filter_congr fun entry _ => ?_)
  by_cases hkey : entry.1 = keyOf role mode
  · simp [hkey, hmem]
  · simp [hkey]

theorem given_perm {entries entries' : List (String × Meaning)}
    (h : (known entries).Perm (known entries')) (role : Role) (mode : Mode) :
    (given entries role mode).Perm (given entries' role mode) := by
  rw [← given_known entries, ← given_known entries']
  exact (h.filter _).map _

/-- **Neither the order of the members nor the unknown ones matter.** -/
theorem ofJson_congr {entries entries' : List (String × Meaning)} {s s' : String}
    (hs : ObjectForm entries s.toList) (hs' : ObjectForm entries' s'.toList)
    (h : (known entries).Perm (known entries')) (p : Policy) :
    ofJson s = .ok p ↔ ofJson s' = .ok p := by
  rw [ofJson_eq_ok_iff hs, ofJson_eq_ok_iff hs']
  refine forall₂_congr fun role mode => ?_
  have hperm := given_perm h role mode
  simp only [hperm.length_eq, hperm.mem_iff]

theorem color_eq_iff {ms : List Meaning} {color : Option String} (honce : ms.length ≤ 1)
    (hreadable : .other ∉ ms) (hcolor : ∀ t, color = some t ↔ .text t ∈ ms) :
    (∀ t, color = some t ↔ ms = [.text t]) ∧ (color = none ↔ ms = [] ∨ ms = [.null]) := by
  rw [Option.eq_none_iff_forall_ne_some]
  match ms with
  | [] => simpa using hcolor
  | [.null] => simpa using hcolor
  | [.text s] =>
    have hs := (hcolor s).2 List.mem_cons_self
    simp [hs, eq_comm]
  | [.other] => exact absurd List.mem_cons_self hreadable

theorem exists_color {ms : List Meaning} (h : ms.length ≤ 1) :
    ∃ color, ∀ t, color = some t ↔ .text t ∈ ms := by
  match ms with
  | [] => exact ⟨none, by simp⟩
  | [.null] => exact ⟨none, by simp⟩
  | [.text s] => exact ⟨some s, by simp [eq_comm]⟩
  | [.other] => exact ⟨none, by simp⟩

theorem exists_ofJson_iff {entries : List (String × Meaning)} {s : String}
    (h : ObjectForm entries s.toList) :
    (∃ p, ofJson s = .ok p) ↔ KnownOnce entries ∧ Readable entries := by
  simp only [ofJson_eq_ok_iff h]
  constructor
  · rintro ⟨p, hp⟩
    exact ⟨fun role mode => (hp role mode).1, fun role mode => (hp role mode).2.1⟩
  · rintro ⟨honce, hreadable⟩
    choose color hcolor using fun role mode => exists_color (honce role mode)
    refine ⟨⟨.ofFn color⟩, fun role mode => ⟨honce role mode, hreadable role mode, ?_⟩⟩
    rw [Slots.get_ofFn]
    exact hcolor role mode

/-! ### Writing and reading back -/

def written (p : Policy) : List (String × Json) :=
  keys.map fun (key, role, mode) => (key, valueJson (p.colors.get role mode))

theorem given_written (p : Policy) (role : Role) (mode : Mode) :
    given (meanings (written p)) role mode = [(valueJson (p.colors.get role mode)).meaning] := by
  cases role <;> cases mode <;> rfl

theorem ofJson_written {p : Policy} {s : String} (h : ObjectForm (meanings (written p)) s.toList) :
    ofJson s = .ok p := by
  rw [ofJson_eq_ok_iff h]
  intro role mode
  rw [given_written]
  cases p.colors.get role mode with
  | none => simp [valueJson, meaning]
  | some s => simp [valueJson, meaning, eq_comm]

/-- **A policy is read back**, whether it is written without blanks or indented. -/
theorem ofJson_toJson (p : Policy) :
    ofJson p.toJson.compact = .ok p ∧ ofJson p.toJson.pretty = .ok p := by
  have hjson : p.toJson = .record (written p) := rfl
  rw [hjson]
  exact ⟨ofJson_written (writes_compact _).objectForm,
    ofJson_written (writes_prettyAt 0 _).objectForm⟩

/-! ### Objects of any members -/

/-- **Reading policies from objects.**  A policy is read back from what is written.  Of any object the
known members alone matter, in whatever order: a key that occurs twice is an error, and so is a value that
is neither a text nor `null`; a text is the color of its slot, and `null` is as good as no member. -/
theorem ofJson_object (p : Policy) {entries entries' : List (String × Meaning)} {s s' : String}
    (hs : ObjectForm entries s.toList) (hs' : ObjectForm entries' s'.toList) :
    (ofJson p.toJson.compact = .ok p ∧ ofJson p.toJson.pretty = .ok p) ∧
      (¬KnownOnce entries → ∃ fault, ofJson s = .error fault) ∧
      (KnownOnce entries → ((∃ q, ofJson s = .ok q) ↔ Readable entries)) ∧
      (∀ q, ofJson s = .ok q → ∀ role mode,
        (∀ t, q.colors.get role mode = some t ↔ given entries role mode = [.text t]) ∧
        (q.colors.get role mode = none ↔
          given entries role mode = [] ∨ given entries role mode = [.null])) ∧
      ((known entries).Perm (known entries') → ∀ q, ofJson s = .ok q ↔ ofJson s' = .ok q) := by
  have hread := exists_ofJson_iff hs
  refine ⟨ofJson_toJson p, fun htwice => ?_, fun honce => ?_, fun q hq role mode => ?_,
    ofJson_congr hs hs'⟩
  · cases hfault : ofJson s with
    | error fault => exact ⟨fault, rfl⟩
    | ok q => exact absurd (hread.1 ⟨q, hfault⟩).1 htwice
  · rw [hread, and_iff_right honce]
  · obtain ⟨honce, hreadable, hcolor⟩ := (ofJson_eq_ok_iff hs).1 hq role mode
    exact color_eq_iff honce hreadable hcolor

/-- A list under an unknown key, and the escape of a letter, change nothing. -/
theorem ofJson_object_fontColor :
    ObjectForm [("x", .other), ("fontColor", .text "A")]
        "\x7b\"x\":[0],\"fontColor\":\"\\u0041\"\x7d".toList ∧
      ObjectForm [("fontColor", .text "A")] " \x7b\"fontColor\" : \"A\"\x7d".toList ∧
      ∃ q, ofJson "\x7b\"x\":[0],\"fontColor\":\"\\u0041\"\x7d" = .ok q ∧
        ofJson " \x7b\"fontColor\" : \"A\"\x7d" = .ok q ∧
        q.colors.get .text .light = some "A" ∧ q.colors.get .text .dark = none := by
  have hblank : Blanks [' '] := by decide
  have hzero : Form (.value .other) ['0'] :=
    .number (@NumberForm.signed [] ['0'] [] [] 0 (.inl rfl) .zero .absent .absent)
  have hcontent : Form (.content .list [("", .other)]) ['0'] :=
    .filled (.single (.part .element blanks_nil hzero blanks_nil))
  have hletter : CharForm 'A' ['\\', 'u', '0', '0', '4', '1'] :=
    .code (.digits (m := 0) (n := 0) (p := 4) (q := 1) (by decide) (by decide) (by decide) (by decide))
  have hcode : Form (.value (.text "A")) ['"', '\\', 'u', '0', '0', '4', '1', '"'] :=
    .text (.quoted (s := "A") (.cons hletter .nil))
  have hplain : Form (.value (.text "A")) ['"', 'A', '"'] := .text (textForm_quoted "A")
  have hs : ObjectForm [("x", .other), ("fontColor", .text "A")]
      "\x7b\"x\":[0],\"fontColor\":\"\\u0041\"\x7d".toList :=
    .braced blanks_nil (.filled (.cons (form_member blanks_nil blanks_nil (.framed hcontent))
      (.single (form_member blanks_nil blanks_nil hcode)))) blanks_nil
  have hs' : ObjectForm [("fontColor", .text "A")] " \x7b\"fontColor\" : \"A\"\x7d".toList :=
    .braced hblank (.filled (.single (.part (.member blanks_nil (textForm_quoted "fontColor") hblank)
      hblank hplain blanks_nil))) blanks_nil
  have honce : KnownOnce [("x", .other), ("fontColor", .text "A")] := by
    rintro (_ | _ | _ | _) (_ | _) <;> decide
  have hreadable : Readable [("x", .other), ("fontColor", .text "A")] := by
    rintro (_ | _ | _ | _) (_ | _) <;> decide
  obtain ⟨-, -, hok, hcolors, hcongr⟩ := ofJson_object empty hs hs'
  obtain ⟨q, hq⟩ := (hok honce).2 hreadable
  refine ⟨hs, hs', q, hq, (hcongr (by decide) q).1 hq, ?_, ?_⟩
  · exact ((hcolors q hq .text .light).1 "A").2 (by decide)
  · exact (hcolors q hq .text .dark).2.2 (by decide)

end ColorTheme.Policy
