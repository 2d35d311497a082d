import Mathlib.Data.List.Basic
import Mathlib.Tactic.SplitIfs

/-!
# The order of texts by their bytes

Texts are ordered by the code points of their characters.  Their UTF-8 bytes are ordered in the same
way: two characters differ first in a byte that decides as the code points do, and none of them is
the beginning of another.
-/

namespace ColorTheme.Text

def bytes (s : String) : List UInt8 := s.toUTF8.data.toList

theorem bytes_eq (s : String) : bytes s = s.toList.flatMap String.utf8EncodeChar := by
  rw [bytes, String.toUTF8, ← String.utf8Encode_toList, List.utf8Encode]
  simp

/-! ### Two characters -/

/-- Where the lists differ first, the first one has the smaller byte. -/
inductive DiffersBelow : List UInt8 → List UInt8 → Prop where
  | head {x y : UInt8} (h : x < y) (xs ys : List UInt8) : DiffersBelow (x :: xs) (y :: ys)
  | tail (x : UInt8) {xs ys : List UInt8} (h : DiffersBelow xs ys) :
    DiffersBelow (x :: xs) (x :: ys)

theorem DiffersBelow.append_lt {xs ys : List UInt8} (h : DiffersBelow xs ys) (us vs : List UInt8) :
    xs ++ us < ys ++ vs := by
  induction h with
  | head h xs ys => exact List.cons_lt_cons_iff.2 (.inl h)
  | tail x _ ih => exact List.cons_lt_cons_iff.2 (.inr ⟨rfl, ih⟩)

theorem differsBelow_cons {m n : Nat} (hn : n < 256) (hle : m ≤ n) {xs ys : List UInt8}
    (hrest : m = n → DiffersBelow xs ys) :
    DiffersBelow (UInt8.ofNat m :: xs) (UInt8.ofNat n :: ys) := by
  rcases Nat.lt_or_eq_of_le hle with hlt | rfl
  · refine .head ?_ xs ys
    rw [UInt8.lt_iff_toNat_lt, UInt8.toNat_ofNat', UInt8.toNat_ofNat', Nat.mod_eq_of_lt hn,
      Nat.mod_eq_of_lt (Nat.lt_trans hlt hn)]
    exact hlt
  · exact .tail _ (hrest rfl)

/-- A character with a smaller code point has the smaller bytes. -/
theorem differsBelow_utf8EncodeChar {a b : Char} (h : a < b) :
    DiffersBelow (String.utf8EncodeChar a) (String.utf8EncodeChar b) := by
  have hlt : a.val.toNat < b.val.toNat := h
  have hb : b.val.toNat < 0x110000 := by
    have hvalid := b.valid
    simp only [UInt32.isValidChar, Nat.isValidChar] at hvalid
    omega
  unfold String.utf8EncodeChar
  dsimp only
  -- The first byte decides between characters of different lengths, the larger one being longer.
  split_ifs
  any_goals omega
  all_goals refine differsBelow_cons (by omega) (by omega) fun _ => ?_
  any_goals omega
  -- Characters of the same length differ in one of the bytes that follow.
  all_goals refine differsBelow_cons (by omega) (by omega) fun _ => ?_
  any_goals omega
  all_goals refine differsBelow_cons (by omega) (by omega) fun _ => ?_
  any_goals omega
  exact differsBelow_cons (by omega) (by omega) (by omega)

/-! ### Two texts -/

theorem bytes_lt_bytes_of_lt {s t : String} (h : s < t) : bytes s < bytes t := by
  have hlt : s.toList < t.toList := h
  rw [bytes_eq, bytes_eq]
  generalize s.toList = l at hlt
  generalize t.toList = m at hlt
  induction hlt with
  | @nil c cs =>
    obtain ⟨x, xs, hbytes⟩ := List.exists_cons_of_ne_nil (String.utf8EncodeChar_ne_nil (c := c))
    rw [List.flatMap_nil, List.flatMap_cons, hbytes]
    exact List.nil_lt_cons _ _
  | cons _ ih => exact List.append_left_lt ih
  | rel h => exact (differsBelow_utf8EncodeChar h).append_lt _ _

theorem le_of_bytes_le_bytes {s t : String} (h : bytes s ≤ bytes t) : s ≤ t :=
  fun hlt => h (bytes_lt_bytes_of_lt hlt)

end ColorTheme.Text
