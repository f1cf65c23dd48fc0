import Mathlib.Tactic.Common
import Mathlib.Order.Basic

/-! Texts as bytes: the order of texts is that of the bytes that they are stored as. -/

namespace QuickEntry.Text

/-- The bytes that a text is stored as. -/
def bytes (text : String) : List UInt8 := text.toByteArray.data.toList

/-- A text is stored one character after the other. -/
theorem bytes_eq (text : String) : bytes text = text.toList.flatMap String.utf8EncodeChar := by
  -- A text stores the encodings of its characters, one after the other.
  have stored : text.toByteArray = text.toList.utf8Encode := by
    rw [← String.toByteArray_ofList, String.ofList_toList]
  rw [bytes, stored, List.utf8Encode]
  simp

/-- Bytes compare like the numbers that they stand for. -/
theorem ofNat_lt_ofNat_iff {m n : Nat} (left : m < 256) (right : n < 256) :
    UInt8.ofNat m < UInt8.ofNat n ↔ m < n := by
  -- Neither number wraps around.
  rw [UInt8.lt_iff_toNat_lt, UInt8.toNat_ofNat_of_lt' left, UInt8.toNat_ofNat_of_lt' right]

/-- Bytes are equal like the numbers that they stand for. -/
theorem ofNat_eq_ofNat_iff {m n : Nat} (left : m < 256) (right : n < 256) :
    UInt8.ofNat m = UInt8.ofNat n ↔ m = n := by
  -- Neither number wraps around.
  rw [← UInt8.toNat_inj, UInt8.toNat_ofNat_of_lt' left, UInt8.toNat_ofNat_of_lt' right]

/-- A smaller character is stored before a larger one, whatever follows. -/
theorem utf8EncodeChar_lt {c d : Char} (less : c < d) (xs ys : List UInt8) :
    String.utf8EncodeChar c ++ xs < String.utf8EncodeChar d ++ ys := by
  -- The first byte grows with the number of bytes, and after it the digits to base 64 follow.
  have smaller : c.val.toNat < d.val.toNat := less
  have bounded : d.val.toNat < 0x110000 := by
    rcases d.valid with low | high
    · show d.val.toNat < 0x110000
      omega
    · exact high.2
  simp only [String.utf8EncodeChar]
  have thousands : ∀ n : Nat, n / 4096 = n / 64 / 64 := by omega
  have millions : ∀ n : Nat, n / 262144 = n / 64 / 64 / 64 := by omega
  generalize c.val.toNat = v at smaller ⊢
  generalize d.val.toNat = w at smaller bounded ⊢
  split_ifs
  all_goals
    simp (disch := omega) only [List.cons_append, List.nil_append, List.cons_lt_cons_iff,
      ofNat_lt_ofNat_iff, ofNat_eq_ofNat_iff, thousands, millions]
    omega

/-- A text that comes before another one is stored before it. -/
theorem bytes_lt_of_lt {a b : String} (before : a < b) : bytes a < bytes b := by
  -- The texts agree up to their first difference, or up to the end of one of them.
  have general : ∀ {xs ys : List Char}, List.Lex (· < ·) xs ys →
      xs.flatMap String.utf8EncodeChar < ys.flatMap String.utf8EncodeChar := by
    intro xs ys before
    induction before with
    | @nil c rest =>
      have stored : String.utf8EncodeChar c ≠ [] := String.utf8EncodeChar_ne_nil
      obtain ⟨byte, more, split⟩ := List.exists_cons_of_ne_nil stored
      rw [List.flatMap_nil, List.flatMap_cons, split, List.cons_append]
      exact List.nil_lt_cons _ _
    | rel less =>
      rw [List.flatMap_cons, List.flatMap_cons]
      exact utf8EncodeChar_lt less _ _
    | cons _ ih =>
      rw [List.flatMap_cons, List.flatMap_cons]
      exact List.append_left_lt ih
  rw [bytes_eq, bytes_eq]
  exact general before

/-- The order of texts is that of their bytes. -/
theorem bytes_lt_iff {a b : String} : bytes a < bytes b ↔ a < b := by
  -- Both orders are total, so it suffices that a text before another one is stored before it.
  constructor
  · intro stored
    by_contra late
    rcases eq_or_ne a b with same | other
    · rw [same] at stored
      exact List.lt_irrefl _ stored
    · -- A text that is not before another one, and is not the same, is behind it.
      have behind : b < a := by
        by_contra early
        exact other (String.le_antisymm (String.not_lt.mp early) (String.not_lt.mp late))
      exact List.lt_asymm stored (bytes_lt_of_lt behind)
  · exact bytes_lt_of_lt

end QuickEntry.Text
