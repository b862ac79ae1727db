/-
  CardEffects.Proofs.Text.ByteOrder

  The bytes of a text in UTF-8, and their order.  Where the encodings of two characters first
  differ, the character that comes first has the smaller byte: a longer encoding opens with a
  larger byte, and in encodings of one length the digits decide, the highest first.

    * `encodeChar_append_lt` — the encoding of a character comes before that of a later one,
      whatever follows the two.
    * `bytes_lt_bytes_iff` — texts have the order of their bytes.
-/
import Mathlib.Data.String.Basic
import Mathlib.Tactic.SplitIfs

namespace CardEffects.Text

/-- The bytes of a text in UTF-8. -/
def bytes (s : String) : List UInt8 := s.toUTF8.data.toList

theorem bytes_eq_flatMap (s : String) : bytes s = s.toList.flatMap String.utf8EncodeChar := by
  have hencode : s.toUTF8 = s.toList.utf8Encode := (String.utf8Encode_toList).symm
  rw [bytes, hencode, List.utf8Encode, List.data_toByteArray]

/-! ## One character -/

theorem ofNat_lt_ofNat_iff {m n : Nat} (hm : m < 256) (hn : n < 256) :
    UInt8.ofNat m < UInt8.ofNat n ↔ m < n := by
  rw [UInt8.lt_iff_toNat_lt, UInt8.toNat_ofNat', UInt8.toNat_ofNat']
  omega

theorem ofNat_eq_ofNat_iff {m n : Nat} (hm : m < 256) (hn : n < 256) :
    UInt8.ofNat m = UInt8.ofNat n ↔ m = n := by
  rw [← UInt8.toNat_inj, UInt8.toNat_ofNat', UInt8.toNat_ofNat']
  omega

/-- The encoding of a character comes before that of a later one, whatever follows the two. -/
theorem encodeChar_append_lt {c d : Char} (h : c < d) (x y : List UInt8) :
    String.utf8EncodeChar c ++ x < String.utf8EncodeChar d ++ y := by
  have hlt : c.val.toNat < d.val.toNat := h
  have hd : d.val.toNat < 0x110000 := by
    have hvalid := d.valid
    simp only [UInt32.isValidChar, Nat.isValidChar] at hvalid
    omega
  unfold String.utf8EncodeChar
  generalize c.val.toNat = m at hlt
  generalize d.val.toNat = n at hlt hd
  -- the digits to base 64, each from the one before
  have hdigit (k : Nat) : k / 4096 = k / 64 / 64 ∧ k / 262144 = k / 64 / 64 / 64 := by omega
  simp only [(hdigit m).1, (hdigit m).2, (hdigit n).1, (hdigit n).2]
  -- by the lengths of the two encodings; a longer one before a shorter one contradicts `hlt`
  split_ifs <;>
    simp (disch := omega) only [List.cons_append, List.nil_append, List.cons_lt_cons_iff,
      ofNat_lt_ofNat_iff, ofNat_eq_ofNat_iff] <;> omega

/-! ## Texts -/

theorem flatMap_encodeChar_lt {cs ds : List Char} (h : cs < ds) :
    cs.flatMap String.utf8EncodeChar < ds.flatMap String.utf8EncodeChar := by
  induction h with
  | @nil d ds =>
    cases hd : String.utf8EncodeChar d with
    | nil => exact absurd hd String.utf8EncodeChar_ne_nil
    | cons b rest => simp [hd]
  | @cons c cs ds _ ih =>
    rw [List.flatMap_cons, List.flatMap_cons]
    exact List.append_left_lt ih
  | @rel c cs d ds hcd =>
    rw [List.flatMap_cons, List.flatMap_cons]
    exact encodeChar_append_lt hcd _ _

/-- Texts have the order of their bytes. -/
theorem bytes_lt_bytes_iff (s t : String) : bytes s < bytes t ↔ s < t := by
  have mono {s t : String} (h : s < t) : bytes s < bytes t := by
    rw [bytes_eq_flatMap, bytes_eq_flatMap]
    exact flatMap_encodeChar_lt (String.lt_iff_toList_lt.1 h)
  refine ⟨fun h => ?_, mono⟩
  rcases lt_trichotomy s t with hlt | rfl | hgt
  · exact hlt
  · exact absurd h (List.lt_irrefl _)
  · exact absurd (mono hgt) (List.lt_asymm h)

example : bytes "é" < bytes "ﬁ" ∧ bytes "ﬁ" < bytes "😀" := by decide

end CardEffects.Text
