import Mathlib.Data.String.Basic
import TriggerChain.Proofs.Text.Utf8

/-!
# Texts and the order of their bytes

Texts are compared character by character. The bytes of a lower character are lower, whatever
follows them, so comparing the bytes of two texts comes to the same.

Main statement: `toUTF8_lt_iff`.
-/

namespace TriggerChain.Text

variable {xs ys : List UInt8}

/-! ## One byte -/

theorem cons_lt_of_byte_lt {a b : Nat} (hb : b < 256) (h : a < b) :
    UInt8.ofNat a :: xs < UInt8.ofNat b :: ys := by
  refine List.cons_lt_cons_iff.2 (.inl (UInt8.lt_iff_toNat_lt.2 ?_))
  rwa [toNat_ofNat_of_byte hb, toNat_ofNat_of_byte (Nat.lt_trans h hb)]

/-- Bytes that begin alike are compared by the first ones in which they may differ. -/
theorem cons_lt_of_byte_le {a b : Nat} (hb : b < 256) (hle : a ≤ b) (htail : a = b → xs < ys) :
    UInt8.ofNat a :: xs < UInt8.ofNat b :: ys := by
  rcases Nat.lt_or_eq_of_le hle with hlt | rfl
  · exact cons_lt_of_byte_lt hb hlt
  · exact List.cons_lt_cons_iff.2 (.inr ⟨rfl, htail rfl⟩)

/-! ## One character -/

/-- A character of fewer bytes begins with a lower byte; of characters with equally many, the first
    byte that differs belongs to the higher digit of the code point. -/
theorem utf8EncodeChar_append_lt {c d : Char} (h : c < d) (xs ys : List UInt8) :
    String.utf8EncodeChar c ++ xs < String.utf8EncodeChar d ++ ys := by
  have hlt : c.val.toNat < d.val.toNat := UInt32.lt_iff_toNat_lt.1 h
  have hvalid : d.toNat < 0xD800 ∨ 0xDFFF < d.toNat ∧ d.toNat < 0x110000 := d.valid
  change d.val.toNat < _ ∨ _ < d.val.toNat ∧ d.val.toNat < _ at hvalid
  unfold String.utf8EncodeChar
  dsimp only
  generalize c.val.toNat = v at *
  generalize d.val.toNat = w at *
  split
  · -- One byte against one or more.
    repeat' split
    all_goals exact cons_lt_of_byte_lt (by omega) (by omega)
  · rw [if_neg (show ¬ w ≤ 127 by omega)]
    split
    · -- Two bytes against two or more.
      split
      · exact cons_lt_of_byte_le (by omega) (by omega) fun _ =>
          cons_lt_of_byte_lt (by omega) (by omega)
      · split
        all_goals exact cons_lt_of_byte_lt (by omega) (by omega)
    · rw [if_neg (show ¬ w ≤ 2047 by omega)]
      split
      · -- Three bytes against three or four.
        split
        · exact cons_lt_of_byte_le (by omega) (by omega) fun _ =>
            cons_lt_of_byte_le (by omega) (by omega) fun _ =>
              cons_lt_of_byte_lt (by omega) (by omega)
        · exact cons_lt_of_byte_lt (by omega) (by omega)
      · rw [if_neg (show ¬ w ≤ 65535 by omega)]
        exact cons_lt_of_byte_le (by omega) (by omega) fun _ =>
          cons_lt_of_byte_le (by omega) (by omega) fun _ =>
            cons_lt_of_byte_le (by omega) (by omega) fun _ =>
              cons_lt_of_byte_lt (by omega) (by omega)

theorem utf8EncodeChar_ne_nil (c : Char) : String.utf8EncodeChar c ≠ [] := by
  unfold String.utf8EncodeChar
  dsimp only
  repeat' split
  all_goals exact List.cons_ne_nil _ _

/-! ## Texts -/

theorem flatMap_utf8EncodeChar_lt {cs ds : List Char} (h : cs < ds) :
    cs.flatMap String.utf8EncodeChar < ds.flatMap String.utf8EncodeChar := by
  induction h with
  | @nil d ds =>
    rw [List.flatMap_nil, List.flatMap_cons]
    obtain ⟨b, bs, hbytes⟩ := List.exists_cons_of_ne_nil (utf8EncodeChar_ne_nil d)
    rw [hbytes]
    exact .nil
  | rel h => exact utf8EncodeChar_append_lt h _ _
  | @cons c cs ds _ ih => exact List.Lex.append_left _ ih _

/-- One text is below another exactly if its bytes are. -/
theorem toUTF8_lt_iff (s t : String) : s.toUTF8.toList < t.toUTF8.toList ↔ s < t := by
  have hmono : ∀ {s t : String}, s < t → s.toUTF8.toList < t.toUTF8.toList := by
    intro s t h
    rw [toList_toUTF8, toList_toUTF8]
    exact flatMap_utf8EncodeChar_lt (String.lt_iff_toList_lt.1 h)
  refine ⟨fun h => ?_, hmono⟩
  rcases lt_trichotomy s t with hlt | rfl | hgt
  · exact hlt
  · exact (List.lt_irrefl _ h).elim
  · exact (List.lt_irrefl _ (List.lt_trans h (hmono hgt))).elim

end TriggerChain.Text
