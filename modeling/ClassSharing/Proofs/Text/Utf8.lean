import ClassSharing.Text.Utf8
import Mathlib

/-!
# Valid texts side by side

Characters are read left to right, and a character that has been found ends where it ends, whatever
comes behind it. So nothing is read across the border between two texts if the first one is valid.
An invalid text has no such border: its last byte may begin a character that the second text
continues.

## Main results

* `Utf8.firstChar?_append`: a character at the start of a byte string is found in every longer one
* `Text.isUtf8_append`, `Text.isUtf8_flatten`: valid texts one after another are a valid text
-/

namespace ClassSharing

namespace Utf8

/-- A scalar value is answered with the width that it was read from. -/
theorem width_of_scalar? {least value width count : Nat} {c : Char}
    (h : scalar? least value width = some (c, count)) : count = width := by
  rw [scalar?] at h
  split_ifs at h
  cases h
  rfl

/-- **A character is found whatever comes behind it**, and it takes at least one of the bytes at
hand and no other. -/
theorem firstChar?_append {front : Bytes} {c : Char} {width : Nat}
    (h : firstChar? front = some (c, width)) (back : Bytes) :
    firstChar? (front ++ back) = some (c, width) ∧ 1 ≤ width ∧ width ≤ front.length := by
  cases front with
  | nil => cases h
  | cons a rest =>
    -- the first byte says how many bytes are looked at, and they are all in front
    rw [List.cons_append]
    simp only [firstChar?] at h ⊢
    split_ifs at h ⊢ with hone hstray htwo hthree hfour
    · obtain rfl := width_of_scalar? h
      exact ⟨h, Nat.le_refl _, by simp⟩
    · match rest, h with
      | b :: rest, h =>
        simp only [List.cons_append] at h ⊢
        split_ifs at h ⊢ with hcontinued
        obtain rfl := width_of_scalar? h
        exact ⟨h, by omega, by simp⟩
    · match rest, h with
      | b :: d :: rest, h =>
        simp only [List.cons_append] at h ⊢
        split_ifs at h ⊢ with hcontinued
        obtain rfl := width_of_scalar? h
        exact ⟨h, by omega, by simp⟩
    · match rest, h with
      | b :: d :: e :: rest, h =>
        simp only [List.cons_append] at h ⊢
        split_ifs at h ⊢ with hcontinued
        obtain rfl := width_of_scalar? h
        exact ⟨h, by omega, by simp⟩

/-- If every byte of the front belongs to a character, then the glyphs of the whole are those of the
front and those of the back. -/
theorem glyphsAfter_append {front : Bytes} {skip : Nat} (hskip : skip ≤ front.length)
    (h : (glyphsAfter skip front).all fun g => g.char?.isSome) (back : Bytes) :
    glyphsAfter skip (front ++ back) = glyphsAfter skip front ++ glyphsAfter 0 back := by
  induction front generalizing skip with
  | nil =>
    obtain rfl := Nat.le_zero.1 hskip
    rfl
  | cons b rest ih =>
    rw [List.length_cons] at hskip
    cases skip with
    | succ skip => exact ih (by omega) h
    | zero =>
      rw [glyphsAfter] at h
      rw [List.cons_append, glyphsAfter, glyphsAfter]
      cases hfirst : firstChar? (b :: rest) with
      | none =>
        -- a stray byte in front was excluded
        rw [hfirst] at h
        cases h
      | some found =>
        obtain ⟨c, width⟩ := found
        obtain ⟨hwhole, hone, hwidth⟩ := firstChar?_append hfirst back
        rw [List.length_cons] at hwidth
        rw [List.cons_append] at hwhole
        rw [hfirst, List.all_cons, Bool.and_eq_true] at h
        simp only [hwhole, List.cons_append]
        rw [ih (by omega) h.2]

end Utf8

namespace Text

/-- **Valid texts side by side are a valid text.** -/
theorem isUtf8_append {front back : Bytes} (hfront : (Text.mk front).isUtf8 = true)
    (hback : (Text.mk back).isUtf8 = true) : (Text.mk (front ++ back)).isUtf8 = true := by
  rw [isUtf8, glyphs, Utf8.glyphs, Utf8.glyphsAfter_append (Nat.zero_le _) hfront, List.all_append]
  exact Bool.and_eq_true _ _ |>.mpr ⟨hfront, hback⟩

/-- A text in valid chunks is valid. -/
theorem isUtf8_flatten {chunks : List Bytes} (h : ∀ chunk ∈ chunks, (Text.mk chunk).isUtf8 = true) :
    (Text.mk chunks.flatten).isUtf8 = true := by
  induction chunks with
  | nil => rfl
  | cons first rest ih =>
    rw [List.flatten_cons]
    exact isUtf8_append (h first List.mem_cons_self)
      (ih fun chunk hchunk => h chunk (List.mem_cons_of_mem _ hchunk))

end Text

end ClassSharing
