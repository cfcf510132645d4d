/-!
# The order of texts

Texts are ordered by the bytes of their UTF-8 form, a proper beginning first.
-/

namespace MeteredLedger.Text

/-- The UTF-8 bytes of a text. -/
def utf8 (s : String) : List UInt8 :=
  s.toByteArray.data.toList

theorem utf8_inj {s t : String} : utf8 s = utf8 t ↔ s = t := by
  simp [utf8, ← String.toByteArray_inj, ByteArray.ext_iff, Array.toList_inj]

/-- Byte order on texts. -/
def compareUtf8 (s t : String) : Ordering :=
  compare (utf8 s) (utf8 t)

theorem compareUtf8_eq_iff {s t : String} : compareUtf8 s t = .eq ↔ s = t := by
  rw [compareUtf8, Std.compare_eq_iff_eq, utf8_inj]

end MeteredLedger.Text
