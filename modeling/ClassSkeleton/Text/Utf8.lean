import ClassSkeleton.Text.Basic

/-!
The UTF-8 form of a text: as many bytes as the text is wide, from which the text can be read back
(`ofUtf8?_utf8`). Not every list of bytes is the form of a text.
-/
namespace ClassSkeleton.Text

def utf8 (text : Text) : List UInt8 := text.flatMap String.utf8EncodeChar

def ofUtf8? (bytes : List UInt8) : Option Text :=
  (String.fromUTF8? bytes.toByteArray).map (·.toList)

theorem length_utf8 (text : Text) : (utf8 text).length = width text := by
  induction text with
  | nil => rfl
  | cons c rest ih =>
    simp only [utf8, List.flatMap_cons, List.length_append, width_cons] at ih ⊢
    rw [ih, String.length_utf8EncodeChar]

theorem ofUtf8?_utf8 (text : Text) : ofUtf8? (utf8 text) = some text := by
  have hform : (utf8 text).toByteArray = (String.ofList text).toByteArray :=
    String.toByteArray_ofList.symm
  have hread : String.fromUTF8? (String.ofList text).toByteArray = some (String.ofList text) :=
    dif_pos (String.ofList text).isValidUTF8
  rw [ofUtf8?, hform, hread, Option.map_some, String.toList_ofList]

end ClassSkeleton.Text
