import Pelagos.Library.JsonPrefix
import Pelagos.Library.Serde

/-!
# Lines of objects that were cut

A stream can end within a line that holds an object.  What has arrived is then the whole object, if
only the newline is missing, and holds no JSON text otherwise, however its ends are trimmed.
-/

namespace Json

open Serde

/-- More than the newline of the line is missing. -/
def Torn (line bytes : List UInt8) : Prop := bytes <+: line ∧ bytes.length + 1 < line.length

/-- The line of an object arrives torn, or without its newline, or whole. -/
theorem torn_or_whole {members : Members} {bytes : List UInt8}
    (isFront : bytes <+: Utf8.encode ((object members).toText ++ "\n")) :
    Torn (Utf8.encode ((object members).toText ++ "\n")) bytes ∨
      bytes = Utf8.encode (object members).toText ∨
      bytes = Utf8.encode ((object members).toText ++ "\n") := by
  have newline : Utf8.encode "\n" = [newline] := by decide
  by_cases short : bytes.length + 1 < (Utf8.encode ((object members).toText ++ "\n")).length
  · exact .inl ⟨isFront, short⟩
  · right
    rw [Utf8.encode_append, newline] at isFront short ⊢
    rw [List.length_append, List.length_singleton] at short
    rcases List.prefix_concat_iff.mp isFront with whole | within
    · exact .inr whole
    · exact .inl (within.eq_of_length_le (by omega))

theorem prefix_trimEndWhere (drops : Char → Bool) (text : String) :
    (Text.trimEndWhere drops text).toList <+: text.toList := by
  rw [Text.trimEndWhere, String.toList_ofList]
  exact List.rdropWhile_prefix _ _

/-- Nothing can be read of a torn line. -/
theorem fromText_torn {α : Type} (decoder : Decoder α) {members : Members} {bytes : List UInt8}
    (fits : (object members).Fits depthLimit)
    (torn : Torn (Utf8.encode ((object members).toText ++ "\n")) bytes) {text trimmed : String}
    (decoded : Utf8.decode bytes = some text) (trimmed_front : trimmed.toList <+: text.toList) :
    fromText decoder trimmed = .error .invalidText := by
  rw [fromText, parse_torn_line fits torn.1 torn.2 decoded trimmed_front]

/-- What is trimmed off the line of an object is at most its newline. -/
theorem trimEnd_whole {members : Members} {bytes : List UInt8}
    (whole : bytes = Utf8.encode (object members).toText ∨
      bytes = Utf8.encode ((object members).toText ++ "\n")) :
    ∃ text, Utf8.decode bytes = some text ∧ Text.trimEnd text = (object members).toText := by
  rcases whole with rfl | rfl
  · obtain ⟨front, ends⟩ := toText_object_ends members
    exact ⟨_, Utf8.decode_encode _, Text.trimEndWhere_keep (by decide) ends⟩
  · exact ⟨_, Utf8.decode_encode _,
      trimEndWhere_object_line (by decide) (by decide) members⟩

/-- Nothing is trimmed off the front of what arrives of the line of an object. -/
theorem trim_front {members : Members} {bytes : List UInt8} {text : String}
    (isFront : bytes <+: Utf8.encode ((object members).toText ++ "\n"))
    (decoded : Utf8.decode bytes = some text) : Text.trim text = Text.trimEnd text := by
  have text_front := Utf8.decode_prefix isFront decoded
  have visible : text.toList.dropWhile Text.isWhiteSpace = text.toList := by
    cases chars : text.toList with
    | nil => rfl
    | cons char tail =>
        obtain ⟨body, opens⟩ := toText_object_opens members
        rw [chars, String.toList_append, opens, List.cons_append] at text_front
        obtain ⟨rfl, -⟩ := List.cons_prefix_cons.mp text_front
        exact List.dropWhile_cons_of_neg (by decide)
  rw [Text.trim, visible, String.ofList_toList]

/-- What `read_line` and `trim` make of a line that was cut: the object, or nothing that can be
read. -/
theorem read_cut_line {α : Type} (decoder : Decoder α) {members : Members} {bytes : List UInt8}
    (fits : (object members).Fits depthLimit)
    (isFront : bytes <+: Utf8.encode ((object members).toText ++ "\n")) {text : String}
    (decoded : Utf8.decode bytes = some text) :
    fromText decoder (Text.trim text) = decoder (object members) ∨
      fromText decoder (Text.trim text) = .error .invalidText := by
  rw [trim_front isFront decoded]
  rcases torn_or_whole isFront with torn | whole
  · exact .inr (fromText_torn decoder fits torn decoded (prefix_trimEndWhere _ _))
  · obtain ⟨whole_text, whole_decoded, trimmed⟩ := trimEnd_whole whole
    obtain rfl := Option.some.inj (decoded.symm.trans whole_decoded)
    rw [trimmed, fromText, parse_toText fits]
    exact .inl rfl

end Json
