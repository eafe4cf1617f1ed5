import Transcription.Proofs.Literal.Texts
import Transcription.Proofs.Text.Offset

/-!
# Character boundaries

A text is cut at an offset in bytes, and both parts are texts only when the offset lies between two
characters or at an end. `slice?` takes the part of a text between two offsets; it fails when they
come in the wrong order, lie beyond the end, or cut a character.

In UTF-8 the first byte of a character is never a later byte of another one. Where the bytes of a
word occur in a text, they therefore begin and end at boundaries, and to look for them is to look
for the characters of the word.
-/

namespace Transcription.Text

variable {text word : String} {q : Nat}

/-- An offset lies between two characters of a text or at one of its ends. -/
def IsBoundary (text : String) (q : Nat) : Prop :=
  (String.Pos.Raw.mk q).IsValid text

instance (text : String) : DecidablePred (IsBoundary text) :=
  fun q => inferInstanceAs (Decidable ((String.Pos.Raw.mk q).IsValid text))

theorem isBoundary_iff :
    IsBoundary text q ↔
      ∃ before after, text.toList = before ++ after ∧ String.utf8Len before = q := by
  rw [IsBoundary, String.Pos.Raw.isValid_iff_exists_append]
  constructor
  · rintro ⟨u, v, rfl, hq⟩
    refine ⟨u.toList, v.toList, String.toList_append, ?_⟩
    rw [String.utf8Len_toList]
    exact (congrArg String.Pos.Raw.byteIdx hq).symm
  · rintro ⟨before, after, htext, rfl⟩
    refine ⟨String.ofList before, String.ofList after, ?_, ?_⟩
    · rw [← String.ofList_append, ← htext, String.ofList_toList]
    · rw [String.rawEndPos, ← String.utf8Len_toList, String.toList_ofList]

/-- Behind every beginning of a text there is a boundary. -/
theorem isBoundary_utf8Len {before after : List Char} (h : text.toList = before ++ after) :
    IsBoundary text (String.utf8Len before) :=
  isBoundary_iff.mpr ⟨before, after, h, rfl⟩

theorem IsBoundary.le (h : IsBoundary text q) : q ≤ text.utf8ByteSize :=
  String.Pos.Raw.IsValid.le_utf8ByteSize h

theorem isBoundary_zero (text : String) : IsBoundary text 0 :=
  String.Pos.Raw.isValid_zero

theorem isBoundary_utf8ByteSize (text : String) : IsBoundary text text.utf8ByteSize :=
  String.Pos.Raw.isValid_rawEndPos

/-- The part of a text between two offsets, if they come in order and cut no character. -/
def slice? (text : String) (start stop : Nat) : Option String :=
  if start ≤ stop ∧ IsBoundary text start ∧ IsBoundary text stop then
    some ((Span.mk start stop).text text)
  else
    none

/-- Between two boundaries there is a part of the text. -/
theorem isSome_slice? {start stop : Nat} (hle : start ≤ stop) (hstart : IsBoundary text start)
    (hstop : IsBoundary text stop) : (slice? text start stop).isSome := by
  rw [slice?, if_pos ⟨hle, hstart, hstop⟩]
  rfl

theorem slice?_eq_some {pre mid post : List Char} (h : text.toList = pre ++ mid ++ post) :
    slice? text (String.utf8Len pre) (String.utf8Len (pre ++ mid)) = some (String.ofList mid) := by
  have hstart : IsBoundary text (String.utf8Len pre) :=
    isBoundary_utf8Len (h.trans (List.append_assoc pre mid post))
  have hle : String.utf8Len pre ≤ String.utf8Len (pre ++ mid) := by
    rw [String.utf8Len_append]
    omega
  rw [slice?, if_pos ⟨hle, hstart, isBoundary_utf8Len h⟩, Span.text_eq h]

/-- What stands before a cut. -/
theorem slice?_before {before after : List Char} (h : text.toList = before ++ after) :
    slice? text 0 (String.utf8Len before) = some (String.ofList before) := by
  have hall : text.toList = [] ++ before ++ after := h
  exact slice?_eq_some hall

/-- What stands behind a cut. -/
theorem slice?_behind {before after : List Char} (h : text.toList = before ++ after) :
    slice? text (String.utf8Len before) text.utf8ByteSize = some (String.ofList after) := by
  have hall : text.toList = before ++ after ++ [] := by rw [List.append_nil, h]
  rw [← String.utf8Len_toList, h]
  exact slice?_eq_some hall

/-- The bytes of a word stand at an offset of a text. -/
def OccursAt (text word : String) (q : Nat) : Prop :=
  text.toByteArray.extract q (q + word.utf8ByteSize) = word.toByteArray

instance (text word : String) : DecidablePred (OccursAt text word) :=
  fun q => inferInstanceAs (Decidable (text.toByteArray.extract q _ = word.toByteArray))

/-- Bytes that stand at an offset lie within the text. -/
theorem OccursAt.add_le (h : OccursAt text word q) (hne : word ≠ "") :
    q + word.utf8ByteSize ≤ text.utf8ByteSize := by
  have hpos : word.utf8ByteSize ≠ 0 := fun hzero => hne (String.utf8ByteSize_eq_zero_iff.mp hzero)
  have hsize := congrArg ByteArray.size h
  rw [ByteArray.size_extract, String.size_toByteArray, String.size_toByteArray] at hsize
  omega

/-- The bytes of a word begin and end at boundaries wherever they occur. -/
theorem OccursAt.isBoundary (h : OccursAt text word q) (hne : word ≠ "") :
    IsBoundary text q ∧ IsBoundary text (q + word.utf8ByteSize) := by
  have hpos : word.utf8ByteSize ≠ 0 := fun hzero => hne (String.utf8ByteSize_eq_zero_iff.mp hzero)
  have hvalid : (text.toByteArray.extract q (q + word.utf8ByteSize)).IsValidUTF8 := by
    rw [h]
    exact word.isValidUTF8
  rcases (String.Pos.Raw.isValidUTF8_extract_iff ⟨q⟩ ⟨q + word.utf8ByteSize⟩
    (Nat.le_add_right _ _) (h.add_le hne)).mp hvalid with heq | hboth
  · have := congrArg String.Pos.Raw.byteIdx heq
    simp only at this
    omega
  · exact hboth

/-- The bytes between two cuts of a text are those of the characters between them. -/
theorem extract_toByteArray_eq {before mid after : List Char}
    (h : text.toList = before ++ mid ++ after) :
    text.toByteArray.extract (String.utf8Len before) (String.utf8Len before + String.utf8Len mid) =
      (String.ofList mid).toByteArray := by
  have hsize (cs : List Char) : (String.ofList cs).toByteArray.size = String.utf8Len cs := by
    rw [String.size_toByteArray, ← String.utf8Len_toList, String.toList_ofList]
  have hbytes : text.toByteArray = (String.ofList before).toByteArray ++
      ((String.ofList mid).toByteArray ++ (String.ofList after).toByteArray) := by
    rw [← String.toByteArray_append, ← String.toByteArray_append, ← String.ofList_append,
      ← String.ofList_append, ← List.append_assoc, ← h, String.ofList_toList]
  rw [hbytes, ← Nat.add_zero (String.utf8Len before), Nat.add_assoc, Nat.zero_add,
    ByteArray.extract_append_size_add' (hsize before).symm,
    ByteArray.extract_append_eq_left (hsize mid).symm]

/-- The bytes of a word occur where its characters do. -/
theorem occursAt_iff (hne : word ≠ "") :
    OccursAt text word q ↔
      ∃ before after, text.toList = before ++ word.toList ++ after ∧
        String.utf8Len before = q := by
  constructor
  · intro h
    obtain ⟨hstart, hstop⟩ := h.isBoundary hne
    obtain ⟨before, rest, htext, rfl⟩ := isBoundary_iff.mp hstart
    obtain ⟨through, after, htext', hlen⟩ := isBoundary_iff.mp hstop
    obtain ⟨mid, rfl⟩ := isPrefix_of_utf8Len_le (htext.symm.trans htext') (by omega)
    rw [String.utf8Len_append] at hlen
    have hword : String.ofList mid = word := by
      rw [← String.toByteArray_inj, ← extract_toByteArray_eq htext', hlen]
      exact h
    refine ⟨before, after, ?_, rfl⟩
    rw [← hword, String.toList_ofList]
    exact htext'
  · rintro ⟨before, after, htext, rfl⟩
    have hbytes := extract_toByteArray_eq htext
    rwa [String.utf8Len_toList, String.ofList_toList] at hbytes

/-- The bytes of a word begin a text when its characters do. -/
theorem occursAt_zero_iff (hne : word ≠ "") :
    OccursAt text word 0 ↔ word.toList <+: text.toList := by
  rw [occursAt_iff hne]
  constructor
  · rintro ⟨before, after, htext, hzero⟩
    obtain rfl := String.utf8Len_eq_zero.mp hzero
    exact ⟨after, htext.symm⟩
  · rintro ⟨after, htext⟩
    exact ⟨[], after, htext.symm, rfl⟩

end Transcription.Text
