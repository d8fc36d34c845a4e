import TypedVariant.Proofs.Pack.Agreement
import TypedVariant.Proofs.Text.Encoding

/-!
# Text in arrays of bytes

Text becomes a blob that ends in NUL. Whether it ends in one already is decided on its
bytes. So the NUL is added to all other text, and can be dropped again before the text is
decoded, exactly where no zero byte at the end is part of something else.
-/

namespace TypedVariant

theorem pack_bytes [Codecs] {settings : Settings} {x : Native} (hdepth : 1 ≤ settings.maxDepth) :
    pack settings (.text "ay") x = (byteBlob settings.textEncoding x).map .bytes := by
  refine (pack_text (.array (.basic (.integer .byte))) hdepth).trans ?_
  rw [Pack.packAs_array hdepth]
  rfl

theorem byteBlob_text [Codecs] {name : String} {encoding : Encoding} {text : String}
    {data : List UInt8} (hname : '\x00' ∉ name.toList)
    (hencoding : Codecs.find? name = some encoding.codec)
    (hdata : encoding.encode text.toList = .ok data) :
    byteBlob name (.text text) = .ok (if data.getLast? = some 0 then data else data ++ [0]) := by
  have hnul : ¬name.toList.contains '\x00' = true := by simpa using hname
  rw [byteBlob, encodeText, if_neg hnul, hencoding]
  dsimp only [Encoding.codec]
  rw [hdata]
  rfl

/-- Text that can be encoded makes a blob, and packs as it. Text that ends in NUL is unchanged. To
any other text one NUL is added, and the blob without its last byte is decoded to the text; this
fails for the texts whose bytes end in a zero for another reason, and only for these. -/
theorem text_blobs_end_in_nul [Codecs] {name : String} {encoding : Encoding} {text : String}
    {data : List UInt8} (hname : '\x00' ∉ name.toList)
    (hencoding : Codecs.find? name = some encoding.codec)
    (hdata : encoding.encode text.toList = .ok data) :
    ∃ blob, byteBlob name (.text text) = .ok blob ∧
      (∀ settings : Settings, settings.textEncoding = name → 1 ≤ settings.maxDepth →
        pack settings (.text "ay") (.text text) = .ok (.bytes blob)) ∧
      (text.toList.getLast? = some '\x00' → blob = data) ∧
      (text.toList.getLast? ≠ some '\x00' →
        (blob = data ++ [0] ∧ encoding.decode? blob.dropLast = some text.toList ↔
          encoding.hidesTerminator text.toList = false)) := by
  have hblob := byteBlob_text hname hencoding hdata
  have hzero := Encoding.getLast?_encode_eq_zero_iff hdata
  refine ⟨_, hblob, ?_, fun hends => if_pos (hzero.mpr (.inl hends)), fun hends => ?_⟩
  · rintro settings rfl hdepth
    rw [pack_bytes hdepth, hblob]
    rfl
  · simp only [hends, false_or] at hzero
    cases hhides : encoding.hidesTerminator text.toList with
    | true =>
        rw [if_pos (hzero.mpr hhides)]
        simp
    | false =>
        rw [if_neg (by simp [hzero, hhides]), List.dropLast_concat]
        simp [Encoding.decode?_of_encode hdata]

section

open scoped Standard

theorem text_blobs_end_in_nul_utf16 :
    '\x00' ∉ "utf-16".toList ∧ Codecs.find? "utf-16" = some Encoding.utf16.codec ∧
      Encoding.encode .utf16 "\u0100".toList = .ok [255, 254, 0, 1] ∧
      ∃ blob, byteBlob "utf-16" (.text "\u0100") = .ok blob ∧ blob = [255, 254, 0, 1] ++ [0] ∧
        Encoding.decode? .utf16 blob.dropLast = some "\u0100".toList := by
  have hname : '\x00' ∉ "utf-16".toList := by decide
  have hencoding : Codecs.find? "utf-16" = some Encoding.utf16.codec :=
    Codecs.find?_of_nameKey (by decide +kernel)
  have hdata : Encoding.encode .utf16 "\u0100".toList = .ok [255, 254, 0, 1] := by rfl
  obtain ⟨blob, hblob, -, -, hadded⟩ := text_blobs_end_in_nul hname hencoding hdata
  exact ⟨hname, hencoding, hdata, blob, hblob, (hadded (by decide)).mpr (by decide)⟩

/-- The little-endian bytes of "a" in units of 16 bits end in a zero. No NUL is added, and without
the last byte there is half a unit. -/
theorem text_blob_lacks_nul :
    "a".toList.getLast? ≠ some '\x00' ∧ Codecs.find? "utf-16-le" = some Encoding.utf16le.codec ∧
      Encoding.encode .utf16le "a".toList = .ok [97, 0] ∧
      byteBlob "utf-16-le" (.text "a") = .ok [97, 0] ∧
      Encoding.decode? .utf16le [97, 0].dropLast = none := by
  have hname : '\x00' ∉ "utf-16-le".toList := by decide
  have hencoding : Codecs.find? "utf-16-le" = some Encoding.utf16le.codec :=
    Codecs.find?_of_nameKey (by decide +kernel)
  have hdata : Encoding.encode .utf16le "a".toList = .ok [97, 0] := by rfl
  exact ⟨by decide, hencoding, hdata, byteBlob_text hname hencoding hdata, rfl⟩

end

end TypedVariant
