import Mathlib.Data.List.Induction
import ExecutionTrace.RevertReason

/-! The payloads that carry a reason, as a grammar: what stands where, told by concatenation, where
the reader follows offsets and cuts pieces out. The reader finds the reason of exactly those
payloads, and the standard encoding of a text is one of them. -/
namespace ExecutionTrace

/-- A byte string is determined by its length and the number it writes. -/
private theorem Bytes.ofNat_toNat (bytes : Bytes) : ofNat bytes.length (toNat bytes) = bytes := by
  induction bytes using List.reverseRecOn with
  | nil => rfl
  | append_singleton bytes b ih =>
    have hb := b.toNat_lt
    have hquotient : (256 * toNat bytes + b.toNat) / 256 = toNat bytes := by omega
    have hdigit : UInt8.ofNat (256 * toNat bytes + b.toNat) = b := by
      apply UInt8.toNat_inj.mp
      rw [UInt8.toNat_ofNat']
      omega
    rw [List.length_append, List.length_singleton, ofNat, toNat_append_singleton, hquotient, ih,
      hdigit]

private theorem Bytes.toNat_lt (bytes : Bytes) : toNat bytes < Nat.pow 256 bytes.length := by
  have hvalue := toNat_ofNat bytes.length (toNat bytes)
  rw [ofNat_toNat] at hvalue
  rw [hvalue]
  exact Nat.mod_lt _ (Nat.pow_pos (by decide))

namespace RevertReason

def utf8 (text : String) : Bytes := text.toUTF8.data.toList

/-- A body that carries a text. Its first word is the number of bytes before a second word, which is
the number of bytes of the text, and the text follows in UTF-8. The second word may overlap the
first, and any bytes may follow the text. -/
structure TextBody (body : Bytes) (text : String) : Prop where
  long : 64 ≤ body.length
  size : (utf8 text).length < UInt32.size
  placed : ∃ before after : Bytes, before.length < UInt32.size ∧
    body.take 32 = Bytes.ofNat 32 before.length ∧
    body = before ++ (Bytes.ofNat 32 (utf8 text).length ++ (utf8 text ++ after))

/-- The payloads that carry a reason: a text, or a code in a word of its own before any bytes. -/
inductive Standard : Bytes → String → Prop
  | text {body : Bytes} {text : String} (h : TextBody body text) :
      Standard (textSelector ++ body) text
  | panic (code : Word) (after : Bytes) :
      Standard (panicSelector ++ (code.toBytes ++ after)) (panicText code.toNat)

/-- The standard payload of a text, which is filled up with zeros to whole words. -/
def ofText (text : String) : Bytes :=
  textSelector ++ (Bytes.ofNat 32 32 ++ (Bytes.ofNat 32 (utf8 text).length ++
    (utf8 text ++ List.replicate ((32 - (utf8 text).length % 32) % 32) 0)))

/-! ### Reading a word and a text -/

private theorem fromUTF8?_eq_some_iff {bytes : Bytes} {text : String} :
    String.fromUTF8? ⟨bytes.toArray⟩ = some text ↔ bytes = utf8 text := by
  unfold String.fromUTF8? utf8
  constructor
  · intro h
    split at h
    · cases h
      rfl
    · cases h
  · rintro rfl
    have hvalid : (⟨text.toUTF8.data.toList.toArray⟩ : ByteArray).IsValidUTF8 := text.isValidUTF8
    rw [dif_pos hvalid]
    rfl

/-- A number below 2^32 is read exactly where the 32 bytes that write it stand. -/
private theorem lengthAt_eq_some_iff {body : Bytes} {start n : Nat} :
    lengthAt body start = some n ↔
      start + 32 ≤ body.length ∧ (body.drop start).take 32 = Bytes.ofNat 32 n ∧
        n < UInt32.size := by
  unfold lengthAt
  by_cases hshort : body.length < start + 32
  · rw [if_pos hshort]
    constructor
    · intro h
      cases h
    · rintro ⟨hinside, _⟩
      omega
  · have hword : ((body.drop start).take 32).length = 32 := by
      rw [List.length_take, List.length_drop]
      omega
    rw [if_neg hshort]
    dsimp only
    constructor
    · intro h
      split at h
      · next hn =>
        obtain rfl := Option.some.inj h
        have hsame := Bytes.ofNat_toNat ((body.drop start).take 32)
        rw [hword] at hsame
        exact ⟨Nat.le_of_not_lt hshort, hsame.symm, hn⟩
      · cases h
    · rintro ⟨_, hsame, hn⟩
      have hvalue : Bytes.toNat ((body.drop start).take 32) = n := by
        rw [hsame, Bytes.toNat_ofNat]
        exact Nat.mod_eq_of_lt (Nat.lt_trans hn (by decide))
      rw [hvalue, if_pos hn]

/-- No offset or length that is read leads out of the range of a 64-bit machine. -/
private theorem end_lt_of_lengthAt {body : Bytes} {start offset length : Nat}
    (hoffset : lengthAt body start = some offset) (hlength : lengthAt body offset = some length) :
    offset + 32 + length < UInt64.size := by
  have hoffset := (lengthAt_eq_some_iff.mp hoffset).2.2
  have hlength := (lengthAt_eq_some_iff.mp hlength).2.2
  simp only [UInt32.size] at hoffset hlength
  simp only [UInt64.size]
  omega

/-! ### Bodies -/

/-- The text of a body that has one, by positions. -/
private theorem textOf_eq_some_iff_slices {body : Bytes} {text : String} :
    textOf body = some text ↔ 64 ≤ body.length ∧ ∃ offset length,
      lengthAt body 0 = some offset ∧ lengthAt body offset = some length ∧
        offset + 32 + length ≤ body.length ∧
        (body.drop (offset + 32)).take length = utf8 text := by
  simp [textOf, Option.bind_eq_some_iff, fromUTF8?_eq_some_iff]

private theorem textOf_eq_some_iff {body : Bytes} {text : String} :
    textOf body = some text ↔ TextBody body text := by
  rw [textOf_eq_some_iff_slices]
  constructor
  · rintro ⟨hlong, offset, length, hoffset, hlength, hend, htext⟩
    obtain ⟨_, hfirst, hoffset⟩ := lengthAt_eq_some_iff.mp hoffset
    obtain ⟨_, hsecond, hlength⟩ := lengthAt_eq_some_iff.mp hlength
    have hbefore : (body.take offset).length = offset := by
      rw [List.length_take]
      omega
    have hsize : (utf8 text).length = length := by
      rw [← htext, List.length_take, List.length_drop]
      omega
    refine ⟨hlong, hsize ▸ hlength, body.take offset, (body.drop (offset + 32)).drop length,
      by rwa [hbefore], by rwa [hbefore], ?_⟩
    rw [hsize, ← hsecond, ← htext, List.take_append_drop, ← List.drop_drop,
      List.take_append_drop, List.take_append_drop]
  · rintro ⟨hlong, hsize, before, after, hbefore, hfirst, rfl⟩
    have hfirst : lengthAt (before ++ (Bytes.ofNat 32 (utf8 text).length ++
        (utf8 text ++ after))) 0 = some before.length :=
      lengthAt_eq_some_iff.mpr ⟨by omega, hfirst, hbefore⟩
    have hsecond : lengthAt (before ++ (Bytes.ofNat 32 (utf8 text).length ++
        (utf8 text ++ after))) before.length = some (utf8 text).length := by
      refine lengthAt_eq_some_iff.mpr ⟨?_, ?_, hsize⟩
      · simp only [List.length_append, Bytes.length_ofNat]
        omega
      · rw [List.drop_left, List.take_left' (Bytes.length_ofNat _ _)]
    refine ⟨hlong, before.length, (utf8 text).length, hfirst, hsecond, ?_, ?_⟩
    · simp only [List.length_append, Bytes.length_ofNat]
      omega
    · rw [← List.drop_drop, List.drop_left, List.drop_left' (Bytes.length_ofNat _ _),
        List.take_left]

private theorem panicOf_eq_some_iff {body : Bytes} {reason : String} :
    panicOf body = some reason ↔ ∃ (code : Word) (after : Bytes),
      body = code.toBytes ++ after ∧ reason = panicText code.toNat := by
  unfold panicOf
  constructor
  · intro h
    split at h
    · cases h
    · next hlong =>
      obtain rfl := Option.some.inj h
      have hword : (body.take 32).length = 32 := by
        rw [List.length_take]
        omega
      have hvalue : (Word.ofBytes (body.take 32)).toNat = Bytes.toNat (body.take 32) := by
        have hlt := Bytes.toNat_lt (body.take 32)
        rw [hword] at hlt
        rw [Word.ofBytes, BitVec.toNat_ofNat]
        exact Nat.mod_eq_of_lt hlt
      have hbytes : (Word.ofBytes (body.take 32)).toBytes = body.take 32 := by
        have hsame := Bytes.ofNat_toNat (body.take 32)
        rwa [hword, ← hvalue] at hsame
      refine ⟨Word.ofBytes (body.take 32), body.drop 32, ?_, by rw [hvalue]⟩
      rw [hbytes, List.take_append_drop]
  · rintro ⟨code, after, hbody, hreason⟩
    have hlong : ¬(code.toBytes ++ after).length < 32 := by
      rw [List.length_append, Word.length_toBytes]
      omega
    have hcode : Bytes.toNat code.toBytes = code.toNat := by
      rw [Word.toBytes, Bytes.toNat_ofNat]
      exact Nat.mod_eq_of_lt code.isLt
    rw [hbody, hreason, if_neg hlong, List.take_left' (Word.length_toBytes code), hcode]

/-! ### Payloads -/

private theorem standard?_text (body : Bytes) : standard? (textSelector ++ body) = textOf body := by
  have htake : (textSelector ++ body).take 4 = textSelector := List.take_left' rfl
  have hdrop : (textSelector ++ body).drop 4 = body := List.drop_left' rfl
  rw [standard?, htake, hdrop, if_pos rfl]

private theorem standard?_panic (body : Bytes) :
    standard? (panicSelector ++ body) = panicOf body := by
  have htake : (panicSelector ++ body).take 4 = panicSelector := List.take_left' rfl
  have hdrop : (panicSelector ++ body).drop 4 = body := List.drop_left' rfl
  have hother : panicSelector ≠ textSelector := by decide
  rw [standard?, htake, hdrop, if_neg hother, if_pos rfl]

private theorem standard?_eq_some_iff {data : Bytes} {reason : String} :
    standard? data = some reason ↔ Standard data reason := by
  constructor
  · intro h
    have hsplit : data = data.take 4 ++ data.drop 4 := (List.take_append_drop 4 data).symm
    unfold standard? at h
    split at h
    · next hselector =>
      rw [hsplit, hselector]
      exact .text (textOf_eq_some_iff.mp h)
    · split at h
      · next hselector =>
        obtain ⟨code, after, hbody, rfl⟩ := panicOf_eq_some_iff.mp h
        rw [hsplit, hselector, hbody]
        exact .panic code after
      · cases h
  · rintro (⟨h⟩ | ⟨code, after⟩)
    · rw [standard?_text]
      exact textOf_eq_some_iff.mpr h
    · rw [standard?_panic]
      exact panicOf_eq_some_iff.mpr ⟨code, after, rfl, rfl⟩

theorem decode_eq_none_iff {data : Bytes} : decode data = none ↔ data = [] := by
  unfold decode
  split <;> simp_all

private theorem decode_of_ne_nil {data : Bytes} (h : data ≠ []) :
    decode data = some ((standard? data).getD (Hex.ofBytes data)) := if_neg h

private theorem Standard.ne_nil {data : Bytes} {reason : String} (h : Standard data reason) :
    data ≠ [] := by
  rintro rfl
  cases standard?_eq_some_iff.mpr h

private theorem length_utf8 (text : String) : (utf8 text).length = text.utf8ByteSize := by
  rw [utf8, Array.length_toList]
  rfl

/-- Whatever follows the standard payload of a text, the text is read back. -/
private theorem standard_ofText {text : String} (h : text.utf8ByteSize < UInt32.size)
    (after : Bytes) : Standard (ofText text ++ after) text := by
  simp only [ofText, List.append_assoc]
  refine .text ⟨?_, by rwa [length_utf8], Bytes.ofNat 32 32, _, ?_, ?_, rfl⟩
  · simp only [List.length_append, Bytes.length_ofNat]
    omega
  · rw [Bytes.length_ofNat]
    decide
  · rw [Bytes.length_ofNat]
    exact List.take_left' (Bytes.length_ofNat _ _)

/-- No data gives no reason. A payload that carries a reason gives that reason, and all other data
is shown in hexadecimal. No number read on the way leads out of the range of a 64-bit machine. In
particular the text of its standard payload is read back, whatever follows the payload. -/
theorem reason_of_payload :
    (∀ data, (decode data = none ↔ data = []) ∧
      (∀ reason, Standard data reason → decode data = some reason) ∧
      (data ≠ [] → (∀ reason, ¬Standard data reason) →
        decode data = some (Hex.ofBytes data))) ∧
    (∀ body start offset length, lengthAt body start = some offset →
      lengthAt body offset = some length → offset + 32 + length < UInt64.size) ∧
    ∀ (text : String) (after : Bytes), text.utf8ByteSize < UInt32.size →
      decode (ofText text ++ after) = some text := by
  have hreason : ∀ data reason, Standard data reason → decode data = some reason := by
    intro data reason h
    rw [decode_of_ne_nil h.ne_nil, standard?_eq_some_iff.mpr h]
    rfl
  refine ⟨fun data => ⟨decode_eq_none_iff, hreason data, fun hdata hother => ?_⟩, ?_, ?_⟩
  · have hnone : standard? data = none := by
      rw [Option.eq_none_iff_forall_ne_some]
      exact fun reason h => hother reason (standard?_eq_some_iff.mp h)
    rw [decode_of_ne_nil hdata, hnone]
    rfl
  · intro body start offset length hoffset hlength
    exact end_lt_of_lengthAt hoffset hlength
  · intro text after h
    exact hreason _ _ (standard_ofText h after)

/-- The word of the length may be the word of the offset itself. -/
example : decode (textSelector ++ List.replicate 64 0) = some "" := by decide

end RevertReason
end ExecutionTrace
