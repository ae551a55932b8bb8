import Mathlib.Data.List.Basic

/-!
Percent-encoding: the bytes of a text in UTF-8, each as the character it is or
as two digits after a `%`. No two texts have the same encoding, and the encoding
of two texts one after the other is that of their concatenation.
-/

namespace Keepup.Lib.Percent

/-- A character that stands for itself. -/
def unreserved (c : Char) : Bool := c.isAlphanum || c ∈ "_.-~".toList

def hexDigit (n : Nat) : Char := "0123456789ABCDEF".toList.getD n '0'

def quoteByte (b : UInt8) : List Char :=
  if unreserved (Char.ofNat b.toNat) then [Char.ofNat b.toNat]
  else ['%', hexDigit (b.toNat / 16), hexDigit (b.toNat % 16)]

def quoteBytes (bytes : List UInt8) : List Char := bytes.flatMap quoteByte

def quote (s : String) : String := String.ofList (quoteBytes s.toByteArray.data.toList)

theorem hexDigit_inj {m n : Nat} (hm : m < 16) (hn : n < 16) (h : hexDigit m = hexDigit n) :
    m = n := by
  have hall : ∀ i < 16, ∀ j < 16, hexDigit i = hexDigit j → i = j := by decide
  exact hall m hm n hn h

theorem unreserved_hexDigit {n : Nat} (h : n < 16) : unreserved (hexDigit n) = true := by
  have hall : ∀ i < 16, unreserved (hexDigit i) = true := by decide
  exact hall n h

theorem toNat_ofNat_byte (b : UInt8) : (Char.ofNat b.toNat).toNat = b.toNat := by
  have hlt := b.toNat_lt
  have hvalid : b.toNat.isValidChar := .inl (by omega)
  rw [Char.ofNat, dif_pos hvalid]
  rfl

/-- The encoding of a byte can be read off the front of a text. -/
theorem quoteByte_append_inj {b b' : UInt8} {rest rest' : List Char}
    (h : quoteByte b ++ rest = quoteByte b' ++ rest') : b = b' ∧ rest = rest' := by
  have hlt := b.toNat_lt
  have hlt' := b'.toNat_lt
  simp only [quoteByte] at h
  split at h <;> split at h
  · obtain ⟨hchar, hrest⟩ := List.cons.inj h
    have hnat := congrArg Char.toNat hchar
    rw [toNat_ofNat_byte, toNat_ofNat_byte] at hnat
    exact ⟨UInt8.toNat_inj.mp hnat, hrest⟩
  · rename_i hfree _
    rw [(List.cons.inj h).1] at hfree
    cases hfree
  · rename_i _ hfree
    rw [← (List.cons.inj h).1] at hfree
    cases hfree
  · simp only [List.cons_append, List.nil_append, List.cons.injEq, true_and] at h
    obtain ⟨hhigh, hlow, hrest⟩ := h
    have hdiv := hexDigit_inj (by omega) (by omega) hhigh
    have hmod := hexDigit_inj (by omega) (by omega) hlow
    exact ⟨UInt8.toNat_inj.mp (by omega), hrest⟩

theorem quoteByte_ne_nil (b : UInt8) : quoteByte b ≠ [] := by
  rw [quoteByte]
  split <;> simp

theorem quoteBytes_injective : Function.Injective quoteBytes := by
  intro bytes
  induction bytes with
  | nil =>
      intro bytes' h
      cases bytes' with
      | nil => rfl
      | cons b rest => simp [quoteBytes, quoteByte_ne_nil] at h
  | cons b bytes ih =>
      intro bytes' h
      cases bytes' with
      | nil => simp [quoteBytes, quoteByte_ne_nil] at h
      | cons b' bytes' =>
          simp only [quoteBytes, List.flatMap_cons] at h
          obtain ⟨rfl, hrest⟩ := quoteByte_append_inj h
          rw [ih hrest]

theorem quote_injective : Function.Injective quote := by
  intro s t h
  have hbytes := quoteBytes_injective (String.ofList_injective h)
  rw [← String.toByteArray_inj]
  exact ByteArray.ext (Array.toList_inj.mp hbytes)

theorem quote_append (s t : String) : quote (s ++ t) = quote s ++ quote t := by
  simp [quote, quoteBytes, String.toByteArray_append, ByteArray.data_append, String.ofList_append]

/-- Nothing else stands in an encoding. -/
theorem quote_chars (s : String) : ∀ c ∈ (quote s).toList, unreserved c = true ∨ c = '%' := by
  intro c hc
  rw [quote, String.toList_ofList, quoteBytes, List.mem_flatMap] at hc
  obtain ⟨b, _, hb⟩ := hc
  have hlt := b.toNat_lt
  rw [quoteByte] at hb
  split at hb
  · rename_i hfree
    rw [List.mem_singleton.mp hb]
    exact .inl hfree
  · simp only [List.mem_cons, List.not_mem_nil, or_false] at hb
    rcases hb with rfl | rfl | rfl
    · exact .inr rfl
    · exact .inl (unreserved_hexDigit (by omega))
    · exact .inl (unreserved_hexDigit (by omega))

section Decoding

def hexValue (c : Char) : Option Nat :=
  if c.isDigit then some (c.toNat - 48)
  else if 'a' ≤ c ∧ c ≤ 'f' then some (c.toNat - 87)
  else if 'A' ≤ c ∧ c ≤ 'F' then some (c.toNat - 55)
  else none

/-- The bytes of an ASCII text. A `%` without two digits stands for itself. -/
def unquoteBytes : List Char → List UInt8
  | [] => []
  | '%' :: high :: low :: rest =>
      match hexValue high, hexValue low with
      | some i, some j => UInt8.ofNat (16 * i + j) :: unquoteBytes rest
      | _, _ => UInt8.ofNat '%'.toNat :: unquoteBytes (high :: low :: rest)
  | c :: rest => UInt8.ofNat c.toNat :: unquoteBytes rest

def isContinuation (b : UInt8) : Bool := 0x80 ≤ b && b ≤ 0xbf

/-- The second byte can follow the first in UTF-8. -/
def fits (first second : UInt8) : Bool :=
  isContinuation second && (first != 0xe0 || 0xa0 ≤ second) && (first != 0xed || second ≤ 0x9f) &&
    (first != 0xf0 || 0x90 ≤ second) && (first != 0xf4 || second ≤ 0x8f)

/-- How many bytes make up the longest beginning of a character that is none. -/
def brokenLength : List UInt8 → Nat
  | first :: second :: rest =>
      if 0xe0 ≤ first ∧ first ≤ 0xf4 ∧ fits first second = true then
        if 0xf0 ≤ first ∧ rest.head?.any isContinuation = true then 3 else 2
      else 1
  | _ => 1

/-- UTF-8, with a replacement character for what is none, looking at `fuel` characters. -/
def decodeFrom : Nat → List UInt8 → List Char
  | 0, _ => []
  | _, [] => []
  | fuel + 1, bytes =>
      match (ByteArray.mk bytes.toArray).utf8DecodeChar? 0 with
      | some c => c :: decodeFrom fuel (bytes.drop c.utf8Size)
      | none => '\uFFFD' :: decodeFrom fuel (bytes.drop (brokenLength bytes))

def decode (bytes : List UInt8) : List Char := decodeFrom bytes.length bytes

def isAscii (c : Char) : Bool := c.toNat < 128

/-- Each stretch of ASCII characters is decoded by itself, `run` being the one begun. -/
def unquoteFrom (run : List Char) : List Char → List Char
  | [] => decode (unquoteBytes run)
  | c :: cs =>
      if isAscii c then unquoteFrom (run ++ [c]) cs
      else decode (unquoteBytes run) ++ c :: unquoteFrom [] cs

def unquote (s : String) : String := String.ofList (unquoteFrom [] s.toList)

theorem unquoteFrom_ascii {cs : List Char} (h : ∀ c ∈ cs, isAscii c = true) (run : List Char) :
    unquoteFrom run cs = decode (unquoteBytes (run ++ cs)) := by
  induction cs generalizing run with
  | nil => rw [unquoteFrom, List.append_nil]
  | cons c cs ih =>
      rw [unquoteFrom, if_pos (h c (by simp)), ih (fun d hd => h d (by simp [hd])),
        List.append_assoc,
        List.singleton_append]

/-- The bytes of a text are decoded to it, whatever the fuel beyond their number. -/
theorem decodeFrom_utf8Encode (cs : List Char) (fuel : Nat)
    (hfuel : cs.utf8Encode.data.toList.length ≤ fuel) :
    decodeFrom fuel cs.utf8Encode.data.toList = cs := by
  induction cs generalizing fuel with
  | nil => cases fuel <;> simp [decodeFrom]
  | cons c cs ih =>
      have hbytes : (c :: cs).utf8Encode.data.toList =
          String.utf8EncodeChar c ++ cs.utf8Encode.data.toList := by
        rw [List.utf8Encode_cons, List.utf8Encode_singleton, ByteArray.data_append,
          Array.toList_append]
        simp
      have hsize : (String.utf8EncodeChar c).length = c.utf8Size := String.length_utf8EncodeChar c
      have hpos : 0 < c.utf8Size := c.utf8Size_pos
      have hfirst : (ByteArray.mk (c :: cs).utf8Encode.data.toList.toArray).utf8DecodeChar? 0 =
          some c :=
        List.utf8DecodeChar?_utf8Encode_cons
      rw [hbytes, List.length_append] at hfuel
      obtain ⟨fuel, rfl⟩ : ∃ n, fuel = n + 1 := ⟨fuel - 1, by omega⟩
      have hne : (c :: cs).utf8Encode.data.toList ≠ [] := by
        rw [hbytes]
        simp [String.utf8EncodeChar_ne_nil]
      have hrest : (c :: cs).utf8Encode.data.toList.drop c.utf8Size =
          cs.utf8Encode.data.toList := by
        rw [hbytes, ← hsize, List.drop_left]
      rw [decodeFrom]
      · rw [hfirst]
        simp only [hrest, ih fuel (by omega)]
      · exact hne

theorem decode_toByteArray (s : String) : decode s.toByteArray.data.toList = s.toList := by
  rw [← String.utf8Encode_toList]
  exact decodeFrom_utf8Encode s.toList _ (Nat.le_refl _)

/-- The text reads as these bytes, whatever comes after it. -/
def Encodes (cs : List Char) (bytes : List UInt8) : Prop :=
  ∀ rest, unquoteBytes (cs ++ rest) = bytes ++ unquoteBytes rest

theorem Encodes.append {cs cs' : List Char} {bytes bytes' : List UInt8} (h : Encodes cs bytes)
    (h' : Encodes cs' bytes') : Encodes (cs ++ cs') (bytes ++ bytes') := by
  intro rest
  rw [List.append_assoc, h, h', List.append_assoc]

theorem encodes_nil : Encodes [] [] := fun _ => rfl

theorem encodes_char {c : Char} (h : c ≠ '%') : Encodes [c] [UInt8.ofNat c.toNat] := by
  intro rest
  rw [List.singleton_append, unquoteBytes]
  · rfl
  · intro high low rest' hcontra
    exact absurd hcontra h

theorem hexValue_hexDigit {n : Nat} (h : n < 16) : hexValue (hexDigit n) = some n := by
  have hall : ∀ i < 16, hexValue (hexDigit i) = some i := by decide
  exact hall n h

theorem encodes_quoteByte (b : UInt8) : Encodes (quoteByte b) [b] := by
  have hlt := b.toNat_lt
  rw [quoteByte]
  split
  · rename_i hfree
    have hpercent : Char.ofNat b.toNat ≠ '%' := by
      intro h
      rw [h] at hfree
      cases hfree
    have hbyte := encodes_char hpercent
    rwa [toNat_ofNat_byte, UInt8.ofNat_toNat] at hbyte
  · intro rest
    simp only [List.cons_append, List.nil_append, unquoteBytes,
      hexValue_hexDigit (by omega : b.toNat / 16 < 16),
        hexValue_hexDigit (by omega : b.toNat % 16 < 16)]
    have hsum : 16 * (b.toNat / 16) + b.toNat % 16 = b.toNat := by omega
    rw [hsum, UInt8.ofNat_toNat]

theorem encodes_quote (s : String) : Encodes (quote s).toList s.toByteArray.data.toList := by
  rw [quote, String.toList_ofList, quoteBytes]
  induction s.toByteArray.data.toList with
  | nil => exact encodes_nil
  | cons b bytes ih => exact (encodes_quoteByte b).append ih

theorem unreserved_toNat {c : Char} (h : unreserved c = true) : c.toNat < 128 := by
  have hval : c.val.toNat = c.toNat := rfl
  have hletter : c.isAlpha = (decide (c.val ≥ 'A'.val ∧ c.val ≤ 'Z'.val) ||
      (decide (c.val ≥ 'a'.val) && decide (c.val ≤ 'z'.val))) := rfl
  simp only [unreserved, Char.isAlphanum, hletter, Char.isDigit, Bool.or_eq_true, Bool.and_eq_true,
    decide_eq_true_eq, ge_iff_le, UInt32.le_iff_toNat_le, hval] at h
  rcases h with hword | hpunct
  · simp at hword
    omega
  · have hall : "_.-~".toList.all (fun c => decide (c.toNat < 128)) = true := by decide
    simpa using List.all_eq_true.mp hall c hpunct

theorem isAscii_quote (s : String) : ∀ c ∈ (quote s).toList, isAscii c = true := by
  intro c hc
  rcases quote_chars s c hc with hfree | rfl
  · simpa [isAscii] using unreserved_toNat hfree
  · rfl

/-- An ASCII text that reads as the bytes of another one is decoded to it. -/
theorem unquote_of_encodes {s t : String} (hascii : ∀ c ∈ s.toList, isAscii c = true)
    (h : Encodes s.toList t.toByteArray.data.toList) : unquote s = t := by
  have hbytes := h []
  rw [List.append_nil, unquoteBytes, List.append_nil] at hbytes
  rw [unquote, unquoteFrom_ascii hascii, List.nil_append, hbytes,
    decode_toByteArray, String.ofList_toList]

end Decoding

example : quote "a b" = "a%20b" := by decide +kernel

example : unquote "a%20%e2%82b%zz%F0%9F%98%80" = "a \uFFFDb%zz😀" := by decide +kernel

end Keepup.Lib.Percent
