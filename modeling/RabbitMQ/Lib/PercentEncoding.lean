import Mathlib.Data.List.Basic

/-! Percent encoding: characters outside a set that stand for themselves become the escapes of
their UTF-8 bytes. What is encoded can be read back, and holds no delimiter. -/

namespace RabbitMQ
namespace PercentEncoding

variable {kept : Char → Bool}

/-- The digit of a number below 16, in upper case. -/
def hexDigit (n : Nat) : Char := if n < 10 then Char.ofNat (48 + n) else Char.ofNat (55 + n)

def hexValue (c : Char) : Nat := if c.toNat < 58 then c.toNat - 48 else c.toNat - 55

def escape (b : UInt8) : List Char := ['%', hexDigit (b.toNat / 16), hexDigit (b.toNat % 16)]

def encodeChar (kept : Char → Bool) (c : Char) : List Char :=
  if kept c then [c] else (String.utf8EncodeChar c).flatMap escape

def encode (kept : Char → Bool) (text : List Char) : List Char := text.flatMap (encodeChar kept)

/-- The bytes an encoded text stands for. -/
def bytes : List Char → List UInt8
  | '%' :: high :: low :: rest => UInt8.ofNat (hexValue high * 16 + hexValue low) :: bytes rest
  | c :: rest => String.utf8EncodeChar c ++ bytes rest
  | [] => []

/-! ## Reading back -/

theorem hexValue_hexDigit {n : Nat} (h : n < 16) : hexValue (hexDigit n) = n :=
  (by decide : ∀ n < 16, hexValue (hexDigit n) = n) n h

theorem bytes_cons {c : Char} (hc : c ≠ '%') (rest : List Char) :
    bytes (c :: rest) = String.utf8EncodeChar c ++ bytes rest := by
  rw [bytes]
  rintro high low rest rfl _
  exact hc rfl

theorem bytes_escape (b : UInt8) (rest : List Char) :
    bytes (escape b ++ rest) = b :: bytes rest := by
  have hlt : b.toNat < 256 := b.toNat_lt_size
  have hhigh : b.toNat / 16 < 16 := by omega
  have hlow : b.toNat % 16 < 16 := by omega
  simp only [escape, List.cons_append, List.nil_append, bytes]
  rw [hexValue_hexDigit hhigh, hexValue_hexDigit hlow, Nat.div_add_mod' b.toNat 16,
    UInt8.ofNat_toNat]

theorem bytes_escapes (bs : List UInt8) (rest : List Char) :
    bytes (bs.flatMap escape ++ rest) = bs ++ bytes rest := by
  induction bs with
  | nil => rfl
  | cons b bs ih => rw [List.flatMap_cons, List.append_assoc, bytes_escape, ih, List.cons_append]

theorem bytes_encodeChar (hkept : kept '%' = false) (c : Char) (rest : List Char) :
    bytes (encodeChar kept c ++ rest) = String.utf8EncodeChar c ++ bytes rest := by
  unfold encodeChar
  split
  · next hc =>
    refine bytes_cons (fun heq => ?_) rest
    rw [heq, hkept] at hc
    cases hc
  · exact bytes_escapes _ rest

theorem bytes_encode (hkept : kept '%' = false) (text : List Char) :
    bytes (encode kept text) = text.flatMap String.utf8EncodeChar := by
  induction text with
  | nil => rfl
  | cons c text ih =>
    rw [encode, List.flatMap_cons, bytes_encodeChar hkept, List.flatMap_cons]
    exact congrArg _ ih

/-- A text is determined by its UTF-8 bytes. -/
theorem utf8_injective {s s' : String}
    (h : s.toList.flatMap String.utf8EncodeChar = s'.toList.flatMap String.utf8EncodeChar) :
    s = s' := by
  have hencode : s.toList.utf8Encode = s'.toList.utf8Encode := congrArg List.toByteArray h
  have hdecode := congrArg ByteArray.utf8Decode? hencode
  rw [List.utf8Decode?_utf8Encode, List.utf8Decode?_utf8Encode] at hdecode
  exact String.toList_inj.mp (congrArg Array.toList (Option.some.inj hdecode))

/-- No two texts have one encoding. -/
theorem encode_injective (hkept : kept '%' = false) {s s' : String}
    (h : encode kept s.toList = encode kept s'.toList) : s = s' := by
  refine utf8_injective ?_
  rw [← bytes_encode hkept, ← bytes_encode hkept, h]

/-! ## Delimiters -/

theorem hexDigit_alphanum {n : Nat} (h : n < 16) : (hexDigit n).isAlphanum :=
  (by decide : ∀ n < 16, (hexDigit n).isAlphanum) n h

theorem mem_escape {b : UInt8} {c : Char} (h : c ∈ escape b) : c = '%' ∨ c.isAlphanum := by
  have hlt : b.toNat < 256 := b.toNat_lt_size
  have hhigh : b.toNat / 16 < 16 := by omega
  have hlow : b.toNat % 16 < 16 := by omega
  simp only [escape, List.mem_cons, List.not_mem_nil, or_false] at h
  rcases h with rfl | rfl | rfl
  · exact .inl rfl
  · exact .inr (hexDigit_alphanum hhigh)
  · exact .inr (hexDigit_alphanum hlow)

/-- An encoded text holds kept characters, percent signs and digits. -/
theorem mem_encode {text : List Char} {c : Char} (h : c ∈ encode kept text) :
    kept c ∨ c = '%' ∨ c.isAlphanum := by
  obtain ⟨d, -, hd⟩ := List.mem_flatMap.mp h
  unfold encodeChar at hd
  split at hd
  · next hkept =>
    cases List.mem_singleton.mp hd
    exact .inl hkept
  · obtain ⟨b, -, hb⟩ := List.mem_flatMap.mp hd
    exact .inr (mem_escape hb)

/-- A delimiter that occurs in neither of two parts separates them from what follows. -/
theorem append_cons_inj {α : Type*} {a : α} {l l' r r' : List α} (hl : a ∉ l) (hl' : a ∉ l')
    (h : l ++ a :: r = l' ++ a :: r') : l = l' ∧ r = r' := by
  induction l generalizing l' with
  | nil =>
    cases l' with
    | nil => exact ⟨rfl, (List.cons.inj h).2⟩
    | cons b l' => exact absurd (List.mem_cons.mpr (.inl (List.cons.inj h).1)) hl'
  | cons b l ih =>
    cases l' with
    | nil => exact absurd (List.mem_cons.mpr (.inl (List.cons.inj h).1.symm)) hl
    | cons b' l' =>
      obtain ⟨rfl, htail⟩ := List.cons.inj h
      obtain ⟨rfl, hr⟩ := ih (fun hmem => hl (.tail _ hmem)) (fun hmem => hl' (.tail _ hmem)) htail
      exact ⟨rfl, hr⟩

end PercentEncoding
end RabbitMQ
