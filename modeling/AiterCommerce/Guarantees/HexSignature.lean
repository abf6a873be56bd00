import AiterCommerce.Guarantees.SignedGate

namespace AiterCommerce.Guarantees.HexSignature

open AiterCommerce.Core AiterCommerce.Server

def lowerDigits : List Char :=
  ['0', '1', '2', '3', '4', '5', '6', '7', '8', '9', 'a', 'b', 'c', 'd', 'e', 'f']

/-- What a lowercase hexadecimal digit counts. No other character is one. -/
def digitValue (c : Char) : Option Nat :=
  if 48 ≤ c.toNat ∧ c.toNat ≤ 57 then some (c.toNat - 48)
  else if 97 ≤ c.toNat ∧ c.toNat ≤ 102 then some (c.toNat - 87)
  else none

def readByte (high low : Char) : Option UInt8 :=
  (digitValue high).bind fun x => (digitValue low).map fun y => UInt8.ofNat (16 * x + y)

def readHex : List Char → Option Bytes
  | [] => some []
  | [_] => none
  | high :: low :: rest => (readByte high low).bind fun b => (readHex rest).map (b :: ·)

def fromHex (s : String) : Option Bytes := readHex s.toList

def byteDigits (b : UInt8) : List Char := [hexDigit (b.toNat / 16), hexDigit (b.toNat % 16)]

theorem toList_toHex (bytes : Bytes) : (toHex bytes).toList = bytes.flatMap byteDigits :=
  String.toList_ofList

theorem hexDigit_eq : ∀ n < 16, hexDigit n = Char.ofNat (if n < 10 then 48 + n else 87 + n) := by
  decide

theorem digitValue_hexDigit : ∀ n < 16, digitValue (hexDigit n) = some n := by decide

theorem digitValue_eq_some {c : Char} {n : Nat} :
    digitValue c = some n ↔ n < 16 ∧ c = hexDigit n := by
  constructor
  · intro h
    rw [digitValue] at h
    split at h
    next hc =>
      cases h
      refine ⟨by omega, ?_⟩
      rw [hexDigit_eq _ (by omega), if_pos (by omega), Nat.add_sub_cancel' hc.1, Char.ofNat_toNat]
    next =>
      split at h
      next hc =>
        cases h
        refine ⟨by omega, ?_⟩
        rw [hexDigit_eq _ (by omega), if_neg (by omega), Nat.add_sub_cancel' (by omega),
          Char.ofNat_toNat]
      next => cases h
  · rintro ⟨hn, rfl⟩
    exact digitValue_hexDigit n hn

theorem readByte_eq_some {high low : Char} {b : UInt8} :
    readByte high low = some b ↔ [high, low] = byteDigits b := by
  have hb := b.toNat_lt
  simp only [readByte, Option.bind_eq_some_iff, Option.map_eq_some_iff, digitValue_eq_some,
    byteDigits, List.cons.injEq, and_true]
  constructor
  · rintro ⟨x, ⟨hx, rfl⟩, y, ⟨hy, rfl⟩, rfl⟩
    have hxy : (UInt8.ofNat (16 * x + y)).toNat = 16 * x + y := by
      rw [UInt8.toNat_ofNat']
      omega
    rw [hxy]
    constructor
    · congr 1; omega
    · congr 1; omega
  · rintro ⟨rfl, rfl⟩
    refine ⟨_, ⟨by omega, rfl⟩, _, ⟨by omega, rfl⟩, ?_⟩
    rw [Nat.div_add_mod, UInt8.ofNat_toNat]

theorem readHex_eq_some {text : List Char} {bytes : Bytes} :
    readHex text = some bytes ↔ text = bytes.flatMap byteDigits := by
  induction text using readHex.induct generalizing bytes with
  | case1 =>
      cases bytes with
      | nil => simp [readHex]
      | cons b bs => simp [readHex, byteDigits]
  | case2 c =>
      cases bytes with
      | nil => simp [readHex]
      | cons b bs => simp [readHex, byteDigits]
  | case3 high low rest ih =>
      simp only [readHex, Option.bind_eq_some_iff, Option.map_eq_some_iff, readByte_eq_some, ih]
      constructor
      · rintro ⟨b, hb, bs, rfl, rfl⟩
        rw [List.flatMap_cons, ← hb]
        rfl
      · intro h
        cases bytes with
        | nil => simp at h
        | cons b bs =>
            simp only [List.flatMap_cons, byteDigits, List.cons_append, List.nil_append,
              List.cons.injEq] at h
            obtain ⟨rfl, rfl, hrest⟩ := h
            exact ⟨b, rfl, bs, hrest, rfl⟩

/-- The reader takes exactly the texts the code writes. -/
theorem fromHex_eq_some {s : String} {bytes : Bytes} :
    fromHex s = some bytes ↔ s = toHex bytes := by
  rw [fromHex, readHex_eq_some, ← toList_toHex, String.toList_inj]

theorem toHex_injective : Function.Injective toHex := by
  intro a b h
  have ha := fromHex_eq_some.mpr (rfl : toHex a = toHex a)
  have hb := fromHex_eq_some.mpr h
  exact Option.some.inj (ha.symm.trans hb)

theorem hexDigit_lower : ∀ n < 16, hexDigit n ∈ lowerDigits := by decide

theorem toHex_lower {bytes : Bytes} {c : Char} (hc : c ∈ (toHex bytes).toList) :
    c ∈ lowerDigits := by
  rw [toList_toHex, List.mem_flatMap] at hc
  obtain ⟨b, -, hc⟩ := hc
  have hb := b.toNat_lt
  simp only [byteDigits, List.mem_cons, List.not_mem_nil, or_false] at hc
  rcases hc with rfl | rfl
  · exact hexDigit_lower _ (by omega)
  · exact hexDigit_lower _ (by omega)

theorem length_toHex (bytes : Bytes) : (toHex bytes).toList.length = 2 * bytes.length := by
  rw [toList_toHex]
  induction bytes with
  | nil => rfl
  | cons b bytes ih =>
      simp only [List.flatMap_cons, List.length_append, ih, List.length_cons, byteDigits,
        List.length_nil]
      omega

theorem toHex_ascii (bytes : Bytes) : SignedGate.VisibleAscii (toHex bytes) := by
  have hdigits : ∀ c ∈ lowerDigits, 32 ≤ c.toNat ∧ c.toNat < 127 := by simp [lowerDigits]
  intro c hc
  exact hdigits c (toHex_lower hc)

theorem length_utf8_toHex (bytes : Bytes) : (utf8 (toHex bytes)).length = 2 * bytes.length := by
  rw [SignedGate.utf8_of_ascii (toHex_ascii bytes), List.length_map, length_toHex]

/-- With a secret configured, a delivery is accepted exactly when its signature
is, byte for byte, the lowercase hexadecimal form of the HMAC of the body. -/
theorem signature_exact (crypto : Crypto) (config : RazorpayConfig) (secret : String) :
    (∀ body signature,
      verifyWebhookSignature crypto { config with webhookSecret := some secret } body signature =
          .ok () ↔
        utf8 signature = utf8 (toHex (crypto.hmacSha256 (utf8 secret) body))) ∧
    Function.Injective toHex ∧
    (∀ s bytes, fromHex s = some bytes ↔ s = toHex bytes) ∧
    (∀ bytes, (utf8 (toHex bytes)).length = 2 * bytes.length ∧
      ∀ c ∈ (toHex bytes).toList, c ∈ lowerDigits) ∧
    (∀ a b : Bytes, constantTimeEq a b = true ↔ a = b) := by
  refine ⟨?_, toHex_injective, fun s bytes => fromHex_eq_some, ?_, fun a b => constantTimeEq_iff⟩
  · intro body signature
    rw [verifyWebhookSignature_eq_ok, utf8_injective.eq_iff]
    constructor
    · rintro ⟨used, hused, rfl⟩
      cases hused
      rfl
    · rintro rfl
      exact ⟨secret, rfl, rfl⟩
  · intro bytes
    exact ⟨length_utf8_toHex bytes, fun c hc => toHex_lower hc⟩

end AiterCommerce.Guarantees.HexSignature
