import Mathlib.Data.List.GetD

namespace AiterCommerce.Encoding.Base64

def alphabet : List Char :=
  "ABCDEFGHIJKLMNOPQRSTUVWXYZabcdefghijklmnopqrstuvwxyz0123456789+/".toList

def symbol (n : Nat) : Char := alphabet.getD n '='

def value (c : Char) : Option Nat := alphabet.findIdx? (fun d => d == c)

/-- Three bytes to four symbols; the rest of a shorter last group is padded. -/
def encode : List UInt8 → List Char
  | [] => []
  | [a] => [symbol (a.toNat / 4), symbol (a.toNat % 4 * 16), '=', '=']
  | [a, b] =>
      [symbol (a.toNat / 4), symbol (a.toNat % 4 * 16 + b.toNat / 16),
        symbol (b.toNat % 16 * 4), '=']
  | a :: b :: c :: rest =>
      symbol (a.toNat / 4) :: symbol (a.toNat % 4 * 16 + b.toNat / 16) ::
        symbol (b.toNat % 16 * 4 + c.toNat / 64) :: symbol (c.toNat % 64) :: encode rest

def decodeOne (w x : Char) : Option (List UInt8) := do
  let w ← value w
  let x ← value x
  if x % 16 = 0 then some [UInt8.ofNat (w * 4 + x / 16)] else none

def decodeTwo (w x y : Char) : Option (List UInt8) := do
  let w ← value w
  let x ← value x
  let y ← value y
  if y % 4 = 0 then some [UInt8.ofNat (w * 4 + x / 16), UInt8.ofNat (x % 16 * 16 + y / 4)]
  else none

def decodeThree (w x y z : Char) : Option (List UInt8) := do
  let w ← value w
  let x ← value x
  let y ← value y
  let z ← value z
  some [UInt8.ofNat (w * 4 + x / 16), UInt8.ofNat (x % 16 * 16 + y / 4),
    UInt8.ofNat (y % 4 * 64 + z)]

/-- The strict decoder: padding must be canonical and the bits it stands for
must be zero. -/
def decode : List Char → Option (List UInt8)
  | [] => some []
  | w :: x :: y :: z :: rest =>
      if z = '=' then
        if rest = [] then if y = '=' then decodeOne w x else decodeTwo w x y else none
      else do
        let group ← decodeThree w x y z
        let bytes ← decode rest
        some (group ++ bytes)
  | _ => none

theorem alphabet_length : alphabet.length = 64 := by decide +kernel

theorem value_symbol {n : Nat} (h : n < 64) : value (symbol n) = some n := by
  have key : ∀ n : Fin 64, value (symbol n) = some n.val := by decide +kernel
  exact key ⟨n, h⟩

theorem symbol_ne_pad {n : Nat} (h : n < 64) : symbol n ≠ '=' := by
  have key : ∀ n : Fin 64, symbol n ≠ '=' := by decide +kernel
  exact key ⟨n, h⟩

theorem value_eq_some {c : Char} {n : Nat} (h : value c = some n) : n < 64 ∧ symbol n = c := by
  obtain ⟨hn, hc, -⟩ := List.findIdx?_eq_some_iff_getElem.mp h
  refine ⟨alphabet_length ▸ hn, ?_⟩
  rw [symbol, List.getD_eq_getElem _ _ hn]
  simpa using hc

theorem encode_all {P : Char → Prop} (hs : ∀ n : Fin 64, P (symbol n)) (hp : P '=')
    (bs : List UInt8) : ∀ c ∈ encode bs, P c := by
  have hall (n : Nat) : P (symbol n) := by
    by_cases hn : n < 64
    · exact hs ⟨n, hn⟩
    · rw [symbol, List.getD_eq_default _ _ (by rw [alphabet_length]; omega)]
      exact hp
  induction bs using encode.induct with
  | case1 => simp [encode]
  | case2 a => simp [encode, hall, hp]
  | case3 a b => simp [encode, hall, hp]
  | case4 a b c rest ih => simpa [encode, hall] using ih

theorem encode_no_newline (bs : List UInt8) : '\n' ∉ encode bs := by
  intro h
  have key : ∀ n : Fin 64, symbol n ≠ '\n' := by decide +kernel
  exact encode_all (P := (· ≠ '\n')) key (by decide) bs '\n' h rfl

theorem encode_visible (bs : List UInt8) : ∀ c ∈ encode bs, 32 ≤ c.toNat ∧ c.toNat < 127 := by
  have key : ∀ n : Fin 64, 32 ≤ (symbol n).toNat ∧ (symbol n).toNat < 127 := by decide +kernel
  exact encode_all key (by decide) bs

section Groups

variable {a b c : UInt8} {w x y z : Char}

theorem decodeOne_eq {bs : List UInt8} : decodeOne w x = some bs ↔
    ∃ a, bs = [a] ∧ w = symbol (a.toNat / 4) ∧ x = symbol (a.toNat % 4 * 16) := by
  constructor
  · intro h
    simp only [decodeOne, Option.bind_eq_bind, Option.bind_eq_some_iff] at h
    obtain ⟨m, hm, n, hn, h⟩ := h
    obtain ⟨hm64, rfl⟩ := value_eq_some hm
    obtain ⟨hn64, rfl⟩ := value_eq_some hn
    split at h
    next hz =>
      cases h
      refine ⟨_, rfl, ?_, ?_⟩ <;> congr 1 <;> rw [UInt8.toNat_ofNat'] <;> omega
    next => cases h
  · rintro ⟨a, rfl, rfl, rfl⟩
    have ha := a.toNat_lt
    simp only [decodeOne, value_symbol (show a.toNat / 4 < 64 by omega),
      value_symbol (show a.toNat % 4 * 16 < 64 by omega), Option.bind_eq_bind, Option.bind_some]
    rw [if_pos (by omega), show a.toNat / 4 * 4 + a.toNat % 4 * 16 / 16 = a.toNat by omega,
      UInt8.ofNat_toNat]

theorem decodeTwo_eq {bs : List UInt8} : decodeTwo w x y = some bs ↔
    ∃ a b, bs = [a, b] ∧ w = symbol (a.toNat / 4) ∧
      x = symbol (a.toNat % 4 * 16 + b.toNat / 16) ∧ y = symbol (b.toNat % 16 * 4) := by
  constructor
  · intro h
    simp only [decodeTwo, Option.bind_eq_bind, Option.bind_eq_some_iff] at h
    obtain ⟨m, hm, n, hn, k, hk, h⟩ := h
    obtain ⟨hm64, rfl⟩ := value_eq_some hm
    obtain ⟨hn64, rfl⟩ := value_eq_some hn
    obtain ⟨hk64, rfl⟩ := value_eq_some hk
    split at h
    next hz =>
      cases h
      refine ⟨_, _, rfl, ?_, ?_, ?_⟩ <;> congr 1 <;> simp only [UInt8.toNat_ofNat'] <;> omega
    next => cases h
  · rintro ⟨a, b, rfl, rfl, rfl, rfl⟩
    have ha := a.toNat_lt
    have hb := b.toNat_lt
    simp only [decodeTwo, value_symbol (show a.toNat / 4 < 64 by omega),
      value_symbol (show a.toNat % 4 * 16 + b.toNat / 16 < 64 by omega),
      value_symbol (show b.toNat % 16 * 4 < 64 by omega), Option.bind_eq_bind, Option.bind_some]
    rw [if_pos (by omega),
      show a.toNat / 4 * 4 + (a.toNat % 4 * 16 + b.toNat / 16) / 16 = a.toNat by omega,
      show (a.toNat % 4 * 16 + b.toNat / 16) % 16 * 16 + b.toNat % 16 * 4 / 4 = b.toNat by omega,
      UInt8.ofNat_toNat, UInt8.ofNat_toNat]

theorem decodeThree_eq {bs : List UInt8} : decodeThree w x y z = some bs ↔
    ∃ a b c, bs = [a, b, c] ∧ w = symbol (a.toNat / 4) ∧
      x = symbol (a.toNat % 4 * 16 + b.toNat / 16) ∧
      y = symbol (b.toNat % 16 * 4 + c.toNat / 64) ∧ z = symbol (c.toNat % 64) := by
  constructor
  · intro h
    simp only [decodeThree, Option.bind_eq_bind, Option.bind_eq_some_iff] at h
    obtain ⟨m, hm, n, hn, k, hk, j, hj, h⟩ := h
    obtain ⟨hm64, rfl⟩ := value_eq_some hm
    obtain ⟨hn64, rfl⟩ := value_eq_some hn
    obtain ⟨hk64, rfl⟩ := value_eq_some hk
    obtain ⟨hj64, rfl⟩ := value_eq_some hj
    cases h
    refine ⟨_, _, _, rfl, ?_, ?_, ?_, ?_⟩ <;> congr 1 <;> simp only [UInt8.toNat_ofNat'] <;> omega
  · rintro ⟨a, b, c, rfl, rfl, rfl, rfl, rfl⟩
    have ha := a.toNat_lt
    have hb := b.toNat_lt
    have hc := c.toNat_lt
    simp only [decodeThree, value_symbol (show a.toNat / 4 < 64 by omega),
      value_symbol (show a.toNat % 4 * 16 + b.toNat / 16 < 64 by omega),
      value_symbol (show b.toNat % 16 * 4 + c.toNat / 64 < 64 by omega),
      value_symbol (show c.toNat % 64 < 64 by omega), Option.bind_eq_bind, Option.bind_some]
    rw [show a.toNat / 4 * 4 + (a.toNat % 4 * 16 + b.toNat / 16) / 16 = a.toNat by omega,
      show (a.toNat % 4 * 16 + b.toNat / 16) % 16 * 16 + (b.toNat % 16 * 4 + c.toNat / 64) / 4 =
        b.toNat by omega,
      show (b.toNat % 16 * 4 + c.toNat / 64) % 4 * 64 + c.toNat % 64 = c.toNat by omega,
      UInt8.ofNat_toNat, UInt8.ofNat_toNat, UInt8.ofNat_toNat]

end Groups

theorem decode_encode (bs : List UInt8) : decode (encode bs) = some bs := by
  induction bs using encode.induct with
  | case1 => rfl
  | case2 a => simpa [encode, decode] using decodeOne_eq.mpr ⟨a, rfl, rfl, rfl⟩
  | case3 a b =>
      have hb := b.toNat_lt
      have hy := symbol_ne_pad (show b.toNat % 16 * 4 < 64 by omega)
      simpa [encode, decode, hy] using decodeTwo_eq.mpr ⟨a, b, rfl, rfl, rfl, rfl⟩
  | case4 a b c rest ih =>
      have hz := symbol_ne_pad (show c.toNat % 64 < 64 by omega)
      have hg := decodeThree_eq.mpr ⟨a, b, c, rfl, rfl, rfl, rfl, rfl⟩
      simp [encode, decode, hz, hg, ih]

theorem eq_encode_of_decode {cs : List Char} {bs : List UInt8} (h : decode cs = some bs) :
    cs = encode bs := by
  induction cs using decode.induct generalizing bs with
  | case1 => cases h; rfl
  | case2 w x =>
      simp only [decode, if_true] at h
      obtain ⟨a, rfl, rfl, rfl⟩ := decodeOne_eq.mp h
      rfl
  | case3 w x y hy =>
      simp only [decode, if_true, if_neg hy] at h
      obtain ⟨a, b, rfl, rfl, rfl, rfl⟩ := decodeTwo_eq.mp h
      rfl
  | case4 w x y rest hrest =>
      simp only [decode, if_true, if_neg hrest] at h
      cases h
  | case5 w x y z rest hz ih =>
      simp only [decode, if_neg hz, Option.bind_eq_bind, Option.bind_eq_some_iff] at h
      obtain ⟨group, hg, bytes, hb, h⟩ := h
      cases h
      obtain ⟨a, b, c, rfl, rfl, rfl, rfl, rfl⟩ := decodeThree_eq.mp hg
      rw [ih hb]
      rfl
  | case6 cs hnil hcons =>
      unfold decode at h
      split at h
      · exact (hnil rfl).elim
      · exact (hcons _ _ _ _ _ rfl).elim
      · cases h

/-- The strict decoder accepts the canonical encoding of each byte string and
nothing else. -/
theorem decode_eq_some {cs : List Char} {bs : List UInt8} :
    decode cs = some bs ↔ cs = encode bs :=
  ⟨eq_encode_of_decode, fun h => h ▸ decode_encode bs⟩

end AiterCommerce.Encoding.Base64
