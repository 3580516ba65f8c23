import Mathlib.Data.List.Basic

/-! # Base64

    Three octets at a time as four digits of an alphabet of 64.  Where the octets
    run out in a group of three the digits that are left have nothing to say, and
    padding stands in their place.

    The decoder takes a text group by group, and padding at its end only. -/

namespace Base64

variable {α : Type}

/-- Digits that can be told from one another and from the padding. -/
structure Alphabet (α : Type) where
  digit : Nat → α
  value : α → Option Nat
  pad : α
  value_digit : ∀ n, n < 64 → value (digit n) = some n
  value_pad : value pad = none

/-- The digits of these octets. -/
def encode (A : Alphabet α) : List UInt8 → List α
  | [] => []
  | [a] => [A.digit (a.toNat / 4), A.digit (a.toNat % 4 * 16), A.pad, A.pad]
  | [a, b] =>
      [A.digit (a.toNat / 4), A.digit (a.toNat % 4 * 16 + b.toNat / 16),
        A.digit (b.toNat % 16 * 4), A.pad]
  | a :: b :: c :: rest =>
      A.digit (a.toNat / 4) :: A.digit (a.toNat % 4 * 16 + b.toNat / 16) ::
        A.digit (b.toNat % 16 * 4 + c.toNat / 64) :: A.digit (c.toNat % 64) ::
        encode A rest

/-- The first octet of a group, from its first two digits, and so on. -/
def octet₁ (x y : Nat) : UInt8 := UInt8.ofNat (x * 4 + y / 16)

def octet₂ (y z : Nat) : UInt8 := UInt8.ofNat (y % 16 * 16 + z / 4)

def octet₃ (z w : Nat) : UInt8 := UInt8.ofNat (z % 4 * 64 + w)

/-- The octets of these digits.  What a digit says beyond the last octet is not
    looked at. -/
def decode [DecidableEq α] (A : Alphabet α) : List α → Option (List UInt8)
  | [] => some []
  | a :: b :: c :: d :: rest =>
      match A.value a, A.value b with
      | some x, some y =>
          match A.value c with
          | none =>
              if c = A.pad ∧ d = A.pad ∧ rest = [] then some [octet₁ x y] else none
          | some z =>
              match A.value d with
              | none =>
                  if d = A.pad ∧ rest = [] then some [octet₁ x y, octet₂ y z] else none
              | some w =>
                  (decode A rest).map (fun out => octet₁ x y :: octet₂ y z :: octet₃ z w :: out)
      | _, _ => none
  | _ => none

theorem octet₁_digits (a : UInt8) {n : Nat} (hn : n < 16) :
    octet₁ (a.toNat / 4) (a.toNat % 4 * 16 + n) = a := by
  have hval : a.toNat / 4 * 4 + (a.toNat % 4 * 16 + n) / 16 = a.toNat := by omega
  rw [octet₁, hval, UInt8.ofNat_toNat]

theorem octet₂_digits (b : UInt8) {m n : Nat} (hn : n < 4) :
    octet₂ (m * 16 + b.toNat / 16) (b.toNat % 16 * 4 + n) = b := by
  have hb := b.toNat_lt
  have hval : (m * 16 + b.toNat / 16) % 16 * 16 + (b.toNat % 16 * 4 + n) / 4 = b.toNat := by
    omega
  rw [octet₂, hval, UInt8.ofNat_toNat]

theorem octet₃_digits (c : UInt8) (m : Nat) : octet₃ (m * 4 + c.toNat / 64) (c.toNat % 64) = c := by
  have hc := c.toNat_lt
  have hval : (m * 4 + c.toNat / 64) % 4 * 64 + c.toNat % 64 = c.toNat := by omega
  rw [octet₃, hval, UInt8.ofNat_toNat]

/-- **DECODING UNDOES ENCODING**, for any octets and any alphabet. -/
theorem decode_encode [DecidableEq α] (A : Alphabet α) (octets : List UInt8) :
    decode A (encode A octets) = some octets := by
  induction octets using encode.induct with
  | case1 => rfl
  | case2 a =>
      have ha := a.toNat_lt
      have hx := A.value_digit (a.toNat / 4) (by omega)
      have hy := A.value_digit (a.toNat % 4 * 16) (by omega)
      simp only [encode, decode, hx, hy, A.value_pad, and_self, if_true]
      rw [show a.toNat % 4 * 16 = a.toNat % 4 * 16 + 0 from rfl, octet₁_digits a (by omega)]
  | case3 a b =>
      have ha := a.toNat_lt
      have hb := b.toNat_lt
      have hx := A.value_digit (a.toNat / 4) (by omega)
      have hy := A.value_digit (a.toNat % 4 * 16 + b.toNat / 16) (by omega)
      have hz := A.value_digit (b.toNat % 16 * 4) (by omega)
      simp only [encode, decode, hx, hy, hz, A.value_pad, and_self, if_true]
      rw [octet₁_digits a (by omega), show b.toNat % 16 * 4 = b.toNat % 16 * 4 + 0 from rfl,
        octet₂_digits b (by omega)]
  | case4 a b c rest ih =>
      have ha := a.toNat_lt
      have hb := b.toNat_lt
      have hc := c.toNat_lt
      have hx := A.value_digit (a.toNat / 4) (by omega)
      have hy := A.value_digit (a.toNat % 4 * 16 + b.toNat / 16) (by omega)
      have hz := A.value_digit (b.toNat % 16 * 4 + c.toNat / 64) (by omega)
      have hw := A.value_digit (c.toNat % 64) (by omega)
      simp only [encode, decode, hx, hy, hz, hw, ih, Option.map_some]
      rw [octet₁_digits a (by omega), octet₂_digits b (by omega), octet₃_digits c]

/-- There is no text only where there are no octets. -/
theorem encode_eq_nil_iff (A : Alphabet α) (octets : List UInt8) :
    encode A octets = [] ↔ octets = [] := by
  cases octets using encode.fun_cases with
  | case1 => exact iff_of_true rfl rfl
  | case2 a => exact iff_of_false (List.cons_ne_nil _ _) (List.cons_ne_nil _ _)
  | case3 a b => exact iff_of_false (List.cons_ne_nil _ _) (List.cons_ne_nil _ _)
  | case4 a b c rest => exact iff_of_false (List.cons_ne_nil _ _) (List.cons_ne_nil _ _)

/-- What holds of the digits and of the padding holds of the text. -/
theorem forall_mem_encode (A : Alphabet α) {P : α → Prop} (hdigit : ∀ n, n < 64 → P (A.digit n))
    (hpad : P A.pad) (octets : List UInt8) : ∀ c ∈ encode A octets, P c := by
  induction octets using encode.induct with
  | case1 => exact fun c hc => absurd hc List.not_mem_nil
  | case2 a =>
      have ha := a.toNat_lt
      simp only [encode, List.forall_mem_cons, List.not_mem_nil, false_imp_iff, implies_true,
        and_true]
      exact ⟨hdigit _ (by omega), hdigit _ (by omega), hpad, hpad⟩
  | case3 a b =>
      have ha := a.toNat_lt
      have hb := b.toNat_lt
      simp only [encode, List.forall_mem_cons, List.not_mem_nil, false_imp_iff, implies_true,
        and_true]
      exact ⟨hdigit _ (by omega), hdigit _ (by omega), hdigit _ (by omega), hpad⟩
  | case4 a b c rest ih =>
      have ha := a.toNat_lt
      have hb := b.toNat_lt
      have hc := c.toNat_lt
      simp only [encode, List.forall_mem_cons]
      exact ⟨hdigit _ (by omega), hdigit _ (by omega), hdigit _ (by omega), hdigit _ (by omega),
        ih⟩

end Base64
