import Mathlib.Data.List.Basic

/-!
# Base64

The encoding of bytes with the alphabet that is safe in URLs and without padding: three bytes make
four digits of six bits.  The decoder skips line ends, and does not mind unused bits in the last
digit.

`Base64.decode_of_encode` says that what was encoded is decoded again, and
`Base64.decodeText_encodeText` the same for texts.
-/

set_option autoImplicit false

namespace Base64

/-! ## Digits -/

def alphabet : List Char :=
  "ABCDEFGHIJKLMNOPQRSTUVWXYZabcdefghijklmnopqrstuvwxyz0123456789-_".toList

def digit (n : Nat) : Char := alphabet.getD n 'A'

def value (c : Char) : Option Nat := alphabet.findIdx? (· = c)

theorem value_digit : ∀ n < 64, value (digit n) = some n := by decide

theorem isLineEnd_digit : ∀ n < 64, digit n ≠ '\r' ∧ digit n ≠ '\n' := by
  decide +kernel

/-! ## Groups of digits -/

/-- Bytes as digits. -/
def digits : List UInt8 → List Nat
  | [] => []
  | [a] => [a.toNat / 4, a.toNat % 4 * 16]
  | [a, b] => [a.toNat / 4, a.toNat % 4 * 16 + b.toNat / 16, b.toNat % 16 * 4]
  | a :: b :: c :: rest =>
    a.toNat / 4 :: (a.toNat % 4 * 16 + b.toNat / 16) :: (b.toNat % 16 * 4 + c.toNat / 64) ::
      c.toNat % 64 :: digits rest

/-- Digits as bytes. -/
def bytes : List Nat → Option (List UInt8)
  | [] => some []
  | [_] => none
  | [w, x] => some [UInt8.ofNat (w * 4 + x / 16)]
  | [w, x, y] => some [UInt8.ofNat (w * 4 + x / 16), UInt8.ofNat (x % 16 * 16 + y / 4)]
  | w :: x :: y :: z :: rest =>
    (bytes rest).map fun bs ↦ UInt8.ofNat (w * 4 + x / 16) :: UInt8.ofNat (x % 16 * 16 + y / 4) ::
      UInt8.ofNat (y % 4 * 64 + z) :: bs

theorem ofNat_eq {n : Nat} {a : UInt8} (h : n = a.toNat) : UInt8.ofNat n = a := by
  rw [h, UInt8.ofNat_toNat]

theorem bytes_digits (bs : List UInt8) : bytes (digits bs) = some bs := by
  induction bs using digits.induct with
  | case1 => rfl
  | case2 a =>
    have ha : a.toNat / 4 * 4 + a.toNat % 4 * 16 / 16 = a.toNat := by omega
    rw [digits, bytes, ofNat_eq ha]
  | case3 a b =>
    have hb := b.toNat_lt
    rw [digits, bytes, ofNat_eq (a := a) (by omega), ofNat_eq (a := b) (by omega)]
  | case4 a b c rest ih =>
    have hb := b.toNat_lt
    have hc := c.toNat_lt
    rw [digits, bytes, ih, Option.map_some, ofNat_eq (a := a) (by omega),
      ofNat_eq (a := b) (by omega), ofNat_eq (a := c) (by omega)]

theorem digits_lt (bs : List UInt8) : ∀ n ∈ digits bs, n < 64 := by
  induction bs using digits.induct with
  | case1 => simp [digits]
  | case2 a =>
    have ha := a.toNat_lt
    simp only [digits, List.forall_mem_cons, List.not_mem_nil, false_implies,
      implies_true, and_true]
    omega
  | case3 a b =>
    have ha := a.toNat_lt
    have hb := b.toNat_lt
    simp only [digits, List.forall_mem_cons, List.not_mem_nil, false_implies,
      implies_true, and_true]
    omega
  | case4 a b c rest ih =>
    have ha := a.toNat_lt
    have hb := b.toNat_lt
    have hc := c.toNat_lt
    rw [digits, List.forall_mem_cons, List.forall_mem_cons, List.forall_mem_cons,
      List.forall_mem_cons]
    exact ⟨by omega, by omega, by omega, by omega, ih⟩

/-! ## The encoding -/

def encode (bs : List UInt8) : String := String.ofList ((digits bs).map digit)

def decode (s : String) : Option (List UInt8) :=
  ((s.toList.filter fun c ↦ c ≠ '\r' ∧ c ≠ '\n').mapM value).bind bytes

/-- **What was encoded is decoded again.** -/
theorem decode_of_encode (bs : List UInt8) : decode (encode bs) = some bs := by
  have hlt := digits_lt bs
  have hfilter :
      ((digits bs).map digit).filter (fun c ↦ c ≠ '\r' ∧ c ≠ '\n') = (digits bs).map digit := by
    refine List.filter_eq_self.mpr fun c hc ↦ ?_
    obtain ⟨n, hn, rfl⟩ := List.mem_map.mp hc
    exact decide_eq_true (isLineEnd_digit n (hlt n hn))
  have hvalues : ∀ {ns : List Nat}, (∀ n ∈ ns, n < 64) → (ns.map digit).mapM value = some ns := by
    intro ns
    induction ns with
    | nil => exact fun _ ↦ rfl
    | cons n ns ih =>
      intro h
      obtain ⟨hn, hns⟩ := List.forall_mem_cons.mp h
      simp [value_digit n hn, ih hns]
  rw [decode, encode, String.toList_ofList, hfilter, hvalues hlt, Option.bind_some, bytes_digits]

/-! ## Texts -/

def encodeText (s : String) : String := encode s.toUTF8.data.toList

/-- The text that was encoded, if it was one. -/
def decodeText (s : String) : Option String :=
  (decode s).bind fun bs ↦ String.fromUTF8? ⟨bs.toArray⟩

theorem decodeText_encodeText (s : String) : decodeText (encodeText s) = some s := by
  rw [decodeText, encodeText, decode_of_encode, Option.bind_some, Array.toArray_toList]
  exact dif_pos s.isValidUTF8

theorem encodeText_eq_empty {s : String} : encodeText s = "" ↔ s = "" := by
  constructor
  · intro h
    have hdecode := decodeText_encodeText s
    rw [h] at hdecode
    exact (Option.some.inj hdecode).symm
  · rintro rfl
    rfl

end Base64
