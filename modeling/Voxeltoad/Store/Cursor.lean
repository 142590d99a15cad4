import Voxeltoad.Billing.Accounting
import Voxeltoad.Lib.Base64
import Voxeltoad.Lib.Json

/-!
# Cursors

The cursors of the listings, `encodeUsageCursor` of `internal/store/usage_query.go` and
`encodeIDCursor` of `operator.go`: a row's key in decimal, in base64.  Each decoder reads back what
its encoder wrote, as long as the numbers are ones of 64 bits.
-/

set_option autoImplicit false

namespace Voxeltoad

/-! ## Integers -/

/-- A number that fits an `int64`. -/
def Int64Range (n : Int) : Prop := -2 ^ 63 ≤ n ∧ n < 2 ^ 63

instance (n : Int) : Decidable (Int64Range n) := inferInstanceAs (Decidable (_ ∧ _))

/-- `strconv.FormatInt(n, 10)`, and the verb `%d`. -/
def formatInt (n : Int) : String := String.ofList (Decimal.text n)

/-- The sign of a number and what comes after it; a plus is allowed. -/
def splitSign : List Char → Bool × List Char
  | '+' :: cs => (false, cs)
  | cs => Decimal.sign cs

/-- `strconv.ParseInt(s, 10, 64)`. -/
def parseInt (s : String) : Option Int :=
  let (neg, digits) := splitSign s.toList
  if digits ≠ [] ∧ digits.all Char.isDigit then
    let magnitude : Nat := Nat.ofDigitChars 10 digits 0
    let n : Int := if neg then -magnitude else magnitude
    if Int64Range n then some n else none
  else none

theorem splitSign_text (n : Int) :
    splitSign (Decimal.text n) = (decide (n < 0), Nat.toDigits 10 n.natAbs) := by
  have hsign := Decimal.sign_text n
  have hplus : ∀ cs, Decimal.text n ≠ '+' :: cs := by
    intro cs h
    rw [h] at hsign
    have hhead : '+' :: cs = Nat.toDigits 10 n.natAbs := (Prod.mk.inj hsign).2
    have hdigit := Decimal.isDigit_toDigits n.natAbs '+' (hhead ▸ List.mem_cons_self ..)
    exact absurd hdigit (by decide)
  rw [splitSign]
  · exact hsign
  · exact fun cs h ↦ hplus cs h

/-- **What was formatted is parsed again.** -/
theorem parseInt_formatInt {n : Int} (h : Int64Range n) : parseInt (formatInt n) = some n := by
  have hdigits :
      Nat.toDigits 10 n.natAbs ≠ [] ∧ (Nat.toDigits 10 n.natAbs).all Char.isDigit = true :=
    ⟨Nat.toDigits_ne_nil, List.all_eq_true.mpr (Decimal.isDigit_toDigits n.natAbs)⟩
  have hvalue : (if decide (n < 0) = true then -(n.natAbs : Int) else n.natAbs) = n := by
    simp only [decide_eq_true_eq]
    split <;> omega
  rw [parseInt, formatInt, String.toList_ofList, splitSign_text]
  simp only [if_pos hdigits, Nat.ofDigitChars_ten_toDigits, hvalue, if_pos h]

theorem formatInt_ne_empty (n : Int) : formatInt n ≠ "" := by
  intro h
  refine Decimal.text_ne_nil n ?_
  exact (String.toList_ofList (l := Decimal.text n)).symm.trans (congrArg String.toList h)

/-! ## Ids -/

/-- `encodeIDCursor`. -/
def encodeIDCursor (id : Int) : String := Base64.encodeText (formatInt id)

/-- `decodeIDCursor`. -/
def decodeIDCursor (s : String) : Option Int := (Base64.decodeText s).bind parseInt

theorem decodeIDCursor_encodeIDCursor {id : Int} (h : Int64Range id) :
    decodeIDCursor (encodeIDCursor id) = some id := by
  rw [decodeIDCursor, encodeIDCursor, Base64.decodeText_encodeText, Option.bind_some,
    parseInt_formatInt h]

theorem encodeIDCursor_ne_empty (id : Int) : encodeIDCursor id ≠ "" :=
  fun h ↦ formatInt_ne_empty id (Base64.encodeText_eq_empty.mp h)

/-! ## Times and ids -/

/-- `encodeUsageCursor`. -/
def encodeUsageCursor (t : Time) (id : Int) : String :=
  Base64.encodeText (formatInt t ++ ":" ++ formatInt id)

/-- `decodeUsageCursor`: the number before the first colon, and the one after it. -/
def decodeUsageCursor (s : String) : Option (Time × Int) := do
  let raw ← Base64.decodeText s
  if raw.toList.contains ':' then
    let before := raw.toList.takeWhile (· ≠ ':')
    let ns ← parseInt (String.ofList before)
    let id ← parseInt (String.ofList (raw.toList.drop (before.length + 1)))
    return (ns, id)
  else none

theorem colon_not_mem_text (n : Int) : ':' ∉ Decimal.text n := by
  intro h
  exact absurd (Decimal.numeric_text n _ h) (by decide)

theorem decodeUsageCursor_encodeUsageCursor {t : Time} {id : Int} (ht : Int64Range t)
    (hid : Int64Range id) : decodeUsageCursor (encodeUsageCursor t id) = some (t, id) := by
  have hraw : (formatInt t ++ ":" ++ formatInt id).toList =
      Decimal.text t ++ ':' :: Decimal.text id := by
    simp only [String.toList_append, formatInt, String.toList_ofList, List.append_assoc]
    rfl
  have htake : (Decimal.text t ++ ':' :: Decimal.text id).takeWhile (· ≠ ':') = Decimal.text t := by
    rw [List.takeWhile_append_of_pos]
    · rw [List.takeWhile_cons_of_neg (by simp), List.append_nil]
    · intro c hc
      refine decide_eq_true fun h ↦ colon_not_mem_text t (h ▸ hc)
  have hdrop : (Decimal.text t ++ ':' :: Decimal.text id).drop ((Decimal.text t).length + 1) =
      Decimal.text id := by
    rw [List.drop_append, List.drop_of_length_le (by omega), List.nil_append,
      Nat.add_sub_cancel_left]
    rfl
  have hparse : ∀ {n : Int}, Int64Range n → parseInt (String.ofList (Decimal.text n)) = some n :=
    fun h ↦ parseInt_formatInt h
  rw [decodeUsageCursor, encodeUsageCursor, Base64.decodeText_encodeText]
  simp only [Option.bind_eq_bind, Option.bind_some, hraw, htake, hdrop, hparse ht, hparse hid]
  simp

theorem encodeUsageCursor_ne_empty (t : Time) (id : Int) : encodeUsageCursor t id ≠ "" := by
  intro h
  have hempty := congrArg String.toList (Base64.encodeText_eq_empty.mp h)
  simp at hempty

end Voxeltoad
