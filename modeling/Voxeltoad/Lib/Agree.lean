import Mathlib.Algebra.Order.Field.Basic
import Mathlib.Data.Rat.Defs
import Voxeltoad.Lib.Unmarshal

/-!
# Values that say the same

Two JSON values can differ in ways that do not matter: in the order of the members of an object, in
how a number is written, and in members that say nothing.  A member that is `null` says as little as
one that is not there, and where it is known what a value is read into, so does the empty value of
that type.

`Shape` is what a value is read into, `Shape.blank` are the values that say nothing there, and
`Agree` is that two values say the same.  A name that occurs twice in an object says two things.
-/

set_option autoImplicit false

/-! ## Numbers -/

namespace Decimal

/-- The value of an exponent, from its sign on. -/
def exponent : List Char → Int
  | '+' :: cs => Nat.ofDigitChars 10 cs 0
  | '-' :: cs => -(Nat.ofDigitChars 10 cs 0 : Int)
  | cs => Nat.ofDigitChars 10 cs 0

/-- The value of a fraction. -/
def Fraction.value (x : Fraction) : ℚ :=
  let whole := (sign x.chars).2.takeWhile Char.isDigit
  let rest := (sign x.chars).2.dropWhile Char.isDigit
  let places := match rest with
    | '.' :: cs => cs.takeWhile Char.isDigit
    | _ => []
  let power : Int := match rest.dropWhile fun c ↦ c = '.' || c.isDigit with
    | _ :: cs => exponent cs
    | [] => 0
  (if (sign x.chars).1 then -1 else 1) * Nat.ofDigitChars 10 (whole ++ places) 0 *
    10 ^ (power - places.length : Int)

end Decimal

/-- A number as it is written. -/
inductive JsonNumber where
  | int (n : Int)
  | frac (x : Decimal.Fraction)
  deriving DecidableEq, Repr

namespace JsonNumber

def value : JsonNumber → ℚ
  | int n => n
  | frac x => x.value

def json : JsonNumber → JsonValue
  | int n => .num n
  | frac x => .frac x

end JsonNumber

/-! ## Shapes -/

/-- What a value is read into. -/
inductive Shape where
  | any
  | text
  | flag
  | list (item : Shape)
  | record (fields : List (String × Shape))

namespace Shape

/-- What a member of an object is read into. -/
def member : Shape → String → Shape
  | record fields, k => (fields.lookup k).getD any
  | _, _ => any

/-- What an item of an array is read into. -/
def item : Shape → Shape
  | list s => s
  | _ => any

mutual

/-- **The values that say nothing**: `null`, and the empty value of the type. -/
def blank : Shape → JsonValue → Bool
  | _, .null => true
  | text, .str s => s = ""
  | flag, .bool b => !b
  | list _, .arr vs => vs.isEmpty
  | record fields, .obj ms => blankMembers fields ms
  | _, _ => false

def blankMembers (fields : List (String × Shape)) : List (String × JsonValue) → Bool
  | [] => true
  | (k, v) :: ms => blank ((fields.lookup k).getD any) v && blankMembers fields ms

end

/-- The values that say something. -/
def said (s : Shape) (vs : List JsonValue) : List JsonValue := vs.filter fun v ↦ !s.blank v

end Shape

namespace JsonValue

def number? : JsonValue → Option JsonNumber
  | .num n => some (.int n)
  | .frac x => some (.frac x)
  | _ => none

/-- The members of an object. -/
def members : JsonValue → List (String × JsonValue)
  | .obj ms => ms
  | _ => []

/-- The items of an array. -/
def elements : JsonValue → List JsonValue
  | .arr vs => vs
  | _ => []

end JsonValue

/-! ## Agreement -/

open Assoc (values)

mutual

/-- **Two values say the same.** -/
inductive Agree : Shape → JsonValue → JsonValue → Prop
  | null {s : Shape} : Agree s .null .null
  | bool {s : Shape} {b : Bool} : Agree s (.bool b) (.bool b)
  | number {s : Shape} {v w : JsonValue} {m n : JsonNumber} (hv : v.number? = some m)
      (hw : w.number? = some n) (h : m.value = n.value) : Agree s v w
  | str {s : Shape} {t : String} : Agree s (.str t) (.str t)
  | arr {s : Shape} {vs ws : List JsonValue} (h : AgreeAll s.item vs ws) :
      Agree s (.arr vs) (.arr ws)
  | obj {s : Shape} {ms ms' : List (String × JsonValue)}
      (h : ∀ k,
        AgreeAll (s.member k) ((s.member k).said (values k ms))
        ((s.member k).said (values k ms'))) :
      Agree s (.obj ms) (.obj ms')

/-- Two lists say the same, one value after the other. -/
inductive AgreeAll : Shape → List JsonValue → List JsonValue → Prop
  | nil {s : Shape} : AgreeAll s [] []
  | cons {s : Shape} {v w : JsonValue} {vs ws : List JsonValue} (h : Agree s v w)
      (hs : AgreeAll s vs ws) : AgreeAll s (v :: vs) (w :: ws)

end

theorem agreeAll_iff {s : Shape} {vs ws : List JsonValue} :
    AgreeAll s vs ws ↔ List.Forall₂ (Agree s) vs ws := by
  constructor
  · intro h
    induction vs generalizing ws with
    | nil =>
      cases h
      exact .nil
    | cons v vs ih =>
      cases h with
      | cons h hs => exact .cons h (ih hs)
  · intro h
    induction h with
    | nil => exact .nil
    | cons h _ ih => exact .cons h ih

theorem AgreeAll.length_eq {s : Shape} {vs ws : List JsonValue} (h : AgreeAll s vs ws) :
    vs.length = ws.length :=
  (agreeAll_iff.mp h).length_eq

theorem agreeAll_singleton {s : Shape} {v w : JsonValue} : AgreeAll s [v] [w] ↔ Agree s v w := by
  simp [agreeAll_iff]

theorem agreeAll_nil {s : Shape} {vs : List JsonValue} : AgreeAll s vs [] ↔ vs = [] := by
  simp [agreeAll_iff]

theorem agree_obj_iff {s : Shape} {ms ms' : List (String × JsonValue)} :
    Agree s (.obj ms) (.obj ms') ↔
      ∀ k, AgreeAll (s.member k) ((s.member k).said (values k ms))
      ((s.member k).said (values k ms')) := by
  constructor
  · intro h
    cases h with
    | number hv => cases hv
    | obj h => exact h
  · exact .obj

theorem agree_arr_iff {s : Shape} {vs ws : List JsonValue} :
    Agree s (.arr vs) (.arr ws) ↔ AgreeAll s.item vs ws := by
  constructor
  · intro h
    cases h with
    | number hv => cases hv
    | arr h => exact h
  · exact .arr

theorem agree_number_iff {s : Shape} {m n : JsonNumber} :
    Agree s m.json n.json ↔ m.value = n.value := by
  have hnumber : ∀ n : JsonNumber, n.json.number? = some n := by
    rintro (n | x) <;> rfl
  constructor
  · intro h
    generalize hv : m.json = v at h
    generalize hw : n.json = w at h
    cases h with
    | number hm hn h =>
      rw [← hv, hnumber] at hm
      rw [← hw, hnumber] at hn
      rwa [Option.some.inj hm, Option.some.inj hn]
    | _ => cases m <;> cases hv
  · exact .number (hnumber m) (hnumber n)

theorem agree_null_iff {s : Shape} {w : JsonValue} : Agree s .null w ↔ w = .null := by
  constructor
  · intro h
    cases h with
    | number hv => cases hv
    | null => rfl
  · rintro rfl
    exact .null

mutual

/-- **A value says what it says.** -/
theorem Agree.refl (s : Shape) : ∀ v : JsonValue, Agree s v v
  | .null => .null
  | .bool _ => .bool
  | .num _ => .number rfl rfl rfl
  | .frac _ => .number rfl rfl rfl
  | .str _ => .str
  | .arr vs =>
      .arr (agreeAll_iff.mpr (List.forall₂_same.mpr fun v hv ↦ Agree.refl_items vs v hv s.item))
  | .obj ms => by
    refine .obj fun k ↦ agreeAll_iff.mpr (List.forall₂_same.mpr fun v hv ↦ ?_)
    exact Agree.refl_members ms _ (Assoc.mem_values.mp (List.mem_of_mem_filter hv)) _

theorem Agree.refl_items : ∀ (vs : List JsonValue) (v : JsonValue), v ∈ vs → ∀ s, Agree s v v
  | [], _, hv, _ => absurd hv List.not_mem_nil
  | v :: vs, _, hv, s => by
    rcases List.mem_cons.mp hv with heq | hv
    · exact heq ▸ Agree.refl s v
    · exact Agree.refl_items vs _ hv s

theorem Agree.refl_members : ∀ (ms : List (String × JsonValue)) (m : String × JsonValue), m ∈ ms →
    ∀ s, Agree s m.2 m.2
  | [], _, hm, _ => absurd hm List.not_mem_nil
  | (k, v) :: ms, _, hm, s => by
    rcases List.mem_cons.mp hm with heq | hm
    · exact heq ▸ Agree.refl s v
    · exact Agree.refl_members ms _ hm s

end

/-! ## What an object says -/

namespace Shape

variable {s : Shape} {vs : List JsonValue}

@[simp]
theorem blank_null (s : Shape) : s.blank .null = true := by
  cases s <;> rfl

theorem said_eq_nil : s.said vs = [] ↔ ∀ v ∈ vs, s.blank v = true := by
  simp [said]

theorem said_cons (v : JsonValue) :
    s.said (v :: vs) = (if s.blank v then [] else [v]) ++ s.said vs := by
  rw [said, List.filter_cons]
  cases s.blank v <;> rfl

theorem said_append (ws : List JsonValue) : s.said (vs ++ ws) = s.said vs ++ s.said ws :=
  List.filter_append ..

theorem mem_said {v : JsonValue} : v ∈ s.said vs ↔ v ∈ vs ∧ s.blank v = false := by
  simp [said]

theorem blankMembers_iff (fields : List (String × Shape)) (ms : List (String × JsonValue)) :
    blankMembers fields ms = true ↔ ∀ m ∈ ms, ((record fields).member m.1).blank m.2 = true := by
  induction ms with
  | nil => simp [blankMembers]
  | cons m ms ih =>
    rw [blankMembers, Bool.and_eq_true, ih, List.forall_mem_cons]
    rfl

/-- An object says nothing if no member of it does. -/
theorem blank_obj_iff {fields : List (String × Shape)} {ms : List (String × JsonValue)} :
    (record fields).blank (.obj ms) = true ↔
      ∀ k, ((record fields).member k).said (values k ms) = [] := by
  rw [blank, blankMembers_iff]
  simp only [said_eq_nil, Assoc.mem_values]
  exact ⟨fun h k v hv ↦ h (k, v) hv, fun h m hm ↦ h m.1 m.2 hm⟩

end Shape

/-- Objects that agree say something or both say nothing. -/
theorem blank_of_agree {fields : List (String × Shape)} {ms ms' : List (String × JsonValue)}
    (h : Agree (.record fields) (.obj ms) (.obj ms')) :
    (Shape.record fields).blank (.obj ms) = (Shape.record fields).blank (.obj ms') := by
  rw [Bool.eq_iff_iff, Shape.blank_obj_iff, Shape.blank_obj_iff]
  refine forall_congr' fun k ↦ ?_
  rw [← List.length_eq_zero_iff, (agree_obj_iff.mp h k).length_eq, List.length_eq_zero_iff]
