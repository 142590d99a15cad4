import Mathlib.Data.List.Basic
import Mathlib.Data.List.TakeWhile

/-!
# JSON text

Values, the text that Go's `encoding/json` marshals them to, and a reader for such text.

Numbers are integers or fractions; a fraction is kept as it is written.  The text of a value has no
white space, the fields of an object come in the order they are given in, and in a string not only
control characters are escaped but also `<`, `>`, `&` and the two separators that JavaScript takes
for the end of a line.  So the text of a value is one line (`JsonValue.text_line`).

`JsonValue.read` accepts any JSON text.  `JsonValue.read_text` is that it undoes `JsonValue.text`.
The reader also knows the text of every part of what it reads: `Written` is a value with these
texts, for programs that keep a part of a document as it came.
-/

set_option autoImplicit false

/-! ## Numbers -/

namespace Decimal

/-- A character of a number. -/
def isNumeric (c : Char) : Bool := c.isDigit || c = '-' || c = '+' || c = '.' || c = 'e' || c = 'E'

/-- Digits without a superfluous zero. -/
def isNatural : List Char → Bool
  | [] => false
  | c :: cs => c.isDigit && cs.all Char.isDigit && (c ≠ '0' || cs.isEmpty)

/-- The sign of a number, and the rest of it. -/
def sign : List Char → Bool × List Char
  | '-' :: cs => (true, cs)
  | cs => (false, cs)

/-- An integer. -/
def readInt (cs : List Char) : Option Int :=
  if isNatural (sign cs).2 then
    let n : Nat := Nat.ofDigitChars 10 (sign cs).2 0
    some (if (sign cs).1 then -n else n)
  else none

/-- The text of an integer. -/
def text (n : Int) : List Char := (if n < 0 then ['-'] else []) ++ Nat.toDigits 10 n.natAbs

/-- The exponent of a number, from its sign on. -/
def isExponent (cs : List Char) : Bool :=
  let digits := match cs with
    | '+' :: cs => cs
    | '-' :: cs => cs
    | cs => cs
  !digits.isEmpty && digits.all Char.isDigit

/-- A number that has a fraction or an exponent. -/
def isFraction (cs : List Char) : Bool :=
  let whole := (sign cs).2.takeWhile Char.isDigit
  isNatural whole && cs.all isNumeric &&
    match (sign cs).2.dropWhile Char.isDigit with
    | '.' :: cs =>
      !(cs.takeWhile Char.isDigit).isEmpty &&
        match cs.dropWhile Char.isDigit with
        | [] => true
        | e :: cs => (e = 'e' || e = 'E') && isExponent cs
    | e :: cs => (e = 'e' || e = 'E') && isExponent cs
    | [] => false

/-- A number that is not an integer, as it is written. -/
structure Fraction where
  chars : List Char
  valid : isFraction chars = true
  deriving DecidableEq, Repr

theorem isNumeric_of_isDigit {c : Char} (h : c.isDigit = true) : isNumeric c = true := by
  simp [isNumeric, h]

theorem isDigit_toDigits (n : Nat) : ∀ c ∈ Nat.toDigits 10 n, c.isDigit = true :=
  fun _ hc ↦ Nat.isDigit_of_mem_toDigits (by decide) (by decide) hc

/-- The first digit is zero for zero only. -/
theorem head_toDigits (n : Nat) : (Nat.toDigits 10 n).head? = some '0' → n = 0 := by
  induction n using Nat.strongRecOn with
  | ind n ih =>
    have hdigit : ∀ d < 10, d.digitChar = '0' → d = 0 := by decide
    intro h
    rw [Nat.toDigits_eq_if (by decide)] at h
    split at h
    · rename_i hlt
      exact hdigit n hlt (Option.some.inj h)
    · rename_i hge
      have hhead : (Nat.toDigits 10 (n / 10)).head? = some '0' := by
        rw [List.head?_append] at h
        obtain ⟨c, cs, hcs⟩ :=
          List.exists_cons_of_ne_nil (Nat.toDigits_ne_nil (n := n / 10) (b := 10))
        rw [hcs] at h ⊢
        exact h
      have := ih (n / 10) (by omega) hhead
      omega

theorem isNatural_toDigits (n : Nat) : isNatural (Nat.toDigits 10 n) = true := by
  have hdigits := isDigit_toDigits n
  have hhead := head_toDigits n
  cases hcs : Nat.toDigits 10 n with
  | nil => exact absurd hcs Nat.toDigits_ne_nil
  | cons c cs =>
    rw [hcs] at hdigits hhead
    obtain ⟨hc, hrest⟩ := List.forall_mem_cons.mp hdigits
    have hzero : c ≠ '0' ∨ cs = [] := by
      by_cases h0 : c = '0'
      · refine .inr ?_
        rw [hhead (by rw [h0]; rfl), Nat.toDigits_zero] at hcs
        exact (List.cons.inj hcs).2.symm
      · exact .inl h0
    simp only [isNatural, hc, List.all_eq_true.mpr hrest, Bool.and_self, Bool.true_and]
    rcases hzero with h | h <;> simp [h]

theorem sign_text (n : Int) : sign (text n) = (decide (n < 0), Nat.toDigits 10 n.natAbs) := by
  rw [text]
  split
  · rename_i hneg
    simp [sign, hneg]
  · rename_i hneg
    have hdigits := isDigit_toDigits n.natAbs
    cases hcs : Nat.toDigits 10 n.natAbs with
    | nil => exact absurd hcs Nat.toDigits_ne_nil
    | cons c cs =>
      have hc : c.isDigit = true := hdigits c (hcs ▸ List.mem_cons_self ..)
      have hne : c ≠ '-' := by
        rintro rfl
        exact absurd hc (by decide)
      simp [sign, hneg, hne]

/-- **An integer is read as it was written.** -/
theorem readInt_text (n : Int) : readInt (text n) = some n := by
  rw [readInt, sign_text, if_pos (isNatural_toDigits _)]
  simp only [Nat.ofDigitChars_ten_toDigits, decide_eq_true_eq, Option.some.injEq]
  split <;> omega

theorem numeric_text (n : Int) : ∀ c ∈ text n, isNumeric c = true := by
  intro c hc
  rw [text] at hc
  rcases List.mem_append.mp hc with hc | hc
  · split at hc
    · rw [List.mem_singleton.mp hc]
      decide
    · exact absurd hc List.not_mem_nil
  · exact isNumeric_of_isDigit (isDigit_toDigits _ c hc)

theorem isFraction_text (n : Int) : isFraction (text n) = false := by
  have hdrop : (Nat.toDigits 10 n.natAbs).dropWhile Char.isDigit = [] :=
    List.dropWhile_eq_nil_iff.mpr (isDigit_toDigits _)
  simp [isFraction, sign_text, hdrop]

theorem text_ne_nil (n : Int) : text n ≠ [] := by
  rw [text]
  exact List.append_ne_nil_of_right_ne_nil _ Nat.toDigits_ne_nil

theorem Fraction.numeric (x : Fraction) : ∀ c ∈ x.chars, isNumeric c = true := by
  have hvalid := x.valid
  simp only [isFraction, Bool.and_eq_true] at hvalid
  exact List.all_eq_true.mp hvalid.1.2

theorem Fraction.ne_nil (x : Fraction) : x.chars ≠ [] := by
  intro hnil
  have hvalid := x.valid
  rw [hnil] at hvalid
  exact absurd hvalid (by decide)

theorem Fraction.head (x : Fraction) :
    ∃ c cs, x.chars = c :: cs ∧ (c.isDigit = true ∨ c = '-') := by
  obtain ⟨c, cs, hcs⟩ := List.exists_cons_of_ne_nil x.ne_nil
  refine ⟨c, cs, hcs, ?_⟩
  by_cases hsign : c = '-'
  · exact .inr hsign
  · have hvalid := x.valid
    have hsame : sign x.chars = (false, c :: cs) := by
      simp [hcs, sign, hsign]
    simp only [isFraction, hsame, Bool.and_eq_true] at hvalid
    refine .inl ?_
    by_contra hdigit
    simp [hdigit, isNatural] at hvalid

theorem text_head (n : Int) : ∃ c cs, text n = c :: cs ∧ (c.isDigit = true ∨ c = '-') := by
  obtain ⟨c, cs, hcs⟩ := List.exists_cons_of_ne_nil (text_ne_nil n)
  refine ⟨c, cs, hcs, ?_⟩
  rw [text] at hcs
  split at hcs
  · exact .inr (List.cons.inj hcs).1.symm
  · rw [List.nil_append] at hcs
    exact .inl (isDigit_toDigits n.natAbs c (hcs ▸ List.mem_cons_self ..))

theorem le_toNat_of_isDigit {c : Char} (h : c.isDigit = true) : 48 ≤ c.toNat := by
  simp only [Char.isDigit, Bool.and_eq_true, decide_eq_true_eq] at h
  exact h.1

end Decimal

/-! ## Strings -/

namespace JsonText

def hexDigit (n : Nat) : Char := "0123456789abcdef".toList.getD n '0'

def hexValue (c : Char) : Option Nat :=
  if '0' ≤ c ∧ c ≤ '9' then some (c.toNat - 48)
  else if 'a' ≤ c ∧ c ≤ 'f' then some (c.toNat - 87)
  else if 'A' ≤ c ∧ c ≤ 'F' then some (c.toNat - 55)
  else none

/-- Four hexadecimal digits. -/
def hexUnit (n : Nat) : List Char :=
  [hexDigit (n / 4096 % 16), hexDigit (n / 256 % 16), hexDigit (n / 16 % 16), hexDigit (n % 16)]

def readUnit (a b c d : Char) : Option Nat := do
  return 4096 * (← hexValue a) + 256 * (← hexValue b) + 16 * (← hexValue c) + (← hexValue d)

/-- A character that is written as it is. -/
def isPlain (c : Char) : Bool :=
  32 ≤ c.toNat && c ≠ '"' && c ≠ '\\' && c ≠ '<' && c ≠ '>' && c ≠ '&' && c.toNat ≠ 0x2028 &&
    c.toNat ≠ 0x2029

/-- A character of a string, as `encoding/json` writes it. -/
def escape (c : Char) : List Char :=
  if isPlain c then [c]
  else if c = '"' then ['\\', '"']
  else if c = '\\' then ['\\', '\\']
  else if c.toNat = 8 then ['\\', 'b']
  else if c.toNat = 12 then ['\\', 'f']
  else if c.toNat = 10 then ['\\', 'n']
  else if c.toNat = 13 then ['\\', 'r']
  else if c.toNat = 9 then ['\\', 't']
  else '\\' :: 'u' :: hexUnit c.toNat

/-- The text of a string, from behind its first quote on. -/
def quoted (cs : List Char) : List Char := cs.flatMap escape ++ ['"']

/-- The characters that have an escape of their own. -/
def shortEscapes : List (Char × Char) :=
  [('"', '"'), ('\\', '\\'), ('/', '/'), ('b', Char.ofNat 8), ('f', Char.ofNat 12),
    ('n', Char.ofNat 10), ('r', Char.ofNat 13), ('t', Char.ofNat 9)]

/-- Read a string, from behind its first quote on: its code units, and what follows it. -/
def readUnits : List Char → Option (List Nat × List Char)
  | [] => none
  | '"' :: cs => some ([], cs)
  | '\\' :: 'u' :: a :: b :: c :: d :: cs => do
    let n ← readUnit a b c d
    let (units, rest) ← readUnits cs
    return (n :: units, rest)
  | '\\' :: e :: cs => do
    let c ← shortEscapes.lookup e
    let (units, rest) ← readUnits cs
    return (c.toNat :: units, rest)
  | c :: cs =>
    if c.toNat < 32 then none
    else do
      let (units, rest) ← readUnits cs
      return (c.toNat :: units, rest)

/-- Put the pairs of surrogates together; a surrogate by itself is replaced. -/
def joinUnits : List Nat → List Char
  | [] => []
  | [n] => [if 0xD800 ≤ n ∧ n < 0xE000 then Char.ofNat 0xFFFD else Char.ofNat n]
  | n :: m :: units =>
    if 0xD800 ≤ n ∧ n < 0xDC00 ∧ 0xDC00 ≤ m ∧ m < 0xE000 then
      Char.ofNat (0x10000 + (n - 0xD800) * 0x400 + (m - 0xDC00)) :: joinUnits units
    else
      (if 0xD800 ≤ n ∧ n < 0xE000 then Char.ofNat 0xFFFD else Char.ofNat n) ::
        joinUnits (m :: units)

def readQuoted (cs : List Char) : Option (List Char × List Char) :=
  (readUnits cs).map fun p ↦ (joinUnits p.1, p.2)

theorem hexValue_hexDigit : ∀ n < 16, hexValue (hexDigit n) = some n := by decide

theorem readUnit_hexUnit {n : Nat} (h : n < 65536) :
    readUnit (hexDigit (n / 4096 % 16)) (hexDigit (n / 256 % 16)) (hexDigit (n / 16 % 16))
      (hexDigit (n % 16)) = some n := by
  have hdigit := fun m ↦ hexValue_hexDigit (m % 16) (Nat.mod_lt _ (by decide))
  simp only [readUnit, hdigit, Option.bind_eq_bind, Option.bind_some, Option.pure_def,
    Option.some.injEq]
  omega

theorem readUnits_plain {c : Char} (h : isPlain c = true) (cs : List Char) :
    readUnits (c :: cs) = (readUnits cs).map fun p ↦ (c.toNat :: p.1, p.2) := by
  simp only [isPlain, Bool.and_eq_true, decide_eq_true_eq] at h
  obtain ⟨⟨⟨⟨⟨⟨⟨hge, hquote⟩, hslash⟩, -⟩, -⟩, -⟩, -⟩, -⟩ := h
  rw [readUnits.eq_def]
  split
  · rename_i heq
    cases heq
  · rename_i heq
    exact absurd (List.cons.inj heq).1 hquote
  · rename_i heq
    exact absurd (List.cons.inj heq).1 hslash
  · rename_i heq
    exact absurd (List.cons.inj heq).1 hslash
  · rename_i heq
    obtain ⟨rfl, rfl⟩ := List.cons.inj heq
    rw [if_neg (by omega)]
    cases readUnits cs <;> rfl

theorem readUnits_short {e c : Char} (h : shortEscapes.lookup e = some c) (hne : e ≠ 'u')
    (cs : List Char) :
    readUnits ('\\' :: e :: cs) = (readUnits cs).map fun p ↦ (c.toNat :: p.1, p.2) := by
  rw [readUnits.eq_def]
  split
  · rename_i heq
    cases heq
  · rename_i heq
    exact absurd (List.cons.inj heq).1 (by decide)
  · rename_i heq
    exact absurd (List.cons.inj (List.cons.inj heq).2).1 hne
  · rename_i heq
    obtain ⟨rfl, rfl⟩ := List.cons.inj (List.cons.inj heq).2
    simp only [h, Option.bind_eq_bind, Option.bind_some]
    cases readUnits cs <;> rfl
  · rename_i hfour hshort heq
    obtain ⟨hc, hcs⟩ := List.cons.inj heq
    exact absurd hcs.symm (hshort e cs hc.symm)

theorem readUnits_unit {n : Nat} (h : n < 65536) (cs : List Char) :
    readUnits ('\\' :: 'u' :: hexUnit n ++ cs) =
      (readUnits cs).map fun p ↦ (n :: p.1, p.2) := by
  simp only [hexUnit, List.cons_append, List.nil_append, readUnits, readUnit_hexUnit h,
    Option.bind_eq_bind, Option.bind_some]
  cases readUnits cs <;> rfl

/-- A character that is escaped by its code is one that a code unit can hold. -/
theorem toNat_lt_of_not_plain {c : Char} (h : isPlain c = false) : c.toNat < 65536 := by
  simp only [isPlain, Bool.and_eq_false_iff, decide_eq_false_iff_not, not_not] at h
  rcases h with ((((((h | h) | h) | h) | h) | h) | h) | h
  all_goals first | (rw [h]; decide) | omega

theorem readUnits_escape (c : Char) (cs : List Char) :
    readUnits (escape c ++ cs) = (readUnits cs).map fun p ↦ (c.toNat :: p.1, p.2) := by
  have hshort : ∀ {e : Char} {n : Nat}, shortEscapes.lookup e = some (Char.ofNat n) → e ≠ 'u' →
      c.toNat = n → readUnits (['\\', e] ++ cs) =
        (readUnits cs).map fun p ↦ (c.toNat :: p.1, p.2) := by
    rintro e n hlookup hne rfl
    rw [Char.ofNat_toNat] at hlookup
    exact readUnits_short hlookup hne cs
  rw [escape]
  split
  · exact readUnits_plain ‹_› cs
  split
  · exact hshort (n := 34) (by decide) (by decide) (by simp [*])
  split
  · exact hshort (n := 92) (by decide) (by decide) (by simp [*])
  split
  · exact hshort (n := 8) (by decide) (by decide) ‹_›
  split
  · exact hshort (n := 12) (by decide) (by decide) ‹_›
  split
  · exact hshort (n := 10) (by decide) (by decide) ‹_›
  split
  · exact hshort (n := 13) (by decide) (by decide) ‹_›
  split
  · exact hshort (n := 9) (by decide) (by decide) ‹_›
  · refine readUnits_unit (toNat_lt_of_not_plain ?_) cs
    simpa using ‹¬ isPlain c = true›

theorem readUnits_quoted (cs rest : List Char) :
    readUnits (quoted cs ++ rest) = some (cs.map Char.toNat, rest) := by
  induction cs with
  | nil => rfl
  | cons c cs ih =>
    have happend : quoted (c :: cs) ++ rest = escape c ++ (quoted cs ++ rest) := by
      simp [quoted]
    rw [happend, readUnits_escape, ih]
    rfl

theorem joinUnits_map (cs : List Char) : joinUnits (cs.map Char.toNat) = cs := by
  have hvalid : ∀ c : Char, ¬ (0xD800 ≤ c.toNat ∧ c.toNat < 0xE000) := by
    intro c
    have hvalid : c.toNat.isValidChar := c.valid
    rcases hvalid with h | h <;> omega
  induction cs with
  | nil => rfl
  | cons c cs ih =>
    cases cs with
    | nil => simp [joinUnits, hvalid, Char.ofNat_toNat]
    | cons c' cs =>
      simp only [List.map_cons] at ih ⊢
      rw [joinUnits, if_neg, if_neg (hvalid c), Char.ofNat_toNat, ih]
      have := hvalid c
      omega

/-- **A string is read as it was written.** -/
theorem readQuoted_quoted (cs rest : List Char) :
    readQuoted (quoted cs ++ rest) = some (cs, rest) := by
  rw [readQuoted, readUnits_quoted, Option.map_some, joinUnits_map]

end JsonText

/-! ## Values -/

/-- A JSON value. -/
inductive JsonValue where
  | null
  | bool (b : Bool)
  | num (n : Int)
  | frac (x : Decimal.Fraction)
  | str (s : String)
  | arr (items : List JsonValue)
  | obj (fields : List (String × JsonValue))
  deriving Repr

namespace JsonValue

open JsonText

mutual

/-- **The text of a value**, as `json.Marshal` writes it. -/
def text : JsonValue → List Char
  | .null => ['n', 'u', 'l', 'l']
  | .bool true => ['t', 'r', 'u', 'e']
  | .bool false => ['f', 'a', 'l', 's', 'e']
  | .num n => Decimal.text n
  | .frac x => x.chars
  | .str s => '"' :: quoted s.toList
  | .arr [] => ['[', ']']
  | .arr (v :: vs) => '[' :: v.text ++ itemsText vs
  | .obj [] => ['\x7b', '\x7d']
  | .obj ((k, v) :: fs) => '\x7b' :: '"' :: quoted k.toList ++ ':' :: v.text ++ fieldsText fs

/-- The items of an array after the first. -/
def itemsText : List JsonValue → List Char
  | [] => [']']
  | v :: vs => ',' :: v.text ++ itemsText vs

/-- The fields of an object after the first. -/
def fieldsText : List (String × JsonValue) → List Char
  | [] => ['\x7d']
  | (k, v) :: fs => ',' :: '"' :: quoted k.toList ++ ':' :: v.text ++ fieldsText fs

end

/-- A value as it is written: with its text, and with its parts as they are written. -/
inductive Written where
  | atom (text : List Char) (v : JsonValue)
  | arr (text : List Char) (items : List Written)
  | obj (text : List Char) (fields : List (String × Written))
  deriving Repr

namespace Written

def text : Written → List Char
  | .atom text _ | .arr text _ | .obj text _ => text

mutual

/-- What is written. -/
def value : Written → JsonValue
  | .atom _ v => v
  | .arr _ ws => .arr (values ws)
  | .obj _ fs => .obj (fieldValues fs)

def values : List Written → List JsonValue
  | [] => []
  | w :: ws => w.value :: values ws

def fieldValues : List (String × Written) → List (String × JsonValue)
  | [] => []
  | (k, w) :: fs => (k, w.value) :: fieldValues fs

end

end Written

mutual

/-- A value as `json.Marshal` writes it. -/
def written : JsonValue → Written
  | .null => .atom (text .null) .null
  | .bool b => .atom (text (.bool b)) (.bool b)
  | .num n => .atom (text (.num n)) (.num n)
  | .frac x => .atom (text (.frac x)) (.frac x)
  | .str s => .atom (text (.str s)) (.str s)
  | .arr vs => .arr (text (.arr vs)) (writtenItems vs)
  | .obj fs => .obj (text (.obj fs)) (writtenFields fs)

def writtenItems : List JsonValue → List Written
  | [] => []
  | v :: vs => v.written :: writtenItems vs

def writtenFields : List (String × JsonValue) → List (String × Written)
  | [] => []
  | (k, v) :: fs => (k, v.written) :: writtenFields fs

end

def isSpace (c : Char) : Bool := c = ' ' || c.toNat = 9 || c.toNat = 10 || c.toNat = 13

def skip (cs : List Char) : List Char := cs.dropWhile isSpace

/-- Read a number. -/
def readNumber (cs : List Char) : Option (JsonValue × List Char) :=
  let chars := cs.takeWhile Decimal.isNumeric
  let rest := cs.dropWhile Decimal.isNumeric
  if h : Decimal.isFraction chars = true then some (.frac ⟨chars, h⟩, rest)
  else (Decimal.readInt chars).map fun n ↦ (.num n, rest)

/-- The text in front of `rest`, its end. -/
def before (cs rest : List Char) : List Char := cs.take (cs.length - rest.length)

mutual

/-- Read a value.  `fuel` bounds the number of values that it can be made of. -/
def readValue : Nat → List Char → Option (Written × List Char)
  | 0, _ => none
  | fuel + 1, cs =>
    let cs := skip cs
    match cs with
    | 'n' :: 'u' :: 'l' :: 'l' :: rest => some (.atom (before cs rest) .null, rest)
    | 't' :: 'r' :: 'u' :: 'e' :: rest => some (.atom (before cs rest) (.bool true), rest)
    | 'f' :: 'a' :: 'l' :: 's' :: 'e' :: rest =>
      some (.atom (before cs rest) (.bool false), rest)
    | '"' :: rest =>
      (readQuoted rest).map fun p ↦ (.atom (before cs p.2) (.str (String.ofList p.1)), p.2)
    | '[' :: rest =>
      match skip rest with
      | ']' :: rest => some (.arr (before cs rest) [], rest)
      | rest => (readItems fuel rest).map fun p ↦ (.arr (before cs p.2) p.1, p.2)
    | '\x7b' :: rest =>
      match skip rest with
      | '\x7d' :: rest => some (.obj (before cs rest) [], rest)
      | rest => (readFields fuel rest).map fun p ↦ (.obj (before cs p.2) p.1, p.2)
    | cs => (readNumber cs).map fun p ↦ (.atom (before cs p.2) p.1, p.2)

/-- Read the items of an array, from the first on. -/
def readItems : Nat → List Char → Option (List Written × List Char)
  | 0, _ => none
  | fuel + 1, cs =>
    match readValue fuel cs with
    | none => none
    | some (w, rest) =>
      match skip rest with
      | ',' :: rest => (readItems fuel rest).map fun p ↦ (w :: p.1, p.2)
      | ']' :: rest => some ([w], rest)
      | _ => none

/-- Read the fields of an object, from the first on. -/
def readFields : Nat → List Char → Option (List (String × Written) × List Char)
  | 0, _ => none
  | fuel + 1, cs =>
    match skip cs with
    | '"' :: rest =>
      match readQuoted rest with
      | none => none
      | some (k, rest) =>
        match skip rest with
        | ':' :: rest =>
          match readValue fuel rest with
          | none => none
          | some (w, rest) =>
            match skip rest with
            | ',' :: rest =>
              (readFields fuel rest).map fun p ↦ ((String.ofList k, w) :: p.1, p.2)
            | '\x7d' :: rest => some ([(String.ofList k, w)], rest)
            | _ => none
        | _ => none
    | _ => none

end

/-- **Read a JSON text**, and keep the texts of its parts. -/
def readWritten (cs : List Char) : Option Written :=
  match readValue (cs.length + 1) cs with
  | none => none
  | some (w, rest) => if skip rest = [] then some w else none

/-- **Read a JSON text.** -/
def read (cs : List Char) : Option JsonValue := (readWritten cs).map Written.value

/-! ### The round trip -/

/-- What can follow a number. -/
def Ends (rest : List Char) : Prop := ∀ c ∈ rest.head?, Decimal.isNumeric c = false

theorem ends_cons {c : Char} {rest : List Char} (h : Decimal.isNumeric c = false) :
    Ends (c :: rest) := by
  rintro c' ⟨⟩
  exact h

theorem skip_cons {c : Char} {rest : List Char} (h : isSpace c = false) :
    skip (c :: rest) = c :: rest := by
  rw [skip, List.dropWhile_cons_of_neg (by simp [h])]

theorem numeric_append {chars rest : List Char} (h : ∀ c ∈ chars, Decimal.isNumeric c = true)
    (hrest : Ends rest) :
    (chars ++ rest).takeWhile Decimal.isNumeric = chars ∧
      (chars ++ rest).dropWhile Decimal.isNumeric = rest := by
  rw [List.takeWhile_append_of_pos h, List.dropWhile_append_of_pos h]
  cases rest with
  | nil => simp
  | cons c rest => simp [hrest c rfl]

theorem isSpace_of_isDigit {c : Char} (h : c.isDigit = true) : isSpace c = false := by
  have hge := Decimal.le_toNat_of_isDigit h
  have hblank : c ≠ ' ' := by
    rintro rfl
    exact absurd hge (by decide)
  simp only [isSpace, Bool.or_eq_false_iff, decide_eq_false_iff_not]
  exact ⟨⟨⟨hblank, by omega⟩, by omega⟩, by omega⟩

theorem before_append (cs rest : List Char) : before (cs ++ rest) rest = cs := by
  rw [before, List.length_append, Nat.add_sub_cancel, List.take_left]

mutual

@[simp] theorem value_written : ∀ v : JsonValue, v.written.value = v
  | .null | .bool _ | .num _ | .frac _ | .str _ => rfl
  | .arr vs => congrArg JsonValue.arr (values_written vs)
  | .obj fs => congrArg JsonValue.obj (fieldValues_written fs)

theorem values_written : ∀ vs : List JsonValue, Written.values (writtenItems vs) = vs
  | [] => rfl
  | v :: vs => congrArg₂ List.cons v.value_written (values_written vs)

theorem fieldValues_written :
    ∀ fs : List (String × JsonValue), Written.fieldValues (writtenFields fs) = fs
  | [] => rfl
  | (k, v) :: fs => by
    rw [writtenFields, Written.fieldValues, value_written v, fieldValues_written fs]

end

theorem writtenItems_eq (vs : List JsonValue) : writtenItems vs = vs.map written := by
  induction vs with
  | nil => rfl
  | cons v vs ih => rw [writtenItems, ih, List.map_cons]

theorem writtenFields_eq (fs : List (String × JsonValue)) :
    writtenFields fs = fs.map fun f ↦ (f.1, f.2.written) := by
  induction fs with
  | nil => rfl
  | cons f fs ih => rw [writtenFields, ih, List.map_cons]

/-- What begins like a number is read as one. -/
theorem readValue_number {fuel : Nat} {c : Char} {cs : List Char}
    (h : c.isDigit = true ∨ c = '-') : readValue (fuel + 1) (c :: cs) =
      (readNumber (c :: cs)).map fun p ↦ (.atom (before (c :: cs) p.2) p.1, p.2) := by
  have hne : ∀ d ∈ ['n', 't', 'f', '"', '[', '\x7b'], c ≠ d := by
    rintro d hd rfl
    revert h
    simp only [List.mem_cons, List.not_mem_nil, or_false] at hd
    rcases hd with rfl | rfl | rfl | rfl | rfl | rfl <;> decide
  have hspace : isSpace c = false := by
    rcases h with h | rfl
    · exact isSpace_of_isDigit h
    · decide
  rw [readValue, skip_cons hspace]
  simp only [List.mem_cons, List.not_mem_nil, or_false, forall_eq_or_imp, forall_eq] at hne
  split <;> simp_all

theorem readNumber_num (n : Int) {rest : List Char} (hrest : Ends rest) :
    readNumber (Decimal.text n ++ rest) = some (.num n, rest) := by
  obtain ⟨htake, hdrop⟩ := numeric_append (Decimal.numeric_text n) hrest
  simp [readNumber, htake, hdrop, Decimal.isFraction_text, Decimal.readInt_text]

theorem readNumber_frac (x : Decimal.Fraction) {rest : List Char} (hrest : Ends rest) :
    readNumber (x.chars ++ rest) = some (.frac x, rest) := by
  obtain ⟨htake, hdrop⟩ := numeric_append x.numeric hrest
  simp [readNumber, htake, hdrop, x.valid]

theorem ends_itemsText (vs : List JsonValue) (rest : List Char) : Ends (itemsText vs ++ rest) := by
  cases vs <;> exact ends_cons (by decide)

theorem ends_fieldsText (fs : List (String × JsonValue)) (rest : List Char) :
    Ends (fieldsText fs ++ rest) := by
  cases fs <;> exact ends_cons (by decide)

theorem text_ne_nil (v : JsonValue) : v.text ≠ [] := by
  cases v with
  | null => simp [text]
  | bool b => cases b <;> simp [text]
  | num n => exact Decimal.text_ne_nil n
  | frac x => exact x.ne_nil
  | str s => simp [text]
  | arr vs => cases vs <;> simp [text]
  | obj fs => cases fs <;> simp [text]

/-- The text of a value does not begin with a space, or with the end of an array. -/
theorem text_head (v : JsonValue) :
    ∃ c cs, v.text = c :: cs ∧ isSpace c = false ∧ c ≠ ']' := by
  have hnumber : ∀ c : Char, (c.isDigit = true ∨ c = '-') → isSpace c = false ∧ c ≠ ']' := by
    rintro c (hc | rfl)
    · refine ⟨isSpace_of_isDigit hc, ?_⟩
      rintro rfl
      exact absurd hc (by decide)
    · decide
  cases v with
  | null => exact ⟨_, _, rfl, by decide, by decide⟩
  | bool b => cases b <;> exact ⟨_, _, rfl, by decide, by decide⟩
  | num n =>
    obtain ⟨c, cs, hcs, hc⟩ := Decimal.text_head n
    exact ⟨c, cs, hcs, hnumber c hc⟩
  | frac x =>
    obtain ⟨c, cs, hcs, hc⟩ := x.head
    exact ⟨c, cs, hcs, hnumber c hc⟩
  | str s => exact ⟨_, _, rfl, by decide, by decide⟩
  | arr vs => cases vs <;> exact ⟨_, _, rfl, by decide, by decide⟩
  | obj fs => cases fs <;> exact ⟨_, _, rfl, by decide, by decide⟩

/-- An array that is not empty is read by its items. -/
theorem readValue_arr {fuel : Nat} (v : JsonValue) (cs : List Char) :
    readValue (fuel + 1) ('[' :: (v.text ++ cs)) =
      (readItems fuel (v.text ++ cs)).map fun p ↦
        (.arr (before ('[' :: (v.text ++ cs)) p.2) p.1, p.2) := by
  obtain ⟨c, rest, hv, hspace, hne⟩ := v.text_head
  simp only [hv, List.cons_append, readValue, skip_cons (c := '[') (by decide), skip_cons hspace]
  split
  · rename_i heq
    exact absurd (List.cons.inj heq).1 hne
  · rfl

/-- An object that is not empty is read by its fields. -/
theorem readValue_obj {fuel : Nat} (cs : List Char) :
    readValue (fuel + 1) ('\x7b' :: '"' :: cs) =
      (readFields fuel ('"' :: cs)).map fun p ↦
        (.obj (before ('\x7b' :: '"' :: cs) p.2) p.1, p.2) := by
  simp only [readValue, skip_cons (c := '\x7b') (by decide), skip_cons (c := '"') (by decide)]
  split
  · rename_i heq
    exact absurd (List.cons.inj heq).1 (by decide)
  · rfl

mutual

theorem readValue_text : ∀ (v : JsonValue) (fuel : Nat) (rest : List Char),
    v.text.length ≤ fuel → Ends rest → readValue fuel (v.text ++ rest) = some (v.written, rest)
  | v, 0, rest, hfuel, _ => by
    exact absurd (List.length_eq_zero_iff.mp (Nat.le_zero.mp hfuel)) v.text_ne_nil
  | .null, fuel + 1, rest, _, _ => by
    have hbefore := before_append (text .null) rest
    exact congrArg (fun cs ↦ some (Written.atom cs .null, rest)) hbefore
  | .bool true, fuel + 1, rest, _, _ => by
    have hbefore := before_append (text (.bool true)) rest
    exact congrArg (fun cs ↦ some (Written.atom cs (.bool true), rest)) hbefore
  | .bool false, fuel + 1, rest, _, _ => by
    have hbefore := before_append (text (.bool false)) rest
    exact congrArg (fun cs ↦ some (Written.atom cs (.bool false), rest)) hbefore
  | .num n, fuel + 1, rest, _, hrest => by
    obtain ⟨c, cs, hcs, hc⟩ := Decimal.text_head n
    have hread := readNumber_num n hrest
    have hbefore := before_append (Decimal.text n) rest
    rw [hcs] at hread hbefore
    rw [written, text, hcs, List.cons_append, readValue_number hc, ← List.cons_append, hread,
      Option.map_some, hbefore]
  | .frac x, fuel + 1, rest, _, hrest => by
    obtain ⟨c, cs, hcs, hc⟩ := x.head
    have hread := readNumber_frac x hrest
    have hbefore := before_append x.chars rest
    rw [hcs] at hread hbefore
    rw [written, text, hcs, List.cons_append, readValue_number hc, ← List.cons_append, hread,
      Option.map_some, hbefore]
  | .str s, fuel + 1, rest, _, _ => by
    have hbefore := before_append (text (.str s)) rest
    simp only [text, List.cons_append] at hbefore
    simp only [written, text, List.cons_append, readValue, skip_cons (c := '"') (by decide),
      readQuoted_quoted, Option.map_some, String.ofList_toList, hbefore]
  | .arr [], fuel + 1, rest, _, _ => by
    have hbefore := before_append (text (.arr [])) rest
    exact congrArg (fun cs ↦ some (Written.arr cs [], rest)) hbefore
  | .arr (v :: vs), fuel + 1, rest, hfuel, _ => by
    have hbefore := before_append (text (.arr (v :: vs))) rest
    simp only [text, List.cons_append, List.append_assoc] at hbefore
    simp only [text, List.cons_append, List.length_cons, List.length_append] at hfuel
    rw [written, text, List.cons_append, List.cons_append, List.append_assoc, readValue_arr,
      readItems_text v vs fuel rest (by omega), Option.map_some, hbefore]
  | .obj [], fuel + 1, rest, _, _ => by
    have hbefore := before_append (text (.obj [])) rest
    exact congrArg (fun cs ↦ some (Written.obj cs [], rest)) hbefore
  | .obj ((k, v) :: fs), fuel + 1, rest, hfuel, _ => by
    have hlength : v.text.length + (fieldsText fs).length ≤ fuel := by
      simp only [text, List.length_cons, List.length_append, List.cons_append] at hfuel
      omega
    have hfields := readFields_text k v fs fuel rest hlength
    have hbefore := before_append (text (.obj ((k, v) :: fs))) rest
    simp only [text, List.cons_append, List.append_assoc] at hfields hbefore
    simp only [written, text, List.cons_append, List.append_assoc, readValue_obj, hfields,
      Option.map_some, hbefore]

theorem readItems_text : ∀ (v : JsonValue) (vs : List JsonValue) (fuel : Nat) (rest : List Char),
    v.text.length + (itemsText vs).length ≤ fuel →
      readItems fuel (v.text ++ (itemsText vs ++ rest)) = some (writtenItems (v :: vs), rest)
  | v, vs, 0, rest, hfuel => by
    have hpos := List.length_pos_of_ne_nil v.text_ne_nil
    omega
  | v, [], fuel + 1, rest, hfuel => by
    rw [itemsText, List.length_singleton] at hfuel
    rw [readItems, readValue_text v fuel _ (by omega) (ends_itemsText [] rest)]
    simp only [itemsText, List.cons_append, skip_cons (c := ']') (by decide), List.nil_append,
      writtenItems]
  | v, v' :: vs, fuel + 1, rest, hfuel => by
    simp only [itemsText, List.cons_append, List.length_cons, List.length_append] at hfuel
    have hvs := readItems_text v' vs fuel rest (by omega)
    rw [readItems, readValue_text v fuel _ (by omega) (ends_itemsText (v' :: vs) rest)]
    simp only [itemsText, List.cons_append, List.append_assoc, skip_cons (c := ',') (by decide),
      hvs, Option.map_some, writtenItems]

theorem readFields_text : ∀ (k : String) (v : JsonValue) (fs : List (String × JsonValue))
    (fuel : Nat) (rest : List Char),
    v.text.length + (fieldsText fs).length ≤ fuel →
      readFields fuel ('"' :: quoted k.toList ++ ':' :: v.text ++ (fieldsText fs ++ rest)) =
        some (writtenFields ((k, v) :: fs), rest)
  | k, v, fs, 0, rest, hfuel => by
    have hpos := List.length_pos_of_ne_nil v.text_ne_nil
    omega
  | k, v, [], fuel + 1, rest, hfuel => by
    rw [fieldsText, List.length_singleton] at hfuel
    have hv := readValue_text v fuel _ (by omega) (ends_fieldsText [] rest)
    simp only [fieldsText, List.cons_append, List.nil_append] at hv
    simp only [fieldsText, List.cons_append, List.append_assoc, List.nil_append, readFields,
      skip_cons (c := '"') (by decide), readQuoted_quoted, skip_cons (c := ':') (by decide), hv,
      skip_cons (c := '\x7d') (by decide), String.ofList_toList, writtenFields]
  | k, v, (k', v') :: fs, fuel + 1, rest, hfuel => by
    simp only [fieldsText, List.length_cons, List.length_append, List.cons_append] at hfuel
    have hv := readValue_text v fuel _ (by omega) (ends_fieldsText ((k', v') :: fs) rest)
    have hfs := readFields_text k' v' fs fuel rest (by omega)
    simp only [fieldsText, List.cons_append, List.append_assoc] at hv hfs
    simp only [fieldsText, List.cons_append, List.append_assoc, readFields,
      skip_cons (c := '"') (by decide), readQuoted_quoted, skip_cons (c := ':') (by decide), hv,
      skip_cons (c := ',') (by decide), hfs, Option.map_some, String.ofList_toList, writtenFields]

end

/-- **A value is read as it was written.** -/
theorem readWritten_text (v : JsonValue) : readWritten v.text = some v.written := by
  have hread := readValue_text v (v.text.length + 1) [] (by omega) (by simp [Ends])
  rw [List.append_nil] at hread
  rw [readWritten, hread]
  rfl

theorem read_text (v : JsonValue) : read v.text = some v := by
  rw [read, readWritten_text, Option.map_some, value_written]

/-! ### The text is one line -/

theorem le_toNat_of_isNumeric {c : Char} (h : Decimal.isNumeric c = true) : 32 ≤ c.toNat := by
  simp only [Decimal.isNumeric, Bool.or_eq_true, decide_eq_true_eq] at h
  rcases h with ((((h | rfl) | rfl) | rfl) | rfl) | rfl
  · have hge := Decimal.le_toNat_of_isDigit h
    omega
  all_goals decide

theorem le_toNat_of_mem_escape {c d : Char} (h : d ∈ escape c) : 32 ≤ d.toNat := by
  have hhex : ∀ n < 16, 32 ≤ (hexDigit n).toNat := by decide
  have hunit : ∀ n, ∀ d ∈ hexUnit n, 32 ≤ d.toNat := by
    intro n d hd
    simp only [hexUnit, List.mem_cons, List.not_mem_nil, or_false] at hd
    rcases hd with rfl | rfl | rfl | rfl <;> exact hhex _ (Nat.mod_lt _ (by decide))
  rw [escape] at h
  split at h
  · rename_i hplain
    rw [List.mem_singleton.mp h]
    simp only [isPlain, Bool.and_eq_true, decide_eq_true_eq] at hplain
    omega
  · repeat' split at h
    all_goals
      simp only [List.mem_cons, List.not_mem_nil, or_false] at h
    all_goals
      rcases h with rfl | rfl | h <;> first | decide | exact hunit _ _ h

theorem le_toNat_of_mem_quoted {cs : List Char} {c : Char} (h : c ∈ quoted cs) : 32 ≤ c.toNat := by
  rcases List.mem_append.mp h with h | h
  · obtain ⟨d, -, hd⟩ := List.mem_flatMap.mp h
    exact le_toNat_of_mem_escape hd
  · rw [List.mem_singleton.mp h]
    decide

/-- A text that is written out is looked through character by character. -/
theorem le_toNat_of_all {cs : List Char} (h : cs.all (fun c ↦ decide (32 ≤ c.toNat)) = true) :
    ∀ c ∈ cs, 32 ≤ c.toNat :=
  fun c hc ↦ of_decide_eq_true (List.all_eq_true.mp h c hc)

mutual

/-- **The text of a value is one line**: it has no control characters. -/
theorem text_line : ∀ (v : JsonValue), ∀ c ∈ v.text, 32 ≤ c.toNat
  | .null => by rw [text]; exact le_toNat_of_all rfl
  | .bool true => by rw [text]; exact le_toNat_of_all rfl
  | .bool false => by rw [text]; exact le_toNat_of_all rfl
  | .num n => fun c hc ↦ le_toNat_of_isNumeric (Decimal.numeric_text n c hc)
  | .frac x => fun c hc ↦ le_toNat_of_isNumeric (x.numeric c hc)
  | .str s => by
    intro c hc
    rw [text] at hc
    rcases List.mem_cons.mp hc with rfl | hc
    · decide
    · exact le_toNat_of_mem_quoted hc
  | .arr [] => by rw [text]; exact le_toNat_of_all rfl
  | .arr (v :: vs) => by
    intro c hc
    simp only [text, List.cons_append, List.mem_cons, List.mem_append] at hc
    rcases hc with rfl | hc | hc
    · decide
    · exact text_line v c hc
    · exact itemsText_line vs c hc
  | .obj [] => by rw [text]; exact le_toNat_of_all rfl
  | .obj ((k, v) :: fs) => by
    intro c hc
    simp only [text, List.cons_append, List.append_assoc, List.mem_cons, List.mem_append] at hc
    rcases hc with rfl | rfl | hc | rfl | hc | hc
    · decide
    · decide
    · exact le_toNat_of_mem_quoted hc
    · decide
    · exact text_line v c hc
    · exact fieldsText_line fs c hc

theorem itemsText_line : ∀ (vs : List JsonValue), ∀ c ∈ itemsText vs, 32 ≤ c.toNat
  | [] => by rw [itemsText]; exact le_toNat_of_all rfl
  | v :: vs => by
    intro c hc
    simp only [itemsText, List.cons_append, List.mem_cons, List.mem_append] at hc
    rcases hc with rfl | hc | hc
    · decide
    · exact text_line v c hc
    · exact itemsText_line vs c hc

theorem fieldsText_line : ∀ (fs : List (String × JsonValue)), ∀ c ∈ fieldsText fs, 32 ≤ c.toNat
  | [] => by rw [fieldsText]; exact le_toNat_of_all rfl
  | (k, v) :: fs => by
    intro c hc
    simp only [fieldsText, List.cons_append, List.append_assoc, List.mem_cons,
      List.mem_append] at hc
    rcases hc with rfl | rfl | hc | rfl | hc | hc
    · decide
    · decide
    · exact le_toNat_of_mem_quoted hc
    · decide
    · exact text_line v c hc
    · exact fieldsText_line fs c hc

end

/-! ### Bytes -/

/-- **`json.Marshal`**: the text of a value in UTF-8. -/
def marshal (v : JsonValue) : List UInt8 := v.text.flatMap String.utf8EncodeChar

/-- **Read a value from bytes**, and keep the texts of its parts. -/
def unmarshalWritten (bytes : List UInt8) : Option Written :=
  match bytes.toByteArray.utf8Decode? with
  | none => none
  | some cs => readWritten cs.toList

/-- **Read a value from bytes.** -/
def unmarshal (bytes : List UInt8) : Option JsonValue := (unmarshalWritten bytes).map Written.value

/-- **What was marshalled can be read back.** -/
theorem unmarshalWritten_marshal (v : JsonValue) : unmarshalWritten v.marshal = some v.written := by
  have hbytes : v.marshal.toByteArray = v.text.utf8Encode := rfl
  rw [unmarshalWritten, hbytes, List.utf8Decode?_utf8Encode]
  exact v.readWritten_text

theorem unmarshal_marshal (v : JsonValue) : unmarshal v.marshal = some v := by
  rw [unmarshal, unmarshalWritten_marshal, Option.map_some, value_written]

theorem le_of_mem_utf8EncodeChar {c : Char} (hc : 32 ≤ c.toNat) {b : UInt8}
    (hb : b ∈ String.utf8EncodeChar c) : 32 ≤ b := by
  -- The bytes of a longer encoding all have their top bit set.
  have hhigh : ∀ x y : UInt8, 32 ≤ y → 32 ≤ x ||| y := by
    intro x y hy
    exact UInt8.le_trans hy UInt8.right_le_or
  rcases c.utf8Size_eq with h | h | h | h
  · rw [String.utf8EncodeChar_eq_singleton h, List.mem_singleton] at hb
    have hsize := Char.utf8Size_eq_one_iff.mp h
    have hle : c.toNat ≤ 127 := hsize
    have hbyte : c.val.toUInt8.toNat = c.toNat % 256 := rfl
    have h32 : (32 : UInt8).toNat = 32 := rfl
    rw [hb, UInt8.le_iff_toNat_le, hbyte, h32]
    omega
  · rw [String.utf8EncodeChar_eq_cons_cons h] at hb
    simp only [List.mem_cons, List.not_mem_nil, or_false] at hb
    rcases hb with rfl | rfl <;> exact hhigh _ _ (by decide)
  · rw [String.utf8EncodeChar_eq_cons_cons_cons h] at hb
    simp only [List.mem_cons, List.not_mem_nil, or_false] at hb
    rcases hb with rfl | rfl | rfl <;> exact hhigh _ _ (by decide)
  · rw [String.utf8EncodeChar_eq_cons_cons_cons_cons h] at hb
    simp only [List.mem_cons, List.not_mem_nil, or_false] at hb
    rcases hb with rfl | rfl | rfl | rfl <;> exact hhigh _ _ (by decide)

/-- What was marshalled has no control characters. -/
theorem marshal_line (v : JsonValue) : ∀ b ∈ v.marshal, 32 ≤ b := by
  intro b hb
  obtain ⟨c, hc, hb⟩ := List.mem_flatMap.mp hb
  exact le_of_mem_utf8EncodeChar (v.text_line c hc) hb
/-- A field of an object. -/
def field (k : String) : JsonValue → Option JsonValue
  | .obj fields => fields.lookup k
  | _ => none

end JsonValue
