import Mathlib.Data.List.Sort
import Voxeltoad.Adapter.Message
import Voxeltoad.Lib.Record

/-!
# Requests

`UnifiedRequest` and its parts in JSON, `internal/adapter/adapter.go`: how a request is read, and
how the messages and tools of it are written again.

The members of a request that it has no field for are kept in `Extra`.  The parts of a request have
no such field, and what is lost of them is what `Unmarshal.KeptMembers` leaves out: see
`Message.holdsItem` and `Tool.holdsItem`.  How numbers of type `float64` are read and written is a
parameter.
-/

set_option autoImplicit false

namespace Voxeltoad

open Assoc (values collect)
open Unmarshal

/-! ## Marshalling -/

/-- A member with `omitempty`. -/
def unlessEmpty (empty : Bool) (name : String) (v : JsonValue) : List (String × JsonValue) :=
  if empty then [] else [(name, v)]

/-- The members of a map, as `json.Marshal` orders them. -/
def sortMembers (ms : List (String × JsonValue)) : List (String × JsonValue) :=
  ms.insertionSort fun a b ↦ a.1 ≤ b.1

/-! ## Messages -/

namespace FunctionCall

def names : List String := ["name", "arguments"]

def unmarshal (f : FunctionCall) (ms : List (String × JsonValue)) : Option FunctionCall := do
  let name ← field string f.name names "name" ms
  let arguments ← field string f.arguments names "arguments" ms
  return ⟨name, arguments⟩

def members (f : FunctionCall) : List (String × JsonValue) :=
  [("name", .str f.name), ("arguments", .str f.arguments)]

end FunctionCall

namespace ToolCall

def names : List String := ["id", "type", "function"]

def unmarshal (t : ToolCall) (ms : List (String × JsonValue)) : Option ToolCall := do
  let id ← field string t.id names "id" ms
  let type ← field string t.type names "type" ms
  let function ← field (record FunctionCall.unmarshal) t.function names "function" ms
  return ⟨id, type, function⟩

def members (t : ToolCall) : List (String × JsonValue) :=
  [("id", .str t.id), ("type", .str t.type), ("function", .obj t.function.members)]

def zero : ToolCall := ⟨"", "", ⟨"", ""⟩⟩

end ToolCall

/-- `Content.MarshalJSON`. -/
def Content.json (c : Content) : JsonValue := c.raw.getD .null

namespace Message

def names : List String := ["role", "content", "tool_call_id", "tool_calls", "name"]

def unmarshal (m : Message) (ms : List (String × JsonValue)) : Option Message := do
  let role ← field string m.role names "role" ms
  let content ← field Content.read m.content names "content" ms
  let toolCallID ← field string m.toolCallID names "tool_call_id" ms
  let toolCalls ← field (slice (record ToolCall.unmarshal) ToolCall.zero) m.toolCalls names
    "tool_calls" ms
  let name ← field string m.name names "name" ms
  return ⟨role, content, toolCallID, toolCalls, name⟩

def members (m : Message) : List (String × JsonValue) :=
  [("role", .str m.role), ("content", m.content.json)] ++
    unlessEmpty (m.toolCallID = "") "tool_call_id" (.str m.toolCallID) ++
    unlessEmpty m.toolCalls.isEmpty "tool_calls" (.arr (m.toolCalls.map fun t ↦ .obj t.members)) ++
    unlessEmpty (m.name = "") "name" (.str m.name)

def zero : Message := ⟨"", ⟨none⟩, "", [], ""⟩

end Message

/-! ## Tools -/

/-- `json.RawMessage`, which is empty where nothing was read. -/
def rawMessage : Reader (Option JsonValue) := fun _ v ↦ some (some v)

namespace FunctionDef

def names : List String := ["name", "description", "parameters"]

def unmarshal (f : FunctionDef) (ms : List (String × JsonValue)) : Option FunctionDef := do
  let name ← field string f.name names "name" ms
  let description ← field string f.description names "description" ms
  let parameters ← field rawMessage f.parameters names "parameters" ms
  return ⟨name, description, parameters⟩

def members (f : FunctionDef) : List (String × JsonValue) :=
  [("name", .str f.name)] ++ unlessEmpty (f.description = "") "description" (.str f.description) ++
    unlessEmpty f.parameters.isNone "parameters" (f.parameters.getD .null)

end FunctionDef

namespace Tool

def names : List String := ["type", "function"]

def unmarshal (t : Tool) (ms : List (String × JsonValue)) : Option Tool := do
  let type ← field string t.type names "type" ms
  let function ← field (record FunctionDef.unmarshal) t.function names "function" ms
  return ⟨type, function⟩

def members (t : Tool) : List (String × JsonValue) :=
  [("type", .str t.type), ("function", .obj t.function.members)]

def zero : Tool := ⟨"", ⟨"", "", none⟩⟩

end Tool

/-! ## What is kept of messages and tools -/

theorem values_unlessEmpty (k : String) (empty : Bool) (name : String) (v : JsonValue) :
    values k (unlessEmpty empty name v) = if name = k then if empty then [] else [v] else [] := by
  cases empty <;> simp [unlessEmpty, values]
  split <;> simp_all

/-- A text that is left out says as much as an empty one. -/
theorem said_unless_text (t : String) :
    Shape.text.said (if decide (t = "") = true then [] else [.str t]) =
      Shape.text.said [.str t] := by
  by_cases h : t = "" <;> simp [h, Shape.said, Shape.blank]

/-- A list that is left out says as much as an empty one. -/
theorem said_unless_list {α : Type} (s : Shape) (w : α → JsonValue) (as : List α) :
    (Shape.list s).said (if as.isEmpty = true then [] else [.arr (as.map w)]) =
      (Shape.list s).said [.arr (as.map w)] := by
  cases as <;> simp [Shape.said, Shape.blank]

namespace FunctionCall

def slots : List (String × Slot) := [("name", .text), ("arguments", .text)]

variable {f g : FunctionCall} {ms : List (String × JsonValue)}

theorem unmarshal_eq_some (h : f.unmarshal ms = some g) :
    field string f.name names "name" ms = some g.name ∧
      field string f.arguments names "arguments" ms = some g.arguments := by
  simp only [unmarshal, Option.bind_eq_bind, Option.bind_eq_some_iff, Option.pure_def,
    Option.some.injEq] at h
  obtain ⟨name, hname, arguments, harguments, rfl⟩ := h
  exact ⟨hname, harguments⟩

/-- What is kept of a function call in a tool call. -/
theorem holds {vs : List JsonValue} (h : vs.foldlM (record unmarshal) ⟨"", ""⟩ = some g) :
    (Slot.record slots).Holds vs [.obj g.members] := by
  obtain ⟨hobj, hname⟩ := foldlM_record (fun _ _ _ h ↦ (unmarshal_eq_some h).1) h
  obtain ⟨-, harguments⟩ := foldlM_record (fun _ _ _ h ↦ (unmarshal_eq_some h).2) h
  refine Slot.record_holds hobj (by decide) (by simp [members, slots]) ?_
  simp only [slots, List.forall_mem_cons]
  exact ⟨Slot.text_holds hname, Slot.text_holds harguments, fun _ h ↦ absurd h List.not_mem_nil⟩

end FunctionCall

namespace ToolCall

def slots : List (String × Slot) :=
  [("id", .text), ("type", .text), ("function", .record FunctionCall.slots)]

theorem holdsItem : HoldsItem slots (record unmarshal) zero fun t ↦ .obj t.members := by
  refine holdsItem_of fun ms t h ↦ agree_record (by decide) (by simp [members, slots]) ?_
  simp only [unmarshal, Option.bind_eq_bind, Option.bind_eq_some_iff, Option.pure_def,
    Option.some.injEq] at h
  obtain ⟨id, hid, type, htype, function, hfunction, rfl⟩ := h
  simp only [slots, List.forall_mem_cons]
  exact ⟨Slot.text_holds hid, Slot.text_holds htype, FunctionCall.holds hfunction,
    fun _ h ↦ absurd h List.not_mem_nil⟩

end ToolCall

namespace Message

def slots : List (String × Slot) :=
  [("role", .text), ("content", .raw), ("tool_call_id", .text),
    ("tool_calls", .list ToolCall.slots), ("name", .text)]

/-- The members of a message, one after the other. -/
theorem values_members (m : Message) :
    values "role" m.members = [.str m.role] ∧ values "content" m.members = [m.content.json] ∧
      values "tool_call_id" m.members = (if decide (m.toolCallID = "") = true then []
        else [.str m.toolCallID]) ∧
      values "tool_calls" m.members =
        (if m.toolCalls.isEmpty = true then []
          else [.arr (m.toolCalls.map fun t ↦ .obj t.members)]) ∧
      values "name" m.members = (if decide (m.name = "") = true then [] else [.str m.name]) := by
  simp [members, Assoc.values_append, Assoc.values_cons, values_unlessEmpty]

/-- **What is kept of a message.** -/
theorem holdsItem : HoldsItem slots (record unmarshal) zero fun m ↦ .obj m.members := by
  refine holdsItem_of fun ms m h ↦ agree_record (by decide) ?_ ?_
  · intro p hp
    simp only [members, unlessEmpty, List.mem_append, List.mem_cons] at hp
    grind [slots]
  simp only [unmarshal, Option.bind_eq_bind, Option.bind_eq_some_iff, Option.pure_def,
    Option.some.injEq] at h
  obtain ⟨role, hrole, content, hcontent, toolCallID, htoolCallID, toolCalls, htoolCalls, name,
    hname, rfl⟩ := h
  obtain ⟨hrole', hcontent', htoolCallID', htoolCalls', hname'⟩ :=
    values_members ⟨role, content, toolCallID, toolCalls, name⟩
  simp only [slots, List.forall_mem_cons]
  refine ⟨?_, ?_, ?_, ?_, ?_, fun _ h ↦ absurd h List.not_mem_nil⟩
  · rw [hrole']
    exact Slot.text_holds hrole
  · rw [hcontent']
    exact Slot.raw_holds_foldlM (fun c ↦ [c.json]) (by simp [Content.json, zero, Shape.said])
      (fun _ ↦ rfl) hcontent
  · rw [htoolCallID']
    exact (Slot.text_holds htoolCallID).congr (said_unless_text _)
  · rw [htoolCalls']
    exact (Slot.list_holds ToolCall.holdsItem htoolCalls).congr (said_unless_list _ _ _)
  · rw [hname']
    exact (Slot.text_holds hname).congr (said_unless_text _)

end Message

namespace FunctionDef

def slots : List (String × Slot) := [("name", .text), ("description", .text), ("parameters", .raw)]

variable {f g : FunctionDef} {ms : List (String × JsonValue)}

theorem unmarshal_eq_some (h : f.unmarshal ms = some g) :
    field string f.name names "name" ms = some g.name ∧
      field string f.description names "description" ms = some g.description ∧
      field rawMessage f.parameters names "parameters" ms = some g.parameters := by
  simp only [unmarshal, Option.bind_eq_bind, Option.bind_eq_some_iff, Option.pure_def,
    Option.some.injEq] at h
  obtain ⟨name, hname, description, hdescription, parameters, hparameters, rfl⟩ := h
  exact ⟨hname, hdescription, hparameters⟩

theorem values_members (f : FunctionDef) :
    values "name" f.members = [.str f.name] ∧
      values "description" f.members =
        (if decide (f.description = "") = true then [] else [.str f.description]) ∧
      values "parameters" f.members = f.parameters.toList := by
  cases hparameters : f.parameters <;>
    simp [members, Assoc.values_append, Assoc.values_cons, values_unlessEmpty, hparameters]

/-- What is kept of the definition of a function in a tool. -/
theorem holds {vs : List JsonValue} (h : vs.foldlM (record unmarshal) ⟨"", "", none⟩ = some g) :
    (Slot.record slots).Holds vs [.obj g.members] := by
  obtain ⟨hobj, hname⟩ := foldlM_record (fun _ _ _ h ↦ (unmarshal_eq_some h).1) h
  obtain ⟨-, hdescription⟩ := foldlM_record (fun _ _ _ h ↦ (unmarshal_eq_some h).2.1) h
  obtain ⟨-, hparameters⟩ := foldlM_record (fun _ _ _ h ↦ (unmarshal_eq_some h).2.2) h
  obtain ⟨hname', hdescription', hparameters'⟩ := values_members g
  refine Slot.record_holds hobj (by decide) ?_ ?_
  · intro p hp
    simp only [members, unlessEmpty, List.mem_append, List.mem_cons] at hp
    grind [slots]
  simp only [slots, List.forall_mem_cons]
  refine ⟨?_, ?_, ?_, fun _ h ↦ absurd h List.not_mem_nil⟩
  · rw [hname']
    exact Slot.text_holds hname
  · rw [hdescription']
    exact (Slot.text_holds hdescription).congr (said_unless_text _)
  · rw [hparameters']
    exact Slot.raw_holds_foldlM Option.toList rfl (fun _ ↦ rfl) hparameters

end FunctionDef

namespace Tool

def slots : List (String × Slot) := [("type", .text), ("function", .record FunctionDef.slots)]

/-- **What is kept of a tool.** -/
theorem holdsItem : HoldsItem slots (record unmarshal) zero fun t ↦ .obj t.members := by
  refine holdsItem_of fun ms t h ↦ agree_record (by decide) (by simp [members, slots]) ?_
  simp only [unmarshal, Option.bind_eq_bind, Option.bind_eq_some_iff, Option.pure_def,
    Option.some.injEq] at h
  obtain ⟨type, htype, function, hfunction, rfl⟩ := h
  simp only [slots, List.forall_mem_cons]
  exact ⟨Slot.text_holds htype, FunctionDef.holds hfunction, fun _ h ↦ absurd h List.not_mem_nil⟩

end Tool

/-! ## Values of any type -/

/-- How `strconv` reads and writes numbers of type `float64`.  A number that is too large is not
read. -/
structure Float64 (F : Type) where
  parse : JsonNumber → Option F
  format : F → JsonNumber

/-- A Go value of type `any`, as `json.Unmarshal` makes one. -/
inductive AnyValue (F : Type) where
  | nil
  | bool (b : Bool)
  | float (x : F)
  | str (s : String)
  | list (items : List (AnyValue F))
  | map (entries : List (String × AnyValue F))

namespace AnyValue

variable {F : Type} (fl : Float64 F)

mutual

/-- **Read a value of any type.** -/
def read : JsonValue → Option (AnyValue F)
  | .null => some nil
  | .bool b => some (bool b)
  | .num n => (fl.parse (.int n)).map float
  | .frac x => (fl.parse (.frac x)).map float
  | .str s => some (str s)
  | .arr vs => (readItems vs).map list
  | .obj ms => (readMembers ms).map fun es ↦ map (collect es)

def readItems : List JsonValue → Option (List (AnyValue F))
  | [] => some []
  | v :: vs => do
    let a ← read v
    let rest ← readItems vs
    return a :: rest

def readMembers : List (String × JsonValue) → Option (List (String × AnyValue F))
  | [] => some []
  | (k, v) :: ms => do
    let a ← read v
    let rest ← readMembers ms
    return (k, a) :: rest

end

mutual

def json : AnyValue F → JsonValue
  | nil => .null
  | bool b => .bool b
  | float x => (fl.format x).json
  | str s => .str s
  | list as => .arr (itemsJson as)
  | map es => .obj (sortMembers (membersJson es))

def itemsJson : List (AnyValue F) → List JsonValue
  | [] => []
  | a :: as => a.json :: itemsJson as

def membersJson : List (String × AnyValue F) → List (String × JsonValue)
  | [] => []
  | (k, a) :: es => (k, a.json) :: membersJson es

end

def isNil : AnyValue F → Bool
  | nil => true
  | _ => false

end AnyValue

/-! ### What is kept of them -/

/-- A number whose value is kept. -/
def Float64.Keeps {F : Type} (fl : Float64 F) (n : JsonNumber) : Prop :=
  ∀ x ∈ fl.parse n, (fl.format x).value = n.value

instance {F : Type} (fl : Float64 F) (n : JsonNumber) : Decidable (fl.Keeps n) :=
  match h : fl.parse n with
  | none => isTrue fun x hx ↦ by simp [h] at hx
  | some x => decidable_of_iff ((fl.format x).value = n.value) (by simp [Float64.Keeps, h])

/-- No name of an object is written over. -/
def OnceEach (ms : List (String × JsonValue)) : Prop := ∀ m ∈ ms, Once .any (values m.1 ms)

instance (ms : List (String × JsonValue)) : Decidable (OnceEach ms) :=
  inferInstanceAs (Decidable (∀ m ∈ ms, _))

/-- Where no name is written over, the last members of the names are all that matter. -/
theorem onceEach_and {P : JsonValue → Prop} (hnull : P .null) {ms : List (String × JsonValue)} :
    (∀ k, Once .any (values k ms) ∧ ∀ v ∈ (values k ms).getLast?, Shape.any.blank v = false → P v) ↔
      OnceEach ms ∧ ∀ m ∈ ms, P m.2 := by
  constructor
  · refine fun h ↦ ⟨fun m _ ↦ (h m.1).1, fun m hm ↦ ?_⟩
    obtain ⟨honce, hlast⟩ := h m.1
    have hmem : m.2 ∈ values m.1 ms := Assoc.mem_values.mpr hm
    cases hblank : Shape.any.blank m.2 with
    | true => exact blank_any_iff.mp hblank ▸ hnull
    | false =>
      obtain ⟨init, v, hv⟩ := (List.eq_nil_or_concat _).resolve_left (List.ne_nil_of_mem hmem)
      rw [List.concat_eq_append] at hv
      rw [Once, hv, List.dropLast_concat] at honce
      rw [hv] at hmem
      rcases List.mem_append.mp hmem with hinit | hmem
      · simp [honce _ hinit] at hblank
      · exact hlast m.2 (by rw [hv, List.mem_singleton.mp hmem]; exact List.getLast?_concat) hblank
  · rintro ⟨honce, hall⟩ k
    refine ⟨fun v hv ↦ ?_, fun v hv _ ↦ hall (k, v) (Assoc.mem_values.mp (List.mem_of_getLast? hv))⟩
    exact honce (k, v) (Assoc.mem_values.mp (List.dropLast_subset _ hv)) v hv

namespace AnyValue

variable {F : Type} (fl : Float64 F)

mutual

/-- **The values that are kept**: their numbers are, and no name of an object is written over. -/
def kept : JsonValue → Bool
  | .num n => fl.Keeps (.int n)
  | .frac x => fl.Keeps (.frac x)
  | .arr vs => keptItems vs
  | .obj ms => OnceEach ms && keptMembers ms
  | _ => true

def keptItems : List JsonValue → Bool
  | [] => true
  | v :: vs => kept v && keptItems vs

def keptMembers : List (String × JsonValue) → Bool
  | [] => true
  | (_, v) :: ms => kept v && keptMembers ms

end

variable {fl}

theorem keptMembers_iff {ms : List (String × JsonValue)} :
    keptMembers fl ms = true ↔ ∀ m ∈ ms, kept fl m.2 = true := by
  induction ms with
  | nil => simp [keptMembers]
  | cons m ms ih => rw [keptMembers, Bool.and_eq_true, ih, List.forall_mem_cons]

theorem itemsJson_eq (as : List (AnyValue F)) : itemsJson fl as = as.map (json fl) := by
  induction as with
  | nil => rfl
  | cons a as ih => rw [itemsJson, ih, List.map_cons]

theorem membersJson_eq (es : List (String × AnyValue F)) :
    membersJson fl es = es.map fun e ↦ (e.1, e.2.json fl) := by
  induction es with
  | nil => rfl
  | cons e es ih => rw [membersJson, ih, List.map_cons]

/-- What a map has under a name, in JSON. -/
theorem values_json (es : List (String × AnyValue F)) (k : String) :
    values k (sortMembers (membersJson fl (collect es))) =
      ((values k es).getLast?.map (json fl)).toList := by
  have hkeyed : Assoc.Keyed ((collect es).map fun e ↦ (e.1, e.2.json fl)) := by
    rw [Assoc.Keyed, List.map_map]
    exact Assoc.keyed_collect es
  rw [membersJson_eq, sortMembers, hkeyed.values_perm (List.perm_insertionSort ..),
    ← Assoc.lookup_collect, hkeyed.values_eq]
  congr 1
  induction collect es with
  | nil => rfl
  | cons e es ih =>
    rw [List.map_cons, List.lookup_cons, List.lookup_cons, ih]
    cases k == e.1 <;> rfl

/-- What is read for the members of a name. -/
theorem values_readMembers {ms : List (String × JsonValue)} {es : List (String × AnyValue F)}
    (h : readMembers fl ms = some es) (k : String) :
    List.Forall₂ (fun v a ↦ read fl v = some a) (values k ms) (values k es) := by
  induction ms generalizing es with
  | nil =>
    rw [← Option.some.inj h]
    exact .nil
  | cons m ms ih =>
    obtain ⟨a, ha, h⟩ := Option.bind_eq_some_iff.mp h
    obtain ⟨rest, hrest, h⟩ := Option.bind_eq_some_iff.mp h
    rw [← Option.some.inj h, Assoc.values_cons, Assoc.values_cons]
    split
    · exact .cons ha (ih hrest)
    · exact ih hrest

/-- The last members on both sides. -/
theorem getLast_values {vs : List JsonValue} {as : List (AnyValue F)}
    (h : List.Forall₂ (fun v a ↦ read fl v = some a) vs as) :
    vs.getLast? = none ∧ as.getLast? = none ∨
      ∃ v a, vs.getLast? = some v ∧ as.getLast? = some a ∧ read fl v = some a := by
  induction h with
  | nil => exact .inl ⟨rfl, rfl⟩
  | @cons v a vs as hread _ ih =>
    rw [List.getLast?_cons, List.getLast?_cons]
    rcases ih with ⟨hv, ha⟩ | ⟨u, b, hu, hb, hread'⟩
    · exact .inr ⟨v, a, by rw [hv]; rfl, by rw [ha]; rfl, hread⟩
    · exact .inr ⟨u, b, by rw [hu]; rfl, by rw [hb]; rfl, hread'⟩

/-- Only `null` is written as `null`. -/
theorem blank_read {v : JsonValue} {a : AnyValue F} (h : read fl v = some a) :
    Shape.any.blank (a.json fl) = Shape.any.blank v := by
  have hnumber : ∀ n : JsonNumber, Shape.any.blank n.json = false := by
    rintro (n | x) <;> rfl
  cases v with
  | null | bool | str =>
    rw [← Option.some.inj h]
    rfl
  | num | frac | arr | obj =>
    obtain ⟨b, -, rfl⟩ := Option.map_eq_some_iff.mp h
    first | exact hnumber _ | rfl

mutual

/-- **What is kept of a value of any type.** -/
theorem agree_read : ∀ (v : JsonValue) {a : AnyValue F}, read fl v = some a →
    (Agree .any v (a.json fl) ↔ kept fl v = true)
  | .null, _, h => by
    rw [← Option.some.inj h]
    exact iff_of_true .null rfl
  | .bool _, _, h => by
    rw [← Option.some.inj h]
    exact iff_of_true .bool rfl
  | .str _, _, h => by
    rw [← Option.some.inj h]
    exact iff_of_true .str rfl
  | .num n, _, h => by
    obtain ⟨x, hx, rfl⟩ := Option.map_eq_some_iff.mp h
    refine (agree_number_iff (m := .int n)).trans ?_
    simp [kept, Float64.Keeps, hx, eq_comm]
  | .frac y, _, h => by
    obtain ⟨x, hx, rfl⟩ := Option.map_eq_some_iff.mp h
    refine (agree_number_iff (m := .frac y)).trans ?_
    simp [kept, Float64.Keeps, hx, eq_comm]
  | .arr vs, _, h => by
    obtain ⟨as, has, rfl⟩ := Option.map_eq_some_iff.mp h
    rw [json, agree_arr_iff, itemsJson_eq]
    exact agreeAll_readItems vs has
  | .obj ms, _, h => by
    obtain ⟨es, hes, rfl⟩ := Option.map_eq_some_iff.mp h
    have hmember : ∀ k, Shape.any.member k = .any := fun _ ↦ rfl
    have hname : ∀ k, AgreeAll .any (Shape.any.said (values k ms))
        (Shape.any.said (values k (sortMembers (membersJson fl (collect es))))) ↔
        Once .any (values k ms) ∧ ∀ v ∈ (values k ms).getLast?, Shape.any.blank v = false →
        kept fl v = true := by
      intro k
      rw [values_json]
      rcases getLast_values (values_readMembers hes k) with ⟨hv, ha⟩ | ⟨v, a, hv, ha, hread⟩
      · rw [ha]
        exact agreeAll_last _ (by simp [Shape.said]) (fun _ ↦ rfl) fun v hv' ↦ by simp [hv] at hv'
      · rw [ha]
        refine agreeAll_last _ (List.length_filter_le ..) (fun hblank ↦ ?_) fun u hu hsay _ ↦ ?_
        · simp [Shape.said, blank_read hread, hblank v hv]
        · obtain rfl : v = u := Option.some.inj (hv.symm.trans hu)
          have hsaid : Shape.any.said (Option.map (json fl) (some a)).toList = [a.json fl] := by
            simp [Shape.said, blank_read hread, hsay]
          rw [hsaid, agreeAll_singleton]
          exact agree_readMembers ms (k, v) (Assoc.mem_values.mp (List.mem_of_getLast? hv)) hread
    rw [json, agree_obj_iff, kept, Bool.and_eq_true, decide_eq_true_eq, keptMembers_iff]
    simp only [hmember, hname]
    exact onceEach_and (P := fun v ↦ kept fl v = true) rfl

theorem agreeAll_readItems :
    ∀ (vs : List JsonValue) {as : List (AnyValue F)}, readItems fl vs = some as →
    (AgreeAll .any vs (as.map (json fl)) ↔ keptItems fl vs = true)
  | [], _, h => by
    rw [← Option.some.inj h]
    exact iff_of_true .nil rfl
  | v :: vs, _, h => by
    obtain ⟨a, ha, h⟩ := Option.bind_eq_some_iff.mp h
    obtain ⟨rest, hrest, h⟩ := Option.bind_eq_some_iff.mp h
    have hhead := agree_read v ha
    have htail := agreeAll_readItems vs hrest
    rw [agreeAll_iff] at htail ⊢
    rw [← Option.some.inj h, List.map_cons, List.forall₂_cons, hhead, htail, keptItems,
      Bool.and_eq_true]

theorem agree_readMembers : ∀ (ms : List (String × JsonValue)) (m : String × JsonValue), m ∈ ms →
    ∀ {a : AnyValue F}, read fl m.2 = some a → (Agree .any m.2 (a.json fl) ↔ kept fl m.2 = true)
  | [], _, hm, _, _ => absurd hm List.not_mem_nil
  | (k, v) :: ms, _, hm, _, h => by
    rcases List.mem_cons.mp hm with heq | hm
    · rw [heq] at h ⊢
      exact agree_read v h
    · exact agree_readMembers ms _ hm h

end

end AnyValue

/-! ## Requests -/

namespace Adapter

/-- `UnifiedRequest`. -/
structure UnifiedRequest (F : Type) where
  model : String
  messages : List Message
  stream : Bool
  temperature : Option F
  maxTokens : Option Int
  tools : List Tool
  toolChoice : AnyValue F
  extra : List (String × JsonValue)

/-- The members of a request that have a field of their own. -/
def UnifiedRequest.names : List String :=
  ["model", "messages", "stream", "temperature", "max_tokens", "tools", "tool_choice"]

variable {F : Type} (fl : Float64 F)

/-- Read a field of a request from the map of its members. -/
def known {α : Type} (r : Reader α) (zero : α) (name : String) (raw : List (String × JsonValue)) :
    Option α :=
  match raw.lookup name with
  | none => some zero
  | some v => r zero v

/-- A `*float64`. -/
def floatPointer : Reader (Option F)
  | _, .null => some none
  | _, v => (v.number?.bind fl.parse).map some

/-- **`UnifiedRequest.UnmarshalJSON`**, into an empty request. -/
def UnifiedRequest.unmarshalJSON : JsonValue → Option (UnifiedRequest F)
  | .null => some ⟨"", [], false, none, none, [], .nil, []⟩
  | .obj ms => do
    let raw := collect ms
    let model ← known string "" "model" raw
    let messages ← known (slice (record Message.unmarshal) Message.zero) [] "messages" raw
    let stream ← known bool false "stream" raw
    let temperature ← known (floatPointer fl) none "temperature" raw
    let maxTokens ← known (pointer int 0) none "max_tokens" raw
    let tools ← known (slice (record Tool.unmarshal) Tool.zero) [] "tools" raw
    let toolChoice ← known (fun _ v ↦ AnyValue.read fl v) .nil "tool_choice" raw
    return {
      model := model
      messages := messages
      stream := stream
      temperature := temperature
      maxTokens := maxTokens
      tools := tools
      toolChoice := toolChoice
      extra := raw.filter fun m ↦ m.1 ∉ names }
  | _ => none

end Adapter

/-- **`DecodeRequest`** of the OpenAI codec. -/
def OpenAI.decodeRequest {F : Type} (fl : Float64 F) (body : Bytes) :
    Option (Adapter.UnifiedRequest F) :=
  (JsonValue.unmarshal body).bind (Adapter.UnifiedRequest.unmarshalJSON fl)

end Voxeltoad
