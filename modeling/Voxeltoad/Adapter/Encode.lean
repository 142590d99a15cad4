import Mathlib.Data.List.TakeWhile
import Voxeltoad.Adapter.Sse

/-!
# Encoding server-sent events

`Encode` of `pkg/sse`, and that the decoder undoes it.

The decoder works on lines, so the proof does too.  `encodeLines` are the lines of a frame,
`splitLines_encode` says that they are what the scanner finds in its bytes, and `nextEvent_encode`
that the decoder, on those lines, returns the event and starts the next frame from scratch.  What
the lines *contain* — blank lines, colons, leading spaces, the names of other fields — does not
matter, because every line of a frame begins with its own field.
-/

set_option autoImplicit false

namespace Voxeltoad

/-- A line of a frame: a field and its value. -/
def fieldLine (field : String) (value : Bytes) : Bytes := utf8 field ++ [58, 32] ++ value

/-- **`Encode`.** -/
def encode (e : Event) : Bytes :=
  (if e.event = [] then [] else fieldLine "event" e.event ++ [10]) ++
  (if e.id = [] then [] else fieldLine "id" e.id ++ [10]) ++
  (e.data.splitOn 10).flatMap (fun line ↦ fieldLine "data" line ++ [10]) ++ [10]

/-- The lines of a frame, the blank one that ends it included. -/
def encodeLines (e : Event) : List Bytes :=
  (if e.event = [] then [] else [fieldLine "event" e.event]) ++
  (if e.id = [] then [] else [fieldLine "id" e.id]) ++
  (e.data.splitOn 10).map (fieldLine "data") ++ [[]]

/-- The fields of the event are text on one line, and there is no carriage return in its data. -/
structure Event.Plain (e : Event) : Prop where
  event : 10 ∉ e.event ∧ 13 ∉ e.event
  id : 10 ∉ e.id ∧ 13 ∉ e.id
  data : 13 ∉ e.data

instance (e : Event) : Decidable e.Plain :=
  decidable_of_iff ((10 ∉ e.event ∧ 13 ∉ e.event) ∧ (10 ∉ e.id ∧ 13 ∉ e.id) ∧ 13 ∉ e.data)
    ⟨fun h ↦ ⟨h.1, h.2.1, h.2.2⟩, fun h ↦ ⟨h.event, h.id, h.data⟩⟩

/-! ## Lines -/

theorem splitLines_append (line acc rest : Bytes) (h : 10 ∉ line) :
    splitLines acc (line ++ 10 :: rest) = (acc.reverse ++ line) :: splitLines [] rest := by
  induction line generalizing acc with
  | nil => simp [splitLines]
  | cons b line ih =>
    obtain ⟨hb, hline⟩ := not_or.mp fun hmem ↦ h (List.mem_cons.mpr hmem)
    rw [List.cons_append, splitLines, if_neg (Ne.symm hb), ih _ hline]
    simp

/-- Lines that are written with their line feeds are the lines that are read. -/
theorem splitLines_flatMap (lines : List Bytes) (rest : Bytes) (h : ∀ line ∈ lines, 10 ∉ line) :
    splitLines [] (lines.flatMap (fun line ↦ line ++ [10]) ++ rest) =
      lines ++ splitLines [] rest := by
  induction lines with
  | nil => rfl
  | cons line lines ih =>
    obtain ⟨hline, hlines⟩ := List.forall_mem_cons.mp h
    have hbytes : (line :: lines).flatMap (fun line ↦ line ++ [10]) ++ rest =
        line ++ 10 :: (lines.flatMap (fun line ↦ line ++ [10]) ++ rest) := by
      simp
    rw [hbytes, splitLines_append line [] _ hline, ih hlines]
    rfl

theorem encode_eq (e : Event) : encode e = (encodeLines e).flatMap fun line ↦ line ++ [10] := by
  rw [encode, encodeLines]
  split <;> split <;> simp [List.flatMap_map]

/-- The pieces of a split are made of what was split, without the separator. -/
theorem mem_of_mem_splitOn {data line : Bytes} (h : line ∈ data.splitOn 10) {b : UInt8}
    (hb : b ∈ line) : b ≠ 10 ∧ b ∈ data := by
  induction data generalizing line with
  | nil =>
    rw [List.splitOn_nil, List.mem_singleton] at h
    rw [h] at hb
    exact absurd hb List.not_mem_nil
  | cons x xs ih =>
    rw [List.splitOn_cons_eq_if_modifyHead] at h
    split at h
    · rcases List.mem_cons.mp h with rfl | h
      · exact absurd hb List.not_mem_nil
      · exact ⟨(ih h hb).1, List.mem_cons_of_mem _ (ih h hb).2⟩
    · rename_i hx
      cases hsplit : xs.splitOn 10 with
      | nil => exact absurd hsplit (List.splitOn_ne_nil _ _)
      | cons piece pieces =>
        rw [hsplit, List.modifyHead_cons] at h
        rcases List.mem_cons.mp h with rfl | h
        · rcases List.mem_cons.mp hb with rfl | hb
          · exact ⟨by simpa using hx, List.mem_cons_self ..⟩
          · have hpiece := ih (hsplit ▸ List.mem_cons_self ..) hb
            exact ⟨hpiece.1, List.mem_cons_of_mem _ hpiece.2⟩
        · have hpiece := ih (hsplit ▸ List.mem_cons_of_mem _ h) hb
          exact ⟨hpiece.1, List.mem_cons_of_mem _ hpiece.2⟩

theorem not_mem_fieldLine {field : String} {value : Bytes} {b : UInt8} (hfield : b ∉ utf8 field)
    (hsep : b ≠ 58 ∧ b ≠ 32) (hvalue : b ∉ value) : b ∉ fieldLine field value := by
  simp [fieldLine, hfield, hsep.1, hsep.2, hvalue]

/-- What the lines of a frame are made of. -/
theorem encodeLines_plain {e : Event} (h : e.Plain) :
    ∀ line ∈ encodeLines e, 10 ∉ line ∧ 13 ∉ line := by
  intro line hline
  rw [encodeLines] at hline
  simp only [List.mem_append, List.mem_map, List.mem_singleton] at hline
  rcases hline with ((hline | hline) | ⟨value, hvalue, rfl⟩) | rfl
  · split at hline
    · exact absurd hline List.not_mem_nil
    · rw [List.mem_singleton.mp hline]
      exact ⟨not_mem_fieldLine (by decide) (by decide) h.event.1,
        not_mem_fieldLine (by decide) (by decide) h.event.2⟩
  · split at hline
    · exact absurd hline List.not_mem_nil
    · rw [List.mem_singleton.mp hline]
      exact ⟨not_mem_fieldLine (by decide) (by decide) h.id.1,
        not_mem_fieldLine (by decide) (by decide) h.id.2⟩
  · have hmem := fun b ↦ mem_of_mem_splitOn (b := b) hvalue
    exact ⟨not_mem_fieldLine (by decide) (by decide) fun hb ↦ (hmem _ hb).1 rfl,
      not_mem_fieldLine (by decide) (by decide) fun hb ↦ h.data (hmem _ hb).2⟩
  · exact ⟨List.not_mem_nil, List.not_mem_nil⟩

/-- The scanner finds the lines of the frames in their bytes. -/
theorem splitLines_encode {evs : List Event} (h : ∀ e ∈ evs, e.Plain) :
    splitLines [] (evs.flatMap encode) = evs.flatMap encodeLines := by
  induction evs with
  | nil => rfl
  | cons e evs ih =>
    obtain ⟨he, hevs⟩ := List.forall_mem_cons.mp h
    rw [List.flatMap_cons, List.flatMap_cons, encode_eq, splitLines_flatMap, ih hevs]
    exact fun line hline ↦ (encodeLines_plain he line hline).1

theorem stripCR_of_not_mem {line : Bytes} (h : 13 ∉ line) : stripCR line = line :=
  if_neg fun hlast ↦ h (List.mem_of_getLast? hlast)

/-! ## Frames -/

section Fields

variable {field : String} (hfield : 58 ∉ utf8 field) (value : Bytes)

include hfield

theorem splitField_fieldLine : splitField (fieldLine field value) = (utf8 field, value) := by
  have hall : ∀ b ∈ utf8 field, decide (b ≠ 58) = true := by
    intro b hb
    exact decide_eq_true fun heq ↦ hfield (heq ▸ hb)
  rw [splitField, fieldLine, List.append_assoc, List.dropWhile_append_of_pos hall,
    List.takeWhile_append_of_pos hall]
  simp

/-- A line of a frame is not a comment. -/
theorem head_fieldLine (hne : utf8 field ≠ []) : (fieldLine field value).head? ≠ some 58 := by
  obtain ⟨b, bytes, hbytes⟩ := List.exists_cons_of_ne_nil hne
  rw [fieldLine, hbytes]
  intro hhead
  rw [hbytes, ← Option.some.inj hhead] at hfield
  exact hfield (List.mem_cons_self ..)

end Fields

theorem read_event (f : Frame) (value : Bytes) :
    f.read (fieldLine "event" value) = { f with ev := value } := by
  rw [Frame.read, if_neg (head_fieldLine (by decide) _ (by decide)),
    splitField_fieldLine (by decide)]
  rfl

theorem read_id (f : Frame) (value : Bytes) :
    f.read (fieldLine "id" value) = { f with id := value } := by
  rw [Frame.read, if_neg (head_fieldLine (by decide) _ (by decide)),
    splitField_fieldLine (by decide)]
  rfl

theorem read_data (f : Frame) (value : Bytes) :
    f.read (fieldLine "data" value) = { f with data := f.data ++ [value], hasData := true } := by
  rw [Frame.read, if_neg (head_fieldLine (by decide) _ (by decide)),
    splitField_fieldLine (by decide)]
  rfl

section Next

variable {ending : ReadError} {lines : List Bytes} {f : Frame}

/-- A line of a frame goes into the frame. -/
theorem nextEvent_fieldLine {field : String} {value : Bytes} (hfield : 13 ∉ utf8 field)
    (hvalue : 13 ∉ value) :
    nextEvent ending (fieldLine field value :: lines) f =
      nextEvent ending lines (f.read (fieldLine field value)) := by
  have hne : fieldLine field value ≠ [] := by
    simp [fieldLine]
  rw [nextEvent, stripCR_of_not_mem (not_mem_fieldLine hfield (by decide) hvalue)]
  exact if_neg hne

theorem nextEvent_event {value : Bytes} (hvalue : 13 ∉ value) (hf : f.ev = []) :
    nextEvent ending ((if value = [] then [] else [fieldLine "event" value]) ++ lines) f =
      nextEvent ending lines { f with ev := value } := by
  split
  · rename_i hnil
    rw [hnil, ← hf]
    rfl
  · rw [List.singleton_append, nextEvent_fieldLine (by decide) hvalue, read_event]

theorem nextEvent_id {value : Bytes} (hvalue : 13 ∉ value) (hf : f.id = []) :
    nextEvent ending ((if value = [] then [] else [fieldLine "id" value]) ++ lines) f =
      nextEvent ending lines { f with id := value } := by
  split
  · rename_i hnil
    rw [hnil, ← hf]
    rfl
  · rw [List.singleton_append, nextEvent_fieldLine (by decide) hvalue, read_id]

theorem nextEvent_data {values : List Bytes} (hvalues : ∀ value ∈ values, 13 ∉ value) :
    nextEvent ending (values.map (fieldLine "data") ++ lines) f =
      nextEvent ending lines
        { f with data := f.data ++ values, hasData := f.hasData || !values.isEmpty } := by
  induction values generalizing f with
  | nil => simp
  | cons value values ih =>
    obtain ⟨hvalue, hvalues⟩ := List.forall_mem_cons.mp hvalues
    rw [List.map_cons, List.cons_append, nextEvent_fieldLine (by decide) hvalue, ih hvalues,
      read_data]
    simp

theorem nextEvent_blank (hdata : f.hasData = true) :
    nextEvent ending ([] :: lines) f = (.ok f.assemble, ⟨lines, ending, .empty⟩) := by
  rw [nextEvent, stripCR_of_not_mem List.not_mem_nil]
  simp [hdata]

/-- **The decoder on the lines of a frame** returns the event, and is at the next frame. -/
theorem nextEvent_encode {e : Event} (h : e.Plain) :
    nextEvent ending (encodeLines e ++ lines) .empty = (.ok e, ⟨lines, ending, .empty⟩) := by
  have hvalues : ∀ value ∈ e.data.splitOn 10, 13 ∉ value :=
    fun value hvalue hb ↦ h.data (mem_of_mem_splitOn hvalue hb).2
  rw [encodeLines, List.append_assoc, List.append_assoc, List.append_assoc,
    nextEvent_event h.event.2 rfl, nextEvent_id h.id.2 rfl, nextEvent_data hvalues,
    List.singleton_append, nextEvent_blank (by simp)]
  simp [Frame.assemble, Frame.empty, List.intercalate_splitOn]

end Next

/-! ## The round trip -/

/-- What the calls of `Next` return, until one of them says how the stream ended. -/
def Decoder.drain (d : Decoder) : List Event × ReadError :=
  match h : d.next with
  | (.error e, _) => ([], e)
  | (.ok ev, d') =>
    have : d'.size < d.size := Decoder.size_next_lt h
    (ev :: d'.drain.1, d'.drain.2)
termination_by d.size

theorem Decoder.drain_of_error {d d' : Decoder} {e : ReadError} (h : d.next = (.error e, d')) :
    d.drain = ([], e) := by
  rw [Decoder.drain]
  split <;> simp_all

theorem Decoder.drain_of_ok {d d' : Decoder} {ev : Event} (h : d.next = (.ok ev, d')) :
    d.drain = (ev :: d'.drain.1, d'.drain.2) := by
  rw [Decoder.drain]
  split <;> simp_all

theorem Decoder.drain_eq (d : Decoder) : d.drain = (d.events, d.ending) := by
  induction d using Decoder.drain.induct with
  | case1 d e d' h => rw [drain_of_error h, events_of_error h, (next_ending h).2 e rfl]
  | case2 d ev d' h hlt ih => rw [drain_of_ok h, events_of_ok h, ih, (next_ending h).1]

theorem drain_encodeLines {evs : List Event} (h : ∀ e ∈ evs, e.Plain) :
    (⟨evs.flatMap encodeLines, .eof, .empty⟩ : Decoder).drain = (evs, .eof) := by
  induction evs with
  | nil => exact Decoder.drain_of_error rfl
  | cons e evs ih =>
    obtain ⟨he, hevs⟩ := List.forall_mem_cons.mp h
    have hnext : (⟨(e :: evs).flatMap encodeLines, .eof, .empty⟩ : Decoder).next =
        (.ok e, ⟨evs.flatMap encodeLines, .eof, .empty⟩) := by
      rw [List.flatMap_cons]
      exact nextEvent_encode he
    rw [Decoder.drain_of_ok hnext, ih hevs]

theorem map_stripCR_encodeLines {evs : List Event} (h : ∀ e ∈ evs, e.Plain) :
    (evs.flatMap encodeLines).map stripCR = evs.flatMap encodeLines := by
  have hstrip : ∀ line ∈ evs.flatMap encodeLines, stripCR line = id line := by
    intro line hline
    obtain ⟨e, he, hline⟩ := List.mem_flatMap.mp hline
    exact stripCR_of_not_mem (encodeLines_plain (h e he) line hline).2
  rw [List.map_congr_left hstrip, List.map_id]

/-- How the calls of `Next` end when all the lines fit. -/
def BodyEnd.readError : BodyEnd → ReadError
  | .eof => .eof
  | .failed _ => .failed

/-- A decoder over lines of any length. -/
def Body.decoder (body : Body) : Decoder :=
  ⟨(splitLines [] body.bytes).map stripCR, body.ending.readError, .empty⟩

/-- The limit of the scanner plays no role when the lines are under it. -/
theorem newDecoder_eq {body : Body}
    (hlimit : ∀ line ∈ splitLines [] body.bytes, line.length < maxTokenSize) :
    newDecoder body = body.decoder := by
  have hall : ∀ line ∈ splitLines [] body.bytes, decide (line.length < maxTokenSize) = true :=
    fun line hline ↦ decide_eq_true (hlimit line hline)
  rw [newDecoder, scan, scanEnd, List.takeWhile_eq_self_iff.mpr hall,
    if_pos (List.all_eq_true.mpr hall)]
  rfl

/-- The frames of events, decoded. -/
theorem drain_encode {evs : List Event} (h : ∀ e ∈ evs, e.Plain) :
    (Body.mk (evs.flatMap encode) .eof).decoder.drain = (evs, .eof) := by
  rw [Body.decoder, splitLines_encode h, map_stripCR_encodeLines h]
  exact drain_encodeLines h

/-- The same through the scanner, when no line is too long for it. -/
theorem newDecoder_encode {evs : List Event} (h : ∀ e ∈ evs, e.Plain)
    (hlimit : ∀ e ∈ evs, ∀ line ∈ splitLines [] (encode e), line.length < maxTokenSize) :
    (newDecoder ⟨evs.flatMap encode, .eof⟩).drain = (evs, .eof) := by
  have hlines : ∀ line ∈ splitLines [] (evs.flatMap encode), line.length < maxTokenSize := by
    rw [splitLines_encode h]
    intro line hline
    obtain ⟨e, he, hline⟩ := List.mem_flatMap.mp hline
    have hsingle : splitLines [] ([e].flatMap encode) = [e].flatMap encodeLines :=
      splitLines_encode (by simpa using h e he)
    rw [List.flatMap_singleton, List.flatMap_singleton] at hsingle
    exact hlimit e he line (hsingle ▸ hline)
  rw [newDecoder_eq hlines, drain_encode h]

/-- **Round trip.**  Decoding the frames of a list of events yields that list and then `io.EOF`,
however the bytes arrive: `reads` are the pieces in which they do. -/
theorem decode_encode (evs : List Event) (h : ∀ e ∈ evs, e.Plain)
    (hlimit : ∀ e ∈ evs, ∀ line ∈ splitLines [] (encode e), line.length < maxTokenSize)
    (reads : List Bytes) (hreads : reads.flatten = evs.flatMap encode) :
    (newDecoder ⟨reads.flatten, .eof⟩).drain = (evs, .eof) := by
  rw [hreads, newDecoder_encode h hlimit]

/-- Data with a blank line, a colon, a space and another field in it, read byte by byte. -/
theorem decode_encode_sample :
    let evs : List Event := [⟨utf8 "message", utf8 "1", utf8 "a\n\n: b\nid: c\n d\n"⟩, ⟨[], [], []⟩]
    (newDecoder ⟨((evs.flatMap encode).map fun b ↦ [b]).flatten, .eof⟩).drain = (evs, .eof) := by
  refine decode_encode _ (by decide) (by decide) _ (by decide)

end Voxeltoad
