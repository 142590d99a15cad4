import Mathlib.Data.List.Basic

/-!
# Server-sent events

`pkg/sse`: the decoder every upstream stream goes through.  Text is bytes, as it is in Go.

An upstream body is what was received of it and how it ended, by plain end-of-file or by a failing
read.  `scan` is `bufio.Scanner` on it: it delivers the lines, without their line endings, and then
ends the way the body does, unless a line is too long for its buffer.  A last line without a line
feed is still delivered, also when the read after it failed.

`Decoder.next` turns lines into events.  It has its own reader-like contract: each call returns an
event or says how the stream ended, and the calls that return an event make the decoder smaller
(`Decoder.size_next_lt`), so that every loop over it ends.
-/

set_option autoImplicit false

namespace Voxeltoad

/-- A Go string or byte slice. -/
abbrev Bytes := List UInt8

/-- The bytes of a text. -/
def utf8 (s : String) : Bytes := s.toUTF8.data.toList

/-! ## The scanner -/

/-- How the body of an upstream response ended. -/
inductive BodyEnd where
  | eof
  | failed (timeout : Bool)
  deriving DecidableEq, Repr

/-- The body of an upstream response: the bytes that arrived, and how it ended. -/
structure Body where
  bytes : Bytes
  ending : BodyEnd
  deriving DecidableEq, Repr

/-- The error a pull from a stream ends with: `io.EOF`, or anything else. -/
inductive ReadError where
  | eof
  | failed
  deriving DecidableEq, Repr

/-- Split at line feeds; `line` is the line read so far, backwards.  There is no empty last
line. -/
def splitLines : Bytes → Bytes → List Bytes
  | line, [] => if line = [] then [] else [line.reverse]
  | line, b :: bytes =>
    if b = 10 then line.reverse :: splitLines [] bytes else splitLines (b :: line) bytes

/-- Remove one carriage return from the end of a line. -/
def stripCR (line : Bytes) : Bytes := if line.getLast? = some 13 then line.dropLast else line

/-- The buffer of the scanner. -/
def maxTokenSize : Nat := 1024 * 1024

/-- The lines a scanner delivers. -/
def scan (body : Body) : List Bytes :=
  ((splitLines [] body.bytes).takeWhile fun line ↦ line.length < maxTokenSize).map stripCR

/-- What `Scanner.Err` says after the last line. -/
def scanEnd (body : Body) : ReadError :=
  if (splitLines [] body.bytes).all fun line ↦ line.length < maxTokenSize then
    match body.ending with
    | .eof => .eof
    | .failed _ => .failed
  else .failed

/-! ## Events -/

/-- `sse.Event`. -/
structure Event where
  event : Bytes
  id : Bytes
  data : Bytes
  deriving DecidableEq, Repr

/-- The frame accumulator of the decoder. -/
structure Frame where
  ev : Bytes
  id : Bytes
  data : List Bytes
  hasData : Bool
  deriving DecidableEq, Repr

/-- `reset`. -/
def Frame.empty : Frame := ⟨[], [], [], false⟩

/-- `assemble`. -/
def Frame.assemble (f : Frame) : Event := ⟨f.ev, f.id, List.intercalate [10] f.data⟩

/-- `splitField`: the name before the colon, and the value after it less one leading space. -/
def splitField (line : Bytes) : Bytes × Bytes :=
  match line.dropWhile fun b ↦ b ≠ 58 with
  | [] => (line, [])
  | _ :: value =>
    (line.takeWhile fun b ↦ b ≠ 58, if value.head? = some 32 then value.tail else value)

/-- What a line that is not blank does to the frame.  Comments and unknown fields do nothing. -/
def Frame.read (f : Frame) (line : Bytes) : Frame :=
  if line.head? = some 58 then f
  else
    let (field, value) := splitField line
    if field = utf8 "event" then { f with ev := value }
    else if field = utf8 "id" then { f with id := value }
    else if field = utf8 "data" then { f with data := f.data ++ [value], hasData := true }
    else f

/-! ## The decoder -/

/-- `sse.Decoder`: the lines still to be scanned, how the scan will end, and the current frame. -/
structure Decoder where
  lines : List Bytes
  ending : ReadError
  frame : Frame
  deriving DecidableEq, Repr

/-- `NewDecoder`. -/
def newDecoder (body : Body) : Decoder := ⟨scan body, scanEnd body, .empty⟩

/-- The loop of `Next` over the lines. -/
def nextEvent (ending : ReadError) : List Bytes → Frame → Except ReadError Event × Decoder
  | [], f =>
    match ending with
    | .failed => (.error .failed, ⟨[], ending, f⟩)
    | .eof =>
      -- A final frame without its blank line is not lost.
      if f.hasData then (.ok f.assemble, ⟨[], ending, .empty⟩) else (.error .eof, ⟨[], ending, f⟩)
  | line :: lines, f =>
    let line := stripCR line
    if line = [] then
      if f.hasData then (.ok f.assemble, ⟨lines, ending, .empty⟩)
      else nextEvent ending lines .empty
    else nextEvent ending lines (f.read line)

/-- **`Next`**: the next event, or how the stream ended. -/
def Decoder.next (d : Decoder) : Except ReadError Event × Decoder :=
  nextEvent d.ending d.lines d.frame

/-- What is left to decode. -/
def Decoder.size (d : Decoder) : Nat := d.lines.length + if d.frame.hasData then 1 else 0

theorem size_nextEvent_lt {ending : ReadError} {lines : List Bytes} {f : Frame} {ev : Event}
    {d : Decoder} (h : nextEvent ending lines f = (.ok ev, d)) :
    d.size < lines.length + if f.hasData then 1 else 0 := by
  induction lines generalizing f with
  | nil =>
    simp only [nextEvent] at h
    split at h
    · cases h
    split at h
    · rename_i hdata
      cases h
      simp [Decoder.size, Frame.empty, hdata]
    · cases h
  | cons line lines ih =>
    simp only [nextEvent] at h
    split at h
    · split at h
      · cases h
        simp only [Decoder.size, Frame.empty, List.length_cons, Bool.false_eq_true, if_false]
        omega
      · have := ih h
        simp only [Frame.empty, Bool.false_eq_true, if_false] at this
        rw [List.length_cons]
        omega
    · have := ih h
      rw [List.length_cons]
      split at this <;> omega

/-- A call that returns an event uses up a line or the pending frame. -/
theorem Decoder.size_next_lt {d d' : Decoder} {ev : Event} (h : d.next = (.ok ev, d')) :
    d'.size < d.size :=
  size_nextEvent_lt h

theorem nextEvent_ending {ending : ReadError} {lines : List Bytes} {f : Frame}
    {r : Except ReadError Event} {d : Decoder} (h : nextEvent ending lines f = (r, d)) :
    d.ending = ending ∧ ∀ e, r = .error e → e = ending := by
  induction lines generalizing f with
  | nil =>
    simp only [nextEvent] at h
    repeat' split at h
    all_goals
      cases h
      simp
  | cons line lines ih =>
    simp only [nextEvent] at h
    split at h
    · split at h
      · cases h
        simp
      · exact ih h
    · exact ih h

/-- How a stream ends is known from the start. -/
theorem Decoder.next_ending {d d' : Decoder} {r : Except ReadError Event}
    (h : d.next = (r, d')) : d'.ending = d.ending ∧ ∀ e, r = .error e → e = d.ending :=
  nextEvent_ending h

/-- The events that `Next` returns until it says how the stream ended. -/
def Decoder.events (d : Decoder) : List Event :=
  match h : d.next with
  | (.error _, _) => []
  | (.ok ev, d') =>
    have : d'.size < d.size := Decoder.size_next_lt h
    ev :: d'.events
termination_by d.size

theorem Decoder.events_of_error {d d' : Decoder} {e : ReadError} (h : d.next = (.error e, d')) :
    d.events = [] := by
  rw [Decoder.events]
  split <;> simp_all

theorem Decoder.events_of_ok {d d' : Decoder} {ev : Event} (h : d.next = (.ok ev, d')) :
    d.events = ev :: d'.events := by
  rw [Decoder.events]
  split <;> simp_all

end Voxeltoad
