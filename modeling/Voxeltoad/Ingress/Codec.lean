import Voxeltoad.Adapter.Encode
import Voxeltoad.Proxy.Request

/-!
# What a client is sent, and what it reads

The other side of `streamChatCompletions` (`internal/proxy/stream.go`).  `Voxeltoad.Proxy.Stream`
has the loop that receives; here is what it writes when the client stays: every chunk through the
encoder of the ingress codec, then what `Close` returns, then the terminator.

A client reads events (`clientEvents`).  It is held to the format, not to the limits of our own
scanner: its lines may be of any length.  `clientEvents_encode` is that it reads the events that
were encoded for it.

Events that are *relayed* have been decoded before, and `events_plain` is that they can be encoded
again: if carriage returns stand only before line feeds, the fields of an event are free of them.
-/

set_option autoImplicit false

namespace Voxeltoad

/-! ## The stream of a client -/

/-- A codec, as far as streams go: `NewStreamEncoder`, the two methods of the encoder, and
`StreamTerminator`.  The encoders of this repository marshal values that cannot fail to be
marshalled, so that `EncodeChunk` and `Close` return no error. -/
structure StreamCodec (σ : Type) where
  newStreamEncoder : σ
  encodeChunk : σ → Chunk → Bytes × σ
  close : σ → Bytes
  streamTerminator : Bytes

namespace StreamCodec

variable {σ : Type} (codec : StreamCodec σ)

/-- What is written for the chunks, and the encoder after them. -/
def encodeChunks : σ → List Chunk → Bytes × σ
  | s, [] => ([], s)
  | s, c :: cs =>
    let (wire, s') := codec.encodeChunk s c
    let (rest, s'') := encodeChunks s' cs
    (wire ++ rest, s'')

theorem encodeChunks_cons (s : σ) (c : Chunk) (cs : List Chunk) :
    codec.encodeChunks s (c :: cs) =
      ((codec.encodeChunk s c).1 ++ (codec.encodeChunks (codec.encodeChunk s c).2 cs).1,
        (codec.encodeChunks (codec.encodeChunk s c).2 cs).2) :=
  rfl

/-- All that is written when `cs` are relayed: the deferred function runs last. -/
def written (cs : List Chunk) : Bytes :=
  let (wire, s) := codec.encodeChunks codec.newStreamEncoder cs
  wire ++ codec.close s ++ codec.streamTerminator

/-- **The bytes of a client that stays connected**, when an upstream of the given protocol answers
with `body`. -/
def stream (json : Json) (adapter : AdapterKind) (body : Body) (pc : PluginContext) : Bytes :=
  codec.written (relay json (fun _ _ ↦ true) (parseStream adapter body) ⟨pc, none, []⟩).relayed

end StreamCodec

theorem taken_all (prev cs : List Chunk) : taken (fun _ _ ↦ true) prev cs = cs := by
  induction cs generalizing prev with
  | nil => rfl
  | cons c cs ih => rw [taken, if_pos rfl, ih]

/-- To a client that stays connected, all that `Recv` returns is relayed. -/
theorem stream_eq {σ : Type} (codec : StreamCodec σ) (json : Json) (adapter : AdapterKind)
    (body : Body) (pc : PluginContext) :
    codec.stream json adapter body pc =
      codec.written (StreamReader.decode json (newDecoder body).ending (parseStream adapter body)
        (newDecoder body).events).1 := by
  rw [StreamCodec.stream, relay_start, taken_all, StreamReader.chunks_eq_decode]
  rfl

/-! ## The client -/

/-- **What a client reads.** -/
def clientEvents (bytes : Bytes) : List Event := (Body.mk bytes .eof).decoder.events

/-- A client reads the events that were encoded for it. -/
theorem clientEvents_encode {evs : List Event} (h : ∀ e ∈ evs, e.Plain) :
    clientEvents (evs.flatMap encode) = evs := by
  have hdrain := drain_encode h
  rw [Decoder.drain_eq] at hdrain
  exact (Prod.mk.inj hdrain).1

/-! ## Events that were decoded -/

/-- Carriage returns stand only before line feeds. -/
def LineEnds : Bytes → Prop
  | [] => True
  | b :: bytes => (b = 13 → bytes.head? = some 10) ∧ LineEnds bytes

instance decidableLineEnds : ∀ bytes, Decidable (LineEnds bytes)
  | [] => .isTrue trivial
  | _ :: bytes =>
    have := decidableLineEnds bytes
    inferInstanceAs (Decidable (_ ∧ _))

/-- Text on one line. -/
def OneLine (text : Bytes) : Prop := 10 ∉ text ∧ 13 ∉ text

instance (text : Bytes) : Decidable (OneLine text) := inferInstanceAs (Decidable (_ ∧ _))

theorem OneLine.of_subset {text text' : Bytes} (h : OneLine text) (hsub : text' ⊆ text) :
    OneLine text' :=
  ⟨fun hb ↦ h.1 (hsub hb), fun hb ↦ h.2 (hsub hb)⟩

theorem oneLine_nil : OneLine [] := ⟨List.not_mem_nil, List.not_mem_nil⟩

theorem OneLine.stripCR_reverse {line : Bytes} (h : OneLine line) :
    OneLine (stripCR line.reverse) := by
  have hline : OneLine line.reverse := h.of_subset (List.reverse_subset.mpr fun _ ↦ id)
  rw [stripCR_of_not_mem hline.2]
  exact hline

/-- The only carriage return in a line is the one that ends it. -/
theorem splitLines_oneLine {bytes line : Bytes} (h : LineEnds bytes) (hline : OneLine line) :
    ∀ l ∈ splitLines line bytes, OneLine (stripCR l) := by
  induction bytes generalizing line with
  | nil =>
    intro l hl
    rw [splitLines] at hl
    split at hl
    · exact absurd hl List.not_mem_nil
    · rw [List.mem_singleton.mp hl]
      exact hline.stripCR_reverse
  | cons b bytes ih =>
    intro l hl
    have hrest := ih h.2 oneLine_nil
    rw [splitLines] at hl
    split at hl
    · rcases List.mem_cons.mp hl with rfl | hl
      · exact hline.stripCR_reverse
      · exact hrest l hl
    · rename_i hlf
      by_cases hcr : b = 13
      · -- The line ends right here, and the carriage return goes with its line feed.
        obtain ⟨bytes', rfl⟩ : ∃ bytes', bytes = 10 :: bytes' := by
          have hhead := h.1 hcr
          cases bytes with
          | nil => cases hhead
          | cons b' bytes' => exact ⟨bytes', by rw [Option.some.inj hhead]⟩
        rw [splitLines, if_pos rfl] at hl hrest
        rcases List.mem_cons.mp hl with rfl | hl
        · rw [List.reverse_cons, hcr, stripCR, if_pos (by simp), List.dropLast_concat]
          exact hline.of_subset (List.reverse_subset.mpr fun _ ↦ id)
        · exact hrest l (List.mem_cons_of_mem _ hl)
      · refine ih h.2 ⟨?_, ?_⟩ l hl
        · simp [Ne.symm hlf, hline.1]
        · simp [Ne.symm hcr, hline.2]

/-- The frame was read from lines without line ends in them. -/
structure Frame.Plain (f : Frame) : Prop where
  ev : OneLine f.ev
  id : OneLine f.id
  data : ∀ line ∈ f.data, OneLine line

theorem Frame.plain_empty : Frame.empty.Plain :=
  ⟨oneLine_nil, oneLine_nil, fun _ h ↦ absurd h List.not_mem_nil⟩

theorem not_mem_intercalate {lines : List Bytes} (h : ∀ line ∈ lines, 13 ∉ line) :
    13 ∉ List.intercalate [10] lines := by
  induction lines with
  | nil => exact List.not_mem_nil
  | cons line lines ih =>
    obtain ⟨hline, hlines⟩ := List.forall_mem_cons.mp h
    cases lines with
    | nil => simpa using hline
    | cons line' lines =>
      have hrest := ih hlines
      rw [List.intercalate_cons_cons]
      simp [hline, hrest]

theorem Frame.Plain.assemble {f : Frame} (h : f.Plain) : f.assemble.Plain :=
  ⟨h.ev, h.id, not_mem_intercalate fun line hline ↦ (h.data line hline).2⟩

theorem splitField_oneLine {line : Bytes} (h : OneLine line) :
    OneLine (splitField line).1 ∧ OneLine (splitField line).2 := by
  rw [splitField]
  split
  · exact ⟨h, oneLine_nil⟩
  · rename_i b value heq
    have hvalue : OneLine value :=
      h.of_subset fun x hx ↦ (List.dropWhile_suffix _).subset (heq ▸ List.mem_cons_of_mem b hx)
    refine ⟨h.of_subset (List.takeWhile_prefix _).subset, ?_⟩
    dsimp only
    split
    · exact hvalue.of_subset fun _ ↦ List.mem_of_mem_tail
    · exact hvalue

theorem Frame.Plain.read {f : Frame} (h : f.Plain) {line : Bytes} (hline : OneLine line) :
    (f.read line).Plain := by
  obtain ⟨hfield, hvalue⟩ := splitField_oneLine hline
  simp only [Frame.read]
  split
  · exact h
  split
  · exact { h with ev := hvalue }
  split
  · exact { h with id := hvalue }
  split
  · refine { h with data := ?_ }
    intro l hl
    rcases List.mem_append.mp hl with hl | hl
    · exact h.data l hl
    · exact List.mem_singleton.mp hl ▸ hvalue
  · exact h

theorem nextEvent_plain {ending : ReadError} {lines : List Bytes} {f : Frame}
    (hlines : ∀ line ∈ lines, OneLine (stripCR line)) (hf : f.Plain) :
    (∀ ev d, nextEvent ending lines f = (.ok ev, d) →
      ev.Plain ∧ (∀ line ∈ d.lines, OneLine (stripCR line)) ∧ d.frame.Plain) := by
  induction lines generalizing f with
  | nil =>
    intro ev d h
    simp only [nextEvent] at h
    repeat' split at h
    all_goals cases h
    exact ⟨hf.assemble, hlines, Frame.plain_empty⟩
  | cons line lines ih =>
    obtain ⟨hline, hlines⟩ := List.forall_mem_cons.mp hlines
    intro ev d h
    simp only [nextEvent] at h
    split at h
    · split at h
      · cases h
        exact ⟨hf.assemble, hlines, Frame.plain_empty⟩
      · exact ih hlines Frame.plain_empty ev d h
    · exact ih hlines (hf.read hline) ev d h

theorem Decoder.events_plain (d : Decoder) (hlines : ∀ line ∈ d.lines, OneLine (stripCR line))
    (hframe : d.frame.Plain) : ∀ ev ∈ d.events, ev.Plain := by
  induction d using Decoder.events.induct with
  | case1 d e d' h =>
    rw [events_of_error h]
    exact fun _ hev ↦ absurd hev List.not_mem_nil
  | case2 d ev d' h hlt ih =>
    obtain ⟨hev, hlines, hframe⟩ := nextEvent_plain hlines hframe ev d' h
    rw [events_of_ok h]
    exact List.forall_mem_cons.mpr ⟨hev, ih hlines hframe⟩

/-- **What was decoded can be encoded again.** -/
theorem events_plain {body : Body} (h : LineEnds body.bytes) :
    ∀ ev ∈ (newDecoder body).events, ev.Plain := by
  refine Decoder.events_plain _ ?_ Frame.plain_empty
  intro line hline
  obtain ⟨l, hl, rfl⟩ := List.mem_map.mp hline
  have hl := splitLines_oneLine h oneLine_nil l ((List.takeWhile_prefix _).subset hl)
  rw [stripCR_of_not_mem hl.2]
  exact hl

end Voxeltoad
