import Mathlib.Data.List.Induction
import Voxeltoad.Ingress.Anthropic

/-!
# Messages that are passed through

An Anthropic client whose request went to an Anthropic upstream gets the upstream's own frames.  The
reader passes them on, except for `ping` and events it does not know, and for `message_stop`, which
ends the stream; the encoder writes them as they are, and closes the message if the upstream did
not.

`clientEvents_passthrough` is what the client reads, for *any* upstream.  The rest of the file is
about upstreams that keep to the protocol (`Phase`) but may be cut off.  Then the client should see
a message that is complete (`Completed`), and it does not always: the encoder does not keep track of
the blocks of the frames it relays, so a block that is open when the upstream is cut off is never
stopped.  `passthrough_completed_iff` says exactly when the message is complete.
-/

set_option autoImplicit false

namespace Voxeltoad

/-! ## What is passed on -/

/-- The events that are part of a message. -/
def Event.isPart (ev : Event) : Bool :=
  ev.event = utf8 "message_start" || ev.event = utf8 "content_block_start" ||
    ev.event = utf8 "content_block_delta" || ev.event = utf8 "content_block_stop" ||
    ev.event = utf8 "message_delta" || ev.event = utf8 "message_stop"

namespace Anthropic

variable (json : Json)

/-- The payload is one that the reader can unmarshal, if it does so at all. -/
def readable (ev : Event) : Bool :=
  if ev.event = utf8 "message_start" then (json.messageStart ev.data).isSome
  else if ev.event = utf8 "content_block_delta" then (json.contentBlockDelta ev.data).isSome
  else if ev.event = utf8 "message_delta" then (json.messageDelta ev.data).isSome
  else true

/-- The events that the reader passes on. -/
def passed : List Event → List Event
  | [] => []
  | ev :: evs =>
    if ev.isPart then
      if ev.event = utf8 "message_stop" then []
      else if readable json ev then ev :: passed evs else []
    else passed evs

/-- The event reports why the message ended. -/
def finishes (ev : Event) : Bool :=
  ev.event = utf8 "message_delta" && (json.messageDelta ev.data).any fun m ↦ m.stopReason ≠ ""

/-- The chunk carries the frame of the event. -/
structure Carries (c : Chunk) (ev : Event) : Prop where
  raw : c.raw = encode ev
  rawProtocol : c.rawProtocol = "anthropic"
  finishReason : c.finishReason ≠ "" ↔ finishes json ev = true

variable {json}

theorem reassembleSSEFrame_eq (ev : Event) : reassembleSSEFrame ev = encode ev := by
  have hevent : utf8 "event: " = utf8 "event" ++ [58, 32] := by decide
  have hid : utf8 "id: " = utf8 "id" ++ [58, 32] := by decide
  have hdata : utf8 "data: " = utf8 "data" ++ [58, 32] := by decide
  rw [reassembleSSEFrame, encode, hevent, hid, hdata]
  rfl

theorem mapStopReason_eq_empty (s : String) : mapStopReason s = "" ↔ s = "" := by
  rw [mapStopReason]
  split
  · rename_i h
    rcases h with rfl | rfl <;> simp
  split
  · rename_i h
    simp [h]
  split
  · rename_i h
    simp [h]
  · exact Iff.rfl

variable (json) in
/-- What an event means to the reader. -/
theorem event_claude {r : StreamReader} (hr : r.adapter = .claude) (ev : Event) :
    if ev.isPart then
      if ev.event = utf8 "message_stop" then ∃ r', r.event json ev = some (.error .eof, r')
      else if readable json ev then
        ∃ c r', r.event json ev = some (.ok c, r') ∧ r'.adapter = .claude ∧ Carries json c ev
      else ∃ r', r.event json ev = some (.error .failed, r')
    else r.event json ev = none := by
  have hevent : r.event json ev = StreamReader.claudeEvent json ev r := by
    rw [StreamReader.event, hr]
  rw [hevent, StreamReader.claudeEvent, reassembleSSEFrame_eq]
  by_cases hstart : ev.event = utf8 "message_start"
  · cases hdata : json.messageStart ev.data with
    | none => simp +decide [Event.isPart, readable, hstart, hdata]
    | some m =>
      simp +decide only [Event.isPart, readable, hstart, hdata]
      exact ⟨_, _, rfl, hr, rfl, rfl, by simp +decide [finishes, hstart]⟩
  by_cases hdelta : ev.event = utf8 "content_block_delta"
  · cases hdata : json.contentBlockDelta ev.data with
    | none => simp +decide [Event.isPart, readable, hdelta, hdata]
    | some m =>
      simp +decide only [Event.isPart, readable, hdelta, hdata]
      exact ⟨_, _, rfl, hr, rfl, rfl, by simp +decide [finishes, hdelta]⟩
  by_cases hmessage : ev.event = utf8 "message_delta"
  · cases hdata : json.messageDelta ev.data with
    | none => simp +decide [Event.isPart, readable, hmessage, hdata]
    | some m =>
      simp +decide only [Event.isPart, readable, hmessage, hdata]
      refine ⟨_, _, rfl, hr, rfl, rfl, ?_⟩
      simp [finishes, hmessage, hdata, mapStopReason_eq_empty]
  by_cases hstop : ev.event = utf8 "message_stop"
  · simp +decide [Event.isPart, hstop]
  by_cases hblock : ev.event = utf8 "content_block_start" ∨ ev.event = utf8 "content_block_stop"
  · have hpart : ev.isPart = true := by
      rcases hblock with h | h <;> simp [Event.isPart, h]
    rw [if_pos hpart, if_neg hstop, if_neg hstart, if_neg hdelta, if_neg hmessage, if_neg hstop,
      if_pos hblock, readable, if_neg hstart, if_neg hdelta, if_neg hmessage, if_pos rfl]
    exact ⟨_, _, rfl, hr, rfl, rfl, by simp [finishes, hmessage]⟩
  · rw [not_or] at hblock
    simp [Event.isPart, hstart, hdelta, hmessage, hstop, hblock]

variable (json) in
/-- The reader returns one chunk for each event that it passes on. -/
theorem decode_claude {e : ReadError} {r : StreamReader} (hr : r.adapter = .claude)
    (evs : List Event) :
    List.Forall₂ (Carries json) (r.decode json e evs).1 (passed json evs) := by
  induction evs generalizing r with
  | nil => exact .nil
  | cons ev evs ih =>
    have hevent := event_claude json hr ev
    rw [StreamReader.decode, passed]
    by_cases hpart : ev.isPart
    · rw [if_pos hpart] at hevent ⊢
      by_cases hstop : ev.event = utf8 "message_stop"
      · rw [if_pos hstop] at hevent ⊢
        obtain ⟨r', hr'⟩ := hevent
        rw [hr']
        exact .nil
      rw [if_neg hstop] at hevent ⊢
      by_cases hread : readable json ev
      · rw [if_pos hread] at hevent ⊢
        obtain ⟨c, r', hc, hr', hcarries⟩ := hevent
        rw [hc]
        exact .cons hcarries (ih hr')
      · rw [if_neg hread] at hevent ⊢
        obtain ⟨r', hr'⟩ := hevent
        rw [hr']
        exact .nil
    · rw [if_neg hpart] at hevent ⊢
      rw [hevent]
      exact ih hr

/-- The encoder never opened a block of its own. -/
def Tracking (e : StreamEncoder) : Prop := e.textBlockOpen = false ∧ e.toolBlocks = []

theorem Tracking.track {e : StreamEncoder} (h : Tracking e) (c : Chunk) :
    Tracking (e.track c) ∧
    ((e.track c).finished = true ↔ e.finished = true ∨ c.finishReason ≠ "") := by
  have hcache : ∀ e' : StreamEncoder, (e'.cacheUsage c).textBlockOpen = e'.textBlockOpen ∧
      (e'.cacheUsage c).toolBlocks = e'.toolBlocks ∧ (e'.cacheUsage c).finished = e'.finished := by
    intro e'
    rw [StreamEncoder.cacheUsage]
    split <;> exact ⟨rfl, rfl, rfl⟩
  rw [Tracking, StreamEncoder.track, (hcache _).1, (hcache _).2.1, (hcache _).2.2]
  cases e.messageStarted <;> by_cases hreason : c.finishReason = "" <;>
    simp [hreason, h.1, h.2]

/-- The frames are written as they are. -/
theorem encodeChunks_carried {e : StreamEncoder} (h : Tracking e) {cs : List Chunk}
    {evs : List Event} (hcs : List.Forall₂ (Carries json) cs evs) :
    (codec.encodeChunks e cs).1 = evs.flatMap encode ∧ Tracking (codec.encodeChunks e cs).2 ∧
      ((codec.encodeChunks e cs).2.finished = true ↔
        e.finished = true ∨ evs.any (finishes json) = true) := by
  induction hcs generalizing e with
  | nil => exact ⟨rfl, h, by simp [StreamCodec.encodeChunks]⟩
  | @cons c ev cs evs hc hcs ih =>
    obtain ⟨htrack, hfinished⟩ := h.track c
    obtain ⟨hbytes, htrack', hfinished'⟩ := ih htrack
    have hraw : c.isRaw = true := by
      have hne : encode ev ≠ [] := by simp [encode]
      simp [Chunk.isRaw, hc.raw, hc.rawProtocol, hne]
    have hencode : codec.encodeChunk e c = (encode ev, e.track c) := by
      simp only [codec, StreamEncoder.encodeChunk, hraw, if_true, hc.raw]
    rw [StreamCodec.encodeChunks_cons, hencode]
    refine ⟨by rw [hbytes, List.flatMap_cons], htrack', ?_⟩
    rw [hfinished', hfinished, hc.finishReason, List.any_cons, Bool.or_eq_true, or_assoc]

/-- What `Close` adds to frames that were relayed. -/
theorem closing_tracking {e : StreamEncoder} (h : Tracking e) :
    e.closing = if e.finished then [] else [emitMessageDelta "stop" e.outputTokens] := by
  rw [StreamEncoder.closing]
  split
  · rfl
  · rename_i hfinished
    rw [StreamEncoder.emitFinish, if_neg hfinished, StreamEncoder.stopOrder, h.1, h.2]
    simp

theorem mem_of_mem_passed {evs : List Event} {ev : Event} (h : ev ∈ passed json evs) :
    ev ∈ evs := by
  induction evs with
  | nil => exact h
  | cons ev' evs ih =>
    rw [passed] at h
    repeat' split at h
    · exact absurd h List.not_mem_nil
    · rcases List.mem_cons.mp h with rfl | h
      · exact List.mem_cons_self ..
      · exact List.mem_cons_of_mem _ (ih h)
    · exact absurd h List.not_mem_nil
    · exact List.mem_cons_of_mem _ (ih h)

/-- The end of a message that was passed through. -/
def ending (json : Json) (tokens : Int) (evs : List Event) : List Event :=
  (if evs.any (finishes json) then [] else [emitMessageDelta "stop" tokens]) ++ [messageStop]

variable (json) in
/-- **What the client reads**, for any Anthropic upstream: the events that are passed on, a
`message_delta` if none of them said why the message ended, and `message_stop`. -/
theorem clientEvents_passthrough {body : Body} (hends : LineEnds body.bytes) (pc : PluginContext) :
    ∃ tokens, clientEvents (codec.stream json .claude body pc) =
      passed json (newDecoder body).events ++
        ending json tokens (passed json (newDecoder body).events) := by
  have hr : (parseStream .claude body).adapter = .claude := rfl
  have hcarried := decode_claude json (e := (newDecoder body).ending) hr (newDecoder body).events
  have hplain : ∀ ev ∈ passed json (newDecoder body).events, ev.Plain :=
    fun ev hev ↦ events_plain hends ev (mem_of_mem_passed hev)
  rw [stream_eq]
  generalize passed json (newDecoder body).events = evs at hcarried hplain ⊢
  generalize (StreamReader.decode json _ _ _).1 = cs at hcarried ⊢
  obtain ⟨hbytes, htracking, hfinished⟩ :=
    encodeChunks_carried (e := .init) ⟨rfl, rfl⟩ hcarried
  have hfinished : (codec.encodeChunks .init cs).2.finished = evs.any (finishes json) := by
    rw [Bool.eq_iff_iff, hfinished]
    simp [StreamEncoder.init]
  refine ⟨(codec.encodeChunks .init cs).2.outputTokens, ?_⟩
  have hwritten : codec.written cs =
      (evs ++ ending json (codec.encodeChunks .init cs).2.outputTokens evs).flatMap encode := by
    have hclose : codec.close (codec.encodeChunks .init cs).2 =
        (codec.encodeChunks .init cs).2.closing.flatMap encode := rfl
    have hterminator : codec.streamTerminator = encode messageStop := rfl
    have hsplit : codec.written cs = (codec.encodeChunks .init cs).1 ++
        codec.close (codec.encodeChunks .init cs).2 ++ codec.streamTerminator := rfl
    rw [hsplit, hbytes, hclose, closing_tracking htracking, hfinished, hterminator, ending]
    simp
  rw [hwritten, clientEvents_encode]
  intro ev hev
  rcases List.mem_append.mp hev with hev | hev
  · exact hplain ev hev
  · rw [ending] at hev
    rcases List.mem_append.mp hev with hev | hev
    · split at hev
      · exact absurd hev List.not_mem_nil
      · rw [List.mem_singleton.mp hev]
        exact plain_sseEvent (by decide) _
    · rw [List.mem_singleton.mp hev]
      exact plain_sseEvent (by decide) _

/-! ## Upstreams that keep to the protocol -/

/-- Where a stream is in its message: the blocks that are open, and those that have been started. -/
inductive Phase where
  | waiting
  | content (opened used : List Int)
  | concluded
  | stopped
  deriving DecidableEq, Repr

/-- The protocol: `message_start`, then blocks that are each started, filled and stopped, then
`message_delta` and `message_stop`; `none` is a piece out of turn. -/
def Phase.advance : Phase → Piece → Option Phase
  | .waiting, .messageStart => some (.content [] [])
  | .content opened used, .blockStart i =>
    if i ∈ used then none else some (.content (i :: opened) (i :: used))
  | .content opened used, .blockDelta i =>
    if i ∈ opened then some (.content opened used) else none
  | .content opened used, .blockStop i =>
    if i ∈ opened then some (.content (opened.erase i) used) else none
  | .content opened _, .messageDelta => if opened = [] then some .concluded else none
  | .concluded, .messageStop => some .stopped
  | _, _ => none

/-- An event.  Those that are not part of the message may come at any time. -/
def Phase.next (json : Json) (ph : Phase) (ev : Event) : Option Phase :=
  if ev.isPart then
    if readable json ev then ev.piece.bind ph.advance else none
  else some ph

/-- A well-formed stream. -/
def WellFormedStream (json : Json) (evs : List Event) : Prop :=
  evs.foldlM (Phase.next json) .waiting = some .stopped

/-- What arrived whole of a well-formed stream that was cut off at some point after
`message_start`, or not at all. -/
structure Received (json : Json) (evs : List Event) : Prop where
  start : ∃ ev ∈ evs, ev.event = utf8 "message_start"
  cut : ∃ rest, WellFormedStream json (evs ++ rest)

/-- A frame that was cut off: what there is of its payload cannot be read. -/
structure Fragment (json : Json) (ev : Event) : Prop where
  messageStart : json.messageStart ev.data = none
  contentBlockDelta : json.contentBlockDelta ev.data = none
  messageDelta : json.messageDelta ev.data = none
  blockIndex : ev.blockIndex = none

/-- The event stops the block with this number. -/
def isStop (i : Option Int) (ev : Event) : Bool :=
  ev.event = utf8 "content_block_stop" && ev.blockIndex = i

/-- **The message is complete.**  `received` are the upstream's events, `evs` those of the
client. -/
structure Completed (received evs : List Event) : Prop where
  /-- The events that are part of the message come first, as they were received; and after them only
  what completes it. -/
  relayed : ∃ tail, evs = received.filter Event.isPart ++ tail ∧
    ∀ ev ∈ tail, ev.event = utf8 "content_block_stop" ∨ ev.event = utf8 "message_delta" ∨
      ev.event = utf8 "message_stop"
  /-- Every block that is started is stopped once. -/
  stopped : ∀ ev ∈ evs, ev.event = utf8 "content_block_start" →
    evs.countP (isStop ev.blockIndex) = 1
  /-- There is a `message_delta`. -/
  delta : ∃ ev ∈ evs, ev.event = utf8 "message_delta"
  /-- `message_stop` comes last, and once. -/
  stop : ∃ rest last, evs = rest ++ [last] ∧ last.event = utf8 "message_stop" ∧
    ∀ ev ∈ rest, ev.event ≠ utf8 "message_stop"

/-- **What it takes**: no block is open at the end of what was received, in whole (`evs`) or in part
(`last`); and a `message_stop` that was received is bare, and a stop reason came before it. -/
structure Clean (json : Json) (evs : List Event) (last : Option Event) : Prop where
  closed : ∀ ev ∈ evs, ev.event = utf8 "content_block_start" →
    ∃ ev' ∈ evs, isStop ev.blockIndex ev' = true
  fragment : (∀ ev ∈ evs, ev.event ≠ utf8 "message_stop") →
    ∀ ev ∈ last, ev.event ≠ utf8 "content_block_start"
  stop : ∀ ev ∈ evs, ev.event = utf8 "message_stop" →
    ev = messageStop ∧ evs.any (finishes json) = true

/-! ### Invariants of the protocol -/

/-- The blocks of the events: all that were started, and the stops of those that are not open. -/
structure Blocks (opened used : List Int) (evs : List Event) : Prop where
  start : ∀ ev ∈ evs, ev.event = utf8 "content_block_start" → ∃ i ∈ used, ev.blockIndex = some i
  count : ∀ i, evs.countP (isStop (some i)) = if i ∈ used ∧ i ∉ opened then 1 else 0
  nodup : opened.Nodup
  subset : opened ⊆ used

/-- No `message_stop` yet, and all that is part of the message can be read. -/
def Running (json : Json) (evs : List Event) : Prop :=
  ∀ ev ∈ evs, ev.isPart = true → ev.event ≠ utf8 "message_stop" ∧ readable json ev = true

/-- What is known of the events when the stream is in a phase. -/
def Phase.Tracks (json : Json) (evs : List Event) : Phase → Prop
  | .waiting => ∀ ev ∈ evs, ev.isPart = false
  | .content opened used => Running json evs ∧ Blocks opened used evs
  | .concluded => Running json evs ∧ ∃ used, Blocks [] used evs
  | .stopped => ∃ pre ev post, evs = pre ++ ev :: post ∧ Running json pre ∧
      (∃ used, Blocks [] used pre) ∧ ev.event = utf8 "message_stop" ∧ ∀ ev ∈ post, ev.isPart = false

theorem Running.concat {evs : List Event} {ev : Event} (h : Running json evs)
    (hev : ev.isPart = true → ev.event ≠ utf8 "message_stop" ∧ readable json ev = true) :
    Running json (evs ++ [ev]) := by
  intro ev' hev'
  rcases List.mem_append.mp hev' with hev' | hev'
  · exact h ev' hev'
  · rw [List.mem_singleton.mp hev']
    exact hev

/-- Before the message there are no blocks. -/
theorem Blocks.of_not_isPart {evs : List Event} (h : ∀ ev ∈ evs, ev.isPart = false) :
    Blocks [] [] evs := by
  refine ⟨?_, ?_, List.nodup_nil, List.Subset.refl _⟩
  · intro ev hev hevent
    have hpart := h ev hev
    simp [Event.isPart, hevent] at hpart
  · intro i
    rw [if_neg (by simp), List.countP_eq_zero]
    intro ev hev hstop
    have hpart := h ev hev
    simp only [isStop, Bool.and_eq_true, decide_eq_true_eq] at hstop
    simp [Event.isPart, hstop.1] at hpart

/-- An event that neither starts nor stops a block. -/
theorem Blocks.concat {opened used : List Int} {evs : List Event} {ev : Event}
    (h : Blocks opened used evs) (hstart : ev.event ≠ utf8 "content_block_start")
    (hstop : ev.event ≠ utf8 "content_block_stop") : Blocks opened used (evs ++ [ev]) := by
  refine { h with start := ?_, count := ?_ }
  · intro ev' hev' hevent
    rcases List.mem_append.mp hev' with hev' | hev'
    · exact h.start ev' hev' hevent
    · rw [List.mem_singleton.mp hev'] at hevent
      exact absurd hevent hstart
  · intro i
    rw [List.countP_append, h.count i]
    simp [isStop, hstop]

theorem Blocks.concat_start {opened used : List Int} {evs : List Event} {ev : Event} {i : Int}
    (h : Blocks opened used evs) (hevent : ev.event = utf8 "content_block_start")
    (hindex : ev.blockIndex = some i) (hi : i ∉ used) :
    Blocks (i :: opened) (i :: used) (evs ++ [ev]) := by
  have hne : utf8 "content_block_start" ≠ utf8 "content_block_stop" := by decide
  refine ⟨?_, ?_, List.nodup_cons.mpr ⟨fun hin ↦ hi (h.subset hin), h.nodup⟩,
    List.cons_subset_cons _ h.subset⟩
  · intro ev' hev' hevent'
    rcases List.mem_append.mp hev' with hev' | hev'
    · obtain ⟨j, hj, hindex'⟩ := h.start ev' hev' hevent'
      exact ⟨j, List.mem_cons_of_mem _ hj, hindex'⟩
    · rw [List.mem_singleton.mp hev']
      exact ⟨i, List.mem_cons_self .., hindex⟩
  · intro j
    rw [List.countP_append, h.count j]
    by_cases hij : j = i
    · subst hij
      simp [isStop, hevent, hne, hi]
    · simp [isStop, hevent, hne, hij]

theorem Blocks.concat_stop {opened used : List Int} {evs : List Event} {ev : Event} {i : Int}
    (h : Blocks opened used evs) (hevent : ev.event = utf8 "content_block_stop")
    (hindex : ev.blockIndex = some i) (hi : i ∈ opened) :
    Blocks (opened.erase i) used (evs ++ [ev]) := by
  have hne : utf8 "content_block_stop" ≠ utf8 "content_block_start" := by decide
  refine ⟨?_, ?_, h.nodup.erase i, fun j hj ↦ h.subset (List.mem_of_mem_erase hj)⟩
  · intro ev' hev' hevent'
    rcases List.mem_append.mp hev' with hev' | hev'
    · exact h.start ev' hev' hevent'
    · rw [List.mem_singleton.mp hev', hevent] at hevent'
      exact absurd hevent' hne
  · intro j
    rw [List.countP_append, h.count j]
    by_cases hij : j = i
    · subst hij
      simp [isStop, hevent, hindex, hi, h.subset hi, h.nodup.not_mem_erase]
    · simp [isStop, hevent, hindex, Ne.symm hij, List.mem_erase_of_ne hij]

/-- What an event that was read as a piece looks like. -/
theorem event_of_piece {ev : Event} {p : Piece} (h : ev.piece = some p) :
    match p with
    | .messageStart => ev.event = utf8 "message_start"
    | .blockStart i => ev.event = utf8 "content_block_start" ∧ ev.blockIndex = some i
    | .blockDelta i => ev.event = utf8 "content_block_delta" ∧ ev.blockIndex = some i
    | .blockStop i => ev.event = utf8 "content_block_stop" ∧ ev.blockIndex = some i
    | .messageDelta => ev.event = utf8 "message_delta"
    | .messageStop => ev.event = utf8 "message_stop" := by
  rw [Event.piece] at h
  split at h
  · rename_i hevent
    cases h
    exact hevent
  split at h
  · rename_i hevent
    obtain ⟨i, hi, rfl⟩ := Option.map_eq_some_iff.mp h
    exact ⟨hevent, hi⟩
  split at h
  · rename_i hevent
    obtain ⟨i, hi, rfl⟩ := Option.map_eq_some_iff.mp h
    exact ⟨hevent, hi⟩
  split at h
  · rename_i hevent
    obtain ⟨i, hi, rfl⟩ := Option.map_eq_some_iff.mp h
    exact ⟨hevent, hi⟩
  split at h
  · rename_i hevent
    cases h
    exact hevent
  split at h
  · rename_i hevent
    cases h
    exact hevent
  · cases h

/-- An event that is not part of the message leaves the phase as it is. -/
theorem Phase.Tracks.skip {evs : List Event} {ph : Phase} {ev : Event} (h : ph.Tracks json evs)
    (hev : ev.isPart = false) : ph.Tracks json (evs ++ [ev]) := by
  have hrun : ∀ {evs : List Event}, Running json evs → Running json (evs ++ [ev]) :=
    fun hrunning ↦ hrunning.concat fun hpart ↦ by simp [hev] at hpart
  have hblocks : ∀ {opened used : List Int} {evs : List Event}, Blocks opened used evs →
      Blocks opened used (evs ++ [ev]) := by
    intro opened used evs hblocks
    refine hblocks.concat ?_ ?_ <;>
    · intro hevent
      simp [Event.isPart, hevent] at hev
  cases ph with
  | waiting =>
    exact List.forall_mem_append.mpr ⟨h, fun ev' hev' ↦ List.mem_singleton.mp hev' ▸ hev⟩
  | content opened used => exact ⟨hrun h.1, hblocks h.2⟩
  | concluded =>
    obtain ⟨hrunning, used, hused⟩ := h
    exact ⟨hrun hrunning, used, hblocks hused⟩
  | stopped =>
    obtain ⟨pre, ev₀, post, rfl, hpre, hused, hstop, hpost⟩ := h
    refine ⟨pre, ev₀, post ++ [ev], by simp, hpre, hused, hstop, ?_⟩
    exact List.forall_mem_append.mpr ⟨hpost, fun ev' hev' ↦ List.mem_singleton.mp hev' ▸ hev⟩

/-- **A step of the protocol.** -/
theorem Phase.Tracks.next {evs : List Event} {ph ph' : Phase} {ev : Event}
    (h : ph.Tracks json evs) (hnext : ph.next json ev = some ph') :
    ph'.Tracks json (evs ++ [ev]) := by
  rw [Phase.next] at hnext
  split at hnext
  case isFalse hpart =>
    cases hnext
    exact h.skip (Bool.eq_false_of_not_eq_true hpart)
  case isTrue hpart =>
    split at hnext
    case isFalse => cases hnext
    case isTrue hread =>
    obtain ⟨p, hp, hadvance⟩ := Option.bind_eq_some_iff.mp hnext
    have hevent := event_of_piece hp
    have hrun : ev.event ≠ utf8 "message_stop" → Running json evs → Running json (evs ++ [ev]) :=
      fun hne hrunning ↦ hrunning.concat fun _ ↦ ⟨hne, hread⟩
    cases ph with
    | waiting =>
      cases p <;> cases hadvance
      have hrunning : Running json evs := fun ev' hev' hpart' ↦ by simp [h ev' hev'] at hpart'
      have hblocks : Blocks [] [] evs := .of_not_isPart h
      exact ⟨hrun (by rw [hevent]; decide) hrunning,
        hblocks.concat (by rw [hevent]; decide) (by rw [hevent]; decide)⟩
    | content opened used =>
      obtain ⟨hrunning, hblocks⟩ := h
      cases p with
      | blockStart i =>
        rw [Phase.advance] at hadvance
        split at hadvance <;> cases hadvance
        rename_i hi
        exact ⟨hrun (by rw [hevent.1]; decide) hrunning, hblocks.concat_start hevent.1 hevent.2 hi⟩
      | blockDelta i =>
        rw [Phase.advance] at hadvance
        split at hadvance <;> cases hadvance
        exact ⟨hrun (by rw [hevent.1]; decide) hrunning,
          hblocks.concat (by rw [hevent.1]; decide) (by rw [hevent.1]; decide)⟩
      | blockStop i =>
        rw [Phase.advance] at hadvance
        split at hadvance <;> cases hadvance
        rename_i hi
        exact ⟨hrun (by rw [hevent.1]; decide) hrunning, hblocks.concat_stop hevent.1 hevent.2 hi⟩
      | messageDelta =>
        rw [Phase.advance] at hadvance
        split at hadvance <;> cases hadvance
        rename_i hopened
        rw [hopened] at hblocks
        exact ⟨hrun (by rw [hevent]; decide) hrunning, used,
          hblocks.concat (by rw [hevent]; decide) (by rw [hevent]; decide)⟩
      | messageStart => cases hadvance
      | messageStop => cases hadvance
    | concluded =>
      cases p <;> cases hadvance
      exact ⟨evs, ev, [], rfl, h.1, h.2, hevent, fun _ hev' ↦ absurd hev' List.not_mem_nil⟩
    | stopped => cases p <;> cases hadvance

/-- **The whole protocol.** -/
theorem Phase.tracks {evs : List Event} {ph : Phase}
    (h : evs.foldlM (Phase.next json) .waiting = some ph) : ph.Tracks json evs := by
  induction evs using List.reverseRecOn generalizing ph with
  | nil =>
    cases h
    exact fun _ hev ↦ absurd hev List.not_mem_nil
  | append_singleton evs ev ih =>
    rw [List.foldlM_append] at h
    obtain ⟨ph₀, hph₀, hnext⟩ := Option.bind_eq_some_iff.mp h
    refine (ih hph₀).next ?_
    simpa using hnext

/-! ## Complete messages -/

/-- All that is part of the message is passed on, as long as it runs. -/
theorem passed_append {evs : List Event} (h : Running json evs) (evs' : List Event) :
    passed json (evs ++ evs') = evs.filter Event.isPart ++ passed json evs' := by
  induction evs with
  | nil => rfl
  | cons ev evs ih =>
    obtain ⟨hev, hevs⟩ := List.forall_mem_cons.mp h
    rw [List.cons_append, passed]
    split
    · rename_i hpart
      rw [if_neg (hev hpart).1, if_pos (hev hpart).2, ih hevs, List.filter_cons_of_pos hpart]
      rfl
    · rename_i hpart
      rw [ih hevs, List.filter_cons_of_neg hpart]

/-- Of a frame that was cut off, only the start or the stop of a block is passed on. -/
theorem passed_fragment {last : Option Event} (h : ∀ ev ∈ last, Fragment json ev) :
    passed json last.toList = last.toList.filter fun ev ↦
      ev.event = utf8 "content_block_start" || ev.event = utf8 "content_block_stop" := by
  cases last with
  | none => rfl
  | some ev =>
    have hev := h ev rfl
    rw [Option.toList_some, List.filter_singleton, passed, passed]
    by_cases hstart : ev.event = utf8 "content_block_start"
    · simp +decide [Event.isPart, readable, hstart]
    by_cases hstop : ev.event = utf8 "content_block_stop"
    · simp +decide [Event.isPart, readable, hstop]
    have hread : ev.isPart = true → ev.event ≠ utf8 "message_stop" → readable json ev = false := by
      intro hpart hne
      simp only [Event.isPart, hstart, hstop, hne, Bool.or_eq_true, decide_eq_true_eq, decide_false,
        Bool.or_false] at hpart
      rw [readable, hev.messageStart, hev.contentBlockDelta, hev.messageDelta]
      rcases hpart with (hpart | hpart) | hpart <;> simp +decide [hpart]
    simp only [hstart, hstop, decide_false, Bool.or_self]
    split
    · rename_i hpart
      split
      · rfl
      · rename_i hne
        rw [hread hpart hne]
        rfl
    · rfl

/-- The events of an ending. -/
theorem mem_ending {tokens : Int} {evs : List Event} {ev : Event}
    (h : ev ∈ ending json tokens evs) : ev.event = utf8 "message_delta" ∨ ev = messageStop := by
  rcases List.mem_append.mp h with h | h
  · split at h
    · exact absurd h List.not_mem_nil
    · rw [List.mem_singleton.mp h]
      exact .inl rfl
  · exact .inr (List.mem_singleton.mp h)

/-- An ending has no blocks. -/
theorem countP_ending {tokens : Int} {evs : List Event} (i : Option Int) :
    (ending json tokens evs).countP (isStop i) = 0 := by
  rw [List.countP_eq_zero]
  intro ev hev hstop
  simp only [isStop, Bool.and_eq_true, decide_eq_true_eq] at hstop
  rcases mem_ending hev with hdelta | rfl
  · exact absurd (hdelta.symm.trans hstop.1) (by decide)
  · exact absurd hstop.1 (by decide)

/-- Whoever passes events on to their end has a `message_delta`. -/
theorem exists_messageDelta (tokens : Int) (evs : List Event) :
    ∃ ev ∈ evs ++ ending json tokens evs, ev.event = utf8 "message_delta" := by
  by_cases hany : evs.any (finishes json) = true
  · obtain ⟨ev, hev, hfinishes⟩ := List.any_eq_true.mp hany
    simp only [finishes, Bool.and_eq_true, decide_eq_true_eq] at hfinishes
    exact ⟨ev, List.mem_append_left _ hev, hfinishes.1⟩
  · refine ⟨emitMessageDelta "stop" tokens, ?_, rfl⟩
    simp [ending, hany]

/-- The ending has the only `message_stop`. -/
theorem messageStop_last {evs : List Event} (tokens : Int)
    (h : ∀ ev ∈ evs, ev.event ≠ utf8 "message_stop") :
    ∃ rest last, evs ++ ending json tokens evs = rest ++ [last] ∧
      last.event = utf8 "message_stop" ∧ ∀ ev ∈ rest, ev.event ≠ utf8 "message_stop" := by
  refine ⟨_, messageStop, by rw [ending, ← List.append_assoc], rfl, ?_⟩
  refine List.forall_mem_append.mpr ⟨h, ?_⟩
  intro ev hev
  split at hev
  · exact absurd hev List.not_mem_nil
  · have hne : utf8 "message_delta" ≠ utf8 "message_stop" := by decide
    rw [List.mem_singleton.mp hev]
    exact hne

theorem isPart_of_isStop {i : Option Int} {ev : Event} (h : isStop i ev = true) :
    ev.isPart = true := by
  simp only [isStop, Bool.and_eq_true, decide_eq_true_eq] at h
  simp [Event.isPart, h.1]

theorem countP_filter_isPart (i : Option Int) (evs : List Event) :
    (evs.filter Event.isPart).countP (isStop i) = evs.countP (isStop i) := by
  rw [List.countP_filter]
  refine List.countP_congr fun ev _ ↦ ?_
  simp only [Bool.and_eq_true]
  exact ⟨fun h ↦ h.1, fun h ↦ ⟨h, isPart_of_isStop h⟩⟩

section Cut

variable {evs : List Event} {last : Option Event} {opened used : List Int} {tokens : Int}

/-- What the client reads when the stream is cut off before `message_stop`. -/
theorem read_of_running (hrunning : Running json evs) (hlast : ∀ ev ∈ last, Fragment json ev) :
    passed json (evs ++ last.toList) = evs.filter Event.isPart ++ last.toList.filter fun ev ↦
      ev.event = utf8 "content_block_start" || ev.event = utf8 "content_block_stop" := by
  rw [passed_append hrunning, passed_fragment hlast]

/-- A stop that the client reads of a block with a number was received whole. -/
theorem isStop_received (hlast : ∀ ev ∈ last, Fragment json ev) {i : Int} {ev : Event}
    (hev : ev ∈ passed json (evs ++ last.toList) ++ ending json tokens
      (passed json (evs ++ last.toList)))
    (hstop : isStop (some i) ev = true) : ev ∈ evs := by
  have hevent := hstop
  simp only [isStop, Bool.and_eq_true, decide_eq_true_eq] at hevent
  rcases List.mem_append.mp hev with hev | hev
  · rcases List.mem_append.mp (mem_of_mem_passed hev) with hev | hev
    · exact hev
    · have hindex := (hlast ev (Option.mem_toList.mp hev)).blockIndex
      rw [hevent.2] at hindex
      cases hindex
  · rcases mem_ending hev with hdelta | rfl
    · exact absurd (hdelta.symm.trans hevent.1) (by decide)
    · exact absurd hevent.1 (by decide)

theorem not_messageStop_of_running (hrunning : Running json evs) :
    ∀ ev ∈ evs, ev.event ≠ utf8 "message_stop" := by
  intro ev hev hevent
  exact (hrunning ev hev (by simp [Event.isPart, hevent])).1 hevent

/-- A stream that was cut off before `message_stop`. -/
theorem completed_of_running (hrunning : Running json evs) (hblocks : Blocks opened used evs)
    (hlast : ∀ ev ∈ last, Fragment json ev) (hclean : Clean json evs last) :
    Completed evs (passed json (evs ++ last.toList) ++
      ending json tokens (passed json (evs ++ last.toList))) := by
  have hread := read_of_running hrunning hlast
  have hnostop := not_messageStop_of_running hrunning
  have hfragment : ∀ ev ∈ last.toList, ev.event ≠ utf8 "content_block_start" :=
    fun ev hev ↦ hclean.fragment hnostop ev (Option.mem_toList.mp hev)
  constructor
  case relayed =>
    refine ⟨_, by rw [hread, List.append_assoc], ?_⟩
    intro ev hev
    rcases List.mem_append.mp hev with hev | hev
    · obtain ⟨hev, hblock⟩ := List.mem_filter.mp hev
      simp only [hfragment ev hev, decide_false, Bool.false_or, decide_eq_true_eq] at hblock
      exact .inl hblock
    · rcases mem_ending hev with hdelta | rfl
      · exact .inr (.inl hdelta)
      · exact .inr (.inr rfl)
  case stopped =>
    intro ev hev hstart
    have hev : ev ∈ evs := by
      rcases List.mem_append.mp hev with hev | hev
      · rcases List.mem_append.mp (mem_of_mem_passed hev) with hev | hev
        · exact hev
        · exact absurd hstart (hfragment ev hev)
      · rcases mem_ending hev with hdelta | rfl
        · exact absurd (hdelta.symm.trans hstart) (by decide)
        · exact absurd hstart (by decide)
    obtain ⟨i, hi, hindex⟩ := hblocks.start ev hev hstart
    obtain ⟨ev', hev', hstop⟩ := hclean.closed ev hev hstart
    have hcount := hblocks.count i
    have hpos : 0 < evs.countP (isStop (some i)) :=
      List.countP_pos_iff.mpr ⟨ev', hev', hindex ▸ hstop⟩
    have hone : evs.countP (isStop (some i)) = 1 := by
      split at hcount <;> omega
    have hzero : (last.toList.filter fun ev ↦ decide (ev.event = utf8 "content_block_start") ||
        decide (ev.event = utf8 "content_block_stop")).countP (isStop (some i)) = 0 := by
      rw [List.countP_eq_zero]
      intro ev hev hstop
      have hindex := (hlast ev (Option.mem_toList.mp (List.mem_filter.mp hev).1)).blockIndex
      simp [isStop, hindex] at hstop
    rw [hindex, List.countP_append, countP_ending, hread, List.countP_append, countP_filter_isPart,
      hone, hzero]
  case delta => exact exists_messageDelta tokens _
  case stop =>
    refine messageStop_last tokens ?_
    intro ev hev
    rw [hread] at hev
    rcases List.mem_append.mp hev with hev | hev
    · exact hnostop ev (List.mem_filter.mp hev).1
    · have hblock := (List.mem_filter.mp hev).2
      simp only [Bool.or_eq_true, decide_eq_true_eq] at hblock
      rcases hblock with hblock | hblock <;> rw [hblock] <;> decide

theorem clean_of_running (hrunning : Running json evs) (hblocks : Blocks opened used evs)
    (hlast : ∀ ev ∈ last, Fragment json ev)
    (h : Completed evs (passed json (evs ++ last.toList) ++
      ending json tokens (passed json (evs ++ last.toList)))) : Clean json evs last := by
  have hread := read_of_running hrunning hlast
  constructor
  case closed =>
    intro ev hev hstart
    obtain ⟨i, hi, hindex⟩ := hblocks.start ev hev hstart
    have hmem : ev ∈ passed json (evs ++ last.toList) := by
      rw [hread]
      exact List.mem_append_left _ (List.mem_filter.mpr ⟨hev, by simp [Event.isPart, hstart]⟩)
    have hcount := h.stopped ev (List.mem_append_left _ hmem) hstart
    rw [hindex] at hcount ⊢
    obtain ⟨ev', hev', hstop⟩ := List.countP_pos_iff.mp (hcount ▸ Nat.one_pos)
    exact ⟨ev', isStop_received hlast hev' hstop, hstop⟩
  case fragment =>
    intro _ ev hev hstart
    obtain ⟨tail, heq, htail⟩ := h.relayed
    rw [hread, List.append_assoc] at heq
    have hin : ev ∈ tail := by
      rw [← List.append_cancel_left heq]
      exact List.mem_append_left
        _ (List.mem_filter.mpr ⟨Option.mem_toList.mpr hev, by simp [hstart]⟩)
    have hevent := htail ev hin
    rw [hstart] at hevent
    exact absurd hevent (by decide)
  case stop =>
    intro ev hev hevent
    exact absurd hevent (not_messageStop_of_running hrunning ev hev)

end Cut

section Whole

variable {pre post : List Event} {stop : Event} {last : Option Event} {used : List Int}
  {tokens : Int}

theorem isPart_of_finishes {ev : Event} (h : finishes json ev = true) : ev.isPart = true := by
  simp only [finishes, Bool.and_eq_true, decide_eq_true_eq] at h
  simp [Event.isPart, h.1]

theorem any_filter_isPart (evs : List Event) :
    (evs.filter Event.isPart).any (finishes json) = evs.any (finishes json) := by
  rw [Bool.eq_iff_iff, List.any_eq_true, List.any_eq_true]
  constructor
  · rintro ⟨ev, hev, hfinishes⟩
    exact ⟨ev, (List.mem_filter.mp hev).1, hfinishes⟩
  · rintro ⟨ev, hev, hfinishes⟩
    exact ⟨ev, List.mem_filter.mpr ⟨hev, isPart_of_finishes hfinishes⟩, hfinishes⟩

/-- The parts of a stream that arrived whole. -/
theorem filter_stopped (hstop : stop.event = utf8 "message_stop")
    (hpost : ∀ ev ∈ post, ev.isPart = false) :
    (pre ++ stop :: post).filter Event.isPart = pre.filter Event.isPart ++ [stop] := by
  have hpart : stop.isPart = true := by simp [Event.isPart, hstop]
  have hnone : post.filter Event.isPart = [] :=
    List.filter_eq_nil_iff.mpr fun ev hev ↦ by simp [hpost ev hev]
  rw [List.filter_append, List.filter_cons_of_pos hpart, hnone]

theorem passed_stopped (hrunning : Running json pre) (hstop : stop.event = utf8 "message_stop")
    (rest : List Event) : passed json (pre ++ stop :: rest) = pre.filter Event.isPart := by
  have hpart : stop.isPart = true := by simp [Event.isPart, hstop]
  rw [passed_append hrunning, passed, if_pos hpart, if_pos hstop, List.append_nil]

theorem any_stopped (hstop : stop.event = utf8 "message_stop")
    (hpost : ∀ ev ∈ post, ev.isPart = false) :
    (pre ++ stop :: post).any (finishes json) = pre.any (finishes json) := by
  have hne : finishes json stop = false := by
    have hne : utf8 "message_stop" ≠ utf8 "message_delta" := by decide
    simp [finishes, hstop, hne]
  rw [← any_filter_isPart, filter_stopped hstop hpost, List.any_append, any_filter_isPart]
  simp [hne]

/-- The start of a block comes before `message_stop`, and the block was stopped. -/
theorem count_of_stopped (hblocks : Blocks [] used pre) (hstop : stop.event = utf8 "message_stop")
    (hpost : ∀ ev ∈ post, ev.isPart = false) {ev : Event} (hev : ev ∈ pre ++ stop :: post)
    (hstart : ev.event = utf8 "content_block_start") :
    pre.countP (isStop ev.blockIndex) = 1 := by
  have hpre : ev ∈ pre := by
    rcases List.mem_append.mp hev with hev | hev
    · exact hev
    · rcases List.mem_cons.mp hev with rfl | hev
      · exact absurd (hstop.symm.trans hstart) (by decide)
      · have hpart := hpost ev hev
        simp [Event.isPart, hstart] at hpart
  obtain ⟨i, hi, hindex⟩ := hblocks.start ev hpre hstart
  rw [hindex, hblocks.count i, if_pos ⟨hi, List.not_mem_nil⟩]

/-- A stream that arrived whole: `message_stop` is not passed on but written anew. -/
theorem completed_of_stopped (hrunning : Running json pre) (hblocks : Blocks [] used pre)
    (hstop : stop.event = utf8 "message_stop") (hpost : ∀ ev ∈ post, ev.isPart = false)
    (hclean : Clean json (pre ++ stop :: post) last) :
    Completed (pre ++ stop :: post)
      (pre.filter Event.isPart ++ ending json tokens (pre.filter Event.isPart)) := by
  have hnostop := not_messageStop_of_running hrunning
  obtain ⟨hbare, hany⟩ :=
    hclean.stop stop (List.mem_append_right _ (List.mem_cons_self ..)) hstop
  rw [any_stopped hstop hpost] at hany
  have hending : ending json tokens (pre.filter Event.isPart) = [stop] := by
    rw [ending, any_filter_isPart, if_pos hany, hbare]
    rfl
  constructor
  case relayed =>
    refine ⟨[], ?_, fun _ hev ↦ absurd hev List.not_mem_nil⟩
    rw [hending, filter_stopped hstop hpost, List.append_nil]
  case stopped =>
    intro ev hev hstart
    rw [List.countP_append, countP_ending, countP_filter_isPart]
    refine count_of_stopped hblocks hstop hpost ?_ hstart
    rw [hending] at hev
    rcases List.mem_append.mp hev with hev | hev
    · exact List.mem_append_left _ (List.mem_filter.mp hev).1
    · rw [List.mem_singleton.mp hev]
      exact List.mem_append_right _ (List.mem_cons_self ..)
  case delta => exact exists_messageDelta tokens _
  case stop => exact messageStop_last tokens fun ev hev ↦ hnostop ev (List.mem_filter.mp hev).1

theorem clean_of_stopped (hrunning : Running json pre) (hblocks : Blocks [] used pre)
    (hstop : stop.event = utf8 "message_stop") (hpost : ∀ ev ∈ post, ev.isPart = false)
    (h : Completed (pre ++ stop :: post)
      (pre.filter Event.isPart ++ ending json tokens (pre.filter Event.isPart))) :
    Clean json (pre ++ stop :: post) last := by
  have hnostop := not_messageStop_of_running hrunning
  constructor
  case closed =>
    intro ev hev hstart
    have hcount := count_of_stopped hblocks hstop hpost hev hstart
    obtain ⟨ev', hev', hstops⟩ := List.countP_pos_iff.mp (hcount ▸ Nat.one_pos)
    exact ⟨ev', List.mem_append_left _ hev', hstops⟩
  case fragment =>
    intro hnone
    exact absurd hstop (hnone stop (List.mem_append_right _ (List.mem_cons_self ..)))
  case stop =>
    intro ev hev hevent
    have hsame : ev = stop := by
      rcases List.mem_append.mp hev with hev | hev
      · exact absurd hevent (hnostop ev hev)
      · rcases List.mem_cons.mp hev with rfl | hev
        · rfl
        · have hpart := hpost ev hev
          simp [Event.isPart, hevent] at hpart
    obtain ⟨tail, heq, -⟩ := h.relayed
    rw [filter_stopped hstop hpost, List.append_assoc] at heq
    have hending : ending json tokens (pre.filter Event.isPart) = [stop] ++ tail :=
      List.append_cancel_left heq
    rw [any_stopped hstop hpost]
    rw [ending, any_filter_isPart] at hending
    split at hending
    · rename_i hany
      exact ⟨hsame.trans (List.cons.inj hending).1.symm, hany⟩
    · -- The `message_delta` that `Close` adds stands in the place of the upstream's `message_stop`.
      have hfirst := (List.cons.inj hending).1
      rw [← hfirst] at hstop
      have hne : utf8 "message_delta" ≠ utf8 "message_stop" := by decide
      exact absurd hstop hne

end Whole

/-- The phase that a stream was in when it was cut off. -/
theorem Received.phase {evs : List Event} (h : Received json evs) :
    ∃ ph : Phase, ph ≠ .waiting ∧ ph.Tracks json evs := by
  obtain ⟨rest, hrest⟩ := h.cut
  rw [WellFormedStream, List.foldlM_append] at hrest
  obtain ⟨ph, hph, -⟩ := Option.bind_eq_some_iff.mp hrest
  have htracks := Phase.tracks hph
  refine ⟨ph, ?_, htracks⟩
  rintro rfl
  obtain ⟨ev, hev, hstart⟩ := h.start
  have hpart := htracks ev hev
  simp [Event.isPart, hstart] at hpart

/-- What the client reads of a stream that keeps to the protocol is complete iff it is clean. -/
theorem completed_iff {evs : List Event} {last : Option Event} {tokens : Int}
    (h : Received json evs) (hlast : ∀ ev ∈ last, Fragment json ev) :
    Completed evs (passed json (evs ++ last.toList) ++
        ending json tokens (passed json (evs ++ last.toList))) ↔ Clean json evs last := by
  obtain ⟨ph, hwaiting, htracks⟩ := h.phase
  cases ph with
  | waiting => exact absurd rfl hwaiting
  | content opened used =>
    exact ⟨clean_of_running htracks.1 htracks.2 hlast,
      completed_of_running htracks.1 htracks.2 hlast⟩
  | concluded =>
    obtain ⟨hrunning, used, hblocks⟩ := htracks
    exact ⟨clean_of_running hrunning hblocks hlast, completed_of_running hrunning hblocks hlast⟩
  | stopped =>
    obtain ⟨pre, stop, post, rfl, hrunning, ⟨used, hblocks⟩, hstop, hpost⟩ := htracks
    rw [List.append_assoc, List.cons_append, passed_stopped hrunning hstop]
    exact ⟨clean_of_stopped hrunning hblocks hstop hpost,
      completed_of_stopped hrunning hblocks hstop hpost⟩

end Anthropic

open Anthropic in
/-- **From an Anthropic upstream to an Anthropic client.**  The upstream keeps to the protocol and
may be cut off anywhere after `message_start`: `evs` are the events that the decoder returned whole,
`last` is a frame that was cut off.  A line that is too long for the decoder ends what it returns,
and so is a cut too.  The client reads a complete message iff no block was left open, and a
`message_stop` that arrived was a bare one that came after a stop reason. -/
theorem passthrough_completed_iff (json : Json) (body : Body) (hends : LineEnds body.bytes)
    (evs : List Event) (last : Option Event)
    (hevents : (newDecoder body).events = evs ++ last.toList) (hreceived : Received json evs)
    (hlast : ∀ ev ∈ last, Fragment json ev) (pc : PluginContext) :
    Completed evs (clientEvents (codec.stream json .claude body pc)) ↔ Clean json evs last := by
  obtain ⟨tokens, hclient⟩ := clientEvents_passthrough json hends pc
  rw [hclient, hevents]
  exact completed_iff hreceived hlast

/-! ### A stream with one block -/

namespace Anthropic

/-- `message_start` and the start and the text of a block. -/
def openBlock : List Event :=
  [emitMessageStart "m" "x", emitContentBlockStartText 0, emitTextDelta 0 "a"]

/-- The rest of the message. -/
def restOfMessage : List Event := [emitContentBlockStop 0, emitMessageDelta "stop" 1, messageStop]

/-- `json.Unmarshal` on the payloads of the message. -/
def sampleJson : Json where
  streamChunk _ := none
  messageStart bytes :=
    if bytes = (emitMessageStart "m" "x").data then some ⟨"m", "x", 0, 0, 0⟩ else none
  contentBlockDelta bytes := if bytes = (emitTextDelta 0 "a").data then some "a" else none
  messageDelta bytes :=
    if bytes = (emitMessageDelta "stop" 1).data then some ⟨"end_turn", 1⟩ else none
  response _ _ := none

theorem sample_cases {ev : Event} (hev : ev ∈ openBlock ++ restOfMessage) :
    ev = emitMessageStart "m" "x" ∨ ev = emitContentBlockStartText 0 ∨ ev = emitTextDelta 0 "a" ∨
      ev = emitContentBlockStop 0 ∨ ev = emitMessageDelta "stop" 1 ∨ ev = messageStop := by
  simpa only [openBlock, restOfMessage, List.cons_append, List.nil_append, List.mem_cons,
    List.not_mem_nil, or_false] using hev

theorem readable_sample : ∀ ev ∈ openBlock ++ restOfMessage, readable sampleJson ev = true := by
  have hstart : (emitMessageStart "m" "x").event = utf8 "message_start" := rfl
  have hdelta : (emitTextDelta 0 "a").event = utf8 "content_block_delta" := rfl
  have hmessage : (emitMessageDelta "stop" 1).event = utf8 "message_delta" := rfl
  intro ev hev
  rcases sample_cases hev with rfl | rfl | rfl | rfl | rfl | rfl
  · rw [readable, if_pos hstart]
    simp [sampleJson]
  · rfl
  · rw [readable, if_neg (by decide), if_pos hdelta]
    simp [sampleJson]
  · rfl
  · rw [readable, if_neg (by decide), if_neg (by decide), if_pos hmessage]
    simp [sampleJson]
  · rfl

theorem wellFormed_sample : WellFormedStream sampleJson (openBlock ++ restOfMessage) := by
  have hnext : ∀ ev ∈ openBlock ++ restOfMessage, ∀ p, ev.piece = some p → ev.isPart = true →
      ∀ ph : Phase, ph.next sampleJson ev = ph.advance p := by
    intro ev hev p hp hpart ph
    rw [Phase.next, if_pos hpart, if_pos (readable_sample ev hev), hp]
    rfl
  simp only [openBlock, restOfMessage, List.cons_append, List.nil_append, List.forall_mem_cons,
    piece_messageStart, piece_contentBlockStartText, piece_textDelta, piece_contentBlockStop,
    piece_messageDelta, piece_messageStop, Option.some.injEq, forall_eq'] at hnext
  obtain ⟨h₁, h₂, h₃, h₄, h₅, h₆, -⟩ := hnext
  rw [WellFormedStream, openBlock, restOfMessage]
  simp only [List.cons_append, List.nil_append, List.foldlM_cons, List.foldlM_nil, h₁ rfl, h₂ rfl,
    h₃ rfl, h₄ rfl, h₅ rfl, h₆ rfl]
  rfl

theorem received_openBlock : Received sampleJson openBlock :=
  ⟨⟨emitMessageStart "m" "x", List.mem_cons_self .., rfl⟩, restOfMessage, wellFormed_sample⟩

theorem received_whole : Received sampleJson (openBlock ++ restOfMessage) := by
  refine ⟨⟨emitMessageStart "m" "x", List.mem_cons_self .., rfl⟩, [], ?_⟩
  rw [List.append_nil]
  exact wellFormed_sample

/-- The body of an upstream that sends the events. -/
def bodyOf (evs : List Event) : Body := ⟨evs.flatMap encode, .eof⟩

theorem events_bodyOf {evs : List Event} (h : ∀ ev ∈ evs, ev.Plain)
    (hlimit : ∀ line ∈ splitLines [] (evs.flatMap encode), line.length < maxTokenSize) :
    (newDecoder (bodyOf evs)).events = evs := by
  rw [bodyOf, newDecoder_eq hlimit]
  exact clientEvents_encode h

theorem plain_sample : ∀ ev ∈ openBlock ++ restOfMessage, ev.Plain := by
  intro ev hev
  rcases sample_cases hev with rfl | rfl | rfl | rfl | rfl | rfl <;> exact plain_sseEvent
    (by decide) _

theorem clean_whole : Clean sampleJson (openBlock ++ restOfMessage) none := by
  have hnames : ∀ ev ∈ openBlock ++ restOfMessage,
      (ev.event = utf8 "content_block_start" → ev = emitContentBlockStartText 0) ∧
        (ev.event = utf8 "message_stop" → ev = messageStop) := by
    intro ev hev
    rcases sample_cases hev with rfl | rfl | rfl | rfl | rfl | rfl
    · exact ⟨fun h ↦ absurd h (by decide), fun h ↦ absurd h (by decide)⟩
    · exact ⟨fun _ ↦ rfl, fun h ↦ absurd h (by decide)⟩
    · exact ⟨fun h ↦ absurd h (by decide), fun h ↦ absurd h (by decide)⟩
    · exact ⟨fun h ↦ absurd h (by decide), fun h ↦ absurd h (by decide)⟩
    · exact ⟨fun h ↦ absurd h (by decide), fun h ↦ absurd h (by decide)⟩
    · exact ⟨fun h ↦ absurd h (by decide), fun _ ↦ rfl⟩
  constructor
  case closed =>
    intro ev hev hstart
    rw [(hnames ev hev).1 hstart]
    refine ⟨emitContentBlockStop 0, by simp [restOfMessage], ?_⟩
    have hopened := (event_of_piece (piece_contentBlockStartText 0)).2
    have hstopped := event_of_piece (piece_contentBlockStop 0)
    simp [isStop, hopened, hstopped.1, hstopped.2]
  case fragment => simp
  case stop =>
    intro ev hev hstop
    refine ⟨(hnames ev hev).2 hstop, List.any_eq_true.mpr ?_⟩
    refine ⟨emitMessageDelta "stop" 1, by simp [restOfMessage], ?_⟩
    have hevent : (emitMessageDelta "stop" 1).event = utf8 "message_delta" := rfl
    simp [finishes, hevent, sampleJson]

end Anthropic

open Anthropic in
/-- A message that arrives whole. -/
theorem passthrough_whole :
    Completed (openBlock ++ restOfMessage) (clientEvents (codec.stream sampleJson .claude
      (bodyOf (openBlock ++ restOfMessage)) (newPluginContext (.sample true)))) := by
  have hevents := events_bodyOf plain_sample (by decide +kernel)
  exact (passthrough_completed_iff sampleJson (bodyOf (openBlock ++ restOfMessage))
    (by decide +kernel) _ none (by rw [hevents]; simp) received_whole (by simp) _).mpr clean_whole

open Anthropic in
/-- A stream that is cut off inside a block: the client is told that the message is over, and the
block is never stopped. -/
theorem passthrough_open_block :
    Received sampleJson openBlock ∧ LineEnds (bodyOf openBlock).bytes ∧
      (newDecoder (bodyOf openBlock)).events = openBlock ∧
      ¬ Completed openBlock (clientEvents (codec.stream sampleJson .claude (bodyOf openBlock)
        (newPluginContext (.sample true)))) := by
  have hplain : ∀ ev ∈ openBlock, ev.Plain :=
    fun ev hev ↦ plain_sample ev (List.mem_append_left _ hev)
  have hevents := events_bodyOf hplain (by decide +kernel)
  have hends : LineEnds (bodyOf openBlock).bytes := by decide +kernel
  refine ⟨received_openBlock, hends, hevents, ?_⟩
  obtain ⟨tokens, hclient⟩ :=
    clientEvents_passthrough sampleJson hends (newPluginContext (.sample true))
  have hsplit : openBlock = openBlock ++ (none : Option Event).toList := by simp
  rw [hclient, hevents]
  intro hcompleted
  rw [hsplit] at hcompleted
  have hclean := (completed_iff received_openBlock (by simp)).mp hcompleted
  obtain ⟨ev, hev, hstop⟩ := hclean.closed (emitContentBlockStartText 0) (by simp [openBlock]) rfl
  simp only [openBlock, List.mem_cons, List.not_mem_nil, or_false] at hev
  simp only [isStop, Bool.and_eq_true, decide_eq_true_eq] at hstop
  rcases hev with rfl | rfl | rfl <;> exact absurd hstop.1 (by decide)

end Voxeltoad
