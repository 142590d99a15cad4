import Voxeltoad.Ingress.Anthropic

/-!
# Translated messages

When is what the Anthropic encoder makes of an OpenAI stream a message?

`IsMessage` says what a message is, as a client sees it.  The encoder always comes to the same form
(`Translated`): a start, blocks that are started and filled, their stops in some order, and the end.
The stops are the weak point.  `emitFinish` stops the text block first, because its number "is
always lower than tool blocks'"; but blocks are numbered as they are opened, and an upstream may
send a tool call before it sends text.  And there is no start when there is no chunk.  These are the
only ways to go wrong: `translated_message_iff`.
-/

set_option autoImplicit false

namespace Voxeltoad

/-! ## Messages -/

/-- The blocks that are started, in order. -/
def starts (ps : List Piece) : List Int :=
  ps.filterMap fun p ↦ match p with
    | .blockStart i => some i
    | _ => none

/-- The blocks that are stopped, in order. -/
def stops (ps : List Piece) : List Int :=
  ps.filterMap fun p ↦ match p with
    | .blockStop i => some i
    | _ => none

/-- The numbers of `n` blocks. -/
def numbers (n : Nat) : List Int := (List.range n).map fun i : Nat ↦ (i : Int)

/-- **A well-formed message.** -/
structure WellFormed (ps : List Piece) : Prop where
  /-- `message_start` comes first, and once. -/
  start : ∃ rest, ps = .messageStart :: rest ∧ .messageStart ∉ rest
  /-- Every block is started once and stopped once, the stops in the order of the blocks. -/
  blocks : ∃ n, starts ps = numbers n ∧ stops ps = numbers n
  /-- The deltas of a block come between its start and its stop. -/
  filled : ∀ pre (i : Int) post, ps = pre ++ .blockDelta i :: post →
    .blockStart i ∈ pre ∧ .blockStop i ∈ post
  /-- The stop of a block comes after its start. -/
  stopped : ∀ pre (i : Int) post, ps = pre ++ .blockStop i :: post → .blockStart i ∈ pre
  /-- There is one `message_delta`, after all the stops. -/
  delta : ∃ pre post, ps = pre ++ .messageDelta :: post ∧ .messageDelta ∉ pre ∧
    .messageDelta ∉ post ∧ stops post = []
  /-- `message_stop` comes last, and once. -/
  stop : ∃ rest, ps = rest ++ [.messageStop] ∧ .messageStop ∉ rest

/-- **The events are those of a well-formed message**, and there are no others. -/
def IsMessage (evs : List Event) : Prop := ∃ ps, evs.map Event.piece = ps.map some ∧ WellFormed ps

/-! ## What the encoder comes to -/

/-- Blocks that are started, numbered from zero on, and filled. -/
inductive Filled : Nat → List Piece → Prop
  | nil : Filled 0 []
  | start {n : Nat} {ps : List Piece} : Filled n ps → Filled (n + 1) (ps ++ [.blockStart n])
  | delta {n i : Nat} {ps : List Piece} : Filled n ps → i < n → Filled n (ps ++ [.blockDelta i])

namespace Filled

variable {n : Nat} {ps : List Piece}

theorem starts_eq (h : Filled n ps) : starts ps = numbers n := by
  induction h with
  | nil => rfl
  | start _ ih => simp_all [starts, numbers, List.range_succ]
  | delta _ _ ih => simp_all [starts]

/-- There is nothing but starts and deltas. -/
theorem mem (h : Filled n ps) : ∀ p ∈ ps, ∃ i : Nat, p = .blockStart i ∨ p = .blockDelta i := by
  induction h with
  | nil => exact fun _ hp ↦ absurd hp List.not_mem_nil
  | start h ih =>
    intro p hp
    rcases List.mem_append.mp hp with hp | hp
    · exact ih p hp
    · exact ⟨_, .inl (List.mem_singleton.mp hp)⟩
  | delta h hi ih =>
    intro p hp
    rcases List.mem_append.mp hp with hp | hp
    · exact ih p hp
    · exact ⟨_, .inr (List.mem_singleton.mp hp)⟩

theorem mem_start (h : Filled n ps) {i : Nat} (hi : i < n) : .blockStart i ∈ ps := by
  have hmem : (i : Int) ∈ starts ps := by
    rw [h.starts_eq]
    exact List.mem_map.mpr ⟨i, List.mem_range.mpr hi, rfl⟩
  obtain ⟨p, hp, heq⟩ := List.mem_filterMap.mp hmem
  split at heq
  · cases heq
    exact hp
  · cases heq

/-- A block is filled after it was started. -/
theorem of_delta (h : Filled n ps) : ∀ pre (i : Int) post, ps = pre ++ .blockDelta i :: post →
    .blockStart i ∈ pre ∧ ∃ j : Nat, i = j ∧ j < n := by
  induction h with
  | nil =>
    intro pre i post heq
    exact absurd heq.symm (by simp)
  | @start n ps h ih =>
    intro pre i post heq
    rcases List.eq_nil_or_concat post with rfl | ⟨post, p, rfl⟩
    · exact absurd (List.append_inj_right' heq rfl) (by simp)
    · rw [List.concat_eq_append, ← List.cons_append, ← List.append_assoc] at heq
      obtain ⟨hmem, j, hj, hlt⟩ := ih pre i post (List.append_inj_left' heq rfl)
      exact ⟨hmem, j, hj, by omega⟩
  | @delta n k ps h hk ih =>
    intro pre i post heq
    rcases List.eq_nil_or_concat post with rfl | ⟨post, p, rfl⟩
    · have hlast := List.append_inj_right' heq rfl
      rw [← List.append_inj_left' heq rfl]
      obtain rfl : i = k := by simpa using hlast.symm
      exact ⟨h.mem_start hk, k, rfl, hk⟩
    · rw [List.concat_eq_append, ← List.cons_append, ← List.append_assoc] at heq
      exact ih pre i post (List.append_inj_left' heq rfl)

end Filled

/-- The form of all messages that the encoder makes: `order` is the order of the stops. -/
def Translated (order : List Nat) (ps : List Piece) : Prop :=
  ∃ n body, Filled n body ∧ order.Perm (List.range n) ∧
    ps = .messageStart :: (body ++ order.map (fun i : Nat ↦ Piece.blockStop i)) ++
      [.messageDelta, .messageStop]

theorem starts_append (ps qs : List Piece) : starts (ps ++ qs) = starts ps ++ starts qs :=
  List.filterMap_append

theorem stops_append (ps qs : List Piece) : stops (ps ++ qs) = stops ps ++ stops qs :=
  List.filterMap_append

theorem starts_map_stop (order : List Nat) :
    starts (order.map fun i : Nat ↦ Piece.blockStop i) = [] := by
  rw [starts, List.filterMap_map, List.filterMap_eq_nil_iff]
  exact fun _ _ ↦ rfl

theorem stops_map_stop (order : List Nat) :
    stops (order.map fun i : Nat ↦ Piece.blockStop i) = order.map fun i : Nat ↦ (i : Int) := by
  rw [stops, List.filterMap_map]
  exact congrFun List.filterMap_eq_map _

theorem Filled.stops_eq {n : Nat} {ps : List Piece} (h : Filled n ps) : stops ps = [] := by
  rw [stops, List.filterMap_eq_nil_iff]
  intro p hp
  obtain ⟨i, rfl | rfl⟩ := h.mem p hp <;> rfl

section Splitting

variable {α : Type} {front back pre post : List α} {x : α}

/-- An element that is not in the back is in the front, and the back comes after it. -/
theorem split_front (h : front ++ back = pre ++ x :: post) (hx : x ∉ back) :
    ∃ post', front = pre ++ x :: post' ∧ post = post' ++ back := by
  rcases List.append_eq_append_iff.mp h with ⟨mid, rfl, rfl⟩ | ⟨mid, rfl, hmid⟩
  · exact absurd (List.mem_append_right _ (List.mem_cons_self ..)) hx
  · cases mid with
    | nil =>
      rw [List.nil_append] at hmid
      exact absurd (hmid ▸ List.mem_cons_self ..) hx
    | cons y mid =>
      obtain ⟨rfl, rfl⟩ := List.cons.inj hmid
      exact ⟨mid, rfl, rfl⟩

/-- An element that is not in the front is in the back, and the front comes before it. -/
theorem split_back (h : front ++ back = pre ++ x :: post) (hx : x ∉ front) :
    ∃ pre', pre = front ++ pre' ∧ back = pre' ++ x :: post := by
  rcases List.append_eq_append_iff.mp h with ⟨mid, rfl, rfl⟩ | ⟨mid, rfl, hmid⟩
  · exact ⟨mid, rfl, rfl⟩
  · cases mid with
    | nil => exact ⟨[], by simp, hmid.symm⟩
    | cons y mid =>
      obtain ⟨rfl, -⟩ := List.cons.inj hmid
      exact absurd (List.mem_append_right _ (List.mem_cons_self ..)) hx

end Splitting

namespace Translated

variable {order : List Nat} {ps : List Piece}

theorem stops_eq (h : Translated order ps) : stops ps = order.map fun i : Nat ↦ (i : Int) := by
  obtain ⟨n, body, hbody, -, rfl⟩ := h
  have hend : stops [.messageDelta, .messageStop] = [] := rfl
  have hstart : stops [.messageStart] = [] := rfl
  rw [← List.singleton_append, stops_append, stops_append, stops_append, hstart, hbody.stops_eq,
    stops_map_stop, hend]
  simp

theorem starts_eq (h : Translated order ps) : starts ps = numbers order.length := by
  obtain ⟨n, body, hbody, hperm, rfl⟩ := h
  have hend : starts [.messageDelta, .messageStop] = [] := rfl
  have hstart : starts [.messageStart] = [] := rfl
  rw [← List.singleton_append, starts_append, starts_append, starts_append, hstart, hbody.starts_eq,
    starts_map_stop, hend, hperm.length_eq, List.length_range]
  simp

/-- In a message the stops are in order. -/
theorem sorted (h : Translated order ps) (hps : WellFormed ps) : order.Pairwise (· < ·) := by
  obtain ⟨n, -, hstops⟩ := hps.blocks
  rw [h.stops_eq, numbers] at hstops
  have heq : order = List.range n := List.map_injective_iff.mpr (fun _ _ ↦ Int.ofNat.inj) hstops
  rw [heq]
  exact List.pairwise_lt_range

/-- Before the end there are starts, deltas and stops of blocks. -/
theorem mem_front {n : Nat} {body : List Piece} (hbody : Filled n body) {p : Piece}
    (hp : p ∈ body ++ order.map fun i : Nat ↦ Piece.blockStop i) :
    ∃ i : Nat, p = .blockStart i ∨ p = .blockDelta i ∨ p = .blockStop i := by
  rcases List.mem_append.mp hp with hp | hp
  · obtain ⟨i, rfl | rfl⟩ := hbody.mem p hp
    · exact ⟨i, .inl rfl⟩
    · exact ⟨i, .inr (.inl rfl)⟩
  · obtain ⟨i, -, rfl⟩ := List.mem_map.mp hp
    exact ⟨i, .inr (.inr rfl)⟩

theorem filled {n : Nat} {body : List Piece} (hbody : Filled n body) (horder : order = List.range n)
    {pre post : List Piece} {i : Int}
    (h : .messageStart :: (body ++ order.map (fun j : Nat ↦ Piece.blockStop j)) ++
      [.messageDelta, .messageStop] = pre ++ .blockDelta i :: post) :
    .blockStart i ∈ pre ∧ .blockStop i ∈ post := by
  rw [List.cons_append, List.append_assoc, ← List.cons_append] at h
  obtain ⟨post', hfront, rfl⟩ := split_front h (by simp)
  rw [← List.singleton_append] at hfront
  obtain ⟨pre', rfl, hsplit⟩ := split_back hfront (by simp)
  obtain ⟨hstart, j, rfl, hj⟩ := hbody.of_delta pre' i post' hsplit
  have hstop : Piece.blockStop j ∈ order.map fun j : Nat ↦ Piece.blockStop j :=
    List.mem_map.mpr ⟨j, horder ▸ List.mem_range.mpr hj, rfl⟩
  exact ⟨List.mem_append_right _ hstart,
    List.mem_append_right _ (List.mem_append_left _ hstop)⟩

theorem stopped {n : Nat} {body : List Piece} (hbody : Filled n body)
    (horder : order = List.range n) {pre post : List Piece} {i : Int}
    (h : .messageStart :: (body ++ order.map (fun j : Nat ↦ Piece.blockStop j)) ++
      [.messageDelta, .messageStop] = pre ++ .blockStop i :: post) : .blockStart i ∈ pre := by
  rw [List.cons_append, List.append_assoc, ← List.cons_append] at h
  have hfree : Piece.blockStop i ∉ Piece.messageStart :: body := by
    intro hin
    rcases List.mem_cons.mp hin with hin | hin
    · cases hin
    · obtain ⟨j, h | h⟩ := hbody.mem _ hin <;> cases h
  obtain ⟨pre', rfl, hback⟩ := split_back h hfree
  obtain ⟨post', hsplit, -⟩ := split_front hback (by simp)
  have hin : Piece.blockStop i ∈ order.map fun j : Nat ↦ Piece.blockStop j :=
    hsplit ▸ List.mem_append_right _ (List.mem_cons_self ..)
  obtain ⟨j, hj, heq⟩ := List.mem_map.mp hin
  cases heq
  have hstart := hbody.mem_start (List.mem_range.mp (horder ▸ hj))
  simp [hstart]

/-- If the stops are in order, it is a message. -/
theorem wellFormed (h : Translated order ps) (hsorted : order.Pairwise (· < ·)) :
    WellFormed ps := by
  have hstarts := h.starts_eq
  have hstops := h.stops_eq
  obtain ⟨n, body, hbody, hperm, rfl⟩ := h
  have horder : order = List.range n :=
    hperm.eq_of_pairwise (fun _ _ _ _ hlt hlt' ↦ absurd hlt' (Nat.lt_asymm hlt)) hsorted
      List.pairwise_lt_range
  have hends : ∀ p ∈ [Piece.messageStart, .messageDelta, .messageStop],
      p ∉ body ++ order.map fun i : Nat ↦ Piece.blockStop i := by
    intro p hp hin
    obtain ⟨i, rfl | rfl | rfl⟩ := mem_front hbody hin <;> simp at hp
  constructor
  case start =>
    refine ⟨_, rfl, ?_⟩
    intro hin
    rcases List.mem_append.mp hin with hin | hin
    · exact hends _ (by simp) hin
    · simp at hin
  case blocks =>
    exact ⟨order.length, hstarts, by rw [hstops, numbers, horder, List.length_range]⟩
  case filled => exact fun pre i post heq ↦ filled hbody horder heq
  case stopped => exact fun pre i post heq ↦ stopped hbody horder heq
  case delta =>
    refine ⟨_, [.messageStop], rfl, ?_, by simp, rfl⟩
    intro hin
    rcases List.mem_cons.mp hin with hin | hin
    · cases hin
    · exact hends _ (by simp) hin
  case stop =>
    refine ⟨.messageStart :: (body ++ order.map fun i : Nat ↦ Piece.blockStop i) ++ [.messageDelta],
      by simp, ?_⟩
    intro hin
    rcases List.mem_append.mp hin with hin | hin
    · rcases List.mem_cons.mp hin with hin | hin
      · cases hin
      · exact hends _ (by simp) hin
    · simp at hin

end Translated

/-! ## Opening and filling blocks -/

namespace Anthropic

/-- What the encoder has emitted can be sent and read. -/
def Readable (evs : List Event) (ps : List Piece) : Prop :=
  evs.map Event.piece = ps.map some ∧ ∀ ev ∈ evs, ev.Plain

theorem Readable.append {evs evs' : List Event} {ps ps' : List Piece} (h : Readable evs ps)
    (h' : Readable evs' ps') : Readable (evs ++ evs') (ps ++ ps') := by
  refine ⟨by rw [List.map_append, List.map_append, h.1, h'.1], ?_⟩
  exact List.forall_mem_append.mpr ⟨h.2, h'.2⟩

theorem Readable.cons {ev : Event} {evs : List Event} {p : Piece} {ps : List Piece}
    (h : Readable [ev] [p]) (h' : Readable evs ps) : Readable (ev :: evs) (p :: ps) :=
  h.append h'

theorem readable_nil : Readable [] [] := ⟨rfl, fun _ h ↦ absurd h List.not_mem_nil⟩

theorem readable_singleton {eventType : String} {payload : List (String × JsonValue)} {p : Piece}
    (htype : OneLine (utf8 eventType)) (h : (sseEvent eventType payload).piece = some p) :
    Readable [sseEvent eventType payload] [p] := by
  refine ⟨by rw [List.map_singleton, h]; rfl, ?_⟩
  intro ev hev
  rw [List.mem_singleton.mp hev]
  exact plain_sseEvent htype payload

/-- A chunk that is not the first. -/
theorem encodeContent_of_started {e : StreamEncoder} (h : e.messageStarted = true) (c : Chunk) :
    e.encodeContent c =
      ((e.encodeText c).1 ++ ((e.encodeText c).2.encodeToolCalls c.deltaToolCalls).1,
        ((e.encodeText c).2.encodeToolCalls c.deltaToolCalls).2.cacheUsage c) := by
  have hstart : e.startMessage c = ([], e) := if_pos h
  simp only [StreamEncoder.encodeContent, hstart, List.nil_append]

theorem translate_of_unfinished (e : StreamEncoder) (c : Chunk) (hreason : c.finishReason = "") :
    e.translate c = e.encodeContent c := by
  simp only [StreamEncoder.translate, hreason, if_true]

theorem translate_of_finish (e : StreamEncoder) (c : Chunk) (hreason : c.finishReason ≠ "") :
    e.translate c =
      ((e.encodeContent c).1 ++ ((e.encodeContent c).2.emitFinish c.finishReason).1,
        ((e.encodeContent c).2.emitFinish c.finishReason).2) := by
  simp only [StreamEncoder.translate, hreason, if_false]

/-- **The invariant of a message that is not finished.**  `ps` is what was emitted of it. -/
structure Open (e : StreamEncoder) (ps : List Piece) : Prop where
  started : e.messageStarted = true
  unfinished : e.finished = false
  filled : ∃ body, ps = .messageStart :: body ∧ Filled e.nextBlockIdx body
  /-- Tool blocks are numbered as they are opened. -/
  tools : (e.toolBlocks.map Prod.snd).Pairwise (· < ·)
  /-- The open blocks are all there are. -/
  blocks : ((if e.textBlockOpen then [e.textBlockIdx] else []) ++ e.toolBlocks.map Prod.snd).Perm
    (List.range e.nextBlockIdx)

namespace Open

variable {e : StreamEncoder} {ps : List Piece}

theorem tool_lt (h : Open e ps) {i : Nat} (hi : i ∈ e.toolBlocks.map Prod.snd) :
    i < e.nextBlockIdx :=
  List.mem_range.mp (h.blocks.subset (List.mem_append_right _ hi))

theorem text_lt (h : Open e ps) (htext : e.textBlockOpen = true) :
    e.textBlockIdx < e.nextBlockIdx := by
  have hblocks := h.blocks
  rw [if_pos htext] at hblocks
  exact List.mem_range.mp (hblocks.subset (List.mem_append_left _ (List.mem_singleton.mpr rfl)))

/-- A delta of an open block. -/
theorem delta (h : Open e ps) {i : Nat} (hi : i < e.nextBlockIdx) :
    Open e (ps ++ [.blockDelta i]) := by
  obtain ⟨body, rfl, hbody⟩ := h.filled
  exact { h with filled := ⟨body ++ [.blockDelta i], by simp, hbody.delta hi⟩ }

/-- The text block is opened. -/
theorem startText (h : Open e ps) (htext : e.textBlockOpen = false) :
    Open { e with textBlockIdx := e.nextBlockIdx, nextBlockIdx := e.nextBlockIdx + 1,
                  textBlockOpen := true } (ps ++ [.blockStart e.nextBlockIdx]) := by
  obtain ⟨body, rfl, hbody⟩ := h.filled
  refine { h with filled := ⟨body ++ [.blockStart e.nextBlockIdx], by simp, hbody.start⟩,
                  blocks := ?_ }
  have hblocks := h.blocks
  simp only [htext, Bool.false_eq_true, if_false, List.nil_append] at hblocks
  simp only [if_true, List.singleton_append, List.range_succ]
  exact (hblocks.cons _).trans (List.perm_append_singleton ..).symm

/-- A tool block is opened. -/
theorem startTool (h : Open e ps) (index : Int) :
    Open { e with nextBlockIdx := e.nextBlockIdx + 1,
                  toolBlocks := e.toolBlocks ++ [(index, e.nextBlockIdx)] }
      (ps ++ [.blockStart e.nextBlockIdx]) := by
  obtain ⟨body, rfl, hbody⟩ := h.filled
  refine { h with filled := ⟨body ++ [.blockStart e.nextBlockIdx], by simp, hbody.start⟩,
                  tools := ?_, blocks := ?_ }
  · rw [List.map_append, List.map_singleton, List.pairwise_append]
    refine ⟨h.tools, List.pairwise_singleton .., ?_⟩
    intro i hi j hj
    rw [List.mem_singleton.mp hj]
    exact h.tool_lt hi
  · rw [List.map_append, List.map_singleton, ← List.append_assoc, List.range_succ]
    exact h.blocks.append_right _

theorem readable_fragment (i : Nat) (tc : ToolCallDelta) :
    ∃ qs, Readable (StreamEncoder.inputFragment i tc) qs ∧ (qs = [] ∨ qs = [.blockDelta i]) := by
  rw [StreamEncoder.inputFragment]
  split
  · exact ⟨[], readable_nil, .inl rfl⟩
  · exact ⟨_, readable_singleton (by decide) (piece_inputJSONDelta ..), .inr rfl⟩

theorem fragment (h : Open e ps) {i : Nat} (hi : i < e.nextBlockIdx) {qs : List Piece}
    (hqs : qs = [] ∨ qs = [.blockDelta i]) : Open e (ps ++ qs) := by
  rcases hqs with rfl | rfl
  · rwa [List.append_nil]
  · exact h.delta hi

theorem encodeText (h : Open e ps) (c : Chunk) :
    ∃ qs, Readable (e.encodeText c).1 qs ∧ Open (e.encodeText c).2 (ps ++ qs) := by
  rw [StreamEncoder.encodeText]
  split
  · exact ⟨[], readable_nil, by rwa [List.append_nil]⟩
  split
  · rename_i htext
    exact ⟨_, readable_singleton (by decide) (piece_textDelta ..), h.delta (h.text_lt htext)⟩
  · rename_i htext
    have hstart :
        Readable [emitContentBlockStartText e.nextBlockIdx] [.blockStart e.nextBlockIdx] :=
      readable_singleton (by decide) (piece_contentBlockStartText _)
    refine ⟨_, hstart.cons (readable_singleton (by decide) (piece_textDelta ..)), ?_⟩
    rw [List.append_cons ps]
    exact (h.startText (Bool.eq_false_of_not_eq_true htext)).delta (Nat.lt_succ_self _)

theorem encodeToolCall (h : Open e ps) (tc : ToolCallDelta) :
    ∃ qs, Readable (e.encodeToolCall tc).1 qs ∧ Open (e.encodeToolCall tc).2 (ps ++ qs) := by
  rw [StreamEncoder.encodeToolCall]
  split
  · rename_i i hlookup
    obtain ⟨qs, hread, hqs⟩ := readable_fragment i tc
    have hi : i ∈ e.toolBlocks.map Prod.snd := by
      obtain ⟨front, back, hsplit, -⟩ := List.lookup_eq_some_iff.mp hlookup
      simp [hsplit]
    exact ⟨qs, hread, h.fragment (h.tool_lt hi) hqs⟩
  · obtain ⟨qs, hread, hqs⟩ := readable_fragment e.nextBlockIdx tc
    have hstart : Readable [emitContentBlockStartToolUse e.nextBlockIdx tc.id tc.function.name]
        [.blockStart e.nextBlockIdx] :=
      readable_singleton (by decide) (piece_contentBlockStartToolUse ..)
    refine ⟨_, hstart.cons hread, ?_⟩
    rw [List.append_cons ps]
    exact (h.startTool tc.index).fragment (Nat.lt_succ_self _) hqs

theorem encodeToolCalls (h : Open e ps) (tcs : List ToolCallDelta) :
    ∃ qs, Readable (e.encodeToolCalls tcs).1 qs ∧ Open (e.encodeToolCalls tcs).2 (ps ++ qs) := by
  induction tcs generalizing e ps with
  | nil => exact ⟨[], readable_nil, by rwa [List.append_nil]⟩
  | cons tc tcs ih =>
    obtain ⟨qs, hread, hopen⟩ := h.encodeToolCall tc
    obtain ⟨qs', hread', hopen'⟩ := ih hopen
    rw [List.append_assoc] at hopen'
    exact ⟨qs ++ qs', hread.append hread', hopen'⟩

theorem cacheUsage (h : Open e ps) (c : Chunk) : Open (e.cacheUsage c) ps := by
  rw [StreamEncoder.cacheUsage]
  split
  · exact h
  · exact { h with }

/-- **A chunk opens and fills blocks.** -/
theorem encodeContent (h : Open e ps) (c : Chunk) :
    ∃ qs, Readable (e.encodeContent c).1 qs ∧ Open (e.encodeContent c).2 (ps ++ qs) := by
  obtain ⟨qs, hread, hopen⟩ := h.encodeText c
  obtain ⟨qs', hread', hopen'⟩ := hopen.encodeToolCalls c.deltaToolCalls
  rw [List.append_assoc] at hopen'
  rw [encodeContent_of_started h.started]
  exact ⟨qs ++ qs', hread.append hread', hopen'.cacheUsage c⟩

end Open

/-! ### Text after tool calls -/

/-- The text block has a higher number than a tool block. -/
def Late (e : StreamEncoder) : Prop :=
  e.textBlockOpen = true ∧ ∃ i ∈ e.toolBlocks.map Prod.snd, i < e.textBlockIdx

theorem encodeText_late {e : StreamEncoder} {ps : List Piece} (h : Open e ps) (c : Chunk) :
    (e.encodeText c).2.toolBlocks = e.toolBlocks ∧
      ((e.encodeText c).2.textBlockOpen = true ↔ e.textBlockOpen = true ∨ c.deltaContent ≠ "") ∧
      (Late (e.encodeText c).2 ↔
        Late e ∨ (e.textBlockOpen = false ∧ c.deltaContent ≠ "" ∧ e.toolBlocks ≠ [])) := by
  rw [StreamEncoder.encodeText]
  split
  · rename_i hempty
    simp [hempty]
  split
  · rename_i htext
    simp [htext]
  · rename_i hcontent htext
    have hclosed : e.textBlockOpen = false := Bool.eq_false_of_not_eq_true htext
    refine ⟨rfl, by simp [hcontent], ?_⟩
    simp only [Late, hclosed, Bool.false_eq_true, false_and, false_or, true_and, ne_eq, hcontent,
      not_false_iff]
    constructor
    · rintro ⟨i, hi, -⟩ hnil
      rw [hnil] at hi
      exact absurd hi List.not_mem_nil
    · intro hne
      obtain ⟨p, tools, htools⟩ := List.exists_cons_of_ne_nil hne
      have hp : p.2 ∈ e.toolBlocks.map Prod.snd := by
        rw [htools]
        exact List.mem_cons_self ..
      exact ⟨p.2, hp, h.tool_lt hp⟩

theorem encodeToolCall_late {e : StreamEncoder} {ps : List Piece} (h : Open e ps)
    (tc : ToolCallDelta) :
    (e.encodeToolCall tc).2.toolBlocks ≠ [] ∧
      (e.encodeToolCall tc).2.textBlockOpen = e.textBlockOpen ∧
      (Late (e.encodeToolCall tc).2 ↔ Late e) := by
  rw [StreamEncoder.encodeToolCall]
  split
  · rename_i i hlookup
    refine ⟨?_, rfl, Iff.rfl⟩
    intro hnil
    rw [hnil] at hlookup
    cases hlookup
  · refine ⟨by simp, rfl, and_congr_right fun htext ↦ ?_⟩
    have hlt := h.text_lt htext
    simp only [List.map_append, List.map_singleton, List.mem_append, List.mem_singleton]
    constructor
    · rintro ⟨i, hi | rfl, hlate⟩
      · exact ⟨i, hi, hlate⟩
      · omega
    · rintro ⟨i, hi, hlate⟩
      exact ⟨i, .inl hi, hlate⟩

theorem encodeToolCalls_late {e : StreamEncoder} {ps : List Piece} (h : Open e ps)
    (tcs : List ToolCallDelta) :
    ((e.encodeToolCalls tcs).2.toolBlocks ≠ [] ↔ e.toolBlocks ≠ [] ∨ tcs ≠ []) ∧
      (e.encodeToolCalls tcs).2.textBlockOpen = e.textBlockOpen ∧
      (Late (e.encodeToolCalls tcs).2 ↔ Late e) := by
  induction tcs generalizing e ps with
  | nil => simp [StreamEncoder.encodeToolCalls]
  | cons tc tcs ih =>
    obtain ⟨htools, htext, hlate⟩ := encodeToolCall_late h tc
    obtain ⟨qs, -, hopen⟩ := h.encodeToolCall tc
    obtain ⟨htools', htext', hlate'⟩ := ih hopen
    refine ⟨?_, htext'.trans htext, hlate'.trans hlate⟩
    exact ⟨fun _ ↦ .inr (List.cons_ne_nil _ _), fun _ ↦ htools'.mpr (.inl htools)⟩

theorem cacheUsage_late (e : StreamEncoder) (c : Chunk) :
    (e.cacheUsage c).toolBlocks = e.toolBlocks ∧ (e.cacheUsage c).textBlockOpen = e.textBlockOpen ∧
      (Late (e.cacheUsage c) ↔ Late e) := by
  rw [StreamEncoder.cacheUsage]
  split <;> exact ⟨rfl, rfl, Iff.rfl⟩

/-- The first text comes when there has been a tool call in an earlier chunk.  `seen` is whether
there has been one. -/
def textAfterTools : Bool → List Chunk → Bool
  | _, [] => false
  | seen, c :: cs =>
    if c.deltaContent ≠ "" then seen else textAfterTools (seen || c.deltaToolCalls ≠ []) cs

/-- How a chunk moves the encoder towards stopping its blocks out of order. -/
theorem late_encodeContent {e : StreamEncoder} {ps : List Piece} (h : Open e ps) (c : Chunk)
    (cs : List Chunk) :
    (Late (e.encodeContent c).2 ∨ ((e.encodeContent c).2.textBlockOpen = false ∧
        textAfterTools ((e.encodeContent c).2.toolBlocks ≠ []) cs = true)) ↔
      (Late e ∨ (e.textBlockOpen = false ∧
        textAfterTools (e.toolBlocks ≠ []) (c :: cs) = true)) := by
  obtain ⟨htools₁, htext₁, hlate₁⟩ := encodeText_late h c
  obtain ⟨qs, -, hopen⟩ := h.encodeText c
  obtain ⟨htools₂, htext₂, hlate₂⟩ := encodeToolCalls_late hopen c.deltaToolCalls
  obtain ⟨htools₃, htext₃, hlate₃⟩ :=
    cacheUsage_late ((e.encodeText c).2.encodeToolCalls c.deltaToolCalls).2 c
  rw [encodeContent_of_started h.started]
  dsimp only
  rw [hlate₃, hlate₂, hlate₁, htext₃, htext₂, htools₃]
  rw [htools₁] at htools₂
  cases htext : e.textBlockOpen with
  | true =>
    have hopen₁ := htext₁.mpr (.inl htext)
    simp [hopen₁]
  | false =>
    by_cases hcontent : c.deltaContent = ""
    · have hclosed₁ : (e.encodeText c).2.textBlockOpen = false := by
        refine Bool.eq_false_of_not_eq_true fun hopen₁ ↦ ?_
        rcases htext₁.mp hopen₁ with h' | h'
        · rw [htext] at h'
          cases h'
        · exact h' hcontent
      have hseen :
          decide (((e.encodeText c).2.encodeToolCalls c.deltaToolCalls).2.toolBlocks ≠ []) =
          (decide (e.toolBlocks ≠ []) || decide (c.deltaToolCalls ≠ [])) := by
        rw [← Bool.decide_or]
        exact decide_eq_decide.mpr htools₂
      rw [hseen, hclosed₁, textAfterTools, if_neg (by simp [hcontent])]
      simp [hcontent]
    · have hopen₁ := htext₁.mpr (.inr hcontent)
      rw [hopen₁, textAfterTools, if_pos hcontent]
      simp [hcontent]

/-! ## Finishing -/

theorem stopOrder_eq {e : StreamEncoder} {ps : List Piece} (h : Open e ps) :
    e.stopOrder =
      (if e.textBlockOpen then [e.textBlockIdx] else []) ++ e.toolBlocks.map Prod.snd := by
  rw [StreamEncoder.stopOrder, List.mergeSort_of_pairwise]
  exact h.tools.imp fun hlt ↦ decide_eq_true (Nat.le_of_lt hlt)

/-- The stops are in order unless the text is late. -/
theorem stopOrder_sorted {e : StreamEncoder} {ps : List Piece} (h : Open e ps) :
    e.stopOrder.Pairwise (· < ·) ↔ ¬ Late e := by
  have hnodup := h.blocks.nodup_iff.mpr List.nodup_range
  rw [stopOrder_eq h]
  cases htext : e.textBlockOpen with
  | false => simpa [Late, htext] using h.tools
  | true =>
    simp only [htext, if_true, List.singleton_append, List.nodup_cons] at hnodup
    simp only [if_true, List.singleton_append, List.pairwise_cons, h.tools, and_true, Late, htext,
      true_and, not_exists, not_and, Nat.not_lt]
    refine forall₂_congr fun i hi ↦ ⟨Nat.le_of_lt, fun hle ↦ Nat.lt_of_le_of_ne hle ?_⟩
    rintro rfl
    exact hnodup.1 hi

theorem readable_stops (order : List Nat) :
    Readable (order.map emitContentBlockStop) (order.map fun i : Nat ↦ Piece.blockStop i) := by
  induction order with
  | nil => exact readable_nil
  | cons i order ih =>
    have hstop : Readable [emitContentBlockStop i] [.blockStop i] :=
      readable_singleton (by decide) (piece_contentBlockStop i)
    exact hstop.cons ih

/-- **A message that is finished has its form.** -/
theorem Open.emitFinish {e : StreamEncoder} {ps : List Piece} (h : Open e ps) (reason : String) :
    ∃ qs, Readable (e.emitFinish reason).1 qs ∧
      Translated e.stopOrder (ps ++ qs ++ [.messageStop]) := by
  have hend : Readable [emitMessageDelta reason e.outputTokens] [.messageDelta] :=
    readable_singleton (by decide) (piece_messageDelta ..)
  obtain ⟨body, rfl, hbody⟩ := h.filled
  have hperm := h.blocks
  rw [← stopOrder_eq h] at hperm
  rw [StreamEncoder.emitFinish, if_neg (by simp [h.unfinished])]
  refine ⟨_, (readable_stops e.stopOrder).append hend, e.nextBlockIdx, body, hbody, hperm, ?_⟩
  simp

/-- After the first chunk with a finish reason there is no text and no tool call. -/
def Quiet : List Chunk → Prop
  | [] => True
  | c :: cs =>
    if c.finishReason = "" then Quiet cs
    else ∀ d ∈ cs, d.deltaContent = "" ∧ d.deltaToolCalls = []

instance decidableQuiet : ∀ cs, Decidable (Quiet cs)
  | [] => .isTrue trivial
  | c :: cs =>
    have := decidableQuiet cs
    inferInstanceAs (Decidable (if c.finishReason = "" then _ else _))

/-- All the events of a stream: those of the chunks and those of `Close`. -/
def StreamEncoder.events : StreamEncoder → List Chunk → List Event
  | e, [] => e.closing
  | e, c :: cs => (e.translate c).1 ++ (e.translate c).2.events cs

/-- Once the message is finished, chunks without content add nothing. -/
theorem events_of_finished {e : StreamEncoder} (hstarted : e.messageStarted = true)
    (hfinished : e.finished = true) {cs : List Chunk}
    (hquiet : ∀ d ∈ cs, d.deltaContent = "" ∧ d.deltaToolCalls = []) : e.events cs = [] := by
  induction cs generalizing e with
  | nil => exact if_pos hfinished
  | cons c cs ih =>
    obtain ⟨⟨htext, htools⟩, hcs⟩ := List.forall_mem_cons.mp hquiet
    have hcache : (e.cacheUsage c).messageStarted = true ∧ (e.cacheUsage c).finished = true := by
      rw [StreamEncoder.cacheUsage]
      split <;> exact ⟨hstarted, hfinished⟩
    have hcontent : e.encodeContent c = ([], e.cacheUsage c) := by
      rw [encodeContent_of_started hstarted, StreamEncoder.encodeText, if_pos htext, htools]
      rfl
    have hfinish : (e.cacheUsage c).emitFinish c.finishReason = ([], e.cacheUsage c) :=
      if_pos hcache.2
    have htranslate : e.translate c = ([], e.cacheUsage c) := by
      simp only [StreamEncoder.translate, hcontent, hfinish, List.nil_append, ite_self]
    rw [StreamEncoder.events, htranslate]
    exact ih hcache.1 hcache.2 hcs

theorem textAfterTools_eq_false {seen : Bool} {cs : List Chunk}
    (h : ∀ d ∈ cs, d.deltaContent = "") : textAfterTools seen cs = false := by
  induction cs generalizing seen with
  | nil => rfl
  | cons c cs ih =>
    obtain ⟨hc, hcs⟩ := List.forall_mem_cons.mp h
    rw [textAfterTools, if_neg (by simp [hc]), ih hcs]

/-- **What the rest of a stream comes to**, when a message is open. -/
theorem Open.events {e : StreamEncoder} {ps : List Piece} (h : Open e ps) {cs : List Chunk}
    (hquiet : Quiet cs) :
    ∃ order qs, Readable (e.events cs) qs ∧ Translated order (ps ++ qs ++ [.messageStop]) ∧
      (order.Pairwise (· < ·) ↔ ¬ (Late e ∨ (e.textBlockOpen = false ∧
        textAfterTools (e.toolBlocks ≠ []) cs = true))) := by
  induction cs generalizing e ps with
  | nil =>
    obtain ⟨qs, hread, hform⟩ := h.emitFinish "stop"
    have hclosing : e.events [] = (e.emitFinish "stop").1 := if_neg (by simp [h.unfinished])
    rw [hclosing]
    exact ⟨_, qs, hread, hform, by simp [stopOrder_sorted h, textAfterTools]⟩
  | cons c cs ih =>
    obtain ⟨qs, hread, hopen⟩ := h.encodeContent c
    rw [← late_encodeContent h c cs]
    rw [Quiet] at hquiet
    split at hquiet
    · rename_i hreason
      obtain ⟨order, qs', hread', hform, hsorted⟩ := ih hopen hquiet
      rw [StreamEncoder.events, translate_of_unfinished e c hreason]
      rw [List.append_assoc ps] at hform
      exact ⟨order, qs ++ qs', hread.append hread', hform, hsorted⟩
    · rename_i hreason
      obtain ⟨qs', hread', hform⟩ := hopen.emitFinish c.finishReason
      have hrest : ((e.encodeContent c).2.emitFinish c.finishReason).2.events cs = [] := by
        rw [StreamEncoder.emitFinish, if_neg (by simp [hopen.unfinished])]
        apply events_of_finished
        · exact hopen.started
        · rfl
        · exact hquiet
      rw [StreamEncoder.events, translate_of_finish e c hreason, hrest, List.append_nil,
        textAfterTools_eq_false fun d hd ↦ (hquiet d hd).1]
      rw [List.append_assoc ps] at hform
      exact ⟨_, qs ++ qs', hread.append hread', hform, by simp [stopOrder_sorted hopen]⟩

/-! ## Whole streams -/

/-- What is written for chunks that are translated. -/
theorem encodeChunks_translated {cs : List Chunk} (h : ∀ c ∈ cs, c.isRaw = false)
    (e : StreamEncoder) :
    (codec.encodeChunks e cs).1 ++ codec.close (codec.encodeChunks e cs).2 =
      (e.events cs).flatMap encode := by
  induction cs generalizing e with
  | nil => rfl
  | cons c cs ih =>
    obtain ⟨hc, hcs⟩ := List.forall_mem_cons.mp h
    have hencode :
        codec.encodeChunk e c = ((e.translate c).1.flatMap encode, (e.translate c).2) := by
      simp only [codec, StreamEncoder.encodeChunk, hc, Bool.false_eq_true, if_false]
    rw [StreamCodec.encodeChunks_cons, hencode, StreamEncoder.events, List.flatMap_append, ← ih hcs]
    simp

theorem written_translated {cs : List Chunk} (h : ∀ c ∈ cs, c.isRaw = false) :
    codec.written cs = (StreamEncoder.init.events cs ++ [messageStop]).flatMap encode := by
  have hchunks := encodeChunks_translated h .init
  rw [List.flatMap_append, ← hchunks]
  simp [StreamCodec.written, codec]

/-- The first chunk starts the message. -/
theorem events_cons (c : Chunk) (cs : List Chunk) :
    ∃ e, Open e [.messageStart] ∧ e.textBlockOpen = false ∧ e.toolBlocks = [] ∧
      StreamEncoder.init.events (c :: cs) =
        emitMessageStart c.id c.model :: e.events (c :: cs) := by
  let e : StreamEncoder := (StreamEncoder.init.startMessage c).2
  have hcontent : StreamEncoder.init.encodeContent c =
      (emitMessageStart c.id c.model :: (e.encodeContent c).1, (e.encodeContent c).2) := rfl
  refine ⟨e, ⟨rfl, rfl, ⟨[], rfl, .nil⟩, .nil, .nil⟩, rfl, rfl, ?_⟩
  rw [StreamEncoder.events, StreamEncoder.events, StreamEncoder.translate, StreamEncoder.translate,
    hcontent]
  by_cases hreason : c.finishReason = "" <;> simp [hreason]

/-- **What the encoder makes of a stream that is not empty.** -/
theorem events_translated {cs : List Chunk} (hne : cs ≠ []) (hquiet : Quiet cs) :
    ∃ order ps, Readable (StreamEncoder.init.events cs ++ [messageStop]) ps ∧ Translated order ps ∧
      (order.Pairwise (· < ·) ↔ textAfterTools false cs = false) := by
  obtain ⟨c, cs, rfl⟩ := List.exists_cons_of_ne_nil hne
  obtain ⟨e, hopen, htext, htools, hevents⟩ := events_cons c cs
  obtain ⟨order, qs, hread, hform, hsorted⟩ := hopen.events hquiet
  have hstart : Readable [emitMessageStart c.id c.model] [.messageStart] :=
    readable_singleton (by decide) (piece_messageStart ..)
  have hstop : Readable [messageStop] [.messageStop] :=
    readable_singleton (by decide) piece_messageStop
  refine ⟨order, _, ?_, hform, ?_⟩
  · rw [hevents]
    exact (hstart.append hread).append hstop
  · rw [hsorted]
    simp [Late, htext, htools]

/-- What a client reads, when the events can be read. -/
theorem clientEvents_readable {evs : List Event} {ps : List Piece} (h : Readable evs ps) :
    IsMessage (clientEvents (evs.flatMap encode)) ↔ WellFormed ps := by
  rw [clientEvents_encode h.2, IsMessage]
  constructor
  · rintro ⟨ps', hps', hmessage⟩
    obtain rfl : ps = ps' :=
      List.map_injective_iff.mpr (Option.some_injective _) (h.1.symm.trans hps')
    exact hmessage
  · exact fun hmessage ↦ ⟨ps, h.1, hmessage⟩

/-- Without a chunk there is no start. -/
theorem not_isMessage_nil : ¬ IsMessage (clientEvents (codec.written [])) := by
  have hdelta : Readable [emitMessageDelta "stop" 0] [.messageDelta] :=
    readable_singleton (by decide) (piece_messageDelta ..)
  have hstop : Readable [messageStop] [.messageStop] :=
    readable_singleton (by decide) piece_messageStop
  have hevents : StreamEncoder.init.events [] = [emitMessageDelta "stop" 0] := by
    simp [StreamEncoder.events, StreamEncoder.closing, StreamEncoder.emitFinish,
      StreamEncoder.stopOrder, StreamEncoder.init]
  rw [written_translated (by simp), hevents, clientEvents_readable (hdelta.append hstop)]
  intro hmessage
  obtain ⟨rest, heq, -⟩ := hmessage.start
  cases heq

/-- With a chunk, it depends on the order of text and tool calls. -/
theorem isMessage_iff {cs : List Chunk} (hne : cs ≠ []) (hraw : ∀ c ∈ cs, c.isRaw = false)
    (hquiet : Quiet cs) :
    IsMessage (clientEvents (codec.written cs)) ↔ textAfterTools false cs = false := by
  obtain ⟨order, ps, hread, hform, hsorted⟩ := events_translated hne hquiet
  rw [written_translated hraw, clientEvents_readable hread, ← hsorted]
  exact ⟨hform.sorted, hform.wellFormed⟩

end Anthropic

open Anthropic in
/-- **Translated messages.**  What an Anthropic client reads of a stream that is translated for it
is a well-formed message iff there was a chunk at all, and text did not come for the first time when
a tool call had come in an earlier chunk. -/
theorem translated_message_iff (cs : List Chunk) (hraw : ∀ c ∈ cs, c.isRaw = false)
    (hquiet : Quiet cs) :
    IsMessage (clientEvents (codec.written cs)) ↔ cs ≠ [] ∧ textAfterTools false cs = false := by
  by_cases hne : cs = []
  · subst hne
    exact ⟨fun h ↦ absurd h not_isMessage_nil, fun h ↦ absurd rfl h.1⟩
  · rw [isMessage_iff hne hraw hquiet]
    exact ⟨fun h ↦ ⟨hne, h⟩, fun h ↦ h.2⟩

/-- A chunk with some text. -/
def Chunk.text (text : String) : Chunk := ⟨"m", "x", "", text, [], "", none, [], "openai"⟩

/-- A chunk with a tool call. -/
def Chunk.toolCall (index : Int) : Chunk :=
  ⟨"m", "x", "", "", [⟨index, "t", "function", ⟨"f", "\x7b\x7d"⟩⟩], "", none, [], "openai"⟩

open Anthropic in
/-- Text, then two tool calls. -/
theorem translated_message_text_first :
    let cs := [Chunk.text "a", .toolCall 0, .toolCall 1, .text "b"]
    IsMessage (clientEvents (codec.written cs)) := by
  intro cs
  exact (translated_message_iff cs (by decide) (by decide)).mpr ⟨by decide, by decide⟩

open Anthropic in
/-- A tool call, then text: the text block is number one, and is stopped before number zero.  And a
stream that ends before its first chunk: there is no `message_start`. -/
theorem translated_message_out_of_order :
    let cs := [Chunk.toolCall 0, .text "a"]
    (∀ c ∈ cs, c.isRaw = false) ∧ Quiet cs ∧ ¬ IsMessage (clientEvents (codec.written cs)) ∧
      ¬ IsMessage (clientEvents (codec.written [])) := by
  intro cs
  have hraw : ∀ c ∈ cs, c.isRaw = false := by decide
  have hquiet : Quiet cs := by decide
  refine ⟨hraw, hquiet, ?_, not_isMessage_nil⟩
  rw [isMessage_iff (by decide) hraw hquiet]
  decide

end Voxeltoad
