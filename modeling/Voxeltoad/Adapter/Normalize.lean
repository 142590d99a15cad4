import Mathlib.Data.List.Chain
import Voxeltoad.Adapter.OpenAI
import Voxeltoad.Lib.Memory

/-!
# Requests for Claude

Claude has one system prompt and wants the turns to alternate.  `ForClaude` is what `Apply` makes of
the messages of a request for it: the system messages are collapsed into one, and what is left is
cut into runs, each of which becomes one message (`Merging`).  The answers of tools, and the
messages that call them, are runs of their own.

`Apply` works on a shallow copy, and merges by overwriting the last message that it has put out.
`applyAt` does that in memory, where one can see that the messages of the request itself are as they
were.
-/

set_option autoImplicit false

namespace Voxeltoad

namespace Normalize

/-! ## What is to come out -/

/-- The texts of messages, joined by blank lines. -/
def joined (msgs : List Message) : String := "\n\n".intercalate (msgs.map fun m ↦ m.content.text)

def systems (msgs : List Message) : List Message := msgs.filter fun m ↦ m.role = "system"

def others (msgs : List Message) : List Message := msgs.filter fun m ↦ m.role ≠ "system"

/-- The answer of a tool, or a message that calls tools. -/
def Tooling (m : Message) : Prop := m.role = "tool" ∨ m.role = "assistant" ∧ m.toolCalls ≠ []

/-- Messages that may follow each other: of one role there are only answers of tools, and messages
of the assistant of which one calls tools. -/
def Apart (m m' : Message) : Prop :=
  m.role = m'.role → (m.role = "tool" ∧ m'.role = "tool") ∨
    (m.role = "assistant" ∧ m'.role = "assistant" ∧ (m.toolCalls ≠ [] ∨ m'.toolCalls ≠ []))

/-- What a run of messages is merged to. -/
structure Merged (run : List Message) (m : Message) : Prop where
  nonempty : run ≠ []
  role_eq : ∀ x ∈ run, x.role = m.role
  text_eq : m.content.text = joined run
  /-- A message on its own stays as it is. -/
  single : ∀ x, run = [x] → m = x
  /-- Whatever has to do with tools is on its own. -/
  alone : ∀ x ∈ m :: run, Tooling x → run = [m]

/-- **The messages for Claude.** -/
structure ForClaude (msgs out : List Message) : Prop where
  /-- There is one system message, in front, or none if there was none. -/
  system : (systems msgs = [] ∧ out = others out) ∨
    (systems msgs ≠ [] ∧ ∃ lead, out = lead :: others out ∧ lead.role = "system" ∧
      lead.content.text = joined (systems msgs))
  apart : out.IsChain Apart
  /-- The other messages are merged in order. -/
  runs : ∃ runs, runs.flatten = others msgs ∧ List.Forall₂ Merged runs (others out)
  tools : out.filter (fun m ↦ m.role = "tool") = msgs.filter fun m ↦ m.role = "tool"
  toolCalls : (out.filter fun m ↦ m.role = "assistant").flatMap Message.toolCalls =
    (msgs.filter fun m ↦ m.role = "assistant").flatMap Message.toolCalls

/-! ## Merging -/

theorem text_ofText (s : String) : (Content.ofText s).text = s := rfl

theorem apart_iff {m m' : Message} (h : m.role = m'.role) :
    Apart m m' ↔ Tooling m ∨ Tooling m' := by
  rw [Apart, Tooling, Tooling, ← h]
  tauto

theorem merged_singleton (m : Message) : Merged [m] m where
  nonempty := List.cons_ne_nil _ _
  role_eq := fun x hx ↦ by rw [List.mem_singleton.mp hx]
  text_eq := (String.intercalate_singleton).symm
  single := fun x hx ↦ (List.cons.inj hx).1
  alone := fun _ _ _ ↦ rfl

/-- `SetText`, for the last message and the next one. -/
def setText (last m : Message) : Message :=
  { last with content := Content.ofText (last.content.text ++ "\n\n" ++ m.content.text) }

/-- A run that goes on. -/
theorem Merged.append {run : List Message} {last m : Message} (h : Merged run last)
    (hapart : ¬ Apart last m) : Merged (run ++ [m]) (setText last m) := by
  have hrole : last.role = m.role := by
    by_contra hne
    exact hapart fun heq ↦ absurd heq hne
  rw [apart_iff hrole, not_or] at hapart
  obtain ⟨hlast, hm⟩ := hapart
  have hrun : ∀ x ∈ run, ¬ Tooling x := by
    intro x hx htool
    have hsingle : run = [last] := h.alone x (List.mem_cons_of_mem _ hx) htool
    rw [hsingle] at hx
    exact hlast (List.mem_singleton.mp hx ▸ htool)
  constructor
  case nonempty => simp
  case role_eq =>
    intro x hx
    rcases List.mem_append.mp hx with hx | hx
    · exact h.role_eq x hx
    · exact (List.mem_singleton.mp hx) ▸ hrole.symm
  case text_eq =>
    have hne : run.map (fun m ↦ m.content.text) ≠ [] := by simpa using h.nonempty
    rw [setText, text_ofText, h.text_eq, joined, joined, List.map_append,
      String.intercalate_append_of_ne_nil hne (by simp), List.map_singleton,
      String.intercalate_singleton]
  case single =>
    intro x hx
    have hlength := congrArg List.length hx
    simp [h.nonempty] at hlength
  case alone =>
    intro x hx htool
    rcases List.mem_cons.mp hx with rfl | hx
    · exact absurd htool hlast
    · rcases List.mem_append.mp hx with hx | hx
      · exact absurd htool (hrun x hx)
      · exact absurd (List.mem_singleton.mp hx ▸ htool) hm

/-- Messages, and what they are merged to. -/
inductive Merging : List Message → List Message → Prop
  | nil : Merging [] []
  | snoc {seen out run : List Message} {m : Message} : Merging seen out → Merged run m →
      (∀ last ∈ out.getLast?, Apart last m) → Merging (seen ++ run) (out ++ [m])

theorem mergeNext_of_apart {front : List Message} {last m : Message} (h : Apart last m) :
    mergeNext (front ++ [last]) m = front ++ [last] ++ [m] := by
  rw [mergeNext, List.getLast?_concat]
  refine if_pos ?_
  rw [Apart] at h
  tauto

theorem mergeNext_of_not_apart {front : List Message} {last m : Message} (h : ¬ Apart last m) :
    mergeNext (front ++ [last]) m = front ++ [setText last m] := by
  rw [mergeNext, List.getLast?_concat]
  dsimp only
  rw [if_neg, List.dropLast_concat]
  · rfl
  · rw [Apart, Classical.not_imp] at h
    obtain ⟨hrole, h⟩ := h
    rw [← hrole] at h ⊢
    tauto

/-- **One more message**: it is put out, or it goes to the last run. -/
theorem Merging.next {seen out : List Message} (h : Merging seen out) (m : Message) :
    Merging (seen ++ [m]) (mergeNext out m) := by
  cases h with
  | nil => exact .snoc .nil (merged_singleton m) (by simp)
  | @snoc seen out run last h hmerged hapart =>
    by_cases hm : Apart last m
    · rw [mergeNext_of_apart hm]
      refine (h.snoc hmerged hapart).snoc (merged_singleton m) fun last' hlast' ↦ ?_
      rw [List.getLast?_concat] at hlast'
      cases hlast'
      exact hm
    · rw [mergeNext_of_not_apart hm, List.append_assoc]
      exact h.snoc (hmerged.append hm) hapart

theorem Merging.foldl {seen out : List Message} (h : Merging seen out) (msgs : List Message) :
    Merging (seen ++ msgs) (msgs.foldl mergeNext out) := by
  induction msgs generalizing seen out with
  | nil => rwa [List.append_nil]
  | cons m msgs ih =>
    rw [List.append_cons]
    exact ih (h.next m)

/-- **`mergeConsecutive` merges.** -/
theorem merging_mergeConsecutive (msgs : List Message) : Merging msgs (mergeConsecutive msgs) :=
  Merging.nil.foldl msgs

namespace Merging

variable {msgs out : List Message}

theorem apart (h : Merging msgs out) : out.IsChain Apart := by
  induction h with
  | nil => exact .nil
  | snoc h hmerged hapart ih =>
    rw [List.isChain_append]
    refine ⟨ih, .singleton _, fun last hlast m hm ↦ ?_⟩
    cases hm
    exact hapart last hlast

theorem runs (h : Merging msgs out) :
    ∃ runs, runs.flatten = msgs ∧ List.Forall₂ Merged runs out := by
  induction h with
  | nil => exact ⟨[], rfl, .nil⟩
  | @snoc seen out run m h hmerged hapart ih =>
    obtain ⟨runs, hflatten, hruns⟩ := ih
    refine ⟨runs ++ [run], by simp [hflatten], ?_⟩
    exact List.rel_append hruns (.cons hmerged .nil)

/-- There are no new roles. -/
theorem roles (h : Merging msgs out) : ∀ m ∈ out, ∃ x ∈ msgs, x.role = m.role := by
  induction h with
  | nil => exact fun _ h ↦ absurd h List.not_mem_nil
  | @snoc seen out run m h hmerged hapart ih =>
    intro m' hm'
    rcases List.mem_append.mp hm' with hm' | hm'
    · obtain ⟨x, hx, heq⟩ := ih m' hm'
      exact ⟨x, List.mem_append_left _ hx, heq⟩
    · obtain ⟨x, hx⟩ := List.exists_mem_of_ne_nil run hmerged.nonempty
      exact ⟨x, List.mem_append_right _ hx, (List.mem_singleton.mp hm') ▸ hmerged.role_eq x hx⟩

theorem tools (h : Merging msgs out) :
    out.filter (fun m ↦ m.role = "tool") = msgs.filter fun m ↦ m.role = "tool" := by
  induction h with
  | nil => rfl
  | @snoc seen out run m h hmerged hapart ih =>
    rw [List.filter_append, List.filter_append, ih]
    congr 1
    by_cases hm : m.role = "tool"
    · rw [hmerged.alone m (List.mem_cons_self ..) (.inl hm)]
    · have hrun : run.filter (fun m ↦ m.role = "tool") = [] :=
        List.filter_eq_nil_iff.mpr fun x hx ↦ by simpa [hmerged.role_eq x hx] using hm
      simp [hrun, hm]

theorem toolCalls (h : Merging msgs out) :
    (out.filter fun m ↦ m.role = "assistant").flatMap Message.toolCalls =
      (msgs.filter fun m ↦ m.role = "assistant").flatMap Message.toolCalls := by
  induction h with
  | nil => rfl
  | @snoc seen out run m h hmerged hapart ih =>
    rw [List.filter_append, List.filter_append, List.flatMap_append, List.flatMap_append, ih]
    congr 1
    by_cases hm : ∃ x ∈ m :: run, Tooling x
    · obtain ⟨x, hx, htool⟩ := hm
      rw [hmerged.alone x hx htool]
    · have hnone : ∀ x ∈ m :: run, (if x.role = "assistant" then x.toolCalls else []) = [] := by
        intro x hx
        split
        · rename_i hrole
          by_contra hcalls
          exact hm ⟨x, hx, .inr ⟨hrole, hcalls⟩⟩
        · rfl
      obtain ⟨hfirst, hrest⟩ := List.forall_mem_cons.mp hnone
      have hcalls :
          ∀ xs : List Message, (∀ x ∈ xs, (if x.role = "assistant" then x.toolCalls else []) = []) →
          (xs.filter fun m ↦ m.role = "assistant").flatMap Message.toolCalls = [] := by
        intro xs hxs
        rw [List.flatMap_eq_nil_iff]
        intro x hx
        obtain ⟨hx, hrole⟩ := List.mem_filter.mp hx
        simpa [of_decide_eq_true hrole] using hxs x hx
      rw [hcalls [m] (by simpa using hfirst), hcalls run hrest]

end Merging

/-! ### Messages that are merged already -/

/-- Messages that are apart stay as they are. -/
theorem foldl_mergeNext_of_apart {front msgs : List Message} (h : (front ++ msgs).IsChain Apart) :
    msgs.foldl mergeNext front = front ++ msgs := by
  induction msgs generalizing front with
  | nil => exact (List.append_nil _).symm
  | cons m msgs ih =>
    have hnext : mergeNext front m = front ++ [m] := by
      rcases List.eq_nil_or_concat front with rfl | ⟨front, last, rfl⟩
      · rfl
      · rw [List.concat_eq_append] at h ⊢
        have hlast := (List.isChain_append.mp h).2.2 last (by simp) m rfl
        exact mergeNext_of_apart hlast
    rw [List.append_cons] at h ⊢
    rw [List.foldl_cons, hnext]
    exact ih h

theorem mergeConsecutive_of_apart {msgs : List Message} (h : msgs.IsChain Apart) :
    mergeConsecutive msgs = msgs :=
  foldl_mergeNext_of_apart h

/-- A message in front that has a role of its own stays there. -/
theorem foldl_mergeNext_cons {lead : Message} {msgs : List Message}
    (h : ∀ m ∈ msgs, lead.role ≠ m.role) (out : List Message) :
    msgs.foldl mergeNext (lead :: out) = lead :: msgs.foldl mergeNext out := by
  induction msgs generalizing out with
  | nil => rfl
  | cons m msgs ih =>
    obtain ⟨hm, hmsgs⟩ := List.forall_mem_cons.mp h
    have hnext : mergeNext (lead :: out) m = lead :: mergeNext out m := by
      rcases List.eq_nil_or_concat out with rfl | ⟨front, last, rfl⟩
      · have hlead : mergeNext ([] ++ [lead]) m = [] ++ [lead] ++ [m] :=
          mergeNext_of_apart fun heq ↦ absurd heq hm
        exact hlead
      · rw [List.concat_eq_append, ← List.cons_append]
        by_cases happart : Apart last m
        · rw [mergeNext_of_apart happart, mergeNext_of_apart happart]
          rfl
        · rw [mergeNext_of_not_apart happart, mergeNext_of_not_apart happart]
          rfl
    rw [List.foldl_cons, hnext, ih hmsgs, List.foldl_cons]

/-! ## Collapsing -/

/-- The system message that comes out. -/
def collapsed (msgs : List Message) : List Message :=
  if systems msgs = [] then [] else [⟨"system", Content.ofText (joined (systems msgs)), "", [], ""⟩]

theorem role_of_mem_others {m : Message} {msgs : List Message} (h : m ∈ others msgs) :
    m.role ≠ "system" :=
  of_decide_eq_true (List.mem_filter.mp h).2

theorem others_eq_self {msgs : List Message} (h : ∀ m ∈ msgs, m.role ≠ "system") :
    others msgs = msgs :=
  List.filter_eq_self.mpr fun m hm ↦ decide_eq_true (h m hm)

theorem systems_eq_nil {msgs : List Message} (h : ∀ m ∈ msgs, m.role ≠ "system") :
    systems msgs = [] :=
  List.filter_eq_nil_iff.mpr fun m hm ↦ by simpa using h m hm

theorem collapseSystem_eq (msgs : List Message) :
    collapseSystem msgs = collapsed msgs ++ others msgs := by
  have hnil : (systems msgs).map (fun m ↦ m.content.text) = [] ↔ systems msgs = [] :=
    List.map_eq_nil_iff
  rw [collapsed]
  by_cases h : systems msgs = []
  · have hsystems : ∀ m ∈ msgs, m.role ≠ "system" :=
      fun m hm ↦ by simpa using List.filter_eq_nil_iff.mp h m hm
    rw [if_pos h, List.nil_append, others_eq_self hsystems]
    exact if_pos (hnil.mpr h)
  · rw [if_neg h]
    exact if_neg (mt hnil.mp h)

theorem collapsed_role {msgs : List Message} {m : Message} (h : m ∈ collapsed msgs) :
    m.role = "system" := by
  rw [collapsed] at h
  split at h
  · exact absurd h List.not_mem_nil
  · rw [List.mem_singleton.mp h]

section Claude

variable {F : Type} (req : Adapter.UnifiedRequest F) (n : Int)

/-- The target of a Claude endpoint. -/
def claude : Target := ⟨n, true, true⟩

/-- **The messages for Claude**: the collapsed system message, then the others, merged. -/
theorem messages_apply :
    (apply req (claude n)).messages =
      collapsed req.messages ++ mergeConsecutive (others req.messages) := by
  have hmessages :
    (apply req (claude n)).messages = mergeConsecutive (collapseSystem req.messages) := rfl
  rw [hmessages, collapseSystem_eq, collapsed]
  split
  · rfl
  · refine foldl_mergeNext_cons (fun m hm heq ↦ ?_) []
    exact role_of_mem_others hm heq.symm

variable {req n}

/-- What is merged has no system message. -/
theorem merged_role {msgs : List Message} {m : Message} (h : m ∈ mergeConsecutive (others msgs)) :
    m.role ≠ "system" := by
  obtain ⟨x, hx, heq⟩ := (merging_mergeConsecutive (others msgs)).roles m h
  exact heq ▸ role_of_mem_others hx

theorem systems_messages : systems (apply req (claude n)).messages = collapsed req.messages := by
  rw [messages_apply, systems, List.filter_append]
  have hcollapsed :
      (collapsed req.messages).filter (fun m ↦ m.role = "system") = collapsed req.messages :=
    List.filter_eq_self.mpr fun m hm ↦ decide_eq_true (collapsed_role hm)
  have hmerged : (mergeConsecutive (others req.messages)).filter (fun m ↦ m.role = "system") = [] :=
    systems_eq_nil fun m hm ↦ merged_role hm
  rw [hcollapsed, hmerged, List.append_nil]

theorem others_messages :
    others (apply req (claude n)).messages = mergeConsecutive (others req.messages) := by
  rw [messages_apply, others, List.filter_append]
  have hcollapsed : (collapsed req.messages).filter (fun m ↦ m.role ≠ "system") = [] :=
    List.filter_eq_nil_iff.mpr fun m hm ↦ by simp [collapsed_role hm]
  have hmerged : (mergeConsecutive (others req.messages)).filter (fun m ↦ m.role ≠ "system") =
      mergeConsecutive (others req.messages) := others_eq_self fun m hm ↦ merged_role hm
  rw [hcollapsed, hmerged, List.nil_append]

/-- Messages of a role other than that of the system are among the others. -/
theorem filter_others {role : String} (h : role ≠ "system") (msgs : List Message) :
    (others msgs).filter (fun m ↦ m.role = role) = msgs.filter fun m ↦ m.role = role := by
  rw [others, List.filter_filter]
  refine List.filter_congr fun m _ ↦ ?_
  by_cases hm : m.role = role <;> simp [hm, h]

theorem forClaude : ForClaude req.messages (apply req (claude n)).messages := by
  have hmerging := merging_mergeConsecutive (others req.messages)
  have hout : (apply req (claude n)).messages =
      collapsed req.messages ++ others (apply req (claude n)).messages := by
    rw [others_messages, messages_apply]
  constructor
  case system =>
    rw [collapsed] at hout
    split at hout
    · rename_i hnil
      exact .inl ⟨hnil, hout⟩
    · rename_i hne
      exact .inr ⟨hne, _, hout, rfl, rfl⟩
  case apart =>
    rw [messages_apply, List.isChain_append]
    refine ⟨?_, hmerging.apart, fun last hlast m hm heq ↦ ?_⟩
    · rw [collapsed]
      split
      · exact .nil
      · exact .singleton _
    · have hlead := collapsed_role (List.mem_of_mem_getLast? hlast)
      exact absurd (heq ▸ hlead) (merged_role (List.mem_of_mem_head? hm))
  case runs =>
    rw [others_messages]
    exact hmerging.runs
  case tools =>
    rw [← filter_others (by decide), ← filter_others (by decide) req.messages, others_messages,
      hmerging.tools]
  case toolCalls =>
    rw [← filter_others (by decide), ← filter_others (by decide) req.messages, others_messages,
      hmerging.toolCalls]

/-- What is for Claude stays as it is. -/
theorem messages_apply_apply :
    (apply (apply req (claude n)) (claude n)).messages = (apply req (claude n)).messages := by
  have hcollapsed : collapsed (apply req (claude n)).messages = collapsed req.messages := by
    rw [collapsed, systems_messages, collapsed]
    split
    · simp
    · rename_i hne
      rw [if_neg (List.cons_ne_nil _ _)]
      exact congrArg (fun s ↦ [(⟨"system", Content.ofText s, "", [], ""⟩ : Message)])
        String.intercalate_singleton
  rw [messages_apply, hcollapsed, others_messages,
    mergeConsecutive_of_apart (merging_mergeConsecutive (others req.messages)).apart,
    messages_apply]

theorem apply_apply : apply (apply req (claude n)) (claude n) = apply req (claude n) := by
  have hmax :
      (apply (apply req (claude n)) (claude n)).maxTokens = (apply req (claude n)).maxTokens := by
    simp only [apply]
    split
    · simp
    · rfl
  have heq : apply (apply req (claude n)) (claude n) =
      { apply req (claude n) with
        maxTokens := (apply (apply req (claude n)) (claude n)).maxTokens
        messages := (apply (apply req (claude n)) (claude n)).messages } := rfl
  rw [heq, hmax, messages_apply_apply]

end Claude

/-! ## In memory -/

/-- `cloneMessages`.  Nothing is ever written to a tool call or to the bytes of a content, which are
values here. -/
def cloneMessagesAt (mem : Memory Message) (src : Nat) : Memory Message × Nat :=
  mem.alloc (mem.read src)

/-- `collapseSystem`, which gives back the slice itself when there is nothing to collapse. -/
def collapseSystemAt (mem : Memory Message) (src : Nat) : Memory Message × Nat :=
  let msgs := mem.read src
  let (mem₁, rest) := mem.alloc (others msgs)
  if systems msgs = [] then (mem₁, src) else mem₁.alloc (collapsed msgs ++ mem₁.read rest)

/-- A round of the loop of `mergeConsecutive`: the `i`-th message, and what has been put out. -/
def mergeAt (src out : Nat) (mem : Memory Message) (i : Nat) : Memory Message :=
  match (mem.read src)[i]? with
  | none => mem
  | some m =>
    match (mem.read out).getLast? with
    | none => mem.push out m
    | some last =>
      if last.role ≠ m.role ∨ m.role = "tool" ∨
          m.role = "assistant" ∧ (m.toolCalls ≠ [] ∨ last.toolCalls ≠ []) then mem.push out m
      -- `SetText` overwrites the last message where it is.
      else mem.write out ((mem.read out).dropLast ++ [setText last m])

/-- `mergeConsecutive`, which gives back the slice itself when it is empty. -/
def mergeConsecutiveAt (mem : Memory Message) (src : Nat) : Memory Message × Nat :=
  if mem.read src = [] then (mem, src)
  else
    let (mem₁, out) := mem.alloc []
    ((List.range (mem.read src).length).foldl (mergeAt src out) mem₁, out)

/-- **`Apply`**, as far as it works on messages. -/
def applyAt (mem : Memory Message) (src : Nat) (t : Target) : Memory Message × Nat :=
  let (mem₁, msgs) := cloneMessagesAt mem src
  let (mem₂, msgs) := if t.collapseSystem then collapseSystemAt mem₁ msgs else (mem₁, msgs)
  if t.requireAlternation then mergeConsecutiveAt mem₂ msgs else (mem₂, msgs)

/-- What was in memory is as it was, and there is a slice of these messages. -/
structure Gives (mem : Memory Message) (msgs : List Message) (r : Memory Message × Nat) : Prop where
  keeps : Memory.Keeps mem.size mem r.1
  lt : r.2 < r.1.size
  read_eq : r.1.read r.2 = msgs

section InMemory

variable {mem : Memory Message} {src : Nat}

theorem gives_alloc (mem : Memory Message) (msgs : List Message) :
    Gives mem msgs (mem.alloc msgs) :=
  ⟨mem.keeps_alloc msgs, by simp, mem.read_alloc msgs⟩

theorem Gives.trans {msgs msgs' : List Message} {r r' : Memory Message × Nat} (h : Gives mem msgs r)
    (h' : Gives r.1 msgs' r') : Gives mem msgs' r' :=
  ⟨h.keeps.trans (h'.keeps.mono h.keeps.size_le), h'.lt, h'.read_eq⟩

theorem gives_cloneMessagesAt (mem : Memory Message) (src : Nat) :
    Gives mem (mem.read src) (cloneMessagesAt mem src) :=
  gives_alloc mem _

theorem gives_collapseSystemAt (h : src < mem.size) :
    Gives mem (collapseSystem (mem.read src)) (collapseSystemAt mem src) := by
  have hrest := gives_alloc mem (others (mem.read src))
  rw [collapseSystem_eq]
  simp only [collapseSystemAt]
  split
  · rename_i hnil
    refine ⟨hrest.keeps, Nat.lt_of_lt_of_le h hrest.keeps.size_le, ?_⟩
    have hsystems : ∀ m ∈ mem.read src, m.role ≠ "system" :=
      fun m hm ↦ by simpa using List.filter_eq_nil_iff.mp hnil m hm
    rw [hrest.keeps.read_eq src h, collapsed, if_pos hnil, others_eq_self hsystems, List.nil_append]
  · rw [hrest.read_eq]
    exact hrest.trans (gives_alloc _ _)

/-- A round of the loop. -/
theorem mergeAt_eq {out i : Nat} {m : Message} (hi : (mem.read src)[i]? = some m) :
    mergeAt src out mem i = mem.write out (mergeNext (mem.read out) m) := by
  rw [mergeAt, hi, mergeNext]
  dsimp only
  rcases (mem.read out).getLast? with _ | last
  · rfl
  · dsimp only
    split <;> rfl

/-- **The loop**: the messages so far are merged, and nothing else is written to. -/
theorem gives_foldl_mergeAt {out : Nat} (hsrc : src < out) (hout : out < mem.size)
    (hempty : mem.read out = []) {k : Nat} (hk : k ≤ (mem.read src).length) :
    let mem' := (List.range k).foldl (mergeAt src out) mem
    Memory.Keeps out mem mem' ∧ mem'.read out = mergeConsecutive ((mem.read src).take k) := by
  induction k with
  | zero => exact ⟨.refl _ _, hempty⟩
  | succ k ih =>
    obtain ⟨hkeeps, hread⟩ := ih (Nat.le_of_succ_le hk)
    have hi := hkeeps.read_eq src hsrc
    have hget : (mem.read src)[k]? = some ((mem.read src)[k]) := List.getElem?_eq_getElem hk
    have hnext : mergeConsecutive ((mem.read src).take (k + 1)) =
        mergeNext (mergeConsecutive ((mem.read src).take k)) ((mem.read src)[k]) := by
      rw [mergeConsecutive, List.take_add_one, hget, Option.toList_some, List.foldl_append]
      rfl
    have hm := (congrArg (fun xs ↦ xs[k]?) hi).trans hget
    rw [List.range_succ, List.foldl_append, List.foldl_cons, List.foldl_nil,
      mergeAt_eq hm, hread, hnext]
    refine ⟨hkeeps.trans (Memory.keeps_write (Nat.le_refl _) _ _), ?_⟩
    exact Memory.read_write (Nat.lt_of_lt_of_le hout hkeeps.size_le) _

theorem gives_mergeConsecutiveAt (h : src < mem.size) :
    Gives mem (mergeConsecutive (mem.read src)) (mergeConsecutiveAt mem src) := by
  rw [mergeConsecutiveAt]
  split
  · rename_i hnil
    refine ⟨.refl _ _, h, ?_⟩
    rw [hnil]
    rfl
  · have hout := gives_alloc mem []
    have hread := hout.keeps.read_eq src h
    obtain ⟨hkeeps, heq⟩ :=
      gives_foldl_mergeAt h hout.lt hout.read_eq (Nat.le_of_eq (by rw [hread]))
    rw [hread, List.take_length] at heq
    exact ⟨hout.keeps.trans hkeeps, Nat.lt_of_lt_of_le hout.lt hkeeps.size_le, heq⟩

/-- **`Apply` writes to nothing that was there**, and comes to the messages that it should. -/
theorem gives_applyAt {F : Type} {req : Adapter.UnifiedRequest F}
    (hmessages : mem.read src = req.messages) (t : Target) :
    Gives mem (apply req t).messages (applyAt mem src t) := by
  have hclone := gives_cloneMessagesAt mem src
  have hcollapse :
      Gives mem (if t.collapseSystem then collapseSystem req.messages else req.messages)
      (if t.collapseSystem then collapseSystemAt (cloneMessagesAt mem src).1
        (cloneMessagesAt mem src).2 else cloneMessagesAt mem src) := by
    split
    · have hgives := gives_collapseSystemAt hclone.lt
      rw [hclone.read_eq, hmessages] at hgives
      exact hclone.trans hgives
    · exact hmessages ▸ hclone
  rw [applyAt, apply]
  dsimp only
  split
  · have hgives := gives_mergeConsecutiveAt hcollapse.lt
    rw [hcollapse.read_eq] at hgives
    exact hcollapse.trans hgives
  · exact hcollapse

end InMemory

end Normalize

open Normalize in
/-- **Requests for Claude.**  `Apply` gives messages as Claude wants them, from which nothing is
lost; it changes nothing when it is applied again; and it leaves the messages of the request, and
all others in memory, as they are. -/
theorem apply_claude {F : Type} (req : Adapter.UnifiedRequest F) (n : Int) :
    ForClaude req.messages (apply req (claude n)).messages ∧
      apply (apply req (claude n)) (claude n) = apply req (claude n) ∧
      ∀ (mem : Memory Message) (src : Nat), src < mem.size → mem.read src = req.messages →
        Gives mem (apply req (claude n)).messages (applyAt mem src (claude n)) ∧
          (applyAt mem src (claude n)).1.read src = req.messages := by
  refine ⟨forClaude, apply_apply, fun mem src hsrc hmessages ↦ ?_⟩
  have hgives := gives_applyAt hmessages (claude n)
  exact ⟨hgives, (hgives.keeps.read_eq src hsrc).trans hmessages⟩

open Normalize in
/-- Two system messages with a user's between them: the second message of the user follows the
first. -/
theorem apply_claude_collapsed :
    let msgs : List Message :=
      [⟨"system", .ofText "a", "", [], ""⟩, ⟨"user", .ofText "b", "", [], ""⟩,
      ⟨"system", .ofText "c", "", [], ""⟩, ⟨"user", .ofText "d", "", [], ""⟩]
    let req : Adapter.UnifiedRequest Unit := ⟨"m", msgs, false, none, none, [], .nil, []⟩
    (apply req (claude 0)).messages =
        [⟨"system", .ofText "a\n\nc", "", [], ""⟩, ⟨"user", .ofText "b\n\nd", "", [], ""⟩] ∧
      (applyAt ⟨[msgs]⟩ 0 (claude 0)).1.read 0 = msgs := by
  intro msgs req
  obtain ⟨-, -, hmem⟩ := apply_claude req 0
  exact ⟨rfl, (hmem ⟨[msgs]⟩ 0 (Nat.lt_succ_self 0) rfl).2⟩

end Voxeltoad
