import Voxeltoad.Adapter.Request
import Voxeltoad.Pii.Detectors

/-!
# The plugin for personal data

`Execute` of `internal/plugin/pii`: before a request goes upstream its messages are scanned.  In
`redact` mode the text of a message in which something was found is replaced by the redacted text;
in the other mode the request is stopped at the first such message.

The scan does not miss anything, whatever the order of the detectors (`scan_complete`).  But what is
scanned is the flat text of a message, and `SetText` puts the redacted text in the place of its
whole content: the images and other parts of the message go with it (`image_lost`), and
`redaction_frame_iff` says that this is all that can go wrong.
-/

set_option autoImplicit false

namespace Voxeltoad

/-- `SetText`. -/
def Content.setText (_ : Content) (s : String) : Content := .ofText s

/-- The parts of a multipart content that are not texts. -/
def Content.otherParts (c : Content) : List JsonValue :=
  match c.raw with
  | some (.arr parts) =>
    parts.filter fun v ↦ (ContentPart.read ⟨"", ""⟩ v).map ContentPart.type ≠ some "text"
  | _ => []

namespace Pii

variable {F : Type}

/-! ## The plugin -/

/-- `Config`. -/
structure Config where
  enabled : Bool := false
  mode : String := ""
  patterns : List String := []
  deriving DecidableEq, Repr

/-- `NewPlugin`. -/
def newPlugin (cfg : Config) : Plugin where
  mode := if cfg.mode = "" then "block" else cfg.mode
  patterns := if cfg.patterns = [] then ["email", "phone", "id_card", "credit_card"]
    else cfg.patterns
  enabled := cfg.enabled

/-- `Phase`. -/
inductive Phase where
  | pre
  | post
  deriving DecidableEq, Repr

/-- What the plugin reads and writes of a `Context`. -/
structure Context (F : Type) where
  request : Option (Adapter.UnifiedRequest F)
  stop : Bool
  blockedBy : String

namespace Plugin

variable (p : Plugin)

/-- The loop of `Execute` over the messages: what they become, whether something was found, and
whether the request was stopped at one of them. -/
def scanMessages : List Message → List Message × Bool × Bool
  | [] => ([], false, false)
  | msg :: msgs =>
    if msg.content.text = "" then
      let (msgs', detected, stopped) := scanMessages msgs
      (msg :: msgs', detected, stopped)
    else
      let (d, redacted) := p.scanContent msg.content.text
      if d = "" then
        let (msgs', detected, stopped) := scanMessages msgs
        (msg :: msgs', detected, stopped)
      else if p.mode = "redact" then
        let (msgs', _, stopped) := scanMessages msgs
        ({ msg with content := msg.content.setText redacted } :: msgs', true, stopped)
      else (msg :: msgs, true, true)

/-- **`Execute`.** -/
def execute (c : Context F) (phase : Phase) : Context F :=
  match c.request with
  | none => c
  | some req =>
    if p.enabled = false ∨ phase ≠ .pre then c
    else
      let (msgs, detected, stopped) := p.scanMessages req.messages
      { request := some { req with messages := msgs }
        stop := c.stop || stopped
        blockedBy := if detected then "pii" else c.blockedBy }

/-! ## What it does -/

/-- What becomes of a message in `redact` mode. -/
def redacted (m : Message) : Message :=
  if p.detects m.content.text then
    { m with content := m.content.setText (p.scanContent m.content.text).2 }
  else m

variable {p}

/-- In `redact` mode, every message is looked at. -/
theorem scanMessages_redact (hmode : p.mode = "redact") (msgs : List Message) :
    p.scanMessages msgs =
      (msgs.map p.redacted, msgs.any fun m ↦ p.detects m.content.text, false) := by
  induction msgs with
  | nil => rfl
  | cons m msgs ih =>
    rw [scanMessages, List.map_cons, List.any_cons, redacted, ih]
    by_cases hempty : m.content.text = ""
    · simp [hempty, detects_empty]
    · have hhit := p.scanContent_hit m.content.text
      by_cases hdetects : p.detects m.content.text = true
      · simp [hempty, hhit.mpr hdetects, hmode, hdetects]
      · simp [hempty, not_not.mp (mt hhit.mp hdetects), hdetects]

/-- In the other mode, up to the first one in which something is found. -/
theorem scanMessages_block (hmode : p.mode ≠ "redact") (msgs : List Message) :
    p.scanMessages msgs = (msgs, msgs.any fun m ↦ p.detects m.content.text,
      msgs.any fun m ↦ p.detects m.content.text) := by
  induction msgs with
  | nil => rfl
  | cons m msgs ih =>
    rw [scanMessages, List.any_cons, ih]
    by_cases hempty : m.content.text = ""
    · simp [hempty, detects_empty]
    · have hhit := p.scanContent_hit m.content.text
      by_cases hdetects : p.detects m.content.text = true
      · simp [hempty, hhit.mpr hdetects, hmode, hdetects]
      · simp [hempty, not_not.mp (mt hhit.mp hdetects), hdetects]

/-- **`Execute` in `redact` mode.** -/
theorem execute_redact {c : Context F} {req : Adapter.UnifiedRequest F}
    (henabled : p.enabled = true) (hmode : p.mode = "redact") (hreq : c.request = some req) :
    (p.execute c .pre).request = some { req with messages := req.messages.map p.redacted } := by
  simp [execute, hreq, henabled, scanMessages_redact hmode]

/-- **`Execute` in the other mode.** -/
theorem execute_block {c : Context F} {req : Adapter.UnifiedRequest F} (henabled : p.enabled = true)
    (hmode : p.mode ≠ "redact") (hreq : c.request = some req) :
    (p.execute c .pre).request = some req ∧
      (p.execute c .pre).stop = (c.stop || req.messages.any fun m ↦ p.detects m.content.text) := by
  simp [execute, hreq, henabled, scanMessages_block hmode]

end Plugin

/-! ## The scan is complete -/

/-- **The scan is complete.**  Whatever the enabled detectors and their order, none of them matches
what the scan makes of a text; a type is reported, and the text is changed, if one of them matches
it, and the type is the first of those; and a request is stopped if one of them matches the text of
a message. -/
theorem scan_complete (p : Plugin) :
    (∀ text, (∀ d ∈ p.active, d.matchString (p.scanContent text).2 = false) ∧
      ((p.scanContent text).1 ≠ "" ↔ ∃ d ∈ p.active, d.matchString text = true) ∧
      ((p.scanContent text).2 ≠ text ↔ ∃ d ∈ p.active, d.matchString text = true) ∧
      (p.scanContent text).1 = (Plugin.firstMatch text p.patterns).getD "") ∧
    ∀ (c : Context F) (req : Adapter.UnifiedRequest F), p.enabled = true → p.mode ≠ "redact" →
      c.request = some req →
      ((p.execute c .pre).stop = true ↔
        c.stop = true ∨ ∃ m ∈ req.messages, ∃ d ∈ p.active,
        d.matchString m.content.text = true) := by
  have hdetects : ∀ text, p.detects text = true ↔ ∃ d ∈ p.active, d.matchString text = true :=
    fun text ↦ List.any_eq_true
  refine ⟨fun text ↦ ⟨fun d hd ↦ p.scanContent_clean text hd, ?_, ?_,
    (p.scanContent_redacts text).1⟩, ?_⟩
  · exact (p.scanContent_hit text).trans (hdetects text)
  · exact (p.scanContent_changed text).trans (hdetects text)
  · intro c req henabled hmode hreq
    rw [(Plugin.execute_block henabled hmode hreq).2, Bool.or_eq_true, List.any_eq_true]
    simp only [hdetects]

section Samples

/-- A message of a user. -/
def userMessage (content : Content) : Message := ⟨"user", content, "", [], ""⟩

/-- A request with these messages. -/
def chat (msgs : List Message) : Context Unit :=
  ⟨some ⟨"m", msgs, false, none, none, [], .nil, []⟩, false, ""⟩

/-- A phone number is a part of a card number, and the card is looked for first. -/
theorem scan_complete_sample :
    (newPlugin ⟨true, "", ["credit_card", "unknown", "phone"]⟩).scanContent "4000 138 0013 8000" =
        ("credit_card", "[CREDIT_CARD]") ∧
      ((newPlugin ⟨true, "", ["credit_card", "unknown", "phone"]⟩).execute
        (chat [userMessage (.ofText "4000 138 0013 8000")]) .pre).stop = true := by
  refine ⟨by decide, ?_⟩
  refine ((scan_complete (newPlugin ⟨true, "", ["credit_card", "unknown", "phone"]⟩)).2
    (chat [userMessage (.ofText "4000 138 0013 8000")]) _ rfl (by decide) rfl).mpr (.inr ?_)
  exact ⟨_, List.mem_singleton_self _, ⟨"credit_card", creditCard, "[CREDIT_CARD]"⟩,
    List.mem_cons_self .., by decide⟩

end Samples

/-! ## What redaction leaves alone -/

/-- A message is as it was, but for its text, in which what the detectors found is replaced. -/
structure OnlyPii (p : Plugin) (m m' : Message) : Prop where
  role_eq : m'.role = m.role
  name_eq : m'.name = m.name
  toolCalls_eq : m'.toolCalls = m.toolCalls
  toolCallID_eq : m'.toolCallID = m.toolCallID
  otherParts_eq : m'.content.otherParts = m.content.otherParts
  same : p.detects m.content.text = false → m' = m
  redacts : p.detects m.content.text = true →
    Regex.Redacts (p.active.map Detector.rule) m.content.text.toList m'.content.text.toList

theorem onlyPii_redacted_iff {p : Plugin} {m : Message} :
    OnlyPii p m (p.redacted m) ↔ (p.detects m.content.text = true → m.content.otherParts = []) := by
  rw [Plugin.redacted]
  by_cases hdetects : p.detects m.content.text = true
  · rw [if_pos hdetects]
    constructor
    · intro h _
      exact h.otherParts_eq.symm
    · intro h
      refine ⟨rfl, rfl, rfl, rfl, (h hdetects).symm, ?_, fun _ ↦ (p.scanContent_redacts _).2⟩
      intro hnone
      rw [hdetects] at hnone
      cases hnone
  · rw [if_neg hdetects]
    refine iff_of_true ⟨rfl, rfl, rfl, rfl, rfl, fun _ ↦ rfl, ?_⟩ fun h ↦ absurd h hdetects
    intro h
    exact absurd h hdetects

/-- **When redaction changes nothing but personal data**: where the messages in which something was
found have no parts but texts. -/
theorem redaction_frame_iff {p : Plugin} {c : Context F} {req : Adapter.UnifiedRequest F}
    (henabled : p.enabled = true) (hmode : p.mode = "redact") (hreq : c.request = some req) :
    (∃ msgs, (p.execute c .pre).request = some { req with messages := msgs } ∧
        List.Forall₂ (OnlyPii p) req.messages msgs) ↔
      ∀ m ∈ req.messages, p.detects m.content.text = true → m.content.otherParts = [] := by
  have hmsgs : (∃ msgs, (p.execute c .pre).request = some { req with messages := msgs } ∧
      List.Forall₂ (OnlyPii p) req.messages msgs) ↔
      List.Forall₂ (OnlyPii p) req.messages (req.messages.map p.redacted) := by
    rw [Plugin.execute_redact henabled hmode hreq]
    constructor
    · rintro ⟨msgs, heq, h⟩
      obtain rfl : req.messages.map p.redacted = msgs :=
        congrArg Adapter.UnifiedRequest.messages (Option.some.inj heq)
      exact h
    · exact fun h ↦ ⟨_, rfl, h⟩
  rw [hmsgs, List.forall₂_map_right_iff, List.forall₂_same]
  exact forall₂_congr fun m _ ↦ onlyPii_redacted_iff

section Samples

/-- A text with a phone number, and an image. -/
def phoneAndImage : Content :=
  ⟨some (.arr [.obj [("type", .str "text"), ("text", .str "call 13800138000")],
    .obj [("type", .str "image_url"),
      ("image_url", .obj [("url", .str "https://example.com/a.png")])]])⟩

/-- The image goes with the phone number. -/
theorem image_lost :
    let p := newPlugin ⟨true, "redact", ["phone"]⟩
    ¬∃ msgs, (p.execute (chat [userMessage phoneAndImage]) .pre).request =
        some ⟨"m", msgs, false, none, none, [], .nil, []⟩ ∧
      List.Forall₂ (OnlyPii p) [userMessage phoneAndImage] msgs := by
  rintro p ⟨msgs, hrequest, h⟩
  rw [Plugin.execute_redact rfl rfl rfl] at hrequest
  obtain rfl := congrArg Adapter.UnifiedRequest.messages (Option.some.inj hrequest)
  obtain ⟨hfirst, -⟩ := List.forall₂_cons.mp h
  have hlost := onlyPii_redacted_iff.mp hfirst (by decide)
  exact absurd (congrArg List.length hlost) (by decide)

/-- A text is redacted, and an image of another message is left. -/
theorem redaction_frame_iff_sample :
    let p := newPlugin ⟨true, "redact", []⟩
    let image : Content := ⟨some (.arr [.obj [("type", .str "image_url")]])⟩
    ∃ msgs,
    (p.execute (chat [userMessage image, userMessage (.ofText "call 13800138000")]) .pre).request =
        some ⟨"m", msgs, false, none, none, [], .nil, []⟩ ∧
      List.Forall₂ (OnlyPii p)
      [userMessage image, userMessage (.ofText "call 13800138000")] msgs := by
  intro p image
  exact (redaction_frame_iff
    (c := chat [userMessage image, userMessage (.ofText "call 13800138000")])
    (p := p) rfl rfl rfl).mpr (by decide)

end Samples

end Pii

end Voxeltoad
