import Voxeltoad.Lib.Redaction

/-!
# The detectors for personal data

The detectors of `internal/plugin/pii`, and `scanContent`: each detector that is enabled, in the
order in which they are named, tests the text as it came and rewrites what the ones before it have
made of it.

The expressions are the ones of the source.  They have classes of ASCII characters only, so it does
not matter that Go matches runes.  A detector's marker is in brackets, which are in no class: that
is why the order of the detectors does not matter for what is found (`Plugin.scanContent_redacts`).
-/

set_option autoImplicit false

namespace Voxeltoad

namespace Pii

open Regex

/-! ## The expressions -/

def digit (c : Char) : Bool := '0' ≤ c && c ≤ '9'

def letter (c : Char) : Bool := ('a' ≤ c && c ≤ 'z') || ('A' ≤ c && c ≤ 'Z')

/-- A class that is written out. -/
def oneOf (cs : List Char) (c : Char) : Bool := cs.contains c

/-- A sequence of expressions. -/
def inOrder : List (Regex Char) → Regex Char
  | [] => eps
  | r :: rs => cat r (inOrder rs)

/-- The characters of a literal. -/
def literal (cs : List Char) : Regex Char := inOrder (cs.map fun c ↦ sym (oneOf [c]))

/-- `[a-zA-Z0-9._%+\-]+@[a-zA-Z0-9.\-]+\.[a-zA-Z]{2,}` -/
def email : Regex Char :=
  inOrder [atLeast (fun c ↦ letter c || digit c || oneOf ['.', '_', '%', '+', '-'] c) 1,
    literal ['@'],
    atLeast (fun c ↦ letter c || digit c || oneOf ['.', '-'] c) 1,
    literal ['.'],
    atLeast letter 2]

/-- `1[3-9]\d[\- ]?\d{4}[\- ]?\d{4}` -/
def phone : Regex Char :=
  inOrder [literal ['1'], sym (fun c ↦ '3' ≤ c && c ≤ '9'), sym digit,
    (sym (oneOf ['-', ' '])).opt, (sym digit).times 4,
    (sym (oneOf ['-', ' '])).opt, (sym digit).times 4]

/-- `\d{6}(19|20)\d{2}(0[1-9]|1[0-2])(0[1-9]|[12]\d|3[01])\d{3}[\dXx]` -/
def idCard : Regex Char :=
  inOrder [(sym digit).times 6,
    alt (literal ['1', '9']) (literal ['2', '0']),
    (sym digit).times 2,
    alt (inOrder [literal ['0'], sym (fun c ↦ '1' ≤ c && c ≤ '9')])
      (inOrder [literal ['1'], sym (fun c ↦ '0' ≤ c && c ≤ '2')]),
    alt (inOrder [literal ['0'], sym (fun c ↦ '1' ≤ c && c ≤ '9')])
      (alt (inOrder [sym (oneOf ['1', '2']), sym digit])
        (inOrder [literal ['3'], sym (oneOf ['0', '1'])])),
    (sym digit).times 3,
    sym (fun c ↦ digit c || oneOf ['X', 'x'] c)]

/-- `\d[ \-\d]{11,17}\d` -/
def creditCard : Regex Char :=
  inOrder [sym digit,
    (sym fun c ↦ digit c || oneOf [' ', '-'] c).times 11,
    (sym fun c ↦ digit c || oneOf [' ', '-'] c).upTo 6,
    sym digit]

/-! ## The detectors -/

/-- `piiDetector`. -/
structure Detector where
  name : String
  re : Regex Char
  replace : String

/-- `detectors`. -/
def detectors : List Detector :=
  [⟨"email", email, "[EMAIL]"⟩, ⟨"phone", phone, "[PHONE]"⟩, ⟨"id_card", idCard, "[ID_CARD]"⟩,
    ⟨"credit_card", creditCard, "[CREDIT_CARD]"⟩]

/-- `activeDetectors`, by name. -/
def activeDetector (name : String) : Option Detector := detectors.find? fun d ↦ d.name = name

namespace Detector

variable (d : Detector)

/-- `MatchString`. -/
def matchString (text : String) : Bool := d.re.found text.toList

/-- `ReplaceAllString`. -/
def replaceAllString (text : String) : String :=
  String.ofList (d.re.replaceAll d.replace.toList text.toList)

def rule : Rule Char := ⟨d.re, d.replace.toList⟩

end Detector

/-- The marker is in brackets, and the expression has nothing to do with it. -/
def ignores (r : Regex Char) (marker : List Char) : Bool :=
  (r.rests []).isEmpty && r.avoids '[' && r.avoids ']' && !r.found marker.tail.dropLast &&
    marker == '[' :: (marker.tail.dropLast ++ [']'])

theorem walled_of_ignores {r : Regex Char} {marker : List Char} (h : ignores r marker = true) :
    Walled r marker := by
  simp only [ignores, Bool.and_eq_true, Bool.not_eq_true', List.isEmpty_iff, beq_iff_eq] at h
  obtain ⟨⟨⟨⟨hnil, hopen⟩, hclose⟩, hbody⟩, hmarker⟩ := h
  refine ⟨fun hmatch ↦ ?_, '[', marker.tail.dropLast, ']', hmarker, hopen, hclose, hbody⟩
  have hmem : [] ∈ r.rests [] := mem_rests.mpr ⟨[], hmatch, rfl⟩
  rw [hnil] at hmem
  cases hmem

/-- **No detector has anything to do with a marker.** -/
theorem detectors_ignore :
    ∀ d ∈ detectors, ∀ d' ∈ detectors, ignores d.re d'.replace.toList = true := by
  decide

theorem compatible {rules : List (Rule Char)} (h : ∀ rule ∈ rules, ∃ d ∈ detectors, d.rule = rule) :
    Compatible rules := by
  intro rule hrule rule' hrule'
  obtain ⟨d, hd, rfl⟩ := h rule hrule
  obtain ⟨d', hd', rfl⟩ := h rule' hrule'
  exact walled_of_ignores (detectors_ignore d hd d' hd')

theorem mem_of_activeDetector {name : String} {d : Detector} (h : activeDetector name = some d) :
    d ∈ detectors ∧ d.name = name :=
  ⟨List.mem_of_find?_eq_some h, by simpa using List.find?_some h⟩

theorem ne_empty_of_activeDetector {name : String} {d : Detector}
    (h : activeDetector name = some d) : name ≠ "" := by
  obtain ⟨hd, rfl⟩ := mem_of_activeDetector h
  have hnames : ∀ d ∈ detectors, d.name ≠ "" := by decide
  exact hnames d hd

/-! ## Scanning -/

/-- `Plugin`. -/
structure Plugin where
  mode : String
  patterns : List String
  enabled : Bool
  deriving DecidableEq, Repr

namespace Plugin

variable (p : Plugin)

/-- One turn of the loop of `scanContent`. -/
def scanPattern (text : String) (acc : String × String) (patName : String) : String × String :=
  match activeDetector patName with
  | none => acc
  | some d =>
    if d.matchString text then
      (if acc.1 = "" then patName else acc.1, d.replaceAllString acc.2)
    else acc

/-- **`scanContent`**: the first type that was detected, and the redacted text. -/
def scanContent (text : String) : String × String :=
  let (firstHit, redacted) := p.patterns.foldl (scanPattern text) ("", text)
  if firstHit = "" then ("", text) else (firstHit, redacted)

/-- The detectors that are enabled, in order. -/
def active : List Detector := p.patterns.filterMap activeDetector

/-- The text has something that an enabled detector looks for. -/
def detects (text : String) : Bool := p.active.any fun d ↦ d.matchString text

variable {p}

theorem mem_detectors {names : List String} {d : Detector}
    (h : d ∈ names.filterMap activeDetector) : d ∈ detectors := by
  obtain ⟨name, -, hname⟩ := List.mem_filterMap.mp h
  exact (mem_of_activeDetector hname).1

theorem compatible_active (names : List String) :
    Compatible ((names.filterMap activeDetector).map Detector.rule) := by
  refine compatible fun rule hrule ↦ ?_
  obtain ⟨d, hd, rfl⟩ := List.mem_map.mp hrule
  exact ⟨d, mem_detectors hd, rfl⟩

/-- The first of the names whose detector matches. -/
def firstMatch (text : String) (names : List String) : Option String :=
  names.find? fun name ↦ (activeDetector name).any fun d ↦ d.matchString text

theorem ne_empty_of_firstMatch {text name : String} {names : List String}
    (h : firstMatch text names = some name) : name ≠ "" := by
  rw [firstMatch] at h
  have hany := List.find?_some h
  cases hd : activeDetector name with
  | none => simp [hd] at hany
  | some d => exact ne_empty_of_activeDetector hd

/-- What the loop has done after some of the names. -/
structure Scanned (text : String) (names : List String) (acc : String × String) : Prop where
  hit : acc.1 = (firstMatch text names).getD ""
  redacts : Redacts ((names.filterMap activeDetector).map Detector.rule) text.toList acc.2.toList

/-- One turn of the loop. -/
theorem Scanned.scanPattern {text : String} {names : List String} {acc : String × String}
    (h : Scanned text names acc) (name : String) :
    Scanned text (names ++ [name]) (scanPattern text acc name) := by
  have hfirst : firstMatch text (names ++ [name]) =
      (firstMatch text names).or (firstMatch text [name]) := List.find?_append
  have hrules := compatible_active (names ++ [name])
  rw [Plugin.scanPattern]
  cases hd : activeDetector name with
  | none =>
    have hnone : firstMatch text [name] = none := by simp [firstMatch, hd]
    refine ⟨?_, ?_⟩
    · rw [hfirst, hnone, Option.or_none]
      exact h.hit
    · rw [List.filterMap_append, List.filterMap_cons_none hd, List.filterMap_nil, List.append_nil]
      exact h.redacts
  | some d =>
    rw [List.filterMap_append, List.filterMap_cons_some hd, List.filterMap_nil,
      List.map_append] at hrules
    by_cases hmatch : d.matchString text = true
    · have hsome : firstMatch text [name] = some name := by simp [firstMatch, hd, hmatch]
      simp only [hmatch, if_true]
      refine ⟨?_, ?_⟩
      · rw [hfirst, hsome]
        show (if acc.1 = "" then name else acc.1) = _
        rw [h.hit]
        cases hnames : firstMatch text names with
        | none => rfl
        | some name' => exact if_neg (ne_empty_of_firstMatch hnames)
      · rw [List.filterMap_append, List.filterMap_cons_some hd, List.filterMap_nil, List.map_append]
        show Redacts _ _ (d.replaceAllString acc.2).toList
        rw [Detector.replaceAllString, String.toList_ofList]
        exact h.redacts.replaceAll hrules
    · have hnone : firstMatch text [name] = none := by simp [firstMatch, hd, hmatch]
      simp only [hmatch]
      refine ⟨?_, ?_⟩
      · rw [hfirst, hnone, Option.or_none]
        exact h.hit
      · rw [List.filterMap_append, List.filterMap_cons_some hd, List.filterMap_nil, List.map_append]
        exact h.redacts.skip (Bool.eq_false_iff.mpr hmatch)

theorem scanned (text : String) (names done : List String) {acc : String × String}
    (h : Scanned text done acc) :
    Scanned text (done ++ names) (names.foldl (scanPattern text) acc) := by
  induction names generalizing done acc with
  | nil =>
    rw [List.append_nil]
    exact h
  | cons name names ih =>
    rw [List.append_cons]
    exact ih (done ++ [name]) (h.scanPattern name)

theorem firstMatch_eq_none_iff {text : String} :
    firstMatch text p.patterns = none ↔ p.detects text = false := by
  rw [firstMatch, detects, active, List.find?_eq_none, List.any_eq_false]
  constructor
  · intro h d hd
    obtain ⟨name, hname, hd⟩ := List.mem_filterMap.mp hd
    simpa [hd] using h name hname
  · intro h name hname hany
    cases hd : activeDetector name with
    | none => simp [hd] at hany
    | some d => exact h d (List.mem_filterMap.mpr ⟨name, hname, hd⟩) (by simpa [hd] using hany)

/-- **`scanContent` redacts**: what its rules make of the text, and the name of the first detector
that matches it. -/
theorem scanContent_redacts (p : Plugin) (text : String) :
    (p.scanContent text).1 = (firstMatch text p.patterns).getD "" ∧
      Redacts (p.active.map Detector.rule) text.toList (p.scanContent text).2.toList := by
  have hstart : Scanned text [] ("", text) := ⟨rfl, .start text.toList⟩
  have hend := scanned text p.patterns [] hstart
  rw [List.nil_append] at hend
  rw [scanContent]
  rcases hacc : p.patterns.foldl (Plugin.scanPattern text) ("", text) with ⟨firstHit, redacted⟩
  rw [hacc] at hend
  by_cases hhit : firstHit = ""
  · simp only [hhit, if_true]
    have hnone : firstMatch text p.patterns = none := by
      cases hnames : firstMatch text p.patterns with
      | none => rfl
      | some name =>
        have hname : firstHit = name := hend.hit.trans (by rw [hnames]; rfl)
        exact absurd (hname.symm.trans hhit) (ne_empty_of_firstMatch hnames)
    refine ⟨by rw [hnone]; rfl, ?_⟩
    -- Nothing was found, so nothing was replaced.
    have hsame : redacted.toList = text.toList := by
      by_contra hne
      obtain ⟨rule, hrule, hfound⟩ := (hend.redacts.ne_iff (compatible_active _)).mp hne
      obtain ⟨d, hd, rfl⟩ := List.mem_map.mp hrule
      have hnone' := List.any_eq_false.mp (firstMatch_eq_none_iff.mp hnone) d hd
      exact hnone' hfound
    have hredacts : Redacts (p.active.map Detector.rule) text.toList redacted.toList := hend.redacts
    rwa [hsame] at hredacts
  · simp only [hhit, if_false]
    exact ⟨hend.hit, hend.redacts⟩

/-- A type is reported if an enabled detector matches. -/
theorem scanContent_hit (p : Plugin) (text : String) :
    (p.scanContent text).1 ≠ "" ↔ p.detects text = true := by
  rw [(p.scanContent_redacts text).1]
  cases hnames : firstMatch text p.patterns with
  | none =>
    rw [firstMatch_eq_none_iff.mp hnames]
    simp
  | some name =>
    have hdetects : p.detects text = true := by
      by_contra hnone
      rw [firstMatch_eq_none_iff.mpr (Bool.eq_false_iff.mpr hnone)] at hnames
      cases hnames
    exact iff_of_true (ne_empty_of_firstMatch hnames) hdetects

/-- The text is changed if an enabled detector matches. -/
theorem scanContent_changed (p : Plugin) (text : String) :
    (p.scanContent text).2 ≠ text ↔ p.detects text = true := by
  have hne := (p.scanContent_redacts text).2.ne_iff (compatible_active _)
  rw [ne_eq, String.toList_inj] at hne
  rw [ne_eq, hne, detects, List.any_eq_true]
  constructor
  · rintro ⟨rule, hrule, hfound⟩
    obtain ⟨d, hd, rfl⟩ := List.mem_map.mp hrule
    exact ⟨d, hd, hfound⟩
  · rintro ⟨d, hd, hfound⟩
    exact ⟨d.rule, List.mem_map_of_mem hd, hfound⟩

/-- No enabled detector matches the redacted text. -/
theorem scanContent_clean (p : Plugin) (text : String) {d : Detector} (hd : d ∈ p.active) :
    d.matchString (p.scanContent text).2 = false :=
  (p.scanContent_redacts text).2.clean (compatible_active _) (List.mem_map_of_mem hd)

/-- There is nothing to find in no text. -/
theorem detects_empty (p : Plugin) : p.detects "" = false := by
  rw [detects, List.any_eq_false]
  intro d hd
  have hall : ∀ d ∈ detectors, ¬d.matchString "" = true := by decide
  exact hall d (mem_detectors hd)

end Plugin

end Pii

end Voxeltoad
