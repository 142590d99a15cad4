import Voxeltoad.Lib.Regex

/-!
# Redaction

A text is rewritten by one expression after the other: every match of a rule's expression is
replaced by its marker.  The next rule sees the markers of the ones before, and no longer sees what
they replaced.

What becomes of the text is kept as a list of pieces, symbols that were kept and words that were cut
out.  One replacement cuts some of what was kept (`Regex.exists_refines`), as long as its expression
leaves the markers alone that are there already (`Regex.Walled`).

`Regex.Redacts` says what rules come to together, in whatever order they were applied.  From it
follows that none of them matches any more (`Regex.Redacts.clean`), and that the text has changed
exactly when one of them matched at the beginning (`Regex.Redacts.ne_iff`).
-/

set_option autoImplicit false

namespace Regex

variable {α : Type}

/-! ## Markers -/

/-- An expression, and what its matches are replaced by. -/
structure Rule (α : Type) where
  re : Regex α
  marker : List α

/-- The expression has no match in the marker, none that reaches into it, and no empty one. -/
def Walled (r : Regex α) (marker : List α) : Prop :=
  ¬r.Matches [] ∧ ∃ c body d, marker = c :: (body ++ [d]) ∧ r.avoids c = true ∧ r.avoids d = true ∧
    r.found body = false

section Walled

variable {r : Regex α} {marker : List α}

theorem Walled.replaceAll (h : Walled r marker) (marker' t : List α) :
    r.replaceAll marker' (marker ++ t) = marker ++ r.replaceAll marker' t := by
  obtain ⟨hne, c, body, d, rfl, hc, hd, hbody⟩ := h
  have hlast : r.replaceAll marker' (body ++ d :: t) = body ++ d :: r.replaceAll marker' t := by
    rw [replaceAll_wall hne hd, replaceAll_of_not_found hbody]
  have hfirst : r.replaceAll marker' (c :: (body ++ d :: t)) =
      c :: r.replaceAll marker' (body ++ d :: t) := replaceAll_wall hne hc [] _
  rw [hlast] at hfirst
  simpa using hfirst

theorem Walled.found (h : Walled r marker) (t : List α) : r.found (marker ++ t) = r.found t := by
  obtain ⟨hne, c, body, d, rfl, hc, hd, hbody⟩ := h
  have hnil : r.found [] = false := by
    rw [Bool.eq_false_iff]
    intro hfound
    obtain ⟨u, w, v, h, hw⟩ := found_iff.mp hfound
    rw [List.append_eq_nil_iff, List.append_eq_nil_iff] at h
    exact hne (h.1.2 ▸ hw)
  have hfirst := found_wall hne hc [] (body ++ d :: t)
  rw [found_wall hne hd, hbody, hnil, Bool.false_or, Bool.false_or] at hfirst
  simpa using hfirst

end Walled

/-- A piece of a text. -/
inductive Piece (α : Type) where
  | kept (a : α)
  | cut (rule : Rule α) (w : List α)

namespace Piece

/-- What a piece was. -/
def source : Piece α → List α
  | kept a => [a]
  | cut _ w => w

/-- What it has become. -/
def shown : Piece α → List α
  | kept a => [a]
  | cut rule _ => rule.marker

end Piece

/-- What the pieces were. -/
def source (ps : List (Piece α)) : List α := ps.flatMap Piece.source

/-- What they have become. -/
def shown (ps : List (Piece α)) : List α := ps.flatMap Piece.shown

@[simp] theorem source_kept (w : List α) : source (w.map Piece.kept) = w := by
  induction w with
  | nil => rfl
  | cons a w ih => simpa [source, Piece.source] using ih

@[simp] theorem shown_kept (w : List α) : shown (w.map Piece.kept) = w := by
  induction w with
  | nil => rfl
  | cons a w ih => simpa [shown, Piece.shown] using ih

@[simp] theorem source_append (ps qs : List (Piece α)) :
    source (ps ++ qs) = source ps ++ source qs :=
  List.flatMap_append ..

@[simp] theorem shown_append (ps qs : List (Piece α)) : shown (ps ++ qs) = shown ps ++ shown qs :=
  List.flatMap_append ..

/-- Nothing that was kept in one piece matches. -/
def Clean (r : Regex α) (ps : List (Piece α)) : Prop :=
  ∀ pre w post, ps = pre ++ (w.map Piece.kept ++ post) → ¬r.Matches w

theorem Clean.nil {r : Regex α} (hne : ¬r.Matches []) : Clean r [] := by
  intro pre w post h
  have hw : w.map Piece.kept = [] :=
    (List.append_eq_nil_iff.mp (List.append_eq_nil_iff.mp h.symm).2).1
  rw [List.map_eq_nil_iff.mp hw]
  exact hne

/-- What matches in a longer text begins at its first piece. -/
theorem Clean.cons {r : Regex α} {p : Piece α} {ps : List (Piece α)} (h : Clean r ps)
    (hstart : ∀ w post, p :: ps = w.map Piece.kept ++ post → ¬r.Matches w) : Clean r (p :: ps) := by
  intro pre w post hps
  cases pre with
  | nil => exact hstart w post hps
  | cons q pre =>
    obtain ⟨-, hps⟩ := List.cons.inj hps
    exact h pre w post hps

theorem Clean.cons_cut {r : Regex α} (hne : ¬r.Matches []) {ps : List (Piece α)} (h : Clean r ps)
    (rule : Rule α) (w : List α) : Clean r (.cut rule w :: ps) := by
  refine h.cons fun w' post hps ↦ ?_
  cases w' with
  | nil => exact hne
  | cons a w' => cases hps

/-- What was cut out, every one of the expressions leaves alone. -/
def Standing (r : Regex α) (ps : List (Piece α)) : Prop :=
  ∀ rule w, Piece.cut rule w ∈ ps → Walled r rule.marker

theorem Standing.tail {r : Regex α} {p : Piece α} {ps : List (Piece α)} (h : Standing r (p :: ps)) :
    Standing r ps := fun rule w hmem ↦ h rule w (List.mem_cons_of_mem _ hmem)

/-- Some of what was kept has been cut out. -/
inductive Refines (rule : Rule α) : List (Piece α) → List (Piece α) → Prop
  | nil : Refines rule [] []
  | same {ps qs : List (Piece α)} (p : Piece α) (h : Refines rule ps qs) :
    Refines rule (p :: ps) (p :: qs)
  | cut {ps qs : List (Piece α)} {w : List α} (hw : rule.re.Matches w) (h : Refines rule ps qs) :
    Refines rule (w.map Piece.kept ++ ps) (.cut rule w :: qs)

namespace Refines

variable {rule : Rule α} {ps qs : List (Piece α)}

theorem source_eq (h : Refines rule ps qs) : source qs = source ps := by
  induction h with
  | nil => rfl
  | same p _ ih => exact congrArg (p.source ++ ·) ih
  | cut hw _ ih =>
    rw [source_append, source_kept, ← ih]
    rfl

/-- Cuts stay, and the new ones are matches. -/
theorem mem_cut (h : Refines rule ps qs) {rule' : Rule α} {w : List α}
    (hmem : .cut rule' w ∈ qs) : .cut rule' w ∈ ps ∨ rule' = rule ∧ rule.re.Matches w := by
  induction h with
  | nil => exact .inl hmem
  | same p _ ih =>
    rcases List.mem_cons.mp hmem with rfl | hmem
    · exact .inl (List.mem_cons_self ..)
    · exact (ih hmem).imp_left (List.mem_cons_of_mem _)
  | cut hw _ ih =>
    rcases List.mem_cons.mp hmem with heq | hmem
    · cases heq
      exact .inr ⟨rfl, hw⟩
    · exact (ih hmem).imp_left (List.mem_append_right _)

/-- What is kept at the start was kept at the start. -/
theorem run (h : Refines rule ps qs) {w : List α} {post : List (Piece α)}
    (hqs : qs = w.map Piece.kept ++ post) : ∃ post', ps = w.map Piece.kept ++ post' := by
  induction w generalizing ps qs with
  | nil => exact ⟨ps, rfl⟩
  | cons a w ih =>
    cases h with
    | nil => cases hqs
    | same p h =>
      obtain ⟨rfl, rfl⟩ := List.cons.inj hqs
      obtain ⟨post', rfl⟩ := ih h rfl
      exact ⟨post', rfl⟩
    | cut hw h => cases hqs

/-- What is kept was kept. -/
theorem clean {r : Regex α} (h : Refines rule ps qs) (hps : Clean r ps) : Clean r qs := by
  induction h with
  | nil => exact hps
  | same p h ih =>
    refine (ih fun pre w post hps' ↦ hps (p :: pre) w post ?_).cons fun w post hqs ↦ ?_
    · rw [hps']
      rfl
    · obtain ⟨post', hpost'⟩ := (same p h).run hqs
      exact hps [] w post' hpost'
  | cut hw h ih =>
    rename_i ps qs cutOut
    refine (ih fun pre w post hps' ↦ hps (cutOut.map Piece.kept ++ pre) w post ?_).cons
      fun w post hqs ↦ ?_
    · rw [hps', List.append_assoc]
    · obtain ⟨post', hpost'⟩ := (cut hw h).run hqs
      exact hps [] w post' hpost'

end Refines

/-- A match at the start of what is shown is in what was kept at the start. -/
theorem kept_of_match {r : Regex α} {ps : List (Piece α)} (hps : Standing r ps) {w rest : List α}
    (hsub : ∀ c, r.avoids c = true → c ∉ w) (h : w ++ rest = shown ps) :
    ∃ ps', ps = w.map Piece.kept ++ ps' ∧ shown ps' = rest := by
  induction w generalizing ps with
  | nil => exact ⟨ps, rfl, h.symm⟩
  | cons a w ih =>
    cases ps with
    | nil => cases h
    | cons p ps =>
      cases p with
      | kept b =>
        obtain ⟨rfl, htail⟩ := List.cons.inj h
        obtain ⟨ps', rfl, hrest⟩ := ih hps.tail
          (fun c hc hmem ↦ hsub c hc (List.mem_cons_of_mem _ hmem)) htail
        exact ⟨ps', rfl, hrest⟩
      | cut rule w' =>
        obtain ⟨-, c, body, d, hmarker, hc, -⟩ := hps rule w' (List.mem_cons_self ..)
        have hhead : a :: (w ++ rest) = c :: (body ++ [d] ++ shown ps) := by
          rw [← List.cons_append, h, ← List.cons_append, ← hmarker]
          rfl
        obtain ⟨rfl, -⟩ := List.cons.inj hhead
        exact absurd (List.mem_cons_self ..) (hsub a hc)

/-- **One replacement.**  Everything that it replaces had been kept, and nothing that still is
matches. -/
theorem exists_refines (rule : Rule α) (hne : ¬rule.re.Matches []) {ps : List (Piece α)}
    (hps : Standing rule.re ps) :
    ∃ qs, Refines rule ps qs ∧ shown qs = rule.re.replaceAll rule.marker (shown ps) ∧
      Clean rule.re qs := by
  induction hlen : ps.length using Nat.strong_induction_on generalizing ps with
  | _ n ih =>
    subst hlen
    cases ps with
    | nil =>
      exact ⟨[], .nil, rfl, .nil hne⟩
    | cons p ps =>
      cases p with
      | cut rule' w' =>
        obtain ⟨qs, href, hshown, hclean⟩ := ih ps.length (by simp) hps.tail rfl
        refine ⟨.cut rule' w' :: qs, .same _ href, ?_, hclean.cons_cut hne rule' w'⟩
        show rule'.marker ++ shown qs = rule.re.replaceAll rule.marker (rule'.marker ++ shown ps)
        rw [(hps rule' w' (List.mem_cons_self ..)).replaceAll, hshown]
      | kept a =>
        cases hhead : (rule.re.rests (a :: shown ps)).head? with
        | none =>
          obtain ⟨qs, href, hshown, hclean⟩ := ih ps.length (by simp) hps.tail rfl
          refine ⟨.kept a :: qs, .same _ href, ?_, hclean.cons fun w post h hw ↦ ?_⟩
          · show a :: shown qs = rule.re.replaceAll rule.marker (a :: shown ps)
            rw [replaceAll_of_none hhead, hshown]
          · -- A match there would have been found.
            obtain ⟨post', hpost'⟩ := (Refines.same (.kept a) href).run h
            have hstart : w ++ shown post' = a :: shown ps := by
              have hshown := congrArg shown hpost'
              rw [shown_append, shown_kept] at hshown
              exact hshown.symm
            have hmem := mem_rests.mpr ⟨w, hw, hstart⟩
            rw [List.head?_eq_none_iff.mp hhead] at hmem
            cases hmem
        | some rest =>
          obtain ⟨w, hw, hrest⟩ := mem_rests.mp (List.mem_of_head? hhead)
          have hw' : w ≠ [] := fun hnil ↦ hne (hnil ▸ hw)
          obtain ⟨ps', hps', hshown'⟩ := kept_of_match hps (fun c hc ↦ hw.not_mem hc) hrest
          have hlt : ps'.length < (Piece.kept a :: ps).length := by
            have := List.length_pos_iff.mpr hw'
            rw [hps', List.length_append, List.length_map]
            omega
          have hstanding : Standing rule.re ps' := fun rule' w' hmem ↦
            hps rule' w' (hps' ▸ List.mem_append_right _ hmem)
          obtain ⟨qs, href, hshown, hclean⟩ := ih _ hlt hstanding rfl
          refine ⟨.cut rule w :: qs, hps' ▸ .cut hw href, ?_, hclean.cons_cut hne rule w⟩
          show rule.marker ++ shown qs = rule.re.replaceAll rule.marker (a :: shown ps)
          rw [replaceAll_of_some hhead hrest hw', hshown, hshown']

/-- If nothing that was kept matches, nothing does. -/
theorem found_shown {r : Regex α} (hne : ¬r.Matches []) {ps : List (Piece α)} (hps : Standing r ps)
    (hclean : Clean r ps) : r.found (shown ps) = false := by
  induction ps with
  | nil =>
    rw [Bool.eq_false_iff]
    intro hfound
    obtain ⟨u, w, v, h, hw⟩ := found_iff.mp hfound
    have hnil := List.append_eq_nil_iff.mp (List.append_eq_nil_iff.mp h).1
    exact hne (hnil.2 ▸ hw)
  | cons p ps ih =>
    have htail : r.found (shown ps) = false := by
      refine ih hps.tail fun pre w post h ↦ hclean (p :: pre) w post ?_
      rw [h]
      rfl
    cases p with
    | cut rule w => exact ((hps rule w (List.mem_cons_self ..)).found _).trans htail
    | kept a =>
      show r.found (a :: shown ps) = false
      rw [found, List.tails_cons, List.any_cons, Bool.or_eq_false_iff]
      refine ⟨?_, htail⟩
      rw [Bool.eq_false_iff, ne_eq, List.isSome_head?]
      intro hrests
      obtain ⟨rest, hrest⟩ := List.exists_mem_of_ne_nil _ hrests
      obtain ⟨w, hw, h⟩ := mem_rests.mp hrest
      obtain ⟨ps', hps', -⟩ := kept_of_match hps (fun c hc ↦ hw.not_mem hc) h
      exact hclean [] w ps' hps' hw

/-- A marker is seen: of its first symbol there is more than there was. -/
theorem count_lt [BEq α] [LawfulBEq α] {rule : Rule α} {c : α} {ps : List (Piece α)}
    (hc : c ∈ rule.marker) (hnew : ∀ rule' w', .cut rule' w' ∈ ps → c ∉ w') {w : List α}
    (hcut : .cut rule w ∈ ps) : (source ps).count c < (shown ps).count c := by
  have hle :
      ∀ qs : List (Piece α), (∀ p ∈ qs, p ∈ ps) → (source qs).count c ≤ (shown qs).count c := by
    intro qs hqs
    induction qs with
    | nil => exact le_refl _
    | cons p qs ih =>
      have htail := ih fun p hp ↦ hqs p (List.mem_cons_of_mem _ hp)
      show (p.source ++ source qs).count c ≤ (p.shown ++ shown qs).count c
      rw [List.count_append, List.count_append]
      cases p with
      | kept a => exact Nat.add_le_add_left htail _
      | cut rule' w' =>
        have hzero : w'.count c = 0 :=
          List.count_eq_zero.mpr (hnew rule' w' (hqs _ (List.mem_cons_self ..)))
        show w'.count c + _ ≤ _
        omega
  obtain ⟨pre, post, rfl⟩ := List.append_of_mem hcut
  have hpre := hle pre fun p hp ↦ List.mem_append_left _ hp
  have hpost := hle post fun p hp ↦ List.mem_append_right _ (List.mem_cons_of_mem _ hp)
  have hzero : w.count c = 0 := List.count_eq_zero.mpr (hnew rule w hcut)
  have hpos : 0 < rule.marker.count c := List.count_pos_iff.mpr hc
  have hsource : source (Piece.cut rule w :: post) = w ++ source post := rfl
  have hshown : shown (Piece.cut rule w :: post) = rule.marker ++ shown post := rfl
  rw [source_append, shown_append, hsource, hshown]
  simp only [List.count_append]
  omega

/-! ## Rules that were applied -/

/-- Every rule leaves every marker alone. -/
def Compatible (rules : List (Rule α)) : Prop :=
  ∀ rule ∈ rules, ∀ rule' ∈ rules, Walled rule.re rule'.marker

/-- **What rules make of a text.**  It is cut into pieces.  The ones that a rule matches are
replaced by its marker, and in what lies between them no rule has a match. -/
def Redacts (rules : List (Rule α)) (text redacted : List α) : Prop :=
  ∃ ps, source ps = text ∧ shown ps = redacted ∧
    (∀ rule w, .cut rule w ∈ ps → rule ∈ rules ∧ rule.re.Matches w) ∧
    ∀ rule ∈ rules, Clean rule.re ps

namespace Redacts

variable {rules : List (Rule α)} {text redacted : List α} {rule : Rule α}

theorem start (text : List α) : Redacts [] text text :=
  ⟨text.map .kept, source_kept text, shown_kept text, by simp, by simp⟩

/-- Another rule is applied. -/
theorem replaceAll (h : Redacts rules text redacted) (hall : Compatible (rules ++ [rule])) :
    Redacts (rules ++ [rule]) text (rule.re.replaceAll rule.marker redacted) := by
  obtain ⟨ps, rfl, rfl, hcuts, hclean⟩ := h
  have hlast : rule ∈ rules ++ [rule] := List.mem_append_right _ (List.mem_singleton_self _)
  have hps : Standing rule.re ps := fun rule' w hmem ↦
    hall rule hlast rule' (List.mem_append_left _ (hcuts rule' w hmem).1)
  obtain ⟨qs, href, hshown, hnew⟩ := exists_refines rule (hall rule hlast rule hlast).1 hps
  refine ⟨qs, href.source_eq, hshown, fun rule' w hmem ↦ ?_, fun rule' hrule' ↦ ?_⟩
  · rcases href.mem_cut hmem with hmem | ⟨rfl, hw⟩
    · exact ⟨List.mem_append_left _ (hcuts rule' w hmem).1, (hcuts rule' w hmem).2⟩
    · exact ⟨hlast, hw⟩
  · rcases List.mem_append.mp hrule' with hrule' | hrule'
    · exact href.clean (hclean rule' hrule')
    · rw [List.mem_singleton.mp hrule']
      exact hnew

/-- A rule that has no match in the text need not be applied. -/
theorem skip (h : Redacts rules text redacted) (hnone : rule.re.found text = false) :
    Redacts (rules ++ [rule]) text redacted := by
  obtain ⟨ps, rfl, rfl, hcuts, hclean⟩ := h
  refine ⟨ps, rfl, rfl, fun rule' w hmem ↦ ?_, fun rule' hrule' ↦ ?_⟩
  · exact ⟨List.mem_append_left _ (hcuts rule' w hmem).1, (hcuts rule' w hmem).2⟩
  · rcases List.mem_append.mp hrule' with hrule' | hrule'
    · exact hclean rule' hrule'
    · rw [List.mem_singleton.mp hrule']
      intro pre w post hps hw
      have hfound : rule.re.found (source ps) = true := by
        refine found_iff.mpr ⟨source pre, w, source post, ?_, hw⟩
        rw [hps, source_append, source_append, source_kept, List.append_assoc]
      rw [hnone] at hfound
      cases hfound

/-- **Nothing is left of what the rules look for.** -/
theorem clean (h : Redacts rules text redacted) (hall : Compatible rules) (hrule : rule ∈ rules) :
    rule.re.found redacted = false := by
  obtain ⟨ps, rfl, rfl, hcuts, hclean⟩ := h
  exact found_shown (hall rule hrule rule hrule).1
    (fun rule' w hmem ↦ hall rule hrule rule' (hcuts rule' w hmem).1) (hclean rule hrule)

/-- **The text has changed exactly if one of the rules matched.** -/
theorem ne_iff [DecidableEq α] (h : Redacts rules text redacted) (hall : Compatible rules) :
    redacted ≠ text ↔ ∃ rule ∈ rules, rule.re.found text = true := by
  obtain ⟨ps, rfl, rfl, hcuts, hclean⟩ := h
  constructor
  · intro hne
    by_contra hnone
    have hkept : ∀ p ∈ ps, p.shown = p.source := by
      intro p hp
      cases p with
      | kept a => rfl
      | cut rule w =>
        obtain ⟨hrule, hw⟩ := hcuts rule w hp
        obtain ⟨pre, post, rfl⟩ := List.append_of_mem hp
        refine absurd ⟨rule, hrule, found_iff.mpr ⟨source pre, w, source post, ?_, hw⟩⟩ hnone
        rw [source_append, List.append_assoc]
        rfl
    exact hne (List.flatMap_congr hkept)
  · rintro ⟨rule, hrule, hfound⟩ heq
    have hstanding : ∀ rule ∈ rules, Standing rule.re ps := fun rule hrule rule' w hmem ↦
      hall rule hrule rule' (hcuts rule' w hmem).1
    -- Something was cut out, as the rule no longer matches.
    have hcut : ∃ rule' w, Piece.cut rule' w ∈ ps := by
      by_contra hnone
      have hsame :=
        found_shown (hall rule hrule rule hrule).1 (hstanding rule hrule) (hclean rule hrule)
      rw [heq, hfound] at hsame
      cases hsame
    obtain ⟨rule', w', hmem⟩ := hcut
    obtain ⟨hrule', -⟩ := hcuts rule' w' hmem
    obtain ⟨c, hc, hnew⟩ :
        ∃ c ∈ rule'.marker, ∀ rule'' w'', Piece.cut rule'' w'' ∈ ps → c ∉ w'' := by
      obtain ⟨-, c, body, d, hmarker, -⟩ := hall rule' hrule' rule' hrule'
      refine ⟨c, by simp [hmarker], fun rule'' w'' hmem'' ↦ ?_⟩
      obtain ⟨hrule'', hw''⟩ := hcuts rule'' w'' hmem''
      obtain ⟨-, c', body', d', hmarker', hc', -⟩ := hall rule'' hrule'' rule' hrule'
      rw [hmarker'] at hmarker
      obtain ⟨rfl, -⟩ := List.cons.inj hmarker
      exact hw''.not_mem hc'
    have hlt := count_lt hc hnew hmem
    rw [heq] at hlt
    exact lt_irrefl _ hlt

end Redacts

end Regex
